import GPhoto2.Ptp.PackString
import GPhoto2.Result

/-!
# `GPhoto2.Ptp.Viewfinder`: the preview image of an EOS camera

`camera_capture_preview` walks over the blobs of a viewfinder block: a 32-bit length, a 32-bit
type and the data, the length counting all three. The blob of type 1 holds the JPEG preview.

A read outside of the block has no defined outcome (`none`). Pointers are wider than 32 bits and
memory is never short. The name and the MIME type the file gets are left out.
-/

set_option autoImplicit false

namespace GPhoto2

open Lib

/-- What `ptp_canon_eos_get_viewfinder_image` returns: `size` is a `uint32_t`. -/
structure ViewfinderBlock where
  data : List UInt8
  size_lt : data.length < UInt32.size

variable (params : PTPParams) (data : List UInt8)

/-- The length and the type of the blob at an offset. -/
def blobHeader (off : Nat) : Option (UInt32 × UInt32) := do
  let len ← dtoh32ap params data off
  let type ← dtoh32ap params data (off + 4)
  some (len, type)

/-- What `gp_log_data` reads: nothing of an empty buffer, at most a megabyte of a large one. -/
def gpLogData (off : Nat) (size : UInt32) : Option Unit :=
  if size = 0 ∨ off + min size.toNat (1024 * 1024) ≤ data.length then some () else none

/-- The loop over the blobs behind the JPEG. -/
def dumpBlobs : Nat → Nat → Option Unit
  | 0, _ => none
  | fuel + 1, off =>
    if data.length ≤ off then some ()
    else do
      let (len, _) ← blobHeader params data off
      if data.length - off < len.toNat then some ()
      else do
        gpLogData data off len
        dumpBlobs fuel (off + len.toNat)

variable (file : List UInt8)

/-- The loop over the blobs: the result code, and the contents of the file. -/
def walkBlobs : Nat → Nat → Option (Int × List UInt8)
  | 0, _ => none
  | fuel + 1, off =>
    if data.length ≤ off then some (gpError, file)
    else do
      let (len, type) ← blobHeader params data off
      if type ≠ 1 then do
        gpLogData data off len
        walkBlobs fuel (off + len.toNat)
      else if data.length - off < len.toNat then some (gpError, file)
      else do
        -- `len - 8` wraps for a blob that is shorter than its header.
        let jpeg ← slice data (off + 8) (len - 8).toNat
        dumpBlobs params data fuel (off + len.toNat)
        some (0, file ++ jpeg)

end GPhoto2
