import GPhoto2.Lib.Comp

/-!
# `GPhoto2.Pentax.Pslr`: downloading a buffer of the camera

`pslr_buffer_open` keeps the data segments of a buffer in a table of four, and
`pslr_buffer_read` downloads the next block of them.

An index outside of the table has no defined outcome. Left open is what the requests below those
bring: the status, the selection of a buffer, the infos of its segments, the SCSI commands. The
numbers that are only logged or handed to the progress callback are left out.
-/

set_option autoImplicit false

namespace GPhoto2.Pentax

open Lib

def pslrOk : Int := 0
def pslrReadError : Int := 4
def pslrNoMemory : Int := 5

def maxSegments : Nat := 4

/-- `BLKSZ`: the block size for downloads. -/
def blockSize : UInt32 := 65536

def blockRetry : Nat := 3

/-- `ipslr_segment_t` -/
structure Segment where
  offset : UInt32
  addr : UInt32
  length : UInt32
  deriving DecidableEq

/-- `pslr_buffer_segment_info`: the type of a segment is called `b`. -/
structure SegmentInfo where
  b : UInt32
  addr : UInt32
  length : UInt32
  deriving DecidableEq

structure PslrHandle where
  segments : Vector Segment maxSegments
  segmentCount : UInt32
  offset : UInt32

def pslrBufferClose (_ : PslrHandle) : PslrHandle :=
  { segments := Vector.replicate maxSegments ⟨0, 0, 0⟩, segmentCount := 0, offset := 0 }

/-! ### Opening -/

/-- What the requests of an open bring: their codes, the mask of the buffers that are there, and
the infos on the way back to the last segment, after a selection that failed. -/
structure OpenAnswers where
  statusFull : Int
  bufmask : UInt16
  selectBuffer : Nat → Int
  recoverInfo : Nat → Int × SegmentInfo
  recoverNext : Nat → Int
  segmentInfo : Nat → Int
  nextSegment : Nat → Int

/-- The macro `CHECK`. -/
def check (code : Int) : Comp PslrHandle Int Unit :=
  if code ≠ pslrOk then Comp.throw code else pure ()

-- The infos of the selected buffer, in the order the camera gives them.
variable (infos : Nat → SegmentInfo) (answers : OpenAnswers)

/-- Steps through segment infos until the last one, or `rounds` of them. -/
def recoverLast : Nat → Nat → Comp PslrHandle Int Unit
  | 0, _ => pure ()
  | rounds + 1, k => do
    check (answers.recoverInfo k).1
    check (answers.recoverNext k)
    if (answers.recoverInfo k).2.b = 2 then pure () else recoverLast rounds (k + 1)

/-- The loop around `ipslr_select_buffer`. -/
def selectBuffer : Nat → Nat → Comp PslrHandle Int Unit
  | 0, retry => Comp.throw (answers.selectBuffer (retry - 1))
  | tries + 1, retry =>
    if answers.selectBuffer retry = pslrOk then pure ()
    else do
      recoverLast answers 10 (10 * retry)
      selectBuffer tries (retry + 1)

/-- Enters an info in the table, and returns the index of the next segment. -/
def enterInfo (info : SegmentInfo) (j : Nat) : Comp PslrHandle Int Nat :=
  if info.b = 4 then
    if h : j < maxSegments then do
      Comp.modify fun p => { p with
        segments := p.segments.set j { p.segments[j] with offset := info.length } }
      pure j
    else Comp.stuck
  else if info.b = 3 then
    if h : j < maxSegments then do
      Comp.modify fun p => { p with
        segments := p.segments.set j
          { p.segments[j] with addr := info.addr, length := info.length } }
      pure (j + 1)
    else if j = maxSegments then Comp.throw pslrNoMemory
    else Comp.stuck
  else pure j

/-- The loop over the segment infos. -/
def enterInfos : Nat → Nat → Nat → Comp PslrHandle Int Nat
  | 0, _, j => pure j
  | rounds + 1, i, j => do
    check (answers.segmentInfo i)
    let j ← enterInfo (infos i) j
    check (answers.nextSegment i)
    if (infos i).b = 2 then pure j else enterInfos rounds (i + 1) j

def pslrBufferOpen (bufno : Nat) : Comp PslrHandle Int Unit := do
  check answers.statusFull
  if answers.bufmask.toNat.testBit bufno = false then Comp.throw pslrReadError
  else do
    selectBuffer answers 3 0
    let j ← enterInfos infos answers 9 0 0
    Comp.modify fun p => { p with segmentCount := UInt32.ofNat j, offset := 0 }

/-! ### Reading -/

/-- What a block request of a download brings: the code of its commands, and whether `scsi_read`
got the block. -/
structure BlockAnswer where
  command : Int
  received : Bool

/-- A length that is cut down to a bound. -/
def atMost (bound length : UInt32) : UInt32 := if bound < length then bound else length

theorem toNat_atMost (bound length : UInt32) :
    (atMost bound length).toNat = min bound.toNat length.toNat := by
  unfold atMost
  by_cases h : bound < length
  · rw [if_pos h]
    have hlt := UInt32.lt_iff_toNat_lt.mp h
    omega
  · rw [if_neg h]
    have hle := mt UInt32.lt_iff_toNat_lt.mpr h
    omega

theorem toNat_sub_atMost (bound length : UInt32) :
    (length - atMost bound length).toNat = length.toNat - min bound.toNat length.toNat := by
  rw [UInt32.toNat_sub_of_le _ _ (UInt32.le_iff_toNat_le.mpr ?_), toNat_atMost]
  rw [toNat_atMost]
  exact Nat.min_le_right _ _

/-- The memory of the camera from an address on. -/
def memoryAt (memory : UInt32 → UInt8) (addr length : UInt32) : List UInt8 :=
  (List.range length.toNat).map fun i => memory (addr + UInt32.ofNat i)

/-- The code, and what is in the buffer. -/
def ipslrDownload (memory : UInt32 → UInt8) (answer : Nat → BlockAnswer) (k retry : Nat)
    (addr length : UInt32) (buf : List UInt8) : Int × List UInt8 :=
  if length = 0 then (pslrOk, buf)
  else
    let block := atMost blockSize length
    if (answer k).command ≠ pslrOk then ((answer k).command, buf)
    else if (answer k).received then
      ipslrDownload memory answer (k + 1) 0 (addr + block) (length - block)
        (buf ++ memoryAt memory addr block)
    else if retry < blockRetry then
      ipslrDownload memory answer (k + 1) (retry + 1) addr length buf
    else (pslrReadError, buf)
termination_by (length.toNat, blockRetry - retry)
decreasing_by
  · rename_i hlength _ _
    have hpos : length.toNat ≠ 0 := fun h => hlength (UInt32.toNat_inj.mp h)
    have hsize : blockSize.toNat = 65536 := rfl
    refine Prod.Lex.left _ _ ?_
    rw [toNat_sub_atMost]
    omega
  · exact Prod.Lex.right _ (by omega)

/-- The first segment, from the index `i` on, that ends behind the offset of the handle, and the
sum of the lengths in front of it. `pos` is that sum up to `i`, and `n` the number of segments
left. -/
def currentSegment (p : PslrHandle) : Nat → Nat → UInt32 → Option (Nat × UInt32)
  | 0, i, pos => some (i, pos)
  | n + 1, i, pos => do
    let segment ← p.segments[i]?
    if p.offset < pos + segment.length then some (i, pos)
    else currentSegment p n (i + 1) (pos + segment.length)

/-- A call of `pslr_buffer_read`: the size of the buffer, and what the requests bring. -/
structure ReadCall where
  size : UInt32
  answer : Nat → BlockAnswer

/-- The code of the download, the bytes that are read, and the handle after it. The number of
bytes is what the function returns. -/
def pslrBufferRead (memory : UInt32 → UInt8) (call : ReadCall) (p : PslrHandle) :
    Option (Int × List UInt8 × PslrHandle) := do
  let (i, pos) ← currentSegment p p.segmentCount.toNat 0 0
  let segment ← p.segments[i]?
  let segOffs := p.offset - pos
  let left := segment.length - segOffs
  let size := atMost blockSize (atMost left call.size)
  let (ret, buf) := ipslrDownload memory call.answer 0 0 (segment.addr + segOffs) size []
  if ret ≠ pslrOk then some (ret, [], p)
  else some (ret, buf, { p with offset := p.offset + size })

/-- The sum of the lengths from the index `i` on. -/
def sumLengths (p : PslrHandle) : Nat → Nat → UInt32 → Option UInt32
  | 0, _, len => some len
  | n + 1, i, len => do
    let segment ← p.segments[i]?
    sumLengths p n (i + 1) (len + segment.length)

def pslrBufferGetSize (p : PslrHandle) : Option UInt32 :=
  sumLengths p p.segmentCount.toNat 0 0

end GPhoto2.Pentax
