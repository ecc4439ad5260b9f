import GPhoto2.CString
import GPhoto2.Result

/-!
# `GPhoto2.File.CameraFile`: the file object a caller and the cache share

The part of `gphoto2-file.c` the filesystem calls. A `CameraFile` is held by reference: the
cache keeps the very object a caller passed in, so a later write to it is seen by both.

`data` is the content: the buffer of a memory file, or the bytes behind a descriptor or a
handler. `sizeError` is the code a size query fails with on a descriptor or handler that
cannot tell its size, such as a pipe.
-/

set_option autoImplicit false

namespace GPhoto2

/-- The address of a `CameraFile`. -/
abbrev CameraFileRef := Nat

/-- `CameraFileType`. `unknown` is any number without a constant, the `default:` of the
switches. -/
inductive CameraFileType
  | preview
  | normal
  | raw
  | audio
  | exif
  | metadata
  | unknown (n : Nat)
  deriving DecidableEq

inductive CameraFileAccessType
  | memory
  | fd
  | handler
  deriving DecidableEq

structure CameraFile where
  accesstype : CameraFileAccessType
  name : CString
  mimeType : CString
  mtime : Int
  data : List UInt8
  sizeError : Option Int
  deriving DecidableEq

/-- `gp_file_new`. -/
def gpFileNew : CameraFile where
  accesstype := .memory
  name := []
  mimeType := "unknown/unknown".toList
  mtime := 0
  data := []
  sizeError := none

/-- `gp_file_get_data_and_size (file, NULL, &size)`. -/
def gpFileGetSize (file : CameraFile) : Except Int Nat :=
  match file.accesstype, file.sizeError with
  | .memory, _ => .ok file.data.length
  | _, none => .ok file.data.length
  | _, some e => .error e

/-- `gp_file_set_name`: `strncpy` into the 256 bytes of `name`. -/
def gpFileSetName (file : CameraFile) (name : CString) : CameraFile :=
  { file with name := name.take 256 }

/-- `gp_file_set_mtime`. -/
def gpFileSetMtime (file : CameraFile) (mtime : Int) : CameraFile :=
  { file with mtime := mtime }

/-- The suffix table of `gp_file_adjust_name_for_mime_type`. -/
def mimeSuffixTable : List (CString × CString) :=
  [("image/x-raw".toList, "raw".toList),
   ("image/jpeg".toList, "jpg".toList),
   ("image/png".toList, "png".toList),
   ("image/x-portable-pixmap".toList, "ppm".toList),
   ("image/x-portable-graymap".toList, "pgm".toList),
   ("image/x-portable-anymap".toList, "pnm".toList),
   ("image/tiff".toList, "tif".toList),
   ("audio/wav".toList, "wav".toList),
   ("image/bmp".toList, "bmp".toList),
   ("video/x-msvideo".toList, "avi".toList),
   ("image/x-canon-raw".toList, "crw".toList),
   ("image/x-canon-cr2".toList, "cr2".toList)]

/-- The name up to and with its last dot, or the whole name when it has none. -/
def uptoLastDot (name : CString) : CString :=
  if '.' ∈ name then (name.reverse.dropWhile (· != '.')).reverse else name

/-- `gp_file_adjust_name_for_mime_type`. -/
def gpFileAdjustNameForMimeType (file : CameraFile) : CameraFile :=
  match mimeSuffixTable.lookup file.mimeType with
  | some suffix => { file with name := uptoLastDot file.name ++ suffix }
  | none => file

end GPhoto2
