import GPhoto2.CString
import GPhoto2.Lib.Endian
import GPhoto2.Result
import Mathlib.Logic.Function.Basic

/-!
# `GPhoto2.File.MemoryFile`: the buffer and the read offset of a memory file

`gphoto2-file.c` for files of the access type `GP_FILE_ACCESSTYPE_MEMORY`, with what
`GPhoto2.File.CameraFile` leaves out: the pointer to the data, the size that is recorded beside
it, and the offset that `gp_file_slurp` reads from. Each operation is given what its caller and
the system give it.

A read or a write outside of a block, and a block that is freed twice, have no defined outcome:
`none`. Memory is never short, but as in the C library of the target a block that is reallocated
to no bytes is freed.
-/

set_option autoImplicit false

namespace GPhoto2

open Lib

/-- What a pointer points to. -/
inductive Block
  | null
  | bytes (block : List UInt8)
  | freed
  deriving DecidableEq

/-- `struct _CameraFile` of a memory file. -/
structure MemoryFile where
  mimeType : CString
  name : CString
  mtime : Int
  data : Block
  size : Nat
  offset : Nat
  deriving DecidableEq

/-! ### Blocks -/

/-- `free`, of a pointer that may be null. -/
def free : Block → Option Unit
  | .freed => none
  | _ => some ()

/-- `memcpy` from a block. Where there is nothing to copy the pointer does not matter. -/
def readBlock (data : Block) (off n : Nat) : Option (List UInt8) :=
  if n = 0 then some []
  else
    match data with
    | .bytes block => slice block off n
    | _ => none

/-! ### Operations -/

/-- `gp_file_new`. -/
def gpFileNewMemory : MemoryFile :=
  { mimeType := "unknown/unknown".toList, name := [], mtime := 0, data := .null, size := 0,
    offset := 0 }

/-- `gp_file_append`. -/
def gpFileAppend (file : MemoryFile) (data : List UInt8) : Option (Int × MemoryFile) :=
  match file.data with
  | .freed => none
  | .null =>
    -- the block has room for the new bytes only
    if file.size = 0 ∨ data = [] then
      some (0, { file with data := .bytes data, size := file.size + data.length })
    else none
  | .bytes block =>
    if file.size + data.length = 0 then some (gpErrorNoMemory, { file with data := .freed })
    else
      some (0, { file with
        data := .bytes
          (block.take file.size ++ List.replicate (file.size - block.length) 0 ++ data)
        size := file.size + data.length })

/-- `file->size - file->offset`, an `unsigned long`. -/
def unreadSize (file : MemoryFile) : Nat :=
  if file.offset ≤ file.size then file.size - file.offset else file.size + 2 ^ 64 - file.offset

/-- `gp_file_slurp`: the bytes that it copies to its caller. -/
def gpFileSlurp (file : MemoryFile) (size : Nat) : Option (List UInt8 × MemoryFile) :=
  let size := if unreadSize file < size then unreadSize file else size
  (readBlock file.data file.offset size).map fun bytes =>
    (bytes, { file with offset := file.offset + size })

/-- The pointer to a block of its caller, or null. -/
def callerBlock : Option (List UInt8) → Block
  | none => .null
  | some block => .bytes block

/-- `gp_file_set_data_and_size`. The caller's block has as many bytes as it says. -/
def gpFileSetDataAndSize (file : MemoryFile) (data : Option (List UInt8)) : Option MemoryFile :=
  (free file.data).map fun _ =>
    { file with data := callerBlock data, size := (data.getD []).length }

/-- `gp_file_clean`. -/
def gpFileClean (file : MemoryFile) : Option MemoryFile :=
  (free file.data).map fun _ => { file with data := .null, size := 0, name := [] }

/-- `mime_table`. -/
def mimeTable : List (CString × CString) :=
  [("bmp".toList, "image/bmp".toList),
   ("jpg".toList, "image/jpeg".toList),
   ("tif".toList, "image/tiff".toList),
   ("ppm".toList, "image/x-portable-pixmap".toList),
   ("pgm".toList, "image/x-portable-graymap".toList),
   ("pnm".toList, "image/x-portable-anymap".toList),
   ("png".toList, "image/png".toList),
   ("wav".toList, "audio/wav".toList),
   ("avi".toList, "video/x-msvideo".toList),
   ("mp3".toList, "audio/mpeg".toList),
   ("wma".toList, "audio/x-wma".toList),
   ("asf".toList, "audio/x-asf".toList),
   ("ogg".toList, "application/ogg".toList),
   ("mpg".toList, "video/mpeg".toList),
   ("raw".toList, "image/x-raw".toList),
   ("mts".toList, "video/mp2t".toList),
   ("m2ts".toList, "video/mp2t".toList)]

/-- What is behind the last occurrence of a character: `strrchr`. -/
def afterLast (c : Char) (s : CString) : Option CString :=
  if c ∈ s then some (s.reverse.takeWhile (· ≠ c)).reverse else none

/-- The MIME type that `gp_file_open` takes from the name of the file: `sprintf` of a suffix that
is not in the table, into 64 bytes. -/
def openedMimeType (filename : CString) : Option CString :=
  match afterLast '.' filename with
  | none => some "application/octet-stream".toList
  | some suffix =>
    match mimeTable.find? fun entry => entry.1.map Char.toLower = suffix.map Char.toLower with
    | some entry => some entry.2
    | none =>
      if ("image/".toList ++ suffix).length < 64 then some ("image/".toList ++ suffix) else none

/-- What the system answers when a file is opened: it fails, or the file has a size, as `ftell`
says, bytes to be read, an error or none, and a time. -/
inductive Opening
  | failed
  | opened (size : Int) (bytes : List UInt8) (ferror : Bool) (mtime : Int)
  deriving DecidableEq

/-- `gp_file_open`, behind its `gp_file_clean`. A file that cannot tell its size is read into an
empty block, and the zero behind its bytes is outside in any case. -/
def openInto (file : MemoryFile) (filename : CString) : Opening → Option (Int × MemoryFile)
  | .failed => some (gpError, file)
  | .opened size bytes ferror mtime =>
    if size < 0 then none
    else
      let read := bytes.take size.toNat
      if ferror then (gpFileClean { file with data := .bytes read }).map (gpError, ·)
      else
        (openedMimeType filename).map fun mimeType =>
          (0, { file with
            data := .bytes (read ++ [0])
            size := read.length
            name := ((afterLast '/' filename).getD filename).take 256
            mimeType := mimeType
            mtime := mtime })

/-- `gp_file_open`. -/
def gpFileOpen (file : MemoryFile) (filename : CString) (opening : Opening) :
    Option (Int × MemoryFile) :=
  (gpFileClean file).bind fun file => openInto file filename opening

/-- The first bytes, if there are so many. -/
def firstBytes (file : MemoryFile) (n : Nat) : Option (List UInt8) :=
  if n ≤ file.size then readBlock file.data 0 n else some []

/-- `gp_file_detect_mime_type`. -/
def gpFileDetectMimeType (file : MemoryFile) : Option MemoryFile := do
  let tiff ← firstBytes file 5
  let jpeg ← firstBytes file 2
  if tiff = [0x49, 0x49, 0x2A, 0x00, 0x08] then
    some { file with mimeType := "image/tiff".toList }
  else if jpeg = [0xFF, 0xD8] then some { file with mimeType := "image/jpeg".toList }
  else some { file with mimeType := "image/x-raw".toList }

/-! ### Copying -/

/-- The fields that `gp_file_copy` copies in any case. -/
structure GenericFields where
  mimeType : CString
  name : CString
  mtime : Int
  deriving DecidableEq

def MemoryFile.generic (file : MemoryFile) : GenericFields := ⟨file.mimeType, file.name, file.mtime⟩

def MemoryFile.withGeneric (file : MemoryFile) (fields : GenericFields) : MemoryFile :=
  { file with mimeType := fields.mimeType, name := fields.name, mtime := fields.mtime }

/-- `gp_file_copy` between two memory files. -/
def copyMemoryMemory (destination source : MemoryFile) : Option (Int × MemoryFile) := do
  let _ ← free destination.data
  let bytes ← readBlock source.data 0 source.size
  some (0, { destination.withGeneric source.generic with
    data := .bytes bytes, size := source.size })

/-- What comes of the system calls for the source, when `gp_file_copy` reads it into memory: the
descriptor is not open, all is read, or a size is found and then a `read` fails. -/
inductive FdReading
  | notOpen
  | whole (bytes : List UInt8)
  | failed (size : Nat)
  deriving DecidableEq

/-- `gp_file_copy` from a descriptor to a memory file. The block that is freed when a `read` fails
stays in the destination. -/
def copyFdMemory (destination : MemoryFile) (fields : GenericFields) (reading : FdReading) :
    Option (Int × MemoryFile) :=
  (free destination.data).map fun _ =>
    match reading with
    | .notOpen => (gpErrorIo, { destination.withGeneric fields with data := .null })
    | .whole bytes =>
      (0, { destination.withGeneric fields with data := .bytes bytes, size := bytes.length })
    | .failed size =>
      (gpErrorIoRead, { destination.withGeneric fields with data := .freed, size := size })

/-! ### Runs -/

/-- An operation on memory files, each under a number. -/
inductive FileOp
  | new (i : Nat)
  | append (i : Nat) (data : List UInt8)
  | slurp (i : Nat) (size : Nat)
  | setDataAndSize (i : Nat) (data : Option (List UInt8))
  | clean (i : Nat)
  | copy (destination source : Nat)
  | copyFromFd (i : Nat) (fields : GenericFields) (reading : FdReading)
  | copyFromHandler (i : Nat) (fields : GenericFields)
  | copyToFd (i : Nat)
  | openFile (i : Nat) (filename : CString) (opening : Opening)
  | detect (i : Nat)

/-- A file after an operation. -/
def putFile (files : Nat → MemoryFile) (i : Nat) (file : Option MemoryFile) :
    Option (Nat → MemoryFile) := file.map (Function.update files i)

/-- One operation. A file that is copied onto itself is copied from a block that has not been
filled. From a handler nothing is copied but the generic fields. -/
def stepFiles (files : Nat → MemoryFile) : FileOp → Option (Nat → MemoryFile)
  | .new i => putFile files i (some gpFileNewMemory)
  | .append i data => putFile files i ((gpFileAppend (files i) data).map (·.2))
  | .slurp i size => putFile files i ((gpFileSlurp (files i) size).map (·.2))
  | .setDataAndSize i data => putFile files i (gpFileSetDataAndSize (files i) data)
  | .clean i => putFile files i (gpFileClean (files i))
  | .copy destination source =>
    if destination = source then none
    else
      putFile files destination
        ((copyMemoryMemory (files destination) (files source)).map (·.2))
  | .copyFromFd i fields reading =>
    putFile files i ((copyFdMemory (files i) fields reading).map (·.2))
  | .copyFromHandler i fields => putFile files i (some ((files i).withGeneric fields))
  | .copyToFd i => (readBlock (files i).data 0 (files i).size).map fun _ => files
  | .openFile i filename opening =>
    putFile files i ((gpFileOpen (files i) filename opening).map (·.2))
  | .detect i => putFile files i (gpFileDetectMimeType (files i))

/-- The operations one after another. -/
def runFiles : (Nat → MemoryFile) → List FileOp → Option (Nat → MemoryFile)
  | files, [] => some files
  | files, op :: ops => (stepFiles files op).bind fun files => runFiles files ops

end GPhoto2
