import GPhoto2.File.MemoryFile

/-!
# `GPhoto2.File.Copy`: copying between memory and descriptors

`gp_file_copy` for memory files and files behind a descriptor. A descriptor is not open, or refers
to a regular file with a content and a position, that can be read, written and truncated; the
destination and the source are two different files. What a `read` or a `write` answers, and how far
it comes, is up to the system: each copy is given the answers to all the calls that it makes. With
other answers, or with more or fewer of them, it is not a run of the copy, and gives `none`.
-/

set_option autoImplicit false

namespace GPhoto2

open Lib

/-- The regular file that an open descriptor refers to. -/
structure OpenFile where
  content : List UInt8
  pos : Nat
  deriving DecidableEq

/-- `struct _CameraFile` of a file behind a descriptor. -/
structure FdFile where
  generic : GenericFields
  fd : Option OpenFile
  deriving DecidableEq

/-! ### System calls -/

/-- The answer to a call: `-1`, or how many bytes it has moved. -/
inductive Answer
  | failed
  | moved (n : Nat)
  deriving DecidableEq

/-- `read` of up to `n` bytes, that brings `k` of them: none only at the end of the file. -/
def sysRead (file : OpenFile) (n k : Nat) : Option (List UInt8 × OpenFile) :=
  let rest := (file.content.drop file.pos).take n
  if k ≤ rest.length ∧ (k = 0 → rest = []) then
    some (rest.take k, { file with pos := file.pos + k })
  else none

/-- A file after some bytes were written at a position. -/
def writeAt (content : List UInt8) (pos : Nat) (bytes : List UInt8) : List UInt8 :=
  if bytes = [] then content
  else
    content.take pos ++ List.replicate (pos - content.length) 0 ++ bytes ++
      content.drop (pos + bytes.length)

/-- `write` of some bytes, that takes the first `k` of them. -/
def sysWrite (file : OpenFile) (data : List UInt8) (k : Nat) : Option OpenFile :=
  if k ≤ data.length then
    some ⟨writeAt file.content file.pos (data.take k), file.pos + k⟩
  else none

/-! ### Loops -/

/-- The loop that reads a file of known size into memory: its bytes, or none if a call fails or
brings nothing. -/
def readLoop : List Answer → OpenFile → Nat → Option (Option (List UInt8) × OpenFile)
  | [], file, n => if n = 0 then some (some [], file) else none
  | answer :: reads, file, n =>
    if n = 0 then none
    else
      match answer with
      | .failed => if reads = [] then some (none, file) else none
      | .moved k => (sysRead file n k).bind fun read =>
        if k = 0 then
          if reads = [] then some (none, read.2) else none
        else
          (readLoop reads read.2 (n - k)).map fun rest =>
            (rest.1.map (read.1 ++ ·), rest.2)

/-- How a loop of `write` calls ends: all bytes are written, or a call fails, or takes nothing. -/
inductive WriteEnd
  | done
  | failed
  | noProgress
  deriving DecidableEq

/-- The loop of `write` calls for some bytes. -/
def writeLoop : List Answer → Option OpenFile → List UInt8 → Option (WriteEnd × Option OpenFile)
  | [], file, data => if data = [] then some (.done, file) else none
  | answer :: writes, file, data =>
    if data = [] then none
    else
      match answer with
      | .failed => if writes = [] then some (.failed, file) else none
      | .moved k => file.bind fun file => (sysWrite file data k).bind fun file =>
        if k = 0 then
          if writes = [] then some (.noProgress, some file) else none
        else writeLoop writes (some file) (data.drop k)

/-- One round between two descriptors: a `read`, and the `write` calls for what it brings. -/
structure Round where
  read : Answer
  writes : List Answer
  deriving DecidableEq

/-- The loop between two descriptors. A `write` that takes nothing only ends the loop for this
piece, and a piece of less than 65536 bytes is taken for the last one. -/
def copyLoop : List Round → Option OpenFile → Option OpenFile →
    Option (Int × Option OpenFile × Option OpenFile)
  | [], _, _ => none
  | round :: rounds, destination, source =>
    match round.read with
    | .failed =>
      if round.writes = [] ∧ rounds = [] then some (gpErrorIoRead, destination, source) else none
    | .moved k => source.bind fun source => (sysRead source 65536 k).bind fun read =>
      if k = 0 then
        if round.writes = [] ∧ rounds = [] then some (0, destination, some read.2) else none
      else
        (writeLoop round.writes destination read.1).bind fun written =>
          if written.1 = .failed then
            if rounds = [] then some (gpErrorIoWrite, written.2, some read.2) else none
          else if k < 65536 then
            if rounds = [] then some (0, written.2, some read.2) else none
          else copyLoop rounds written.2 (some read.2)

/-! ### `gp_file_copy` -/

/-- The source at its start. -/
def rewindFile (file : OpenFile) : OpenFile := { file with pos := 0 }

/-- The source of a copy into memory. -/
def readFd (file : Option OpenFile) (reads : List Answer) :
    Option (FdReading × Option OpenFile) :=
  match file with
  | none => if reads = [] then some (.notOpen, none) else none
  | some file =>
    (readLoop reads (rewindFile file) file.content.length).map fun read =>
      (read.1.elim (.failed file.content.length) .whole, some read.2)

/-- A `CameraFile` of one of the two access types. -/
inductive AnyFile
  | memory (file : MemoryFile)
  | fd (file : FdFile)
  deriving DecidableEq

/-- A destination and a source, with the answers to the calls of their copy. -/
inductive CopyRun
  | memoryMemory (destination source : MemoryFile)
  | fdMemory (destination : MemoryFile) (source : FdFile) (reads : List Answer)
  | fdFd (destination source : FdFile) (rounds : List Round)
  | memoryFd (destination : FdFile) (source : MemoryFile) (writes : List Answer)
  deriving DecidableEq

/-- What is returned for the end of the loop from memory to a descriptor. -/
def writeEndCode : WriteEnd → Int
  | .done => 0
  | .failed => gpErrorIoWrite
  | .noProgress => gpErrorIoWrite

/-- `gp_file_copy`: its result, the destination and the source. -/
def CopyRun.gpFileCopy : CopyRun → Option (Int × AnyFile × AnyFile)
  | .memoryMemory destination source =>
    (copyMemoryMemory destination source).map fun r => (r.1, .memory r.2, .memory source)
  | .fdMemory destination source reads =>
    (readFd source.fd reads).bind fun reading =>
      (copyFdMemory destination source.generic reading.1).map fun r =>
        (r.1, .memory r.2, .fd { source with fd := reading.2 })
  | .fdFd destination source rounds =>
    -- `lseek` and `ftruncate` of the destination, `lseek` of the source
    (copyLoop rounds (destination.fd.map fun _ => ⟨[], 0⟩) (source.fd.map rewindFile)).map fun r =>
      (r.1, .fd ⟨source.generic, r.2.1⟩, .fd { source with fd := r.2.2 })
  | .memoryFd destination source writes =>
    (readBlock source.data 0 source.size).bind fun bytes =>
      (writeLoop writes destination.fd bytes).map fun r =>
        (writeEndCode r.1, .fd ⟨source.generic, r.2⟩, .memory source)

end GPhoto2
