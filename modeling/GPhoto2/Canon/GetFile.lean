import GPhoto2.Lib.Endian
import GPhoto2.Lib.Outcome
import GPhoto2.Result

/-!
# `GPhoto2.Canon.GetFile`: a file or a thumbnail over the Canon serial line

`canon_serial_get_file` and `canon_serial_get_thumbnail` of `serial.c`, behind their first check,
that of `receive_error`, which ends them before anything is asked of the camera. The messages of the
camera are what `canon_serial_dialogue` and then `canon_serial_recv_msg` return. Running out of
memory is not modelled.
-/

set_option autoImplicit false

/-! ## Listing a directory over the Canon serial line

`canon_serial_get_dirents` of `serial.c`. The messages of the camera are what
`canon_serial_dialogue` and then `canon_serial_recv_msg` return, or nothing where they return
`NULL`. Memory that has been allocated and not yet written has no contents. Running out of memory is
not modelled.
-/

namespace GPhoto2.Canon

open Lib

/-- A message. Its length comes from two bytes of its header. -/
structure Message where
  bytes : List UInt8
  bytes_length : bytes.length < 65536

/-- The bytes of an allocated block. -/
abbrev Memory := List (Option UInt8)

/-- `memcpy` into a block, from the offset on. -/
def copyTo (data : Memory) (offset : Nat) (bytes : List UInt8) : Memory :=
  data.take offset ++ bytes.map some ++ data.drop (offset + bytes.length)

/-- `CANON_MINIMUM_DIRENT_SIZE`. -/
def canonMinimumDirentSize : Nat := 11

/-- `*dirents_length - 5`, of unsigned integers. -/
def withoutHeader (direntsLength : Nat) : Nat := (direntsLength + 4294967296 - 5) % 4294967296

/-- The next message, `GP_ERROR` if there is none. -/
def nextMessage : Comp (List (Option Message)) Int Message := fun messages =>
  match messages with
  | [] => some (.error gpError, [])
  | none :: messages => some (.error gpError, messages)
  | some p :: messages => some (.ok p, messages)

/-- The block, with more memory where the contents of a message do not fit behind what there is. -/
def makeRoom (data : Memory) (totalSize direntsLength : Nat) :
    Comp (List (Option Message)) Int Memory :=
  if (totalSize + withoutHeader direntsLength) % 4294967296 > data.length then
    if data.length + max 1024 direntsLength > 1024 * 1024 then
      Comp.throw gpError
    else
      pure (data ++ List.replicate (max 1024 direntsLength) none)
  else
    pure data

/-- The loop of `canon_serial_get_dirents`, behind the message `p`. It is stuck where it leaves the
block. -/
def readDirents : Nat → Memory → Nat → Message → Comp (List (Option Message)) Int (Memory × Nat)
  | 0, _, _, _ => Comp.stuck
  | fuel + 1, data, totalSize, p =>
    if p.bytes.getD 4 0 ≠ 0 then
      pure (data, p.bytes.length)
    else do
      let p ← nextMessage
      let count := withoutHeader p.bytes.length
      if count < canonMinimumDirentSize then
        Comp.throw gpError
      else do
        let data ← makeRoom data totalSize p.bytes.length
        if totalSize + count > data.length then
          Comp.stuck
        else
          readDirents fuel (copyTo data totalSize (p.bytes.drop 5))
            ((totalSize + count) % 4294967296) p

/-- `canon_serial_get_dirents`: `*dirent_data` and `*dirents_length`. -/
def getDirents : Comp (List (Option Message)) Int (Memory × Nat) := do
  let messages ← Comp.get
  let p ← nextMessage
  let direntsLength := p.bytes.length
  if direntsLength < 5 then
    Comp.throw gpError
  else
    let data := List.replicate (max 1024 (direntsLength - 5)) none
    readDirents (messages.length + 1) (copyTo data 0 (p.bytes.drop 5)) direntsLength p

/-- `le32atoh` of a place in a message. -/
def Message.word (m : Message) (offset : Nat) : Nat :=
  ByteOrder.little.decode ((m.bytes.drop offset).take 4)

/-- `SL_PICTURE`, which is `max_picture_size` of every model. -/
def slPicture : Nat := 10485760

/-- The variables of a download: `total`, `file` (or `*data`) and `expect`. -/
structure Download where
  total  : Nat
  file   : Memory
  expect : Nat

/-- What a message carries: `size` bytes from the twentieth on. -/
def Message.chunk (m : Message) : List UInt8 := (m.bytes.drop 20).take (m.word 12)

namespace Download

/-- The download behind its allocation. -/
def start (total : Nat) : Download where
  total  := total
  file   := List.replicate total none
  expect := 0

/-- The chunk "doesn't fit". The sums are of unsigned integers. -/
def misfits (d : Download) (m : Message) : Prop :=
  m.word 8 ≠ d.expect ∨ (d.expect + m.word 12) % 4294967296 > d.total ∨
    m.word 12 > m.bytes.length - 20

instance (d : Download) (m : Message) : Decidable (d.misfits m) :=
  inferInstanceAs (Decidable (_ ∨ _ ∨ _))

/-- `memcpy (file + expect, msg + 20, size); expect += size;`. It is stuck where it leaves the
message or the block. -/
def store (d : Download) (m : Message) : Comp (List (Option Message)) Int Download :=
  if 20 + m.word 12 > m.bytes.length ∨ d.expect + m.word 12 > d.file.length then
    Comp.stuck
  else
    pure { d with file   := copyTo d.file d.expect m.chunk
                  expect := (d.expect + m.word 12) % 4294967296 }

/-- The body of either loop, behind the check of the header. -/
def take (d : Download) (m : Message) : Comp (List (Option Message)) Int Download :=
  if d.misfits m then
    Comp.throw gpError
  else do
    let d ← d.store m
    if (if d.expect = d.total then 1 else 0) ≠ m.word 16 then
      Comp.throw gpError
    else
      pure d

end Download

/-- `len < 20 || le32atoh (msg)`. -/
def Message.refused (m : Message) : Prop := m.bytes.length < 20 ∨ m.word 0 ≠ 0

instance (m : Message) : Decidable m.refused := inferInstanceAs (Decidable (_ ∨ _))

/-- The download so far. It is begun at the first message. -/
def begun (d : Option Download) (m : Message) : Comp (List (Option Message)) Int Download :=
  match d with
  | some d => pure d
  | none =>
    if m.word 4 > slPicture then
      Comp.throw gpError
    else
      pure (Download.start (m.word 4))

/-- The loop of `canon_serial_get_file`, with the message `m`. -/
def getFileLoop : Nat → Option Download → Message → Comp (List (Option Message)) Int Memory
  | 0, _, _ => Comp.stuck
  | fuel + 1, d, m =>
    if m.refused then
      Comp.throw gpError
    else do
      let d ← begun d m
      let d ← d.take m
      if d.expect = d.total then
        pure d.file
      else do
        let m ← nextMessage
        getFileLoop fuel (some d) m

/-- `canon_serial_get_file`. The error stands for `NULL`. -/
def getFile : Comp (List (Option Message)) Int Memory := do
  let messages ← Comp.get
  let m ← nextMessage
  getFileLoop (messages.length + 1) none m

/-- What `canon_serial_recv_msg` returns. -/
def messageOrNull : Comp (List (Option Message)) Int (Option Message) := fun messages =>
  match messages with
  | [] => some (.ok none, [])
  | m :: messages => some (.ok m, messages)

/-- The loop of `canon_serial_get_thumbnail`, with the message `m`. It also ends, and with
success, where there is no further message. -/
def getThumbnailLoop : Nat → Download → Message → Comp (List (Option Message)) Int Memory
  | 0, _, _ => Comp.stuck
  | fuel + 1, d, m =>
    if m.refused then
      Comp.throw gpError
    else do
      let d ← d.take m
      if d.expect = d.total then
        pure d.file
      else do
        let next ← messageOrNull
        match next with
        | none => pure d.file
        | some m => getThumbnailLoop fuel d m

/-- `canon_serial_get_thumbnail`. The size is read before the length of the message is checked; a
message too short to hold it is refused by the loop. -/
def getThumbnail : Comp (List (Option Message)) Int Memory := do
  let messages ← Comp.get
  let m ← nextMessage
  if m.word 4 > 2000000 then
    Comp.throw gpError
  else
    getThumbnailLoop (messages.length + 1) (Download.start (m.word 4)) m

end GPhoto2.Canon
