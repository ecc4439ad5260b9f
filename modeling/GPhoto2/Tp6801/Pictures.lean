import GPhoto2.CString
import GPhoto2.Tp6801.Memory

/-!
# `GPhoto2.Tp6801.Pictures`: the pictures of the tp6801 picture frames

The upper half of `tp6801.c`. The pictures stand one after the other from the second block on, each
in a slot of the same size. The PAT in the first block has a byte for each slot: the number of the
picture in it, from 1 on, or that it is deleted, or that it is deleted and its memory is erased.

A picture is its encoded bytes, of which there are `filesize`.
-/

set_option autoImplicit false

namespace GPhoto2.Tp6801

open Lib

/-- `TP6801_PAT_OFFSET`. -/
def patOffset : Nat := 0x1e00

/-- `TP6801_PAT_PAGE`. -/
def patPage : Nat := patOffset / pageSize

/-- `TP6801_PAT_SIZE`. -/
def patSize : Nat := 256

/-- `TP6801_PAT_ENTRY_PRE_ERASED`. -/
def entryPreErased : UInt8 := 0xff

/-- `TP6801_PAT_ENTRY_DELETED_WIN`. -/
def entryDeletedWin : UInt8 := 0xfe

/-- `TP6801_PAT_ENTRY_DELETED_FRAME`. -/
def entryDeletedFrame : UInt8 := 0x00

/-- `TP6801_PAT_ENTRY_DELETED`. -/
def entryDeleted (x : UInt8) : Bool := x = entryDeletedWin || x = entryDeletedFrame

/-- `TP6801_CONST_DATA_SIZE`. -/
def constDataSize : Nat := 393216

/-- `TP6801_PICTURE_OFFSET`. -/
def pictureOffset (i size : Nat) : Nat := 0x10000 + i * size

namespace Camera

/-- The byte of the PAT for a slot. -/
def pat (s : Camera) (i : Nat) : UInt8 := s.mem (patOffset + i)

/-- Change the bytes of the PAT. -/
def mapPat (s : Camera) (n : Nat) (f : Nat → UInt8 → UInt8) : Camera :=
  let bytes := fun a => f (a - patOffset) (s.mem a)
  { s with mem := within patOffset n bytes s.mem, logical := within patOffset n bytes s.logical }

/-- Change the byte of the PAT for a slot. -/
def setPat (s : Camera) (i : Nat) (x : UInt8) : Camera :=
  { s with
    mem := within (patOffset + i) 1 (fun _ => x) s.mem
    logical := within (patOffset + i) 1 (fun _ => x) s.logical }

/-- The PAT is to be written. -/
def patDirty (s : Camera) : Camera := s.setPage patPage fun f => { f with dirty := true }

/-- Slot `i` gets a picture with the next number. -/
def addPicture (s : Camera) (i : Nat) : Camera :=
  ({ s with pictureCount := s.pictureCount + 1 }.setPat i
    (UInt8.ofNat (s.pictureCount + 1))).patDirty

/-- `tp6801_filesize`. -/
def filesize (s : Camera) : Nat := s.width * s.height * 2

/-- `tp6801_max_filecount`. -/
def maxFilecount (s : Camera) : Nat :=
  (s.memSize - pictureOffset 0 s.filesize - constDataSize) / s.filesize

/-- `tp6801_file_present`, of an index that is not negative. -/
def filePresent (s : Camera) (idx : Nat) : Except Int Bool :=
  if idx ≥ s.maxFilecount then
    .error gpErrorBadParameters
  else if 1 ≤ (s.pat idx).toNat ∧ (s.pat idx).toNat ≤ s.pictureCount then
    .ok true
  else if entryDeleted (s.pat idx) ∨ s.pat idx = entryPreErased then
    .ok false
  else
    .error gpErrorCorruptedData

/-- All slots become empty and erased. -/
def clearPat (s : Camera) : Camera :=
  { s.mapPat s.maxFilecount fun _ _ => entryPreErased with pictureCount := 0 }.patDirty

/-- `tp6801_get_free_mem_size`. -/
def getFreeMemSize (s : Camera) : Int :=
  ((s.maxFilecount : Int) - s.pictureCount) * s.filesize

end Camera

/-- `tp6801_check_file_present`. -/
def checkFilePresent (idx : Nat) : Comp Camera Int Unit := do
  let s ← Comp.get
  match s.filePresent idx with
  | .error e => Comp.throw e
  | .ok false => Comp.throw gpErrorBadParameters
  | .ok true => pure ()

/-- `tp6801_read_raw_file`. -/
def readRawFile (idx : Nat) : Comp Camera Int (List UInt8) := do
  let s ← Comp.get
  checkFilePresent idx
  readMem (pictureOffset idx s.filesize) s.filesize
  let t ← Comp.get
  pure ((List.range s.filesize).map fun k => t.mem (pictureOffset idx s.filesize + k))

/-- The slot for a new picture: pre-erased if there is one, else deleted. -/
def findSlot (s : Camera) : Option Nat :=
  ((List.range s.maxFilecount).find? fun i => s.pat i = entryPreErased).or
    ((List.range s.maxFilecount).find? fun i => entryDeleted (s.pat i))

/-- `tp6801_write_file`, of a picture that is encoded in these bytes. -/
def writeFile (picture : Nat → UInt8) : Comp Camera Int Unit := do
  let s ← Comp.get
  match findSlot s with
  | none => Comp.throw gpErrorNoSpace
  | some i => do
    writeMem (pictureOffset i s.filesize) ((List.range s.filesize).map picture)
    Comp.modify fun s => s.addPicture i

/-- `tp6801_delete_file`. -/
def deleteFile (idx : Nat) : Comp Camera Int Unit := do
  checkFilePresent idx
  Comp.modify fun s => (s.setPat idx entryDeletedWin).patDirty

/-- `tp6801_delete_all`. -/
def deleteAll : Comp Camera Int Unit := do
  let s ← Comp.get
  let start := pictureOffset 0 0
  let stop := s.memSize - constDataSize
  (List.range ((stop - start + (blockSize - 1)) / blockSize)).forM fun i =>
    eraseBlock (start + i * blockSize)
  Comp.modify fun s =>
    s.setPages (start / pageSize) (stop / pageSize - start / pageSize) fun _ => {}
  Comp.modify Camera.clearPat

/-! ### Committing -/

/-- No page of a slot needs to be erased. -/
def Camera.slotErased (s : Camera) (i : Nat) : Bool :=
  let first := pictureOffset i s.filesize / pageSize
  let behind := pictureOffset (i + 1) s.filesize / pageSize
  (List.range (behind - first)).all fun k => !(s.pageState (first + k)).needsErase

/-- The second loop of `tp6801_commit`: deleted slots whose memory is erased become pre-erased. -/
def markPreErased : Comp Camera Int Unit := do
  let s ← Comp.get
  (List.range s.maxFilecount).forM fun i =>
    Comp.modify fun s =>
      if entryDeleted (s.pat i) && s.slotErased i then (s.setPat i entryPreErased).patDirty else s

/-- The number occurs in the PAT. -/
def Camera.numberExists (s : Camera) (n : Nat) : Bool :=
  (List.range s.maxFilecount).any fun j => (s.pat j).toNat = n

/-- Step 2 of the renumbering: the numbers above `n` go down by one. -/
def Camera.closeGap (s : Camera) (n : Nat) : Camera :=
  { s.mapPat s.maxFilecount fun _ x =>
      if 1 ≤ x.toNat ∧ x.toNat ≤ s.pictureCount ∧ x.toNat > n then x - 1 else x
    with pictureCount := s.pictureCount - 1 }.patDirty

/-- The third loop of `tp6801_commit`, from the number `i` on. The first argument bounds the
rounds. -/
def renumber : Nat → Nat → Comp Camera Int Unit
  | 0, _ => pure ()
  | rounds + 1, i => do
    let s ← Comp.get
    if i ≤ s.pictureCount then do
      if s.numberExists i then pure () else Comp.modify fun s => s.closeGap i
      renumber rounds (i + 1)
    else
      pure ()

/-- The first loop of `tp6801_commit`. The first block has the PAT, which comes last. -/
def commitBlocks : Comp Camera Int Unit := do
  let s ← Comp.get
  (List.range' 1 (s.memSize / blockSize - 1)).forM fun b => commitBlock (b * blockPageSize)

/-- `tp6801_commit`. -/
def commit : Comp Camera Int Unit := do
  commitBlocks
  markPreErased
  let s ← Comp.get
  renumber s.pictureCount 1
  commitBlock 0

/-! ### Opening -/

/-- `TP6801_PAT_MAGIC`. -/
def patMagic : CString := "erutangiS metsyS eliF egamI 1086PT xneT".toList

/-- `TP6801_PAT_MAGIC_OFFSET`. -/
def patMagicOffset : Nat := 0x1e80

/-- These bytes stand in the copy of the memory. -/
def Camera.memEq (s : Camera) (offset : Nat) (bytes : List Nat) : Bool :=
  decide (((List.range bytes.length).map fun i => (s.mem (offset + i)).toNat) = bytes)

/-- The first round of `tp6801_detect_mem` that finds the PAT again, from round `i` on. -/
def detectMemLoop : Nat → Nat → Comp Camera Int Nat
  | 0, i => pure i
  | rounds + 1, i => do
    readMem (1048576 <<< i + patOffset) patSize
    let s ← Comp.get
    if (List.range patSize).all fun k =>
        s.mem (patOffset + k) = s.mem ((1048576 <<< i) + patOffset + k) then
      pure i
    else
      detectMemLoop rounds (i + 1)

/-- `tp6801_detect_mem`. -/
def detectMem : Comp Camera Int Unit := do
  Comp.modify fun s => { s with memSize := 4194304 }
  readMem patOffset patSize
  let i ← detectMemLoop 2 0
  Comp.modify fun s => { s with memSize := 1048576 <<< i }

/-- The models of `tp6801_models`; both have the same size and ids. -/
def models : List CString := ["InsigniaNS-KEYXX09".toList, "InsigniaNS-KEYXX10".toList]

/-- The string of 32 bytes at most that stands in the copy of the memory. -/
def Camera.modelAt (s : Camera) (offset : Nat) : CString :=
  (((List.range 32).map fun i =>
    (s.mem (offset + i)).toNat).takeWhile fun b => b != 0).map Char.ofNat

/-- What an entry of the PAT says about the pages of its slot: the flags that it clears. -/
def parseEntry (i : Nat) : Comp Camera Int Unit := do
  let s ← Comp.get
  let first := pictureOffset i s.filesize / pageSize
  let behind := pictureOffset (i + 1) s.filesize / pageSize
  if 1 ≤ (s.pat i).toNat ∧ (s.pat i).toNat ≤ s.maxFilecount then
    Comp.modify fun s => { s with pictureCount := max s.pictureCount (s.pat i).toNat }
  else if s.pat i = entryPreErased then
    Comp.modify fun s => s.setPages first (behind - first) fun f =>
      { f with needsErase := false, containsData := false }
  else if entryDeleted (s.pat i) then
    Comp.modify fun s => s.setPages first (behind - first) fun f => { f with containsData := false }
  else
    Comp.throw gpErrorCorruptedData

/-- `tp6801_open_device`. -/
def openDevice : Comp Camera Int Unit := do
  detectMem
  let s ← Comp.get
  let offset := s.memSize - constDataSize
  readMem offset 512
  let s ← Comp.get
  if !s.memEq (offset + 256) [1, 0x43, 0x44, 0x30, 0x30, 0x31] then
    Comp.throw gpErrorModelNotFound
  readMem (offset + 32) 32
  let s ← Comp.get
  -- the ids, and the model
  if !(s.memEq offset [0x30, 0x11, 0x01, 0x68] && decide (s.modelAt (offset + 32) ∈ models)) then
    Comp.throw gpErrorModelNotFound
  Comp.modify fun s => { s with width := 160, height := 128 }
  let s ← Comp.get
  if s.filesize % pageSize ≠ 0 then
    Comp.throw gpErrorModelNotFound
  readMem patOffset patSize
  let s ← Comp.get
  if !s.memEq patMagicOffset (patMagic.map Char.toNat) then
    Comp.throw gpErrorModelNotFound
  Comp.modify fun s => s.setPages 0 (s.memSize / pageSize) fun f =>
    { f with containsData := true, needsErase := true }
  (List.range s.maxFilecount).forM parseEntry

/-! ### Calls -/

/-- The calls of the driver that work on pictures. -/
inductive Call
  | read (idx : Nat)
  | write (picture : Nat → UInt8)
  | delete (idx : Nat)
  | deleteAll
  | commit

/-- What a call does. The bytes that it returns are left out. -/
def Call.body : Call → Comp Camera Int Unit
  | .read idx => do
    let _ ← readRawFile idx
    pure ()
  | .write picture => writeFile picture
  | .delete idx => deleteFile idx
  | .deleteAll => Tp6801.deleteAll
  | .commit => Tp6801.commit

/-- Make a call, in which these commands fail. -/
def Call.run (call : Call) (faults : Command → Option Fault) (s : Camera) :
    Option (Except Int Unit × Camera) :=
  call.body { s with faults := faults }

end GPhoto2.Tp6801
