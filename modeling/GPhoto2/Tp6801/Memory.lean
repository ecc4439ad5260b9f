import GPhoto2.Lib.Outcome
import GPhoto2.Result

/-!
# `GPhoto2.Tp6801.Memory`: the memory of the tp6801 picture frames and the driver's copy of it

The lower half of `tp6801.c`. The memory is a flash of pages of 256 bytes: a page can be programmed,
which only clears bits, and a block of 256 pages can be erased, which sets them all. Instead of a
device the driver can work on a dump of its memory, a file. It keeps a copy of the memory, and four
flags for each page.

Any command may fail. `Camera.faults` tells which ones do, and what a failed command leaves behind:
a failed read anything in the buffer, a failed erase anything in the block, and a failed program
command a page in which some of the bits are cleared that it should have cleared.
-/

set_option autoImplicit false

namespace GPhoto2.Tp6801

open Lib

/-- `TP6801_PAGE_SIZE`. -/
def pageSize : Nat := 256

/-- `TP6801_BLOCK_SIZE`. -/
def blockSize : Nat := 65536

/-- The pages of a block. -/
def blockPageSize : Nat := blockSize / pageSize

/-- `TP6801_MAX_READ`, in pages. -/
def maxRead : Nat := 32768 / pageSize

/-- `page_state`, a flag for each of its bits. -/
structure PageState where
  read : Bool := false
  dirty : Bool := false
  containsData : Bool := false
  needsErase : Bool := false
  deriving DecidableEq

/-- The commands that go to the device, or to the dump: the first byte that they are about. -/
inductive Command
  | read (offset : Nat)
  | programPage (offset : Nat)
  | eraseBlock (offset : Nat)
  deriving DecidableEq

/-- How a command fails: the negative number that is returned, and what it leaves behind. -/
structure Fault where
  code : Int
  garbage : Nat → UInt8

/-- What the driver reads and writes of `CameraPrivateLibrary`, and the memory behind it. -/
structure Camera where
  /-- The driver works on a dump. -/
  memDump : Bool
  /-- The driver's copy of the memory. -/
  mem : Nat → UInt8
  pageState : Nat → PageState
  pictureCount : Nat
  width : Nat
  height : Nat
  memSize : Nat
  /-- The memory of the device, or the dump. -/
  store : Nat → UInt8
  faults : Command → Option Fault
  /-- What the driver was told to keep in the memory. The source has nothing of this. -/
  logical : Nat → UInt8
  /-- The pages that were programmed while they were not erased. Neither has it this. -/
  unerased : List Nat

/-- `new` in the `n` bytes from `offset` on, and `old` elsewhere. -/
def within (offset n : Nat) (new old : Nat → UInt8) (a : Nat) : UInt8 :=
  if offset ≤ a ∧ a < offset + n then new a else old a

/-- The byte of erased memory. -/
def erasedByte : UInt8 := 0xff

namespace Camera

/-- A page of the memory is erased. -/
def pageErased (s : Camera) (page : Nat) : Bool :=
  (List.range pageSize).all fun i => s.store (page * pageSize + i) = erasedByte

/-- Change `n` bytes of the copy of the memory. -/
def setMem (s : Camera) (offset n : Nat) (bytes : Nat → UInt8) : Camera :=
  { s with mem := within offset n bytes s.mem }

/-- Change `n` bytes of the memory. -/
def setStore (s : Camera) (offset n : Nat) (bytes : Nat → UInt8) : Camera :=
  { s with store := within offset n bytes s.store }

/-- Change the state of a page. -/
def setPage (s : Camera) (page : Nat) (f : PageState → PageState) : Camera :=
  { s with pageState := fun p => if p = page then f (s.pageState p) else s.pageState p }

/-- Change the state of the `n` pages from `page` on. -/
def setPages (s : Camera) (page n : Nat) (f : PageState → PageState) : Camera :=
  { s with pageState := fun p =>
      if page ≤ p ∧ p < page + n then f (s.pageState p) else s.pageState p }

end Camera

/-! ### Commands -/

/-- Send a command to the device, or do the same with the dump. -/
def sendCmd (command : Command) (dumpError : Int) (done : Camera → Camera)
    (failed : (Nat → UInt8) → Camera → Camera) : Comp Camera Int Unit := do
  let s ← Comp.get
  match s.faults command with
  | none => Comp.modify done
  | some fault =>
    Comp.modify (failed fault.garbage)
    Comp.throw (if s.memDump then dumpError else fault.code)

/-- `tp6801_read`, into the copy of the memory. -/
def read (offset size : Nat) : Comp Camera Int Unit :=
  sendCmd (.read offset) gpErrorIoRead (fun s => s.setMem offset size s.store)
    fun garbage s => s.setMem offset size garbage

/-- What a program command makes of a byte. A dump is overwritten. -/
def Camera.programmedByte (s : Camera) (a : Nat) : UInt8 :=
  if s.memDump then s.mem a else s.store a &&& s.mem a

/-- What a failed program command makes of a byte. -/
def Camera.spoiltByte (s : Camera) (garbage : Nat → UInt8) (a : Nat) : UInt8 :=
  if s.memDump then garbage a else s.store a &&& (s.mem a ||| garbage a)

/-- `tp6801_program_page`, from the copy of the memory. -/
def programPage (offset : Nat) : Comp Camera Int Unit := do
  Comp.modify fun s =>
    if s.pageErased (offset / pageSize) then s
    else { s with unerased := offset / pageSize :: s.unerased }
  sendCmd (.programPage offset) gpErrorIoWrite
    (fun s => s.setStore offset pageSize s.programmedByte)
    fun garbage s => s.setStore offset pageSize (s.spoiltByte garbage)

/-- `tp6801_erase_block`. -/
def eraseBlock (offset : Nat) : Comp Camera Int Unit := do
  -- the erased block is written to a dump from the copy of the memory
  Comp.modify fun s =>
    if s.memDump then s.setMem offset blockSize fun _ => erasedByte else s
  sendCmd (.eraseBlock offset) gpErrorIoWrite
    (fun s => s.setStore offset blockSize fun _ => erasedByte)
    fun garbage s => s.setStore offset blockSize garbage

/-! ### The copy of the memory -/

/-- `tp6801_check_offset_len`, of numbers that are not negative. -/
def checkOffsetLen (offset len : Nat) : Comp Camera Int Unit := do
  let s ← Comp.get
  if offset + len > s.memSize then Comp.throw gpErrorCorruptedData else pure ()

/-- How many of `n` pages from `page` on `tp6801_read_mem` reads in one go. -/
def toRead (s : Camera) (page n : Nat) : Nat :=
  ((List.range (min n maxRead)).takeWhile fun i => !(s.pageState (page + i)).read).length

/-- The loop of `tp6801_read_mem` over `n` pages. The first argument bounds the rounds. -/
def readMemLoop : Nat → Nat → Nat → Comp Camera Int Unit
  | _, _, 0 => pure ()
  | 0, _, _ + 1 => Comp.stuck
  | rounds + 1, page, n + 1 => do
    let s ← Comp.get
    if (s.pageState page).read then
      readMemLoop rounds (page + 1) n
    else do
      read (page * pageSize) (toRead s page (n + 1) * pageSize)
      Comp.modify fun t => t.setPages page (toRead s page (n + 1)) fun f => { f with read := true }
      readMemLoop rounds (page + toRead s page (n + 1)) (n + 1 - toRead s page (n + 1))

/-- The number of pages that the loops of `tp6801_read_mem` count for some bytes. -/
def pagesOf (offset len : Nat) : Nat := (len + offset % pageSize + (pageSize - 1)) / pageSize

/-- `tp6801_read_mem`. -/
def readMem (offset len : Nat) : Comp Camera Int Unit := do
  checkOffsetLen offset len
  readMemLoop (pagesOf offset len) (offset / pageSize) (pagesOf offset len)

/-- The reading of a page before a part of it is written. -/
def readForWrite (page : Nat) (partly : Bool) : Comp Camera Int Unit := do
  let s ← Comp.get
  if partly && (s.pageState page).containsData && !(s.pageState page).read then do
    read (page * pageSize) pageSize
    Comp.modify fun s => s.setPage page fun f => { f with read := true }
  else
    pure ()

/-- `tp6801_write_mem`. -/
def writeMem (offset : Nat) (buf : List UInt8) : Comp Camera Int Unit := do
  checkOffsetLen offset buf.length
  let first := offset / pageSize
  let last := (offset + buf.length - 1) / pageSize
  readForWrite first (offset % pageSize != 0 || decide (buf.length < pageSize))
  readForWrite last ((offset + buf.length) % pageSize != 0)
  Comp.modify fun s =>
    let bytes := fun a => buf.getD (a - offset) 0
    { s with
      mem := within offset buf.length bytes s.mem
      logical := within offset buf.length bytes s.logical }
  -- the written pages count as read, so that no read overwrites them
  Comp.modify fun s => s.setPages first (last + 1 - first) fun f =>
    { f with dirty := true, containsData := true, read := true }

/-! ### Blocks -/

/-- `tp6801_program_block`, for the dirty pages, or with those that contain data. -/
def programBlock (bsp : Nat) (withData : Bool) : Comp Camera Int Unit :=
  (List.range blockPageSize).forM fun i => do
    let s ← Comp.get
    if (s.pageState (bsp + i)).dirty || withData && (s.pageState (bsp + i)).containsData then do
      programPage ((bsp + i) * pageSize)
      Comp.modify fun s =>
        s.setPage (bsp + i) fun f => { f with dirty := false, needsErase := true }
    else
      pure ()

/-- How many pages from `i` on contain data, within the block. -/
def dataPages (s : Camera) (bsp i : Nat) : Nat :=
  ((List.range (blockPageSize - i)).takeWhile fun k =>
    (s.pageState (bsp + i + k)).containsData).length

/-- Step 1 of `tp6801_read_erase_program_block`, from page `i` of the block on. The first argument
bounds the rounds. -/
def readDataPages : Nat → Nat → Nat → Comp Camera Int Unit
  | 0, _, _ => pure ()
  | rounds + 1, bsp, i =>
    if i < blockPageSize then do
      let s ← Comp.get
      if (s.pageState (bsp + i)).containsData then do
        readMem ((bsp + i) * pageSize) (dataPages s bsp i * pageSize)
        readDataPages rounds bsp (i + dataPages s bsp i)
      else
        readDataPages rounds bsp (i + 1)
    else
      pure ()

/-- `tp6801_read_erase_program_block`. -/
def readEraseProgramBlock (bsp : Nat) : Comp Camera Int Unit := do
  readDataPages blockPageSize bsp 0
  eraseBlock (bsp * pageSize)
  Comp.modify fun s => s.setPages bsp blockPageSize fun f => { f with needsErase := false }
  programBlock bsp true

/-- The block has dirty pages that must be erased before they can be programmed. -/
def Camera.blockNeedsErase (s : Camera) (bsp : Nat) : Bool :=
  (List.range blockPageSize).any fun i =>
    (s.pageState (bsp + i)).dirty && (s.pageState (bsp + i)).needsErase

/-- The block has dirty pages. -/
def Camera.blockDirty (s : Camera) (bsp : Nat) : Bool :=
  (List.range blockPageSize).any fun i => (s.pageState (bsp + i)).dirty

/-- `tp6801_commit_block`. -/
def commitBlock (bsp : Nat) : Comp Camera Int Unit := do
  let s ← Comp.get
  if !s.blockDirty bsp then
    pure ()
  else if s.blockNeedsErase bsp then
    readEraseProgramBlock bsp
  else
    programBlock bsp false

end GPhoto2.Tp6801
