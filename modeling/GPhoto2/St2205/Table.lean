import GPhoto2.Lib.BlockCache
import GPhoto2.Lib.Endian
import GPhoto2.St2205.Image

/-!
# `GPhoto2.St2205.Table`: the image table of the st2205 picture frames

The part of `st2205.c` that stores, finds and deletes pictures. The memory begins with a table, the
"FAT": a header with a checksum and the number of entries in one byte, and an entry of 16 bytes for
each picture. Some frames want copies of it. The pictures follow in the order of their entries, up
to the firmware at the end of the memory.

The driver works on a copy of the memory that it reads block by block, and commits it;
`BlockCache.faults` says which blocks cannot be read. Addresses are those of the memory, which are
far below `2 ^ 31`.
-/

set_option autoImplicit false

namespace GPhoto2.St2205

open Lib

/-- The rows of `version_info`. -/
inductive Version
  | v1
  | v2
  deriving DecidableEq

namespace Version

def firmwareSize : Version → Nat
  | v1 => 65536
  | v2 => 262144

def pictureStart : Version → Nat
  | v1 => 65536
  | v2 => 8192

def noFats : Version → Nat
  | v1 => 4
  | v2 => 1

end Version

/-- What `st2205_init` sets up. -/
structure Frame where
  lib : Library
  /-- The macros of the image library. -/
  gd : TrueColor
  compressed : Bool
  version : Version
  /-- `st2205_detect_mem_size` finds a memory of `524288 << doublings` bytes. -/
  doublings : Fin 4

/-- The driver's copy of the memory; the blocks are read by number. -/
abbrev Camera := BlockCache Int Nat UInt8

/-- `ST2205_BLOCK_SIZE`. -/
def blockSize : Nat := 32768

theorem blockSize_pos : 0 < blockSize := by decide

/-- The blocks that are erased at once: `ST2205_ERASE_BLOCK_SIZE / ST2205_BLOCK_SIZE`. -/
def eraseBlocks : Nat := 65536 / blockSize

/-- `ST2205_FAT_SIZE`. -/
def fatSize : Nat := 8192

/-- `ST2205_COUNT_OFFSET`. -/
def countOffset : Nat := 6

/-- `ST2205_FILE_OFFSET`. -/
def fileOffset (x : Nat) : Nat := (x + 1) * 16

/-- `struct image_table_entry`. -/
structure ImageTableEntry where
  present : UInt8
  address : Nat
  name : List UInt8

/-- The entry that 16 bytes are. -/
def entryOf (bytes : List UInt8) : ImageTableEntry where
  present := bytes.getD 0 0
  address := ByteOrder.little.decode ((bytes.drop 1).take 4)
  name := bytes.drop 5

/-- The 16 bytes of an entry. -/
def entryBytes (entry : ImageTableEntry) : List UInt8 :=
  entry.present :: (ByteOrder.little.encode 4 entry.address ++ entry.name)

/-- What `snprintf` makes of a file name in a field of zeros. -/
def nameField (filename : List UInt8) : List UInt8 :=
  let name := (filename.takeWhile (· ≠ 0)).take 10
  name ++ List.replicate (11 - name.length) 0

/-- The sum of `st2205_calc_fat_checksum`. -/
def fatSum (mem : Nat → UInt8) : Nat :=
  ((List.range' 2 (fatSize - 2)).map fun i => if i % 16 = 0 then 0 else (mem i).toNat).sum

/-- `st2205_rgb24_to_rgb565`. -/
def rgb24ToRgb565 (lib : Library) (gd : TrueColor) (src : Pixels) : List UInt8 :=
  (List.range lib.height).flatMap fun y =>
    (List.range lib.width).flatMap fun x =>
      let r := (gd.red (src y x)).toNat
      let g := (gd.green (src y x)).toNat
      let b := (gd.blue (src y x)).toNat
      let w := (r <<< 8) &&& 0xf100 ||| (g <<< 3) &&& 0x07e0 ||| (b >>> 3) &&& 0x001f
      [UInt8.ofNat (w >>> 8), UInt8.ofNat (w &&& 0xff)]

/-- Where the loop of `st2205_real_write_file` is: the end of the last present picture, and the hole
that it has found, or 0. -/
structure Scan where
  stop : Nat
  holeStart : Nat := 0
  holeIdx : Nat := 0

/-- What the loop sees in a round: the entry, or the one it makes up at the end. -/
structure Look where
  present : Bool
  start : Nat
  scan : Scan

namespace Frame

variable (f : Frame)

def memSize : Nat := 524288 <<< f.doublings.val

def firmwareSize : Nat := f.version.firmwareSize

def pictureStart : Nat := f.version.pictureStart

def noFats : Nat := f.version.noFats

/-- The end of the memory for pictures. -/
def pictureEnd : Nat := f.memSize - f.firmwareSize

/-- The copy of the memory. The tables of flags are made for 2 MiB. -/
def layout : BlockLayout Int Nat where
  blockSize := blockSize
  blockSize_pos := blockSize_pos
  slots := 2097152 / blockSize
  memSize := f.memSize
  beyond := gpErrorCorruptedData
  readCmd block := block

/-- `st2205_read_mem`. -/
def readMem (offset len : Nat) : Comp Camera Int (List UInt8) := f.layout.readMem offset len

/-- `st2205_write_mem`. -/
def writeMem (offset : Nat) (buf : List UInt8) : Comp Camera Int Unit :=
  if offset + buf.length > f.pictureEnd then
    Comp.throw gpErrorCorruptedData
  else
    f.layout.writeMem offset buf

/-! ### The table -/

/-- `st2205_read_file_count`. -/
def readFileCount : Comp Camera Int Nat := do
  let count ← f.readMem countOffset 1
  pure (count.getD 0 0).toNat

/-- `st2205_write_file_count`. -/
def writeFileCount (count : Nat) : Comp Camera Int Unit :=
  f.writeMem countOffset [UInt8.ofNat count]

/-- `st2205_calc_fat_checksum`. -/
def calcFatChecksum : Comp Camera Int Nat := do
  f.layout.checkPresent 0
  let s ← Comp.get
  pure (fatSum s.mem % 65536)

/-- `st2205_update_fat_checksum`. -/
def updateFatChecksum : Comp Camera Int Unit := do
  let checksum ← f.calcFatChecksum
  f.writeMem 0 (ByteOrder.little.encode 2 checksum)

/-- A round of `st2205_copy_fat`. -/
def copyFatTo (i : Nat) : Comp Camera Int Unit := do
  let s ← Comp.get
  f.writeMem (i * fatSize) (bytesFrom s.mem 0 fatSize)

/-- `st2205_copy_fat`. -/
def copyFat : Comp Camera Int Unit := do
  f.layout.checkPresent 0
  (List.range' 1 (f.noFats - 1)).forM f.copyFatTo

/-- The reading of an entry. -/
def readEntry (idx : Nat) : Comp Camera Int ImageTableEntry := do
  let bytes ← f.readMem (fileOffset idx) 16
  pure (entryOf bytes)

/-- The part of `st2205_add_picture` that writes the entry, and the count when it is a new one. -/
def addEntry (count idx : Nat) (filename : List UInt8) (start size : Nat) :
    Comp Camera Int Unit := do
  f.writeMem (fileOffset idx) (entryBytes ⟨1, start, nameField filename⟩)
  if idx = count then do
    f.writeFileCount (count + 1)
    -- a fake last entry that points to the free space
    f.writeMem (fileOffset (count + 1)) (entryBytes ⟨0, start + size, List.replicate 11 0⟩)
  else
    pure ()

/-- `st2205_add_picture`. -/
def addPicture (idx : Nat) (filename : List UInt8) (start : Nat) (buf : List UInt8) :
    Comp Camera Int Nat := do
  let count ← f.readFileCount
  if idx > count then
    Comp.throw gpErrorBadParameters
  else do
    f.addEntry count idx filename start buf.length
    f.updateFatChecksum
    f.copyFat
    f.writeMem start buf
    pure idx

/-! ### Writing -/

/-- The length of the picture at an address: what its header says, or that of all pictures. -/
def readSize (start size : Nat) : Comp Camera Int Nat :=
  if f.compressed then do
    let header ← f.readMem start 16
    pure (16 + headerLength header)
  else
    pure size

/-- The entry that the loop of `st2205_real_write_file` looks at, for a picture of `size` bytes. -/
def lookAt (size count i : Nat) (scan : Scan) : Comp Camera Int Look :=
  if i = count then
    -- a present entry is made up behind the last one
    pure ⟨true, f.pictureEnd,
      if scan.holeStart = 0 then { scan with holeStart := scan.stop, holeIdx := i } else scan⟩
  else do
    let entry ← f.readEntry i
    if entry.present ≠ 0 then do
      let size ← f.readSize entry.address size
      pure ⟨true, entry.address, { scan with stop := entry.address + size }⟩
    else
      pure ⟨false, entry.address, scan⟩

/-- The loop of `st2205_real_write_file` over the entries from `i` on: the index and the start of
the first hole for a picture of `size` bytes. The first argument is the number of rounds. -/
def findHole (size count : Nat) : Nat → Nat → Scan → Comp Camera Int (Option (Nat × Nat))
  | 0, _, _ => pure none
  | rounds + 1, i, scan => do
    let look ← f.lookAt size count i scan
    if look.scan.holeStart ≠ 0 then
      if look.present then
        if look.start < look.scan.holeStart + size then
          findHole size count rounds (i + 1) { look.scan with holeStart := 0 }
        else
          pure (some (look.scan.holeIdx, look.scan.holeStart))
      else
        findHole size count rounds (i + 1) look.scan
    else if look.present then
      findHole size count rounds (i + 1) look.scan
    else
      findHole size count rounds (i + 1)
        { look.scan with holeStart := look.scan.stop, holeIdx := i }

/-- The coding of a picture. No caller passes a number of a shuffle table that is too large, which
would make the size negative. -/
def code (rgb24 : Pixels) (shuffle : Nat) (allowUvCorr : Bool) : Comp Camera Int (List UInt8) :=
  if f.compressed then
    match codeImage f.lib f.gd rgb24 shuffle allowUvCorr with
    | .ok buf => pure buf
    | .error _ => Comp.stuck
  else
    pure (rgb24ToRgb565 f.lib f.gd rgb24)

/-- One call of `st2205_real_write_file`, up to the next: nothing when there is no hole. -/
def tryWrite (filename : List UInt8) (rgb24 : Pixels) (shuffle : Nat) (allowUvCorr : Bool) :
    Comp Camera Int (Option Nat) := do
  let buf ← f.code rgb24 shuffle allowUvCorr
  let count ← f.readFileCount
  let hole ← f.findHole buf.length count (count + 1) 0 { stop := f.pictureStart }
  match hole with
  | none => pure none
  | some (idx, start) => do
    let idx ← f.addPicture idx filename start buf
    pure (some idx)

/-- `st2205_real_write_file`, called with the correction tables allowed. -/
def realWriteFile (filename : List UInt8) (rgb24 : Pixels) (shuffle : Nat) :
    Comp Camera Int Nat := do
  match ← f.tryWrite filename rgb24 shuffle true with
  | some idx => pure idx
  | none =>
    if f.compressed then
      match ← f.tryWrite filename rgb24 shuffle false with
      | some idx => pure idx
      | none => Comp.throw gpErrorNoSpace
    else
      Comp.throw gpErrorNoSpace

/-- The shuffle table that `st2205_write_file` chooses with a number of `rand_r`. -/
def chooseShuffle (rand : Fin 2147483648) : Nat := rand.val * f.lib.noShuffles / 2147483648

/-- `st2205_write_file`. -/
def writeFile (filename : List UInt8) (rgb24 : Pixels) (rand : Fin 2147483648) :
    Comp Camera Int Nat :=
  f.realWriteFile filename rgb24 (f.chooseShuffle rand)

/-! ### Deleting -/

/-- The number of entries up to the last present one except `idx`, from entry `i` on. The first
argument is the number of rounds. -/
def countWithout (idx : Nat) : Nat → Nat → Nat → Comp Camera Int Nat
  | 0, _, newCount => pure newCount
  | rounds + 1, i, newCount =>
    if i = idx then
      countWithout idx rounds (i + 1) newCount
    else do
      let entry ← f.readEntry i
      countWithout idx rounds (i + 1) (if entry.present ≠ 0 then i + 1 else newCount)

/-- `st2205_delete_file`. -/
def deleteFile (idx : Nat) : Comp Camera Int Unit := do
  let count ← f.readFileCount
  if idx ≥ count then
    Comp.throw gpErrorBadParameters
  else do
    let newCount ← f.countWithout idx count 0 0
    f.writeMem (fileOffset idx) [0]
    f.writeFileCount newCount
    f.updateFatChecksum
    f.copyFat

/-- `st2205_delete_all`. -/
def deleteAll : Comp Camera Int Unit := do
  f.layout.checkPresent 0
  Comp.modify fun s => s.put 0 (fileOffset 0) (List.replicate (fatSize - fileOffset 0) 0)
  f.writeFileCount 0
  f.updateFatChecksum
  f.copyFat

/-! ### Committing -/

/-- A round of `st2205_commit`: when one of the blocks from `i` on that are erased at once is dirty,
they are all written back. `writes` says which blocks cannot be written. -/
def commitErased (writes : Nat → Option (BlockFault Int UInt8)) (i : Nat) :
    Comp Camera Int Unit :=
  if f.layout.slots < i + eraseBlocks then
    Comp.stuck
  else do
    let s ← Comp.get
    if (List.range eraseBlocks).any (fun j => s.dirty (i + j)) then do
      (List.range eraseBlocks).forM fun j => f.layout.checkPresent (i + j)
      (List.range eraseBlocks).forM fun j => f.layout.writeBack writes (i + j)
    else
      pure ()

/-- `st2205_commit`. -/
def commit (writes : Nat → Option (BlockFault Int UInt8)) : Comp Camera Int Unit :=
  (List.range ((f.pictureEnd / blockSize + eraseBlocks - 1) / eraseBlocks)).forM fun k =>
    f.commitErased writes (k * eraseBlocks)

end Frame

/-- The calls that change the table. -/
inductive Call
  | writeFile (filename : List UInt8) (rgb24 : Pixels) (rand : Fin 2147483648)
  | deleteFile (idx : Nat)
  | deleteAll

/-- A call, in which these blocks cannot be read. -/
def Call.run (f : Frame) (faults : Nat → Option (BlockFault Int UInt8)) (c : Call) (s : Camera) :
    Option (Except Int Unit × Camera) :=
  match c with
  | .writeFile filename rgb24 rand =>
    (f.writeFile filename rgb24 rand >>= fun _ => pure ()) { s with faults := faults }
  | .deleteFile idx => f.deleteFile idx { s with faults := faults }
  | .deleteAll => f.deleteAll { s with faults := faults }

end GPhoto2.St2205
