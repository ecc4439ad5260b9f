import GPhoto2.St2205.Table

/-!
# `GPhoto2.St2205.Filenames`: the st2205 driver's list of the pictures on a frame

`library.c`, as far as it keeps a name for every entry of the table: `camera_init` reads the names,
`put_file_func`, `delete_file_func` and `delete_all_func` change the table and commit, and
`file_list_func` and `get_file_idx` look only at the names.

A name is the bytes of a C string, and an empty one is a free place in the list. The conversion to
ASCII by `iconv` and the library that decodes and scales a picture are parameters: `toAscii`, and
the picture that the library has made of the file, or the error of `put_file_func` when it cannot.
-/

set_option autoImplicit false

namespace GPhoto2.St2205

open Lib

/-- `ST2205_MAX_NO_FILES`. -/
def maxNoFiles : Nat := 510

/-- `ST2205_FILENAME_LENGTH`. -/
def filenameLength : Nat := 10

/-- What the driver keeps of a frame. -/
structure Driver where
  camera : Camera
  filenames : Nat → List UInt8

/-! ### Names -/

/-- What `%0*d` prints of a number. -/
def zeroPadded (width n : Nat) : List UInt8 :=
  let digits := (Nat.toDigits 10 n).map fun c => c.toNat.toUInt8
  List.replicate (width - digits.length) 48 ++ digits

/-- `ST2205_SET_FILENAME`: what `"%04d-%s.png"` makes of the number of the entry and a name, in a
field of `filenameLength + 5 + 4 + 1` bytes. -/
def setFilename (name : List UInt8) (idx : Nat) : List UInt8 :=
  (zeroPadded 4 (idx + 1) ++ 45 :: name ++ [46, 112, 110, 103]).take (filenameLength + 5 + 4)

/-- A name with question marks for what is not printable ASCII. -/
def cleanName (name : List UInt8) : List UInt8 :=
  name.map fun c => if c < 0x20 ∨ 0x7e < c then 63 else c

/-- The conversion to ASCII of a driver that is built without `iconv`. -/
def toAsciiPlain (name : List UInt8) : Option (List UInt8) := some (cleanName name)

/-- `put_file_func`: a name without its extension, cut to what an entry holds. -/
def outName (ascii : List UInt8) : List UInt8 :=
  let stem := if 46 ∈ ascii then ((ascii.reverse.dropWhile (· ≠ 46)).drop 1).reverse else ascii
  if ascii.length > filenameLength then stem.take filenameLength else stem

/-- The name in a present entry, which need not have a zero behind it. A name that begins with a
zero gets a question mark there. -/
def entryName (entry : ImageTableEntry) : List UInt8 :=
  let bytes := entry.name.take filenameLength
  (if bytes.getD 0 0 = 0 then 63 :: bytes.drop 1 else bytes).takeWhile (· ≠ 0)

/-- The only folder. -/
def rootFolder : List UInt8 := [47]

/-- `get_file_idx`. -/
def getFileIdx (filenames : Nat → List UInt8) (folder filename : List UInt8) : Except Int Nat :=
  if folder ≠ rootFolder then
    .error gpErrorDirectoryNotFound
  else
    match (List.range maxNoFiles).find? (fun i => filename = filenames i) with
    | some i => .ok i
    | none => .error gpErrorFileNotFound

-- the elaborator must not go through the places of the list
attribute [irreducible] getFileIdx

/-- What `file_list_func` appends to the list. -/
def fileListFunc (filenames : Nat → List UInt8) : List (List UInt8) :=
  ((List.range maxNoFiles).filter fun i => filenames i ≠ []).map filenames

namespace Driver

/-- A call of a function of `st2205.c`. -/
def onCamera {α : Type} (m : Comp Camera Int α) : Comp Driver Int α :=
  Comp.onPart Driver.camera (fun s d => { d with camera := s }) m

/-- Put a name into the list. -/
def setName (d : Driver) (idx : Nat) (name : List UInt8) : Driver :=
  { d with filenames := fun i => if i = idx then name else d.filenames i }

end Driver

namespace Frame

variable (f : Frame)

/-! ### Opening -/

/-- A round of `st2205_get_filenames`. -/
def getFilename (i : Nat) : Comp Driver Int Unit := do
  let entry ← Driver.onCamera (f.readEntry i)
  if entry.present = 0 then
    pure ()
  else
    Comp.modify fun d => d.setName i (entryName entry)

/-- `st2205_get_filenames`. -/
def getFilenames : Comp Driver Int Unit := do
  let count ← Driver.onCamera f.readFileCount
  if count > maxNoFiles then
    Comp.throw gpErrorCorruptedData
  else
    (List.range count).forM f.getFilename

/-- The end of `st2205_set_time_and_date`: the first block is read again. -/
def rereadFirst : Comp Camera Int Unit := do
  Comp.modify fun s => { s with present := fun b => if b = 0 then false else s.present b }
  f.layout.checkPresent 0

/-- The part of `camera_init` behind the opening of the device. `clock` is what the command that
sets the clock returns, when it is sent. -/
def openFilenames (clock : Option (Except Int Unit)) : Comp Driver Int Unit := do
  f.getFilenames
  Comp.modify fun d =>
    { d with
      filenames := fun i =>
        if d.filenames i = [] then [] else setFilename (cleanName (d.filenames i)) i }
  match clock with
  | none => pure ()
  | some sent => do
    Comp.ofExcept sent
    Driver.onCamera f.rereadFirst

/-! ### Changing the table -/

section

variable (writes : Nat → Option (BlockFault Int UInt8))

/-- `put_file_func`. -/
def putFileFunc (toAscii : List UInt8 → Option (List UInt8)) (folder name : List UInt8)
    (picture : Except Int Pixels) (rand : Fin 2147483648) : Comp Driver Int Unit :=
  if folder ≠ rootFolder then
    Comp.throw gpErrorDirectoryNotFound
  else
    match toAscii name with
    | none => Comp.throw gpErrorOsFailure
    | some ascii => do
      let rgb24 ← Comp.ofExcept picture
      let idx ← Driver.onCamera (f.writeFile (outName ascii) rgb24 rand)
      Comp.modify fun d => d.setName idx (setFilename (outName ascii) idx)
      Driver.onCamera (f.commit writes)

/-- `delete_file_func`. -/
def deleteFileFunc (folder filename : List UInt8) : Comp Driver Int Unit := do
  let d ← Comp.get
  let idx ← Comp.ofExcept (getFileIdx d.filenames folder filename)
  Driver.onCamera (f.deleteFile idx)
  Comp.modify fun d => d.setName idx []
  Driver.onCamera (f.commit writes)

/-- `delete_all_func`. -/
def deleteAllFunc : Comp Driver Int Unit := do
  Driver.onCamera f.deleteAll
  Driver.onCamera (f.commit writes)

end

end Frame

/-- Which blocks cannot be read and written during a call. -/
structure Device where
  reads : Nat → Option (BlockFault Int UInt8) := fun _ => none
  writes : Nat → Option (BlockFault Int UInt8) := fun _ => none

/-- The driver talks to this device. -/
def Device.attach (device : Device) (d : Driver) : Driver :=
  { d with camera := { d.camera with faults := device.reads } }

/-- The calls that change the list. -/
inductive FileCall
  | putFile (toAscii : List UInt8 → Option (List UInt8)) (folder name : List UInt8)
    (picture : Except Int Pixels) (rand : Fin 2147483648)
  | deleteFile (folder filename : List UInt8)
  | deleteAll

/-- A call to the driver. -/
def FileCall.run (f : Frame) (device : Device) (call : FileCall) : Comp Driver Int Unit := fun d =>
  match call with
  | .putFile toAscii folder name picture rand =>
    f.putFileFunc device.writes toAscii folder name picture rand (device.attach d)
  | .deleteFile folder filename => f.deleteFileFunc device.writes folder filename (device.attach d)
  | .deleteAll => f.deleteAllFunc device.writes (device.attach d)

end GPhoto2.St2205
