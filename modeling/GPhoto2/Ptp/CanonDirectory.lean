import GPhoto2.Ptp.CanonChanges
import GPhoto2.Ptp.Types

/-!
# `GPhoto2.Ptp.CanonDirectory`: the directory block of older Canon cameras

`ptp_unpack_canon_directory` makes object infos of a block of entries that are linked to each
other: an entry names the next one in its directory and its first child. The entries of storages
name only their first child; their `StorageID` is passed on along the links.

A read outside of the block has no defined outcome (`none`). Memory is never short.
-/

set_option autoImplicit false

namespace GPhoto2

open Lib

/-! ### Entries -/

/-- The size of an entry. -/
def ptpCanonDirSize : Nat := 0x4c

/-- No object: the end of a link, and the `StorageID` of an object in the block. -/
def ptpCanonDirNone : UInt32 := 0xffffffff

/-- What is read of an entry. The name is read up to its terminator. -/
structure CanonDirEntry where
  ofc : UInt16
  objectid : UInt32
  parentid : UInt32
  nextid : UInt32
  nextchild : UInt32
  storageid : UInt32
  name : Option CString
  flags : UInt32
  size : UInt32
  unixtime : UInt32
  thumbsize : UInt32
  width : UInt32
  height : UInt32
  deriving DecidableEq

variable (params : PTPParams) (dir : List UInt8)

/-- The entry at `cur`. -/
def canonDirEntry (cur : Nat) : Option CanonDirEntry := do
  let ofc ← dtoh16ap params dir (cur + 0x02)
  let objectid ← dtoh32ap params dir (cur + 0x08)
  let parentid ← dtoh32ap params dir (cur + 0x0c)
  let nextid ← dtoh32ap params dir (cur + 0x14)
  let nextchild ← dtoh32ap params dir (cur + 0x18)
  let storageid ← dtoh32ap params dir (cur + 0x1c)
  let flags ← dtoh32ap params dir (cur + 0x2c)
  let size ← dtoh32ap params dir (cur + 0x30)
  let unixtime ← dtoh32ap params dir (cur + 0x34)
  let thumbsize ← dtoh32ap params dir (cur + 0x40)
  let width ← dtoh32ap params dir (cur + 0x44)
  let height ← dtoh32ap params dir (cur + 0x48)
  some ⟨ofc, objectid, parentid, nextid, nextchild, storageid, strdup dir (cur + 0x20), flags,
    size, unixtime, thumbsize, width, height⟩

/-- The entries of a block. -/
def canonDirEntries (cnt : Nat) : Option (List CanonDirEntry) :=
  (List.range cnt).mapM fun i => canonDirEntry params dir (i * ptpCanonDirSize)

/-- `ISOBJECT`. -/
def CanonDirEntry.isObject (e : CanonDirEntry) : Bool := e.storageid = ptpCanonDirNone

/-- The object info of an entry. -/
def CanonDirEntry.objectInfo (e : CanonDirEntry) : Option PTPObjectInfo :=
  e.name.map fun name => { PTPObjectInfo.zero with
    storageID := ptpCanonDirNone
    objectFormat := e.ofc
    parentObject := e.parentid
    filename := some name
    objectCompressedSize := e.size.toUInt64
    thumbCompressedSize := e.thumbsize
    imagePixWidth := e.width
    imagePixHeight := e.height
    captureDate := (e.unixtime.toNat : Int)
    modificationDate := (e.unixtime.toNat : Int) }

/-! ### The `StorageID`s -/

variable (handles : List UInt32)

/-- The search for a handle: `none` where `j == handles->n`. -/
def findHandler (handle : UInt32) : Option Nat := handles.findIdx? (handle = ·)

/-- The `StorageID` of an object info. -/
def storageAt (oinfos : List PTPObjectInfo) (j : Nat) : UInt32 :=
  (oinfos.map PTPObjectInfo.storageID).getD j ptpCanonDirNone

/-- Set a `StorageID`. -/
def setStorage (oinfos : List PTPObjectInfo) (j : Nat) (storageid : UInt32) :
    List PTPObjectInfo :=
  oinfos.modify j fun oi => { oi with storageID := storageid }

/-- One entry in the loop over the storages. -/
def rootStorage (oinfos : List PTPObjectInfo) (cur : CanonDirEntry) : List PTPObjectInfo :=
  if cur.isObject then oinfos
  else
    match findHandler handles cur.nextchild with
    | none => oinfos
    | some j => setStorage oinfos j cur.storageid

/-- The object infos in a round, and the counter. -/
structure Distribution where
  oinfos : List PTPObjectInfo
  changed : Nat
  deriving DecidableEq

/-- Give the object with a handle a `StorageID`, if it has none. There is nothing where the
handle is not found, and the source goes on with the next entry. -/
def Distribution.pass (s : Distribution) (storageid handle : UInt32) : Option Distribution :=
  match findHandler handles handle with
  | none => none
  | some j =>
    if storageAt s.oinfos j = ptpCanonDirNone then
      some ⟨setStorage s.oinfos j storageid, s.changed + 1⟩
    else some s

/-- The two links of an object with a `StorageID`. -/
def Distribution.links (s : Distribution) (storageid : UInt32) (cur : CanonDirEntry) :
    Distribution :=
  let child := fun s : Distribution =>
    if cur.nextchild ≠ ptpCanonDirNone then (s.pass handles storageid cur.nextchild).getD s else s
  if cur.nextid ≠ ptpCanonDirNone then
    match s.pass handles storageid cur.nextid with
    | none => s
    | some s => child s
  else child s

/-- One entry in a round. -/
def Distribution.entry (s : Distribution) (cur : CanonDirEntry) : Distribution :=
  if cur.isObject then
    match findHandler handles cur.objectid with
    | none => s
    | some j =>
      if storageAt s.oinfos j = ptpCanonDirNone then s
      else s.links handles (storageAt s.oinfos j) cur
  else s

variable (entries : List CanonDirEntry)

/-- The walk over all objects, up to a number of rounds. -/
def distributeStorage : Nat → List PTPObjectInfo → Option (List PTPObjectInfo)
  | 0, _ => none
  | rounds + 1, oinfos =>
    let s := entries.foldl (Distribution.entry handles) ⟨oinfos, 0⟩
    -- changed no entry (nothing more to do), changed all of them at once (usually happens)
    if s.changed = 0 ∨ s.changed = handles.length - 1 then some s.oinfos
    else distributeStorage rounds s.oinfos

/-! ### `ptp_unpack_canon_directory` -/

/-- What the function returns by its parameters. -/
structure CanonDirectory where
  handles : List UInt32
  oinfos : List PTPObjectInfo
  flags : List UInt32
  deriving DecidableEq

/-- `ptp_unpack_canon_directory`, with a bound for the rounds of its last loop. -/
def ptpUnpackCanonDirectory (cnt rounds : Nat) : Option CanonDirectory := do
  let entries ← canonDirEntries params dir cnt
  let objects := entries.filter CanonDirEntry.isObject
  let handles := objects.map CanonDirEntry.objectid
  let oinfos ← objects.mapM CanonDirEntry.objectInfo
  let oinfos ← distributeStorage handles entries rounds (entries.foldl (rootStorage handles) oinfos)
  some ⟨handles, oinfos, objects.map CanonDirEntry.flags⟩

end GPhoto2
