import GPhoto2.Ptp.Device

/-!
# `GPhoto2.Ptp.ObjectWant`: reading objects into the cache

`ptp_object_want` makes sure that an object is in the cache with some of its fields loaded.
-/

set_option autoImplicit false

namespace GPhoto2

open Lib

variable {δ : Type} (dev : PTPDevice δ)

/-- `(flags & want) == want`. -/
def PTPObjectFlags.has (flags want : PTPObjectFlags) : Bool :=
  (!want.objectInfoLoaded || flags.objectInfoLoaded) &&
  (!want.mtpPropListLoaded || flags.mtpPropListLoaded) &&
  (!want.directoryLoaded || flags.directoryLoaded) &&
  (!want.parentObjectLoaded || flags.parentObjectLoaded) &&
  (!want.storageIdLoaded || flags.storageIdLoaded)

/-- `PTPOBJECT_OBJECTINFO_LOADED`. -/
def wantObjectInfo : PTPObjectFlags := { PTPObjectFlags.zero with objectInfoLoaded := true }

/-- The flags `X` of `ptp_object_want`: all that an object info tells. -/
def PTPObjectFlags.hasInfo (flags : PTPObjectFlags) : Bool :=
  flags.objectInfoLoaded && flags.storageIdLoaded && flags.parentObjectLoaded

/-- `want & X`. -/
def PTPObjectFlags.wantsInfo (want : PTPObjectFlags) : Bool :=
  want.objectInfoLoaded || want.storageIdLoaded || want.parentObjectLoaded

/-- The entry at an index of the array. -/
def objectAt (objects : List PTPObject) (i : Nat) : PTPObject := objects[i]?.getD (.new 0)

/-- Change the entry at an index of the array. -/
def modifyObject (i : Nat) (f : PTPObject → PTPObject) : Ptp δ Unit :=
  modifyObjects fun objects => objects.modify i f

/-- The text `ptp_object_want` uses for an object without a name. -/
def noneFilename : CString := "<none>".toList

/-- An entry with the object info the camera sent. A parent that was known before stays, and
no object becomes its own parent. -/
def PTPObject.withInfo (ob : PTPObject) (handle : UInt32) (oi : PTPObjectInfo) : PTPObject :=
  let parent := if ob.flags.parentObjectLoaded then ob.oi.parentObject else oi.parentObject
  { ob with oi := { oi with
      keywords := ob.oi.keywords
      filename := some (oi.filename.getD noneFilename)
      -- Second EOS issue, 0x20000000 has 0x20000000 as parent
      parentObject := if parent = handle then 0 else parent } }

/-- An entry with all that an object info tells marked as loaded. -/
def PTPObject.markInfo (ob : PTPObject) : PTPObject :=
  { ob with flags := { ob.flags with
      objectInfoLoaded := true, storageIdLoaded := true, parentObjectLoaded := true } }

/-- Read the special flags of a Canon. A failure is ignored. -/
def readCanonFlags (handle : UInt32) (i : Nat) : Ptp δ Unit := do
  let w ← Comp.get
  let oi := (objectAt w.objects i).oi
  match ← Comp.attempt
      (dev.request (.canonGetObjectInfoEx oi.storageID 0 oi.parentObject handle)) with
  | .ok (entry :: _) => modifyObject i fun ob => { ob with canonFlags := entry.flags.toUInt32 }
  | _ => pure ()

/-- The part of `ptp_object_want` that reads the object info. The object of a failing request
leaves the cache. -/
def readObjectInfo (handle : UInt32) (i : Nat) : Ptp δ Unit := do
  match ← Comp.attempt (dev.request (.getObjectInfo handle)) with
  | .error e => do
    modifyObjects fun objects => ptpRemoveObjectFromCache objects handle
    Comp.throw e
  | .ok oi => do
    modifyObject i fun ob => ob.withInfo handle oi
    (if dev.vendorExtensionID = ptpVendorCanon ∧
        dev.operationSupported ptpOcCanonGetObjectInfoEx
      then readCanonFlags dev handle i else pure ())
    modifyObject i PTPObject.markInfo

def ptpOpcStorageID : UInt16 := 0xDC01
def ptpOpcObjectFormat : UInt16 := 0xDC02
def ptpOpcProtectionStatus : UInt16 := 0xDC03
def ptpOpcObjectSize : UInt16 := 0xDC04
def ptpOpcAssociationType : UInt16 := 0xDC05
def ptpOpcAssociationDesc : UInt16 := 0xDC06
def ptpOpcObjectFileName : UInt16 := 0xDC07
def ptpOpcDateCreated : UInt16 := 0xDC08
def ptpOpcDateModified : UInt16 := 0xDC09
def ptpOpcKeywords : UInt16 := 0xDC0A
def ptpOpcParentObject : UInt16 := 0xDC0B

/-- What a property of the MTP property list overrides in the object info. -/
def PTPObjectInfo.override (handle : UInt32) (oi : PTPObjectInfo) (prop : MTPPropertyView) :
    PTPObjectInfo :=
  -- in case we got all subtree objects
  if prop.objectHandle ≠ handle then oi
  else if prop.property = ptpOpcStorageID then { oi with storageID := prop.u32 }
  else if prop.property = ptpOpcObjectFormat then { oi with objectFormat := prop.u16 }
  else if prop.property = ptpOpcProtectionStatus then { oi with protectionStatus := prop.u16 }
  else if prop.property = ptpOpcObjectSize then
    if prop.isUint64 then
      { oi with objectCompressedSize := if 0xFFFFFFFF < prop.u64 then 0xFFFFFFFF else prop.u64 }
    else if prop.isUint32 then { oi with objectCompressedSize := prop.u32.toUInt64 }
    else oi
  else if prop.property = ptpOpcAssociationType then { oi with associationType := prop.u16 }
  else if prop.property = ptpOpcAssociationDesc then { oi with associationDesc := prop.u32 }
  else if prop.property = ptpOpcObjectFileName then
    { oi with filename := prop.str.orElse fun _ => oi.filename }
  else if prop.property = ptpOpcDateCreated then { oi with captureDate := prop.time }
  else if prop.property = ptpOpcDateModified then { oi with modificationDate := prop.time }
  else if prop.property = ptpOpcKeywords then
    { oi with keywords := prop.str.orElse fun _ => oi.keywords }
  else if prop.property = ptpOpcParentObject then { oi with parentObject := prop.u32 }
  else oi

/-- The part of `ptp_object_want` that reads the MTP property list. It returns whether the
list is still wanted, which it is not on a device that has none. -/
def readPropList (handle : UInt32) (i : Nat) : Ptp δ Bool :=
  if dev.flag deviceFlagBrokenMtpGetObjPropList then pure false
  else if ¬ dev.operationSupported ptpOcMtpGetObjPropList then pure false
  else do
    match ← Comp.attempt (dev.request (.mtpGetObjPropList handle)) with
    | .error _ => pure true
    | .ok props => do
      modifyObject i fun ob =>
        { ob with
          oi := if dev.flag deviceFlagProplistOverridesOi then
              props.foldl (PTPObjectInfo.override handle) ob.oi
            else ob.oi
          flags := { ob.flags with mtpPropListLoaded := true } }
      pure true

/-- The entry at an index of the array lacks what `lacks` looks for. -/
def entryIs (i : Nat) (lacks : PTPObjectFlags → Bool) : Ptp δ Bool := do
  let w ← Comp.get
  pure (lacks (objectAt w.objects i).flags)

/-- The end of `ptp_object_want`, for an object that lacks something. -/
def readObject (handle : UInt32) (want : PTPObjectFlags) (i : Nat) : Ptp δ Nat := do
  let lacksInfo ← entryIs i fun flags => want.wantsInfo && !flags.hasInfo
  (if lacksInfo then readObjectInfo dev handle i else pure ())
  let lacksList ← entryIs i fun flags => want.mtpPropListLoaded && !flags.mtpPropListLoaded
  let wantList ←
    (if lacksList then readPropList dev handle i else pure want.mtpPropListLoaded)
  let complete ← entryIs i fun flags => flags.has { want with mtpPropListLoaded := wantList }
  (if complete then pure i else Comp.throw .generalError)

/-- What `ptp_object_want` wants: if GetObjectInfo is broken, it forces GetPropList. -/
def PTPDevice.forcedWant (want : PTPObjectFlags) : PTPObjectFlags :=
  { want with
    mtpPropListLoaded := want.mtpPropListLoaded || dev.flag deviceFlagProplistOverridesOi }

/-- `ptp_object_want`: the index of the object, with what is wanted loaded. -/
def ptpObjectWant (handle : UInt32) (want : PTPObjectFlags) : Ptp δ Nat := do
  let w ← Comp.get
  match ptpObjectFindOrInsert w.objects handle with
  -- the handle 0
  | none => Comp.throw .generalError
  | some (i, objects) => do
    modifyObjects fun _ => objects
    (if (objectAt objects i).flags.has (dev.forcedWant want) then pure i
      else readObject dev handle (dev.forcedWant want) i)

end GPhoto2
