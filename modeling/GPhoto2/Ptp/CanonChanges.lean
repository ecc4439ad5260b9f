import GPhoto2.Ptp.PropertyValue

/-!
# `GPhoto2.Ptp.CanonChanges`: the event blocks of Canon EOS cameras

`ptp_unpack_CANON_changes` walks a block of records twice: it counts them, and then makes a
change entry of each. Records of the type `PropValueChanged` also go to the store
`params->canon_props`. A record is given by the offset of its first byte in the block.

Every read outside of the block has no defined outcome (`none`), and so have a text that is
longer than the buffer it is printed into, a comparison beyond a stored payload, an entry
written beyond the array, and a walk that does not end. The texts that only `ptp_debug` prints
are left out, but not the bytes that are read for them. Memory is never short.
-/

set_option autoImplicit false

namespace GPhoto2

open Lib

/-! ### Codes -/

def ptpEcCanonEosObjectAddedEx : UInt32 := 0xc181
def ptpEcCanonEosRequestObjectTransfer : UInt32 := 0xc186
def ptpEcCanonEosPropValueChanged : UInt32 := 0xc189
def ptpEcCanonEosAvailListChanged : UInt32 := 0xc18a
def ptpEcCanonEosCameraStatusChanged : UInt32 := 0xc18b
def ptpEcCanonEosBulbExposureTime : UInt32 := 0xc194

/-- The events that are named in their entry, but not handled. -/
def unhandledEvents : List (UInt32 × String) :=
  [(0xc101, "RequestGetEvent"), (0xc182, "ObjectRemoved"), (0xc183, "RequestGetObjectInfoEx"),
    (0xc184, "StorageStatusChanged"), (0xc185, "StorageInfoChanged"),
    (0xc187, "ObjectInfoChangedEx"), (0xc188, "ObjectContentChanged"),
    (0xc18d, "WillSoonShutdown"), (0xc18e, "ShutdownTimerUpdated"),
    (0xc18f, "RequestCancelTransfer"), (0xc190, "RequestObjectTransferDT"),
    (0xc191, "RequestCancelTransferDT"), (0xc192, "StoreAdded"), (0xc193, "StoreRemoved"),
    (0xc194, "BulbExposureTime"), (0xc195, "RecordingTime"),
    (0xc1a2, "RequestObjectTransferTS"), (0xc1a3, "AfResult")]

def ptpDpcCanonEosAutoExposureMode : UInt32 := 0xD105
def ptpDpcCanonEosCustomFuncEx : UInt32 := 0xD1a0

/-- The `ImageFormat` properties, which are handled specially. -/
def imageFormatProps : List UInt32 := [0xD120, 0xD121, 0xD122, 0xD123]

/-- The properties whose `GetSet` value is fixed. -/
def readOnlyProps : List UInt32 :=
  [0xD108, 0xD111, 0xD112, 0xD116, 0xD119, 0xD11A, 0xD11B, 0xD11E, 0xD11F, 0xD1a1, 0xD1a2,
    0xD1a5, 0xD1a6, 0xD1a7, 0xD1a8, 0xD1aa, 0xD1ab, 0xD1ac, 0xD1af, 0xD1b2, 0xD1b8, 0xD1ba,
    0xD1d3, 0xD1d4, 0xD1d5, 0xD1d7, 0xD1d8, 0xD1dd]

def ptpDtcUint8 : UInt16 := 0x0002
def ptpDtcInt16 : UInt16 := 0x0003
def ptpDtcUint16 : UInt16 := 0x0004
def ptpDtcUint32 : UInt16 := 0x0006

/-- The properties `CustomFunc1` to `CustomFunc11`, which start with their size. -/
def customFuncProps : List UInt32 :=
  [0xD180, 0xD181, 0xD182, 0xD183, 0xD184, 0xD185, 0xD186, 0xD187, 0xD188, 0xD189, 0xD18a]

/-- The properties of type `PTP_DTC_UINT32`, the yet unknown ones behind the others. -/
def uint32Props : List UInt32 :=
  [0xD113, 0xD11B, 0xD11C, 0xD10D, 0xD10E, 0xD11E, 0xD11F, 0xD1ac, 0xD116, 0xD1dd, 0xD1dc,
    0xD10A, 0xD1a3, 0xD1a8, 0xD1aa, 0xD1ab, 0xD1ae, 0xD1b2, 0xD1b3, 0xD1b4, 0xD1b5, 0xD1b6,
    0xD1b8, 0xD1b7, 0xD1ba, 0xD1bb, 0xD1d4, 0xD1bc]

/-- The properties of type `PTP_DTC_UINT16`, with the unknown `DPOFVersion`. -/
def uint16Props : List UInt32 :=
  [0xD105, 0xD101, 0xD102, 0xD103, 0xD108, 0xD10F, 0xD111, 0xD112, 0xD119, 0xD106, 0xD1d9,
    0xD11D, 0xD1a9, 0xD1b1, 0xD1b0, 0xD114, 0xD11A]

def uint8Props : List UInt32 := [0xD110, 0xD109, 0xD107, 0xD104]

def strProps : List UInt32 := [0xD115, 0xD1d0, 0xD1d1, 0xD1af, 0xD1d8]

def int16Props : List UInt32 := [0xD10B, 0xD10C]

/-- The `DataType` that a property is given, if it is one that is listed. -/
def canonDataType (proptype : UInt32) : Option UInt16 :=
  if proptype ∈ uint32Props then some ptpDtcUint32
  else if proptype ∈ uint16Props then some ptpDtcUint16
  else if proptype ∈ uint8Props ∨ proptype ∈ customFuncProps then some ptpDtcUint8
  else if proptype ∈ strProps then some ptpDtcStr
  else if proptype ∈ int16Props then some ptpDtcInt16
  else none

/-! ### The store and the entries -/

/-- `PTPCanon_Property`. -/
structure PTPCanonProperty where
  size : UInt32
  type : UInt32
  proptype : UInt32
  data : List UInt8
  dpd : PTPDevicePropDesc
  deriving DecidableEq

/-- The fields of `PTPParams` that the walk changes. -/
structure CanonParams where
  canonProps : List PTPCanonProperty
  eosCamerastatus : Int32
  deriving DecidableEq

/-- The object of an entry: the fields of `oi` that are set. -/
structure CanonObject where
  oid : UInt32
  storageID : UInt32
  parentObject : UInt32
  objectFormat : UInt16
  objectCompressedSize : UInt64
  filename : CString
  deriving DecidableEq

/-- `PTPCanon_changes_entry`. -/
inductive PTPCanonChangesEntry
  | unknown (info : Option CString)
  | objectInfo (object : CanonObject)
  | objectTransfer (object : CanonObject)
  | property (propid : UInt16)
  | cameraStatus (status : Int32)
  deriving DecidableEq

/-! ### Reading and printing -/

variable (params : PTPParams) (data : List UInt8)

/-- `strdup` of a string in the block, which has to end there. -/
def strdup (off : Nat) : Option CString :=
  if 0 ∈ data.drop off then
    some (((data.drop off).takeWhile (· ≠ 0)).map fun b => Char.ofNat b.toNat)
  else none

/-- `sprintf` into a buffer of a given size, which has to hold the terminator too. -/
def sprintf (size : Nat) (text : CString) : Option CString :=
  if text.length < size then some text else none

/-- `%d` of an `uint32_t`. -/
def decimal (x : UInt32) : CString := (toString x.toInt32.toInt).toList

/-- `%x`. -/
def hexadecimal (x : UInt32) : CString := Nat.toDigits 16 x.toNat

/-- `dtoh16` of a number. -/
def dtoh16 (x : UInt16) : UInt16 :=
  UInt16.ofNat (params.byteorder.decode (ByteOrder.little.encode 2 x.toNat))

/-- `ptp_unpack_EOS_ImageFormat`: the value, and how far it moves the pointer. -/
def ptpUnpackEOSImageFormat (off : Nat) : Option (UInt16 × Nat) := do
  let n ← dtoh32ap params data off
  if n ≠ 1 ∧ n ≠ 2 then some (0, 0)
  else do
    let l ← dtoh32ap params data (off + 4)
    if l ≠ 0x10 then some (0, 0)
    else do
      let s1 ← dtoh32ap params data (off + 12)
      let c1 ← dtoh32ap params data (off + 16)
      -- deal with S1/S2/S3 JPEG sizes
      let nibbles := fun (s1 c1 s2 c2 : UInt32) =>
        let s1 := if 0xe ≤ s1 then s1 - 1 else s1
        let s2 := if 0xe ≤ s2 then s2 - 1 else s2
        (((s1 &&& 0xF) <<< 12) ||| ((c1 &&& 0xF) <<< 8) ||| ((s2 &&& 0xF) <<< 4) |||
          (c2 &&& 0xF)).toUInt16
      if n = 2 then do
        let l ← dtoh32ap params data (off + 20)
        if l ≠ 0x10 then some (0, 0)
        else do
          let s2 ← dtoh32ap params data (off + 28)
          let c2 ← dtoh32ap params data (off + 32)
          some (nibbles s1 c1 s2 c2, 36)
      else some (nibbles s1 c1 0 0, 20)

/-- `ptp_unpack_EOS_CustomFuncEx`. Where it prints nothing it does not end the string. -/
def ptpUnpackEOSCustomFuncEx (off : Nat) : Option CString := do
  let s ← dtoh32ap params data off
  let n := s / 4
  let words ← (List.range n.toNat).mapM fun i => dtoh32ap params data (off + 4 * i)
  let text := words.flatMap fun word => hexadecimal word ++ [',']
  if n = 0 then none
  else sprintf (s * 2 + s / 4 + 1).toNat text

/-! ### `AvailListChanged` -/

/-- The supported values of an `ImageFormat` property. -/
def imageFormatValues : Nat → Nat → Option (List PTPPropertyValue)
  | 0, _ => some []
  | n + 1, xdata => do
    let (format, len) ← ptpUnpackEOSImageFormat params data xdata
    let values ← imageFormatValues n (xdata + len)
    some (.scalar (.u16 (dtoh16 params format)) :: values)

/-- The supported values of a 'normal' enumerated type, four bytes apart. -/
def enumValues (t : ScalarType) : Nat → Nat → Option (List PTPPropertyValue)
  | 0, _ => some []
  | n + 1, xdata => do
    let bs ← slice data xdata t.size
    let values ← enumValues t n (xdata + 4)
    some (.scalar (t.ofBits (params.byteorder.decode bs)) :: values)

/-- The types of the values of an enumeration that are handled. -/
def enumType (dataType : UInt16) : Option ScalarType :=
  if dataType = ptpDtcInt16 then some .int16
  else if dataType = ptpDtcUint32 then some .uint32
  else if dataType = ptpDtcUint16 then some .uint16
  else if dataType = ptpDtcUint8 then some .uint8
  else none

/-- The values of an enumeration: `propxcnt` of them from `xdata` on. Those of another type are
only printed, as far as the record goes. -/
def supportedValues (proptype : UInt32) (dataType : UInt16) (propxcnt xsize : UInt32)
    (xdata : Nat) : Option (List PTPPropertyValue) :=
  if proptype ∈ imageFormatProps then imageFormatValues params data propxcnt.toNat xdata
  else
    match enumType dataType with
    | some t => enumValues params data t propxcnt.toNat xdata
    | none => do
      let _ ← dtoh32ap params data xdata
      let _ ← slice data xdata (4 * (xsize / 4).toNat)
      some (List.replicate propxcnt.toNat .unset)

/-- The index in the store of a property, or the length of the store. -/
def canonPropIdx (canonProps : List PTPCanonProperty) (proptype : UInt32) : Nat :=
  canonProps.findIdx (·.proptype = proptype)

/-- The case `PTP_EC_CANON_EOS_AvailListChanged`. -/
def availListChanged (cur : Nat) (size : UInt32) (p : CanonParams) :
    Option (PTPCanonChangesEntry × CanonParams) := do
  let proptype ← dtoh32ap params data (cur + 8)
  let propxtype ← dtoh32ap params data (cur + 0xc)
  let propxcnt ← dtoh32ap params data (cur + 0x10)
  let xdata := cur + 0x14
  match p.canonProps[canonPropIdx p.canonProps proptype]? with
  | none => some (.unknown none, p)
  | some prop =>
    if propxtype ≠ 3 then do
      let _ ← slice data xdata (size - 0x14).toNat
      some (.unknown none, p)
    else if propxcnt = 0 then some (.unknown none, p)
    else do
      let values ← supportedValues params data proptype prop.dpd.dataType propxcnt (size - 0x14)
        xdata
      let dpd := { prop.dpd with formFlag := 0x02, form := .enumeration values }
      some (.unknown none, { p with
        canonProps := p.canonProps.set (canonPropIdx p.canonProps proptype)
          { prop with dpd := dpd } })

/-! ### `PropValueChanged` -/

/-- The payload that is stored for a property, when a record of a given size comes: it is only
copied if the size is another one than recorded, or if `memcmp` finds a difference. -/
def storedPayload (prop : PTPCanonProperty) (size : UInt32) (payload : List UInt8) :
    Option (List UInt8) :=
  if prop.size ≠ size then some payload
  -- memcmp beyond the buffer
  else if prop.data.length < payload.length then none
  else if prop.data.take payload.length ≠ payload then some payload
  else some prop.data

/-- The description of a new property. -/
def newDpd : PTPDevicePropDesc :=
  { devicePropertyCode := 0, dataType := 0, getSet := 1, factoryDefaultValue := .unset,
    currentValue := .unset, formFlag := 0, form := .none }

/-- The two values of a description, read at `xdata`. -/
def setValues (xdata : Nat) (dpd : PTPDevicePropDesc) : Option PTPDevicePropDesc :=
  match enumType dpd.dataType with
  | some t => (slice data xdata t.size).map fun bs =>
    let value := PTPPropertyValue.scalar (t.ofBits (params.byteorder.decode bs))
    { dpd with factoryDefaultValue := value, currentValue := value }
  | none =>
    if dpd.dataType = ptpDtcStr then
      -- they actually store plain ASCII in their string properties
      (strdup data xdata).map fun text =>
        { dpd with factoryDefaultValue := .str (some text), currentValue := .str (some text) }
    else some dpd

/-- The property of a record with its payload: the one of the store, or a new one. -/
def storedProp (found : Option PTPCanonProperty) (size type proptype : UInt32)
    (payload : List UInt8) : Option PTPCanonProperty :=
  match found with
  | some prop => (storedPayload prop size payload).map fun payload =>
    { prop with data := payload }
  | none => some ⟨size, type, proptype, payload, newDpd⟩

/-- The switches that fix the `GetSet` value and the `DataType` of a property. -/
def fixDpd (proptype : UInt32) (dpd : PTPDevicePropDesc) : PTPDevicePropDesc :=
  let dpd := if proptype ∈ readOnlyProps then { dpd with getSet := 0x00 } else dpd
  let dpd := if proptype = ptpDpcCanonEosAutoExposureMode then
    { dpd with formFlag := 0x02, form := .enumeration [] } else dpd
  { dpd with dataType := (canonDataType proptype).getD dpd.dataType }

@[simp] theorem fixDpd_dataType (proptype : UInt32) (dpd : PTPDevicePropDesc) :
    (fixDpd proptype dpd).dataType = (canonDataType proptype).getD dpd.dataType := by
  unfold fixDpd
  by_cases hro : proptype ∈ readOnlyProps
  · by_cases hauto : proptype = ptpDpcCanonEosAutoExposureMode
    · simp only [if_pos hro, if_pos hauto]
    · simp only [if_pos hro, if_neg hauto]
  · by_cases hauto : proptype = ptpDpcCanonEosAutoExposureMode
    · simp only [if_neg hro, if_pos hauto]
    · simp only [if_neg hro, if_neg hauto]

/-- The special handling of `ImageFormat` and `CustomFuncEx`. The parser of the latter is given
the start of the block, not the one of the payload. -/
def setSpecialValues (proptype : UInt32) (xdata : Nat) (dpd : PTPDevicePropDesc) :
    Option PTPDevicePropDesc :=
  if proptype ∈ imageFormatProps then do
    let (format, _) ← ptpUnpackEOSImageFormat params data xdata
    let value := PTPPropertyValue.scalar (.u16 format)
    some { dpd with
      dataType := ptpDtcUint16, factoryDefaultValue := value, currentValue := value }
  else if proptype = ptpDpcCanonEosCustomFuncEx then do
    let text ← ptpUnpackEOSCustomFuncEx params data 0
    some { dpd with
      dataType := ptpDtcStr
      factoryDefaultValue := .str (some text)
      currentValue := .str (some text) }
  else some dpd

/-- What a record makes of the description of its property. -/
def describeProp (proptype : UInt32) (xdata : Nat) (dpd : PTPDevicePropDesc) :
    Option PTPDevicePropDesc := do
  -- custom func entries look like this: 4 bytes size + 1 byte data
  let xdata := if proptype ∈ customFuncProps then xdata + 4 else xdata
  let dpd ← setValues params data xdata (fixDpd proptype dpd)
  setSpecialValues params data proptype xdata dpd

/-- Put a property at an index of the store, or behind its end. -/
def putCanonProp (canonProps : List PTPCanonProperty) (j : Nat) (prop : PTPCanonProperty) :
    List PTPCanonProperty :=
  if j < canonProps.length then canonProps.set j prop else canonProps ++ [prop]

/-- The case `PTP_EC_CANON_EOS_PropValueChanged`, of a record of at least 12 bytes. -/
def propValueChanged (cur : Nat) (size type : UInt32) (p : CanonParams) :
    Option (PTPCanonChangesEntry × CanonParams) := do
  let proptype ← dtoh32ap params data (cur + 8)
  let payload ← slice data (cur + 0xc) (size - 0xc).toNat
  let j := canonPropIdx p.canonProps proptype
  let prop ← storedProp p.canonProps[j]? size type proptype payload
  let dpd ← describeProp params data proptype (cur + 0xc) prop.dpd
  some (.property proptype.toUInt16,
    { p with canonProps := putCanonProp p.canonProps j { prop with dpd := dpd } })

/-! ### Records -/

/-- The case `PTP_EC_CANON_EOS_CameraStatusChanged`. -/
def cameraStatusChanged (cur : Nat) (p : CanonParams) :
    Option (PTPCanonChangesEntry × CanonParams) := do
  let status ← dtoh32ap params data (cur + 8)
  some (.cameraStatus status.toInt32, { p with eosCamerastatus := status.toInt32 })

/-- The case `PTP_EC_CANON_EOS_ObjectAddedEx`. -/
def objectAddedEx (cur : Nat) : Option PTPCanonChangesEntry := do
  let oid ← dtoh32ap params data (cur + 8)
  let storageID ← dtoh32ap params data (cur + 0xc)
  let parentObject ← dtoh32ap params data (cur + 0x20)
  let objectFormat ← dtoh16ap params data (cur + 0x10)
  let objectCompressedSize ← dtoh32ap params data (cur + 0x1c)
  let filename ← strdup data (cur + 0x28)
  some (.objectInfo ⟨oid, storageID, parentObject, objectFormat, objectCompressedSize.toUInt64,
    filename⟩)

/-- The case `PTP_EC_CANON_EOS_RequestObjectTransfer`. -/
def requestObjectTransfer (cur : Nat) : Option PTPCanonChangesEntry := do
  let oid ← dtoh32ap params data (cur + 8)
  let objectFormat ← dtoh16ap params data (cur + 0xc)
  let objectCompressedSize ← dtoh32ap params data (cur + 0x14)
  let filename ← strdup data (cur + 0x1c)
  some (.objectTransfer ⟨oid, 0, 0, objectFormat, objectCompressedSize.toUInt64, filename⟩)

/-- The case `PTP_EC_CANON_EOS_BulbExposureTime`. The buffer is as long as the text with nine
digits, and has no room for its terminator. -/
def bulbExposureTime (cur : Nat) : Option PTPCanonChangesEntry := do
  let time ← dtoh32ap params data (cur + 8)
  let info ← sprintf "BulbExposureTime 123456789".length
    ("BulbExposureTime ".toList ++ decimal time)
  some (.unknown (some info))

/-- The text of an event that is not handled, if it has a name. -/
def unhandledInfo (size type : UInt32) : Option (Option CString) :=
  match unhandledEvents.lookup type with
  | some name => (sprintf ("unhandled EOS event " ++ name ++ " (size 123456789)").length
      (("unhandled EOS event " ++ name ++ " (size ").toList ++ decimal size ++ [')'])).map some
  | none => some none

/-- The `default` case. All bytes of the record are read, to be printed. -/
def unhandledEvent (cur : Nat) (size type : UInt32) : Option PTPCanonChangesEntry := do
  let info ← unhandledInfo size type
  if 8 ≤ size then do
    let _ ← slice data (cur + 8) (size - 8).toNat
    some (.unknown info)
  else some (.unknown info)

/-- The switch over the type of a record. A `PropValueChanged` record of less than 12 bytes falls
through to `CameraStatusChanged`. -/
def unpackRecord (cur : Nat) (size type : UInt32) (p : CanonParams) :
    Option (PTPCanonChangesEntry × CanonParams) :=
  if type = ptpEcCanonEosObjectAddedEx then (objectAddedEx params data cur).map (·, p)
  else if type = ptpEcCanonEosRequestObjectTransfer then
    (requestObjectTransfer params data cur).map (·, p)
  else if type = ptpEcCanonEosAvailListChanged then availListChanged params data cur size p
  else if type = ptpEcCanonEosPropValueChanged ∧ 0xc ≤ size then
    propValueChanged params data cur size type p
  else if type = ptpEcCanonEosPropValueChanged ∨ type = ptpEcCanonEosCameraStatusChanged then
    cameraStatusChanged params data cur p
  else if type = 0 then some (.unknown none, p)
  else if type = ptpEcCanonEosBulbExposureTime then (bulbExposureTime params data cur).map (·, p)
  else (unhandledEvent data cur size type).map (·, p)

/-! ### The two passes -/

/-- `datasize`. A block of 2 GiB or more has a negative one, and both loops end at once. -/
def datasize : Nat := if data.length < 2 ^ 31 then data.length else 0

/-- The first loop: the number of entries, and the offsets of the records that it has come
to. -/
def countLoop : Nat → Nat → Option (Nat × List Nat)
  | 0, _ => none
  | fuel + 1, cur =>
    if cur < datasize data then do
      let size ← dtoh32ap params data cur
      let type ← dtoh32ap params data (cur + 4)
      if size = 8 ∧ type = 0 then some (0, [cur])
      else do
        let (entries, visited) ← countLoop fuel (cur + size.toNat)
        some (entries + 1, cur :: visited)
    else some (0, [])

/-- The second loop: the entries that it has written from the index `i` on, into an array of
`allocated` ones, each with the offset of its record. -/
def changesLoop (allocated : Nat) :
    Nat → Nat → Nat → CanonParams → Option (List (Nat × PTPCanonChangesEntry) × CanonParams)
  | 0, _, _, _ => none
  | fuel + 1, cur, i, p =>
    if cur < datasize data then do
      let size ← dtoh32ap params data cur
      let type ← dtoh32ap params data (cur + 4)
      if allocated ≤ i then none
      else do
        let (entry, p) ← unpackRecord params data cur size type p
        if size = 8 ∧ type = 0 then some ([(cur, entry)], p)
        else do
          let (ce, p) ← changesLoop allocated fuel (cur + size.toNat) (i + 1) p
          some ((cur, entry) :: ce, p)
    else some ([], p)

/-- What `ptp_unpack_CANON_changes` leaves: the number that it returns, the records that the
first loop has come to, the entries with their records, and the store. -/
structure CanonChanges where
  entries : Nat
  visited : List Nat
  ce : List (Nat × PTPCanonChangesEntry)
  params : CanonParams

/-- `ptp_unpack_CANON_changes`. An empty block is a null pointer. A loop that is not at the end
of the block after as many rounds as there are bytes has met a record of size 0, and stays
there. -/
def ptpUnpackCANONChanges (p : CanonParams) : Option CanonChanges :=
  if data = [] then some ⟨0, [], [], p⟩
  else do
    let (entries, visited) ← countLoop params data (datasize data + 1) 0
    let (ce, p) ← changesLoop params data (entries + 1) (datasize data + 1) 0 0 p
    some ⟨entries, visited, ce, p⟩

end GPhoto2
