import GPhoto2.Lib.Comp
import GPhoto2.Ptp.PackString
import GPhoto2.Ptp.Types

/-!
# `GPhoto2.Ptp.Dataset`: device, storage and object info datasets

`ptp_unpack_DI`, `ptp_unpack_EOS_DI`, `ptp_unpack_OH`, `ptp_unpack_SIDs`, `ptp_unpack_SI`,
`ptp_unpack_OI` and `ptp_pack_OI`. The readers of strings and arrays take an `uint16_t` offset,
while the offsets of the parsers have the type `unsigned int`: `DatasetState` notes whether one
was cut off on the way, and how many elements were announced and allocated for each array.

A dataset of no bytes is a null pointer, which is what a transaction without a data phase
leaves. `malloc (0)` is not null.
-/

set_option autoImplicit false

namespace GPhoto2

open Lib

/-! ### Reading at the running offset -/

/-- The running offset of a parser. -/
structure DatasetState where
  offset : Nat
  truncated : Bool
  /-- The elements announced, and those the block has room for. -/
  allocs : List (Nat × Nat)
  deriving DecidableEq

/-- A parser. It returns nothing that says whether it failed. -/
abbrev Dataset : Type → Type := Comp DatasetState Empty

/-- The state at the start of a parser. -/
def DatasetState.start (offset : Nat) : DatasetState := ⟨offset, false, []⟩

variable (params : PTPParams) (data : List UInt8)

/-- `totallen += n`. -/
def skip (n : Nat) : Dataset Unit :=
  Comp.modify fun s => { s with offset := (s.offset + n) % 2 ^ 32 }

/-- A read at the running offset. -/
def readOffset {α : Type} (read : Nat → Option α) : Dataset α := fun s =>
  (read s.offset).map fun a => (.ok a, s)

/-- A read that takes the offset as an `uint16_t`. -/
def readOffset16 {α : Type} (read : UInt16 → Option α) : Dataset α := fun s =>
  (read (UInt16.ofNat s.offset)).map fun a =>
    (.ok a, { s with truncated := s.truncated || decide (2 ^ 16 ≤ s.offset) })

/-- `malloc (n * size)`, for `n` elements. -/
def allocArray (n size : Nat) : Dataset Unit :=
  Comp.modify fun s => { s with allocs := s.allocs ++ [(n, n * size % 2 ^ 64 / size)] }

/-- A string at the running offset, which moves behind it. -/
def nextString : Dataset (Option CString) := do
  let (string, len) ← readOffset16 (ptpUnpackString params data)
  skip (len.toNat * 2 + 1)
  pure string

/-- An array of `uint16_t` at the running offset, which moves behind it. -/
def nextUint16Array : Dataset (List UInt16) := do
  let array ← readOffset16 (ptpUnpackUint16TArray params data)
  allocArray array.length 2
  skip (array.length * 2 + 4)
  pure array

/-- An array of `uint32_t` at the running offset, which moves behind it. -/
def nextUint32Array : Dataset (List UInt32) := do
  let array ← readOffset16 (ptpUnpackUint32TArray params data)
  allocArray array.length 4
  skip (array.length * 4 + 4)
  pure array

/-! ### Device info -/

/-- `PTPDeviceInfo`. -/
structure PTPDeviceInfo where
  standardVersion : UInt16
  vendorExtensionID : UInt32
  vendorExtensionVersion : UInt16
  vendorExtensionDesc : Option CString
  functionalMode : UInt16
  operationsSupported : List UInt16
  eventsSupported : List UInt16
  devicePropertiesSupported : List UInt16
  captureFormats : List UInt16
  imageFormats : List UInt16
  manufacturer : Option CString
  model : Option CString
  deviceVersion : Option CString
  serialNumber : Option CString
  deriving DecidableEq

/-- `ptp_unpack_DI`. The array offsets are the ones of the running offset, which starts at the
vendor extension description. -/
def ptpUnpackDI (di : PTPDeviceInfo) : Dataset PTPDeviceInfo :=
  if data.length < 12 then pure di
  else do
    let standardVersion ← readOffset fun _ => dtoh16ap params data 0
    let vendorExtensionID ← readOffset fun _ => dtoh32ap params data 2
    let vendorExtensionVersion ← readOffset fun _ => dtoh16ap params data 6
    skip 8
    let vendorExtensionDesc ← nextString params data
    let functionalMode ← readOffset (dtoh16ap params data)
    skip 2
    let operationsSupported ← nextUint16Array params data
    let eventsSupported ← nextUint16Array params data
    let devicePropertiesSupported ← nextUint16Array params data
    let captureFormats ← nextUint16Array params data
    let imageFormats ← nextUint16Array params data
    let manufacturer ← nextString params data
    let model ← nextString params data
    let deviceVersion ← nextString params data
    let serialNumber ← nextString params data
    pure ⟨standardVersion, vendorExtensionID, vendorExtensionVersion, vendorExtensionDesc,
      functionalMode, operationsSupported, eventsSupported, devicePropertiesSupported,
      captureFormats, imageFormats, manufacturer, model, deviceVersion, serialNumber⟩

/-- `PTPCanonEOSDeviceInfo`. -/
structure PTPCanonEOSDeviceInfo where
  eventsSupported : List UInt32
  devicePropertiesSupported : List UInt32
  unk : List UInt32
  deriving DecidableEq

/-- `ptp_unpack_EOS_DI`. -/
def ptpUnpackEOSDI : Dataset PTPCanonEOSDeviceInfo :=
  if data.length < 8 then pure ⟨[], [], []⟩
  else do
    -- uint32_t struct len - ignore
    skip 4
    let events ← nextUint32Array params data
    let s ← Comp.get
    if data.length ≤ s.offset then pure ⟨events, [], []⟩
    else do
      let properties ← nextUint32Array params data
      let s ← Comp.get
      if data.length ≤ s.offset then pure ⟨events, properties, []⟩
      else do
        let unk ← nextUint32Array params data
        pure ⟨events, properties, unk⟩

/-! ### Handles and storages -/

/-- `ptp_unpack_OH`. -/
def ptpUnpackOH : Dataset (List UInt32) :=
  if data.length ≠ 0 then nextUint32Array params data else pure []

/-- `ptp_unpack_SIDs`. -/
def ptpUnpackSIDs : Dataset (List UInt32) :=
  if data.length = 0 then pure [] else nextUint32Array params data

/-- `PTPStorageInfo`. -/
structure PTPStorageInfo where
  storageType : UInt16
  filesystemType : UInt16
  accessCapability : UInt16
  maxCapability : UInt64
  freeSpaceInBytes : UInt64
  freeSpaceInImages : UInt32
  storageDescription : Option CString
  volumeLabel : Option CString
  deriving DecidableEq

/-- `ptp_unpack_SI`. -/
def ptpUnpackSI : Dataset PTPStorageInfo := do
  let storageType ← readOffset fun _ => dtoh16ap params data 0
  let filesystemType ← readOffset fun _ => dtoh16ap params data 2
  let accessCapability ← readOffset fun _ => dtoh16ap params data 4
  let maxCapability ← readOffset fun _ => dtoh64ap params data 6
  let freeSpaceInBytes ← readOffset fun _ => dtoh64ap params data 14
  let freeSpaceInImages ← readOffset fun _ => dtoh32ap params data 22
  skip 26
  let storageDescription ← nextString params data
  let volumeLabel ← nextString params data
  pure ⟨storageType, filesystemType, accessCapability, maxCapability, freeSpaceInBytes,
    freeSpaceInImages, storageDescription, volumeLabel⟩

/-! ### Object info -/

/-- `PTP_oi_MaxLen`. -/
def ptpOiMaxLen : Nat := 53 + (ptpMaxstrlen + 1) * 2 + 3

/-- What `ptp_pack_OI` leaves: the block, how many bytes at its start it has written to, and the
length it returns. -/
structure PackedOI where
  oidata : List UInt8
  written : Nat
  length : Nat

/-- The numbers of an object info on the wire, with their widths. They follow each other
without a gap, but for the upper half of a 64-bit object size. -/
def oiFields (ocs64 : Bool) (oi : PTPObjectInfo) : List (Nat × Nat) :=
  [(4, oi.storageID.toNat), (2, oi.objectFormat.toNat), (2, oi.protectionStatus.toNat),
    (4, oi.objectCompressedSize.toNat % 2 ^ 32)] ++
  (if ocs64 then [(4, 0)] else []) ++
  [(2, oi.thumbFormat.toNat), (4, oi.thumbCompressedSize.toNat), (4, oi.thumbPixWidth.toNat),
    (4, oi.thumbPixHeight.toNat), (4, oi.imagePixWidth.toNat), (4, oi.imagePixHeight.toNat),
    (4, oi.imageBitDepth.toNat), (4, oi.parentObject.toNat), (2, oi.associationType.toNat),
    (4, oi.associationDesc.toNat), (4, oi.sequenceNumber.toNat)]

/-- `ptp_pack_OI`. Nothing is defined for an object without a filename. -/
def ptpPackOI (oi : PTPObjectInfo) : Option PackedOI :=
  oi.filename.bind fun filename => (ptpPackString params filename).map fun (packed, filenamelen) =>
    let shift := if params.ocs64 then 4 else 0
    let written := fieldsBytes params.byteorder (oiFields params.ocs64 oi) ++ packed
    { oidata := written ++ List.replicate (ptpOiMaxLen + shift - written.length) 0
      written := written.length
      length := 53 + filenamelen.toNat * 2 + 3 + shift }

/-- `struct tm`. -/
structure Tm where
  year : Int
  mon : Int
  mday : Int
  hour : Int
  min : Int
  sec : Int

/-- `ptp_unpack_PTPTIME`. The local time zone decides what `mktime` returns. -/
def ptpUnpackPTPTIME (mktime : Tm → Int) : Option CString → Int
  | none => 0
  | some str =>
    if 40 ≤ str.length then 0
    else if str.length < 15 then 0
    else mktime {
      year := atoi (str.take 4) - 1900
      mon := atoi ((str.drop 4).take 2) - 1
      mday := atoi ((str.drop 6).take 2)
      hour := atoi ((str.drop 9).take 2)
      min := atoi ((str.drop 11).take 2)
      sec := atoi ((str.drop 13).take 2) }

/-- Stupid Samsung Galaxy developers emit a 64bit objectcompressedsize: the byte where a
filename starts is zero, and the one four bytes behind it is not. -/
def looksOcs64 : Option Bool :=
  (dtoh8a data 52).bind fun a =>
    if a = 0 then (dtoh8a data 56).map fun b => b ≠ 0 else some false

/-- `ptp_unpack_OI`: the object info, and whether it sets `params->ocs64`. -/
def ptpUnpackOI (mktime : Tm → Int) (oi : PTPObjectInfo) : Dataset (PTPObjectInfo × Bool) := do
  let storageID ← readOffset fun _ => dtoh32ap params data 0
  let objectFormat ← readOffset fun _ => dtoh16ap params data 4
  let protectionStatus ← readOffset fun _ => dtoh16ap params data 6
  let objectCompressedSize ← readOffset fun _ => dtoh32ap params data 8
  let ocs64 ← readOffset fun _ => looksOcs64 data
  let data := if ocs64 then data.drop 4 else data
  let thumbFormat ← readOffset fun _ => dtoh16ap params data 12
  let thumbCompressedSize ← readOffset fun _ => dtoh32ap params data 14
  let thumbPixWidth ← readOffset fun _ => dtoh32ap params data 18
  let thumbPixHeight ← readOffset fun _ => dtoh32ap params data 22
  let imagePixWidth ← readOffset fun _ => dtoh32ap params data 26
  let imagePixHeight ← readOffset fun _ => dtoh32ap params data 30
  let imageBitDepth ← readOffset fun _ => dtoh32ap params data 34
  let parentObject ← readOffset fun _ => dtoh32ap params data 38
  let associationType ← readOffset fun _ => dtoh16ap params data 42
  let associationDesc ← readOffset fun _ => dtoh32ap params data 44
  let sequenceNumber ← readOffset fun _ => dtoh32ap params data 48
  skip 52
  let filename ← nextString params data
  let captureDate ← nextString params data
  let modificationDate ← nextString params data
  pure ({ oi with
    storageID := storageID
    objectFormat := objectFormat
    protectionStatus := protectionStatus
    objectCompressedSize := objectCompressedSize.toUInt64
    thumbFormat := thumbFormat
    thumbCompressedSize := thumbCompressedSize
    thumbPixWidth := thumbPixWidth
    thumbPixHeight := thumbPixHeight
    imagePixWidth := imagePixWidth
    imagePixHeight := imagePixHeight
    imageBitDepth := imageBitDepth
    parentObject := parentObject
    associationType := associationType
    associationDesc := associationDesc
    sequenceNumber := sequenceNumber
    filename := filename
    captureDate := ptpUnpackPTPTIME mktime captureDate
    modificationDate := ptpUnpackPTPTIME mktime modificationDate }, ocs64)

/-! ## The texts for the display of a Kodak camera

`ptp_pack_EK_text`. It allocates a block and fills it from its start to its end. Each string is
packed at the cursor, and the cursor then moves by the length `ptp_pack_string` returns: over
what was written, or, for a string that is too long, over one byte that was not.

A byte of the block that was never written is `none`. A write behind the block has no defined
outcome.
-/

/-- `PTPEKTextParams`. -/
structure PTPEKTextParams where
  title : CString
  line : List CString
  five : line.length = 5

/-- The strings, in the order in which they are packed. -/
def PTPEKTextParams.strings (text : PTPEKTextParams) : List CString := text.title :: text.line

/-- The `int` that `ptp_pack_EK_text` computes for the length of the block. -/
def ekTextLen (text : PTPEKTextParams) : Int :=
  Int.bmod ((text.strings.map fun s => 2 * (s.length + 1) + 1).sum +
    (4 * 2 + 2 * 4 + 2 + 4 + 2 + 5 * 4 * 2) : Nat) (2 ^ 32)

variable (params : PTPParams)

/-- A string at the cursor, up to where the cursor moves. -/
def ekString (s : CString) : Option (List (Option UInt8)) :=
  (ptpPackString params s).map fun packed =>
    packed.1.map some ++ List.replicate (2 * packed.2.toNat + 1 - packed.1.length) none

/-- Some 16-bit numbers at the cursor. -/
def ekNumbers (xs : List UInt16) : List (Option UInt8) := (xs.flatMap (htod16ap params)).map some

/-- A string, a zero, and the numbers behind it. -/
def ekBlock (block : CString × List UInt16) : Option (List (Option UInt8)) :=
  (ekString params block.1).map fun bytes => bytes ++ ekNumbers params (0 :: block.2)

/-- One block after another. -/
def ekBlocks : List (CString × List UInt16) → Option (List (Option UInt8))
  | [] => some []
  | block :: blocks => do
    let bytes ← ekBlock params block
    let rest ← ekBlocks blocks
    some (bytes ++ rest)

/-- The title and the five lines, with the numbers behind them. -/
def PTPEKTextParams.blocks (text : PTPEKTextParams) : List (CString × List UInt16) :=
  (text.title, [0x10]) :: text.line.map fun s => (s, [0x10, 0x01, 0x02, 0x06])

/-- What is in front of the title. -/
def ekHead : List (Option UInt8) :=
  ekNumbers params [100, 1, 0, 1000] ++
    (htod32ap params 0 ++ htod32ap params 0).map some ++
    ekNumbers params [6] ++ (htod32ap params 0).map some

/-- `ptp_pack_EK_text`: what it returns, and the block. There is no memory for a block of a
negative length. -/
def ptpPackEkText (text : PTPEKTextParams) : Option (Int × List (Option UInt8)) :=
  if ekTextLen text < 0 then some (0, [])
  else (ekBlocks params text.blocks).bind fun rest =>
    if (ekHead params ++ rest).length ≤ ekTextLen text then
      some (ekTextLen text, ekHead params ++ rest ++
        List.replicate ((ekTextLen text).toNat - (ekHead params ++ rest).length) none)
    else none

end GPhoto2
