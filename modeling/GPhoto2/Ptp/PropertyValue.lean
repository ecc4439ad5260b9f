import GPhoto2.Lib.Comp
import GPhoto2.Lib.Qsort
import GPhoto2.Ptp.PackString

/-!
# `GPhoto2.Ptp.PropertyValue`: property values and their descriptions

`ptp_pack_DPV`, `ptp_unpack_DPV`, `ptp_unpack_DPD` and `ptp_unpack_OPD`. The parsers move an
`unsigned int` offset through a block of bytes; `Cursor` also notes whether this offset, or the
expression `total - *offset`, has ever wrapped around. An error is where the source returns 0.

The type switch of the two value functions is the table `dataType`; its integer cases are one
definition with the width and the sign as parameters.
-/

set_option autoImplicit false

namespace GPhoto2

open Lib

/-! ### Datatypes -/

/-- The integers that a value or an element of an array can be. -/
inductive ScalarType
  | int8
  | uint8
  | int16
  | uint16
  | int32
  | uint32
  | int64
  | uint64
  deriving DecidableEq

/-- `sizeof`. -/
def ScalarType.size : ScalarType → Nat
  | int8 => 1
  | uint8 => 1
  | int16 => 2
  | uint16 => 2
  | int32 => 4
  | uint32 => 4
  | int64 => 8
  | uint64 => 8

/-- The cases of the type switches. -/
inductive DataType
  | scalar (t : ScalarType)
  | int128
  | uint128
  | array (t : ScalarType)
  | str
  deriving DecidableEq

def ptpDtcStr : UInt16 := 0xFFFF

/-- The `PTP_DTC_*` codes that `ptp_unpack_DPV` knows. -/
def dataTypes : List (UInt16 × DataType) :=
  [(0x0001, .scalar .int8), (0x0002, .scalar .uint8), (0x0003, .scalar .int16),
    (0x0004, .scalar .uint16), (0x0005, .scalar .int32), (0x0006, .scalar .uint32),
    (0x0007, .scalar .int64), (0x0008, .scalar .uint64), (0x0009, .int128),
    (0x000A, .uint128), (0x4001, .array .int8), (0x4002, .array .uint8),
    (0x4003, .array .int16), (0x4004, .array .uint16), (0x4005, .array .int32),
    (0x4006, .array .uint32), (0x4007, .array .int64), (0x4008, .array .uint64),
    (0xFFFF, .str)]

/-- The case of a type switch that a code selects. -/
def dataType (datatype : UInt16) : Option DataType := dataTypes.lookup datatype

/-- The integer members of a `PTPPropertyValue`. -/
inductive PTPScalar
  | i8 (x : Int8)
  | u8 (x : UInt8)
  | i16 (x : Int16)
  | u16 (x : UInt16)
  | i32 (x : Int32)
  | u32 (x : UInt32)
  | i64 (x : Int64)
  | u64 (x : UInt64)
  deriving DecidableEq

/-- `PTPPropertyValue`: the member that was written last. -/
inductive PTPPropertyValue
  /-- Nothing was written. -/
  | unset
  | scalar (x : PTPScalar)
  | array (v : List PTPScalar)
  | str (s : Option CString)
  deriving DecidableEq

/-- The type of an integer. -/
def PTPScalar.type : PTPScalar → ScalarType
  | i8 _ => .int8
  | u8 _ => .uint8
  | i16 _ => .int16
  | u16 _ => .uint16
  | i32 _ => .int32
  | u32 _ => .uint32
  | i64 _ => .int64
  | u64 _ => .uint64

/-- The bits of an integer, as an unsigned number. -/
def PTPScalar.bits : PTPScalar → Nat
  | i8 x => x.toUInt8.toNat
  | u8 x => x.toNat
  | i16 x => x.toUInt16.toNat
  | u16 x => x.toNat
  | i32 x => x.toUInt32.toNat
  | u32 x => x.toNat
  | i64 x => x.toUInt64.toNat
  | u64 x => x.toNat

/-- The integer with the given bits. -/
def ScalarType.ofBits (n : Nat) : ScalarType → PTPScalar
  | int8 => .i8 (UInt8.ofNat n).toInt8
  | uint8 => .u8 (UInt8.ofNat n)
  | int16 => .i16 (UInt16.ofNat n).toInt16
  | uint16 => .u16 (UInt16.ofNat n)
  | int32 => .i32 (UInt32.ofNat n).toInt32
  | uint32 => .u32 (UInt32.ofNat n)
  | int64 => .i64 (UInt64.ofNat n).toInt64
  | uint64 => .u64 (UInt64.ofNat n)

/-! ### Reading -/

/-- The running offset. -/
structure Cursor where
  offset : Nat
  wrapped : Bool
  deriving DecidableEq

/-- A parser that returns 0 where it fails. -/
abbrev Unpack : Type → Type := Comp Cursor Unit

variable (params : PTPParams) (data : List UInt8) (total : Nat)

/-- `*offset += n`. -/
def advance (n : Nat) : Unpack Unit :=
  Comp.modify fun c =>
    ⟨(c.offset + n) % 2 ^ 32, c.wrapped || decide (2 ^ 32 ≤ c.offset + n)⟩

/-- `total - *offset`. -/
def remaining : Unpack Nat := do
  let c ← Comp.get
  if c.offset ≤ total then pure (total - c.offset)
  else do
    Comp.modify fun c => { c with wrapped := true }
    pure (total + 2 ^ 32 - c.offset)

/-- A read that does not move the offset. -/
def peek {α : Type} (read : Nat → Option α) : Unpack α := fun c =>
  (read c.offset).map fun a => (.ok a, c)

/-- The macro `CTVAL`. -/
def ctval (t : ScalarType) : Unpack PTPScalar := do
  let left ← remaining total
  if left < t.size then Comp.throw ()
  else do
    let bs ← peek fun off => slice data off t.size
    advance t.size
    pure (t.ofBits (params.byteorder.decode bs))

/-- The loop of the macro `RARR`. -/
def rarrLoop (t : ScalarType) : Nat → Unpack (List PTPScalar)
  | 0 => pure []
  | n + 1 => do
    let x ← ctval params data total t
    let v ← rarrLoop t n
    pure (x :: v)

/-- The macro `RARR`. -/
def rarr (t : ScalarType) : Unpack (List PTPScalar) := do
  let left ← remaining total
  if left < 4 then Comp.throw ()
  else do
    let n ← peek (dtoh32ap params data)
    advance 4
    rarrLoop params data total t n.toNat

/-- `ptp_unpack_DPV`. -/
def ptpUnpackDPV (datatype : UInt16) : Unpack PTPPropertyValue :=
  match dataType datatype with
  | some (.scalar t) => do
    let x ← ctval params data total t
    pure (.scalar x)
  | some .int128 => do
    advance 16
    pure .unset
  | some .uint128 => do
    advance 16
    pure .unset
  | some (.array t) => do
    let v ← rarr params data total t
    pure (.array v)
  | some .str => do
    let (string, len) ← peek fun off => ptpUnpackString params data (UInt16.ofNat off)
    advance (len.toNat * 2 + 1)
    pure (.str string)
  | none => Comp.throw ()

/-! ### Writing -/

/-- `ptp_pack_DPV`. The size is an `uint32_t`: nothing is defined for an array that does not
fit into a block of that size. -/
def ptpPackDPV (value : PTPPropertyValue) (datatype : UInt16) : Option (List UInt8) :=
  match dataType datatype, value with
  | some (.scalar t), .scalar x => some (params.byteorder.encode t.size x.bits)
  | some (.array t), .array v =>
    if 4 + v.length * t.size < 2 ^ 32 then
      some (params.byteorder.encode 4 v.length ++
        v.flatMap fun x => params.byteorder.encode t.size x.bits)
    else none
  | some .str, .str s => ptpGetPackedStringcopy params s
  -- another member of the union than the one written
  | some (.scalar _), _ => none
  | some (.array _), _ => none
  | some .str, _ => none
  | _, _ => some []

/-! ### Descriptions -/

/-- The `FORM` of a description. -/
inductive PTPPropDescForm
  | none
  | range (minimumValue maximumValue stepSize : PTPPropertyValue)
  | enumeration (supportedValue : List PTPPropertyValue)
  deriving DecidableEq

/-- `PTPDevicePropDesc`. -/
structure PTPDevicePropDesc where
  devicePropertyCode : UInt16
  dataType : UInt16
  getSet : UInt8
  factoryDefaultValue : PTPPropertyValue
  currentValue : PTPPropertyValue
  formFlag : UInt8
  form : PTPPropDescForm
  deriving DecidableEq

/-- `PTPObjectPropDesc`. -/
structure PTPObjectPropDesc where
  objectPropertyCode : UInt16
  dataType : UInt16
  getSet : UInt8
  factoryDefaultValue : PTPPropertyValue
  groupCode : UInt32
  formFlag : UInt8
  form : PTPPropDescForm
  deriving DecidableEq

/-- The loop over the values of an enumeration. The HP PhotoSmart 120 specifies an enumeration
with the number in wrong endian, so the values are counted until the end of the packet. -/
def unpackEnumLoop (datatype : UInt16) : Nat → Bool → Unpack (List PTPPropertyValue)
  | 0, _ => pure []
  | n + 1, first => do
    match ← Comp.attempt (ptpUnpackDPV params data total datatype) with
    | .error _ => if first then Comp.throw () else pure []
    | .ok value => do
      let values ← unpackEnumLoop datatype n false
      pure (value :: values)

/-- The switch over the form flag, in `ptp_unpack_DPD` and in `ptp_unpack_OPD`. -/
def unpackForm (datatype : UInt16) (formFlag : UInt8) : Unpack PTPPropDescForm :=
  if formFlag = 0x01 then do
    let minimumValue ← ptpUnpackDPV params data total datatype
    let maximumValue ← ptpUnpackDPV params data total datatype
    let stepSize ← ptpUnpackDPV params data total datatype
    pure (.range minimumValue maximumValue stepSize)
  else if formFlag = 0x02 then do
    let n ← peek (dtoh16ap params data)
    advance 2
    let values ← unpackEnumLoop params data total datatype n.toNat true
    pure (.enumeration values)
  else pure .none

/-- `ptp_unpack_DPD`. -/
def ptpUnpackDPD : Unpack PTPDevicePropDesc := do
  let code ← peek fun _ => dtoh16ap params data 0
  let datatype ← peek fun _ => dtoh16ap params data 2
  let getSet ← peek fun _ => dtoh8a data 4
  Comp.modify fun c => { c with offset := 5 }
  let factory ← ptpUnpackDPV params data total datatype
  let c ← Comp.get
  if datatype = ptpDtcStr ∧ c.offset = total then
    pure ⟨code, datatype, getSet, factory, .unset, 0, .none⟩
  else do
    let current ← ptpUnpackDPV params data total datatype
    let c ← Comp.get
    if c.offset = 5 then pure ⟨code, datatype, getSet, factory, current, 0, .none⟩
    else do
      let formFlag ← peek (dtoh8a data)
      advance 1
      let form ← unpackForm params data total datatype formFlag
      pure ⟨code, datatype, getSet, factory, current, formFlag, form⟩

/-- `ptp_unpack_OPD`. -/
def ptpUnpackOPD : Unpack PTPObjectPropDesc := do
  let code ← peek fun _ => dtoh16ap params data 0
  let datatype ← peek fun _ => dtoh16ap params data 2
  let getSet ← peek fun _ => dtoh8a data 4
  Comp.modify fun c => { c with offset := 5 }
  let factory ← ptpUnpackDPV params data total datatype
  let groupCode ← peek (dtoh32ap params data)
  advance 4
  let formFlag ← peek (dtoh8a data)
  advance 1
  let form ← unpackForm params data total datatype formFlag
  pure ⟨code, datatype, getSet, factory, groupCode, formFlag, form⟩

/-! ## MTP object property lists

`ptp_pack_OPL` and `ptp_unpack_OPL`. The parser moves a pointer and a remaining length `len`
through the list; `ListCursor` also notes whether this `unsigned int` has ever wrapped around.
It does not look at what `ptp_unpack_DPV` returns. At its end it sorts the entries by their
object handle.
-/

/-- `MTPProperties`. -/
structure MTPProperties where
  property : UInt16
  datatype : UInt16
  objectHandle : UInt32
  propval : PTPPropertyValue
  deriving DecidableEq

/-- `_compare_func`: the difference of two `uint32_t`, as an `int`. -/
def compareFunc (px py : MTPProperties) : Int := (px.objectHandle - py.objectHandle).toInt32.toInt

variable (params : PTPParams) (data : List UInt8)

/-! ### Writing -/

/-- `MAX_MTP_PROPS`. -/
def maxMtpProps : Nat := 127

/-- One entry of a list. -/
def packEntry (prop : MTPProperties) : Option (List UInt8) :=
  (ptpPackDPV params prop.propval prop.datatype).map fun packed =>
    htod32ap params prop.objectHandle ++ htod16ap params prop.property ++
      htod16ap params prop.datatype ++ packed

/-- `ptp_pack_OPL`. The size is an `uint32_t`: nothing is defined for a list that does not fit
into a block of that size. -/
def ptpPackOPL (props : List MTPProperties) : Option (List UInt8) :=
  let items := props.take maxMtpProps
  (items.mapM (packEntry params)).bind fun entries =>
    let opldata := htod32ap params (UInt32.ofNat items.length) ++ entries.flatten
    if opldata.length < 2 ^ 32 then some opldata else none

/-! ### Reading -/

/-- The pointer and the remaining length. -/
structure ListCursor where
  pos : Nat
  len : Nat
  wrapped : Bool
  deriving DecidableEq

/-- A parser of a list. It has no error to return. -/
abbrev UnpackList : Type → Type := Comp ListCursor Empty

/-- `data += n; len -= n`. -/
def consume (n : Nat) : UnpackList Unit :=
  Comp.modify fun c =>
    ⟨c.pos + n, (c.len + 2 ^ 32 - n) % 2 ^ 32, c.wrapped || decide (c.len < n)⟩

/-- A read at the pointer. -/
def readData {α : Type} (read : Nat → Option α) : UnpackList α := fun c =>
  (read c.pos).map fun a => (.ok a, c)

/-- `ptp_unpack_DPV` at the pointer: the value, which is only there if the call has not failed,
and the offset that it leaves. -/
def unpackValue (datatype : UInt16) : UnpackList (PTPPropertyValue × Nat) := fun c =>
  (ptpUnpackDPV params (data.drop c.pos) c.len datatype ⟨0, false⟩).map fun (r, d) =>
    (.ok (match r with
      | .ok propval => propval
      | .error () => .unset, d.offset), c)

/-- The body of the loop of `ptp_unpack_OPL`. -/
def unpackEntry : UnpackList MTPProperties := do
  let objectHandle ← readData (dtoh32ap params data)
  consume 4
  let property ← readData (dtoh16ap params data)
  consume 2
  let datatype ← readData (dtoh16ap params data)
  consume 2
  let (propval, offset) ← unpackValue params data datatype
  consume offset
  pure ⟨property, datatype, objectHandle, propval⟩

/-- The loop of `ptp_unpack_OPL`. -/
def unpackEntries : Nat → UnpackList (List MTPProperties)
  | 0 => pure []
  | n + 1 => do
    let c ← Comp.get
    -- a short list
    if c.len = 0 then pure []
    else do
      let prop ← unpackEntry params data
      let props ← unpackEntries n
      pure (prop :: props)

/-- `ptp_unpack_OPL`. -/
def ptpUnpackOPL (qsort : Qsort compareFunc) : UnpackList (List MTPProperties) := do
  let propCount ← readData (dtoh32ap params data)
  if propCount = 0 then pure []
  else do
    consume 4
    let props ← unpackEntries params data propCount.toNat
    pure (qsort.sort props)

end GPhoto2
