import GPhoto2.CString
import Mathlib.Algebra.Group.Int.Defs

/-!
# `GPhoto2.Ptp.Types`: the data types of the PTP driver

Response codes, handles and the objects of `ptp.h`. The two handles that are not handles of
an object are `PTP_HANDLER_ROOT`, the parent of the objects at the top of a storage, and
`PTP_HANDLER_SPECIAL`, which stands for the top of a storage on the wire, for "all", and for
"not found" inside the driver.
-/

set_option autoImplicit false

namespace GPhoto2

/-! ### Response codes -/

def ptpRcOk : UInt16 := 0x2001
def ptpRcGeneralError : UInt16 := 0x2002
def ptpErrorTimeout : UInt16 := 0x02FA
def ptpErrorCancel : UInt16 := 0x02FB
def ptpErrorBadParam : UInt16 := 0x02FC
def ptpErrorRespExpected : UInt16 := 0x02FD
def ptpErrorDataExpected : UInt16 := 0x02FE
def ptpErrorIo : UInt16 := 0x02FF

/-! ### Handles and vendors -/

def ptpVendorNikon : UInt32 := 0x0000000A
def ptpVendorCanon : UInt32 := 0x0000000B

/-! ### Containers -/

/-- `PTPContainer`: a request, a response or an event, whatever the transport. -/
structure PTPContainer where
  code : UInt16
  sessionID : UInt32
  transactionID : UInt32
  param1 : UInt32
  param2 : UInt32
  param3 : UInt32
  param4 : UInt32
  param5 : UInt32
  nparam : UInt8
  deriving DecidableEq

/-- A container cleared by `memset`. -/
def PTPContainer.zero : PTPContainer := ⟨0, 0, 0, 0, 0, 0, 0, 0, 0⟩

def ptpUsbContainerCommand : UInt16 := 0x0001
def ptpUsbContainerData : UInt16 := 0x0002
def ptpUsbContainerResponse : UInt16 := 0x0003
def ptpUsbContainerEvent : UInt16 := 0x0004

/-! ### Objects -/

/-- `PTPObjectInfo`. -/
structure PTPObjectInfo where
  storageID : UInt32
  objectFormat : UInt16
  protectionStatus : UInt16
  objectCompressedSize : UInt64
  thumbFormat : UInt16
  thumbCompressedSize : UInt32
  thumbPixWidth : UInt32
  thumbPixHeight : UInt32
  imagePixWidth : UInt32
  imagePixHeight : UInt32
  imageBitDepth : UInt32
  parentObject : UInt32
  associationType : UInt16
  associationDesc : UInt32
  sequenceNumber : UInt32
  filename : Option CString
  captureDate : Int
  modificationDate : Int
  keywords : Option CString
  deriving DecidableEq

/-- An `PTPObjectInfo` cleared by `memset`. -/
def PTPObjectInfo.zero : PTPObjectInfo where
  storageID := 0
  objectFormat := 0
  protectionStatus := 0
  objectCompressedSize := 0
  thumbFormat := 0
  thumbCompressedSize := 0
  thumbPixWidth := 0
  thumbPixHeight := 0
  imagePixWidth := 0
  imagePixHeight := 0
  imageBitDepth := 0
  parentObject := 0
  associationType := 0
  associationDesc := 0
  sequenceNumber := 0
  filename := none
  captureDate := 0
  modificationDate := 0
  keywords := none

/-- The `PTPOBJECT_*_LOADED` bits of an object. -/
structure PTPObjectFlags where
  objectInfoLoaded : Bool
  mtpPropListLoaded : Bool
  directoryLoaded : Bool
  parentObjectLoaded : Bool
  storageIdLoaded : Bool
  deriving DecidableEq

/-- No bit is set. -/
def PTPObjectFlags.zero : PTPObjectFlags := ⟨false, false, false, false, false⟩

/-- `PTPObject`. -/
structure PTPObject where
  oid : UInt32
  flags : PTPObjectFlags
  oi : PTPObjectInfo
  canonFlags : UInt32
  deriving DecidableEq

/-- An object cleared by `memset`, but for its handle. -/
def PTPObject.new (oid : UInt32) : PTPObject where
  oid := oid
  flags := .zero
  oi := .zero
  canonFlags := 0

/-! ## Numbers in byte strings

`dtoh16a`, `dtoh32a` and their inverses for `PTP_DL_LE`, the byte order `camera_init` sets.
A read past the end gives zeros, as in a buffer that was cleared before it was filled. Where
the source reads from a block of exactly the bytes received, the reader checks the length.
-/

/-- `dtoh16a(&data[off])`. -/
def dtoh16a (data : List UInt8) (off : Nat) : UInt16 :=
  UInt16.ofNat ((data.getD off 0).toNat + 2 ^ 8 * (data.getD (off + 1) 0).toNat)

/-- `dtoh32a(&data[off])`. -/
def dtoh32a (data : List UInt8) (off : Nat) : UInt32 :=
  UInt32.ofNat ((data.getD off 0).toNat + 2 ^ 8 * (data.getD (off + 1) 0).toNat +
    2 ^ 16 * (data.getD (off + 2) 0).toNat + 2 ^ 24 * (data.getD (off + 3) 0).toNat)

/-- `htod16a`. -/
def htod16a (x : UInt16) : List UInt8 := [UInt8.ofNat x.toNat, UInt8.ofNat (x.toNat / 2 ^ 8)]

/-- `htod32a`. -/
def htod32a (x : UInt32) : List UInt8 :=
  [UInt8.ofNat x.toNat, UInt8.ofNat (x.toNat / 2 ^ 8), UInt8.ofNat (x.toNat / 2 ^ 16),
    UInt8.ofNat (x.toNat / 2 ^ 24)]

example : dtoh32a [0, 1, 2, 3, 4] 1 = 0x04030201 := by decide

example : htod32a 0x04030201 = [1, 2, 3, 4] := by decide

theorem toUInt16_bytes (x : UInt16) :
    UInt16.ofNat ((UInt8.ofNat x.toNat).toNat + 2 ^ 8 * (UInt8.ofNat (x.toNat / 2 ^ 8)).toNat) =
      x := by
  have hx := x.toNat_lt
  rw [← UInt16.toNat_inj, UInt16.toNat_ofNat']
  simp only [UInt8.toNat_ofNat']
  omega

theorem toUInt32_bytes (x : UInt32) :
    UInt32.ofNat ((UInt8.ofNat x.toNat).toNat + 2 ^ 8 * (UInt8.ofNat (x.toNat / 2 ^ 8)).toNat +
      2 ^ 16 * (UInt8.ofNat (x.toNat / 2 ^ 16)).toNat +
      2 ^ 24 * (UInt8.ofNat (x.toNat / 2 ^ 24)).toNat) = x := by
  have hx := x.toNat_lt
  rw [← UInt32.toNat_inj, UInt32.toNat_ofNat']
  simp only [UInt8.toNat_ofNat']
  omega

end GPhoto2
