import GPhoto2.File.CameraFile
import GPhoto2.Ptp.EventQueue

/-!
# `GPhoto2.Ptp.ReadFile`: a part of an object

`read_file_func` of the PTP driver reads a part of an object with `GetPartialObject`. The request
takes 32-bit numbers, the function 64-bit ones.

What the path leads to, and what the camera answers, is given. The buffer of the caller is the
list of the bytes copied to its start.
-/

set_option autoImplicit false

namespace GPhoto2

def ptpOcGetPartialObject : UInt16 := 0x101B
def ptpOcCanonSetObjectArchive : UInt16 := 0x9002
def ptpOfcAssociation : UInt16 := 0x3001
def ptpOfcMtpAbstractAudioVideoPlaylist : UInt16 := 0xba05
def ptpVendorMicrosoft : UInt32 := 0x00000006
def ptpRcOperationNotSupported : UInt16 := 0x2005
def ptpRcParameterNotSupported : UInt16 := 0x2006
def ptpRcDeviceBusy : UInt16 := 0x2019
def ptpErrorBadparam : UInt16 := 0x02FC

/-- `translate_ptp_result` of a code other than `PTP_RC_OK`. -/
def translatePtpResult (result : UInt16) : Int :=
  if result = ptpRcParameterNotSupported then gpErrorBadParameters
  else if result = ptpRcOperationNotSupported then gpErrorNotSupported
  else if result = ptpRcDeviceBusy then gpErrorCameraBusy
  else if result = ptpErrorTimeout then gpErrorTimeout
  else if result = ptpErrorCancel then gpErrorCancel
  else if result = ptpErrorBadparam then gpErrorBadParameters
  else gpError

/-- An object in the camera, and what the driver knows of it. -/
structure StoredObject where
  ob : PTPObject
  bytes : List UInt8
  size_eq : ob.oi.objectCompressedSize.toNat = bytes.length

/-- A camera with its objects. -/
structure ObjectReader where
  vendorExtensionID : UInt32
  operationsSupported : List UInt16
  /-- `folder_to_storage`, `find_folder_handle` and `find_child`: the object, or the error. -/
  find : (folder filename : CString) → Except Int StoredObject
  /-- The return code of the transaction, and the data that came with it. -/
  getPartialObject : (handle offset maxbytes : UInt32) → UInt16 × List UInt8

/-- What a read leaves behind. -/
structure PartialRead where
  buf : List UInt8
  size64 : UInt64
  canonFlags : UInt32

variable (camera : ObjectReader)

/-- `ptp_operation_issupported`. -/
def ObjectReader.supports (operation : UInt16) : Bool :=
  camera.operationsSupported.contains operation

/-- `is_mtp_capable`. -/
def ObjectReader.isMtpCapable : Bool := camera.vendorExtensionID = ptpVendorMicrosoft

/-- The flags after a read: the "new" flag is cleared on Canons. -/
def ObjectReader.archivedFlags (canonFlags : UInt32) : UInt32 :=
  if camera.vendorExtensionID = ptpVendorCanon ∧ canonFlags &&& 0x20 ≠ 0 ∧
    camera.supports ptpOcCanonSetObjectArchive
  then canonFlags &&& ~~~0x20 else canonFlags

/-- The part of `read_file_func` before the transfer: the object to read from. -/
def readFileCheck (folder filename : CString) (type : CameraFileType)
    (offset64 size64 : UInt64) : Except Int StoredObject := do
  if offset64 + size64 > 0xffffffff then throw gpErrorBadParameters
  if folder = "/special".toList then throw gpErrorBadParameters
  if !camera.supports ptpOcGetPartialObject then throw gpErrorNotSupported
  let object ← camera.find folder filename
  if type ≠ .normal then throw gpErrorNotSupported
  if object.ob.oi.objectFormat = ptpOfcAssociation then throw gpErrorNotSupported
  if camera.isMtpCapable ∧ object.ob.oi.objectFormat = ptpOfcMtpAbstractAudioVideoPlaylist then
    throw gpErrorNotSupported
  if object.ob.oi.objectCompressedSize.toUInt32 = 0 then throw gpErrorNotSupported
  return object

/-- The size that is requested. -/
def clippedSize (offset size xsize : UInt32) : UInt32 :=
  if size + offset > xsize then xsize - offset else size

/-- `ptp_getpartialobject`, and what `read_file_func` does with the data. -/
def readFileTransfer (object : StoredObject) (offset size : UInt32) : Except Int PartialRead :=
  let xsize := object.ob.oi.objectCompressedSize.toUInt32
  let (ret, xdata) :=
    camera.getPartialObject object.ob.oid offset (clippedSize offset size xsize)
  if ret = ptpErrorCancel then .error gpErrorCancel
  else if ret ≠ ptpRcOk then .error (translatePtpResult ret)
  else
    -- The transaction gives the length as an `unsigned int`.
    let size := UInt32.ofNat xdata.length
    .ok ⟨xdata.take size.toNat, size.toUInt64, camera.archivedFlags object.ob.canonFlags⟩

/-- `read_file_func`. -/
def readFileFunc (folder filename : CString) (type : CameraFileType)
    (offset64 size64 : UInt64) : Except Int PartialRead := do
  let object ← readFileCheck camera folder filename type offset64 size64
  readFileTransfer camera object offset64.toUInt32 size64.toUInt32

end GPhoto2
