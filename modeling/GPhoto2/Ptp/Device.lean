import GPhoto2.Lib.Comp
import GPhoto2.Ptp.EventQueue
import GPhoto2.Ptp.ObjectCache

/-!
# `GPhoto2.Ptp.Device`: a session with a camera

The driver talks to a camera in requests. Here each request is one step that a device
answers (`PTPDevice.respond`): the transaction below it is `GPhoto2.Ptp.Transaction`. The
device has a state of its own, which a request may change, and any request may fail.

`PTPWorld` is what a session changes: the cached objects, the pending events, the device, and
the log of the requests made so far with their answers. A function of `ptp.c` is a `Ptp`
computation, whose errors are the return codes other than `PTP_RC_OK`.
-/

set_option autoImplicit false

namespace GPhoto2

open Lib

/-! ### Requests -/

/-- A return code that is not `PTP_RC_OK`. -/
def PTPFailure : Type := { code : UInt16 // code ≠ ptpRcOk }

instance : DecidableEq PTPFailure := fun a b => decidable_of_iff (a.1 = b.1) Subtype.ext_iff.symm

def PTPFailure.generalError : PTPFailure := ⟨ptpRcGeneralError, by decide⟩
/-- `PTPCANONFolderEntry`. -/
structure PTPCANONFolderEntry where
  objectHandle : UInt32
  objectFormatCode : UInt16
  flags : UInt8
  objectSize : UInt32
  time : Int
  filename : CString
  deriving DecidableEq

/-- `MTPProperties`, with the value as each member of its union reads it. `time` is what
`ptp_unpack_PTPTIME` makes of the string. -/
structure MTPPropertyView where
  property : UInt16
  isUint64 : Bool
  isUint32 : Bool
  objectHandle : UInt32
  u16 : UInt16
  u32 : UInt32
  u64 : UInt64
  str : Option CString
  time : Int
  deriving DecidableEq

/-- A request to the camera, with its parameters. -/
inductive PTPRequest
  | getStorageIDs
  | getObjectHandles (storage objectFormatCode associationOH : UInt32)
  | getObjectInfo (handle : UInt32)
  | deleteObject (handle objectFormatCode : UInt32)
  | sendObjectInfo (store parentHandle : UInt32) (objectInfo : PTPObjectInfo)
  | sendObject (data : List UInt8)
  | ekSendFileObjectInfo (store parentHandle : UInt32) (objectInfo : PTPObjectInfo)
  | ekSendFileObject (data : List UInt8)
  | canonGetObjectInfoEx (store p2 parent handle : UInt32)
  | canonEosGetObjectInfoEx (storageId oid unk : UInt32)
  | mtpGetObjPropList (handle : UInt32)
  | mtpSetObjectReferences (handle : UInt32) (oids : List UInt32)
  /-- The requests of `ptp_mtp_parse_metadata`. -/
  | mtpParseMetadata (handle : UInt32) (objectFormat : UInt16) (data : List UInt8)
  deriving DecidableEq

/-- What a request answers when it succeeds. -/
@[reducible]
def PTPRequest.Answer : PTPRequest → Type
  | .getStorageIDs => List UInt32
  | .getObjectHandles .. => List UInt32
  | .getObjectInfo _ => PTPObjectInfo
  | .deleteObject .. => Unit
  -- the storage, the parent and the handle of the new object
  | .sendObjectInfo .. => UInt32 × UInt32 × UInt32
  | .sendObject _ => Unit
  | .ekSendFileObjectInfo .. => UInt32 × UInt32 × UInt32
  | .ekSendFileObject _ => Unit
  | .canonGetObjectInfoEx .. => List PTPCANONFolderEntry
  | .canonEosGetObjectInfoEx .. => List PTPCANONFolderEntry
  | .mtpGetObjPropList _ => List MTPPropertyView
  | .mtpSetObjectReferences .. => Unit
  | .mtpParseMetadata .. => Unit

/-- A request and what came of it. -/
structure Exchange where
  request : PTPRequest
  answer : Except PTPFailure request.Answer

/-- The request succeeded. -/
def Exchange.Succeeds (x : Exchange) : Prop := ∃ a, x.answer = .ok a

/-- A camera: what it says of itself in `params->deviceinfo`, the flags the driver knows for
its model in `params->device_flags`, and how it answers. -/
structure PTPDevice (δ : Type) where
  vendorExtensionID : UInt32
  operationsSupported : List UInt16
  eventsSupported : List UInt16
  deviceFlags : UInt32
  respond : (request : PTPRequest) → δ → Except PTPFailure request.Answer × δ
  /-- What `ptp_check_event` gets to see. -/
  events : δ → CheckInput × δ

/-- The state of a session. -/
structure PTPWorld (δ : Type) where
  objects : List PTPObject
  events : EventQueue
  device : δ
  log : List Exchange

/-- A function of the driver that answers a return code. -/
abbrev Ptp (δ : Type) : Type → Type := Comp (PTPWorld δ) PTPFailure

variable {δ : Type} (dev : PTPDevice δ)

def ptpOcCanonGetObjectInfoEx : UInt16 := 0x9021
def ptpOcMtpGetObjPropList : UInt16 := 0x9805
def deviceFlagBrokenMtpGetObjPropList : UInt32 := 0x00000004
def deviceFlagProplistOverridesOi : UInt32 := 0x40000000

/-- `ptp_operation_issupported`. -/
def PTPDevice.operationSupported (operation : UInt16) : Bool :=
  dev.operationsSupported.contains operation

/-- A bit of `params->device_flags` is set. -/
def PTPDevice.flag (bit : UInt32) : Bool := dev.deviceFlags &&& bit != 0

/-- Make a request, and log it. -/
def PTPDevice.request (r : PTPRequest) : Ptp δ r.Answer := fun w =>
  let (answer, device) := dev.respond r w.device
  some (answer, { w with device := device, log := w.log ++ [⟨r, answer⟩] })

/-! ### The functions of `ptp.c` that make one request -/

/-- Change the array of objects. -/
def modifyObjects (g : List PTPObject → List PTPObject) : Ptp δ Unit :=
  Comp.modify fun w => { w with objects := g w.objects }

end GPhoto2
