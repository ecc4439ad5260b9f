import GPhoto2.Lib.Comp
import GPhoto2.Ptp.Types
import GPhoto2.Result

/-!
# `GPhoto2.Ptp.Usb`: PTP over USB

The functions of `usb.c` over a port. What the device sends is a list of answers, each of them
bytes or a negative result of `gp_port_read`; a read takes at most the bytes it asks for, and
the rest of an answer is left for the next read. How many bytes `gp_port_write` takes is a
stream of results, one for each call. The bytes that went out are kept in `wire`.

A `PTPUSBBulkContainer` is the bytes received into it, with the rest of its 1024 bytes
cleared. `none` is a call without a defined outcome: a copy from beyond the container, or a
loop that does not end within the given rounds. Every copy of received bytes and every
subtraction of lengths leaves a trace, with the numbers that tell whether it was safe, and so
does every packet `ptp_usb_getresp` gets.
-/

set_option autoImplicit false

namespace GPhoto2

open Lib

/-- An answer of the port to a read. -/
inductive PortAnswer
  | data (bytes : List UInt8)
  | error (result : Int)
  deriving DecidableEq

/-- What leaves a trace. -/
inductive UsbEvent
  /-- `len` received bytes are passed on, of `received`, into room for `room`. -/
  | copy (len received room : Nat)
  /-- `b` is subtracted from `a`. -/
  | sub (a b : Nat)
  /-- `ptp_usb_getresp` got a packet. -/
  | response (packet : List UInt8)
  deriving DecidableEq

/-- `PTPParams`, as far as USB needs it, the port, the private data `τ` of the data handler,
and the trace. -/
structure UsbWorld (τ : Type) where
  transactionID : UInt32
  sessionID : UInt32
  splitHeaderData : Bool
  /-- `DEVICE_FLAG_IGNORE_HEADER_ERRORS`. -/
  ignoreHeaderErrors : Bool
  maxpacketsize : Nat
  /-- `camera_init` sets 64 where the port does not know. -/
  maxpacketsize_pos : 0 < maxpacketsize
  responsePacket : List UInt8
  responsePacketSize : Nat
  /-- The bulk endpoint, the interrupt endpoint, and the answers of `gp_context_cancel`. -/
  reads : List PortAnswer
  interrupts : List PortAnswer
  cancels : List Bool
  /-- The results of `gp_port_write`, the number of calls so far, and the bytes sent. -/
  writes : Nat → Int
  nwrites : Nat
  wire : List UInt8
  /-- The result of the class request that cancels a transaction. -/
  cancelResult : Int
  priv : τ
  /-- The bytes passed to the handler. -/
  handed : List UInt8
  log : List UsbEvent

/-- A session before its first transaction, with nothing to read and a port that takes every
write. -/
def UsbWorld.start {τ : Type} (priv : τ) : UsbWorld τ where
  transactionID := 0
  sessionID := 0
  splitHeaderData := false
  ignoreHeaderErrors := false
  maxpacketsize := 64
  maxpacketsize_pos := by decide
  responsePacket := []
  responsePacketSize := 0
  reads := []
  interrupts := []
  cancels := []
  writes := fun _ => 2 ^ 31 - 1
  nwrites := 0
  wire := []
  cancelResult := 0
  priv := priv
  handed := []
  log := []

/-- A function of `usb.c`. The error is the `PTP_RC_*` or `PTP_ERROR_*` code it returns. -/
abbrev Usb (τ α : Type) : Type := Comp (UsbWorld τ) UInt16 α

/-- `PTPDataHandler`. `getfunc` answers its result and the bytes it got, `putfunc` its result
and the number of bytes it took. -/
structure PTPDataHandler (τ : Type) where
  getfunc : Nat → τ → (UInt16 × List UInt8) × τ
  putfunc : List UInt8 → τ → (UInt16 × Nat) × τ

variable {τ : Type}

/-! ### The port -/

def ptpUsbBulkHdrLen : Nat := 12
def ptpUsbBulkPayloadLenWrite : Nat := 1012
def ptpUsbBulkHsMaxPacketLenRead : Nat := 512
def ptpUsbBulkReqLen : Nat := 32

/-- `sizeof(PTPUSBBulkContainer)`. -/
def sizeofBulkContainer : Nat := 1024

/-- `sizeof(PTPUSBEventContainer)`. -/
def sizeofEventContainer : Nat := 24

/-- `READLEN`. -/
def readLen : Nat := 64 * 1024

/-- Take at most `n` bytes from the answers of an endpoint. After the last answer there is
none in time. -/
def takeAnswer (n : Nat) : List PortAnswer → Except Int (List UInt8) × List PortAnswer
  | [] => (.error gpErrorTimeout, [])
  | .error result :: rest => (.error result, rest)
  | .data bytes :: rest =>
    if bytes.length ≤ n then (.ok bytes, rest)
    else (.ok (bytes.take n), .data (bytes.drop n) :: rest)

/-- `gp_port_read`: the bytes read, or the negative result. -/
def gpPortRead (n : Nat) : Usb τ (Except Int (List UInt8)) := do
  let w ← Comp.get
  let (answer, rest) := takeAnswer n w.reads
  Comp.modify fun w => { w with reads := rest }
  pure answer

/-- `gp_port_check_int`. -/
def gpPortCheckInt (n : Nat) : Usb τ (Except Int (List UInt8)) := do
  let w ← Comp.get
  let (answer, rest) := takeAnswer n w.interrupts
  Comp.modify fun w => { w with interrupts := rest }
  pure answer

/-- `gp_port_write`: the number of bytes taken, or the negative result. -/
def gpPortWrite (bytes : List UInt8) : Usb τ Int := do
  let w ← Comp.get
  let result := w.writes w.nwrites
  if result < 0 then do
    Comp.modify fun w => { w with nwrites := w.nwrites + 1 }
    pure result
  else do
    let taken := bytes.take result.toNat
    Comp.modify fun w => { w with nwrites := w.nwrites + 1, wire := w.wire ++ taken }
    pure taken.length

/-! ### Lengths and copies -/

/-- Leave a trace. -/
def traceUsb (e : UsbEvent) : Usb τ Unit := Comp.modify fun w => { w with log := w.log ++ [e] }

/-- The difference of two `unsigned long`, as the machine computes it. -/
def lenSub (a b : Nat) : Usb τ Nat := do
  traceUsb (.sub a b)
  pure (if b ≤ a then a - b else a + 2 ^ 64 - b)

/-- `len` bytes of a container, from the offset `off` on, to somewhere with `room` bytes. Beyond
the container nothing is defined. -/
def copyOut (packet : List UInt8) (off len room : Nat) : Usb τ (List UInt8) := do
  traceUsb (.copy len (packet.length - off) room)
  if off + len ≤ sizeofBulkContainer ∧ len ≤ room then
    pure (((packet ++ List.replicate (sizeofBulkContainer - packet.length) 0).drop off).take len)
  else Comp.stuck

/-- Pass bytes to the handler. -/
def putfunc (handler : PTPDataHandler τ) (bytes : List UInt8) : Usb τ (UInt16 × Nat) := do
  let w ← Comp.get
  let (answer, priv) := handler.putfunc bytes w.priv
  Comp.modify fun w => { w with priv := priv, handed := w.handed ++ bytes }
  pure answer

/-- Get at most `n` bytes from the handler. -/
def getfunc (handler : PTPDataHandler τ) (n : Nat) : Usb τ (UInt16 × List UInt8) := do
  let w ← Comp.get
  let (answer, priv) := handler.getfunc n w.priv
  Comp.modify fun w => { w with priv := priv }
  pure answer

/-- A return code at the end of a data phase: any error but a cancellation is an I/O error. -/
def ioUnlessCancel (ret : UInt16) : Usb τ Unit :=
  if ret = ptpRcOk then pure ()
  else if ret = ptpErrorCancel then Comp.throw ret
  else Comp.throw ptpErrorIo

/-! ### Sending -/

/-- The 12 bytes at the start of a container. -/
def containerHeader (length : UInt32) (type code : UInt16) (transId : UInt32) : List UInt8 :=
  htod32a length ++ htod16a type ++ htod16a code ++ htod32a transId

variable (length : UInt32) (type code : UInt16) (transId : UInt32)

@[simp] theorem length_containerHeader
     : (containerHeader length type code transId).length = 12 := rfl

theorem containerHeader_fields (rest : List UInt8) :
    dtoh32a (containerHeader length type code transId ++ rest) 0 = length ∧
    dtoh16a (containerHeader length type code transId ++ rest) 4 = type ∧
    dtoh16a (containerHeader length type code transId ++ rest) 6 = code ∧
    dtoh32a (containerHeader length type code transId ++ rest) 8 = transId :=
  ⟨toUInt32_bytes length, toUInt16_bytes type, toUInt16_bytes code, toUInt32_bytes transId⟩

/-- `ptp_usb_sendreq`. -/
def ptpUsbSendreq (req : PTPContainer) : Usb τ Unit := do
  let towrite := ptpUsbBulkReqLen - 4 * (5 - req.nparam.toNat)
  let usbreq := containerHeader (UInt32.ofNat towrite) ptpUsbContainerCommand req.code
    req.transactionID ++ htod32a req.param1 ++ htod32a req.param2 ++ htod32a req.param3 ++
    htod32a req.param4 ++ htod32a req.param5
  let res ← gpPortWrite (usbreq.take towrite)
  if res ≠ towrite then Comp.throw ptpErrorIo

/-- The loop of `ptp_usb_senddata`, in at most `fuel` rounds: its return code and the bytes
it has written. -/
def senddataLoop (handler : PTPDataHandler τ) : Nat → Nat → Nat → Usb τ (UInt16 × Nat)
  | 0, _, _ => Comp.stuck
  | fuel + 1, bytesLeft, written =>
    if bytesLeft = 0 then pure (ptpRcOk, written)
    else do
      let toread := min 4096 bytesLeft
      let (ret, bytes) ← getfunc handler toread
      if ret ≠ ptpRcOk then pure (ret, written)
      else do
        let res ← gpPortWrite bytes
        if res < 0 then pure (ptpErrorIo, written)
        else senddataLoop handler fuel (bytesLeft - res.toNat) (written + res.toNat)

/-- The end of `ptp_usb_senddata`, with the return code so far. -/
def senddataFinalize (ret : UInt16) (written : Nat) : Usb τ Unit := do
  let w ← Comp.get
  if ret = ptpRcOk ∧ written % w.maxpacketsize = 0 then do
    let _ ← gpPortWrite []
    ioUnlessCancel ret
  else ioUnlessCancel ret

/-- The payload in the first packet of `ptp_usb_senddata`. -/
def senddataFirst (size : Nat) (handler : PTPDataHandler τ) : Usb τ (List UInt8) := do
  let w ← Comp.get
  if w.splitHeaderData then pure []
  else do
    let datawlen := min size ptpUsbBulkPayloadLenWrite
    let (ret, data) ← getfunc handler datawlen
    if ret ≠ ptpRcOk then Comp.throw ret
    else if data.length ≠ datawlen then Comp.throw ptpRcGeneralError
    else pure data

/-- `ptp_usb_senddata`, with at most `fuel` rounds of its loop. -/
def ptpUsbSenddata (fuel : Nat) (ptp : PTPContainer) (size : Nat) (handler : PTPDataHandler τ) :
    Usb τ Unit := do
  let data ← senddataFirst size handler
  let usbdata := containerHeader (UInt32.ofNat (ptpUsbBulkHdrLen + size)) ptpUsbContainerData
    ptp.code ptp.transactionID ++ data
  let res ← gpPortWrite usbdata
  if res ≠ usbdata.length then Comp.throw ptpErrorIo
  -- nothing more to do
  else if size ≤ data.length then senddataFinalize ptpRcOk usbdata.length
  else do
    let (ret, written) ← senddataLoop handler fuel (size - data.length) 0
    senddataFinalize ret written

/-! ### Receiving -/

/-- One attempt of `ptp_usb_getpacket` to read the port. -/
def getpacketOnce : Usb τ (Except Int (List UInt8)) := do
  match ← gpPortRead sizeofBulkContainer with
  -- This might be a left over zero-write of the device.
  | .ok [] => gpPortRead sizeofBulkContainer
  | result => pure result

/-- What `ptp_usb_getpacket` makes of its last read. -/
def packetRead : Except Int (List UInt8) → Usb τ (List UInt8)
  | .ok (b :: bytes) => pure (b :: bytes)
  | .ok [] => Comp.throw ptpErrorIo
  | .error _ => Comp.throw ptpErrorIo

/-- The part of `ptp_usb_getpacket` that reads the port, with one retry. -/
def getpacketRead : Usb τ (List UInt8) := do
  let result ← getpacketOnce
  if result = .error gpErrorIoRead then do
    let result ← getpacketOnce
    packetRead result
  else packetRead result

/-- `ptp_usb_getpacket`: the bytes of a packet, a buffered one first. -/
def ptpUsbGetpacket : Usb τ (List UInt8) := do
  let w ← Comp.get
  if 0 < w.responsePacketSize then do
    let packet := w.responsePacket.take w.responsePacketSize
    traceUsb (.copy w.responsePacketSize w.responsePacket.length sizeofBulkContainer)
    if sizeofBulkContainer < w.responsePacketSize then Comp.stuck
    else do
      Comp.modify fun w => { w with responsePacket := [], responsePacketSize := 0 }
      pure packet
  else getpacketRead

/-- Keep `len` bytes of a container, from the offset `off` on, in `response_packet`. -/
def saveResponse (packet : List UInt8) (off len : Nat) : Usb τ Unit := do
  let bytes ← copyOut packet off len len
  Comp.modify fun w => { w with responsePacket := bytes, responsePacketSize := len % 2 ^ 16 }

/-- Pass the payload of the first packet to the handler. What it says is not looked at. -/
def putPayload (handler : PTPDataHandler τ) (packet : List UInt8) (rlen : Nat) : Usb τ Unit := do
  let len ← lenSub rlen ptpUsbBulkHdrLen
  let data ← copyOut packet ptpUsbBulkHdrLen len len
  let _ ← putfunc handler data

/-- The reads of `ptp_usb_getdata` for a length that is not known, up to a short one. -/
def getdataUnknown (handler : PTPDataHandler τ) : Nat → Usb τ Unit
  | 0 => Comp.stuck
  | fuel + 1 => do
    match ← gpPortRead ptpUsbBulkHsMaxPacketLenRead with
    | .error _ => Comp.throw ptpErrorIo
    | .ok data => do
      let _ ← putfunc handler data
      if data.length < ptpUsbBulkHsMaxPacketLenRead then pure ()
      else getdataUnknown handler fuel

/-- How many bytes `ptp_usb_getdata` asks for: large blobs, and all but the last short packet
of the rest. -/
def bytesToRead (maxpacketsize left : Nat) : Nat :=
  if readLen < left then readLen
  else if maxpacketsize < left then left - left % maxpacketsize
  else left

/-- The loop of `ptp_usb_getdata`: its return code, the number of bytes read and the last
result of `gp_port_read`. -/
def getdataLoop (handler : PTPDataHandler τ) :
    Nat → Nat → Nat → Int → Usb τ (UInt16 × Nat × Int)
  | 0, _, _, _ => Comp.stuck
  | fuel + 1, left, curread, res =>
    if left = 0 then pure (ptpRcOk, curread, res)
    else do
      let w ← Comp.get
      match ← gpPortRead (bytesToRead w.maxpacketsize left) with
      | .error e => pure (ptpErrorIo, curread, e)
      | .ok [] => pure (ptpErrorIo, curread, 0)
      | .ok data => do
        let (ret, written) ← putfunc handler data
        if ret ≠ ptpRcOk then pure (ret, curread, data.length)
        else if written ≠ data.length then pure (ptpErrorIo, curread, data.length)
        else do
          let w ← Comp.get
          Comp.modify fun w => { w with cancels := w.cancels.tail }
          if w.cancels.headD false then
            pure (ptpErrorCancel, curread + data.length, data.length)
          else getdataLoop handler fuel (left - data.length) (curread + data.length) data.length

/-- The rest of `ptp_usb_getdata` for a known length, with one retry. -/
def getdataRest (handler : PTPDataHandler τ) (fuel left : Nat) : Usb τ Unit := do
  let (ret, curread, res) ← getdataLoop handler fuel left 0 0
  -- retrying only makes sense if we did not read anything yet
  if res = gpErrorIoRead ∧ curread = 0 then do
    let (ret, _, _) ← getdataLoop handler fuel left 0 0
    ioUnlessCancel ret
  else ioUnlessCancel ret

/-- Buffer the surplus response packet, else discard it as erroneous surplus data. -/
def bufferSurplus (packet : List UInt8) (packlen : Nat) : Usb τ Unit :=
  if packlen < packet.length then do
    let surplen ← lenSub packet.length packlen
    if ptpUsbBulkHdrLen ≤ surplen then saveResponse packet packlen surplen
    else pure ()
  else pure ()

/-- Autodetect split header/data MTP devices. -/
def detectSplit (packlen rlen : Nat) : Usb τ Unit :=
  if 12 < packlen ∧ rlen = 12 then Comp.modify fun w => { w with splitHeaderData := true }
  else pure ()

/-- `ptp_usb_getdata` after the first packet of a DATA container of a known length. -/
def getdataKnown (fuel : Nat) (packet : List UInt8) (handler : PTPDataHandler τ) :
    Usb τ Unit := do
  let packlen := (dtoh32a packet 0).toNat
  let rlen := min packet.length packlen
  bufferSurplus packet packlen
  let len ← lenSub packlen ptpUsbBulkHdrLen
  detectSplit packlen rlen
  putPayload handler packet rlen
  -- Is that all of data?
  if packlen ≤ rlen then pure ()
  else do
    let done ← lenSub rlen ptpUsbBulkHdrLen
    let left ← lenSub len done
    getdataRest handler fuel left

/-- `ptp_usb_getdata`, with at most `fuel` rounds of each of its loops. -/
def ptpUsbGetdata (fuel : Nat) (ptp : PTPContainer) (handler : PTPDataHandler τ) :
    Usb τ Unit := do
  let packet ← ptpUsbGetpacket
  let w ← Comp.get
  if dtoh16a packet 4 ≠ ptpUsbContainerData then
    -- We might have got a response instead. On error for instance.
    if dtoh16a packet 4 = ptpUsbContainerResponse then
      saveResponse packet 0 (dtoh32a packet 0).toNat
    else Comp.throw ptpErrorDataExpected
  else if dtoh16a packet 6 ≠ ptp.code ∧ ¬ w.ignoreHeaderErrors then Comp.throw ptpErrorIo
  else if dtoh32a packet 0 = 0xffffffff then do
    putPayload handler packet packet.length
    getdataUnknown handler fuel
  else getdataKnown fuel packet handler

/-- `ptp_usb_getresp`. -/
def ptpUsbGetresp (resp : PTPContainer) : Usb τ PTPContainer := do
  let packet ← ptpUsbGetpacket
  traceUsb (.response packet)
  let w ← Comp.get
  if dtoh16a packet 4 ≠ ptpUsbContainerResponse then Comp.throw ptpErrorRespExpected
  else if dtoh16a packet 6 ≠ resp.code ∧ dtoh16a packet 6 ≠ ptpRcOk then
    Comp.throw (dtoh16a packet 6)
  else do
    let transactionID :=
      if dtoh32a packet 8 ≠ w.transactionID - 1 ∧ w.ignoreHeaderErrors then w.transactionID - 1
      else dtoh32a packet 8
    let params ← lenSub packet.length 12
    pure {
      code := dtoh16a packet 6
      sessionID := w.sessionID
      transactionID := transactionID
      nparam := UInt8.ofNat (params / 4)
      param1 := dtoh32a packet 12
      param2 := dtoh32a packet 16
      param3 := dtoh32a packet 20
      param4 := dtoh32a packet 24
      param5 := dtoh32a packet 28 }

/-! ### Events -/

/-- The first read of `ptp_usb_event`, and a second one if it gets nothing. The two ways to wait
differ in the timeout only. -/
def eventRead : Usb τ (Except Int (List UInt8)) := do
  match ← gpPortCheckInt sizeofEventContainer with
  | .ok (b :: bytes) => pure (.ok (b :: bytes))
  | _ => gpPortCheckInt sizeofEventContainer

/-- The additional reads of `ptp_usb_event`. -/
def eventReadMore : Nat → List UInt8 → Usb τ (List UInt8)
  | 0, usbevent => pure usbevent
  | fuel + 1, usbevent =>
    if usbevent.length < (dtoh32a usbevent 0).toNat then do
      let room ← lenSub sizeofEventContainer usbevent.length
      match ← gpPortCheckInt room with
      | .ok (b :: bytes) => eventReadMore fuel (usbevent ++ b :: bytes)
      | _ => pure usbevent
    else pure usbevent

/-- Only do the additional reads for events. Each of them takes a byte at least, so there is no
need for more of them than the container has. -/
def eventReadRest (usbevent : List UInt8) : Usb τ (List UInt8) :=
  if dtoh16a usbevent 4 = ptpUsbContainerEvent then eventReadMore sizeofEventContainer usbevent
  else pure usbevent

/-- `ptp_usb_event`. -/
def ptpUsbEvent : Usb τ PTPContainer := do
  match ← eventRead with
  | .error e => if e = gpErrorTimeout then Comp.throw ptpErrorTimeout else Comp.throw ptpErrorIo
  | .ok [] => Comp.throw ptpErrorTimeout
  | .ok (b :: bytes) =>
    if (b :: bytes).length < 8 then Comp.throw ptpErrorIo
    else do
      let usbevent ← eventReadRest (b :: bytes)
      let params ← lenSub usbevent.length 12
      let w ← Comp.get
      pure { PTPContainer.zero with
        nparam := UInt8.ofNat (params / 4)
        code := dtoh16a usbevent 6
        sessionID := w.sessionID
        transactionID := dtoh32a usbevent 8
        param1 := dtoh32a usbevent 12
        param2 := dtoh32a usbevent 16
        param3 := dtoh32a usbevent 20 }

end GPhoto2
