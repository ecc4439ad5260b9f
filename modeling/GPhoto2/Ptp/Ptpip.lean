import GPhoto2.Lib.Pieces
import GPhoto2.Ptp.Usb

/-!
# `GPhoto2.Ptp.Ptpip`: PTP over IP

The functions of `ptpip.c` over two sockets. What the camera sends is a stream of pieces for each
socket, what `select` answers for the event socket is a list, and how much a `write` takes is a
stream of results. `wire` has the bytes that went out on the command socket.

A received body is as long as its packet announces. Of the bytes behind a body nothing is known:
`beyond` stands for them, and every read of a body leaves a trace that tells where it was. The
scan for the end of a name that does not end in its body has no defined outcome (`none`), as has
a loop that does not end. Memory is never short, and a blocking `write` takes at least one byte.
The byte order is `PTP_DL_LE`, which `camera_init` sets.
-/

set_option autoImplicit false

namespace GPhoto2.Ptpip

open Lib

def ptpipInitCommandAck : UInt32 := 2
def ptpipCmdResponse : UInt32 := 7
def ptpipEvent : UInt32 := 8
def ptpipStartDataPacket : UInt32 := 9
def ptpipDataPacket : UInt32 := 10
def ptpipEndDataPacket : UInt32 := 12

/-- `WRITE_BLOCKSIZE`. -/
def writeBlocksize : UInt32 := 65536

/-- `PTPIPHeader`. -/
structure PTPIPHeader where
  length : UInt32
  type : UInt32
  deriving DecidableEq

/-- What `select` answers. -/
inductive SelectAnswer
  | ready
  | timeout
  | error
  deriving DecidableEq

/-- The functions that look into a body. -/
inductive Reader
  | getresp
  | event
  | initCommandAck
  | getdata
  deriving DecidableEq

/-- What leaves a trace. -/
inductive Trace
  /-- `len` bytes at `off` of a body of `received` ones are read. -/
  | read (reader : Reader) (off len received : Nat)
  /-- The number of parameters of a packet, an `int`. -/
  | params (reader : Reader) (n : Int)
  deriving DecidableEq

/-- A `PTPDataHandler` whose functions neither get nor take more bytes than they are asked to. -/
structure Handler (τ : Type) extends PTPDataHandler τ where
  getfunc_le : ∀ n priv, (getfunc n priv).1.2.length ≤ n
  putfunc_le : ∀ bytes priv, (putfunc bytes priv).1.2 ≤ bytes.length

/-- A call of `getfunc`. One that fails has set the number of its bytes, too. -/
structure Get where
  wanted : Nat
  result : UInt16
  bytes : List UInt8

/-- `PTPParams`, as far as PTP/IP needs it, both sockets, the private data `τ` of the data
handler, and the trace. -/
structure World (τ : Type) where
  cmd : List (Piece UInt8)
  evt : List (Piece UInt8)
  selects : List SelectAnswer
  /-- A `write` takes one byte more than this number, if it does not fail. -/
  writes : Nat → Option Nat
  nwrites : Nat
  wire : List UInt8
  /-- The pending events. -/
  events : List PTPContainer
  eventpipeid : UInt32
  cameraguid : List UInt8
  cameraname : List UInt16
  priv : τ
  /-- The bytes passed to the handler, and its `getfunc` calls. -/
  handed : List UInt8
  gets : List Get
  beyond : Nat → UInt8
  log : List Trace

/-! ### Reading packets -/

/-- The loops of `ptp_ptpip_generic_read`: the header, and the body that it announces. -/
def genericRead (socket : List (Piece UInt8)) :
    Except UInt16 (PTPIPHeader × List UInt8) × List (Piece UInt8) :=
  match readFull 8 socket with
  | (none, socket) => (.error ptpRcGeneralError, socket)
  | (some xhdr, socket) =>
    let hdr : PTPIPHeader := ⟨dtoh32a xhdr 0, dtoh32a xhdr 4⟩
    -- the length is an int
    let len := (hdr.length - 8).toInt32.toInt
    if len < 0 then (.error ptpRcGeneralError, socket)
    else
      match readFull len.toNat socket with
      | (none, socket) => (.error ptpRcGeneralError, socket)
      | (some data, socket) => (.ok (hdr, data), socket)

/-- `len` bytes at an offset of a body, or what lies behind it. -/
def peek (beyond : Nat → UInt8) (data : List UInt8) (off len : Nat) : List UInt8 :=
  (List.range len).map fun i => (data[off + i]?).getD (beyond (off + i))

/-- `(dtoh32(hdr.length) - sizeof(hdr) - 6) / sizeof(uint32_t)`, an `unsigned long` that becomes
an `int`. -/
def paramCount (hdr : PTPIPHeader) : Int :=
  ((hdr.length.toUInt64 - 8 - 6) / 4).toUInt32.toInt32.toInt

/-- What `ptp_ptpip_getresp` and `ptp_ptpip_event` make of a body: the code, the transaction and
the parameters, if there are at most `limit`. The parameters are read from the last one down. -/
def fillContainer (limit : Nat) (beyond : Nat → UInt8) (hdr : PTPIPHeader) (data : List UInt8)
    (c : PTPContainer) : PTPContainer :=
  let n := paramCount hdr
  let param := fun (k : Nat) (old : UInt32) =>
    if (k : Int) ≤ n ∧ n ≤ limit then dtoh32a (peek beyond data (2 + 4 * k) 4) 0 else old
  { c with
    code := dtoh16a (peek beyond data 0 2) 0
    transactionID := dtoh32a (peek beyond data 2 4) 0
    param1 := param 1 c.param1
    param2 := param 2 c.param2
    param3 := param 3 c.param3
    param4 := param 4 c.param4
    param5 := param 5 c.param5 }

/-- The trace of `fillContainer`. -/
def fillTrace (reader : Reader) (limit : Nat) (hdr : PTPIPHeader) (data : List UInt8) :
    List Trace :=
  let n := paramCount hdr
  .read reader 0 2 data.length :: .read reader 2 4 data.length :: .params reader n ::
    if n ≤ limit then
      (List.range n.toNat).reverse.map fun k => .read reader (6 + 4 * k) 4 data.length
    else []

/-! ### Events -/

/-- The loop of `ptp_ptpip_event`: the next event packet. It ends with the last answer of
`select`, after which nothing comes in time. -/
def eventRead : List SelectAnswer → List (Piece UInt8) →
    Except UInt16 (PTPIPHeader × List UInt8) × List SelectAnswer × List (Piece UInt8)
  | [], evt => (.error ptpErrorTimeout, [], evt)
  | .error :: selects, evt => (.error ptpErrorIo, selects, evt)
  | .timeout :: selects, evt => (.error ptpErrorTimeout, selects, evt)
  | .ready :: selects, evt =>
    match genericRead evt with
    | (.error ret, evt) => (.error ret, selects, evt)
    | (.ok (hdr, data), evt) =>
      if hdr.type = ptpipEvent then (.ok (hdr, data), selects, evt)
      -- TODO: handle cancel transaction and ping/pong
      else eventRead selects evt

variable {τ : Type}

/-- `ptp_ptpip_event`: the return code, and the event of the caller. The two ways to wait differ
in their timeout only. -/
def ptpPtpipEvent (event : PTPContainer) (w : World τ) : (UInt16 × PTPContainer) × World τ :=
  let (result, selects, evt) := eventRead w.selects w.evt
  let w := { w with selects := selects, evt := evt }
  match result with
  | .error ret => ((ret, event), w)
  | .ok (hdr, data) =>
    ((ptpRcOk, fillContainer 3 w.beyond hdr data event),
      { w with log := w.log ++ fillTrace .event 3 hdr data })

/-- `ptp_ptpip_check_event`. Only the code of its event is initialised, and what the packet has
of it; here the other fields are cleared. -/
def checkEvent (w : World τ) : World τ :=
  let ((ret, event), w) := ptpPtpipEvent .zero w
  if ret ≠ ptpRcOk then w
  else if event.code = 0 then w
  else { w with events := w.events ++ [event] }

/-- `ptp_ptpip_cmd_read`. -/
def cmdRead (w : World τ) : Except UInt16 (PTPIPHeader × List UInt8) × World τ :=
  let w := checkEvent w
  let (result, cmd) := genericRead w.cmd
  (result, { w with cmd := cmd })

/-! ### Responses and acknowledgements -/

/-- `ptp_ptpip_getresp`: the return code, and the container of the caller. -/
def ptpPtpipGetresp (resp : PTPContainer) (w : World τ) : (UInt16 × PTPContainer) × World τ :=
  match cmdRead w with
  | (.error ret, w) => ((ret, resp), w)
  | (.ok (hdr, data), w) =>
    ((ptpRcOk, fillContainer 5 w.beyond hdr data resp),
      { w with log := w.log ++ fillTrace .getresp 5 hdr data })

/-- A name in 16-bit characters, up to its terminator. -/
def scanName : List UInt8 → Option (List UInt16)
  | a :: b :: rest =>
    let c := dtoh16a [a, b] 0
    if c = 0 then some [] else (scanName rest).map (c :: ·)
  | _ => none

/-- `ptp_ptpip_init_command_ack`. -/
def ptpPtpipInitCommandAck (w : World τ) : Option (UInt16 × World τ) :=
  let (result, cmd) := genericRead w.cmd
  let w := { w with cmd := cmd }
  match result with
  | .error ret => some (ret, w)
  | .ok (hdr, data) =>
    if hdr.type ≠ ptpipInitCommandAck then some (ptpRcGeneralError, w)
    else (scanName (data.drop 20)).map fun name =>
      (ptpRcOk, { w with
        eventpipeid := dtoh32a (peek w.beyond data 0 4) 0
        cameraguid := peek w.beyond data 4 16
        -- the terminator is not copied
        cameraname := name
        log := w.log ++ (.read .initCommandAck 0 4 data.length ::
          .read .initCommandAck 4 16 data.length ::
          (List.range (name.length + 1)).map fun i =>
            .read .initCommandAck (20 + 2 * i) 2 data.length) })

/-! ### Sending -/

/-- One `write` to the command socket: how many bytes it takes. -/
def write (bytes : List UInt8) (w : World τ) : Option Nat × World τ :=
  match w.writes w.nwrites with
  | none => (none, { w with nwrites := w.nwrites + 1 })
  | some k =>
    let taken := bytes.take (k + 1)
    (some taken.length, { w with nwrites := w.nwrites + 1, wire := w.wire ++ taken })

/-- The loop that writes a packet. Each round takes a byte or more. -/
def writeLoop : Nat → List UInt8 → World τ → Bool × World τ
  | 0, _, w => (true, w)
  | fuel + 1, bytes, w =>
    if bytes = [] then (true, w)
    else
      match write bytes w with
      | (none, w) => (false, w)
      | (some written, w) => writeLoop fuel (bytes.drop written) w

/-- The 12 bytes at the start of a packet with a transaction. -/
def packetHeader (length type transId : UInt32) : List UInt8 :=
  htod32a length ++ htod32a type ++ htod32a transId

/-- The loop of `ptp_ptpip_senddata`. The counter has 32 bits, the size has 64. -/
def senddataLoop (handler : Handler τ) (transId : UInt32) (size : UInt64) :
    Nat → UInt32 → World τ → Option (UInt16 × World τ)
  | 0, _, _ => none
  | fuel + 1, curwrite, w =>
    if curwrite.toUInt64 < size then
      let w := checkEvent w
      let left := (size - curwrite.toUInt64).toUInt32
      let towrite := if writeBlocksize < left then writeBlocksize else left
      let type := if writeBlocksize < left then ptpipDataPacket else ptpipEndDataPacket
      let ((result, bytes), priv) := handler.getfunc towrite.toNat w.priv
      let w := { w with priv := priv, gets := w.gets ++ [⟨towrite.toNat, result, bytes⟩] }
      -- an uint16_t in an int is never -1
      if (result.toNat : Int) = -1 then some (ptpRcGeneralError, w)
      else
        let packet := packetHeader (UInt32.ofNat (bytes.length + 12)) type transId ++ bytes
        match writeLoop packet.length packet w with
        | (false, w) => some (ptpRcGeneralError, w)
        | (true, w) => senddataLoop handler transId size fuel (curwrite + towrite) w
    else some (ptpRcOk, w)

/-- The `START_DATA` packet. -/
def startDataPacket (transId : UInt32) (size : UInt64) : List UInt8 :=
  packetHeader 0x14 ptpipStartDataPacket transId ++ htod32a size.toUInt32 ++ htod32a 0

/-- `ptp_ptpip_senddata`. -/
def ptpPtpipSenddata (fuel : Nat) (ptp : PTPContainer) (size : UInt64) (handler : Handler τ)
    (w : World τ) : Option (UInt16 × World τ) :=
  match write (startDataPacket ptp.transactionID size) w with
  | (none, w) => some (ptpRcGeneralError, w)
  | (some written, w) =>
    if written ≠ 0x14 then some (ptpRcGeneralError, w)
    else senddataLoop handler ptp.transactionID size fuel 0 w

/-! ### Receiving -/

/-- The return code at the end of a data phase. -/
def getdataResult (toread curread : Nat) : UInt16 :=
  if curread < toread then ptpRcGeneralError else ptpRcOk

/-- The loop of `ptp_ptpip_getdata`. `DATA` and `END_DATA` packets are handled alike, and packets
of any other type are passed over. -/
def getdataLoop (handler : Handler τ) (toread : Nat) :
    Nat → Nat → World τ → Option (UInt16 × World τ)
  | 0, _, _ => none
  | fuel + 1, curread, w =>
    if curread < toread then
      match cmdRead w with
      | (.error ret, w) => some (ret, w)
      | (.ok (hdr, xdata), w) =>
        if hdr.type = ptpipEndDataPacket ∨ hdr.type = ptpipDataPacket then
          let datalen := (hdr.length - 8 - 4).toNat
          -- returned data is too much
          if toread - curread < datalen then some (getdataResult toread curread, w)
          else
            let payload := peek w.beyond xdata 4 datalen
            let ((result, written), priv) := handler.putfunc payload w.priv
            let w := { w with
              priv := priv
              handed := w.handed ++ payload
              log := w.log ++ [.read .getdata 4 datalen xdata.length] }
            if (result.toNat : Int) = -1 then some (getdataResult toread curread, w)
            else getdataLoop handler toread fuel (curread + written) w
        else getdataLoop handler toread fuel curread w
    else some (getdataResult toread curread, w)

/-- `ptp_ptpip_getdata`. Each round of the loop takes a packet of at least eight bytes. -/
def ptpPtpipGetdata (handler : Handler τ) (w : World τ) : Option (UInt16 × World τ) :=
  match cmdRead w with
  | (.error ret, w) => some (ret, w)
  | (.ok (hdr, xdata), w) =>
    if hdr.type = ptpipCmdResponse then
      -- the code of an unexpected response is printed
      some (ptpRcGeneralError, { w with log := w.log ++ [.read .getdata 8 4 xdata.length] })
    else if hdr.type ≠ ptpipStartDataPacket then some (ptpRcGeneralError, w)
    else
      let toread := dtoh32a (peek w.beyond xdata 4 4) 0
      getdataLoop handler toread.toNat ((arriving w.cmd).length + 1) 0
        { w with log := w.log ++ [.read .getdata 4 4 xdata.length] }

end GPhoto2.Ptpip
