import GPhoto2.Canon.Serial
import GPhoto2.Lib.Endian
import GPhoto2.Lib.Outcome
import GPhoto2.Result

/-!
# `GPhoto2.Canon.RecvMsg`: messages from the Canon serial line

`canon_serial_recv_msg` of `serial.c`, which puts a message together from the packets of
`canon_serial_recv_packet`. The message is kept in a block that the calls share, and that grows.

That a packet with a wrong length makes the camera send the message again is noted in
`receive_error`, which the calls share as well. The acknowledgements that are sent are noted here;
sending them cannot fail.
-/

set_option autoImplicit false

namespace GPhoto2.Canon

open Lib

/-- `camera->pl->receive_error`. -/
inductive ReceiveError
  | noError
  | errorReceived
  | errorAddressed
  | fatalError
  | errorLowbatt
  deriving DecidableEq

/-- A packet: a pointer to `data`, which go to the end of the frame. -/
structure Packet where
  type : UInt8
  seq : UInt8
  len : Nat
  data : List UInt8
  deriving DecidableEq

/-- What `canon_serial_recv_msg` works on. -/
structure Receiver where
  receiveError : ReceiveError
  seqRx : UInt8
  /-- What has been written to the block `msg`, if there is one. -/
  msg : Option (List UInt8)
  /-- The size of the block, half of it before the first allocation. -/
  msgSize : Nat
  line : List (Option UInt8)
  /-- The acknowledgements that were sent: their types and sequence numbers. -/
  acks : List (UInt8 × UInt8)
  deriving DecidableEq

/-- How a call ends without a message. -/
inductive Failure
  /-- It returns `NULL`. -/
  | null
  /-- The program ends. -/
  | exited
  /-- It copies a fragment beyond the block. -/
  | overrun
  deriving DecidableEq

/-- `MSG_HDR_LEN`. -/
def msgHdrLen : Nat := 16

/-- The bytes of a fragment. -/
def Packet.fragment (x : Packet) : List UInt8 := x.data.take x.len

/-- The length that the header of a message announces, at `MSG_LEN_LSB` and `MSG_LEN_MSB`. -/
def Packet.announced (x : Packet) : Nat := (pktWord x.data 8 9).toNat

/-- The header of a message is well formed: its length and `MSG_02`. -/
def Packet.isMessage (x : Packet) : Bool := decide (msgHdrLen ≤ x.len) && x.data.getD 0 0 == 2

/-- It is the header of the message that is expected: `MSG_MTYPE` and `MSG_DIR`. -/
def Packet.isExpected (mtype dir : UInt8) (x : Packet) : Bool :=
  x.data.getD 4 0 == mtype && x.data.getD 7 0 == dir

/-- The message says that the battery is exhausted. -/
def Packet.isLowbatt (x : Packet) : Bool :=
  x.data.getD 4 0 == 1 && x.data.getD 7 0 == 0 && (x.data.drop 12).take 4 != [0x30, 0, 0, 0x30]

/-- `canon_serial_recv_packet`. -/
def recvPkt : Comp Receiver Failure Packet := fun s =>
  match recvPacket s.line with
  | (.null errorReceived, line) =>
    some (.error .null, { s with
      line := line
      receiveError := if errorReceived then .errorReceived else s.receiveError })
  | (.exited, line) => some (.error .exited, { s with line := line })
  | (.packet type seq len data, line) =>
    some (.ok { type := type, seq := seq, len := len, data := data }, { s with line := line })

/-- `canon_serial_send_packet` of an acknowledgement. -/
def sendAck (type seq : UInt8) : Comp Receiver Failure Unit :=
  Comp.modify fun s => { s with acks := s.acks ++ [(type, seq)] }

/-- The first loop of `canon_serial_recv_msg`, which waits for a message. -/
def firstMsg : Nat → Comp Receiver Failure Packet
  | 0 => Comp.stuck
  | fuel + 1 => do
    let x ← recvPkt
    if x.type = pktMsg then
      pure x
    else if x.type = pktEot then do
      sendAck pktAck (x.data.getD 0 0)
      firstMsg fuel
    else
      firstMsg fuel

/-- The checks on the first packet of a message. -/
def checkHeader (mtype dir : UInt8) (x : Packet) : Comp Receiver Failure Unit :=
  if x.isMessage = false then
    Comp.throw .null
  else if x.isExpected mtype dir = false then
    if x.isLowbatt then do
      Comp.modify fun s => { s with receiveError := .errorLowbatt }
      Comp.throw .null
    else
      Comp.throw .null
  else
    pure ()

/-- A fragment is copied to the end of what there is of the message, unless there was an error. What
is then the position. -/
def keepFragment (announced pos : Nat) (frag : List UInt8) : Comp Receiver Failure Nat := fun s =>
  if s.receiveError ≠ .noError then
    some (.ok pos, s)
  else if pos + frag.length > announced then
    some (.error .null, s)
  else
    -- the block is doubled once, whatever the fragment needs
    let size := if pos + frag.length > s.msgSize ∨ s.msg = none then 2 * s.msgSize else s.msgSize
    let old := s.msg.getD []
    if pos + frag.length > size then
      some (.error .overrun, { s with msgSize := size, msg := some old })
    else
      some (.ok (pos + frag.length), { s with
        msgSize := size
        msg := some (old.take pos ++ frag ++ old.drop (pos + frag.length)) })

/-- The end of `canon_serial_recv_msg`, at the end of a transmission. -/
def finish (pos : Nat) : Comp Receiver Failure (List UInt8) := fun s =>
  if s.receiveError = .noError ∨ s.receiveError = .errorAddressed then
    let s' := { s with
      receiveError := .noError
      seqRx := s.seqRx + 1
      acks := s.acks ++ [(pktAck, s.seqRx)] }
    match s.msg with
    | none => some (.error .null, s')
    | some msg => some (.ok (msg.take pos), s')
  else
    some (.error .null, s)

/-- The second loop of `canon_serial_recv_msg`. -/
def receiveRest (mtype dir : UInt8) :
    Nat → Nat → Nat → List UInt8 → Comp Receiver Failure (List UInt8)
  | 0, _, _, _ => Comp.stuck
  | fuel + 1, announced, pos, frag => do
    let pos ← keepFragment announced pos frag
    let x ← recvPkt
    let s ← Comp.get
    if x.type = pktEot then
      if s.receiveError = .errorReceived then do
        Comp.modify fun s => { s with seqRx := x.seq, receiveError := .errorAddressed }
        sendAck pktNack x.seq
        receiveRest mtype dir fuel announced pos x.fragment
      else if x.seq = s.seqRx then
        finish pos
      else
        Comp.throw .null
    else if x.type ≠ pktMsg then
      if s.receiveError = .noError then
        Comp.throw .null
      else
        receiveRest mtype dir fuel announced pos x.fragment
    else if s.receiveError = .errorAddressed then do
      checkHeader mtype dir x
      Comp.modify fun s => { s with receiveError := .noError }
      receiveRest mtype dir fuel x.announced 0 (x.fragment.drop msgHdrLen)
    else
      receiveRest mtype dir fuel announced pos x.fragment

/-- `canon_serial_recv_msg`: the message. -/
def recvMsg (mtype dir : UInt8) : Comp Receiver Failure (List UInt8) := do
  let s ← Comp.get
  let x ← firstMsg (s.line.length + 1)
  let s ← Comp.get
  if s.receiveError = .noError then do
    checkHeader mtype dir x
    receiveRest mtype dir (s.line.length + 1) x.announced 0 (x.fragment.drop msgHdrLen)
  else
    receiveRest mtype dir (s.line.length + 1) 0 0 x.fragment

/-! ## Sending a file over the Canon serial line

`canon_serial_put_file`, and `canon_serial_send_msg` as it works during an upload, of `serial.c`.
What the camera answers comes from lists: the results of `canon_serial_wait_for_ack`, and what
becomes of a try of `canon_serial_dialogue` behind them. Where a list has come to its end all goes
well. The packets at the end of a transmission are sent whatever the message is, and are left out.

A computation is stuck where it leaves a buffer or the data of the file, and where the program ends
for want of a checksum. The header in front of the second fragment goes in front of its buffer; that
this changes nothing else is taken for granted.
-/

/-- `MAX_TRIES`. -/
def maxTries : Nat := 10

/-- `UPLOAD_DATA_BLOCK`. -/
def uploadDataBlock : Nat := 900

/-- `DATA_BLOCK`. -/
def dataBlock : Nat := 1536

/-- `MAX_PKT_PAYLOAD + 2`, the size of the two buffers of `canon_serial_send_msg`. -/
def messageBufferSize : Nat := 65537

/-- The size of `filename` in `canon_serial_put_file`. -/
def filenameSize : Nat := 64

/-- The numbers that an `int` holds. -/
def intMax : Nat := 2147483647

/-- What has gone over the line for a message. -/
structure Transmission where
  message : List UInt8
  fragments : List (List UInt8)
  deriving DecidableEq

/-- What becomes of a try of `canon_serial_dialogue` behind its message. -/
inductive Reply
  | message
  | null
  | again
  deriving DecidableEq

/-- What an upload works on. -/
structure Upload where
  /-- The messages, one for each call of `canon_serial_dialogue`. -/
  messages : List (List UInt8)
  transmissions : List Transmission
  /-- The results of `canon_serial_wait_for_ack`. -/
  acks : List Int
  replies : List Reply
  deriving DecidableEq

/-- The message that `canon_serial_send_msg` composes. -/
def composeMsg (mtype dir : UInt8) (args : List (List UInt8)) : List UInt8 :=
  let total := msgHdrLen + args.flatten.length
  [2, 0, 0, 0, mtype, 0, 0, dir, UInt8.ofNat total, UInt8.ofNat (total / 256), 0, 0, 0, 0, 0, 0] ++
    args.flatten

/-- A fragment: what of it gets on the line. The result of `canon_serial_send_packet` is not looked
at. -/
def sendFragment (seq : UInt8) (pkt : List UInt8) (len : Nat) :
    Comp Upload Int (List (List UInt8)) :=
  match sendPacket pktMsg seq pkt len with
  | none => Comp.stuck
  | some .overrun => Comp.stuck
  | some (.returned result _) => pure (if result = 1 then [pkt.take len] else [])

/-- The two fragments of a message. -/
def transmit (pkt : List UInt8) : Comp Upload Int Unit := do
  let first ← sendFragment 0 pkt uploadDataBlock
  let second ← sendFragment 1 (pkt.drop uploadDataBlock) (pkt.length - uploadDataBlock)
  Comp.modify fun s =>
    { s with
      transmissions := s.transmissions ++ [{ message := pkt, fragments := first ++ second }] }

/-- `canon_serial_wait_for_ack`. -/
def waitForAck : Comp Upload Int Int := fun s =>
  some (.ok (s.acks.headD 1), { s with acks := s.acks.tail })

/-- The tries of `canon_serial_send_msg`. -/
def sendTries (pkt : List UInt8) : Nat → Comp Upload Int Int
  | 0 => pure (-1)
  | n + 1 => do
    transmit pkt
    let goodAck ← waitForAck
    if goodAck = 1 then pure goodAck else sendTries pkt n

/-- `canon_serial_send_msg` during an upload. -/
def sendMsg (pkt : List UInt8) : Comp Upload Int Int :=
  if pktHdrLen + pkt.length > messageBufferSize then
    Comp.stuck
  else if pkt.length < uploadDataBlock then
    -- the length of the second fragment is negative
    Comp.stuck
  else
    sendTries pkt maxTries

/-- What comes behind a message in `canon_serial_dialogue`. -/
def nextReply : Comp Upload Int Reply := fun s =>
  some (.ok (s.replies.headD .message), { s with replies := s.replies.tail })

/-- The tries of `canon_serial_dialogue`: whether it returns a message. -/
def dialogueTries (pkt : List UInt8) : Nat → Comp Upload Int Bool
  | 0 => pure false
  | n + 1 => do
    let okay ← sendMsg pkt
    if okay = 0 then
      pure false
    else do
      let reply ← nextReply
      match reply with
      | .message => pure true
      | .null => pure false
      | .again => dialogueTries pkt n

/-- `canon_serial_dialogue` during an upload. -/
def dialogue (mtype dir : UInt8) (args : List (List UInt8)) : Comp Upload Int Bool := do
  Comp.modify fun s => { s with messages := s.messages ++ [composeMsg mtype dir args] }
  dialogueTries (composeMsg mtype dir args) (maxTries - 1)

/-- The arguments of `canon_serial_dialogue` for a block of a file. -/
def blockArgs (destpath destname : List UInt8) (offset : Nat) (block : List UInt8) :
    List (List UInt8) :=
  [[2, 0, 0, 0], ByteOrder.little.encode 4 offset, ByteOrder.little.encode 4 block.length,
    destpath, destname ++ [0], block]

/-- The rounds of `canon_serial_put_file`. Each of them reads a whole block from `j` on. -/
def putBlocks (destpath destname data : List UInt8) : Nat → Nat → Nat → Comp Upload Int Unit
  | 0, _, _ => Comp.stuck
  | fuel + 1, sent, j =>
    if sent < data.length then
      let blockLen :=
        if data.length < dataBlock then data.length
        else if data.length - sent < dataBlock then data.length - sent
        else dataBlock
      if j + dataBlock > data.length ∨ j + dataBlock > intMax then
        Comp.stuck
      else do
        let msg ← dialogue 0x3 0x11
          (blockArgs destpath destname sent (((data.drop j).take dataBlock).take blockLen))
        if msg = false then
          Comp.throw gpError
        else
          putBlocks destpath destname data fuel ((sent + blockLen) % 4294967296) (j + dataBlock)
    else
      pure ()

/-- `canon_serial_put_file`. -/
def putFile (name destname destpath data : List UInt8) : Comp Upload Int Unit :=
  if name.length + 1 > filenameSize then
    Comp.stuck
  else
    putBlocks destpath destname data (data.length + 1) 0 0

end GPhoto2.Canon
