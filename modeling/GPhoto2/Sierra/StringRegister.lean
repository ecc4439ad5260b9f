import GPhoto2.Sierra.Folder
import GPhoto2.Sierra.Packet

/-!
# `GPhoto2.Sierra.StringRegister`: reading a string register of the Sierra cameras

`sierra_get_string_register` of `library.c`. All packets are read into one buffer, on top of the
request and of each other.

What else the function does may fail as well: setting the number of the picture, writing packets,
and appending to the file. Each of these steps takes its outcome from a list. What
`sierra_check_connection` reads before a packet is written belongs to the step, so the answers of
the port are those to `sierra_read_packet`. The progress of the download is not modelled.
-/

set_option autoImplicit false

namespace GPhoto2.Sierra

open Lib

/-- `sizeof (p)`. -/
def packetBufferSize : Nat := 34816

/-- The arguments of a call, with the local buffer as the call finds it. -/
structure Call where
  port : PortType
  /-- `SIERRA_EXT_PROTO`. -/
  extProto : Bool
  /-- `camera->pl->first_packet`, on a serial port. -/
  firstPacket : Bool
  reg : UInt8
  fnumber : Int
  /-- There is a `CameraFile`. -/
  file : Bool
  p : List UInt8
  p_length : p.length = packetBufferSize

/-- What the calls work on. -/
structure Driver where
  /-- `in_function`. -/
  inFunction : Bool
  /-- The answers to the reads of packets. -/
  answers : List Answer
  /-- What becomes of the next steps: they succeed, or fail with an error. -/
  steps : List (Option Int)
  deriving DecidableEq

/-- A step that may fail. -/
def step : Comp Driver Int Unit := fun driver =>
  match driver.steps with
  | [] => some (.ok (), driver)
  | none :: steps => some (.ok (), { driver with steps := steps })
  | some e :: steps => some (.error e, { driver with steps := steps })

/-- A step that is only taken under a condition. -/
def stepIf (c : Bool) : Comp Driver Int Unit := if c then step else pure ()

/-- `sierra_read_packet` into the buffer: its result, and the buffer after it. -/
def receive (port : PortType) (p : List UInt8) :
    Comp Driver Int (Except Int Unit × List UInt8) := fun driver =>
  match readPacket port retriesMax 0 { p := p, answers := driver.answers } with
  | none => none
  | some (result, s) => some (.ok (result, s.p), { driver with answers := s.answers })

/-- The request in the buffer, as `sierra_build_packet` and `sierra_write_packet` leave it. -/
def request (call : Call) : List UInt8 :=
  let code : UInt8 := if call.extProto then 0x06 else 0x04
  let subtype : UInt8 := if call.firstPacket then 0x53 else 0x43
  let checksum := code.toNat + call.reg.toNat
  putAt call.p 0 [packetCommand, subtype, 2, 0, code, call.reg,
    UInt8.ofNat checksum, UInt8.ofNat (checksum / 256)]

/-- The data field of the packet in the buffer, whatever packet that is. -/
def dataField (p : List UInt8) : List UInt8 := (p.drop 4).take (wordAt p 2)

/-- `in_function = 0`. -/
def leave : Comp Driver Int Unit := Comp.modify fun driver => { driver with inFunction := false }

/-- The loop of `sierra_get_string_register`, with the data so far. `continue` goes on to the
condition of the loop. -/
def receiveData (call : Call) : Nat → Nat → List UInt8 → List UInt8 → Comp Driver Int (List UInt8)
  | 0, _, _, _ => Comp.stuck
  | fuel + 1, retries, p, b => do
    let received ← receive call.port p
    match received with
    | (.error e, p) =>
      if e ≠ gpErrorTimeout then
        Comp.throw e
      else if retries + 1 > retriesMax then do
        leave
        Comp.throw e
      else do
        step
        if p.getD 0 0 = packetDataEnd then pure b else receiveData call fuel (retries + 1) p b
    | (.ok (), p) =>
      if p.getD 0 0 = packetInvalid then do
        leave
        Comp.throw gpError
      else do
        step
        if 4 + wordAt p 2 > p.length then
          Comp.stuck
        else do
          stepIf call.file
          let b := b ++ dataField p
          if p.getD 0 0 = packetDataEnd then pure b else receiveData call fuel retries p b

/-- What `sierra_get_string_register` does behind its guard: the data. -/
def transfer (call : Call) : Comp Driver Int (List UInt8) := do
  Comp.modify fun driver => { driver with inFunction := true }
  stepIf (call.fnumber ≥ 0)
  step
  let driver ← Comp.get
  let b ← receiveData call (driver.answers.length + 1) 0 (request call) []
  leave
  pure b

/-- `sierra_get_string_register`. -/
def getStringRegister (call : Call) : Comp Driver Int (List UInt8) := do
  let driver ← Comp.get
  if driver.inFunction then Comp.throw gpError else transfer call

end GPhoto2.Sierra

/-! ## Writing a string register of the Sierra cameras

`sierra_build_packet` and `sierra_set_string_register` of `library.c`. A packet is here what these
functions put into the local buffer: the four bytes of the header and the data field
(`GPhoto2.Sierra.Folder` has the transfer of a name with packets that are not bytes yet). What
`sierra_transmit_ack` does with it is a parameter: it writes the packet with its checksum, as often
as the camera asks for it (the first command over a serial port with another subtype), and returns
when the camera has acknowledged it or with an error. The progress of the transfer is not modelled.
-/

namespace GPhoto2.Sierra.Wire

open Lib

/-- `SUBSIERRA_PACKET_COMMAND`. -/
def subsierraPacketCommand : UInt8 := 0x43

/-- `sierra_build_packet`: the header. It is only called with the types of long packets. -/
def buildPacket (type subtype : UInt8) (dataLength : Nat) : List UInt8 :=
  [type, if type = packetCommand then subsierraPacketCommand else subtype,
    UInt8.ofNat dataLength, UInt8.ofNat (dataLength / 256)]

variable {S : Type}

/-- The loop of `sierra_set_string_register`, with `x` bytes sent. -/
def setLoop (transmitAck : List UInt8 → Comp S Int PUnit) (reg : UInt8) (s : List UInt8) :
    Nat → Nat → Nat → Comp S Int PUnit
  | 0, _, _ => Comp.stuck
  | fuel + 1, x, seq =>
    if x < s.length then
      if x = 0 then do
        let size :=
          if s.length + 2 - x > maxDataFieldLength then maxDataFieldLength else s.length + 2
        transmitAck (buildPacket packetCommand (UInt8.ofNat seq) size ++ [0x03, reg] ++
          (s.drop x).take (size - 2))
        setLoop transmitAck reg s fuel (x + (size - 2)) seq
      else do
        let size := if s.length - x > maxDataFieldLength then maxDataFieldLength else s.length - x
        let type := if x + size < s.length then packetData else packetDataEnd
        transmitAck (buildPacket type (UInt8.ofNat seq) size ++ (s.drop x).take size)
        setLoop transmitAck reg s fuel (x + size) (seq + 1)
    else
      pure ()

/-- `sierra_set_string_register`. Each round sends a byte at least, so its loop has at most one
round more than the string has bytes. -/
def setStringRegister (transmitAck : List UInt8 → Comp S Int PUnit) (reg : UInt8)
    (s : List UInt8) : Comp S Int PUnit :=
  setLoop transmitAck reg s (s.length + 1) 0 0

end GPhoto2.Sierra.Wire
