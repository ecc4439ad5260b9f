import GPhoto2.Lib.Outcome
import GPhoto2.Result
import Mathlib.Algebra.GroupWithZero.Nat

/-!
# `GPhoto2.Sierra.Packet`: reading a packet of the Sierra cameras

`sierra_read_packet` of `library.c`. What comes from the port is the list of the answers to its
reads: bytes, or an error. The packet is read into the buffer of the caller, and what a short packet
does not reach of it stays as it was.

The `NAK`s that it writes are not modelled, since it goes on whether they succeed or not.
-/

set_option autoImplicit false

namespace GPhoto2.Sierra

open Lib

def nul : UInt8 := 0x00

/-- `SIERRA_PACKET_DATA`. -/
def packetData : UInt8 := 0x02

/-- `SIERRA_PACKET_DATA_END`. -/
def packetDataEnd : UInt8 := 0x03

/-- `SIERRA_PACKET_ENQ`. -/
def packetEnq : UInt8 := 0x05

def ack : UInt8 := 0x06

/-- `SIERRA_PACKET_INVALID`. -/
def packetInvalid : UInt8 := 0x11

/-- `SIERRA_PACKET_NAK`. -/
def packetNak : UInt8 := 0x15

/-- `SIERRA_PACKET_COMMAND`. -/
def packetCommand : UInt8 := 0x1b

/-- `SIERRA_PACKET_WRONG_SPEED`. -/
def packetWrongSpeed : UInt8 := 0x8c

/-- `SIERRA_PACKET_SESSION_ERROR`. -/
def packetSessionError : UInt8 := 0xfc

/-- `SIERRA_PACKET_SESSION_END`. -/
def packetSessionEnd : UInt8 := 0xff

/-- The packets of one byte. -/
def isSingle (c : UInt8) : Bool :=
  c == nul || c == packetEnq || c == ack || c == packetInvalid || c == packetNak ||
    c == packetSessionError || c == packetSessionEnd || c == packetWrongSpeed

/-- The packets of several bytes. -/
def isLong (c : UInt8) : Bool := c == packetData || c == packetDataEnd || c == packetCommand

/-- `RETRIES`. -/
def retriesMax : Nat := 10

/-- The kinds of port, with the number of bytes that the first read asks for. -/
inductive PortType
  | usb
  | serial
  deriving DecidableEq

def PortType.blocksize : PortType → Nat
  | usb => 32774
  | serial => 1

/-- The answer to a read. -/
abbrev Answer := Except Int (List UInt8)

/-- What a read of a packet works on. -/
structure Reader where
  p : List UInt8
  answers : List Answer

/-- `bytes` in a buffer, from `at` on. -/
def putAt (p : List UInt8) (offset : Nat) (bytes : List UInt8) : List UInt8 :=
  p.take offset ++ bytes ++ p.drop (offset + bytes.length)

/-- `gp_port_read` of `n` bytes into the buffer: the number of bytes that came. It is stuck where
they leave the buffer. -/
def readInto (offset n : Nat) : Comp Reader Int Nat := fun s =>
  match s.answers with
  | [] => some (.error gpErrorIoRead, s)
  | .error e :: answers => some (.error e, { s with answers := answers })
  | .ok bytes :: answers =>
    if offset + (bytes.take n).length > s.p.length then
      none
    else
      some (.ok (bytes.take n).length, { p := putAt s.p offset (bytes.take n), answers := answers })

/-- `while (gp_port_read (camera->port, packet, 1) > 0)`. -/
def drain : Nat → Comp Reader Int Unit
  | 0 => Comp.stuck
  | fuel + 1 => do
    let result ← Comp.attempt (readInto 0 1)
    match result with
    | .error _ => pure ()
    | .ok 0 => pure ()
    | .ok (_ + 1) => drain fuel

/-- The rest of the header, where the first read has got `br` bytes. -/
def readHead (br : Nat) : Comp Reader Int Nat :=
  if br < 4 then do
    let n ← readInto br (4 - br)
    pure (br + n)
  else
    pure br

/-- The loop that reads up to the end of the packet: how many bytes there are then. A timeout ends
it, other errors are returned. -/
def readRest (length : Nat) : Nat → Nat → Comp Reader Int Nat
  | 0, _ => Comp.stuck
  | fuel + 1, br =>
    if br < length then do
      let result ← Comp.attempt (readInto br (length - br))
      match result with
      | .error e => if e = gpErrorTimeout then pure br else Comp.throw e
      | .ok n => readRest length fuel (br + n)
    else
      pure br

/-- The number in the bytes `i` and `i + 1`. -/
def wordAt (p : List UInt8) (i : Nat) : Nat := (p.getD i 0).toNat + 256 * (p.getD (i + 1) 0).toNat

/-- The checksum over a packet of `br` bytes. -/
def checksumOf (p : List UInt8) (br : Nat) : Nat :=
  (((p.drop 4).take (br - 6)).map UInt8.toNat).sum % 65536

/-- The checksum is right, or one of those that some cameras always send. -/
def checksumAccepted (p : List UInt8) (br : Nat) : Bool :=
  wordAt p (br - 2) == checksumOf p br || wordAt p (br - 2) == 65535 || wordAt p (br - 2) == 0

/-- `sierra_read_packet`, with the number of failures so far. -/
def readPacket (port : PortType) : Nat → Nat → Comp Reader Int Unit
  | 0, _ => Comp.stuck
  | fuel + 1, r => do
    let result ← Comp.attempt (readInto 0 port.blocksize)
    match result with
    | .error e => if r + 1 > 2 then Comp.throw e else readPacket port fuel (r + 1)
    | .ok 0 => if r + 1 > 2 then Comp.throw gpErrorIoRead else readPacket port fuel (r + 1)
    | .ok br => do
      let s ← Comp.get
      let first := s.p.getD 0 0
      if isSingle first then
        pure ()
      else if isLong first = false then do
        drain (s.answers.length + 1)
        Comp.throw gpErrorCorruptedData
      else do
        let br ← readHead br
        let s ← Comp.get
        let length := wordAt s.p 2 + 6
        let br ← readRest length (s.answers.length + 1) br
        let s ← Comp.get
        if br = length ∧ checksumAccepted s.p br then
          pure ()
        else if r + 2 ≥ retriesMax then
          Comp.throw (if br = length then gpErrorCorruptedData else gpErrorTimeout)
        else
          readPacket port fuel (r + 1)

end GPhoto2.Sierra

/-! ## Reading a packet from a port that answers for ever

`sierra_read_packet` of `library.c` once more. `GPhoto2.Sierra.Packet` has it over a list of
answers, after which every read fails. Here the answers of the port go on for ever, so that a loop
that does not end shows: it gets stuck with any count. A try is the part of the loop up to its two
`continue`s and its end.
-/

namespace GPhoto2.Sierra.Endless

open Lib

/-- The packet of the caller, and the number of answers that have been used. What has been received
since the try began is noted beside them: nothing depends on it. -/
structure Reader where
  p : List UInt8
  used : Nat
  received : List UInt8

variable (answers : Nat → Answer)

/-- `gp_port_read` of `n` bytes into the packet: the number of bytes that came. It is stuck where
they leave the packet. -/
def readInto (offset n : Nat) : Comp Reader Int Nat := fun s =>
  match answers s.used with
  | .error e => some (.error e, { s with used := s.used + 1 })
  | .ok bytes =>
    if offset + (bytes.take n).length > s.p.length then
      none
    else
      some (.ok (bytes.take n).length,
        { p := putAt s.p offset (bytes.take n), used := s.used + 1,
          received := s.received ++ bytes.take n })

/-- `while (gp_port_read (camera->port, packet, 1) > 0)`. -/
def drain : Nat → Comp Reader Int Unit
  | 0 => Comp.stuck
  | count + 1 => do
    let result ← Comp.attempt (readInto answers 0 1)
    match result with
    | .error _ => pure ()
    | .ok 0 => pure ()
    | .ok (_ + 1) => drain count

/-- The rest of the header, where the first read has got `br` bytes. -/
def readHead (br : Nat) : Comp Reader Int Nat :=
  if br < 4 then do
    let n ← readInto answers br (4 - br)
    pure (br + n)
  else
    pure br

/-- The loop that reads up to the end of the packet: how many bytes there are then. -/
def readRest (length : Nat) : Nat → Nat → Comp Reader Int Nat
  | 0, _ => Comp.stuck
  | count + 1, br =>
    if br < length then do
      let result ← Comp.attempt (readInto answers br (length - br))
      match result with
      | .error e => if e = gpErrorTimeout then pure br else Comp.throw e
      | .ok n => readRest length count (br + n)
    else
      pure br

/-- What becomes of a try that returns no error. -/
inductive Verdict
  /-- `GP_OK`. -/
  | done
  /-- Nothing was read. -/
  | unread (e : Int)
  /-- The packet is not complete, or its checksum is wrong. -/
  | broken (e : Int)

/-- The part of a try behind the header, of which there are `br` bytes. -/
def readBody (count br : Nat) : Comp Reader Int Verdict := do
  let s ← Comp.get
  let length := wordAt s.p 2 + 6
  let br ← readRest answers length count br
  let s ← Comp.get
  if br = length ∧ checksumAccepted s.p br then
    pure .done
  else
    pure (.broken (if br = length then gpErrorCorruptedData else gpErrorTimeout))

/-- A try, with a count for its loops. -/
def tryPacket (port : PortType) (count : Nat) : Comp Reader Int Verdict := do
  Comp.modify fun s => { s with received := [] }
  let result ← Comp.attempt (readInto answers 0 port.blocksize)
  match result with
  | .error e => pure (.unread e)
  | .ok 0 => pure (.unread gpErrorIoRead)
  | .ok (n + 1) => do
    let s ← Comp.get
    let first := s.p.getD 0 0
    if isSingle first then
      pure .done
    else if isLong first = false then do
      drain answers count
      Comp.throw gpErrorCorruptedData
    else do
      let br ← readHead answers (n + 1)
      readBody answers count br

/-- The loop of `sierra_read_packet`, with the number of failures so far. -/
def readLoop (port : PortType) (count : Nat) : Nat → Nat → Comp Reader Int Unit
  | 0, _ => Comp.stuck
  | tries + 1, r => do
    let verdict ← tryPacket answers port count
    match verdict with
    | .done => pure ()
    | .unread e => if r + 1 > 2 then Comp.throw e else readLoop port count tries (r + 1)
    | .broken e => if r + 2 ≥ retriesMax then Comp.throw e else readLoop port count tries (r + 1)

/-- `sierra_read_packet`, for the ports that it knows. It tries `retriesMax` times at most. -/
def readPacket (port : PortType) (count : Nat) : Comp Reader Int Unit :=
  readLoop answers port count retriesMax 0

end GPhoto2.Sierra.Endless
