import GPhoto2.Lib.Line
import GPhoto2.Result

/-!
# `GPhoto2.Konica.LowLevel`: the packets of the Konica cameras

`lowlevel.c`, as it is compiled with `LESSER_ESCAPES`. A packet is `STX`, the number of bytes of
data in two bytes, the data, `ETX` or (where more packets follow) `ETB`, and a checksum. A byte that
has a meaning of its own is sent as `ESC` and its complement. `l_send` does so in the data and in
the checksum, `l_receive` expects it in the number of bytes too.

`l_receive` reads the data into the result and takes the escapes out there. Nobody cancels.
-/

set_option autoImplicit false

namespace GPhoto2.Konica

open Lib

def stx : UInt8 := 0x02

def etx : UInt8 := 0x03

def eot : UInt8 := 0x04

def enq : UInt8 := 0x05

def ack : UInt8 := 0x06

def xoff : UInt8 := 0x11

def xon : UInt8 := 0x13

def nack : UInt8 := 0x15

def etb : UInt8 := 0x17

def esc : UInt8 := 0x1b

/-- The bytes that are sent behind an `ESC`. -/
def quoted (c : UInt8) : Bool :=
  c == stx || c == etx || c == enq || c == ack || c == xoff || c == xon || c == nack || c == etb ||
    c == esc

/-- `ESC` and the complement. -/
def escaping : Stuffing UInt8 where
  esc := esc
  special := quoted
  flip b := ~~~b
  special_esc := rfl
  flip_flip _ := UInt8.not_not

abbrev Port := Line UInt8

def read (n : Nat) : Comp Port Int (List UInt8) := Line.read gpErrorTimeout n

/-- One byte. -/
def readByte : Comp Port Int UInt8 := do
  let bytes ← read 1
  pure (bytes.getD 0 0)

def write (bytes : List UInt8) : Comp Port Int Unit := Line.write bytes

/-! ### Sending -/

/-- The answers `ENQ` of a camera that would like to send. Every round reads something. -/
def pingEnq : Nat → Comp Port Int Unit
  | 0 => Comp.stuck
  | fuel + 1 => do
    let c ← readByte
    if c = enq then pingEnq fuel
    else if c = ack then pure ()
    else Comp.throw gpErrorCorruptedData

/-- `l_ping_rec`, with the number of levels that are left up to 52. -/
def pingRec : Nat → Comp Port Int Unit
  | 0 => Comp.stuck
  | left + 1 => do
    let level := 51 - left
    write [enq]
    let c ← readByte
    if c = ack then
      pure ()
    else if c = nack then
      if level < 30 then pingRec left else Comp.throw gpErrorCorruptedData
    else if c = enq then do
      write [nack]
      let s ← Comp.get
      pingEnq (s.incoming.length + 1)
    else do
      Comp.modify fun s => { s with incoming := [] }
      if level > 50 then Comp.throw gpErrorCorruptedData else pingRec left

/-- `l_ping`. -/
def ping : Comp Port Int Unit := pingRec 52

/-- The loop of `l_send` over the data: what it puts into the buffer, and the checksum. -/
def escapeLoop : List UInt8 → List UInt8 → UInt8 → List UInt8 × UInt8
  | sb, [], checksum => (sb, checksum)
  | sb, b :: sendBuffer, checksum =>
    if quoted b then escapeLoop (sb ++ [esc, ~~~b]) sendBuffer (checksum + b)
    else escapeLoop (sb ++ [b]) sendBuffer (checksum + b)

/-- The buffer that `l_send` writes. -/
def sendBytes (sendBuffer : List UInt8) : List UInt8 :=
  let lo := UInt8.ofNat sendBuffer.length
  let hi := UInt8.ofNat (sendBuffer.length / 256)
  let loop := escapeLoop [stx, lo, hi] sendBuffer (lo + hi)
  let checksum := loop.2 + etx
  if quoted checksum then loop.1 ++ [etx, esc, ~~~checksum] else loop.1 ++ [etx, checksum]

/-- The loop of `l_send` that writes the buffer, with the number of tries that are left. -/
def sendTries (sb : List UInt8) : Nat → Comp Port Int Unit
  | 0 => Comp.throw gpErrorCorruptedData
  | left + 1 => do
    write sb
    let c ← readByte
    if c = ack then write [eot]
    else if c = nack then sendTries sb left
    else Comp.throw gpErrorCorruptedData

/-- `l_send`. -/
def send (sendBuffer : List UInt8) : Comp Port Int Unit := do
  ping
  sendTries (sendBytes sendBuffer) 3

/-! ### Receiving -/

/-- `l_esc_read`. -/
def escRead : Comp Port Int UInt8 := do
  let c ← readByte
  if c = esc then do
    let c ← readByte
    pure (~~~c)
  else
    pure c

/-- The loop over the bytes that one read brought, with the data and the checksum so far. There is
no result where it sets `error_flag`. -/
def unescape : List UInt8 → List UInt8 → UInt8 → Comp Port Int (Option (List UInt8 × UInt8))
  | [], rb, checksum => pure (some (rb, checksum))
  | [c], rb, checksum =>
    if c = stx ∨ c = xoff ∨ c = xon then
      pure none
    else if c = esc then do
      let c := ~~~(← readByte)
      if quoted c then pure (some (rb ++ [c], checksum + c)) else pure none
    else
      pure (some (rb ++ [c], checksum + c))
  | c :: b :: chunk, rb, checksum =>
    if c = stx ∨ c = xoff ∨ c = xon then
      pure none
    else if c = esc then
      let c := ~~~b
      if quoted c then unescape chunk (rb ++ [c]) (checksum + c) else pure none
    else
      unescape (b :: chunk) (rb ++ [c]) (checksum + c)

/-- The loop that reads the data, as many bytes as are missing at a time. Every round gets some of
them. -/
def readData (rbsInternal : Nat) :
    Nat → List UInt8 → UInt8 → Comp Port Int (Option (List UInt8 × UInt8))
  | 0, _, _ => Comp.stuck
  | fuel + 1, rb, checksum =>
    if rb.length < rbsInternal then do
      let result ← Comp.attempt (read (rbsInternal - rb.length))
      match result with
      | .error _ => pure none
      | .ok chunk => do
        let r ← unescape chunk rb checksum
        match r with
        | none => pure none
        | some (rb, checksum) => readData rbsInternal fuel rb checksum
    else
      pure (some (rb, checksum))

/-- The bytes up to the next `ETX` or `ETB`, which are dropped. Every round reads something. -/
def skipToEnd : Nat → UInt8 → Comp Port Int Unit
  | 0, _ => Comp.stuck
  | fuel + 1, d =>
    if d ≠ etx ∧ d ≠ etb then do
      let d ← readByte
      skipToEnd fuel d
    else
      pure ()

/-- A packet behind the number of its bytes: the data and the byte behind them, if it is intact. -/
def readBody (rbsInternal : Nat) (checksum : UInt8) :
    Comp Port Int (Option (List UInt8 × UInt8)) := do
  let got ← readData rbsInternal (rbsInternal + 1) [] checksum
  match got with
  | none => do
    let _ ← escRead
    pure none
  | some (rb, checksum) => do
    let d ← readByte
    let s ← Comp.get
    skipToEnd (s.incoming.length + 1) d
    let c ← escRead
    if c = checksum + d ∧ (d = etx ∨ d = etb) then pure (some (rb, d)) else pure none

/-- A packet behind its `STX`. -/
def readPacket : Comp Port Int (Option (List UInt8 × UInt8)) := do
  let c ← escRead
  let d ← escRead
  readBody (c.toNat + 256 * d.toNat) (c + d)

/-- The loop of `l_receive` that reads one packet, from its `j`th round on. Every round reads
something. -/
def recvPacket : Nat → Nat → Comp Port Int (List UInt8 × UInt8)
  | 0, _ => Comp.stuck
  | fuel + 1, j => do
    let c ← readByte
    if c ≠ stx then
      recvPacket fuel (j + 1)
    else do
      let got ← readPacket
      match got with
      | some packet => do
        write [ack]
        pure packet
      | none =>
        if j = 2 then
          Comp.throw gpErrorCorruptedData
        else do
          write [nack]
          recvPacket fuel (j + 1)

/-- The loop of `l_receive` over the packets, with the data so far. -/
def recvPackets : Nat → List UInt8 → Comp Port Int (List UInt8)
  | 0, _ => Comp.stuck
  | fuel + 1, rb => do
    let s ← Comp.get
    let packet ← recvPacket (s.incoming.length + 1) 0
    let c ← readByte
    if c ≠ eot then
      Comp.throw gpErrorCorruptedData
    else if packet.2 = etx then
      pure (rb ++ packet.1)
    else do
      let c ← readByte
      if c ≠ enq then
        Comp.throw gpErrorCorruptedData
      else do
        write [ack]
        recvPackets fuel (rb ++ packet.1)

/-- The bytes up to the next `ENQ`, which are dropped. -/
def skipToEnq : Nat → Comp Port Int Unit
  | 0 => Comp.stuck
  | fuel + 1 => do
    let c ← readByte
    if c = enq then pure () else skipToEnq fuel

/-- The loop of `l_receive` that waits for `ENQ`, with the number of `ACK`s that it still takes. -/
def waitEnq : Nat → Comp Port Int Unit
  | 0 => Comp.throw gpErrorCorruptedData
  | left + 1 => do
    let c ← readByte
    if c = enq then
      pure ()
    else if c = ack then
      waitEnq left
    else do
      let s ← Comp.get
      skipToEnq (s.incoming.length + 1)

/-- `l_receive`. -/
def receive : Comp Port Int (List UInt8) := do
  waitEnq 10
  write [ack]
  let s ← Comp.get
  recvPackets (s.incoming.length + 1) []

end GPhoto2.Konica
