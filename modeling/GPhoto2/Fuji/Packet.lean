import GPhoto2.Lib.Chunk
import GPhoto2.Lib.Line
import GPhoto2.Result

/-!
# `GPhoto2.Fuji.Packet`: the packets of the Fuji cameras

`fuji_send`, `fuji_recv` and the commands of `fuji_upload` in `fuji.c`. A packet is `ESC STX`, two
bytes, the length of the data in two bytes, the data, and `ESC ETX` or `ESC ETB` with a checksum.

`fuji_send` sends every `ESC` of its command twice, those of the first four bytes too. `fuji_recv`
takes these four bytes as they come. The buffer of its caller is taken to be large enough.
-/

set_option autoImplicit false

namespace GPhoto2.Fuji

open Lib

def stx : UInt8 := 0x02

def etx : UInt8 := 0x03

def esc : UInt8 := 0x10

def etb : UInt8 := 0x17

/-- The size of the buffer of `fuji_send`. -/
def sendBufferSize : Nat := 1024

abbrev Port := Line UInt8

def read (n : Nat) : Comp Port Int (List UInt8) := Line.read gpErrorTimeout n

def write (bytes : List UInt8) : Comp Port Int Unit := Line.write bytes

/-- `ESC` is sent twice. -/
def escaping : Stuffing UInt8 where
  esc := esc
  special b := b == esc
  flip := id
  special_esc := rfl
  flip_flip := Stuffing.id_flip

/-! ### Sending -/

/-- The loop of `fuji_send`, with what is in front of `i` in the buffer, and the checksum. -/
def escapeLoop : List UInt8 → List UInt8 → UInt8 → Comp Port Int (List UInt8 × UInt8)
  | done, [], check => pure (done, check)
  | done, b :: cmd, check =>
    if b = esc then
      if done.length + cmd.length + 2 > sendBufferSize then
        -- the move leaves the buffer
        Comp.stuck
      else
        escapeLoop (done ++ [esc, b]) cmd (check ^^^ b)
    else
      escapeLoop (done ++ [b]) cmd (check ^^^ b)

/-- The second byte of the footer. -/
def footerByte (last : Bool) : UInt8 := if last then etx else etb

/-- `fuji_send`. -/
def send (cmd : List UInt8) (last : Bool) : Comp Port Int Unit := do
  write [esc, stx]
  if cmd.length > sendBufferSize then
    Comp.stuck
  else do
    let out ← escapeLoop [] cmd (footerByte last)
    write out.1
    write [esc, footerByte last, out.2]

/-- `CHUNK_SIZE`. -/
def chunkSize : Nat := 512

/-- `FUJI_CMD_UPLOAD`. -/
def cmdUpload : UInt8 := 0x0e

/-- A command with data. -/
def packet (a b : UInt8) (data : List UInt8) : List UInt8 :=
  a :: b :: UInt8.ofNat data.length :: UInt8.ofNat (data.length / 256) :: data

/-- What `fuji_upload` passes to `fuji_send` for the chunk at `i`. -/
def uploadCommand (data : List UInt8) (i : Nat) : List UInt8 × Bool :=
  (packet 0 cmdUpload ((data.drop i).take (min chunkSize (data.length - i))),
    decide (¬ i + chunkSize < data.length))

/-- The commands of `fuji_upload`, if the camera takes all of them. -/
def uploadCommands (data : List UInt8) : List (List UInt8 × Bool) :=
  (List.range ((data.length + chunkSize - 1) / chunkSize)).map fun k =>
    uploadCommand data (k * chunkSize)

/-! ### Receiving -/

/-- The loop of `fuji_recv`, with the data so far, and the checksum. -/
def recvData : Nat → List UInt8 → UInt8 → Comp Port Int (List UInt8 × UInt8)
  | 0, buf, check => pure (buf, check)
  | n + 1, buf, check => do
    let b := (← read 1).getD 0 0
    if b = esc then do
      let b := (← read 1).getD 0 0
      if b ≠ esc then do
        -- what still comes is dropped
        Comp.modify fun s => { s with incoming := [] }
        Comp.throw gpErrorCorruptedData
      else
        recvData n (buf ++ [b]) (check ^^^ b)
    else
      recvData n (buf ++ [b]) (check ^^^ b)

/-- `fuji_recv`: the data, and whether the packet is the last one. -/
def recv : Comp Port Int (List UInt8 × Bool) := do
  let b ← read 6
  if b.getD 0 0 ≠ esc ∨ b.getD 1 0 ≠ stx then
    Comp.throw gpErrorCorruptedData
  else do
    let check := b.getD 2 0 ^^^ b.getD 3 0 ^^^ b.getD 4 0 ^^^ b.getD 5 0
    let got ← recvData ((b.getD 4 0).toNat + 256 * (b.getD 5 0).toNat) [] check
    let b ← read 3
    if b.getD 0 0 ≠ esc then
      Comp.throw gpErrorCorruptedData
    else if b.getD 1 0 ≠ etx ∧ b.getD 1 0 ≠ etb then
      Comp.throw gpErrorCorruptedData
    else if got.2 ^^^ b.getD 1 0 ≠ b.getD 2 0 then
      Comp.throw gpErrorCorruptedData
    else
      pure (got.1, decide (b.getD 1 0 = etx))

/-! ## Downloading with a Fuji camera

`fuji_transmit` of `fuji.c`, from the acknowledgement of its command on, for its callers
`fuji_pic_get` and `fuji_pic_get_thumb` too, which pass the length of the buffer they have
allocated. What the calls of `fuji_recv` come to is a list; where it ends, nothing comes any more.
What is behind a failure on the line is dropped. The progress of the download is not modelled.
-/

/-- What a call of `fuji_recv` comes to. -/
structure Arrival where
  /-- What it stores: the data of a packet, or what came of it until the call failed. -/
  data : List UInt8
  /-- Its error. -/
  failed : Option Int
  /-- What it sets `last` to. It does so at the footer, before it compares the checksum. -/
  last : Option Bool
  /-- What ends the download behind it: the answer cannot be written, or the user cancels. -/
  stop : Option Int
  last_of_ok : failed = none → last.isSome = true

/-- The loop of `fuji_transmit`, with the number of `retries`, the buffer, and the bytes in it. It
is stuck where it leaves the buffer. -/
def transmitLoop : List Arrival → Bool → Nat → Cells UInt8 → Nat →
    Option (Except Int (Cells UInt8 × Nat) × List Arrival)
  | [], last, _, buf, bufLen =>
    if last then some (.ok (buf, bufLen), []) else some (.error gpErrorTimeout, [])
  | a :: arrivals, last, retries, buf, bufLen =>
    if last then
      some (.ok (buf, bufLen), a :: arrivals)
    else
      (storeAt bufLen buf a.data).bind fun buf =>
        match a.failed, a.stop with
        | some e, stop =>
          -- `retries` is counted up twice
          if retries + 2 > 2 then
            some (.error e, arrivals)
          else
            match stop with
            | some e => some (.error e, arrivals)
            | none => transmitLoop arrivals (a.last.getD last) (retries + 2) buf bufLen
        | none, some e => some (.error e, arrivals)
        | none, none =>
          transmitLoop arrivals (a.last.getD last) retries buf (bufLen + a.data.length)

/-- `fuji_transmit`, from the acknowledgement of its command on, with a buffer of `bufLen` bytes. -/
def transmit (bufLen : Nat) (arrivals : List Arrival) :
    Option (Except Int (Cells UInt8 × Nat) × List Arrival) :=
  transmitLoop arrivals false 0 (List.replicate bufLen none) 0

end GPhoto2.Fuji
