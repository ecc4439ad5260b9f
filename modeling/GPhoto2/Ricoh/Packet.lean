import GPhoto2.Lib.Chunk
import GPhoto2.Lib.Endian
import GPhoto2.Lib.Line
import GPhoto2.Result

/-!
# `GPhoto2.Ricoh.Packet`: the packets of the Ricoh cameras

`ricoh_send` and `ricoh_recv` of `ricoh.c`. A packet is `DLE STX`, the command, the number of bytes
of data, the data with every `DLE` sent twice, and a footer with a checksum.

`ricoh_recv` reads the data into the buffer of its caller and takes the escapes out there. Its
counters have 8 bits; `i` is the only one of them that can come to 256.
-/

set_option autoImplicit false

namespace GPhoto2.Ricoh

open Lib

def stx : UInt8 := 0x02

def etx : UInt8 := 0x03

def ack : UInt8 := 0x06

def nak : UInt8 := 0x15

def etb : UInt8 := 0x17

def dle : UInt8 := 0x10

/-- `crctab`. -/
def crctab : List UInt16 := [
  0x0000, 0x1021, 0x2042, 0x3063, 0x4084, 0x50a5, 0x60c6, 0x70e7,
  0x8108, 0x9129, 0xa14a, 0xb16b, 0xc18c, 0xd1ad, 0xe1ce, 0xf1ef,
  0x1231, 0x0210, 0x3273, 0x2252, 0x52b5, 0x4294, 0x72f7, 0x62d6,
  0x9339, 0x8318, 0xb37b, 0xa35a, 0xd3bd, 0xc39c, 0xf3ff, 0xe3de,
  0x2462, 0x3443, 0x0420, 0x1401, 0x64e6, 0x74c7, 0x44a4, 0x5485,
  0xa56a, 0xb54b, 0x8528, 0x9509, 0xe5ee, 0xf5cf, 0xc5ac, 0xd58d,
  0x3653, 0x2672, 0x1611, 0x0630, 0x76d7, 0x66f6, 0x5695, 0x46b4,
  0xb75b, 0xa77a, 0x9719, 0x8738, 0xf7df, 0xe7fe, 0xd79d, 0xc7bc,
  0x48c4, 0x58e5, 0x6886, 0x78a7, 0x0840, 0x1861, 0x2802, 0x3823,
  0xc9cc, 0xd9ed, 0xe98e, 0xf9af, 0x8948, 0x9969, 0xa90a, 0xb92b,
  0x5af5, 0x4ad4, 0x7ab7, 0x6a96, 0x1a71, 0x0a50, 0x3a33, 0x2a12,
  0xdbfd, 0xcbdc, 0xfbbf, 0xeb9e, 0x9b79, 0x8b58, 0xbb3b, 0xab1a,
  0x6ca6, 0x7c87, 0x4ce4, 0x5cc5, 0x2c22, 0x3c03, 0x0c60, 0x1c41,
  0xedae, 0xfd8f, 0xcdec, 0xddcd, 0xad2a, 0xbd0b, 0x8d68, 0x9d49,
  0x7e97, 0x6eb6, 0x5ed5, 0x4ef4, 0x3e13, 0x2e32, 0x1e51, 0x0e70,
  0xff9f, 0xefbe, 0xdfdd, 0xcffc, 0xbf1b, 0xaf3a, 0x9f59, 0x8f78,
  0x9188, 0x81a9, 0xb1ca, 0xa1eb, 0xd10c, 0xc12d, 0xf14e, 0xe16f,
  0x1080, 0x00a1, 0x30c2, 0x20e3, 0x5004, 0x4025, 0x7046, 0x6067,
  0x83b9, 0x9398, 0xa3fb, 0xb3da, 0xc33d, 0xd31c, 0xe37f, 0xf35e,
  0x02b1, 0x1290, 0x22f3, 0x32d2, 0x4235, 0x5214, 0x6277, 0x7256,
  0xb5ea, 0xa5cb, 0x95a8, 0x8589, 0xf56e, 0xe54f, 0xd52c, 0xc50d,
  0x34e2, 0x24c3, 0x14a0, 0x0481, 0x7466, 0x6447, 0x5424, 0x4405,
  0xa7db, 0xb7fa, 0x8799, 0x97b8, 0xe75f, 0xf77e, 0xc71d, 0xd73c,
  0x26d3, 0x36f2, 0x0691, 0x16b0, 0x6657, 0x7676, 0x4615, 0x5634,
  0xd94c, 0xc96d, 0xf90e, 0xe92f, 0x99c8, 0x89e9, 0xb98a, 0xa9ab,
  0x5844, 0x4865, 0x7806, 0x6827, 0x18c0, 0x08e1, 0x3882, 0x28a3,
  0xcb7d, 0xdb5c, 0xeb3f, 0xfb1e, 0x8bf9, 0x9bd8, 0xabbb, 0xbb9a,
  0x4a75, 0x5a54, 0x6a37, 0x7a16, 0x0af1, 0x1ad0, 0x2ab3, 0x3a92,
  0xfd2e, 0xed0f, 0xdd6c, 0xcd4d, 0xbdaa, 0xad8b, 0x9de8, 0x8dc9,
  0x7c26, 0x6c07, 0x5c64, 0x4c45, 0x3ca2, 0x2c83, 0x1ce0, 0x0cc1,
  0xef1f, 0xff3e, 0xcf5d, 0xdf7c, 0xaf9b, 0xbfba, 0x8fd9, 0x9ff8,
  0x6e17, 0x7e36, 0x4e55, 0x5e74, 0x2e93, 0x3eb2, 0x0ed1, 0x1ef0]

/-- `updcrc`. -/
def updcrc (cp : UInt8) (crc : UInt32) : UInt32 :=
  (crctab.getD ((crc >>> 8) &&& 255).toNat 0).toUInt32 ^^^ (crc <<< 8) ^^^ cp.toUInt32

/-- The checksum over some bytes. -/
def updcrcs (crc : UInt32) (bytes : List UInt8) : UInt32 :=
  bytes.foldl (fun crc cp => updcrc cp crc) crc

/-- `DLE` is sent twice. -/
def escaping : Stuffing UInt8 where
  esc := dle
  special b := b == dle
  flip := id
  special_esc := rfl
  flip_flip := Stuffing.id_flip

abbrev Port := Line UInt8

def read (n : Nat) : Comp Port Int (List UInt8) := Line.read gpErrorTimeout n

def write (bytes : List UInt8) : Comp Port Int Unit := Line.write bytes

/-! ### Sending -/

/-- The two loops of `ricoh_send` over the data, with the bytes that the inner one has gone over. -/
def sendData : List UInt8 → List UInt8 → UInt32 → Comp Port Int UInt32
  | chunk, [], crc => do
    if chunk ≠ [] then write chunk
    pure crc
  | chunk, b :: data, crc =>
    if b = dle then do
      write (chunk ++ [b])
      write [dle]
      sendData [] data (updcrc b crc)
    else
      sendData (chunk ++ [b]) data (updcrc b crc)

/-- `ricoh_send`. The length of the data is one byte. -/
def send (cmd number : UInt8) (data : List UInt8) : Comp Port Int Unit := do
  -- what still comes from the camera is dropped
  Comp.modify fun s => { s with incoming := [] }
  let len := UInt8.ofNat data.length
  write [dle, stx, cmd, len]
  let crc ← sendData [] data (updcrc len (updcrc cmd 0))
  write [dle, etx, crc.toUInt8, (crc >>> 8).toUInt8, len + 2, number]

/-! ### Receiving -/

/-- The loop that looks for the header and drops answers `DLE ACK`: the second byte that it ends
with. -/
def recvHeader : Nat → Comp Port Int UInt8
  | 0 => pure ack
  | n + 1 => do
    let buf ← read 2
    if buf.getD 0 0 ≠ dle then
      Comp.throw gpErrorCorruptedData
    else if buf.getD 1 0 ≠ ack then
      pure (buf.getD 1 0)
    else
      recvHeader n

/-- `memmove` within a buffer. -/
def memmove (data : List UInt8) (dst src n : Nat) : List UInt8 :=
  data.take dst ++ (data.drop src).take n ++ data.drop (dst + n)

/-- What the loops over the data work on. -/
structure Got where
  data : List UInt8
  r : Nat := 0
  lastDle : Bool := false
  crc : UInt32

/-- The end of a round of the inner loop: the byte at `r` counts, unless it was the last one read
and the byte that it escapes has yet to come. -/
def Got.count (len i : Nat) (g : Got) : Got :=
  let g := { g with crc := updcrc (g.data.getD g.r 0) g.crc }
  if i ≠ len then { g with r := g.r + 1 } else { g with lastDle := true }

/-- The inner loop, from `i` on. A round ends with `i++`. -/
def unescape (len : Nat) : Nat → Nat → Got → Comp Port Int Got
  | 0, _, _ => Comp.stuck
  | fuel + 1, i, g =>
    if i < len then
      if g.data.getD g.r 0 = dle then
        if i + 1 ≠ len ∧ g.data.getD (g.r + 1) 0 ≠ dle then
          Comp.throw gpErrorCorruptedData
        else if g.r + (len - i) > g.data.length then
          -- the move leaves the buffer
          Comp.stuck
        else
          let g := { g with data := memmove g.data g.r (g.r + 1) (len - i - 1) }
          unescape len fuel ((i + 2) % 256) (g.count len (i + 1))
      else
        unescape len fuel ((i + 1) % 256) (g.count len i)
    else
      pure g

/-- What is read goes into the buffer at `r`, and completes an escaped byte. -/
def Got.take (len : Nat) (chunk : List UInt8) (g : Got) : Got :=
  let g := { g with data := g.data.take g.r ++ chunk ++ g.data.drop len }
  if g.lastDle then { g with r := g.r + 1, lastDle := false } else g

/-- The outer loop. Every round reads something, or ends. -/
def recvData (len : Nat) : Nat → Got → Comp Port Int Got
  | 0, _ => Comp.stuck
  | fuel + 1, g =>
    if g.r < len then do
      let chunk ← read (len - g.r)
      let g := g.take len chunk
      let g ← unescape len 256 g.r g
      recvData len fuel g
    else
      pure g

/-- What `ricoh_recv` returns. -/
structure Packet where
  cmd : UInt8
  number : UInt8
  data : List UInt8
  deriving DecidableEq

/-- The answer of a camera that is busy. -/
def busy : List UInt8 := [0x00, 0x04, 0xff]

/-- The loop of `ricoh_recv`, with the caller's buffer. -/
def recvLoop : Nat → Nat → List UInt8 → Comp Port Int Packet
  | 0, _, _ => Comp.stuck
  | fuel + 1, ii, buffer => do
    let second ← recvHeader 4
    if second ≠ stx then
      Comp.throw gpErrorCorruptedData
    else do
      let cmd := (← read 1).getD 0 0
      let len := ((← read 1).getD 0 0).toNat
      if buffer.length < len then
        Comp.stuck
      else do
        let s ← Comp.get
        let crc := updcrc (UInt8.ofNat len) (updcrc cmd 0)
        let g ← recvData len (s.incoming.length + 1) { data := buffer, crc := crc }
        let buf ← read 6
        if buf.getD 0 0 ≠ dle ∨ (buf.getD 1 0 ≠ etx ∧ buf.getD 1 0 ≠ etb) then
          Comp.throw gpErrorCorruptedData
        else if buf.getD 2 0 ≠ g.crc.toUInt8 ∨ buf.getD 3 0 ≠ (g.crc >>> 8).toUInt8 ∨
            (buf.getD 4 0).toNat ≠ len + 2 then do
          write [dle, nak]
          recvLoop fuel ((ii + 1) % 256) g.data
        else do
          write [dle, ack]
          if g.data.take len = busy then
            if ii ≥ 4 then Comp.throw gpError else recvLoop fuel ((ii + 1) % 256) g.data
          else
            pure ⟨cmd, buf.getD 5 0, g.data.take len⟩

/-- `ricoh_recv`. Every round of the loop reads something. -/
def recv (buffer : List UInt8) : Comp Port Int Packet := do
  let s ← Comp.get
  recvLoop (s.incoming.length + 1) 0 buffer

/-! ## Downloading a picture from a Ricoh camera

`ricoh_get_pic` of `ricoh.c`, from the answer to its request on. What the calls of `ricoh_recv` come
to is an endless sequence: each of them stores some packets that it does not take (their checksum is
wrong, the camera is busy, or the rest of the packet does not come), and returns a packet or an
error. Running out of memory is not modelled.
-/

/-- The data of a packet, whose length is one byte. -/
structure Data where
  bytes : List UInt8
  bytes_length : bytes.length < 256

/-- What a call of `ricoh_recv` comes to: the data of the packets that it does not take, and the
command and the data of the packet that it returns. -/
structure Reception where
  dropped : List Data
  result  : Except Int (UInt8 × Data)

/-- `RICOH_FILE_TYPE_NORMAL` and `RICOH_FILE_TYPE_PREVIEW`. -/
inductive FileType
  | normal
  | preview
  deriving DecidableEq

/-- `header`: that of a TIFF file of 80x60 pixels. -/
def header : List UInt8 := [
  0x49, 0x49, 0x2a, 0x00, 0x08, 0x00, 0x00, 0x00, 0x0c, 0x00, 0x00, 0x01, 0x03, 0x00,
  0x01, 0x00, 0x00, 0x00, 0x50, 0x00, 0x00, 0x00, 0x01, 0x01, 0x03, 0x00, 0x01, 0x00,
  0x00, 0x00, 0x3c, 0x00, 0x00, 0x00, 0x02, 0x01, 0x03, 0x00, 0x03, 0x00, 0x00, 0x00,
  0x9e, 0x00, 0x00, 0x00, 0x03, 0x01, 0x03, 0x00, 0x01, 0x00, 0x00, 0x00, 0x01, 0x00,
  0x00, 0x00, 0x06, 0x01, 0x03, 0x00, 0x01, 0x00, 0x00, 0x00, 0x06, 0x00, 0x00, 0x00,
  0x11, 0x01, 0x04, 0x00, 0x01, 0x00, 0x00, 0x00, 0xec, 0x00, 0x00, 0x00, 0x15, 0x01,
  0x03, 0x00, 0x01, 0x00, 0x00, 0x00, 0x03, 0x00, 0x00, 0x00, 0x17, 0x01, 0x04, 0x00,
  0x01, 0x00, 0x00, 0x00, 0x80, 0x25, 0x00, 0x00, 0x1c, 0x01, 0x03, 0x00, 0x01, 0x00,
  0x00, 0x00, 0x01, 0x00, 0x00, 0x00, 0x11, 0x02, 0x05, 0x00, 0x03, 0x00, 0x00, 0x00,
  0xa4, 0x00, 0x00, 0x00, 0x12, 0x02, 0x03, 0x00, 0x02, 0x00, 0x00, 0x00, 0x02, 0x00,
  0x01, 0x00, 0x14, 0x02, 0x05, 0x00, 0x06, 0x00, 0x00, 0x00, 0xbc, 0x00, 0x00, 0x00,
  0x00, 0x00, 0x00, 0x00, 0x08, 0x00, 0x08, 0x00, 0x08, 0x00, 0xe0, 0xd0, 0x22, 0x13,
  0x00, 0x00, 0x00, 0x40, 0x80, 0x68, 0x91, 0x25, 0x00, 0x00, 0x00, 0x40, 0xa8, 0xc6,
  0x4b, 0x07, 0x00, 0x00, 0x00, 0x40, 0x00, 0x00, 0x00, 0x00, 0x01, 0x00, 0x00, 0x00,
  0x00, 0x00, 0xe0, 0x1f, 0x00, 0x00, 0x20, 0x00, 0x00, 0x00, 0x00, 0x10, 0x00, 0x00,
  0x20, 0x00, 0x00, 0x00, 0xe0, 0x1f, 0x00, 0x00, 0x20, 0x00, 0x00, 0x00, 0x00, 0x10,
  0x00, 0x00, 0x20, 0x00, 0x00, 0x00, 0xe0, 0x1f, 0x00, 0x00, 0x20, 0x00]

/-- `header_len`. -/
def headerLen : FileType → Nat
  | .normal => 0
  | .preview => header.length

/-- A call of `ricoh_recv` with its data at `offset`: the block behind it, the command and the
length. The state counts the calls. It is stuck where a packet leaves the block. -/
def recvInto (receptions : Nat → Reception) (offset : Nat) (data : Cells UInt8) :
    Comp Nat Int (Cells UInt8 × UInt8 × Nat) := fun k =>
  (storeAll offset data ((receptions k).dropped.map Data.bytes)).bind fun data =>
    match (receptions k).result with
    | .error e => some (.error e, k + 1)
    | .ok (cmd, d) =>
      (storeAt offset data d.bytes).map fun data => (.ok (data, cmd, d.bytes.length), k + 1)

/-- The loop of `ricoh_get_pic`, with `r` bytes received. The numbers are unsigned integers. -/
def receiveData (receptions : Nat → Reception) (size headerLen : Nat) :
    Nat → Nat → Cells UInt8 → Comp Nat Int (Cells UInt8)
  | 0, _, _ => Comp.stuck
  | fuel + 1, r, data =>
    if r < (size + 4294967296 - headerLen) % 4294967296 then do
      let (data, cmd, len) ← recvInto receptions (headerLen + r) data
      if cmd ≠ 0xa2 then
        Comp.throw gpErrorCorruptedData
      else
        receiveData receptions size headerLen fuel ((r + len) % 4294967296) data
    else
      pure data

/-- The number of bytes that the answer to the request announces. -/
def announced (answer : List UInt8) : Nat := ByteOrder.little.decode ((answer.drop 12).take 4)

/-- `ricoh_get_pic`, from the answer to its request on. It is stuck where it leaves the block that
it has allocated. -/
def getPic (fuel : Nat) (type : FileType) (answer : List UInt8) (receptions : Nat → Reception) :
    Comp Nat Int (Cells UInt8) :=
  if answer.length ≠ 16 then
    Comp.throw gpErrorCorruptedData
  else do
    let size := (announced answer + headerLen type) % 4294967296
    let data ← receiveData receptions size (headerLen type) fuel 0 (List.replicate size none)
    if type = .preview then
      match storeAt 0 data header with
      | none => Comp.stuck
      | some data => pure data
    else
      pure data

end GPhoto2.Ricoh
