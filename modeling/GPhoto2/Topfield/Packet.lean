import GPhoto2.Lib.Endian
import GPhoto2.Topfield.Names

/-!
# `GPhoto2.Topfield.Packet`: the packets of the Topfield recorders

`get_tf_packet` of `usb_io.c`, and the numbers in a packet as `tf_bytes.c` reads them. The bytes of
a packet are swapped in pairs on the wire. A packet is read into the buffer of the caller, and what
a short one does not reach of it stays as it was.

A wrong checksum is only logged, and the acknowledgement of a data packet is sent whatever becomes
of it, so neither is modelled.
-/

set_option autoImplicit false

namespace GPhoto2.Topfield

open Lib

/-- `MAXIMUM_PACKET_SIZE`, the size of a `struct tf_packet`. -/
def maximumPacketSize : Nat := 65535

/-- `PACKET_HEAD_SIZE`. -/
def packetHeadSize : Nat := 8

/-- The commands of the packets that a recorder sends during a download. -/
def cmdFail : Nat := 0x0001
def cmdSuccess : Nat := 0x0002
def dataHddFileStart : Nat := 0x1009
def dataHddFileData : Nat := 0x100a
def dataHddFileEnd : Nat := 0x100b

/-- `get_u16`, `get_u32` and `get_u64`: the number in the `n` bytes from `i` on. -/
def getBytes (n : Nat) (p : List UInt8) (i : Nat) : Nat :=
  ByteOrder.big.decode ((p.drop i).take n)

/-- `get_u16`. -/
def getU16 (p : List UInt8) (i : Nat) : Nat := getBytes 2 p i

/-- `get_u32`. -/
def getU32 (p : List UInt8) (i : Nat) : Nat := getBytes 4 p i

/-- `get_u64`. -/
def getU64 (p : List UInt8) (i : Nat) : Nat := getBytes 8 p i

/-- `get_u16_raw`, before the bytes are swapped. -/
def getU16Raw (p : List UInt8) : Nat := 256 * (p.getD 1 0).toNat + (p.getD 0 0).toNat

/-- `byte_swap`, with the pairs that the count reaches. -/
def byteSwap : List UInt8 → List UInt8
  | a :: b :: d => b :: a :: byteSwap d
  | d => d

/-- `swap_in_packet`. -/
def swapInPacket (p : List UInt8) : List UInt8 :=
  let size := (getU16Raw p + 1) / 2 * 2
  let size := if size > maximumPacketSize then maximumPacketSize / 2 * 2 else size
  byteSwap (p.take size) ++ p.drop size

/-- The answer to a read. -/
abbrev Answer := Except Int (List UInt8)

/-- The packet that was read last, and the answers to the next reads. -/
structure Line where
  packet : List UInt8
  answers : List Answer
  deriving DecidableEq

/-- `get_tf_packet`: the number of bytes that were read. -/
def getTfPacket : Comp Line Int Nat := fun s =>
  match s.answers with
  | [] => some (.error gpErrorIoRead, s)
  | .error e :: answers => some (.error e, { s with answers := answers })
  | .ok bytes :: answers =>
    let bytes := bytes.take maximumPacketSize
    let packet := bytes ++ s.packet.drop bytes.length
    if bytes.length < packetHeadSize then
      some (.error gpError, { packet := packet, answers := answers })
    else if getU16 (swapInPacket packet) 0 < packetHeadSize then
      some (.error gpError, { packet := swapInPacket packet, answers := answers })
    else
      some (.ok bytes.length, { packet := swapInPacket packet, answers := answers })

/-! ## Packets as they are sent, and the directories in them

`crc16_ansi` of `crc16.c`, `get_crc` and `send_tf_packet` of `usb_io.c`, and what `decode_dir` and
`decode_and_get_info` of `puppy.c` read of a packet.

A function that reads a packet has as a parameter how many of its bytes it may read, and is stuck
where it reads behind them: that may be all of the buffer, or what was received.
-/

/-! ### The checksum -/

/-- `crc_16_table`. -/
def crc16Table : List UInt16 := [
  0x0000, 0xc0c1, 0xc181, 0x0140, 0xc301, 0x03c0, 0x0280, 0xc241,
  0xc601, 0x06c0, 0x0780, 0xc741, 0x0500, 0xc5c1, 0xc481, 0x0440,
  0xcc01, 0x0cc0, 0x0d80, 0xcd41, 0x0f00, 0xcfc1, 0xce81, 0x0e40,
  0x0a00, 0xcac1, 0xcb81, 0x0b40, 0xc901, 0x09c0, 0x0880, 0xc841,
  0xd801, 0x18c0, 0x1980, 0xd941, 0x1b00, 0xdbc1, 0xda81, 0x1a40,
  0x1e00, 0xdec1, 0xdf81, 0x1f40, 0xdd01, 0x1dc0, 0x1c80, 0xdc41,
  0x1400, 0xd4c1, 0xd581, 0x1540, 0xd701, 0x17c0, 0x1680, 0xd641,
  0xd201, 0x12c0, 0x1380, 0xd341, 0x1100, 0xd1c1, 0xd081, 0x1040,
  0xf001, 0x30c0, 0x3180, 0xf141, 0x3300, 0xf3c1, 0xf281, 0x3240,
  0x3600, 0xf6c1, 0xf781, 0x3740, 0xf501, 0x35c0, 0x3480, 0xf441,
  0x3c00, 0xfcc1, 0xfd81, 0x3d40, 0xff01, 0x3fc0, 0x3e80, 0xfe41,
  0xfa01, 0x3ac0, 0x3b80, 0xfb41, 0x3900, 0xf9c1, 0xf881, 0x3840,
  0x2800, 0xe8c1, 0xe981, 0x2940, 0xeb01, 0x2bc0, 0x2a80, 0xea41,
  0xee01, 0x2ec0, 0x2f80, 0xef41, 0x2d00, 0xedc1, 0xec81, 0x2c40,
  0xe401, 0x24c0, 0x2580, 0xe541, 0x2700, 0xe7c1, 0xe681, 0x2640,
  0x2200, 0xe2c1, 0xe381, 0x2340, 0xe101, 0x21c0, 0x2080, 0xe041,
  0xa001, 0x60c0, 0x6180, 0xa141, 0x6300, 0xa3c1, 0xa281, 0x6240,
  0x6600, 0xa6c1, 0xa781, 0x6740, 0xa501, 0x65c0, 0x6480, 0xa441,
  0x6c00, 0xacc1, 0xad81, 0x6d40, 0xaf01, 0x6fc0, 0x6e80, 0xae41,
  0xaa01, 0x6ac0, 0x6b80, 0xab41, 0x6900, 0xa9c1, 0xa881, 0x6840,
  0x7800, 0xb8c1, 0xb981, 0x7940, 0xbb01, 0x7bc0, 0x7a80, 0xba41,
  0xbe01, 0x7ec0, 0x7f80, 0xbf41, 0x7d00, 0xbdc1, 0xbc81, 0x7c40,
  0xb401, 0x74c0, 0x7580, 0xb541, 0x7700, 0xb7c1, 0xb681, 0x7640,
  0x7200, 0xb2c1, 0xb381, 0x7340, 0xb101, 0x71c0, 0x7080, 0xb041,
  0x5000, 0x90c1, 0x9181, 0x5140, 0x9301, 0x53c0, 0x5280, 0x9241,
  0x9601, 0x56c0, 0x5780, 0x9741, 0x5500, 0x95c1, 0x9481, 0x5440,
  0x9c01, 0x5cc0, 0x5d80, 0x9d41, 0x5f00, 0x9fc1, 0x9e81, 0x5e40,
  0x5a00, 0x9ac1, 0x9b81, 0x5b40, 0x9901, 0x59c0, 0x5880, 0x9841,
  0x8801, 0x48c0, 0x4980, 0x8941, 0x4b00, 0x8bc1, 0x8a81, 0x4a40,
  0x4e00, 0x8ec1, 0x8f81, 0x4f40, 0x8d01, 0x4dc0, 0x4c80, 0x8c41,
  0x4400, 0x84c1, 0x8581, 0x4540, 0x8701, 0x47c0, 0x4680, 0x8641,
  0x8201, 0x42c0, 0x4380, 0x8341, 0x4100, 0x81c1, 0x8081, 0x4040]

/-- A round of `crc16_ansi`. -/
def crc16Step (crc : UInt16) (d : UInt8) : UInt16 :=
  crc16Table.getD ((crc ^^^ d.toUInt16) &&& 0xff).toNat 0 ^^^ (crc >>> 8)

/-- `crc16_ansi`. -/
def crc16Ansi (data : List UInt8) : UInt16 := data.foldl crc16Step 0

/-- `get_crc`: the checksum over what follows the field for it, up to the length of the packet. -/
def getCrc (known : Nat) (packet : List UInt8) : Option UInt16 :=
  if 4 ≤ getU16 packet 0 ∧ getU16 packet 0 ≤ known then
    some (crc16Ansi ((packet.drop 4).take (getU16 packet 0 - 4)))
  else
    none

/-! ### Sending -/

/-- `put_u16`. -/
def putU16 (packet : List UInt8) (i value : Nat) : List UInt8 :=
  packet.take i ++ ByteOrder.big.encode 2 value ++ packet.drop (i + 2)

/-- The number of bytes that a packet of some length takes on the wire. -/
def paddedLength (length : Nat) : Nat := (length + 1) / 2 * 2

/-- `send_tf_packet`: the bytes that it writes. It is stuck where they leave the packet. -/
def sendTfPacket (packet : List UInt8) : Option (List UInt8) :=
  (getCrc maximumPacketSize packet).bind fun crc =>
    if paddedLength (getU16 packet 0) ≤ maximumPacketSize then
      some (byteSwap ((putU16 packet 2 crc.toNat).take (paddedLength (getU16 packet 0))))
    else
      none

/-! ### Directories -/

/-- `sizeof (struct typefile)`. -/
def typefileSize : Nat := 114

/-- The number of entries of a directory. -/
def entryCount (packet : List UInt8) : Nat := (getU16 packet 0 - packetHeadSize) / typefileSize

/-- The place of the entry `i`. -/
def entryAt (i : Nat) : Nat := packetHeadSize + typefileSize * i

/-- The `n` bytes from `i` on. -/
def readBytes (known : Nat) (packet : List UInt8) (i n : Nat) : Option (List UInt8) :=
  if i + n ≤ known then some ((packet.drop i).take n) else none

/-- The string at `i`. It ends with the first zero from there on. -/
def readString (known : Nat) (packet : List UInt8) (i : Nat) : Option Name :=
  let name := ((packet.take known).drop i).takeWhile (· ≠ 0)
  if i + name.length < (packet.take known).length then some name else none

/-- `entries[i].filetype`. -/
def readFiletype (known : Nat) (packet : List UInt8) (i : Nat) : Option UInt8 :=
  (packet.take known)[entryAt i + 5]?

/-- The loop of both decoders: what `read` makes of the entries of one type, with `n` entries left
from `i` on. -/
def forEntries {α : Type} (known : Nat) (packet : List UInt8) (filetype : UInt8)
    (read : Nat → Option α) : Nat → Nat → Option (List α)
  | 0, _ => some []
  | n + 1, i => do
    let found ← readFiletype known packet i
    if found = filetype then do
      let a ← read (entryAt i)
      let rest ← forEntries known packet filetype read n (i + 1)
      pure (a :: rest)
    else
      forEntries known packet filetype read n (i + 1)

/-- The names that `decode_dir` takes out of a packet: those of folders it appends to the list, and
those of files it gives to `_convert_and_logname`. -/
def decodeDir (known : Nat) (packet : List UInt8) (listdirs : Bool) : Option (List Name) :=
  if listdirs then
    (forEntries known packet 1 (fun entry => readString known packet (entry + 14))
      (entryCount packet) 0).map (List.filter fun name => name ≠ [0x2e, 0x2e])
  else
    forEntries known packet 2 (fun entry => readString known packet (entry + 14))
      (entryCount packet) 0

/-- What `decode_and_get_info` reads of the entry of a file. -/
structure Typefile where
  stamp : List UInt8
  size  : Nat
  name  : Name

/-- The entry of a file. -/
def readTypefile (known : Nat) (packet : List UInt8) (entry : Nat) : Option Typefile := do
  let name ← readString known packet (entry + 14)
  let size ← readBytes known packet (entry + 6) 8
  let stamp ← readBytes known packet entry 5
  pure { stamp := stamp, size := ByteOrder.big.decode size, name := name }

/-- The files that `decode_and_get_info` takes out of a packet. -/
def decodeAndGetInfo (known : Nat) (packet : List UInt8) : Option (List Typefile) :=
  forEntries known packet 2 (readTypefile known packet) (entryCount packet) 0

end GPhoto2.Topfield
