import GPhoto2.Topfield.Packet

/-!
# `GPhoto2.Topfield.GetFile`: downloading a file from a Topfield recorder

`get_file_func` of `puppy.c`, from the request on. The user may cancel whenever the driver asks, and
each append to the file may fail. What the driver answers to the recorder, the turbo mode and the
progress have no effect on the result and are not modelled.
-/

set_option autoImplicit false

namespace GPhoto2.Topfield

open Lib

/-- The state of a transfer. -/
inductive TransferState
  | start
  | data
  | abort
  deriving DecidableEq

/-- What a download works on. -/
structure Download where
  line : Line
  /-- What the user answers to `gp_context_cancel`: to cancel or not. -/
  cancels : List Bool
  /-- What becomes of the appends to the file: they succeed, or fail with an error. -/
  appends : List (Option Int)
  /-- What is in the file. -/
  file : List UInt8
  deriving DecidableEq

/-- A packet in the buffer, with the number of bytes that were read of it. -/
structure Reading where
  r : Nat
  packet : List UInt8

/-- `get_u16 (&reply.length)`. -/
def Reading.length (x : Reading) : Nat := getU16 x.packet 0

/-- `get_u32 (&reply.cmd)`. -/
def Reading.cmd (x : Reading) : Nat := getU32 x.packet 4

/-- `get_u64 (&tf->size)`. -/
def Reading.size (x : Reading) : Nat := getU64 x.packet 14

/-- `get_u64 (reply.data)`. -/
def Reading.offset (x : Reading) : Nat := getU64 x.packet 8

/-- `dataLen`, an `uint16_t`. -/
def Reading.dataLen (x : Reading) : Nat := (x.length + 65536 - (packetHeadSize + 8)) % 65536

/-- The bytes from `reply.data[8]` on. -/
def Reading.bytes (x : Reading) : List UInt8 := (x.packet.drop 16).take x.dataLen

/-- `get_tf_packet` in a download. -/
def getPacket : Comp Download Int (Except Int Reading) := fun s =>
  match getTfPacket s.line with
  | none => none
  | some (.error e, line) => some (.ok (.error e), { s with line := line })
  | some (.ok r, line) =>
    some (.ok (.ok { r := r, packet := line.packet }), { s with line := line })

/-- `gp_context_cancel`, asked at every fourth packet. The state behind it. -/
def askCancel (update : Nat) : Comp Download Int TransferState := fun s =>
  if update ≠ 0 then
    some (.ok .data, s)
  else
    some (.ok (if s.cancels.head? = some true then .abort else .data),
      { s with cancels := s.cancels.tail })

/-- `gp_file_append`. The state behind it. -/
def append (state : TransferState) (bytes : List UInt8) : Comp Download Int TransferState :=
  fun s =>
    match s.appends.head?.join with
    | some _ => some (.ok .abort, { s with appends := s.appends.tail })
    | none => some (.ok state, { s with appends := s.appends.tail, file := s.file ++ bytes })

/-- What becomes of a packet: the state behind it, or the end of the transfer. It is stuck where the
data leave the packet. -/
def onPacket (update : Nat) (state : TransferState) (x : Reading) :
    Comp Download Int (Option TransferState) :=
  if x.cmd = dataHddFileStart then
    if state = .start then pure (some .data) else pure (some .abort)
  else if x.cmd = dataHddFileData then
    if state = .data then do
      let state ← askCancel update
      if packetHeadSize + 8 + x.dataLen > maximumPacketSize then
        Comp.stuck
      else do
        let state ← append state x.bytes
        pure (some state)
    else
      pure (some .abort)
  else if x.cmd = dataHddFileEnd then
    pure none
  else if x.cmd = cmdFail then
    pure (some .abort)
  else if x.cmd = cmdSuccess then
    Comp.throw gpErrorIo
  else
    pure (some state)

/-- The loop of `get_file_func`. -/
def receive : Nat → TransferState → Nat → Comp Download Int Unit
  | 0, _, _ => Comp.stuck
  | fuel + 1, state, update => do
    let result ← getPacket
    match result with
    | .error _ => Comp.throw gpErrorIo
    | .ok x => do
      let next ← onPacket ((update + 1) % 4) state x
      match next with
      | none => pure ()
      | some state => receive fuel state ((update + 1) % 4)

/-- `get_file_func`, for a normal file or another type, with a request that is sent or fails. -/
def getFileFunc (normal requested : Bool) : Comp Download Int Unit :=
  if normal = false then
    Comp.throw gpErrorNotSupported
  else if requested = false then
    Comp.throw gpErrorIo
  else do
    let s ← Comp.get
    receive (s.line.answers.length + 1) .start 0

end GPhoto2.Topfield
