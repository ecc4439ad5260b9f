import GPhoto2.Canon.RecvMsg
import GPhoto2.Proofs.Canon.Serial

/-!
# `GPhoto2.Proofs.Canon.RecvMsg`: which messages are received as they were sent

`transmission` are the packets that a call takes for the message: those from its header on.
`recvMsg_ends` is the outcome of a call for any packets. A message that is returned is made of these
packets in order, whether they are all of it or not (`Accepted`), and the block is overrun just when
a fragment needs more than doubling it once (`Roomy`).

`receivesWhole_iff` compares this with the length that the header announces.
`lostFragment_received` is a message whose text was lost, and which is returned nevertheless.
-/

set_option autoImplicit false

namespace GPhoto2.Canon

open Lib
open List (dropWhile_cons_of_neg dropWhile_sublist length_append length_drop length_take
  tail_sublist takeWhile_cons_of_neg)
open Lib.Comp (Ends bind_run_ok)

/-! ### The packets on the line -/

/-- The first `n` packets on the line, up to one that is not received. -/
def arrivals : Nat → List (Option UInt8) → List Packet
  | 0, _ => []
  | n + 1, line =>
    match recvPacket line with
    | (.packet type seq len data, rest) =>
      { type := type, seq := seq, len := len, data := data } :: arrivals n rest
    | _ => []

/-- The packets on the line. -/
def packetsOn (line : List (Option UInt8)) : List Packet := arrivals (line.length + 1) line

theorem recvFrameLoop_shorter (buffer : List UInt8) (line : List (Option UInt8)) :
    (recvFrameLoop buffer line).2.length ≤ line.length := by
  fun_induction recvFrameLoop buffer line <;> simp only [List.length_cons, List.length_nil] <;>
    omega

variable {line : List (Option UInt8)}

theorem recvFrame_shorter (h : line ≠ []) :
    (recvFrame line).2.length < line.length := by
  induction line with
  | nil => exact absurd rfl h
  | cons c line ih =>
    cases c with
    | none => exact Nat.lt_succ_self _
    | some c =>
      rw [recvFrame, List.length_cons]
      by_cases hbeg : c = cFBEG
      · rw [if_pos hbeg]
        exact Nat.lt_succ_of_le (recvFrameLoop_shorter [] line)
      · rw [if_neg hbeg]
        cases line with
        | nil => exact Nat.lt_succ_self _
        | cons d line =>
          have hshort := ih (List.cons_ne_nil d line)
          omega

variable {seq : UInt8}

/-- A packet is shorter than the line, and so is what it leaves. Its data hold what its length
says. -/
theorem recvPacket_shorter {rest : List (Option UInt8)} {type : UInt8} {len : Nat}
    {data : List UInt8} (h : recvPacket line = (.packet type seq len data, rest)) :
    rest.length < line.length ∧ len ≤ data.length := by
  rw [recvPacket] at h
  have hne : line ≠ [] := by
    rintro rfl
    cases h
  have hshort := recvFrame_shorter hne
  rcases hframe : recvFrame line with ⟨_ | pkt, line'⟩
  · rw [hframe] at h
    cases h
  · rw [hframe] at h hshort
    obtain ⟨hpacket, rfl⟩ := Prod.mk.inj h
    refine ⟨hshort, ?_⟩
    rw [recvPacketOf] at hpacket
    by_cases hlen : pkt.length < pktHdrLen
    · rw [if_pos hlen] at hpacket
      cases hpacket
    rw [if_neg hlen] at hpacket
    by_cases hwrong : pkt.getD 1 0 = pktMsg ∧
        (if pkt.getD 1 0 = pktMsg then (pktWord pkt 2 3).toNat else 0) + pktHdrLen >
          pkt.length - 2
    · rw [if_pos hwrong] at hpacket
      cases hpacket
    rw [if_neg hwrong] at hpacket
    have hheader : pktHdrLen = 4 := rfl
    cases hchk : chkCrc (pkt.take (pkt.length - 2))
        (pktWord pkt (pkt.length - 2) (pkt.length - 1)) with
    | none =>
      rw [hchk] at hpacket
      cases hpacket
    | some right =>
      rw [hchk] at hpacket
      cases right with
      | false => cases hpacket
      | true =>
        simp only [Received.packet.injEq] at hpacket
        obtain ⟨-, -, rfl, rfl⟩ := hpacket
        by_cases hmsg : pkt.getD 1 0 = pktMsg
        · rw [if_pos hmsg] at hwrong ⊢
          have hnot : ¬ (pkt.getD 1 0 = pktAck ∨ pkt.getD 1 0 = pktEot) := by
            rw [hmsg]
            decide
          have hfits := not_and.mp hwrong hmsg
          rw [if_neg hnot, length_drop]
          omega
        · rw [if_neg hmsg]
          exact Nat.zero_le _

/-- How many packets are looked for does not matter, once there are enough. -/
theorem arrivals_eq_packetsOn {n : Nat} (h : line.length < n) :
    arrivals n line = packetsOn line := by
  suffices hsame : ∀ n m line, line.length < n → line.length < m →
      arrivals n line = arrivals m line from hsame n _ line h (Nat.lt_succ_self _)
  intro n
  induction n with
  | zero =>
    intro m line hn _
    omega
  | succ n ih =>
    intro m line hn hm
    obtain ⟨m, rfl⟩ : ∃ k, m = k + 1 := ⟨m - 1, by omega⟩
    rw [arrivals, arrivals]
    rcases hpacket : recvPacket line with ⟨_ | ⟨type, seq, len, data⟩ | _, rest⟩
    · rfl
    · have hshort := (recvPacket_shorter hpacket).1
      show _ :: arrivals n rest = _ :: arrivals m rest
      rw [ih m rest (by omega) (by omega)]
    · rfl

/-- The next packet: it is the first one on the line, and the others are left; or the call ends,
and there is none. -/
theorem recvPkt_ends (s : Receiver) :
    Ends
      (fun x s' => packetsOn s.line = x :: packetsOn s'.line ∧ s' = { s with line := s'.line } ∧
        s'.line.length < s.line.length ∧ x.len ≤ x.data.length)
      (fun e _ => packetsOn s.line = [] ∧ e ≠ .overrun) (recvPkt s) := by
  rw [recvPkt]
  have hpackets : packetsOn s.line = arrivals (s.line.length + 1) s.line := rfl
  rw [arrivals] at hpackets
  rcases hpacket : recvPacket s.line with ⟨_ | ⟨type, seq, len, data⟩ | _, rest⟩ <;>
    rw [hpacket] at hpackets
  · exact ⟨hpackets, by simp⟩
  · obtain ⟨hshort, hlen⟩ := recvPacket_shorter hpacket
    refine ⟨?_, rfl, hshort, hlen⟩
    rw [hpackets]
    show _ :: arrivals s.line.length rest = _
    rw [arrivals_eq_packetsOn hshort]
  · exact ⟨hpackets, by simp⟩

/-! ### Transmissions -/

def Packet.isMsg (x : Packet) : Bool := x.type == pktMsg

def Packet.isEot (x : Packet) : Bool := x.type == pktEot

/-- Behind the request to send the message again: the next message packet begins it, unless the
transmission ends before. -/
def sentAgain (packets : List Packet) : List Packet :=
  packets.dropWhile fun x => !x.isMsg && !x.isEot

/-- The packets from the beginning of the message on. A call that finds an error takes no notice of
the first message packet, and of none before the end of the transmission where the error is yet to
be reported to the camera. -/
def opened : ReceiveError → List Packet → List Packet
  | .noError, packets => packets.dropWhile fun x => !x.isMsg
  | .errorReceived, packets =>
    sentAgain (((packets.dropWhile fun x => !x.isMsg).tail.dropWhile fun x => !x.isEot).tail)
  | .errorAddressed, packets => sentAgain (packets.dropWhile fun x => !x.isMsg).tail
  | .fatalError, _ => []
  | .errorLowbatt, _ => []

/-- The packets that a call takes for its message. -/
def transmission (s : Receiver) : List Packet :=
  (opened s.receiveError (packetsOn s.line)).takeWhile Packet.isMsg

/-- The bytes of all fragments. -/
def whole (packets : List Packet) : List UInt8 := packets.flatMap Packet.fragment

/-- The size of the block when it is to hold `n` bytes: it is doubled once. -/
def grown (allocated : Bool) (size n : Nat) : Nat :=
  if n > size ∨ allocated = false then 2 * size else size

/-- The block is large enough for fragments of these lengths, as far as they do not go beyond the
announced length. -/
def RoomFor (announced : Nat) : Bool → Nat → Nat → List Nat → Prop
  | _, _, _, [] => True
  | allocated, size, pos, len :: lens =>
    pos + len ≤ announced →
      pos + len ≤ grown allocated size (pos + len) ∧
        RoomFor announced true (grown allocated size (pos + len)) (pos + len) lens

/-- The block is large enough for a message that begins as it should. -/
def RoomForMsg (mtype dir : UInt8) (s : Receiver) : List Packet → Prop
  | [] => True
  | x :: packets =>
    x.isMessage = true ∧ x.isExpected mtype dir = true →
      RoomFor x.announced s.msg.isSome s.msgSize 0
        ((x.fragment.drop msgHdrLen).length :: packets.map fun y => y.fragment.length)

/-- No fragment of the message outgrows the block. -/
def Roomy (mtype dir : UInt8) (s : Receiver) : Prop := RoomForMsg mtype dir s (transmission s)

/-- The fragments of these packets do not go beyond the length that the header announces, and the
header is as it should be. Where there are no packets, an earlier call has left a block. -/
def Formed (mtype dir : UInt8) (s : Receiver) : List Packet → Prop
  | [] => s.msg ≠ none
  | x :: packets =>
    (x.isMessage = true ∧ x.isExpected mtype dir = true) ∧
      (whole (x :: packets)).length ≤ msgHdrLen + x.announced

/-- The transmission is followed by its end, with this sequence number. -/
def ClosedBy (seq : UInt8) (packets : List Packet) : Prop :=
  ∃ x, (packets.dropWhile Packet.isMsg).head? = some x ∧ x.isEot = true ∧ x.seq = seq

/-- The sequence number that is expected. Where an error is yet to be reported it is the one that
the packets give themselves. -/
def closingSeq (s : Receiver) : UInt8 :=
  if s.receiveError = .errorReceived then
    ((((packetsOn s.line).dropWhile fun x => !x.isMsg).tail.dropWhile
      fun x => !x.isEot).head?.map Packet.seq).getD s.seqRx
  else
    s.seqRx

/-- These packets, from the beginning of the message on, make a message. -/
def Taken (mtype dir seq : UInt8) (s : Receiver) (packets : List Packet) : Prop :=
  RoomForMsg mtype dir s (packets.takeWhile Packet.isMsg) ∧
    Formed mtype dir s (packets.takeWhile Packet.isMsg) ∧ ClosedBy seq packets

/-- The packets on the line make a message. -/
def Accepted (mtype dir : UInt8) (s : Receiver) : Prop :=
  Taken mtype dir (closingSeq s) s (opened s.receiveError (packetsOn s.line))

/-- A call with these packets returns what they are, and they make a message. -/
def Returns (mtype dir seq : UInt8) (s : Receiver) (packets : List Packet) (m : List UInt8)
    (_ : Receiver) : Prop :=
  m = (whole (packets.takeWhile Packet.isMsg)).drop msgHdrLen ∧ Taken mtype dir seq s packets

/-- A call with these packets overruns the block, or they make no message. -/
def Fails (mtype dir seq : UInt8) (s : Receiver) (packets : List Packet) (e : Failure)
    (_ : Receiver) : Prop :=
  (e = .overrun ↔ ¬ RoomForMsg mtype dir s (packets.takeWhile Packet.isMsg)) ∧
    ¬ Taken mtype dir seq s packets

/-! ### The loops -/

variable {x : Packet}

theorem isMsg_eq_true : x.isMsg = true ↔ x.type = pktMsg := beq_iff_eq

theorem isEot_eq_true : x.isEot = true ↔ x.type = pktEot := beq_iff_eq

/-- The header of a message is checked: it is as it should be, or the call ends. -/
theorem checkHeader_ends (mtype dir : UInt8) (x : Packet) (s : Receiver) :
    Ends
      (fun _ s' => s' = s ∧ x.isMessage = true ∧ x.isExpected mtype dir = true)
      (fun e _ => e = .null ∧ ¬ (x.isMessage = true ∧ x.isExpected mtype dir = true))
      (checkHeader mtype dir x s) := by
  rw [checkHeader]
  refine Ends.ite (fun hmessage => ?_) fun hmessage => ?_
  · refine ⟨rfl, fun hboth => ?_⟩
    rw [hmessage] at hboth
    cases hboth.1
  refine Ends.ite (fun hexpected => ?_) fun hexpected => ?_
  · have hnot : ¬ (x.isMessage = true ∧ x.isExpected mtype dir = true) := by
      intro hboth
      rw [hexpected] at hboth
      cases hboth.2
    exact Ends.ite (fun _ => ⟨rfl, hnot⟩) fun _ => ⟨rfl, hnot⟩
  · exact ⟨rfl, Bool.eq_true_of_not_eq_false hmessage, Bool.eq_true_of_not_eq_false hexpected⟩

theorem whole_cons (x : Packet) (packets : List Packet) :
    whole (x :: packets) = x.fragment ++ whole packets := List.flatMap_cons

theorem not_closedBy_nil : ¬ ClosedBy seq [] := by
  intro hclosed
  obtain ⟨x, hx, -⟩ := hclosed
  cases hx

variable {packets : List Packet}

theorem closedBy_cons_of_msg
    (hmsg : x.isMsg = true) : ClosedBy seq (x :: packets) ↔ ClosedBy seq packets := by
  rw [ClosedBy, ClosedBy, List.dropWhile_cons_of_pos hmsg]

theorem closedBy_cons_of_not_msg (hmsg : ¬ x.isMsg = true) :
    ClosedBy seq (x :: packets) ↔ x.isEot = true ∧ x.seq = seq := by
  rw [ClosedBy, dropWhile_cons_of_neg hmsg]
  simp

section
variable {mtype dir : UInt8} {announced : Nat} {frag : List UInt8} {s : Receiver}

theorem keepFragment_open {pos : Nat}
    (herror : s.receiveError = .noError) (hwithin : pos + frag.length ≤ announced) :
    keepFragment announced pos frag s =
      if pos + frag.length ≤ grown s.msg.isSome s.msgSize (pos + frag.length) then
        some (.ok (pos + frag.length), { s with
          msgSize := grown s.msg.isSome s.msgSize (pos + frag.length)
          msg     := some ((s.msg.getD []).take pos ++ frag ++
            (s.msg.getD []).drop (pos + frag.length)) })
      else
        some (.error .overrun, { s with
          msgSize := grown s.msg.isSome s.msgSize (pos + frag.length)
          msg     := some (s.msg.getD []) }) := by
  have hsize : (if pos + frag.length > s.msgSize ∨ s.msg = none then 2 * s.msgSize
      else s.msgSize) = grown s.msg.isSome s.msgSize (pos + frag.length) := by
    cases s.msg <;> simp [grown]
  rw [keepFragment, if_neg (not_not.mpr herror), if_neg (Nat.not_lt.mpr hwithin)]
  dsimp only
  rw [hsize]
  by_cases hfits : pos + frag.length ≤ grown s.msg.isSome s.msgSize (pos + frag.length)
  · rw [if_neg (Nat.not_lt.mpr hfits), if_pos hfits]
  · rw [if_pos (Nat.lt_of_not_le hfits), if_neg hfits]

/-- The loop copies these fragments, and the end of the transmission follows them. -/
def Copied (announced : Nat) (s : Receiver) (pos len : Nat) (packets : List Packet) : Prop :=
  RoomFor announced s.msg.isSome s.msgSize pos
      (len :: (packets.takeWhile Packet.isMsg).map fun y => y.fragment.length) ∧
    pos + len + (whole (packets.takeWhile Packet.isMsg)).length ≤ announced ∧
      ClosedBy s.seqRx packets

theorem roomFor_cons {announced pos len size : Nat} {allocated : Bool} {lens : List Nat}
    (hwithin : pos + len ≤ announced) (hfits : pos + len ≤ grown allocated size (pos + len)) :
    RoomFor announced allocated size pos (len :: lens) ↔
      RoomFor announced true (grown allocated size (pos + len)) (pos + len) lens :=
  ⟨fun h => (h hwithin).2, fun h _ => ⟨hfits, h⟩⟩

theorem copied_cons_of_not_msg {announced pos len : Nat} {s : Receiver} {x : Packet}
    {packets : List Packet} (hmsg : ¬ x.isMsg = true) (hwithin : pos + len ≤ announced)
    (hlast : RoomFor announced s.msg.isSome s.msgSize pos [len]) :
    Copied announced s pos len (x :: packets) ↔ x.isEot = true ∧ x.seq = s.seqRx := by
  rw [Copied, closedBy_cons_of_not_msg hmsg, takeWhile_cons_of_neg hmsg]
  exact ⟨fun h => h.2.2, fun h => ⟨hlast, hwithin, h⟩⟩

/-- The loop while there is no error: the fragments are copied one behind the other. -/
theorem receiveRest_open {fuel announced pos : Nat} {frag : List UInt8} {s : Receiver}
    (herror : s.receiveError = .noError) (hfuel : s.line.length < fuel)
    (hpos : pos ≤ (s.msg.getD []).length) :
    Ends
      (fun m _ => m = (s.msg.getD []).take pos ++ frag ++
          whole ((packetsOn s.line).takeWhile Packet.isMsg) ∧
        Copied announced s pos frag.length (packetsOn s.line))
      (fun e _ => (e = .overrun ↔ ¬ RoomFor announced s.msg.isSome s.msgSize pos
          (frag.length :: ((packetsOn s.line).takeWhile Packet.isMsg).map
            fun y => y.fragment.length)) ∧
        ¬ Copied announced s pos frag.length (packetsOn s.line))
      (receiveRest mtype dir fuel announced pos frag s) := by
  induction fuel generalizing pos frag s with
  | zero => omega
  | succ fuel ih =>
    rw [receiveRest]
    by_cases hwithin : pos + frag.length ≤ announced
    swap
    · -- more than was announced: the message is refused, and nothing is copied
      have hkeep : keepFragment announced pos frag s = some (.error .null, s) := by
        rw [keepFragment, if_neg (not_not.mpr herror), if_pos (Nat.lt_of_not_le hwithin)]
      rw [Comp.bind_run_error hkeep]
      show (Failure.null = Failure.overrun ↔ _) ∧ _
      refine ⟨iff_of_false (by simp) (not_not.mpr fun hle => absurd hle hwithin), ?_⟩
      intro hcopied
      have hsum := hcopied.2.1
      omega
    have hkeep := keepFragment_open herror hwithin
    by_cases hfits : pos + frag.length ≤ grown s.msg.isSome s.msgSize (pos + frag.length)
    swap
    · rw [if_neg hfits] at hkeep
      rw [Comp.bind_run_error hkeep]
      exact ⟨iff_of_true rfl fun hroom => hfits (hroom hwithin).1,
        fun hcopied => hfits (hcopied.1 hwithin).1⟩
    rw [if_pos hfits] at hkeep
    rw [bind_run_ok hkeep]
    have hcopied : ((s.msg.getD []).take pos ++ frag ++
        (s.msg.getD []).drop (pos + frag.length)).take (pos + frag.length) =
          (s.msg.getD []).take pos ++ frag := by
      refine List.take_left' ?_
      rw [length_append, length_take, Nat.min_eq_left hpos]
    have hlast : RoomFor announced s.msg.isSome s.msgSize pos [frag.length] :=
      fun _ => ⟨hfits, trivial⟩
    refine Ends.bind ((recvPkt_ends _).mono (fun _ _ => id) fun e _ he => ?_) ?_
    · have hpackets : packetsOn s.line = [] := he.1
      rw [hpackets]
      exact ⟨iff_of_false he.2 (not_not.mpr hlast), fun h => not_closedBy_nil h.2.2⟩
    rintro x s₂ ⟨hpackets, hs₂, hshort, -⟩
    have hpackets' : packetsOn s.line = x :: packetsOn s₂.line := hpackets
    have herror₂ : s₂.receiveError = .noError := by
      rw [hs₂]
      exact herror
    have hseq₂ : s₂.seqRx = s.seqRx := by rw [hs₂]
    rw [hpackets']
    refine Ends.get_bind ?_
    by_cases hmsg : x.isMsg = true
    swap
    · -- the last fragment: the end of the transmission closes the message, if it is expected
      have hclosed := @copied_cons_of_not_msg announced pos frag.length s x (packetsOn s₂.line) hmsg
        hwithin hlast
      have hnone : (x :: packetsOn s₂.line).takeWhile Packet.isMsg = [] :=
        takeWhile_cons_of_neg hmsg
      rw [hnone]
      refine Ends.ite (fun heot => ?_) fun heot => ?_
      · rw [if_neg (by rw [herror₂]; decide)]
        refine Ends.ite (fun hseq => ?_) fun hseq => ?_
        · rw [finish, if_pos (Or.inl herror₂), hs₂]
          refine ⟨?_, hclosed.mpr ⟨isEot_eq_true.mpr heot, hseq.trans hseq₂⟩⟩
          rw [hcopied]
          exact (List.append_nil _).symm
        · exact ⟨iff_of_false (by simp) (not_not.mpr hlast),
            fun h => hseq ((hclosed.mp h).2.trans hseq₂.symm)⟩
      · rw [if_pos fun h => hmsg (isMsg_eq_true.mpr h), if_pos herror₂]
        exact ⟨iff_of_false (by simp) (not_not.mpr hlast),
          fun h => heot (isEot_eq_true.mp (hclosed.mp h).1)⟩
    · -- another fragment: the loop goes on with the block as it is now
      have htype : x.type = pktMsg := isMsg_eq_true.mp hmsg
      rw [if_neg (by rw [htype]; decide), if_neg (not_not.mpr htype),
        if_neg (by rw [herror₂]; decide)]
      have hmsg₂ : s₂.msg = some ((s.msg.getD []).take pos ++ frag ++
          (s.msg.getD []).drop (pos + frag.length)) := by rw [hs₂]
      have hsize₂ : s₂.msgSize = grown s.msg.isSome s.msgSize (pos + frag.length) := by rw [hs₂]
      have hmore : (x :: packetsOn s₂.line).takeWhile Packet.isMsg =
          x :: (packetsOn s₂.line).takeWhile Packet.isMsg := List.takeWhile_cons_of_pos hmsg
      have hroom := fun lens => @roomFor_cons announced pos frag.length s.msgSize s.msg.isSome lens
        hwithin hfits
      have hcopied₂ : Copied announced s pos frag.length (x :: packetsOn s₂.line) ↔
          Copied announced s₂ (pos + frag.length) x.fragment.length (packetsOn s₂.line) := by
        rw [Copied, Copied, closedBy_cons_of_msg hmsg, hmore, hroom, hmsg₂, hsize₂, hseq₂,
          whole_cons, length_append, Nat.add_assoc (pos + frag.length)]
        rfl
      have hrest := @ih (pos + frag.length) x.fragment s₂ herror₂
        (by have hline : s₂.line.length < s.line.length := hshort; omega)
        (by
          rw [hmsg₂, Option.getD_some, length_append, length_append, length_take,
            Nat.min_eq_left hpos]
          omega)
      rw [hmsg₂, hsize₂] at hrest
      rw [hmore, hroom, hcopied₂]
      refine hrest.mono (fun m _ hm => ?_) fun e _ he => he
      refine ⟨?_, hm.2⟩
      rw [hm.1, Option.getD_some, hcopied, whole_cons, List.append_assoc (List.take pos _ ++ frag)]

variable {fuel : Nat}

theorem receiveMsg_ends {x : Packet} (hmsg : x.isMsg = true)
    (hlen : x.len ≤ x.data.length) (hfuel : s.line.length < fuel)
    {k : Unit → Comp Receiver Failure (List UInt8)}
    (hk : k () s = receiveRest mtype dir fuel x.announced 0 (x.fragment.drop msgHdrLen)
      { s with receiveError := .noError }) :
    Ends (Returns mtype dir s.seqRx s (x :: packetsOn s.line))
      (Fails mtype dir s.seqRx s (x :: packetsOn s.line)) ((checkHeader mtype dir x >>= k) s) := by
  have htake : (x :: packetsOn s.line).takeWhile Packet.isMsg =
      x :: (packetsOn s.line).takeWhile Packet.isMsg := List.takeWhile_cons_of_pos hmsg
  refine Ends.bind ((checkHeader_ends mtype dir x s).mono (fun _ _ => id) fun e _ he => ?_) ?_
  · rw [Fails, Taken, htake, he.1]
    exact ⟨iff_of_false (by simp) (not_not.mpr fun hboth => absurd hboth he.2),
      fun htaken => he.2 htaken.2.1.1⟩
  rintro _ s₁ ⟨rfl, hheader⟩
  rw [hk]
  have hlong : msgHdrLen ≤ x.fragment.length := by
    have hmessage := hheader.1
    rw [Packet.isMessage, Bool.and_eq_true, decide_eq_true_eq] at hmessage
    rw [Packet.fragment, length_take, Nat.min_eq_left hlen]
    exact hmessage.1
  have hroom : RoomForMsg mtype dir s₁ ((x :: packetsOn s₁.line).takeWhile Packet.isMsg) ↔
      RoomFor x.announced s₁.msg.isSome s₁.msgSize 0 ((x.fragment.drop msgHdrLen).length ::
        ((packetsOn s₁.line).takeWhile Packet.isMsg).map fun y => y.fragment.length) := by
    rw [htake]
    exact ⟨fun h => h hheader, fun h _ => h⟩
  have htaken : Taken mtype dir s₁.seqRx s₁ (x :: packetsOn s₁.line) ↔
      Copied x.announced { s₁ with receiveError := .noError } 0 (x.fragment.drop msgHdrLen).length
        (packetsOn s₁.line) := by
    rw [Taken, hroom, closedBy_cons_of_msg hmsg, htake, Copied, Formed, whole_cons,
      length_append, length_drop]
    refine and_congr_right fun _ => and_congr_left fun _ => ?_
    exact ⟨fun h => by have hsum := h.2; omega, fun h => ⟨hheader, by omega⟩⟩
  have hopen := @receiveRest_open mtype dir fuel x.announced 0 (x.fragment.drop msgHdrLen)
    { s₁ with receiveError := .noError } rfl hfuel (Nat.zero_le _)
  refine hopen.mono (fun m _ hm => ?_) fun e _ he => ?_
  · refine ⟨?_, htaken.mpr hm.2⟩
    rw [hm.1, List.take_zero, List.nil_append, htake, whole_cons]
    exact (List.drop_append_of_le_length hlong).symm
  · rw [Fails, hroom, htaken]
    exact he

theorem keepFragment_error {pos : Nat}
    (herror : s.receiveError ≠ .noError) :
    keepFragment announced pos frag s = some (.ok pos, s) := if_pos herror

theorem outcome_congr (mtype dir seq : UInt8) {s' : Receiver} (hmsg : s.msg = s'.msg)
    (hsize : s.msgSize = s'.msgSize) (packets : List Packet) :
    Returns mtype dir seq s packets = Returns mtype dir seq s' packets ∧
      Fails mtype dir seq s packets = Fails mtype dir seq s' packets := by
  have hroom : RoomForMsg mtype dir s (packets.takeWhile Packet.isMsg) =
      RoomForMsg mtype dir s' (packets.takeWhile Packet.isMsg) := by
    cases packets.takeWhile Packet.isMsg with
    | nil => rfl
    | cons y packets => rw [RoomForMsg, RoomForMsg, hmsg, hsize]
  have hformed : Formed mtype dir s (packets.takeWhile Packet.isMsg) =
      Formed mtype dir s' (packets.takeWhile Packet.isMsg) := by
    cases packets.takeWhile Packet.isMsg with
    | nil => rw [Formed, Formed, hmsg]
    | cons y packets => rfl
  have htaken : Taken mtype dir seq s packets = Taken mtype dir seq s' packets := by
    rw [Taken, Taken, hroom, hformed]
  constructor
  · funext m _
    rw [Returns, Returns, htaken]
  · funext e _
    rw [Fails, Fails, htaken, hroom]

theorem fails_nil {seq : UInt8} {s' : Receiver} {e : Failure} (he : e ≠ .overrun) :
    Fails mtype dir seq s [] e s' :=
  ⟨iff_of_false he (not_not.mpr trivial), fun htaken => not_closedBy_nil htaken.2.2⟩

theorem receiveRest_addressed {fuel announced : Nat} {frag : List UInt8} {s : Receiver}
    (herror : s.receiveError = .errorAddressed) (hfuel : s.line.length < fuel) :
    Ends (Returns mtype dir s.seqRx s (sentAgain (packetsOn s.line)))
      (Fails mtype dir s.seqRx s (sentAgain (packetsOn s.line)))
      (receiveRest mtype dir fuel announced 0 frag s) := by
  induction fuel generalizing frag s with
  | zero => omega
  | succ fuel ih =>
    have hkeep : keepFragment announced 0 frag s = some (.ok 0, s) :=
      keepFragment_error (by rw [herror]; decide)
    rw [receiveRest, bind_run_ok hkeep]
    refine Ends.bind ((recvPkt_ends s).mono (fun _ _ => id) fun e _ he => ?_) ?_
    · rw [he.1]
      exact fails_nil he.2
    rintro x s₂ ⟨hpackets, hs₂, hshort, hlen⟩
    have herror₂ : s₂.receiveError = .errorAddressed := by
      rw [hs₂]
      exact herror
    have hseq₂ : s.seqRx = s₂.seqRx := by rw [hs₂]
    have hmsg₂ : s.msg = s₂.msg := by rw [hs₂]
    have hsize₂ : s.msgSize = s₂.msgSize := by rw [hs₂]
    have hsame := outcome_congr mtype dir s₂.seqRx hmsg₂ hsize₂ (sentAgain (packetsOn s.line))
    rw [hseq₂, hsame.1, hsame.2, hpackets, sentAgain]
    refine Ends.get_bind ?_
    by_cases hmsg : x.isMsg = true
    · -- the message is sent again, and begins here
      have htype : x.type = pktMsg := isMsg_eq_true.mp hmsg
      rw [if_neg (by rw [htype]; decide), if_neg (not_not.mpr htype), if_pos herror₂,
        dropWhile_cons_of_neg (by simp [hmsg])]
      exact receiveMsg_ends hmsg hlen (by omega) rfl
    have htype : x.type ≠ pktMsg := fun h => hmsg (isMsg_eq_true.mpr h)
    refine Ends.ite (fun heot => ?_) fun heot => ?_
    · -- there is no message: what is returned is the block as an earlier call has left it
      have hclosed : Taken mtype dir s₂.seqRx s₂ (x :: packetsOn s₂.line) ↔
          s₂.msg ≠ none ∧ x.seq = s₂.seqRx := by
        rw [Taken, closedBy_cons_of_not_msg hmsg, takeWhile_cons_of_neg hmsg]
        exact ⟨fun h => ⟨h.2.1, h.2.2.2⟩, fun h => ⟨trivial, h.1, isEot_eq_true.mpr heot, h.2⟩⟩
      have hfails : ∀ s', ¬ (s₂.msg ≠ none ∧ x.seq = s₂.seqRx) →
          Fails mtype dir s₂.seqRx s₂ (x :: packetsOn s₂.line) .null s' := by
        intro s' hnot
        rw [Fails, hclosed, takeWhile_cons_of_neg hmsg]
        exact ⟨iff_of_false (by simp) (not_not.mpr trivial), hnot⟩
      rw [dropWhile_cons_of_neg (by simp [isEot_eq_true.mpr heot]),
        if_neg (by rw [herror₂]; decide)]
      refine Ends.ite (fun hseq => ?_) fun hseq => ?_
      · rw [finish, if_pos (Or.inr herror₂)]
        cases hleft : s₂.msg with
        | none => exact hfails s₂ fun h => h.1 hleft
        | some msg =>
          refine ⟨?_, hclosed.mpr ⟨?_, hseq⟩⟩
          · rw [takeWhile_cons_of_neg hmsg]
            rfl
          · rw [hleft]
            exact Option.some_ne_none msg
      · exact hfails s₂ fun h => hseq h.2
    · have hnoteot : x.isEot = false := Bool.eq_false_iff.mpr fun h => heot (isEot_eq_true.mp h)
      have hnotmsg : x.isMsg = false := Bool.eq_false_iff.mpr hmsg
      rw [if_pos htype, if_neg (by rw [herror₂]; decide),
        List.dropWhile_cons_of_pos (by simp [hnotmsg, hnoteot])]
      exact ih herror₂ (by omega)

theorem receiveRest_received {seq : UInt8}
    (herror : s.receiveError = .errorReceived) (hfuel : s.line.length < fuel) :
    Ends
      (Returns mtype dir ((((packetsOn s.line).dropWhile fun x => !x.isEot).head?.map
        Packet.seq).getD seq) s (sentAgain ((packetsOn s.line).dropWhile fun x => !x.isEot).tail))
      (Fails mtype dir ((((packetsOn s.line).dropWhile fun x => !x.isEot).head?.map
        Packet.seq).getD seq) s (sentAgain ((packetsOn s.line).dropWhile fun x => !x.isEot).tail))
      (receiveRest mtype dir fuel announced 0 frag s) := by
  induction fuel generalizing frag s with
  | zero => omega
  | succ fuel ih =>
    have hkeep : keepFragment announced 0 frag s = some (.ok 0, s) :=
      keepFragment_error (by rw [herror]; decide)
    rw [receiveRest, bind_run_ok hkeep]
    refine Ends.bind ((recvPkt_ends s).mono (fun _ _ => id) fun e _ he => ?_) ?_
    · rw [he.1]
      exact fails_nil he.2
    rintro x s₂ ⟨hpackets, hs₂, hshort, -⟩
    have herror₂ : s₂.receiveError = .errorReceived := by
      rw [hs₂]
      exact herror
    have hmsg₂ : s.msg = s₂.msg := by rw [hs₂]
    have hsize₂ : s.msgSize = s₂.msgSize := by rw [hs₂]
    rw [hpackets]
    refine Ends.get_bind (Ends.ite (fun heot => ?_) fun heot => ?_)
    · -- the error is reported, and the message is asked for once more
      rw [if_pos herror₂, dropWhile_cons_of_neg (by simp [isEot_eq_true.mpr heot])]
      show Ends (Returns mtype dir x.seq s (sentAgain (packetsOn s₂.line)))
        (Fails mtype dir x.seq s (sentAgain (packetsOn s₂.line))) _
      have hline : s₂.line.length < fuel := by omega
      have hagain := @receiveRest_addressed mtype dir fuel announced x.fragment
        { s₂ with
          seqRx        := x.seq
          receiveError := .errorAddressed
          acks         := s₂.acks ++ [(pktNack, x.seq)] } rfl hline
      have hsame := outcome_congr mtype dir x.seq hmsg₂ hsize₂ (sentAgain (packetsOn s₂.line))
      rw [hsame.1, hsame.2]
      exact hagain
    have hnoteot : x.isEot = false := Bool.eq_false_iff.mpr fun h => heot (isEot_eq_true.mp h)
    rw [List.dropWhile_cons_of_pos (by simp [hnoteot]),
      (outcome_congr mtype dir _ hmsg₂ hsize₂ _).1, (outcome_congr mtype dir _ hmsg₂ hsize₂ _).2]
    refine Ends.ite (fun _ => ?_) fun _ => ?_
    · rw [if_neg (by rw [herror₂]; decide)]
      exact ih herror₂ (by omega)
    · rw [if_neg (by rw [herror₂]; decide)]
      exact ih herror₂ (by omega)

/-- The loop once the camera is lost or has no power: there will be no message. -/
theorem receiveRest_lost (herror : s.receiveError = .fatalError ∨ s.receiveError = .errorLowbatt)
    (hfuel : s.line.length < fuel) :
    Ends (fun _ _ => False) (fun e _ => e ≠ .overrun)
      (receiveRest mtype dir fuel announced 0 frag s) := by
  induction fuel generalizing frag s with
  | zero => omega
  | succ fuel ih =>
    have hsome : s.receiveError ≠ .noError ∧ s.receiveError ≠ .errorReceived ∧
        s.receiveError ≠ .errorAddressed := by
      rcases herror with h | h <;> rw [h] <;> decide
    rw [receiveRest, bind_run_ok (keepFragment_error hsome.1)]
    refine Ends.bind ((recvPkt_ends s).mono (fun _ _ => id) fun _ _ he => he.2) ?_
    rintro x s₂ ⟨-, hs₂, hshort, -⟩
    have herror₂ : s₂.receiveError = s.receiveError := by rw [hs₂]
    rw [← herror₂] at hsome herror
    refine Ends.get_bind (Ends.ite (fun _ => ?_) fun _ => ?_)
    · rw [if_neg hsome.2.1]
      refine Ends.ite (fun _ => ?_) fun _ => ?_
      · rw [finish, if_neg (not_or.mpr ⟨hsome.1, hsome.2.2⟩)]
        exact fun h => by cases h
      · exact fun h => by cases h
    refine Ends.ite (fun _ => ?_) fun _ => ?_
    · rw [if_neg hsome.1]
      exact ih herror (by omega)
    · rw [if_neg hsome.2.2]
      exact ih herror (by omega)

theorem firstMsg_ends (hfuel : s.line.length < fuel) :
    Ends
      (fun x s' => (packetsOn s.line).dropWhile (fun x => !x.isMsg) = x :: packetsOn s'.line ∧
        s'.receiveError = s.receiveError ∧ s'.seqRx = s.seqRx ∧ s'.msg = s.msg ∧
        s'.msgSize = s.msgSize ∧ x.isMsg = true ∧ x.len ≤ x.data.length)
      (fun e _ => (packetsOn s.line).dropWhile (fun x => !x.isMsg) = [] ∧ e ≠ .overrun)
      (firstMsg fuel s) := by
  induction fuel generalizing s with
  | zero => omega
  | succ fuel ih =>
    rw [firstMsg]
    refine Ends.bind ((recvPkt_ends s).mono (fun _ _ => id) fun e _ he => ?_) ?_
    · rw [he.1]
      exact ⟨rfl, he.2⟩
    rintro x s₂ ⟨hpackets, hs₂, hshort, hlen⟩
    rw [hpackets]
    refine Ends.ite (fun hmsg => ?_) fun hmsg => ?_
    · have hmsg' := isMsg_eq_true.mpr hmsg
      refine ⟨dropWhile_cons_of_neg (by simp [hmsg']), ?_, ?_, ?_, ?_, hmsg', hlen⟩ <;>
        rw [hs₂]
    have hnotmsg : x.isMsg = false := Bool.eq_false_iff.mpr fun h => hmsg (isMsg_eq_true.mp h)
    rw [List.dropWhile_cons_of_pos (by simp [hnotmsg])]
    have hrest : ∀ s₃ : Receiver, s₃.line = s₂.line → s₃.receiveError = s.receiveError →
        s₃.seqRx = s.seqRx → s₃.msg = s.msg → s₃.msgSize = s.msgSize →
        Ends
          (fun x s' => (packetsOn s₂.line).dropWhile (fun x => !x.isMsg) = x :: packetsOn s'.line ∧
            s'.receiveError = s.receiveError ∧ s'.seqRx = s.seqRx ∧ s'.msg = s.msg ∧
            s'.msgSize = s.msgSize ∧ x.isMsg = true ∧ x.len ≤ x.data.length)
          (fun e _ => (packetsOn s₂.line).dropWhile (fun x => !x.isMsg) = [] ∧ e ≠ .overrun)
          (firstMsg fuel s₃) := by
      intro s₃ hline herror hseq hmsg₃ hsize
      have h := @ih s₃ (by rw [hline]; omega)
      rwa [hline, herror, hseq, hmsg₃, hsize] at h
    refine Ends.ite (fun _ => ?_) fun _ => ?_
    · refine Ends.modify_bind (hrest _ rfl ?_ ?_ ?_ ?_) <;> rw [hs₂]
    · refine hrest s₂ rfl ?_ ?_ ?_ ?_ <;> rw [hs₂]

/-- The outcome of a call, for any packets: it returns the bytes of its transmission behind the
header where this is accepted, and fails otherwise; and it overruns the block just when a fragment
outgrows it. -/
theorem recvMsg_ends (mtype dir : UInt8) (s : Receiver) :
    Ends
      (fun m _ => m = (whole (transmission s)).drop msgHdrLen ∧ Accepted mtype dir s)
      (fun e _ => (e = .overrun ↔ ¬ Roomy mtype dir s) ∧ ¬ Accepted mtype dir s)
      (recvMsg mtype dir s) := by
  show Ends
    (Returns mtype dir (closingSeq s) s (opened s.receiveError (packetsOn s.line)))
    (Fails mtype dir (closingSeq s) s (opened s.receiveError (packetsOn s.line))) _
  rw [recvMsg]
  refine Ends.get_bind (Ends.bind ((firstMsg_ends (Nat.lt_succ_self _)).mono
    (fun _ _ => id) fun e _ he => ?_) ?_)
  · have hnone : opened s.receiveError (packetsOn s.line) = [] := by
      cases s.receiveError <;> simp [opened, he.1, sentAgain]
    rw [hnone]
    exact fails_nil he.2
  rintro x s₁ ⟨hpackets, herror, hseq, hmsg, hsize, hismsg, hlen⟩
  rw [← (outcome_congr mtype dir _ hmsg hsize _).1, ← (outcome_congr mtype dir _ hmsg hsize _).2,
    closingSeq, ← herror, ← hseq, hpackets]
  refine Ends.get_bind ?_
  cases hcase : s₁.receiveError with
  | noError =>
    have hnoerror : ({ s₁ with receiveError := .noError } : Receiver) = s₁ := by
      rw [← hcase]
    rw [if_pos rfl, if_neg (by decide), opened, hpackets]
    refine receiveMsg_ends hismsg hlen (Nat.lt_succ_self _) ?_
    rw [hnoerror]
  | errorReceived =>
    rw [if_pos rfl, if_neg (by decide), opened, hpackets]
    exact receiveRest_received hcase (Nat.lt_succ_self _)
  | errorAddressed =>
    rw [if_neg (by decide), if_neg (by decide), opened, hpackets]
    exact receiveRest_addressed hcase (Nat.lt_succ_self _)
  | fatalError =>
    rw [if_neg (by decide)]
    exact (receiveRest_lost (Or.inl hcase) (Nat.lt_succ_self _)).mono (fun _ _ => False.elim)
      fun e _ he => fails_nil he
  | errorLowbatt =>
    rw [if_neg (by decide)]
    exact (receiveRest_lost (Or.inr hcase) (Nat.lt_succ_self _)).mono (fun _ _ => False.elim)
      fun e _ he => fails_nil he

end

theorem len_le_of_mem_arrivals {n : Nat}
    (hx : x ∈ arrivals n line) : x.len ≤ x.data.length := by
  induction n generalizing line with
  | zero => cases hx
  | succ n ih =>
    rw [arrivals] at hx
    rcases hpacket : recvPacket line with ⟨_ | ⟨type, seq, len, data⟩ | _, rest⟩ <;>
      rw [hpacket] at hx
    · cases hx
    · rcases List.mem_cons.mp hx with rfl | hmem
      · exact (recvPacket_shorter hpacket).2
      · exact ih hmem
    · cases hx

theorem sentAgain_sublist (packets : List Packet) : (sentAgain packets).Sublist packets :=
  dropWhile_sublist _

/-- The transmission is part of what is on the line. -/
theorem transmission_sublist (s : Receiver) : (transmission s).Sublist (packetsOn s.line) := by
  refine (List.takeWhile_sublist _).trans ?_
  cases s.receiveError with
  | noError => exact dropWhile_sublist _
  | errorReceived =>
    exact (sentAgain_sublist _).trans ((tail_sublist _).trans ((dropWhile_sublist _).trans
      ((tail_sublist _).trans (dropWhile_sublist _))))
  | errorAddressed =>
    exact (sentAgain_sublist _).trans ((tail_sublist _).trans (dropWhile_sublist _))
  | fatalError => exact List.nil_sublist _
  | errorLowbatt => exact List.nil_sublist _

/-- These packets are all of what the header of the first one announces. -/
def Whole : List Packet → Prop
  | [] => False
  | x :: packets => (whole (x :: packets)).length = x.announced

theorem le_length_whole {mtype dir : UInt8} {s : Receiver}
    (haccepted : Accepted mtype dir s) (hpackets : transmission s = x :: packets) :
    msgHdrLen ≤ (whole (x :: packets)).length := by
  have hformed : Formed mtype dir s (transmission s) := haccepted.2.1
  rw [hpackets] at hformed
  have hmessage := hformed.1.1
  rw [Packet.isMessage, Bool.and_eq_true, decide_eq_true_eq] at hmessage
  have hmem : x ∈ packetsOn s.line := by
    refine (transmission_sublist s).subset ?_
    rw [hpackets]
    exact List.mem_cons_self
  have hlen := len_le_of_mem_arrivals hmem
  have hlong : msgHdrLen ≤ x.len := hmessage.1
  rw [whole_cons, length_append, Packet.fragment, length_take]
  omega

/-- What the callers of `canon_serial_recv_msg` rely on: a message that is returned is made of the
fragments of its transmission and has the length that its header announces, less the header; and no
fragment is copied beyond the block. -/
def ReceivesWhole (mtype dir : UInt8) (s : Receiver) : Prop :=
  (∀ m s', recvMsg mtype dir s = some (.ok m, s') →
      ∃ x packets, transmission s = x :: packets ∧ m = (whole (x :: packets)).drop msgHdrLen ∧
        (m.length : Int) = (x.announced : Int) - msgHdrLen) ∧
    ∀ s', recvMsg mtype dir s ≠ some (.error .overrun, s')

/-- **Which messages are received as they were sent.** No fragment that counts outgrows the block,
and packets that make a message are all of what its header announces. -/
theorem receivesWhole_iff (mtype dir : UInt8) (s : Receiver) :
    ReceivesWhole mtype dir s ↔
      Roomy mtype dir s ∧ (Accepted mtype dir s → Whole (transmission s)) := by
  have hends := recvMsg_ends mtype dir s
  constructor
  · intro hreceives
    refine ⟨?_, fun haccepted => ?_⟩
    · by_contra hroomy
      obtain ⟨e, s', hrun, he⟩ := hends.exists_error fun m _ hm => hroomy hm.2.1
      rw [he.1.mpr hroomy] at hrun
      exact hreceives.2 s' hrun
    · obtain ⟨m, s', hrun, -⟩ := hends.exists_ok fun e _ he => he.2 haccepted
      obtain ⟨x, packets, hpackets, hm, hlength⟩ := hreceives.1 m s' hrun
      have hlong := le_length_whole haccepted hpackets
      rw [hm, length_drop] at hlength
      rw [hpackets]
      show (whole (x :: packets)).length = x.announced
      omega
  · intro hwhole
    refine ⟨fun m s' hrun => ?_, fun s' hrun => ?_⟩
    · obtain ⟨hm, haccepted⟩ := hends.of_ok hrun
      have hall := hwhole.2 haccepted
      cases hpackets : transmission s with
      | nil =>
        rw [hpackets] at hall
        exact hall.elim
      | cons x packets =>
        rw [hpackets] at hall hm
        have hlong := le_length_whole haccepted hpackets
        have htotal : (whole (x :: packets)).length = x.announced := hall
        refine ⟨x, packets, rfl, hm, ?_⟩
        rw [hm, length_drop]
        omega
    · exact (hends.of_error hrun).1.mp rfl hwhole.1

/-- What `canon_serial_send_packet` puts on the line. -/
def lineOf (type seq : UInt8) (pkt : List UInt8) (len : Nat) : List (Option UInt8) :=
  match sendPacket type seq pkt len with
  | some (.returned _ line) => line.map some
  | _ => []

/-- A message of four bytes that were lost on the line: its header and the end of its transmission
have arrived. -/
def lostFragment : Receiver where
  receiveError := .noError
  seqRx        := 7
  msg          := none
  msgSize      := 512
  line         := lineOf pktMsg 0 [2, 0, 0, 0, 1, 0, 0, 0x21, 20, 0, 0, 0, 0, 0, 0, 0] 16 ++
    lineOf pktEot 7 [0, 0] 2
  acks         := []

/-- It is returned without them. -/
theorem lostFragment_received : ¬ ReceivesWhole 1 0x21 lostFragment := by
  have hrun : recvMsg 1 0x21 lostFragment = some (.ok [], { lostFragment with
      seqRx   := 8
      msg     := some []
      msgSize := 1024
      line    := []
      acks    := [(pktAck, 7)] }) := by decide +kernel
  have htransmission : (transmission lostFragment).map Packet.announced = [20] := by decide +kernel
  intro hreceives
  obtain ⟨x, packets, hpackets, -, hlength⟩ := hreceives.1 [] _ hrun
  rw [hpackets, List.map_cons] at htransmission
  obtain ⟨hannounced, -⟩ := List.cons.inj htransmission
  rw [hannounced] at hlength
  exact absurd hlength (by decide)

end GPhoto2.Canon
