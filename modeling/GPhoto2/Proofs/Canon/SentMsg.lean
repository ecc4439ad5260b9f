import GPhoto2.Proofs.Canon.RecvMsg
import GPhoto2.Proofs.Canon.Upload

/-!
# `GPhoto2.Proofs.Canon.SentMsg`: messages there and back over the Canon serial line

However a message is cut into the packets of `canon_serial_send_packet`, and whatever stands between
their frames, `canon_serial_recv_msg` returns it (`recvMsg_sent`).
-/

set_option autoImplicit false

namespace GPhoto2.Canon

open List (getD_eq_getElem?_getD)

/-- The line has packets with these fragments, and behind them the end of a transmission with the
number `eot`. In front of each frame there may be bytes that begin none. -/
inductive Sent (eot : UInt8) : List (List UInt8) → List (Option UInt8) → Prop
  | eot (junk : List UInt8) {bytes pkt : List UInt8} {len : Nat} (rest : List (Option UInt8))
      (hjunk : cFBEG ∉ junk) (htwo : 2 ≤ pkt.length)
      (hsend : sendPacket pktEot eot pkt len = some (.returned 1 bytes)) :
      Sent eot [] ((junk ++ bytes).map some ++ rest)
  | fragment (junk : List UInt8) {bytes frag : List UInt8} {frags : List (List UInt8)} {seq : UInt8}
      {line : List (Option UInt8)} (hjunk : cFBEG ∉ junk) (hpos : 1 ≤ frag.length)
      (hshort : frag.length ≤ 1016)
      (hsend : sendPacket pktMsg seq frag frag.length = some (.returned 1 bytes))
      (hrest : Sent eot frags line) : Sent eot (frag :: frags) ((junk ++ bytes).map some ++ line)

section

variable {line rest : List (Option UInt8)} {frags : List (List UInt8)} {eot : UInt8}

theorem packetsOn_cons {type seq : UInt8} {len : Nat} {data : List UInt8}
    (h : recvPacket line = (.packet type seq len data, rest)) :
    packetsOn line = ⟨type, seq, len, data⟩ :: packetsOn rest := by
  rw [packetsOn, arrivals, h]
  show _ :: arrivals line.length rest = _
  rw [arrivals_eq_packetsOn (recvPacket_shorter h).1]

theorem Sent.packetsOn (h : Sent eot frags line) :
    ∃ xs e rest, packetsOn line = xs ++ e :: rest ∧ (∀ x ∈ xs, x.isMsg = true) ∧
      xs.map Packet.fragment = frags ∧ (∀ x ∈ xs, x.fragment.length = x.len ∧ x.len ≤ 1016) ∧
        e.isMsg = false ∧ e.isEot = true ∧ e.seq = eot := by
  induction h with
  | @eot junk bytes pkt len rest hjunk htwo hsend =>
    obtain ⟨inner, crc, hsend', hrecv⟩ :=
      (recvPacket_sendPacket hjunk eot rest).2.1 pktEot (Or.inl rfl) pkt len htwo
    rw [hsend] at hsend'
    cases hsend'
    exact ⟨[], _, _, packetsOn_cons hrecv, by simp, rfl, by simp, rfl, rfl, rfl⟩
  | @fragment junk bytes frag frags seq line hjunk hpos hshort hsend _ ih =>
    obtain ⟨xs, e, rest, hline, hmsg, hfrags, hlen, he⟩ := ih
    obtain ⟨inner, crc, hsend', hrecv⟩ :=
      (recvPacket_sendPacket hjunk seq line).1 frag hpos hshort
    rw [hsend] at hsend'
    cases hsend'
    have hfrag : (frag ++ crcBytes crc).take frag.length = frag := List.take_left
    refine ⟨⟨pktMsg, seq, frag.length, frag ++ crcBytes crc⟩ :: xs, e, rest, ?_,
      List.forall_mem_cons.mpr ⟨rfl, hmsg⟩, ?_, List.forall_mem_cons.mpr ⟨⟨?_, hshort⟩, hlen⟩, he⟩
    · rw [packetsOn_cons hrecv, hline, List.cons_append]
    · rw [List.map_cons, hfrags, Packet.fragment, hfrag]
    · rw [Packet.fragment, hfrag]

/-- A block that holds the largest fragment, and is doubled when it is full, holds them all. -/
theorem roomFor_of_le {announced size pos : Nat} {allocated : Bool} {lens : List Nat}
    (hsize : 1016 ≤ grown allocated size 0) (hpos : pos ≤ if allocated then size else 0)
    (hlens : ∀ len ∈ lens, len ≤ 1016) : RoomFor announced allocated size pos lens := by
  induction lens generalizing allocated size pos with
  | nil => trivial
  | cons len lens ih =>
    intro _
    obtain ⟨hlen, hlens⟩ := List.forall_mem_cons.mp hlens
    have hroom : pos + len ≤ grown allocated size (pos + len) ∧
        1016 ≤ grown allocated size (pos + len) := by
      unfold grown at *
      cases allocated
      · simp at *
        omega
      · simp at *
        split <;> omega
    exact ⟨hroom.1, ih (hroom.2.trans_eq (if_neg (by simp)).symm) hroom.1 hlens⟩

end

/-- A message of `canon_serial_send_msg` that is cut into packets, the header in one piece, is
returned by `canon_serial_recv_msg` if that finds no error of an earlier call, has a block for the
largest packet, and expects the number at the end. -/
theorem recvMsg_sent {mtype dir eot : UInt8} {args frags : List (List UInt8)} {first : List UInt8}
    {s : Receiver} (hsent : Sent eot (first :: frags) s.line) (hheader : msgHdrLen ≤ first.length)
    (hcut : (first :: frags).flatten = composeMsg mtype dir args)
    (hshort : msgHdrLen + args.flatten.length < 65536) (herror : s.receiveError = .noError)
    (hseq : s.seqRx = eot) (hblock : 1016 ≤ grown s.msg.isSome s.msgSize 0) :
    ∃ s', recvMsg mtype dir s = some (.ok args.flatten, s') := by
  obtain ⟨_ | ⟨x, xs⟩, e, rest, hline, hmsg, hfrags, hlens, hnot, heot, hlast⟩ := hsent.packetsOn
  · cases hfrags
  obtain ⟨hfirst, -⟩ := List.cons.inj hfrags
  have hopened : opened s.receiveError (packetsOn s.line) = x :: xs ++ e :: rest := by
    rw [herror, hline, opened, List.cons_append, List.dropWhile_cons_of_neg]
    simp [hmsg x List.mem_cons_self]
  have htake : (x :: xs ++ e :: rest).takeWhile Packet.isMsg = x :: xs := by
    rw [List.takeWhile_append_of_pos hmsg, List.takeWhile_cons_of_neg (by simp [hnot]),
      List.append_nil]
  have hwhole : whole (x :: xs) = composeMsg mtype dir args := by
    rw [whole, List.flatMap_def, hfrags, hcut]
  -- the header is in the first packet
  have hbyte : ∀ i < msgHdrLen, x.data.getD i 0 = (composeMsg mtype dir args).getD i 0 := by
    intro i hi
    have hin : i < x.len := by
      have hlen := (hlens x List.mem_cons_self).1
      rw [hfirst] at hlen
      omega
    rw [← hcut, List.flatten_cons, ← hfirst, getD_eq_getElem?_getD, getD_eq_getElem?_getD,
      List.getElem?_append_left (by rw [hfirst]; omega), Packet.fragment,
      List.getElem?_take_of_lt hin]
  have hannounced : x.announced = msgHdrLen + args.flatten.length :=
    pktWord_bytes hshort (hbyte 8 (by decide)) (hbyte 9 (by decide))
  have hisMessage : x.isMessage = true ∧ x.isExpected mtype dir = true := by
    have hlen := (hlens x List.mem_cons_self).1
    rw [hfirst] at hlen
    rw [Packet.isMessage, Packet.isExpected, hbyte 0 (by decide), hbyte 4 (by decide),
      hbyte 7 (by decide), ← hlen]
    simp [composeMsg, hheader]
  have haccepted : Accepted mtype dir s := by
    unfold Accepted Taken
    rw [hopened, htake]
    refine ⟨fun _ => roomFor_of_le hblock (Nat.zero_le _) ?_, ⟨hisMessage, ?_⟩, e, ?_, heot, ?_⟩
    · refine List.forall_mem_cons.mpr ⟨?_, fun l hl => ?_⟩
      · have hlen := hlens x List.mem_cons_self
        rw [List.length_drop]
        omega
      · obtain ⟨y, hy, rfl⟩ := List.mem_map.mp hl
        have hlen := hlens y (List.mem_cons_of_mem _ hy)
        omega
    · rw [hwhole, length_composeMsg, hannounced]
      omega
    · rw [List.dropWhile_append_of_pos hmsg, List.dropWhile_cons_of_neg (by simp [hnot]),
        List.head?_cons]
    · rw [hlast, closingSeq, herror, if_neg (by decide), hseq]
  obtain ⟨m, s', hrun, hm, -⟩ :=
    (recvMsg_ends mtype dir s).exists_ok fun _ _ hfails => hfails.2 haccepted
  rw [transmission, hopened, htake, hwhole] at hm
  exact ⟨s', hrun.trans (by rw [hm]; rfl)⟩

/-- A message of two bytes in two packets, with a byte in front of the second one that belongs to
nothing. -/
theorem recvMsg_sent_two : ∃ (line : List (Option UInt8)) (s' : Receiver),
    recvMsg 1 0x21 ⟨.noError, 7, none, 512, line, []⟩ = some (.ok [cFBEG, 9], s') := by
  obtain ⟨_, _, hfirst, -⟩ := (@recvPacket_sendPacket [] (by decide) 0 []).1
    ((composeMsg 1 0x21 [[cFBEG, 9]]).take 17) (by decide) (by decide)
  obtain ⟨_, _, hsecond, -⟩ :=
    (@recvPacket_sendPacket [] (by decide) 1 []).1 [9] (by decide) (by decide)
  obtain ⟨_, _, hlast, -⟩ :=
    (@recvPacket_sendPacket [] (by decide) 7 []).2.1 pktEot (Or.inl rfl) [0, 0] 2 (by decide)
  refine ⟨_, recvMsg_sent (.fragment [] (by decide) (by decide) (by decide) hfirst
    (.fragment [8] (by decide) (by decide) (by decide) hsecond
      (.eot [] [] (by decide) (by decide) hlast)))
    (by decide) (by decide : _ = composeMsg 1 0x21 [[cFBEG, 9]]) (by decide) rfl rfl
    (Nat.le_of_ble_eq_true rfl)⟩

end GPhoto2.Canon
