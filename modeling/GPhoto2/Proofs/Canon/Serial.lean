import GPhoto2.Canon.Serial
import GPhoto2.Lib.Crc
import Mathlib.Data.Fintype.EquivFin
import Mathlib.Data.List.GetD

/-!
# `GPhoto2.Proofs.Canon.Serial`: what was sent over the serial line is what arrives

`escape` is what stands between the delimiters of a frame. The loop that receives a frame inverts it
(`recvFrameLoop_escape`), no delimiter occurs in it (`not_mem_escape`), and a frame of a packet fits
in the buffer of `canon_serial_send_frame` however much of it is escaped, because the packets whose
checksum is known are short. `recvPacket_sendPacket` is the round trip of whole packets.
-/

set_option autoImplicit false

/-! ## What the checksum of the serial packets detects

`chksum` is the register of `GPhoto2.Lib.Crc` for the polynomial `crcPoly`, fed with the bytes as a
serial line carries them, the low bit of each first (`chksum_eq_feed`); its table is the one for
eight bits at once (`crcTable_eq`). So the checksum tells two packets apart that differ within 16
bits in a row (`chksum_ne_of_burst`), whatever the initial value. A frame that was altered by such
a burst is rejected wherever the initial value is known (`recvPacket_rejects_burst`).
-/

namespace GPhoto2.Canon

open Lib.Crc
open List (getD_eq_getElem?_getD getElem?_append_right length_nil length_take)

/-! ### The bits of a packet -/

/-- The polynomial of the checksum, for bits that come in with the low one first. -/
def crcPoly : BitVec 16 := 0x8408#16

/-- A packet as a serial line carries it, the low bit of each byte first. -/
def lineBits (s : List UInt8) : List Bool := s.flatMap fun b => bits b.toBitVec

variable (init crc : UInt16) (b : UInt8) (s : List UInt8)

theorem lineBits_cons :
    lineBits (b :: s) = bits b.toBitVec ++ lineBits s := List.flatMap_cons

theorem lineBits_append (t : List UInt8) : lineBits (s ++ t) = lineBits s ++ lineBits t :=
  List.flatMap_append

@[simp] theorem length_lineBits : (lineBits s).length = 8 * s.length := by
  induction s with
  | nil => rfl
  | cons b s ih =>
    rw [lineBits_cons, List.length_append, length_bits, ih, List.length_cons]
    omega

theorem lineBits_injective {s t : List UInt8} (h : lineBits s = lineBits t) : s = t := by
  induction s generalizing t with
  | nil =>
    have hlen := congrArg List.length h
    rw [length_lineBits, length_lineBits, length_nil] at hlen
    exact (List.length_eq_zero_iff.mp (by omega)).symm
  | cons b s ih =>
    cases t with
    | nil =>
      have hlen := congrArg List.length h
      rw [length_lineBits, length_lineBits, length_nil, List.length_cons] at hlen
      omega
    | cons c t =>
      rw [lineBits_cons, lineBits_cons] at h
      obtain ⟨hhead, htail⟩ := List.append_inj h (by rw [length_bits, length_bits])
      rw [UInt8.toBitVec_inj.mp (bits_injective hhead), ih htail]

/-- The packets differ, if at all, within 16 bits in a row. -/
def DifferInBurst (s t : List UInt8) : Prop :=
  ∃ k, ∀ i, (lineBits s)[i]? ≠ (lineBits t)[i]? → k ≤ i ∧ i < k + 16

/-! ### The checksum is a register -/

theorem crcPoly_msb : crcPoly.msb = true := by decide

theorem crcTable_eq :
    ∀ i : Fin 256, crcTable.getD i.val 0 = ⟨tableWord crcPoly (BitVec.ofNat 8 i.val)⟩ := by
  decide +kernel

/-- One round with the table of a polynomial. -/
theorem table_step {table : List UInt16} {poly : BitVec 16}
    (htable : ∀ i : Fin 256, table.getD i.val 0 = ⟨tableWord poly (BitVec.ofNat 8 i.val)⟩) :
    (table.getD ((crc ^^^ b.toUInt16) &&& 0xff).toNat 0 ^^^ (crc >>> 8)).toBitVec =
      feed poly crc.toBitVec (bits b.toBitVec) := by
  have hlow : ((crc ^^^ b.toUInt16) &&& 0xff).toNat =
      (crc.toBitVec.setWidth 8 ^^^ b.toBitVec).toNat := by
    have hmask : ∀ n : Nat, n &&& 255 = n % 256 := fun n => Nat.and_two_pow_sub_one_eq_mod n 8
    have hb := b.toNat_lt
    simp only [UInt16.toNat_and, UInt16.toNat_xor, UInt8.toNat_toUInt16, BitVec.toNat_xor,
      BitVec.toNat_setWidth, UInt16.toNat_toBitVec, UInt8.toNat_toBitVec]
    show (crc.toNat ^^^ b.toNat) &&& 255 = _
    rw [hmask, Nat.xor_mod_two_pow (n := 8), Nat.mod_eq_of_lt hb]
  have hindex : (crc.toBitVec.setWidth 8 ^^^ b.toBitVec).toNat < 256 := BitVec.isLt _
  have hentry := htable ⟨_, hindex⟩
  rw [BitVec.ofNat_toNat, BitVec.setWidth_eq] at hentry
  have hshift : (crc >>> 8).toBitVec = crc.toBitVec >>> 8 := rfl
  rw [hlow, UInt16.toBitVec_xor, hentry, hshift, feed_bits_table poly (by decide)]

theorem chksum_cons :
    chksum init (b :: s) = chksum ⟨feed crcPoly init.toBitVec (bits b.toBitVec)⟩ s := by
  rw [← table_step _ _ crcTable_eq]
  rfl

theorem chksum_eq_feed :
    (chksum init s).toBitVec = feed crcPoly init.toBitVec (lineBits s) := by
  induction s generalizing init with
  | nil => rfl
  | cons b s ih => rw [chksum_cons, ih, lineBits_cons, feed_append]

theorem feed_ne_of_differInBurst {poly : BitVec 16} (htop : poly.msb = true) {s t : List UInt8}
    (hlen : s.length = t.length) (hne : s ≠ t) (hburst : DifferInBurst s t) (r : BitVec 16) :
    feed poly r (lineBits s) ≠ feed poly r (lineBits t) := by
  obtain ⟨k, hk⟩ := hburst
  exact feed_ne_of_burst htop (by rw [length_lineBits, length_lineBits, hlen])
    (fun hbits => hne (lineBits_injective hbits)) hk r

theorem chksum_ne_of_burst {s t : List UInt8} (hlen : s.length = t.length) (hne : s ≠ t)
    (hburst : DifferInBurst s t) (init : UInt16) : chksum init s ≠ chksum init t := by
  intro heq
  have hregister := congrArg UInt16.toBitVec heq
  rw [chksum_eq_feed, chksum_eq_feed] at hregister
  exact feed_ne_of_differInBurst crcPoly_msb hlen hne hburst _ hregister

theorem chksum_injective : Function.Injective fun init => chksum init s := by
  intro r t h
  have hregister := congrArg UInt16.toBitVec h
  simp only [chksum_eq_feed] at hregister
  exact UInt16.toBitVec_inj.mp (feed_injective crcPoly_msb hregister)

/-! ### The initial values -/

/-- The packets whose initial value is known. -/
def KnownLength (len : Nat) : Prop := 5 ≤ len ∧ len ≤ 1020

instance (len : Nat) : Decidable (KnownLength len) := inferInstanceAs (Decidable (_ ∧ _))

theorem crcInit_known : ((crcInit.drop 5).take 1016).all (fun v => decide (v ≠ -1)) = true := by
  decide +kernel

theorem crcInit_unknown : crcInit.take 5 = List.replicate 5 (-1) ∧
    crcInit.drop 1021 = List.replicate 3 (-1) := by
  decide +kernel

theorem length_crcInit : crcInit.length = 1024 := by decide +kernel

theorem findInit_ne_iff (len : Nat) : findInit len ≠ -1 ↔ KnownLength len := by
  unfold findInit KnownLength
  by_cases hlen : len < 1024
  swap
  · rw [if_neg hlen]
    omega
  rw [if_pos hlen]
  by_cases hlow : len < 5
  · have hget : crcInit.getD len (-1) = (crcInit.take 5).getD len (-1) := by
      simp [getD_eq_getElem?_getD, hlow]
    rw [hget, crcInit_unknown.1, List.getD_replicate _ hlow]
    omega
  by_cases hhigh : len ≤ 1020
  · have hmem : crcInit.getD len (-1) ∈ (crcInit.drop 5).take 1016 := by
      rw [List.mem_iff_getElem?]
      refine ⟨len - 5, ?_⟩
      rw [List.getElem?_take_of_lt (by omega), List.getElem?_drop,
        Nat.add_sub_cancel' (Nat.le_of_not_lt hlow), getD_eq_getElem?_getD,
        List.getElem?_eq_getElem (by rw [length_crcInit]; exact hlen)]
      rfl
    have hknown := List.all_eq_true.mp crcInit_known _ hmem
    rw [decide_eq_true_eq] at hknown
    exact iff_of_true hknown ⟨by omega, hhigh⟩
  · have hget : crcInit.getD len (-1) = (crcInit.drop 1021).getD (len - 1021) (-1) := by
      rw [getD_eq_getElem?_getD, getD_eq_getElem?_getD, List.getElem?_drop,
        Nat.add_sub_cancel' (by omega)]
    rw [hget, crcInit_unknown.2, List.getD_replicate _ (by omega)]
    omega

/-- The initial value for a length, where it is known. -/
def seed (len : Nat) : UInt16 := UInt16.ofNat (findInit len).toNat

variable {pkt : List UInt8}

theorem genCrc_known (h : KnownLength pkt.length) :
    genCrc pkt = some (chksum (seed pkt.length) pkt) := if_pos ((findInit_ne_iff _).mpr h)

theorem genCrc_unknown (h : ¬ KnownLength pkt.length) : genCrc pkt = none :=
  if_neg fun hne => h ((findInit_ne_iff _).mp hne)

/-- Every checksum comes from some initial value, so that `guess` does not end the program. -/
theorem guess_eq_some (m : List UInt8) (crc : UInt16) : ∃ init, guess m crc = some init := by
  have hfinite : Finite UInt16 :=
    Finite.of_injective UInt16.toFin fun _ _ h => UInt16.toFin_inj.mp h
  have hsurj : Function.Surjective fun init => chksum init m :=
    Finite.injective_iff_surjective.mp (chksum_injective m)
  obtain ⟨init, hinit⟩ := hsurj crc
  apply Option.isSome_iff_exists.mp
  rw [guess, List.find?_isSome]
  refine ⟨init.toNat, List.mem_range.mpr init.toNat_lt, ?_⟩
  rw [UInt16.ofNat_toNat, beq_iff_eq]
  exact hinit

theorem chkCrc_known (h : KnownLength pkt.length) (crc : UInt16) :
    chkCrc pkt crc = some (chksum (seed pkt.length) pkt == crc) :=
  if_pos ((findInit_ne_iff _).mpr h)

theorem chkCrc_unknown {pkt : List UInt8} (h : ¬ KnownLength pkt.length) (crc : UInt16) :
    chkCrc pkt crc = some true := by
  obtain ⟨init, hinit⟩ := guess_eq_some pkt crc
  rw [chkCrc, if_neg fun hne => h ((findInit_ne_iff _).mp hne), hinit]
  rfl

/-! ### Frames that end in their checksum -/

theorem toBitVec_pktWord (pkt : List UInt8) (lsb msb : Nat) : (pktWord pkt lsb msb).toBitVec =
    (pkt.getD msb 0).toBitVec ++ (pkt.getD lsb 0).toBitVec := by
  have hhigh := (pkt.getD msb 0).toNat_lt
  apply BitVec.eq_of_toNat_eq
  rw [BitVec.toNat_append]
  show (pktWord pkt lsb msb).toNat = _
  have hfits : (pkt.getD msb 0).toNat <<< 8 < 2 ^ 16 := by
    rw [Nat.shiftLeft_eq]
    omega
  rw [pktWord, UInt16.toNat_or, UInt16.toNat_shiftLeft, UInt8.toNat_toUInt16,
    UInt8.toNat_toUInt16]
  show (pkt.getD lsb 0).toNat ||| (pkt.getD msb 0).toNat <<< 8 % 2 ^ 16 = _
  rw [Nat.mod_eq_of_lt hfits, Nat.or_comm]
  rfl

/-- A frame has the right checksum for an initial value when it clears the register. -/
theorem chksum_eq_iff (h : 2 ≤ pkt.length) :
    chksum init (pkt.take (pkt.length - 2)) = pktWord pkt (pkt.length - 2) (pkt.length - 1) ↔
      feed crcPoly init.toBitVec (lineBits pkt) = 0#16 := by
  have hsplit : pkt = pkt.take (pkt.length - 2) ++
      [pkt.getD (pkt.length - 2) 0, pkt.getD (pkt.length - 1) 0] := by
    apply List.ext_getElem?
    intro i
    by_cases hi : i < pkt.length - 2
    · rw [List.getElem?_append_left (by rw [length_take]; omega),
        List.getElem?_take_of_lt hi]
    · rw [getElem?_append_right (by rw [length_take]; omega), length_take,
        Nat.min_eq_left (Nat.sub_le _ _)]
      by_cases hlast : i < pkt.length
      · have hcases : i = pkt.length - 2 ∨ i = pkt.length - 1 := by omega
        rcases hcases with rfl | rfl
        · simp [List.getElem?_eq_getElem hlast]
        · have hone : pkt.length - 1 - (pkt.length - 2) = 1 := by omega
          simp [List.getElem?_eq_getElem hlast, hone]
      · rw [List.getElem?_eq_none (by omega), List.getElem?_eq_none (by simp; omega)]
  -- the last two bytes are the bits of the checksum
  have hbits : lineBits pkt = lineBits (pkt.take (pkt.length - 2)) ++
      bits (pktWord pkt (pkt.length - 2) (pkt.length - 1)).toBitVec := by
    rw [toBitVec_pktWord, bits_append]
    conv_lhs => rw [hsplit, lineBits_append]
    rfl
  rw [hbits, feed_append, ← chksum_eq_feed, feed_bits crcPoly (Nat.le_refl 16),
    BitVec.setWidth_eq, ← UInt16.toBitVec_inj]
  constructor
  · intro heq
    rw [heq, BitVec.xor_self]
    exact feed_zero crcPoly fun b hb => (List.mem_replicate.mp hb).2
  · intro hzero
    exact BitVec.xor_eq_zero_iff.mp
      (feed_zeros_eq_zero crcPoly_msb (fun b hb => (List.mem_replicate.mp hb).2) hzero)

/-! ### What `canon_serial_recv_packet` rejects -/

/-- The last two bytes of the frame are the checksum of those before. -/
def Checksummed (pkt : List UInt8) : Prop :=
  genCrc (pkt.take (pkt.length - 2)) = some (pktWord pkt (pkt.length - 2) (pkt.length - 1))

theorem checksummed_iff (hknown : KnownLength (pkt.length - 2)) :
    Checksummed pkt ↔
      feed crcPoly (seed (pkt.length - 2)).toBitVec (lineBits pkt) = 0#16 := by
  have hlen : (pkt.take (pkt.length - 2)).length = pkt.length - 2 := by
    rw [length_take]
    omega
  have htwo : 2 ≤ pkt.length := by
    have := hknown.1
    omega
  unfold Checksummed
  rw [genCrc_known (by rwa [hlen]), Option.some_inj, hlen, chksum_eq_iff _ htwo]

theorem recvPacketOf_short (h : pkt.length < pktHdrLen) :
    recvPacketOf pkt = .null false := if_pos h

theorem recvPacketOf_null (hlen : pktHdrLen ≤ pkt.length)
    (h : chkCrc (pkt.take (pkt.length - 2)) (pktWord pkt (pkt.length - 2) (pkt.length - 1)) =
      some false) : ∃ e, recvPacketOf pkt = .null e := by
  unfold recvPacketOf
  rw [if_neg (Nat.not_lt.mpr hlen), h]
  by_cases hlong : pkt.getD 1 0 = pktMsg ∧ (if pkt.getD 1 0 = pktMsg then
      (pktWord pkt 2 3).toNat else 0) + pktHdrLen > pkt.length - 2
  · exact ⟨true, if_pos hlong⟩
  · exact ⟨false, if_neg hlong⟩

/-- The length that `canon_serial_recv_packet` takes from a header. -/
def headerLength (pkt : List UInt8) : Nat :=
  if pkt.getD 1 0 = pktMsg then (pktWord pkt 2 3).toNat else 0

theorem recvPacketOf_eq_packet {pkt : List UInt8} (hlen : pktHdrLen ≤ pkt.length)
    (hfits : pkt.getD 1 0 = pktMsg → headerLength pkt + pktHdrLen ≤ pkt.length - 2)
    (h : chkCrc (pkt.take (pkt.length - 2)) (pktWord pkt (pkt.length - 2) (pkt.length - 1)) =
      some true) :
    recvPacketOf pkt = .packet (pkt.getD 1 0) (pkt.getD 0 0) (headerLength pkt)
      (if pkt.getD 1 0 = pktAck ∨ pkt.getD 1 0 = pktEot then pkt else pkt.drop pktHdrLen) := by
  have hlong : ¬ (pkt.getD 1 0 = pktMsg ∧ headerLength pkt + pktHdrLen > pkt.length - 2) := by
    rintro ⟨hmsg, hgt⟩
    have := hfits hmsg
    omega
  unfold recvPacketOf
  rw [if_neg (Nat.not_lt.mpr hlen), h]
  exact if_neg hlong

theorem recvPacketOf_not_checksummed (hknown : KnownLength (pkt.length - 2))
    (h : ¬ Checksummed pkt) : ∃ e, recvPacketOf pkt = .null e := by
  have hlen : (pkt.take (pkt.length - 2)).length = pkt.length - 2 := by
    rw [length_take]
    omega
  unfold Checksummed at h
  rw [genCrc_known (by rwa [hlen]), Option.some_inj] at h
  apply recvPacketOf_null
  · have := hknown.1
    show 4 ≤ _
    omega
  · rw [chkCrc_known (by rwa [hlen])]
    simpa using h

theorem recvPacket_of_recvFrame {line rest : List (Option UInt8)}
    (h : recvFrame line = (some pkt, rest)) : recvPacket line = (recvPacketOf pkt, rest) := by
  simp only [recvPacket, h]

/-- Where the initial value is known, a frame with the right checksum that was altered by a burst of
16 bits is rejected. Frames of fewer than four bytes are rejected anyway; in those of another length
the checksum is not looked at. -/
theorem recvPacket_rejects_burst :
    (∀ line line' rest rest' pkt pkt', recvFrame line = (some pkt, rest) →
      recvFrame line' = (some pkt', rest') → KnownLength (pkt.length - 2) → Checksummed pkt →
      pkt'.length = pkt.length → pkt' ≠ pkt → DifferInBurst pkt pkt' →
      ∃ e, recvPacket line' = (.null e, rest')) ∧
    (∀ line rest pkt, recvFrame line = (some pkt, rest) → pkt.length < 4 →
      recvPacket line = (.null false, rest)) ∧
    (∀ pkt : List UInt8, ¬ KnownLength pkt.length → ∀ crc, chkCrc pkt crc = some true) ∧
    (∀ s t : List UInt8, s.length = t.length → s ≠ t → DifferInBurst s t →
      ∀ init, chksum init s ≠ chksum init t) := by
  refine ⟨?_, ?_, ?_, ?_⟩
  · intro line line' rest rest' pkt pkt' _ hline' hknown hsum hlen hne hburst
    have hknown' : KnownLength (pkt'.length - 2) := by rwa [hlen]
    have hbad : ¬ Checksummed pkt' := by
      intro hsum'
      rw [checksummed_iff hknown] at hsum
      rw [checksummed_iff hknown', hlen, ← hsum] at hsum'
      obtain ⟨k, hk⟩ := hburst
      exact feed_ne_of_burst crcPoly_msb (by rw [length_lineBits, length_lineBits, hlen])
        (fun hbits => hne (lineBits_injective hbits).symm) hk _ hsum'.symm
    obtain ⟨e, he⟩ := recvPacketOf_not_checksummed hknown' hbad
    rw [recvPacket_of_recvFrame hline', he]
    exact ⟨e, rfl⟩
  · intro line rest pkt hline hshort
    rw [recvPacket_of_recvFrame hline, recvPacketOf_short hshort]
  · intro pkt hunknown crc
    exact chkCrc_unknown hunknown crc
  · intro s t hlen hne hburst init
    exact chksum_ne_of_burst hlen hne hburst init

/-- An acknowledgement of four bytes whose sequence number was altered in one bit passes: the
initial value for two bytes is not known. -/
theorem recvPacket_accepts_altered :
    let pkt : List UInt8 := [0, pktAck, 0xad, 0x57]
    let pkt' : List UInt8 := [1, pktAck, 0xad, 0x57]
    chksum 0 (pkt.take 2) = pktWord pkt 2 3 ∧ DifferInBurst pkt pkt' ∧
      recvPacket ((cFBEG :: pkt ++ [cFEND]).map some) = (.packet pktAck 0 0 pkt, []) ∧
      recvPacket ((cFBEG :: pkt' ++ [cFEND]).map some) = (.packet pktAck 1 0 pkt', []) := by
  have haccept : ∀ seq : UInt8, recvPacketOf [seq, pktAck, 0xad, 0x57] =
      .packet pktAck seq 0 [seq, pktAck, 0xad, 0x57] := by
    intro seq
    have hunknown : ¬ KnownLength 2 := by decide
    exact @recvPacketOf_eq_packet [seq, pktAck, 0xad, 0x57] (Nat.le_refl 4)
      (fun hmsg => absurd hmsg (by simp [pktAck, pktMsg]))
      (@chkCrc_unknown [seq, pktAck] hunknown _)
  refine ⟨by decide, ⟨0, ?_⟩, ?_, ?_⟩
  · intro i hdiff
    by_contra hout
    apply hdiff
    have hfirst : 8 ≤ i := by omega
    rw [lineBits_cons 0, lineBits_cons 1, List.getElem?_append_right (by simpa using hfirst),
      List.getElem?_append_right (by simpa using hfirst), length_bits, length_bits]
  · have hframe : recvFrame ((cFBEG :: [0, pktAck, 0xad, 0x57] ++ [cFEND]).map some) =
        (some [0, pktAck, 0xad, 0x57], []) := by decide
    rw [recvPacket_of_recvFrame hframe, haccept]
  · have hframe : recvFrame ((cFBEG :: [1, pktAck, 0xad, 0x57] ++ [cFEND]).map some) =
        (some [1, pktAck, 0xad, 0x57], []) := by decide
    rw [recvPacket_of_recvFrame hframe, haccept]

open List (append_assoc append_nil length_append length_cons map_append)

/-! ### Frames -/

/-- A byte as it stands in a frame. -/
def escapeByte (c : UInt8) : List UInt8 :=
  if c ≠ cFBEG ∧ c ≠ cFEND ∧ c ≠ cESC then [c] else [cESC, c ^^^ cXOR]

/-- What stands between the delimiters of a frame. -/
def escape (pkt : List UInt8) : List UInt8 := pkt.flatMap escapeByte

@[simp] theorem escape_nil : escape [] = [] := rfl

variable (type seq c : UInt8) (pkt : List UInt8) (crc : UInt16) (len : Nat)

theorem escape_cons :
    escape (c :: pkt) = escapeByte c ++ escape pkt := List.flatMap_cons

theorem escapeByte_cases :
    (escapeByte c = [c] ∧ c ≠ cFBEG ∧ c ≠ cFEND ∧ c ≠ cESC) ∨
      (escapeByte c = [cESC, c ^^^ cXOR] ∧ (c = cFBEG ∨ c = cFEND ∨ c = cESC)) := by
  unfold escapeByte
  by_cases hplain : c ≠ cFBEG ∧ c ≠ cFEND ∧ c ≠ cESC
  · exact Or.inl ⟨if_pos hplain, hplain⟩
  · refine Or.inr ⟨if_neg hplain, ?_⟩
    by_contra hnone
    exact hplain ⟨fun h => hnone (Or.inl h), fun h => hnone (Or.inr (Or.inl h)),
      fun h => hnone (Or.inr (Or.inr h))⟩

theorem length_escapeByte_le : (escapeByte c).length ≤ 2 := by
  obtain ⟨h, -⟩ | ⟨h, -⟩ := escapeByte_cases c <;> simp [h]

theorem length_escape_le : (escape pkt).length ≤ 2 * pkt.length := by
  induction pkt with
  | nil => exact Nat.le_refl 0
  | cons c pkt ih =>
    have hbyte := length_escapeByte_le c
    rw [escape_cons, length_append, length_cons]
    omega

theorem not_mem_escape : cFBEG ∉ escape pkt ∧ cFEND ∉ escape pkt := by
  induction pkt with
  | nil => exact ⟨List.not_mem_nil, List.not_mem_nil⟩
  | cons c pkt ih =>
    have hbyte : cFBEG ∉ escapeByte c ∧ cFEND ∉ escapeByte c := by
      obtain ⟨h, hbeg, hend, -⟩ | ⟨h, hspecial⟩ := escapeByte_cases c
      · simp [h, hbeg.symm, hend.symm]
      · rw [h]
        rcases hspecial with rfl | rfl | rfl <;> decide
    simp [escape_cons, hbyte, ih]

theorem sendFrameLoop_eq_some {buffer pkt : List UInt8}
    (hfits : buffer.length + 2 * pkt.length ≤ sendBufferSize) :
    sendFrameLoop buffer pkt = some (buffer ++ escape pkt) := by
  induction pkt generalizing buffer with
  | nil => rw [sendFrameLoop, escape_nil, append_nil]
  | cons c pkt ih =>
    rw [length_cons] at hfits
    have hroom : ¬ buffer.length ≥ sendBufferSize - 1 := by omega
    rw [sendFrameLoop, if_neg hroom, escape_cons, escapeByte, ← append_assoc]
    by_cases hplain : c ≠ cFBEG ∧ c ≠ cFEND ∧ c ≠ cESC
    · rw [if_pos hplain, if_pos hplain, ih (by rw [length_append]; simp; omega)]
    · rw [if_neg hplain, if_neg hplain, ih (by rw [length_append]; simp; omega)]

theorem sendFrame_eq {pkt : List UInt8} (hfits : 2 * pkt.length + 2 ≤ sendBufferSize) :
    sendFrame pkt = .returned 1 (cFBEG :: escape pkt ++ [cFEND]) := by
  have hlen := length_escape_le pkt
  have hloop := @sendFrameLoop_eq_some [cFBEG] pkt (by simp; omega)
  have hroom : ([cFBEG] ++ escape pkt).length < sendBufferSize := by
    rw [length_append]
    simp
    omega
  simp only [sendFrame, hloop, if_pos hroom]
  rfl

theorem recvFrameLoop_escape {buffer pkt : List UInt8} (rest : List (Option UInt8))
    (hfits : buffer.length + pkt.length ≤ recvBufferSize) :
    recvFrameLoop buffer ((escape pkt).map some ++ some cFEND :: rest) =
      (some (buffer ++ pkt), rest) := by
  induction pkt generalizing buffer with
  | nil =>
    show recvFrameLoop buffer (some cFEND :: rest) = _
    rw [recvFrameLoop.eq_def, append_nil]
    exact if_pos rfl
  | cons c pkt ih =>
    rw [length_cons] at hfits
    have hroom : ¬ buffer.length ≥ recvBufferSize := by omega
    have hrest := @ih (buffer ++ [c]) (by simp; omega)
    rw [append_assoc] at hrest
    rw [escape_cons, map_append, append_assoc]
    obtain ⟨h, -, hend, hesc⟩ | ⟨h, hspecial⟩ := escapeByte_cases c
    · rw [h]
      show recvFrameLoop buffer (some c :: _) = _
      rw [recvFrameLoop.eq_def]
      simp only [if_neg hend, if_neg hesc, if_neg hroom]
      exact hrest
    · have hback : c ^^^ cXOR ^^^ cXOR = c := by
        rcases hspecial with rfl | rfl | rfl <;> decide
      rw [h]
      show recvFrameLoop buffer (some cESC :: some (c ^^^ cXOR) :: _) = _
      rw [recvFrameLoop.eq_def]
      have hdelim : cESC ≠ cFEND := by decide
      simp only [if_neg hdelim, if_true, if_neg hroom, Option.getD_some, hback]
      exact hrest

theorem recvFrame_skip {junk : List UInt8} (hjunk : cFBEG ∉ junk) (line : List (Option UInt8)) :
    recvFrame (junk.map some ++ line) = recvFrame line := by
  induction junk with
  | nil => rfl
  | cons c junk ih =>
    rw [List.mem_cons, not_or] at hjunk
    show recvFrame (some c :: (junk.map some ++ line)) = _
    rw [recvFrame, if_neg (fun h => hjunk.1 h.symm), ih hjunk.2]

theorem recvFrame_frame {junk pkt : List UInt8} (hjunk : cFBEG ∉ junk)
    (hfits : pkt.length ≤ recvBufferSize) (rest : List (Option UInt8)) :
    recvFrame ((junk ++ (cFBEG :: escape pkt ++ [cFEND])).map some ++ rest) =
      (some pkt, rest) := by
  rw [map_append, append_assoc, recvFrame_skip hjunk]
  have hloop := @recvFrameLoop_escape [] pkt rest (by simpa using hfits)
  simp only [List.cons_append, List.map_cons, map_append, List.map_nil, append_assoc,
    List.nil_append]
  rw [recvFrame, if_pos rfl, hloop]
  rfl

/-! ### Packets -/

theorem pktWord_bytes {pkt : List UInt8} {lsb msb : Nat} {n : Nat} (hn : n < 65536)
    (hlow : pkt.getD lsb 0 = UInt8.ofNat n) (hhigh : pkt.getD msb 0 = UInt8.ofNat (n / 256)) :
    (pktWord pkt lsb msb).toNat = n := by
  have hword : (pktWord pkt lsb msb).toNat =
      (pkt.getD msb 0).toNat <<< 8 ||| (pkt.getD lsb 0).toNat := by
    have h := congrArg BitVec.toNat (toBitVec_pktWord pkt lsb msb)
    rwa [BitVec.toNat_append] at h
  rw [hword, ← Nat.shiftLeft_add_eq_or_of_lt (pkt.getD lsb 0).toNat_lt, hlow, hhigh,
    UInt8.toNat_ofNat', UInt8.toNat_ofNat', Nat.shiftLeft_eq]
  omega

theorem crcBytes_eq :
    crcBytes crc = [UInt8.ofNat crc.toNat, UInt8.ofNat (crc.toNat / 256)] := by
  have hhigh : (crc >>> 8).toUInt8 = UInt8.ofNat (crc.toNat / 256) := by
    apply UInt8.toNat_inj.mp
    rw [UInt16.toNat_toUInt8, UInt16.toNat_shiftRight, UInt8.toNat_ofNat']
    show crc.toNat >>> 8 % 256 = _
    rw [Nat.shiftRight_eq_div_pow]
  have hlow : crc.toUInt8 = UInt8.ofNat crc.toNat := by
    apply UInt8.toNat_inj.mp
    rw [UInt16.toNat_toUInt8, UInt8.toNat_ofNat']
  rw [crcBytes, hlow, hhigh]

@[simp] theorem length_crcBytes : (crcBytes crc).length = 2 := rfl

@[simp] theorem length_packetHeader :
    (packetHeader type seq len).length = pktHdrLen := by
  unfold packetHeader
  split
  · rfl
  · split <;> rfl

/-- The packet that is put in a frame: a header, data and the checksum of both. -/
theorem sendPacket_known {type seq : UInt8} {pkt : List UInt8} {len : Nat}
    (hknown : KnownLength
      (packetHeader type seq len ++ pkt.take (packetDataLength type len)).length) :
    ∃ crc, genCrc (packetHeader type seq len ++ pkt.take (packetDataLength type len)) = some crc ∧
      sendPacket type seq pkt len = some (.returned 1 (cFBEG ::
        escape (packetHeader type seq len ++ pkt.take (packetDataLength type len) ++
          crcBytes crc) ++ [cFEND])) := by
  refine ⟨_, genCrc_known hknown, ?_⟩
  have hshort := hknown.2
  rw [sendPacket, genCrc_known hknown, Option.map_some, sendFrame_eq]
  rw [length_append, length_crcBytes]
  show _ ≤ 2100
  omega

theorem recvPacketOf_checked {body : List UInt8} {crc : UInt16} (hlen : 5 ≤ body.length)
    (hcrc : genCrc body = some crc)
    (hfits : body.getD 1 0 = pktMsg → (pktWord body 2 3).toNat + pktHdrLen ≤ body.length) :
    recvPacketOf (body ++ crcBytes crc) = .packet (body.getD 1 0) (body.getD 0 0)
      (headerLength body)
      (if body.getD 1 0 = pktAck ∨ body.getD 1 0 = pktEot then body ++ crcBytes crc
        else (body ++ crcBytes crc).drop pktHdrLen) := by
  have htotal : (body ++ crcBytes crc).length = body.length + 2 := by
    rw [length_append, length_crcBytes]
  have hget : ∀ i, i < body.length → (body ++ crcBytes crc).getD i 0 = body.getD i 0 := by
    intro i hi
    rw [getD_eq_getElem?_getD, List.getElem?_append_left hi, ← getD_eq_getElem?_getD]
  have hword : pktWord (body ++ crcBytes crc) 2 3 = pktWord body 2 3 := by
    rw [pktWord, pktWord, hget 2 (by omega), hget 3 (by omega)]
  have hlength : headerLength (body ++ crcBytes crc) = headerLength body := by
    rw [headerLength, headerLength, hget 1 (by omega), hword]
  have hsum : pktWord (body ++ crcBytes crc) body.length (body.length + 1) = crc := by
    apply UInt16.toNat_inj.mp
    apply pktWord_bytes crc.toNat_lt
    · rw [crcBytes_eq, getD_eq_getElem?_getD, getElem?_append_right (Nat.le_refl _),
        Nat.sub_self]
      rfl
    · rw [crcBytes_eq, getD_eq_getElem?_getD, getElem?_append_right (by omega),
        Nat.add_sub_cancel_left]
      rfl
  have hknown : KnownLength body.length := by
    by_contra hunknown
    rw [genCrc_unknown hunknown] at hcrc
    cases hcrc
  have hchk : chkCrc body crc = some true := by
    rw [genCrc_known hknown, Option.some_inj] at hcrc
    rw [chkCrc_known hknown, hcrc, beq_self_eq_true]
  have hone := hget 1 (by omega)
  have hlast : body.length + 2 - 1 = body.length + 1 := rfl
  have h := @recvPacketOf_eq_packet (body ++ crcBytes crc)
    (by rw [htotal]; show 4 ≤ _; omega)
    (by
      intro hmsg
      rw [hone] at hmsg
      rw [hlength, htotal, headerLength, if_pos hmsg]
      exact hfits hmsg)
    (by rw [htotal, Nat.add_sub_cancel, hlast, List.take_left, hsum, hchk])
  rw [h, hone, hget 0 (by omega), hlength]

theorem recvPacket_frame {junk body : List UInt8} {crc : UInt16} (hjunk : cFBEG ∉ junk)
    (hlen : 5 ≤ body.length) (hcrc : genCrc body = some crc)
    (hfits : body.getD 1 0 = pktMsg → (pktWord body 2 3).toNat + pktHdrLen ≤ body.length)
    (rest : List (Option UInt8)) :
    recvPacket ((junk ++ (cFBEG :: escape (body ++ crcBytes crc) ++ [cFEND])).map some ++ rest) =
      (.packet (body.getD 1 0) (body.getD 0 0) (headerLength body)
        (if body.getD 1 0 = pktAck ∨ body.getD 1 0 = pktEot then body ++ crcBytes crc
          else (body ++ crcBytes crc).drop pktHdrLen), rest) := by
  have hshort : body.length ≤ 1020 := by
    by_contra hlong
    rw [genCrc_unknown fun hknown => hlong hknown.2] at hcrc
    cases hcrc
  have hroom : (body ++ crcBytes crc).length ≤ recvBufferSize := by
    rw [length_append, length_crcBytes]
    show _ ≤ 5000
    omega
  rw [recvPacket_of_recvFrame (recvFrame_frame hjunk hroom rest),
    recvPacketOf_checked hlen hcrc hfits]

/-- Whatever is sent, the frame fits in the buffer; or the program has ended before. -/
theorem sendPacket_fits :
    sendPacket type seq pkt len = none ∨ ∃ inner, 2 + inner.length ≤ sendBufferSize ∧
      cFBEG ∉ inner ∧ cFEND ∉ inner ∧
      sendPacket type seq pkt len = some (.returned 1 (cFBEG :: inner ++ [cFEND])) := by
  by_cases hknown : KnownLength
      (packetHeader type seq len ++ pkt.take (packetDataLength type len)).length
  · obtain ⟨crc, -, hsend⟩ := sendPacket_known hknown
    refine Or.inr ⟨_, ?_, (not_mem_escape _).1, (not_mem_escape _).2, hsend⟩
    have hshort := hknown.2
    have hlen := length_escape_le (packetHeader type seq len ++
      pkt.take (packetDataLength type len) ++ crcBytes crc)
    rw [length_append, length_crcBytes] at hlen
    show _ ≤ 2100
    omega
  · left
    rw [sendPacket, genCrc_unknown hknown]
    rfl

/-- The round trip. A message of 1 to 1016 bytes arrives with its type, sequence number, length and
data. Packets of the other two kinds always carry two bytes, and the receiver hands out the whole
packet with the length 0. For any other message the initial value of the checksum is not known, and
the program ends. No delimiter occurs inside a frame, and every frame fits in the buffer. -/
theorem recvPacket_sendPacket {junk : List UInt8} (hjunk : cFBEG ∉ junk) (seq : UInt8)
    (rest : List (Option UInt8)) :
    (∀ payload : List UInt8, 1 ≤ payload.length → payload.length ≤ 1016 → ∃ inner crc,
      sendPacket pktMsg seq payload payload.length =
        some (.returned 1 (cFBEG :: inner ++ [cFEND])) ∧
      recvPacket ((junk ++ (cFBEG :: inner ++ [cFEND])).map some ++ rest) =
        (.packet pktMsg seq payload.length (payload ++ crcBytes crc), rest)) ∧
    (∀ type, type = pktEot ∨ type = pktAck → ∀ (pkt : List UInt8) (len : Nat), 2 ≤ pkt.length →
      ∃ inner crc,
        sendPacket type seq pkt len = some (.returned 1 (cFBEG :: inner ++ [cFEND])) ∧
        recvPacket ((junk ++ (cFBEG :: inner ++ [cFEND])).map some ++ rest) =
          (.packet type seq 0 (packetHeader type seq len ++ pkt.take 2 ++ crcBytes crc), rest)) ∧
    (∀ payload : List UInt8, ¬ (1 ≤ payload.length ∧ payload.length ≤ 1016) →
      sendPacket pktMsg seq payload payload.length = none) ∧
    (∀ type pkt len, sendPacket type seq pkt len = none ∨ ∃ inner,
      2 + inner.length ≤ sendBufferSize ∧ cFBEG ∉ inner ∧ cFEND ∉ inner ∧
      sendPacket type seq pkt len = some (.returned 1 (cFBEG :: inner ++ [cFEND]))) := by
  have hmsgBody : ∀ payload : List UInt8, packetHeader pktMsg seq payload.length ++
      payload.take (packetDataLength pktMsg payload.length) =
      [seq, pktMsg, UInt8.ofNat payload.length, UInt8.ofNat (payload.length / 256)] ++ payload := by
    intro payload
    have hall : packetDataLength pktMsg payload.length = payload.length := if_neg (by decide)
    rw [hall, List.take_length]
    rfl
  refine ⟨?_, ?_, ?_, fun type pkt len => sendPacket_fits type seq pkt len⟩
  · intro payload hpos hshort
    have hbody := hmsgBody payload
    have hknown : KnownLength (packetHeader pktMsg seq payload.length ++
        payload.take (packetDataLength pktMsg payload.length)).length := by
      rw [hbody, length_append]
      exact ⟨by simp; omega, by simp; omega⟩
    obtain ⟨crc, hcrc, hsend⟩ := sendPacket_known hknown
    rw [hbody] at hcrc hsend
    have hword : (pktWord ([seq, pktMsg, UInt8.ofNat payload.length,
        UInt8.ofNat (payload.length / 256)] ++ payload) 2 3).toNat = payload.length :=
      pktWord_bytes (by omega) rfl rfl
    have hrecv := recvPacket_frame hjunk (by rw [length_append]; simp; omega) hcrc
      (by
        intro _
        rw [hword, length_append]
        show _ ≤ 4 + _
        exact Nat.le_of_eq (Nat.add_comm _ _)) rest
    refine ⟨_, crc, hsend, hrecv.trans ?_⟩
    have hlength : headerLength ([seq, pktMsg, UInt8.ofNat payload.length,
        UInt8.ofNat (payload.length / 256)] ++ payload) = payload.length := by
      rw [headerLength, hword]
      exact if_pos rfl
    rw [hlength]
    rfl
  · intro type htype pkt len htwo
    have hheader : packetHeader type seq len =
        [seq, type, UInt8.ofNat len, UInt8.ofNat (len / 256)] := by
      rcases htype with rfl | rfl <;> rfl
    have hdata : packetDataLength type len = 2 := by
      rcases htype with rfl | rfl <;> rfl
    have hlen : (packetHeader type seq len ++ pkt.take 2).length = 6 := by
      rw [length_append, length_packetHeader, List.length_take, Nat.min_eq_left htwo]
      rfl
    have hknown : KnownLength
        (packetHeader type seq len ++ pkt.take (packetDataLength type len)).length := by
      rw [hdata, hlen]
      decide
    obtain ⟨crc, hcrc, hsend⟩ := sendPacket_known hknown
    rw [hdata] at hcrc hsend
    have hget : (packetHeader type seq len ++ pkt.take 2).getD 1 0 = type := by
      rw [hheader]
      rfl
    have hmsg : type ≠ pktMsg := by
      rcases htype with rfl | rfl <;> decide
    have hrecv := recvPacket_frame hjunk (by rw [hlen]; omega) hcrc
      (fun h => absurd (hget.symm.trans h) hmsg) rest
    refine ⟨_, crc, hsend, hrecv.trans ?_⟩
    have hseq : (packetHeader type seq len ++ pkt.take 2).getD 0 0 = seq := by
      rw [hheader]
      rfl
    rw [headerLength, hget, hseq, if_neg hmsg, if_pos htype.symm]
  · intro payload hother
    rw [sendPacket, hmsgBody, genCrc_unknown]
    · rfl
    · rintro ⟨hlow, hhigh⟩
      simp only [length_append, length_cons, List.length_nil] at hlow hhigh
      exact hother ⟨by omega, by omega⟩

/-- Two bytes behind a byte that belongs to nothing. -/
theorem recvPacket_sendPacket_two : ∃ inner crc,
    sendPacket pktMsg 3 [cFEND, 0] 2 = some (.returned 1 (cFBEG :: inner ++ [cFEND])) ∧
    recvPacket (([7] ++ (cFBEG :: inner ++ [cFEND])).map some ++ []) =
      (.packet pktMsg 3 2 ([cFEND, 0] ++ crcBytes crc), []) :=
  (recvPacket_sendPacket (by decide) 3 []).1 [cFEND, 0] (by decide) (by decide)

/-- The end of a message, with the length that `canon_serial_send_msg` gives it: what arrives has
the length 0, and is the whole packet. -/
theorem recvPacket_eot_length : ∃ line crc,
    sendPacket pktEot 0 [0, 0] 1 = some (.returned 1 line) ∧
    recvPacket (line.map some) =
      (.packet pktEot 0 0 ([0, pktEot, 1, 0, 0, 0] ++ crcBytes crc), []) := by
  obtain ⟨crc, hcrc, hsend⟩ := @sendPacket_known pktEot 0 [0, 0] 1 (by decide)
  have hbody : packetHeader pktEot 0 1 ++ List.take (packetDataLength pktEot 1) [0, 0] =
      [0, pktEot, 1, 0, 0, 0] := by decide
  rw [hbody] at hcrc hsend
  have hrecv := @recvPacket_frame [] [0, pktEot, 1, 0, 0, 0] crc (by simp) (by decide) hcrc
    (fun h => absurd h (by decide)) []
  rw [append_nil, List.nil_append] at hrecv
  exact ⟨_, crc, hsend, hrecv⟩

end GPhoto2.Canon
