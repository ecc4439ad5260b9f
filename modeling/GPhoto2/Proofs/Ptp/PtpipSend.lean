import GPhoto2.Proofs.Ptp.PtpipParsers
import Mathlib.Algebra.GroupWithZero.Nat

/-!
# `GPhoto2.Proofs.Ptp.PtpipSend`: the data phase to a PTP/IP camera

`senddata_phase_iff`: what `ptp_ptpip_senddata` reports as sent is a legal data phase with the
bytes of the handler, exactly if a `write` on the way fails, or the size is neither 0 nor 4 GiB
or more and every call of the handler succeeds with as many bytes as it is asked for.

The result of the handler is compared with -1, which it never is, and the counter moves by the
bytes that were asked for (`senddataLoop_round`). For a size of 4 GiB or more it does not reach
the size (`senddataLoop_endless`).
-/

set_option autoImplicit false

namespace GPhoto2.Ptpip

open Lib
open List (append_assoc append_nil flatMap_cons length_append length_drop mem_cons)

variable {τ : Type}

/-! ### Rounds -/

/-- What a round of the loop asks the handler for. -/
def towrite (size : UInt64) (curwrite : UInt32) : UInt32 :=
  let left := (size - curwrite.toUInt64).toUInt32
  if writeBlocksize < left then writeBlocksize else left

/-- The type of the packet that a round sends. -/
def roundType (size : UInt64) (curwrite : UInt32) : UInt32 :=
  if writeBlocksize < (size - curwrite.toUInt64).toUInt32 then ptpipDataPacket
  else ptpipEndDataPacket

/-- The calls of the handler in so many rounds, from a counter and a state of the handler on. -/
def rounds (handler : Handler τ) (size : UInt64) : Nat → UInt32 → τ → List Get
  | 0, _, _ => []
  | n + 1, curwrite, priv =>
    if curwrite.toUInt64 < size then
      let want := towrite size curwrite
      let ((result, bytes), priv) := handler.getfunc want.toNat priv
      ⟨want.toNat, result, bytes⟩ :: rounds handler size n (curwrite + want) priv
    else []

/-- The next call of `write` after so many bytes have been written, from a call on, if none
fails. -/
def writeBytes (writes : Nat → Option Nat) : Nat → Nat → Nat → Option Nat
  | 0, k, _ => some k
  | fuel + 1, k, len =>
    if len = 0 then some k
    else
      match writes k with
      | none => none
      | some more => writeBytes writes fuel (k + 1) (len - (more + 1))

/-- The next call of `write` after packets of these lengths. -/
def writePackets (writes : Nat → Option Nat) : Nat → List Nat → Option Nat
  | k, [] => some k
  | k, len :: lens => (writeBytes writes len k len).bind fun k => writePackets writes k lens

variable (fuel n : Nat) (priv : τ) (ptp : PTPContainer)

/-- The loop that writes a packet, in terms of the results of `write` alone. -/
theorem writeLoop_eq (bytes : List UInt8) (w : World τ)
    (hfuel : bytes.length ≤ fuel) :
    match writeBytes w.writes fuel w.nwrites bytes.length with
    | none => (writeLoop fuel bytes w).1 = false
    | some k =>
      writeLoop fuel bytes w = (true, { w with nwrites := k, wire := w.wire ++ bytes }) := by
  induction fuel generalizing bytes w with
  | zero =>
    have hnil : bytes = [] := List.length_eq_zero_iff.mp (Nat.le_zero.mp hfuel)
    rw [hnil]
    show (true, w) = (true, { w with wire := w.wire ++ [] })
    rw [append_nil]
  | succ fuel ih =>
    by_cases hnil : bytes = []
    · rw [hnil]
      show (if ([] : List UInt8) = [] then (true, w) else _) =
        (true, { w with wire := w.wire ++ [] })
      rw [if_pos rfl, append_nil]
    · have hpos : bytes.length ≠ 0 := fun h => hnil (List.length_eq_zero_iff.mp h)
      rw [writeBytes, writeLoop, if_neg hnil, if_neg hpos, write]
      cases hwrite : w.writes w.nwrites with
      | none => rfl
      | some more =>
        simp only [List.length_take]
        have hih := ih (bytes.drop (min (more + 1) bytes.length))
          { w with nwrites := w.nwrites + 1, wire := w.wire ++ bytes.take (more + 1) } (by
            rw [length_drop]
            omega)
        have hlength : (bytes.drop (min (more + 1) bytes.length)).length =
            bytes.length - (more + 1) := by
          rw [length_drop]
          omega
        rw [hlength] at hih
        simp only at hih
        cases hnext : writeBytes w.writes fuel (w.nwrites + 1) (bytes.length - (more + 1)) with
        | none =>
          rw [hnext] at hih
          exact hih
        | some k =>
          rw [hnext] at hih
          simp only at hih ⊢
          have htake : bytes.take (more + 1) = bytes.take (min (more + 1) bytes.length) :=
            List.take_eq_take_iff.mpr (by omega)
          rw [hih, append_assoc, htake, List.take_append_drop]

/-! ### One round -/

/-- The packet of a round. -/
def roundPacket (transId type : UInt32) (bytes : List UInt8) (h : bytes.length ≤ 65536) :
    Packet where
  type := type
  body := htod32a transId ++ bytes
  isInt := by
    rw [length_append, length_htod32a]
    omega

theorem roundPacket_encode (transId type : UInt32) (bytes : List UInt8)
    (h : bytes.length ≤ 65536) :
    (roundPacket transId type bytes h).encode =
      packetHeader (UInt32.ofNat (bytes.length + 12)) type transId ++ bytes := by
  have hlength : (htod32a transId ++ bytes).length + 8 = bytes.length + 12 := by
    rw [length_append, length_htod32a]
    omega
  show htod32a (UInt32.ofNat ((htod32a transId ++ bytes).length + 8)) ++ htod32a type ++
    (htod32a transId ++ bytes) = htod32a _ ++ htod32a type ++ htod32a transId ++ bytes
  rw [hlength, append_assoc _ (htod32a transId)]

/-- The state when the handler has been called for a round. -/
def called (handler : Handler τ) (size : UInt64) (curwrite : UInt32) (w : World τ) : World τ :=
  let answer := handler.getfunc (towrite size curwrite).toNat (checkEvent w).priv
  { checkEvent w with
    priv := answer.2
    gets := (checkEvent w).gets ++ [⟨(towrite size curwrite).toNat, answer.1.1, answer.1.2⟩] }

/-- The state when the packet of a round has been written, up to a call of `write`. -/
def sent (handler : Handler τ) (size : UInt64) (curwrite : UInt32) (p : Packet) (k : Nat)
    (w : World τ) : World τ :=
  { called handler size curwrite w with nwrites := k, wire := w.wire ++ p.encode }

section
variable (handler : Handler τ) (size : UInt64) (curwrite : UInt32) (p : Packet) (k : Nat)
  (w : World τ)

theorem checkEvent_priv : (checkEvent w).priv = w.priv := by
  obtain ⟨selects, evt, events, new, -, hcheck⟩ := checkEvent_frame w
  rw [hcheck]

theorem sent_priv : (sent handler size curwrite p k w).priv =
    (handler.getfunc (towrite size curwrite).toNat w.priv).2 := by
  rw [← checkEvent_priv w]
  rfl

theorem sent_gets : (sent handler size curwrite p k w).gets = w.gets ++
    [⟨(towrite size curwrite).toNat, (handler.getfunc (towrite size curwrite).toNat w.priv).1.1,
      (handler.getfunc (towrite size curwrite).toNat w.priv).1.2⟩] := by
  obtain ⟨selects, evt, events, new, -, hcheck⟩ := checkEvent_frame w
  show (checkEvent w).gets ++ [⟨_, (handler.getfunc _ (checkEvent w).priv).1.1,
    (handler.getfunc _ (checkEvent w).priv).1.2⟩] = _
  rw [hcheck]

theorem sent_writes : (sent handler size curwrite p k w).writes = w.writes := by
  obtain ⟨selects, evt, events, new, -, hcheck⟩ := checkEvent_frame w
  show (checkEvent w).writes = _
  rw [hcheck]

end

theorem towrite_le (size : UInt64) (curwrite : UInt32) : (towrite size curwrite).toNat ≤ 65536 := by
  unfold towrite
  by_cases h : writeBlocksize < (size - curwrite.toUInt64).toUInt32
  · simp only [if_pos h]
    exact Nat.le_refl _
  · simp only [if_neg h]
    exact UInt32.le_iff_toNat_le.mp (UInt32.not_lt.mp h)

/-- The loop of `ptp_ptpip_senddata`, after a packet has been written or has not. -/
def afterWrite (handler : Handler τ) (transId : UInt32) (size : UInt64) (fuel : Nat)
    (curwrite : UInt32) : Bool × World τ → Option (UInt16 × World τ)
  | (false, w) => some (ptpRcGeneralError, w)
  | (true, w) =>
    senddataLoop handler transId size fuel (curwrite + towrite size curwrite) w

variable {size : UInt64} {curwrite : UInt32}

/-- One round of the loop: the packet is written, whatever the handler has returned. -/
theorem senddataLoop_round (handler : Handler τ) (transId : UInt32)
    (w : World τ) (hlt : curwrite.toUInt64 < size) :
    ∃ p : Packet, p.type = roundType size curwrite ∧ 4 ≤ p.body.length ∧
      p.payload = (handler.getfunc (towrite size curwrite).toNat w.priv).1.2 ∧
      ∀ fuel, senddataLoop handler transId size (fuel + 1) curwrite w =
        match writeBytes w.writes p.encode.length w.nwrites p.encode.length with
        | none => some (ptpRcGeneralError,
            (writeLoop p.encode.length p.encode (called handler size curwrite w)).2)
        | some k => senddataLoop handler transId size fuel (curwrite + towrite size curwrite)
            (sent handler size curwrite p k w) := by
  obtain ⟨selects, evt, events, new, -, hcheck⟩ := checkEvent_frame w
  have hpriv := checkEvent_priv w
  have hwrites : (called handler size curwrite w).writes = w.writes :=
    (congrArg World.writes hcheck : (checkEvent w).writes = _)
  have hnwrites : (called handler size curwrite w).nwrites = w.nwrites :=
    (congrArg World.nwrites hcheck : (checkEvent w).nwrites = _)
  have hwire : (called handler size curwrite w).wire = w.wire :=
    (congrArg World.wire hcheck : (checkEvent w).wire = _)
  have hle := handler.getfunc_le (towrite size curwrite).toNat (checkEvent w).priv
  have hbytes := Nat.le_trans hle (towrite_le size curwrite)
  have hencode := roundPacket_encode transId (roundType size curwrite) _ hbytes
  have hpayload : (roundPacket transId (roundType size curwrite) _ hbytes).payload =
      (handler.getfunc (towrite size curwrite).toNat w.priv).1.2 := by
    rw [← hpriv]
    rfl
  have hbody : 4 ≤ (roundPacket transId (roundType size curwrite) _ hbytes).body.length := by
    show 4 ≤ (htod32a transId ++ _).length
    rw [length_append, length_htod32a]
    omega
  have htype : (roundPacket transId (roundType size curwrite) _ hbytes).type =
      roundType size curwrite := rfl
  generalize roundPacket transId (roundType size curwrite) _ hbytes = p at *
  refine ⟨p, htype, hbody, hpayload, fun fuel => ?_⟩
  have hround : senddataLoop handler transId size (fuel + 1) curwrite w =
      afterWrite handler transId size fuel curwrite
        (writeLoop p.encode.length p.encode (called handler size curwrite w)) := by
    rw [senddataLoop, if_pos hlt, hencode]
    simp only [if_neg (result_ne _)]
    rfl
  have hloop := writeLoop_eq p.encode.length p.encode (called handler size curwrite w)
    (Nat.le_refl _)
  rw [hwrites, hnwrites] at hloop
  rw [hround]
  cases hnext : writeBytes w.writes p.encode.length w.nwrites p.encode.length with
  | none =>
    rw [hnext] at hloop
    generalize writeLoop p.encode.length p.encode (called handler size curwrite w) = result at *
    obtain ⟨written, w'⟩ := result
    cases hloop
    rfl
  | some k =>
    rw [hnext] at hloop
    simp only at hloop
    rw [hloop, hwire]
    simp only [afterWrite, sent, hwrites]

/-! ### Runs of the loop -/

variable {handler : Handler τ}

theorem rounds_succ (hlt : curwrite.toUInt64 < size) :
    rounds handler size (n + 1) curwrite priv =
      ⟨(towrite size curwrite).toNat, (handler.getfunc (towrite size curwrite).toNat priv).1.1,
        (handler.getfunc (towrite size curwrite).toNat priv).1.2⟩ ::
      rounds handler size n (curwrite + towrite size curwrite)
        (handler.getfunc (towrite size curwrite).toNat priv).2 := by
  rw [rounds, if_pos hlt]

theorem rounds_end
    (hlt : ¬ curwrite.toUInt64 < size) : rounds handler size n curwrite priv = [] := by
  cases n with
  | zero => rfl
  | succ n => rw [rounds, if_neg hlt]

/-- The lengths of the packets of some rounds. -/
def packetLengths (gets : List Get) : List Nat := gets.map fun g => g.bytes.length + 12

/-- A `write` fails in one of the rounds from a call of it on. -/
def RoundsFail (handler : Handler τ) (size : UInt64) (curwrite : UInt32) (priv : τ)
    (writes : Nat → Option Nat) (nwrites : Nat) : Prop :=
  ∃ n, writePackets writes nwrites (packetLengths (rounds handler size n curwrite priv)) = none

theorem Packet.encode_length_of_payload {p : Packet} (h4 : 4 ≤ p.body.length) :
    p.encode.length = p.payload.length + 12 := by
  rw [p.encode_length]
  show _ = (p.body.drop 4).length + 12
  rw [length_drop]
  omega

variable {transId : UInt32} {w : World τ}

/-- What the loop has done when it ends: a `write` has failed, or it has sent the packets of all
rounds. -/
theorem senddataLoop_cases {fuel : Nat}
    {w' : World τ} {ret : UInt16}
    (h : senddataLoop handler transId size fuel curwrite w = some (ret, w')) :
    (ret = ptpRcGeneralError ∧
      RoundsFail handler size curwrite w.priv w.writes w.nwrites) ∨
    (ret = ptpRcOk ∧ w'.gets = w.gets ++ rounds handler size fuel curwrite w.priv ∧
      ∀ n, ∀ g ∈ rounds handler size n curwrite w.priv,
        g ∈ rounds handler size fuel curwrite w.priv) := by
  induction fuel generalizing curwrite w with
  | zero => cases h
  | succ fuel ih =>
    by_cases hlt : curwrite.toUInt64 < size
    · obtain ⟨p, -, h4, hpayload, hround⟩ := senddataLoop_round handler transId w hlt
      have hlength := Packet.encode_length_of_payload h4
      rw [hround] at h
      cases hnext : writeBytes w.writes p.encode.length w.nwrites p.encode.length with
      | none =>
        rw [hnext] at h
        cases h
        refine .inl ⟨rfl, 1, ?_⟩
        rw [rounds_succ 0 _ hlt]
        show (writeBytes w.writes (_ + 12) w.nwrites (_ + 12)).bind _ = none
        rw [← hpayload, ← hlength, hnext]
        rfl
      | some k =>
        rw [hnext] at h
        obtain ⟨hret, n, hfail⟩ | ⟨hret, hgets, hall⟩ := ih h
        · rw [sent_priv, sent_writes] at hfail
          refine .inl ⟨hret, n + 1, ?_⟩
          rw [rounds_succ n _ hlt]
          show (writeBytes w.writes (_ + 12) w.nwrites (_ + 12)).bind _ = none
          rw [← hpayload, ← hlength, hnext]
          exact hfail
        · rw [sent_priv] at hgets hall
          refine .inr ⟨hret, ?_, ?_⟩
          · rw [hgets, sent_gets, rounds_succ fuel _ hlt, append_assoc]
            rfl
          · intro n g hg
            cases n with
            | zero => cases hg
            | succ n =>
              rw [rounds_succ n _ hlt] at hg
              rw [rounds_succ fuel _ hlt]
              obtain rfl | hg := mem_cons.mp hg
              · exact List.mem_cons_self
              · exact List.mem_cons_of_mem _ (hall n g hg)
    · rw [senddataLoop, if_neg hlt] at h
      cases h
      refine .inr ⟨rfl, ?_, ?_⟩
      · rw [rounds_end _ _ hlt, append_nil]
      · intro n g hg
        rw [rounds_end _ _ hlt] at hg
        cases hg

/-- The loop ends where a `write` fails. -/
theorem RoundsFail.ends {handler : Handler τ} {transId : UInt32} {size : UInt64}
    {curwrite : UInt32} {w : World τ}
    (h : RoundsFail handler size curwrite w.priv w.writes w.nwrites) :
    ∃ fuel w', senddataLoop handler transId size fuel curwrite w =
      some (ptpRcGeneralError, w') := by
  obtain ⟨n, hfail⟩ := h
  induction n generalizing curwrite w with
  | zero => cases hfail
  | succ n ih =>
    by_cases hlt : curwrite.toUInt64 < size
    · obtain ⟨p, -, h4, hpayload, hround⟩ := senddataLoop_round handler transId w hlt
      have hlength := Packet.encode_length_of_payload h4
      rw [rounds_succ n _ hlt] at hfail
      replace hfail : (writeBytes w.writes p.encode.length w.nwrites p.encode.length).bind
          (fun k => writePackets w.writes k (packetLengths (rounds handler size n
            (curwrite + towrite size curwrite)
            (handler.getfunc (towrite size curwrite).toNat w.priv).2))) = none := by
        rw [hlength, hpayload]
        exact hfail
      cases hnext : writeBytes w.writes p.encode.length w.nwrites p.encode.length with
      | none => exact ⟨1, _, by rw [hround, hnext]⟩
      | some k =>
        rw [hnext] at hfail
        obtain ⟨fuel, w', hloop⟩ := @ih (curwrite + towrite size curwrite)
          (sent handler size curwrite p k w) (by
            rw [sent_priv, sent_writes]
            exact hfail)
        exact ⟨fuel + 1, w', by rw [hround, hnext]; exact hloop⟩
    · rw [rounds_end _ _ hlt] at hfail
      cases hfail

theorem senddataLoop_endless {fuel : Nat}
    {w' : World τ} {ret : UInt16} (hsize : 2 ^ 32 ≤ size.toNat)
    (h : senddataLoop handler transId size fuel curwrite w = some (ret, w')) :
    ret = ptpRcGeneralError := by
  induction fuel generalizing curwrite w with
  | zero => cases h
  | succ fuel ih =>
    have hlt : curwrite.toUInt64 < size := by
      rw [UInt64.lt_iff_toNat_lt, UInt32.toNat_toUInt64]
      exact Nat.lt_of_lt_of_le curwrite.toNat_lt hsize
    obtain ⟨p, -, -, -, hround⟩ := senddataLoop_round handler transId w hlt
    rw [hround] at h
    cases hnext : writeBytes w.writes p.encode.length w.nwrites p.encode.length with
    | none =>
      rw [hnext] at h
      cases h
      rfl
    | some k =>
      rw [hnext] at h
      exact ih h

/-! ### Sizes below 4 GiB -/

section
variable {handler : Handler τ} {transId : UInt32} {size : UInt64} {curwrite : UInt32}

section
variable (hsize : size.toNat < 2 ^ 32)
include hsize

theorem left_toNat (hle : curwrite.toNat ≤ size.toNat) :
    (size - curwrite.toUInt64).toUInt32.toNat = size.toNat - curwrite.toNat := by
  rw [UInt64.toNat_toUInt32, UInt64.toNat_sub_of_le _ _ (by
    rw [UInt64.le_iff_toNat_le, UInt32.toNat_toUInt64]
    exact hle), UInt32.toNat_toUInt64]
  exact Nat.mod_eq_of_lt (by omega)

theorem towrite_toNat (hle : curwrite.toNat ≤ size.toNat) :
    (towrite size curwrite).toNat =
      if 65536 < size.toNat - curwrite.toNat then 65536 else size.toNat - curwrite.toNat := by
  have hleft := left_toNat hsize hle
  unfold towrite
  by_cases h : writeBlocksize < (size - curwrite.toUInt64).toUInt32
  · have hnat : 65536 < size.toNat - curwrite.toNat := hleft ▸ UInt32.lt_iff_toNat_lt.mp h
    simp only [if_pos h, if_pos hnat]
    rfl
  · have hnat : ¬ 65536 < size.toNat - curwrite.toNat := fun hlt =>
      h (UInt32.lt_iff_toNat_lt.mpr (hleft ▸ hlt))
    simp only [if_neg h, if_neg hnat]
    exact hleft

theorem roundType_eq (hle : curwrite.toNat ≤ size.toNat) :
    roundType size curwrite =
      if 65536 < size.toNat - curwrite.toNat then ptpipDataPacket else ptpipEndDataPacket := by
  have hleft := left_toNat hsize hle
  unfold roundType
  by_cases h : writeBlocksize < (size - curwrite.toUInt64).toUInt32
  · have hnat : 65536 < size.toNat - curwrite.toNat := hleft ▸ UInt32.lt_iff_toNat_lt.mp h
    rw [if_pos h, if_pos hnat]
  · have hnat : ¬ 65536 < size.toNat - curwrite.toNat := fun hlt =>
      h (UInt32.lt_iff_toNat_lt.mpr (hleft ▸ hlt))
    rw [if_neg h, if_neg hnat]

theorem curwrite_toNat (hle : curwrite.toNat ≤ size.toNat) :
    (curwrite + towrite size curwrite).toNat = curwrite.toNat + (towrite size curwrite).toNat ∧
      curwrite.toNat + (towrite size curwrite).toNat ≤ size.toNat := by
  have htowrite := towrite_toNat hsize hle
  have hbound : curwrite.toNat + (towrite size curwrite).toNat ≤ size.toNat := by
    rw [htowrite]
    split_ifs <;> omega
  exact ⟨by rw [UInt32.toNat_add]; exact Nat.mod_eq_of_lt (by omega), hbound⟩

end

theorem curwrite_lt_iff : curwrite.toUInt64 < size ↔ curwrite.toNat < size.toNat := by
  rw [UInt64.lt_iff_toNat_lt, UInt32.toNat_toUInt64]

theorem senddataLoop_ends {fuel : Nat} {w : World τ} (hsize : size.toNat < 2 ^ 32)
    (hle : curwrite.toNat ≤ size.toNat) (hfuel : size.toNat - curwrite.toNat < fuel) :
    ∃ ret w', senddataLoop handler transId size fuel curwrite w = some (ret, w') := by
  induction fuel generalizing curwrite w with
  | zero => exact absurd hfuel (Nat.not_lt_zero _)
  | succ fuel ih =>
    by_cases hlt : curwrite.toUInt64 < size
    · obtain ⟨p, -, -, -, hround⟩ := senddataLoop_round handler transId w hlt
      rw [hround]
      cases writeBytes w.writes p.encode.length w.nwrites p.encode.length with
      | none => exact ⟨_, _, rfl⟩
      | some k =>
        obtain ⟨hnext, hbound⟩ := curwrite_toNat hsize hle
        have htowrite := towrite_toNat hsize hle
        have hpos := curwrite_lt_iff.mp hlt
        refine ih (by omega) ?_
        split_ifs at htowrite <;> omega
    · exact ⟨_, _, by rw [senddataLoop, if_neg hlt]⟩

/-- What the loop sends: `DATA` packets and a last `END_DATA` packet, with the bytes of the
handler. -/
theorem senddataLoop_packets {fuel : Nat} {w w' : World τ} (hsize : size.toNat < 2 ^ 32)
    (hle : curwrite.toNat ≤ size.toNat)
    (h : senddataLoop handler transId size fuel curwrite w = some (ptpRcOk, w')) :
    ∃ packets : List Packet, w'.wire = w.wire ++ packets.flatMap Packet.encode ∧
      packets.flatMap Packet.payload =
        (rounds handler size fuel curwrite w.priv).flatMap Get.bytes ∧
      ((rounds handler size fuel curwrite w.priv).map Get.wanted).sum =
        size.toNat - curwrite.toNat ∧
      (if curwrite.toNat < size.toNat then DataPackets packets else packets = []) := by
  induction fuel generalizing curwrite w with
  | zero => cases h
  | succ fuel ih =>
    by_cases hlt : curwrite.toUInt64 < size
    · obtain ⟨p, htype, h4, hpayload, hround⟩ := senddataLoop_round handler transId w hlt
      have hpos := curwrite_lt_iff.mp hlt
      rw [hround] at h
      cases hnext : writeBytes w.writes p.encode.length w.nwrites p.encode.length with
      | none =>
        rw [hnext] at h
        exact absurd (Prod.mk.inj (Option.some.inj h)).1 (by decide)
      | some k =>
        rw [hnext] at h
        obtain ⟨hcur, hbound⟩ := curwrite_toNat hsize hle
        obtain ⟨packets, hwire, hbytes, hsum, hpackets⟩ := ih (by omega) h
        rw [sent_priv] at hbytes hsum
        refine ⟨p :: packets, ?_, ?_, ?_, ?_⟩
        · rw [hwire, flatMap_cons, ← append_assoc]
          rfl
        · rw [rounds_succ fuel _ hlt, flatMap_cons, flatMap_cons, hbytes, hpayload]
        · rw [rounds_succ fuel _ hlt, List.map_cons, List.sum_cons, hsum, hcur]
          show (towrite size curwrite).toNat + _ = _
          omega
        · have htowrite := towrite_toNat hsize hle
          rw [if_pos hpos]
          rw [roundType_eq hsize hle] at htype
          by_cases hmore : 65536 < size.toNat - curwrite.toNat
          · -- a whole block, with more to come
            rw [if_pos hmore] at htype htowrite
            rw [hcur, if_pos (by omega)] at hpackets
            obtain ⟨datas, last, rfl, hdatas, hlast⟩ := hpackets
            refine ⟨p :: datas, last, rfl, ?_, hlast⟩
            intro d hd
            obtain rfl | hd := mem_cons.mp hd
            · exact ⟨htype, h4⟩
            · exact hdatas d hd
          · rw [if_neg hmore] at htype htowrite
            rw [hcur, if_neg (by omega)] at hpackets
            rw [hpackets]
            refine ⟨[], p, rfl, ?_, htype, h4⟩
            intro d hd
            cases hd
    · have hend : ¬ curwrite.toNat < size.toNat := fun hnat => hlt (curwrite_lt_iff.mpr hnat)
      rw [senddataLoop, if_neg hlt] at h
      cases h
      refine ⟨[], (append_nil _).symm, ?_, ?_, ?_⟩
      · rw [rounds_end _ _ hlt]
        rfl
      · rw [rounds_end _ _ hlt]
        show 0 = _
        omega
      · rw [if_neg hend]

end

/-! ### The whole phase -/

/-- `ptp_ptpip_senddata` ends. What it reports as sent with `PTP_RC_OK` is a legal data phase with
the announced size: its payload is what the handler has got, and every call of the handler has
got as many bytes as it was asked for. -/
def SendsPhase (handler : Handler τ) (ptp : PTPContainer) (size : UInt64) (w : World τ) : Prop :=
  ∃ fuel ret w', ptpPtpipSenddata fuel ptp size handler w = some (ret, w') ∧
    (ret = ptpRcOk → ∃ gets packets payload, w'.gets = w.gets ++ gets ∧
      (∀ g ∈ gets, g.result = ptpRcOk ∧ g.bytes.length = g.wanted) ∧
      w'.wire = w.wire ++ packets.flatMap Packet.encode ∧ DataPhase packets payload [] ∧
      payload = gets.flatMap Get.bytes ∧ payload.length = size.toNat)

/-- The first `write` fails, or does not take the whole `START_DATA` packet. -/
def StartFails (w : World τ) : Prop := ∀ k ∈ w.writes w.nwrites, k + 1 < 20

/-- The `START_DATA` packet. -/
def startPacket (transId : UInt32) (size : UInt64) : Packet where
  type := ptpipStartDataPacket
  body := htod32a transId ++ htod32a size.toUInt32 ++ htod32a 0
  isInt := by
    simp only [length_append, length_htod32a]
    decide

theorem startPacket_encode (transId : UInt32) (size : UInt64) :
    (startPacket transId size).encode = startDataPacket transId size := rfl

theorem startPacket_total (hsize : size.toNat < 2 ^ 32) :
    (startPacket transId size).total = size.toNat := by
  have htotal : dtoh32a (startPacket transId size).body 4 = size.toUInt32 := toUInt32_bytes _
  rw [Packet.total, htotal, UInt64.toNat_toUInt32]
  exact Nat.mod_eq_of_lt hsize

/-- The state when the `START_DATA` packet has been written. -/
def started (ptp : PTPContainer) (size : UInt64) (w : World τ) : World τ :=
  { w with nwrites := w.nwrites + 1, wire := w.wire ++ startDataPacket ptp.transactionID size }

theorem senddata_startFails (size : UInt64)
    (handler : Handler τ) (h : StartFails w) :
    ∃ w', ptpPtpipSenddata fuel ptp size handler w = some (ptpRcGeneralError, w') := by
  unfold ptpPtpipSenddata write
  cases hwrite : w.writes w.nwrites with
  | none => exact ⟨_, rfl⟩
  | some k =>
    have hk := h k hwrite
    have hshort : ((startDataPacket ptp.transactionID size).take (k + 1)).length ≠ 0x14 := by
      rw [List.length_take]
      omega
    simp only [if_pos hshort]
    exact ⟨_, rfl⟩

theorem senddata_started (size : UInt64) (handler : Handler τ)
    (h : ¬ StartFails w) :
    ptpPtpipSenddata fuel ptp size handler w =
      senddataLoop handler ptp.transactionID size fuel 0 (started ptp size w) := by
  unfold StartFails at h
  simp only [not_forall, Nat.not_lt] at h
  obtain ⟨k, hwrite, hk⟩ := h
  have htake : (startDataPacket ptp.transactionID size).take (k + 1) =
      startDataPacket ptp.transactionID size := List.take_of_length_le hk
  have hlength : (startDataPacket ptp.transactionID size).length = 0x14 := rfl
  unfold ptpPtpipSenddata write
  rw [Option.mem_def.mp hwrite]
  simp only [htake, hlength, ne_eq, not_true_eq_false, if_false]
  rfl

/-- A data phase takes more bytes than its `START_DATA` packet. -/
theorem DataPhase.length {packets rest : List Packet} {payload : List UInt8}
    (h : DataPhase packets payload rest) : 20 < (packets.flatMap Packet.encode).length := by
  obtain ⟨start, datas, rfl, -, h8, ⟨firsts, last, rfl, -, -, h4⟩, -⟩ := h
  simp only [List.cons_append, append_assoc, flatMap_cons, List.flatMap_append,
    List.flatMap_nil, length_append, Packet.encode_length]
  omega

/-- `ptp_ptpip_senddata` only reports legal data phases as sent exactly if a `write` on the way
fails, or the size is neither 0 nor 4 GiB or more and every call of the handler succeeds with as
many bytes as it is asked for. -/
theorem senddata_phase_iff (handler : Handler τ) (ptp : PTPContainer) (size : UInt64)
    (w : World τ) :
    SendsPhase handler ptp size w ↔
      StartFails w ∨ RoundsFail handler size 0 w.priv w.writes (w.nwrites + 1) ∨
      (0 < size.toNat ∧ size.toNat < 2 ^ 32 ∧ ∀ n, ∀ g ∈ rounds handler size n 0 w.priv,
        g.result = ptpRcOk ∧ g.bytes.length = g.wanted) := by
  have hzero : (0 : UInt32).toNat ≤ size.toNat := Nat.zero_le _
  have herror {ret : UInt16} (hret : ret = ptpRcGeneralError) : ret ≠ ptpRcOk := by
    rw [hret]
    decide
  by_cases hstart : StartFails w
  · obtain ⟨w', hrun⟩ := senddata_startFails 0 ptp size handler hstart
    exact iff_of_true ⟨0, _, w', hrun, fun hok => absurd hok (herror rfl)⟩ (.inl hstart)
  by_cases hfail : RoundsFail handler size 0 w.priv w.writes (w.nwrites + 1)
  · obtain ⟨fuel, w', hrun⟩ := @RoundsFail.ends τ handler ptp.transactionID size 0
      (started ptp size w) hfail
    refine iff_of_true ⟨fuel, _, w', ?_, fun hok => absurd hok (herror rfl)⟩ (.inr (.inl hfail))
    rw [senddata_started fuel ptp size handler hstart]
    exact hrun
  constructor
  · rintro ⟨fuel, ret, w', hrun, hok⟩
    refine .inr (.inr ?_)
    rw [senddata_started fuel ptp size handler hstart] at hrun
    obtain ⟨-, hfail'⟩ | ⟨rfl, hgets, hall⟩ := senddataLoop_cases hrun
    · exact absurd hfail' hfail
    obtain ⟨gets, packets, payload, hgets', hfull, hwire, hphase, -, -⟩ := hok rfl
    obtain rfl := List.append_cancel_left (hgets'.symm.trans hgets)
    have hsize : size.toNat < 2 ^ 32 := by
      by_contra hlarge
      exact herror (senddataLoop_endless (Nat.not_lt.mp hlarge) hrun) rfl
    refine ⟨?_, hsize, fun n g hg => hfull g (hall n g hg)⟩
    by_contra hempty
    -- nothing is sent behind the START_DATA packet
    obtain ⟨sent, hsent, -, -, hnone⟩ := senddataLoop_packets hsize hzero hrun
    obtain rfl : sent = [] := by rwa [UInt32.toNat_zero, if_neg hempty] at hnone
    have hsame : packets.flatMap Packet.encode = startDataPacket ptp.transactionID size := by
      rw [hsent, List.flatMap_nil, append_nil] at hwire
      exact (List.append_cancel_left hwire).symm
    have hlength := hphase.length
    rw [hsame] at hlength
    exact absurd hlength (Nat.lt_irrefl 20)
  · rintro (h | h | ⟨hpos, hsize, hfull⟩)
    · exact absurd h hstart
    · exact absurd h hfail
    · obtain ⟨ret, w', hrun⟩ := @senddataLoop_ends τ handler ptp.transactionID size 0 _
        (started ptp size w) hsize hzero (Nat.lt_succ_self _)
      refine ⟨_, ret, w', (senddata_started _ ptp size handler hstart).trans hrun, ?_⟩
      rintro rfl
      obtain ⟨hret, -⟩ | ⟨-, hgets, -⟩ := senddataLoop_cases hrun
      · exact absurd hret (by decide)
      obtain ⟨datas, hwire, hbytes, hsum, hdatas⟩ :=
        senddataLoop_packets hsize hzero hrun
      have hdatas : DataPackets datas := by rwa [UInt32.toNat_zero, if_pos hpos] at hdatas
      have hlength : (datas.flatMap Packet.payload).length = size.toNat := by
        rw [UInt32.toNat_zero, Nat.sub_zero] at hsum
        rw [hbytes, List.length_flatMap]
        refine Eq.trans ?_ hsum
        exact congrArg List.sum (List.map_congr_left fun g hg => (hfull _ g hg).2)
      refine ⟨_, startPacket ptp.transactionID size :: datas, _, hgets,
        hfull _, ?_, ⟨startPacket ptp.transactionID size, datas, ?_, rfl, ?_, hdatas, rfl,
          ?_⟩, hbytes, hlength⟩
      · rw [hwire, flatMap_cons, startPacket_encode, ← append_assoc]
        rfl
      · rw [append_nil]
      · show 8 ≤ 12
        decide
      · rw [hlength, startPacket_total hsize]

/-- A connection that takes up to `n` bytes with each `write`. -/
def World.taking (n : Nat) : World Unit := { World.received [] () with writes := fun _ => some n }

/-- Without data, no `END_DATA` packet is sent. -/
theorem senddata_nothing : ¬ ∀ (τ : Type) (handler : Handler τ) (ptp : PTPContainer)
    (size : UInt64) (w : World τ), SendsPhase handler ptp size w := by
  intro h
  obtain ⟨fuel, ret, w', hrun, hok⟩ := h Unit Handler.sink .zero 0 (World.taking 100)
  have hstart : ¬ StartFails (World.taking 100) := fun h => absurd (h 100 rfl) (by decide)
  rw [senddata_started fuel _ _ _ hstart] at hrun
  match fuel, hrun with
  | fuel + 1, hrun =>
    rw [senddataLoop, if_neg (by decide)] at hrun
    cases hrun
    obtain ⟨gets, packets, payload, -, -, hwire, hphase, -⟩ := hok rfl
    have hlength := hphase.length
    have hsame : packets.flatMap Packet.encode = startDataPacket 0 0 := hwire.symm
    rw [hsame] at hlength
    exact absurd hlength (by decide)

end GPhoto2.Ptpip
