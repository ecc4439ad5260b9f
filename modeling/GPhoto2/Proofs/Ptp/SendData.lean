import GPhoto2.Ptp.Transaction

/-!
# `GPhoto2.Proofs.Ptp.SendData`: what `ptp_usb_senddata` puts on the wire

The loop of `ptp_usb_senddata` reads a block from the handler, writes it, and counts what was
written. What `gp_port_write` leaves over is not written again, and the handler has moved on.
So the loop ends well if every write takes the whole block (`AllTaken`). After a short write
it ends only through an error, and without one not at all (`StaysShort`).

`senddata_sends_iff`: with a handler that supplies the announced bytes, `ptp_usb_senddata` ends,
and with `PTP_RC_OK` only after header and bytes went out, if and only if its writes do not
stay short and what goes out whole has a length that fits into 32 bits.
-/

set_option autoImplicit false

namespace GPhoto2

open Lib
open List (append_assoc append_nil length_append length_take)
open Lib.Comp (bind_eq_some bind_run_ok get_bind_run pure_bind_run)

variable {τ : Type}

/-! ### Handlers -/

/-- The handler hands out these bytes, in blocks of any size, some of them empty, and then
nothing more. -/
inductive Supplies (getfunc : Nat → τ → (UInt16 × List UInt8) × τ) : τ → List UInt8 → Prop
  | finished {t : τ} : (∀ n, getfunc n t = ((ptpRcOk, []), t)) → Supplies getfunc t []
  | read {t : τ} {data : List UInt8} : data ≠ [] →
      (∀ n, 0 < n → (getfunc n t).1.1 = ptpRcOk ∧ (getfunc n t).1.2.length ≤ n ∧
        (getfunc n t).1.2 <+: data) →
      (∀ n, 0 < n → Supplies getfunc (getfunc n t).2 (data.drop (getfunc n t).1.2.length)) →
      Supplies getfunc t data

theorem Supplies.get {getfunc : Nat → τ → (UInt16 × List UInt8) × τ} {t : τ}
    {data : List UInt8} (h : Supplies getfunc t data) {n : Nat} (hn : 0 < n ∨ data = []) :
    ∃ bytes rest t', getfunc n t = ((ptpRcOk, bytes), t') ∧ bytes.length ≤ n ∧
      data = bytes ++ rest ∧ Supplies getfunc t' rest := by
  cases h with
  | finished hend => exact ⟨[], [], t, hend n, Nat.zero_le n, rfl, .finished hend⟩
  | read hne hread hnext =>
    rcases hn with hn | hn
    · obtain ⟨hok, hle, rest, hrest⟩ := hread n hn
      refine ⟨(getfunc n t).1.2, rest, (getfunc n t).2, ?_, hle, hrest.symm, ?_⟩
      · rw [← hok]
      · have := hnext n hn
        rwa [← hrest, List.drop_left] at this
    · exact absurd hn hne

theorem memory_supplies (data : List UInt8) (curoff : Nat) (h : curoff ≤ data.length) :
    Supplies memoryGetfunc ⟨data, curoff⟩ (data.drop curoff) := by
  generalize hleft : data.length - curoff = left
  induction left using Nat.strongRecOn generalizing curoff with
  | ind left ih =>
    by_cases hend : curoff = data.length
    · rw [hend, List.drop_length]
      refine .finished fun n => ?_
      have htocopy : (if data.length < data.length + n then data.length - data.length else n) =
          0 := by
        split <;> omega
      simp only [memoryGetfunc, htocopy, List.take_zero, Nat.add_zero]
    · have hget : ∀ n, memoryGetfunc n ⟨data, curoff⟩ =
          ((ptpRcOk, (data.drop curoff).take (min n (data.length - curoff))),
            ⟨data, curoff + min n (data.length - curoff)⟩) := by
        intro n
        have htocopy : (if data.length < curoff + n then data.length - curoff else n) =
            min n (data.length - curoff) := by
          split <;> omega
        simp only [memoryGetfunc, htocopy]
      refine .read (fun hnil => hend ?_) (fun n hn => ?_) fun n hn => ?_
      · have := congrArg List.length hnil
        rw [List.length_drop, List.length_nil] at this
        omega
      · rw [hget]
        refine ⟨rfl, ?_, List.take_prefix ..⟩
        rw [length_take]
        omega
      · rw [hget, length_take, List.length_drop, List.drop_drop, Nat.min_assoc,
          Nat.min_self]
        exact ih _ (by omega) _ (by omega) rfl

/-! ### The loop -/

section
variable (handler : PTPDataHandler τ) (writes : Nat → Int)

/-- Every write of the loop takes the whole block, from the state `t` of the handler, `left`
bytes and the `k`th write on. -/
inductive AllTaken : τ → Nat → Nat → Prop
  | finished {t : τ} {k : Nat} : AllTaken t 0 k
  | round {t t' : τ} {left k : Nat} {bytes : List UInt8} : 0 < left →
      handler.getfunc (min 4096 left) t = ((ptpRcOk, bytes), t') →
      (bytes.length : Int) ≤ writes k → AllTaken t' (left - bytes.length) (k + 1) →
      AllTaken t left k

/-- Some write of the loop is short, and no write after it fails. -/
inductive StaysShort : τ → Nat → Nat → Prop
  | here {t t' : τ} {left k : Nat} {bytes : List UInt8} : 0 < left →
      handler.getfunc (min 4096 left) t = ((ptpRcOk, bytes), t') →
      0 ≤ writes k → writes k < bytes.length → (∀ j, k < j → 0 ≤ writes j) →
      StaysShort t left k
  | later {t t' : τ} {left k : Nat} {bytes : List UInt8} : 0 < left →
      handler.getfunc (min 4096 left) t = ((ptpRcOk, bytes), t') →
      (bytes.length : Int) ≤ writes k → StaysShort t' (left - bytes.length) (k + 1) →
      StaysShort t left k

end

section
variable {handler : PTPDataHandler τ} {w : UsbWorld τ} {t t' : τ} {data bytes : List UInt8}
  {left written : Nat}

theorem senddataLoop_fail (fuel : Nat) (hleft : left ≠ 0)
    (hget : handler.getfunc (min 4096 left) w.priv = ((ptpRcOk, bytes), t'))
    (hwrite : w.writes w.nwrites < 0) :
    ∃ w', senddataLoop handler (fuel + 1) left written w =
      some (.ok (ptpErrorIo, written), w') := by
  refine ⟨{ w with priv := t', nwrites := w.nwrites + 1 }, ?_⟩
  unfold senddataLoop
  rw [if_neg hleft]
  simp only [getfunc, gpPortWrite, Comp.bind_assoc, get_bind_run, hget,
    Comp.modify_bind_run, pure_bind_run, ne_eq, not_true_eq_false, if_false, hwrite,
    if_true, Comp.pure_run]

/-- The part of a block the next write takes. -/
def UsbWorld.takes (w : UsbWorld τ) (bytes : List UInt8) : List UInt8 :=
  bytes.take (w.writes w.nwrites).toNat

/-- The world after a block was read and the next write has taken its part. -/
def UsbWorld.wrote (w : UsbWorld τ) (t' : τ) (bytes : List UInt8) : UsbWorld τ :=
  { w with priv := t', nwrites := w.nwrites + 1, wire := w.wire ++ w.takes bytes }

@[simp] theorem UsbWorld.wrote_priv : (w.wrote t' bytes).priv = t' := rfl

@[simp] theorem UsbWorld.wrote_nwrites : (w.wrote t' bytes).nwrites = w.nwrites + 1 := rfl

@[simp] theorem UsbWorld.wrote_writes : (w.wrote t' bytes).writes = w.writes := rfl

@[simp] theorem UsbWorld.wrote_wire : (w.wrote t' bytes).wire = w.wire ++ w.takes bytes := rfl

theorem UsbWorld.takes_length_le (w : UsbWorld τ) (bytes : List UInt8) :
    (w.takes bytes).length ≤ bytes.length := List.length_take_le' ..

theorem UsbWorld.takes_all (h : (bytes.length : Int) ≤ w.writes w.nwrites) :
    w.takes bytes = bytes := List.take_of_length_le (by omega)

theorem senddataLoop_round (fuel : Nat) (hleft : left ≠ 0)
    (hget : handler.getfunc (min 4096 left) w.priv = ((ptpRcOk, bytes), t'))
    (hwrite : ¬ w.writes w.nwrites < 0) :
    senddataLoop handler (fuel + 1) left written w =
      senddataLoop handler fuel (left - (w.takes bytes).length)
        (written + (w.takes bytes).length) (w.wrote t' bytes) := by
  rw [senddataLoop, if_neg hleft]
  simp only [getfunc, gpPortWrite, Comp.bind_assoc, get_bind_run, hget,
    Comp.modify_bind_run, pure_bind_run, ne_eq, not_true_eq_false, if_false, hwrite]
  rw [if_neg (Int.not_lt.mpr (Int.natCast_nonneg _)), Int.toNat_natCast]
  rfl

theorem senddataLoop_mono {fuel fuel' : Nat} {r : Except UInt16 (UInt16 × Nat)}
    {w' : UsbWorld τ} (hle : fuel ≤ fuel')
    (h : senddataLoop handler fuel left written w = some (r, w')) :
    senddataLoop handler fuel' left written w = some (r, w') := by
  induction fuel generalizing fuel' left written w with
  | zero => cases h
  | succ fuel ih =>
    obtain ⟨fuel', rfl⟩ := Nat.exists_eq_add_of_le' (Nat.le_trans (Nat.le_add_left 1 fuel) hle)
    have hle' : fuel ≤ fuel' := by omega
    unfold senddataLoop at h ⊢
    by_cases hleft : left = 0
    · rwa [if_pos hleft] at h ⊢
    rw [if_neg hleft] at h ⊢
    rcases bind_eq_some.mp h with ⟨e, hget, -⟩ | ⟨⟨ret, bytes⟩, w₁, hget, h⟩
    · cases hget
    rw [bind_run_ok hget]
    simp only at h ⊢
    by_cases hret : ret ≠ ptpRcOk
    · rwa [if_pos hret] at h ⊢
    rw [if_neg hret] at h ⊢
    rcases bind_eq_some.mp h with ⟨e, hwrite, rfl⟩ | ⟨res, w₂, hwrite, h⟩
    · rw [Comp.bind_run_error hwrite]
    rw [bind_run_ok hwrite]
    by_cases hres : res < 0
    · rwa [if_pos hres] at h ⊢
    · rw [if_neg hres] at h ⊢
      exact ih hle' h

/-- With more bytes to write than the handler has left, the loop never gets to its end. -/
theorem senddataLoop_stuck (hsupplies : Supplies handler.getfunc w.priv data)
    (hlost : data.length < left) (hwrites : ∀ j, w.nwrites ≤ j → 0 ≤ w.writes j) (fuel : Nat) :
    senddataLoop handler fuel left written w = none := by
  induction fuel generalizing w data left written with
  | zero => rfl
  | succ fuel ih =>
    obtain ⟨bytes, rest, t', hget, -, rfl, hrest⟩ :=
      hsupplies.get (n := min 4096 left) (Or.inl (by omega))
    rw [senddataLoop_round fuel (by omega) hget
      (Int.not_lt.mpr (hwrites _ (Nat.le_refl _)))]
    refine ih hrest ?_ fun j hj => hwrites j (Nat.le_of_succ_le hj)
    rw [length_append] at hlost
    have := w.takes_length_le bytes
    omega

theorem senddataLoop_lost (written : Nat) (hsupplies : Supplies handler.getfunc w.priv data)
    (hlost : data.length < left) {j : Nat} (hj : w.nwrites ≤ j) (hfail : w.writes j < 0) :
    ∃ fuel written' w', senddataLoop handler fuel left written w =
      some (.ok (ptpErrorIo, written'), w') := by
  generalize hrounds : j - w.nwrites = rounds
  induction rounds generalizing w data left written with
  | zero =>
    obtain ⟨bytes, rest, t', hget, -, rfl, hrest⟩ :=
      hsupplies.get (n := min 4096 left) (Or.inl (by omega))
    obtain rfl : j = w.nwrites := by omega
    obtain ⟨w', hrun⟩ := senddataLoop_fail 0 (by omega) hget hfail
    exact ⟨1, written, w', hrun⟩
  | succ rounds ih =>
    obtain ⟨bytes, rest, t', hget, -, rfl, hrest⟩ :=
      hsupplies.get (n := min 4096 left) (Or.inl (by omega))
    by_cases hwrite : w.writes w.nwrites < 0
    · obtain ⟨w', hrun⟩ := senddataLoop_fail 0 (by omega) hget hwrite
      exact ⟨1, written, w', hrun⟩
    · rw [length_append] at hlost
      have hle := w.takes_length_le bytes
      obtain ⟨fuel, written', w', hrun⟩ := ih (written + (w.takes bytes).length)
        (w := w.wrote t' bytes) hrest
        (show rest.length < left - (w.takes bytes).length by omega)
        (show w.nwrites + 1 ≤ j by omega) hfail (by simp only [UsbWorld.wrote_nwrites]; omega)
      refine ⟨fuel + 1, written', w', ?_⟩
      rw [senddataLoop_round fuel (by omega) hget hwrite]
      exact hrun

/-- A round that takes the whole block leaves the rest of the loop to decide. -/
theorem allTaken_round_iff {writes : Nat → Int} {k : Nat} (hleft : 0 < left)
    (hget : handler.getfunc (min 4096 left) t = ((ptpRcOk, bytes), t'))
    (hwrite : (bytes.length : Int) ≤ writes k) :
    AllTaken handler writes t left k ↔
      AllTaken handler writes t' (left - bytes.length) (k + 1) := by
  constructor
  · intro h
    cases h with
    | finished => omega
    | round _ hget' _ hrest =>
      rw [hget] at hget'
      cases hget'
      exact hrest
  · exact .round hleft hget hwrite

theorem staysShort_round_iff {writes : Nat → Int} {k : Nat} (hleft : 0 < left)
    (hget : handler.getfunc (min 4096 left) t = ((ptpRcOk, bytes), t'))
    (hwrite : (bytes.length : Int) ≤ writes k) :
    StaysShort handler writes t left k ↔
      StaysShort handler writes t' (left - bytes.length) (k + 1) := by
  constructor
  · intro h
    cases h with
    | here _ hget' _ hshort =>
      rw [hget] at hget'
      cases hget'
      omega
    | later _ hget' _ hrest =>
      rw [hget] at hget'
      cases hget'
      exact hrest
  · exact .later hleft hget hwrite

/-- A round whose write does not take the whole block is not one of a loop that does. -/
theorem not_allTaken {writes : Nat → Int} {k : Nat} (hleft : 0 < left)
    (hget : handler.getfunc (min 4096 left) t = ((ptpRcOk, bytes), t'))
    (hwrite : writes k < bytes.length) : ¬ AllTaken handler writes t left k := by
  intro h
  cases h with
  | finished => omega
  | round _ hget' hwrite' =>
    rw [hget] at hget'
    cases hget'
    omega

/-- How the loop ends, for a handler that supplies exactly the bytes left: all of them are on
the wire, or a write failed, or it does not end. -/
theorem senddataLoop_cases (written : Nat) (hsupplies : Supplies handler.getfunc w.priv data) :
    (AllTaken handler w.writes w.priv data.length w.nwrites ∧
      ¬ StaysShort handler w.writes w.priv data.length w.nwrites ∧
      ∃ fuel written' w', senddataLoop handler fuel data.length written w =
        some (.ok (ptpRcOk, written'), w') ∧ w'.wire = w.wire ++ data) ∨
    (¬ AllTaken handler w.writes w.priv data.length w.nwrites ∧
      ¬ StaysShort handler w.writes w.priv data.length w.nwrites ∧
      ∃ fuel written' w', senddataLoop handler fuel data.length written w =
        some (.ok (ptpErrorIo, written'), w')) ∨
    (StaysShort handler w.writes w.priv data.length w.nwrites ∧
      ∀ fuel, senddataLoop handler fuel data.length written w = none) := by
  generalize ht : w.priv = t at hsupplies ⊢
  induction hsupplies generalizing w written with
  | finished _ =>
    refine Or.inl ⟨.finished, fun h => ?_, 1, written, w, rfl, (append_nil _).symm⟩
    cases h with
    | here hleft => exact absurd hleft (Nat.lt_irrefl 0)
    | later hleft => exact absurd hleft (Nat.lt_irrefl 0)
  | @read t data hne hread hnext ih =>
    have hleft : 0 < data.length := List.length_pos_iff.mpr hne
    have hn : 0 < min 4096 data.length := by omega
    obtain ⟨hok, -, rest, hrest⟩ := hread _ hn
    have hnext' := hnext _ hn
    have ih' := fun w written => @ih _ hn w written
    generalize hanswer : handler.getfunc (min 4096 data.length) t = answer at *
    obtain ⟨⟨ret, bytes⟩, t'⟩ := answer
    subst ht
    simp only at hok hrest hnext' ih'
    subst hok
    subst hrest
    rw [List.drop_left] at hnext' ih'
    by_cases hfail : w.writes w.nwrites < 0
    · -- The write fails.
      obtain ⟨w', hrun⟩ := senddataLoop_fail 0 (by omega) hanswer hfail
      refine Or.inr (Or.inl ⟨not_allTaken hleft hanswer (by omega), fun h => ?_, 1, written, w',
        hrun⟩)
      cases h with
      | here _ hget' _ => omega
      | later _ hget' _ => omega
    · by_cases hshort : w.writes w.nwrites < bytes.length
      · -- The write is short.
        have hround : ∀ fuel, senddataLoop handler (fuel + 1) (bytes ++ rest).length written w =
            senddataLoop handler fuel ((bytes ++ rest).length - (w.takes bytes).length)
              (written + (w.takes bytes).length) (w.wrote t' bytes) := fun fuel =>
          senddataLoop_round fuel (by omega) hanswer hfail
        have hlost : rest.length < (bytes ++ rest).length - (w.takes bytes).length := by
          have : (w.takes bytes).length < bytes.length := by
            rw [UsbWorld.takes, length_take]
            omega
          rw [length_append]
          omega
        by_cases hlater : ∃ j, w.nwrites < j ∧ w.writes j < 0
        · obtain ⟨j, hj, hfailj⟩ := hlater
          obtain ⟨fuel, written', w', hrun⟩ := senddataLoop_lost
            (written + (w.takes bytes).length) (w := w.wrote t' bytes) hnext' hlost
            (j := j) hj hfailj
          refine Or.inr (Or.inl ⟨not_allTaken hleft hanswer hshort, fun h => ?_, fuel + 1,
            written', w', (hround fuel).trans hrun⟩)
          cases h with
          | here _ _ _ _ hall =>
            have := hall j hj
            omega
          | later _ hget' htaken =>
            rw [hanswer] at hget'
            cases hget'
            omega
        · have hall : ∀ j, w.nwrites < j → 0 ≤ w.writes j := fun j hj =>
            Int.not_lt.mp fun hneg => hlater ⟨j, hj, hneg⟩
          refine Or.inr (Or.inr ⟨.here hleft hanswer (by omega) hshort hall, fun fuel => ?_⟩)
          cases fuel with
          | zero => rfl
          | succ fuel =>
            rw [hround fuel]
            exact senddataLoop_stuck (w := w.wrote t' bytes) hnext' hlost
              (fun j hj => hall j hj) fuel
      · -- The write takes the whole block.
        have htaken : (bytes.length : Int) ≤ w.writes w.nwrites := by omega
        have hround : ∀ fuel, senddataLoop handler (fuel + 1) (bytes ++ rest).length written w =
            senddataLoop handler fuel ((bytes ++ rest).length - (w.takes bytes).length)
              (written + (w.takes bytes).length) (w.wrote t' bytes) := fun fuel =>
          senddataLoop_round fuel (by omega) hanswer hfail
        rw [w.takes_all htaken] at hround
        have hleft' : (bytes ++ rest).length - bytes.length = rest.length := by
          rw [length_append]
          omega
        rw [allTaken_round_iff hleft hanswer htaken, staysShort_round_iff hleft hanswer htaken]
        rw [hleft'] at hround ⊢
        rcases ih' (w.wrote t' bytes) (written + bytes.length) rfl with
          ⟨hall, hnot, fuel, written', w', hrun, hwire⟩ | ⟨hall, hnot, fuel, written', w', hrun⟩ |
          ⟨hshort, hstuck⟩
        · refine Or.inl ⟨hall, hnot, fuel + 1, written', w', (hround fuel).trans hrun, ?_⟩
          rw [hwire, UsbWorld.wrote_wire, w.takes_all htaken, append_assoc]
        · exact Or.inr (Or.inl ⟨hall, hnot, fuel + 1, written', w', (hround fuel).trans hrun⟩)
        · refine Or.inr (Or.inr ⟨hshort, fun fuel => ?_⟩)
          cases fuel with
          | zero => rfl
          | succ fuel => exact (hround fuel).trans (hstuck fuel)

end

/-! ### The whole function -/

/-- The bytes of a DATA container with this payload went out, the header first. -/
def SentData (ptp : PTPContainer) (size : Nat) (data : List UInt8) (w w' : UsbWorld τ) : Prop :=
  ∃ header, w'.wire = w.wire ++ header ++ data ∧ header.length = 12 ∧
    (dtoh32a header 0).toNat = 12 + size ∧ dtoh16a header 4 = ptpUsbContainerData ∧
    dtoh16a header 6 = ptp.code ∧ dtoh32a header 8 = ptp.transactionID

/-- `ptp_usb_senddata` ends, and with `PTP_RC_OK` only after everything went out. -/
def SendsData (handler : PTPDataHandler τ) (ptp : PTPContainer) (size : Nat)
    (data : List UInt8) (w : UsbWorld τ) : Prop :=
  (∃ fuel, ptpUsbSenddata fuel ptp size handler w ≠ none) ∧
  ∀ fuel w', ptpUsbSenddata fuel ptp size handler w = some (.ok (), w') →
    SentData ptp size data w w'

/-- The payload of the first packet and the state of the handler after it, unless the handler
fails or runs short. -/
def firstRead (handler : PTPDataHandler τ) (size : Nat) (w : UsbWorld τ) :
    Option (List UInt8 × τ) :=
  if w.splitHeaderData then some ([], w.priv)
  else
    match handler.getfunc (min size ptpUsbBulkPayloadLenWrite) w.priv with
    | ((ret, data), t) =>
      if ret = ptpRcOk ∧ data.length = min size ptpUsbBulkPayloadLenWrite then some (data, t)
      else none

/-- After a complete first packet, the writes of the loop do not stay short, and if all are
complete the length fits into the header. -/
def SendFits (handler : PTPDataHandler τ) (size : Nat) (w : UsbWorld τ) : Prop :=
  ∀ first t, firstRead handler size w = some (first, t) →
    ((12 + first.length : Nat) : Int) ≤ w.writes w.nwrites →
    ¬ StaysShort handler w.writes t (size - first.length) (w.nwrites + 1) ∧
    (AllTaken handler w.writes t (size - first.length) (w.nwrites + 1) → 12 + size < 2 ^ 32)

section
variable {handler : PTPDataHandler τ} {w w' : UsbWorld τ} {t : τ} {ptp : PTPContainer}
  {size : Nat} {data first : List UInt8}

/-- A write of some bytes: it fails, or the wire gets the part it takes. -/
theorem gpPortWrite_run (bytes : List UInt8) (w : UsbWorld τ) :
    gpPortWrite bytes w = some (.ok
        (if w.writes w.nwrites < 0 then w.writes w.nwrites else (w.takes bytes).length),
      { w with nwrites := w.nwrites + 1, wire := w.wire ++ w.takes bytes }) := by
  unfold gpPortWrite
  rw [get_bind_run]
  by_cases hneg : w.writes w.nwrites < 0
  · have hnone : w.takes bytes = [] := by
      rw [UsbWorld.takes, Int.toNat_of_nonpos (Int.le_of_lt hneg), List.take_zero]
    rw [if_pos hneg, if_pos hneg, hnone, append_nil]
    rfl
  · rw [if_neg hneg, if_neg hneg]
    rfl

/-- The end of `ptp_usb_senddata` only tells how it went. -/
theorem senddataFinalize_run (ret : UInt16) (written : Nat) (w : UsbWorld τ) :
    ∃ r w', senddataFinalize ret written w = some (r, w') ∧ w'.wire = w.wire ∧
      (r = .ok () ↔ ret = ptpRcOk) := by
  have hend : ∀ w₁ : UsbWorld τ, ∃ r, ioUnlessCancel ret w₁ = some (r, w₁) ∧
      (r = .ok () ↔ ret = ptpRcOk) := by
    intro w₁
    unfold ioUnlessCancel
    by_cases hok : ret = ptpRcOk
    · exact ⟨.ok (), by rw [if_pos hok]; rfl, iff_of_true rfl hok⟩
    · by_cases hcancel : ret = ptpErrorCancel
      · exact ⟨.error ret, by rw [if_neg hok, if_pos hcancel]; rfl, by simp [hok]⟩
      · exact ⟨.error ptpErrorIo, by rw [if_neg hok, if_neg hcancel]; rfl, by simp [hok]⟩
  unfold senddataFinalize
  rw [get_bind_run]
  by_cases hzlp : ret = ptpRcOk ∧ written % w.maxpacketsize = 0
  · rw [if_pos hzlp]
    have hwrite := gpPortWrite_run [] w
    rw [UsbWorld.takes, List.take_nil, append_nil] at hwrite
    obtain ⟨r, hr, hok⟩ := hend { w with nwrites := w.nwrites + 1 }
    exact ⟨r, _, (bind_run_ok hwrite).trans hr, rfl, hok⟩
  · rw [if_neg hzlp]
    obtain ⟨r, hr, hok⟩ := hend w
    exact ⟨r, w, hr, rfl, hok⟩

theorem senddataFirst_run (handler : PTPDataHandler τ) (size : Nat) (w : UsbWorld τ) :
    (firstRead handler size w = none ∧
      ∃ e w', senddataFirst size handler w = some (.error e, w')) ∨
    ∃ first t, firstRead handler size w = some (first, t) ∧
      senddataFirst size handler w = some (.ok first, { w with priv := t }) := by
  unfold firstRead senddataFirst
  rw [get_bind_run]
  by_cases hsplit : w.splitHeaderData
  · rw [if_pos hsplit, if_pos hsplit]
    exact Or.inr ⟨[], w.priv, rfl, rfl⟩
  rw [if_neg hsplit, if_neg hsplit]
  obtain ⟨answer, hget⟩ : ∃ answer, answer =
      handler.getfunc (min size ptpUsbBulkPayloadLenWrite) w.priv := ⟨_, rfl⟩
  obtain ⟨⟨ret, bytes⟩, t⟩ := answer
  simp only [getfunc, Comp.bind_assoc, get_bind_run, ← hget, Comp.modify_bind_run,
    pure_bind_run]
  by_cases hret : ret = ptpRcOk
  · by_cases hlen : bytes.length = min size ptpUsbBulkPayloadLenWrite
    · rw [if_pos ⟨hret, hlen⟩, if_neg (not_not_intro hret), if_neg (not_not_intro hlen)]
      exact Or.inr ⟨bytes, t, rfl, rfl⟩
    · rw [if_neg fun h => hlen h.2, if_neg (not_not_intro hret), if_pos hlen]
      exact Or.inl ⟨rfl, _, _, rfl⟩
  · rw [if_neg fun h => hret h.1, if_pos hret]
    exact Or.inl ⟨rfl, _, _, rfl⟩

theorem Supplies.firstRead (hsupplies : Supplies handler.getfunc w.priv data)
    (hfirst : firstRead handler data.length w = some (first, t)) :
    ∃ rest, data = first ++ rest ∧ Supplies handler.getfunc t rest := by
  unfold GPhoto2.firstRead at hfirst
  by_cases hsplit : w.splitHeaderData
  · rw [if_pos hsplit] at hfirst
    cases hfirst
    exact ⟨data, rfl, hsupplies⟩
  · rw [if_neg hsplit] at hfirst
    obtain ⟨bytes, rest, t', hget, -, rfl, hrest⟩ :=
      hsupplies.get (n := min data.length ptpUsbBulkPayloadLenWrite) (by
        cases data with
        | nil => exact Or.inr rfl
        | cons b data =>
          simp only [List.length_cons, ptpUsbBulkPayloadLenWrite]
          omega)
    rw [hget] at hfirst
    simp only [Option.ite_none_right_eq_some, Option.some.injEq, Prod.mk.injEq] at hfirst
    obtain ⟨-, rfl, rfl⟩ := hfirst
    exact ⟨rest, rfl, hrest⟩

theorem senddata_first_short (hfirst : firstRead handler size w = some (first, t))
    (hwrite : w.writes w.nwrites < (12 + first.length : Nat)) (ptp : PTPContainer)
    (fuel : Nat) : ∃ e w', ptpUsbSenddata fuel ptp size handler w = some (.error e, w') := by
  rcases senddataFirst_run handler size w with ⟨hnone, -⟩ | ⟨first', t', hsome, hrun⟩
  · rw [hfirst] at hnone
    cases hnone
  rw [hfirst] at hsome
  cases hsome
  unfold ptpUsbSenddata
  rw [bind_run_ok hrun]
  simp only
  generalize husbdata : containerHeader (UInt32.ofNat (ptpUsbBulkHdrLen + size))
    ptpUsbContainerData ptp.code ptp.transactionID ++ first = usbdata
  have hlen : usbdata.length = 12 + first.length := by
    rw [← husbdata, length_append, length_containerHeader]
  rw [bind_run_ok (gpPortWrite_run usbdata { w with priv := t }), if_pos]
  · exact ⟨ptpErrorIo, _, rfl⟩
  · simp only [UsbWorld.takes]
    rw [length_take]
    split <;> omega

theorem senddata_first_taken (hfirst : firstRead handler size w = some (first, t))
    (hwrite : ((12 + first.length : Nat) : Int) ≤ w.writes w.nwrites) (ptp : PTPContainer) :
    ∃ w₁ : UsbWorld τ, w₁.priv = t ∧ w₁.writes = w.writes ∧ w₁.nwrites = w.nwrites + 1 ∧
      w₁.wire = w.wire ++ (containerHeader (UInt32.ofNat (ptpUsbBulkHdrLen + size))
        ptpUsbContainerData ptp.code ptp.transactionID ++ first) ∧
      ∀ fuel, ptpUsbSenddata fuel ptp size handler w =
        (if size ≤ first.length then senddataFinalize ptpRcOk (12 + first.length)
        else senddataLoop handler fuel (size - first.length) 0 >>= fun r =>
          senddataFinalize r.1 r.2) w₁ := by
  rcases senddataFirst_run handler size w with ⟨hnone, -⟩ | ⟨first', t', hsome, hrun⟩
  · rw [hfirst] at hnone
    cases hnone
  rw [hfirst] at hsome
  cases hsome
  generalize husbdata : containerHeader (UInt32.ofNat (ptpUsbBulkHdrLen + size))
    ptpUsbContainerData ptp.code ptp.transactionID ++ first = usbdata
  have hlen : usbdata.length = 12 + first.length := by
    rw [← husbdata, length_append, length_containerHeader]
  have htakes : ({ w with priv := t } : UsbWorld τ).takes usbdata = usbdata :=
    UsbWorld.takes_all (hlen ▸ hwrite)
  have hrun₁ := gpPortWrite_run usbdata { w with priv := t }
  rw [htakes] at hrun₁
  refine ⟨{ w with priv := t, nwrites := w.nwrites + 1, wire := w.wire ++ usbdata }, rfl, rfl, rfl,
    rfl, fun fuel => ?_⟩
  unfold ptpUsbSenddata
  rw [bind_run_ok hrun]
  simp only
  rw [husbdata, bind_run_ok hrun₁, if_neg, hlen]
  dsimp only
  split <;> omega

/-- Header and bytes make a DATA container, unless their length does not fit. -/
theorem sentData_iff
    (hwire : w'.wire = w.wire ++ (containerHeader (UInt32.ofNat (ptpUsbBulkHdrLen + size))
      ptpUsbContainerData ptp.code ptp.transactionID ++ data)) :
    SentData ptp size data w w' ↔ 12 + size < 2 ^ 32 := by
  constructor
  · rintro ⟨header, -, -, hlength, -⟩
    rw [← hlength]
    exact UInt32.toNat_lt _
  · intro hlt
    have hfields := containerHeader_fields (UInt32.ofNat (ptpUsbBulkHdrLen + size))
      ptpUsbContainerData ptp.code ptp.transactionID []
    rw [append_nil] at hfields
    obtain ⟨hlength, htype, hcode, htrans⟩ := hfields
    refine ⟨_, by rw [hwire, append_assoc], rfl, ?_, htype, hcode, htrans⟩
    rw [hlength, UInt32.toNat_ofNat', ptpUsbBulkHdrLen]
    omega

/-- Where `ptp_usb_senddata` ends the same way for any number of rounds that is enough, one run
tells what it does. -/
theorem sendsData_of_run {fuel₀ : Nat} {r : Except UInt16 Unit}
    (hrun : ptpUsbSenddata fuel₀ ptp size handler w = some (r, w'))
    (hsame : ∀ fuel r' w'', ptpUsbSenddata fuel ptp size handler w = some (r', w'') →
      r' = r ∧ w'' = w') :
    SendsData handler ptp size data w ↔ (r = .ok () → SentData ptp size data w w') := by
  constructor
  · rintro ⟨-, hsent⟩ rfl
    exact hsent fuel₀ w' hrun
  · refine fun hsent => ⟨⟨fuel₀, fun h => ?_⟩, fun fuel w'' h => ?_⟩
    · rw [hrun] at h
      cases h
    · obtain ⟨hr, rfl⟩ := hsame fuel _ w'' h
      exact hsent hr.symm

theorem senddata_sends_whole (hfirst : firstRead handler data.length w = some (data, t))
    (hwrite : ((12 + data.length : Nat) : Int) ≤ w.writes w.nwrites) :
    SendsData handler ptp data.length data w ↔ 12 + data.length < 2 ^ 32 := by
  obtain ⟨w₁, -, -, -, hwire₁, heq⟩ := senddata_first_taken hfirst hwrite ptp
  obtain ⟨r, w', hfinalize, hwire, hr⟩ :=
    senddataFinalize_run ptpRcOk (12 + data.length) w₁
  have hrun : ∀ fuel, ptpUsbSenddata fuel ptp data.length handler w = some (r, w') := by
    intro fuel
    rw [heq, if_pos (Nat.le_refl _), hfinalize]
  rw [sendsData_of_run (hrun 0), ← sentData_iff (hwire.trans hwire₁)]
  · exact ⟨fun h => h (hr.mpr rfl), fun h _ => h⟩
  · intro fuel r' w'' h
    rw [hrun] at h
    cases h
    exact ⟨rfl, rfl⟩

theorem senddata_sends_of_loop {w₁ : UsbWorld τ} {rest : List UInt8} {fuel₀ : Nat}
    {ret : UInt16} {written : Nat} {w₂ : UsbWorld τ}
    (heq : ∀ fuel, ptpUsbSenddata fuel ptp size handler w =
      (senddataLoop handler fuel rest.length 0 >>= fun r => senddataFinalize r.1 r.2) w₁)
    (hloop : senddataLoop handler fuel₀ rest.length 0 w₁ = some (.ok (ret, written), w₂)) :
    ∃ w', w'.wire = w₂.wire ∧ (SendsData handler ptp size data w ↔
      (ret = ptpRcOk → SentData ptp size data w w')) := by
  obtain ⟨r, w', hfinalize, hwire, hr⟩ := senddataFinalize_run ret written w₂
  have hrun : ∀ fuel, fuel₀ ≤ fuel →
      ptpUsbSenddata fuel ptp size handler w = some (r, w') := by
    intro fuel hle
    rw [heq, bind_run_ok (senddataLoop_mono hle hloop), hfinalize]
  refine ⟨w', hwire, ?_⟩
  rw [sendsData_of_run (hrun _ (Nat.le_refl _)), hr]
  intro fuel r' w'' h
  have henough := hrun _ (Nat.le_max_left fuel₀ fuel)
  rw [heq] at h henough
  rcases bind_eq_some.mp h with ⟨e, hstop, rfl⟩ | ⟨a, w₃, hstop, hend⟩
  · rw [Comp.bind_run_error (senddataLoop_mono (Nat.le_max_right fuel₀ fuel) hstop)] at henough
    cases henough
    exact ⟨rfl, rfl⟩
  · rw [bind_run_ok (senddataLoop_mono (Nat.le_max_right fuel₀ fuel) hstop), hend]
      at henough
    cases henough
    exact ⟨rfl, rfl⟩

/-- `ptp_usb_senddata` keeps what it promises, of a handler that supplies the announced bytes,
if and only if its writes do not stay short and the length fits. -/
theorem senddata_sends_iff (handler : PTPDataHandler τ) (ptp : PTPContainer) (size : Nat)
    (data : List UInt8) (w : UsbWorld τ) (hsize : data.length = size)
    (hsupplies : Supplies handler.getfunc w.priv data) :
    SendsData handler ptp size data w ↔ SendFits handler size w := by
  subst hsize
  rcases senddataFirst_run handler data.length w with ⟨hnone, e, w', hrun⟩ |
    ⟨first, t, hfirst, -⟩
  · -- the handler ran short, which the function returns
    have hrun : ∀ fuel, ptpUsbSenddata fuel ptp data.length handler w =
        some (.error e, w') := fun fuel => Comp.bind_run_error hrun
    refine iff_of_true ⟨⟨0, by rw [hrun]; simp⟩, fun fuel w'' h => ?_⟩ fun first t h => ?_
    · rw [hrun] at h
      cases h
    · rw [hnone] at h
      cases h
  obtain ⟨rest, hdata, hrest⟩ := hsupplies.firstRead hfirst
  have hleft : data.length - first.length = rest.length := by
    rw [hdata, length_append]
    omega
  by_cases hwrite : ((12 + first.length : Nat) : Int) ≤ w.writes w.nwrites
  · have hfits : SendFits handler data.length w ↔
        ¬ StaysShort handler w.writes t rest.length (w.nwrites + 1) ∧
        (AllTaken handler w.writes t rest.length (w.nwrites + 1) →
          12 + data.length < 2 ^ 32) := by
      rw [← hleft]
      refine ⟨fun h => h first t hfirst hwrite, fun h first' t' hfirst' _ => ?_⟩
      rw [hfirst] at hfirst'
      cases hfirst'
      exact h
    rw [hfits]
    cases hnil : rest with
    | nil =>
      obtain rfl : data = first := by rw [hdata, hnil, append_nil]
      rw [senddata_sends_whole hfirst hwrite, List.length_nil]
      refine ⟨fun h => ⟨fun hshort => ?_, fun _ => h⟩, fun h => h.2 .finished⟩
      cases hshort with
      | here hleft => exact absurd hleft (Nat.lt_irrefl 0)
      | later hleft => exact absurd hleft (Nat.lt_irrefl 0)
    | cons b rest' =>
      rw [← hnil]
      have hmore : ¬ data.length ≤ first.length := by
        rw [hnil, List.length_cons] at hleft
        omega
      obtain ⟨w₁, rfl, hwrites, hnwrites, hwire₁, heq⟩ :=
        senddata_first_taken hfirst hwrite ptp
      simp only [if_neg hmore, hleft] at heq
      rw [← hwrites, ← hnwrites]
      rcases senddataLoop_cases 0 hrest with
        ⟨hall, hnot, fuel, written, w₂, hloop, hwire₂⟩ |
        ⟨hall, hnot, fuel, written, w₂, hloop⟩ | ⟨hshort, hstuck⟩
      · obtain ⟨w', hwire', hiff⟩ := senddata_sends_of_loop heq hloop
        rw [hiff, sentData_iff (by
          rw [hwire', hwire₂, hwire₁, hdata, append_assoc, append_assoc])]
        exact ⟨fun h => ⟨hnot, fun _ => h rfl⟩, fun h _ => h.2 hall⟩
      · obtain ⟨w', -, hiff⟩ := senddata_sends_of_loop heq hloop
        rw [hiff]
        exact iff_of_true (fun h => by cases h) ⟨hnot, fun h => absurd h hall⟩
      · refine iff_of_false ?_ fun h => h.1 hshort
        rintro ⟨⟨fuel, hends⟩, -⟩
        refine hends ?_
        rw [heq, Comp.bind_run_none (hstuck fuel)]
  · -- the first packet is not taken whole, which the function returns
    refine iff_of_true ⟨⟨0, ?_⟩, fun fuel w'' h => ?_⟩ fun first' t' hfirst' hwrite' => ?_
    · obtain ⟨e, w', hrun⟩ := senddata_first_short hfirst (by omega) ptp 0
      rw [hrun]
      simp
    · obtain ⟨e, w', hrun⟩ := senddata_first_short hfirst (by omega) ptp fuel
      rw [hrun] at h
      cases h
    · rw [hfirst] at hfirst'
      cases hfirst'
      exact absurd hwrite' hwrite

/-- Two bytes for a port that takes everything. -/
theorem senddata_sends_two :
    SendsData memoryHandler .zero 2 [1, 2] (.start ⟨[1, 2], 0⟩) ↔
      SendFits memoryHandler 2 (.start ⟨[1, 2], 0⟩) :=
  senddata_sends_iff memoryHandler .zero 2 [1, 2] (.start ⟨[1, 2], 0⟩) rfl
    (memory_supplies [1, 2] 0 (Nat.zero_le _))

/-- A device with split headers and a port that takes one byte of the payload only. -/
def shortWrite : UsbWorld PTPMemHandlerPrivate :=
  { UsbWorld.start (⟨[1, 2], 0⟩ : PTPMemHandlerPrivate) with
    splitHeaderData := true
    writes := fun k => if k = 1 then 1 else 100 }

/-- The byte that was not written is never asked for again, and the loop does not end. -/
theorem short_write_hangs :
    ¬ ∀ (handler : PTPDataHandler PTPMemHandlerPrivate) (ptp : PTPContainer)
      (data : List UInt8) (w : UsbWorld PTPMemHandlerPrivate),
      Supplies handler.getfunc w.priv data → SendsData handler ptp data.length data w := by
  intro h
  obtain ⟨⟨fuel, hends⟩, -⟩ :=
    h memoryHandler .zero [1, 2] shortWrite (memory_supplies [1, 2] 0 (Nat.zero_le _))
  obtain ⟨w₁, hpriv, hwrites, hnwrites, -, heq⟩ :=
    senddata_first_taken (show firstRead memoryHandler 2 shortWrite =
      some ([], ⟨[1, 2], 0⟩) from rfl) (by decide) .zero
  refine hends ((heq fuel).trans (Comp.bind_run_none ?_))
  cases fuel with
  | zero => rfl
  | succ fuel =>
    have hall : ∀ j, 0 ≤ shortWrite.writes j := fun j => by
      simp only [shortWrite]
      split <;> decide
    have hround : senddataLoop memoryHandler (fuel + 1) 2 0 w₁ =
        senddataLoop memoryHandler fuel (2 - (w₁.takes [1, 2]).length)
          (0 + (w₁.takes [1, 2]).length) (w₁.wrote ⟨[1, 2], 2⟩ [1, 2]) :=
      senddataLoop_round fuel (by decide) (by rw [hpriv]; rfl)
        (by rw [hwrites]; exact Int.not_lt.mpr (hall _))
    refine hround.trans (senddataLoop_stuck (memory_supplies [1, 2] 2 (Nat.le_refl 2)) ?_ ?_ fuel)
    · rw [UsbWorld.takes, hwrites, hnwrites]
      decide
    · intro j _
      rw [UsbWorld.wrote_writes, hwrites]
      exact hall j

end

end GPhoto2
