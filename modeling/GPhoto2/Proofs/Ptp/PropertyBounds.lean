import GPhoto2.Proofs.Ptp.PropertyValue

/-!
# `GPhoto2.Proofs.Ptp.PropertyBounds`: what the property parsers read lies in the data

A parser stays inside the data (`InBounds`) if it reads nothing outside, no offset wraps around,
and the offset is in the data when it succeeds. `unpack_inBounds_iff` says exactly when
`ptp_unpack_DPV`, `ptp_unpack_DPD` and `ptp_unpack_OPD` do.

Once the offset has left the data (`Cursor.Bad`), nothing brings it back: the next read is
outside, or the parser succeeds beyond the end (`Fails`).
-/

set_option autoImplicit false

namespace GPhoto2

open Lib
open Lib.Comp (attempt_eq_some bind_run_none bind_run_ok get_bind_run)

variable {params : PTPParams} {data : List UInt8} {datatype : UInt16} {c : Cursor}

/-! ### Inside and outside -/

/-- A parser that started with `*offset <= total` has read nothing at an index from `total` on,
neither the offset nor `total - *offset` has wrapped around, and if it succeeded then the offset
is still `<= total`. -/
def InBounds {α : Type} (total : Nat) (run : Option (Except Unit α × Cursor)) : Prop :=
  ∃ r c, run = some (r, c) ∧ c.wrapped = false ∧ ∀ a, r = .ok a → c.offset ≤ total

/-- The offset has left the data or wrapped around. -/
def Cursor.Bad (total : Nat) (c : Cursor) : Prop := c.wrapped = true ∨ total < c.offset

/-- A read outside of the data, or a success beyond its end. -/
def Fails {α : Type} (total : Nat) (run : Option (Except Unit α × Cursor)) : Prop :=
  run = none ∨ ∃ a c, run = some (.ok a, c) ∧ c.Bad total

variable {α : Type} {total : Nat}

theorem Fails.not_inBounds {run : Option (Except Unit α × Cursor)}
    (h : Fails total run) : ¬ InBounds total run := by
  rintro ⟨r, c, rfl, hw, hle⟩
  rcases h with h | ⟨a, c', h, hbad⟩
  · cases h
  · cases h
    rcases hbad with hwrap | hlt
    · rw [hw] at hwrap
      cases hwrap
    · have := hle a rfl
      omega

theorem Fails.bind {α β : Type} {total : Nat} {m : Unpack α} {k : α → Unpack β}
    (h : Fails total (m c)) (hk : ∀ a c', c'.Bad total → Fails total (k a c')) :
    Fails total ((m >>= k) c) := by
  rcases h with h | ⟨a, c', h, hbad⟩
  · exact Or.inl (bind_run_none h)
  · rw [bind_run_ok h]
    exact hk a c' hbad

theorem Cursor.Bad.pure (h : c.Bad total) (a : α) :
    Fails total ((pure a : Unpack α) c) := Or.inr ⟨a, c, rfl, h⟩

theorem Cursor.Bad.advance (h : c.Bad total) (n : Nat) :
    Fails total (advance n c) := by
  refine Or.inr ⟨(), _, rfl, ?_⟩
  by_cases hwrap : 2 ^ 32 ≤ c.offset + n
  · left
    simp only [decide_eq_true hwrap, Bool.or_true]
  · rcases h with h | h
    · left
      simp only [h, Bool.true_or]
    · right
      simp only
      rw [Nat.mod_eq_of_lt (by omega)]
      omega

theorem Cursor.Bad.peek (h : c.Bad total) {read : Nat → Option α}
    (hread : ∀ off, total < off → read off = none) : Fails total (peek read c) := by
  cases hr : read c.offset with
  | none => exact Or.inl (peek_none hr)
  | some a =>
    refine Or.inr ⟨a, c, peek_run hr, ?_⟩
    rcases h with h | h
    · exact Or.inl h
    · rw [hread c.offset h] at hr
      cases hr

/-! ### `ptp_unpack_DPV` -/

theorem dpvUnchecked_fails (hunchecked : IsUnchecked datatype) (h : c.Bad data.length) :
    Fails data.length (ptpUnpackDPV params data data.length datatype c) := by
  unfold ptpUnpackDPV
  rcases hunchecked with ht | ht | ht
  · rw [ht]
    exact (h.advance 16).bind fun _ _ h' => h'.pure _
  · rw [ht]
    exact (h.advance 16).bind fun _ _ h' => h'.pure _
  · rw [ht]
    simp only []
    cases hs : ptpUnpackString params data (UInt16.ofNat c.offset) with
    | none => exact Or.inl (bind_run_none (peek_none hs))
    | some p =>
      rw [bind_run_ok (peek_run hs)]
      exact (h.advance _).bind fun _ _ h' => h'.pure _

/-- A value that is not checked and not whole makes the offset leave the data. -/
theorem ptpUnpackDPV_fails (hunchecked : IsUnchecked datatype)
    (h : valueAt params data datatype c.offset = none) :
    Fails data.length (ptpUnpackDPV params data data.length datatype c) := by
  have hadvance : ∀ n, data.length < c.offset + n → Fails data.length (advance n c) := by
    intro n hn
    refine Or.inr ⟨(), _, rfl, ?_⟩
    by_cases hwrap : 2 ^ 32 ≤ c.offset + n
    · left
      simp only [decide_eq_true hwrap, Bool.or_true]
    · right
      simp only
      rw [Nat.mod_eq_of_lt (by omega)]
      exact hn
  unfold ptpUnpackDPV
  unfold valueAt at h
  rcases hunchecked with ht | ht | ht
  · rw [ht] at h ⊢
    have hlt := slice_eq_none.mp (Option.map_eq_none_iff.mp h)
    exact (hadvance 16 hlt).bind fun _ _ h' => h'.pure _
  · rw [ht] at h ⊢
    have hlt := slice_eq_none.mp (Option.map_eq_none_iff.mp h)
    exact (hadvance 16 hlt).bind fun _ _ h' => h'.pure _
  · rw [ht] at h ⊢
    simp only [] at h ⊢
    cases hs : ptpUnpackString params data (UInt16.ofNat c.offset) with
    | none => exact Or.inl (bind_run_none (peek_none hs))
    | some p =>
      rw [bind_run_ok (peek_run hs)]
      have hlt : data.length < c.offset + (p.2.toNat * 2 + 1) := by
        by_contra hle
        simp [hs] at h
        omega
      exact (hadvance _ hlt).bind fun _ _ h' => h'.pure _

/-- The value at an offset is whole, or its type is one that is checked. -/
def Readable (params : PTPParams) (data : List UInt8) (datatype : UInt16) (off : Nat) : Prop :=
  IsUnchecked datatype → (valueAt params data datatype off).isSome = true

/-- What one value does to a parser: it is returned and the offset moves to its end, it is
refused, or the offset leaves the data. -/
theorem ptpUnpackDPV_cases (params : PTPParams) (datatype : UInt16)
    (htotal : data.length < 2 ^ 32) (hc : c.offset ≤ data.length) :
    (∃ v e, valueAt params data datatype c.offset = some (v, e) ∧
      ptpUnpackDPV params data data.length datatype c = some (.ok v, ⟨e, c.wrapped⟩)) ∨
    (¬ IsUnchecked datatype ∧ valueAt params data datatype c.offset = none ∧
      ∃ c', ptpUnpackDPV params data data.length datatype c = some (.error (), c') ∧
        c'.offset ≤ data.length ∧ c'.wrapped = c.wrapped) ∨
    (¬ Readable params data datatype c.offset ∧
      Fails data.length (ptpUnpackDPV params data data.length datatype c)) := by
  cases hv : valueAt params data datatype c.offset with
  | some p => exact Or.inl ⟨p.1, p.2, rfl, ptpUnpackDPV_whole htotal hv⟩
  | none =>
    by_cases hunchecked : IsUnchecked datatype
    · refine Or.inr (Or.inr ⟨fun h => ?_, ptpUnpackDPV_fails hunchecked hv⟩)
      have := h hunchecked
      rw [hv] at this
      cases this
    · exact Or.inr (Or.inl ⟨hunchecked, rfl, ptpUnpackDPV_refused htotal hc hunchecked hv⟩)

/-- `ptp_unpack_DPV` stays inside the data exactly if its value is whole or checked. -/
theorem unpackDPV_inBounds_iff (htotal : data.length < 2 ^ 32) (hc : c.offset ≤ data.length)
    (hw : c.wrapped = false) :
    InBounds data.length (ptpUnpackDPV params data data.length datatype c) ↔
      Readable params data datatype c.offset := by
  rcases ptpUnpackDPV_cases params datatype htotal hc with
    ⟨v, e, hv, hrun⟩ | ⟨hchecked, -, c', hrun, hle, hw'⟩ | ⟨hread, hfails⟩
  · refine ⟨fun _ _ => by rw [hv]; rfl, fun _ => ⟨_, _, hrun, hw, fun _ _ => ?_⟩⟩
    exact (valueAt_le hv).2
  · exact ⟨fun _ h => absurd h hchecked, fun _ => ⟨_, _, hrun, hw'.trans hw, fun _ _ => hle⟩⟩
  · exact ⟨fun h => absurd h hfails.not_inBounds, fun h => absurd h hread⟩

/-! ### Forms -/

/-- The next `n` values from an offset on can be read, up to one that is refused. -/
def ValuesReadable (params : PTPParams) (data : List UInt8) (datatype : UInt16) :
    Nat → Nat → Prop
  | 0, _ => True
  | n + 1, off => Readable params data datatype off ∧
    ∀ v e, valueAt params data datatype off = some (v, e) →
      ValuesReadable params data datatype n e

/-- The form at an offset can be read: its flag, and the three values of a range, or the number
of an enumeration and its values. -/
def FormReadable (params : PTPParams) (data : List UInt8) (datatype : UInt16) (off : Nat) :
    Prop :=
  off < data.length ∧
    (data[off]? = some 0x01 → ValuesReadable params data datatype 3 (off + 1)) ∧
    (data[off]? = some 0x02 → ∃ n, dtoh16ap params data (off + 1) = some n ∧
      ValuesReadable params data datatype n.toNat (off + 3))

variable {β : Type}

theorem InBounds.bind_ok {m : Unpack α} {k : α → Unpack β} {a : α}
    {c' : Cursor} (h : m c = some (.ok a, c')) :
    InBounds total ((m >>= k) c) ↔ InBounds total (k a c') := by
  rw [bind_run_ok h]

theorem InBounds.of_error {run : Option (Except Unit α × Cursor)}
    (h : run = some (.error (), c)) (hw : c.wrapped = false) : InBounds total run :=
  ⟨_, _, h, hw, fun _ ha => by cases ha⟩

theorem inBounds_pure {a : α} (hc : c.offset ≤ total)
    (hw : c.wrapped = false) : InBounds total ((pure a : Unpack α) c) :=
  ⟨_, _, rfl, hw, fun _ _ => hc⟩

theorem inBounds_bind_pure_iff {m : Unpack α} {f : α → β} :
    InBounds total ((m >>= fun a => pure (f a)) c) ↔ InBounds total (m c) := by
  constructor
  · rintro ⟨r, c', hr, hw, hle⟩
    rcases Comp.bind_eq_some.mp hr with ⟨u, hu, rfl⟩ | ⟨a, c₁, hu, hpure⟩
    · exact ⟨_, _, hu, hw, fun _ h => by cases h⟩
    · cases hpure
      exact ⟨_, _, hu, hw, fun _ _ => hle _ rfl⟩
  · rintro ⟨r, c', hr, hw, hle⟩
    cases r with
    | error u => exact InBounds.of_error (Comp.bind_run_error hr) hw
    | ok a =>
      rw [InBounds.bind_ok hr]
      exact inBounds_pure (hle _ rfl) hw

/-- One value and the rest of a parser, which stays inside the data from every end of a value
under the condition `P`, and does not come back into it. -/
theorem bindDPV_inBounds_iff {k : PTPPropertyValue → Unpack β} {P : Nat → Prop}
    (htotal : data.length < 2 ^ 32) (hc : c.offset ≤ data.length) (hw : c.wrapped = false)
    (hP : ∀ v e, c.offset < e → e ≤ data.length →
      (InBounds data.length (k v ⟨e, false⟩) ↔ P e))
    (hfails : IsUnchecked datatype →
      ∀ v c', c'.Bad data.length → Fails data.length (k v c')) :
    InBounds data.length ((ptpUnpackDPV params data data.length datatype >>= k) c) ↔
      Readable params data datatype c.offset ∧
        ∀ v e, valueAt params data datatype c.offset = some (v, e) → P e := by
  rcases ptpUnpackDPV_cases params datatype htotal hc with
    ⟨v, e, hv, hrun⟩ | ⟨hchecked, hv, c', hrun, hle, hw'⟩ | ⟨hread, hf⟩
  · rw [InBounds.bind_ok hrun, hw, hP v e (valueAt_le hv).1 (valueAt_le hv).2]
    constructor
    · intro h
      refine ⟨fun _ => by rw [hv]; rfl, fun v' e' he => ?_⟩
      rw [hv] at he
      cases he
      exact h
    · intro h
      exact h.2 v e hv
  · refine ⟨fun _ => ⟨fun h => absurd h hchecked, fun v e he => ?_⟩, fun _ =>
      InBounds.of_error (Comp.bind_run_error hrun) (hw'.trans hw)⟩
    rw [hv] at he
    cases he
  · refine ⟨fun h => absurd h ?_, fun h => absurd h.1 hread⟩
    have hunchecked : IsUnchecked datatype := by
      by_contra h
      exact hread fun h' => absurd h' h
    exact (hf.bind (hfails hunchecked)).not_inBounds

theorem unpackEnumLoop_fails (hunchecked : IsUnchecked datatype) {n : Nat} {first : Bool}
    (h : c.Bad data.length) :
    Fails data.length (unpackEnumLoop params data data.length datatype n first c) := by
  induction n generalizing c first with
  | zero => exact h.pure _
  | succ n ih =>
    unfold unpackEnumLoop
    have hfails : Fails data.length (ptpUnpackDPV params data data.length datatype c) :=
      dpvUnchecked_fails hunchecked h
    rcases hfails with hnone | ⟨v, c', hrun, hbad⟩
    · refine Or.inl (bind_run_none ?_)
      rw [Comp.attempt, hnone]
    · rw [bind_run_ok (attempt_eq_some.mpr ⟨_, hrun, rfl⟩)]
      exact (ih hbad).bind fun _ _ h' => h'.pure _

theorem unpackEnumLoop_inBounds_iff {n : Nat} {first : Bool} (htotal : data.length < 2 ^ 32)
    (hc : c.offset ≤ data.length) (hw : c.wrapped = false) :
    InBounds data.length (unpackEnumLoop params data data.length datatype n first c) ↔
      ValuesReadable params data datatype n c.offset := by
  induction n generalizing c first with
  | zero => exact ⟨fun _ => trivial, fun _ => inBounds_pure hc hw⟩
  | succ n ih =>
    unfold unpackEnumLoop
    rcases ptpUnpackDPV_cases params datatype htotal hc with
      ⟨v, e, hv, hrun⟩ | ⟨hchecked, hv, c', hrun, hle, hw'⟩ | ⟨hread, hf⟩
    · rw [InBounds.bind_ok (attempt_eq_some.mpr ⟨_, hrun, rfl⟩), hw]
      have hrest := @ih ⟨e, false⟩ false (valueAt_le hv).2 rfl
      have hiff : ValuesReadable params data datatype (n + 1) c.offset ↔
          ValuesReadable params data datatype n e := by
        constructor
        · intro h
          exact h.2 v e hv
        · intro h
          refine ⟨fun _ => by rw [hv]; rfl, fun v' e' he => ?_⟩
          rw [hv] at he
          cases he
          exact h
      rw [hiff, ← hrest]
      exact inBounds_bind_pure_iff
    · refine ⟨fun _ => ⟨fun h => absurd h hchecked, fun v e he => ?_⟩, fun _ => ?_⟩
      · rw [hv] at he
        cases he
      · rw [InBounds.bind_ok (attempt_eq_some.mpr ⟨_, hrun, rfl⟩)]
        cases first with
        | true => exact InBounds.of_error rfl (hw'.trans hw)
        | false => exact inBounds_pure hle (hw'.trans hw)
    · refine ⟨fun h => absurd h ?_, fun h => absurd h.1 hread⟩
      have hunchecked : IsUnchecked datatype := by
        by_contra h
        exact hread fun h' => absurd h' h
      rcases hf with hnone | ⟨v, c', hrun, hbad⟩
      · refine Fails.not_inBounds (Or.inl (bind_run_none ?_))
        rw [Comp.attempt, hnone]
      · rw [bind_run_ok (attempt_eq_some.mpr ⟨_, hrun, rfl⟩)]
        exact ((unpackEnumLoop_fails hunchecked hbad).bind fun _ _ h' => h'.pure _).not_inBounds

theorem peek_inBounds_iff {read : Nat → Option α}
    {k : α → Unpack β} :
    InBounds total ((peek read >>= k) c) ↔
      ∃ a, read c.offset = some a ∧ InBounds total (k a c) := by
  cases hr : read c.offset with
  | none =>
    rw [bind_run_none (peek_none hr)]
    simp [InBounds]
  | some a =>
    rw [InBounds.bind_ok (peek_run hr)]
    simp

variable {off : Nat}

theorem dtoh16ap_le {n : UInt16} (h : dtoh16ap params data off = some n) :
    off + 2 ≤ data.length := by
  obtain ⟨bs, hbs, -⟩ := Option.map_eq_some_iff.mp h
  exact (slice_eq_some.mp hbs).1

theorem dtoh16ap_none (h : data.length < off + 2) :
    dtoh16ap params data off = none := by
  rw [dtoh16ap, slice_eq_none.mpr h]
  rfl

theorem dtoh32ap_none (h : data.length < off + 4) :
    dtoh32ap params data off = none := by
  rw [dtoh32ap, slice_eq_none.mpr h]
  rfl

theorem dtoh8a_lt {n : UInt8} (h : dtoh8a data off = some n) :
    off < data.length := (List.getElem?_eq_some_iff.mp h).1

theorem dtoh8a_none (h : data.length ≤ off) : dtoh8a data off = none :=
  List.getElem?_eq_none h

theorem unpackForm_fails (hunchecked : IsUnchecked datatype) {formFlag : UInt8}
    (h : c.Bad data.length) :
    Fails data.length (unpackForm params data data.length datatype formFlag c) := by
  have hdpv : ∀ {c : Cursor}, c.Bad data.length →
      Fails data.length (ptpUnpackDPV params data data.length datatype c) :=
    fun h => dpvUnchecked_fails hunchecked h
  unfold unpackForm
  split
  · refine (hdpv h).bind fun _ _ h => ?_
    refine (hdpv h).bind fun _ _ h => ?_
    exact (hdpv h).bind fun _ _ h => h.pure _
  · split
    · refine (h.peek fun off hoff => dtoh16ap_none (by omega)).bind fun n _ h => ?_
      refine (h.advance 2).bind fun _ _ h => ?_
      exact (unpackEnumLoop_fails hunchecked h).bind fun _ _ h => h.pure _
    · exact h.pure _

theorem unpackForm_inBounds_iff (formFlag : UInt8) (htotal : data.length < 2 ^ 32)
    (hc : c.offset ≤ data.length) (hw : c.wrapped = false) :
    InBounds data.length (unpackForm params data data.length datatype formFlag c) ↔
      (formFlag = 0x01 → ValuesReadable params data datatype 3 c.offset) ∧
      (formFlag = 0x02 → ∃ n, dtoh16ap params data c.offset = some n ∧
        ValuesReadable params data datatype n.toNat (c.offset + 2)) := by
  unfold unpackForm
  by_cases hrange : formFlag = 0x01
  · subst hrange
    rw [if_pos rfl, and_iff_left (fun h => absurd h (by decide)), forall_prop_of_true rfl]
    have hdpv : IsUnchecked datatype → ∀ {c : Cursor}, c.Bad data.length →
        Fails data.length (ptpUnpackDPV params data data.length datatype c) :=
      fun hunchecked _ h => dpvUnchecked_fails hunchecked h
    refine bindDPV_inBounds_iff htotal hc hw ?_ ?_
    · intro v e _ he
      refine bindDPV_inBounds_iff htotal he rfl ?_ ?_
      · intro v' e' _ he'
        refine bindDPV_inBounds_iff htotal he' rfl (P := fun _ => True) ?_ ?_
        · intro v'' e'' _ he''
          exact iff_of_true (inBounds_pure he'' rfl) trivial
        · exact fun _ _ _ h => h.pure _
      · exact fun hu _ _ h => (hdpv hu h).bind fun _ _ h => h.pure _
    · intro hu _ _ h
      refine (hdpv hu h).bind fun _ _ h => ?_
      exact (hdpv hu h).bind fun _ _ h => h.pure _
  · rw [if_neg hrange]
    by_cases henum : formFlag = 0x02
    · subst henum
      rw [if_pos rfl, and_iff_right (fun h => absurd h hrange), forall_prop_of_true rfl,
        peek_inBounds_iff]
      refine exists_congr fun n => and_congr_right fun hn => ?_
      have h2 := dtoh16ap_le hn
      rw [InBounds.bind_ok (advance_run (by omega)), inBounds_bind_pure_iff]
      exact unpackEnumLoop_inBounds_iff htotal h2 hw
    · rw [if_neg henum]
      exact iff_of_true (inBounds_pure hc hw)
        ⟨fun h => absurd h hrange, fun h => absurd h henum⟩

theorem formTail_inBounds_iff {f : UInt8 → PTPPropDescForm → β}
    (htotal : data.length < 2 ^ 32) (hw : c.wrapped = false) :
    InBounds data.length ((do
        let formFlag ← peek (dtoh8a data)
        advance 1
        let form ← unpackForm params data data.length datatype formFlag
        pure (f formFlag form) : Unpack β) c) ↔
      FormReadable params data datatype c.offset := by
  rw [peek_inBounds_iff]
  unfold FormReadable
  constructor
  · rintro ⟨flag, hflag, h⟩
    have hlt := dtoh8a_lt hflag
    rw [InBounds.bind_ok (advance_run (by omega)), inBounds_bind_pure_iff,
      unpackForm_inBounds_iff (c := ⟨c.offset + 1, c.wrapped⟩) flag htotal hlt hw] at h
    rw [show data[c.offset]? = some flag from hflag]
    exact ⟨hlt, fun he => h.1 (Option.some.inj he), fun he => h.2 (Option.some.inj he)⟩
  · rintro ⟨hlt, h⟩
    obtain ⟨flag, hflag⟩ : ∃ flag, dtoh8a data c.offset = some flag :=
      ⟨_, List.getElem?_eq_getElem hlt⟩
    rw [show data[c.offset]? = some flag from hflag] at h
    refine ⟨flag, hflag, ?_⟩
    rw [InBounds.bind_ok (advance_run (by omega)), inBounds_bind_pure_iff,
      unpackForm_inBounds_iff (c := ⟨c.offset + 1, c.wrapped⟩) flag htotal hlt hw]
    exact ⟨fun he => h.1 (congrArg some he), fun he => h.2 (congrArg some he)⟩

theorem formTail_fails {f : UInt8 → PTPPropDescForm → β}
    (hunchecked : IsUnchecked datatype) (h : c.Bad data.length) :
    Fails data.length ((do
        let formFlag ← peek (dtoh8a data)
        advance 1
        let form ← unpackForm params data data.length datatype formFlag
        pure (f formFlag form) : Unpack β) c) := by
  refine (h.peek fun off hoff => dtoh8a_none (by omega)).bind fun flag _ h => ?_
  refine (h.advance 1).bind fun _ _ h => ?_
  exact (unpackForm_fails hunchecked h).bind fun _ _ h => h.pure _

/-! ### Descriptions -/

/-- The bytes of a device property description can all be read: its first five bytes, the
default value, and then, unless this is a string that ends the data, the current value and the
form. -/
def DPDReadable (params : PTPParams) (data : List UInt8) : Prop :=
  5 ≤ data.length ∧ ∀ datatype, dtoh16ap params data 2 = some datatype →
    Readable params data datatype 5 ∧
    ∀ v e, valueAt params data datatype 5 = some (v, e) →
      datatype = ptpDtcStr ∧ e = data.length ∨
      Readable params data datatype e ∧
        ∀ v' e', valueAt params data datatype e = some (v', e') →
          FormReadable params data datatype e'

/-- The bytes of an object property description can all be read: its first five bytes, the
default value, the group code and the form. -/
def OPDReadable (params : PTPParams) (data : List UInt8) : Prop :=
  5 ≤ data.length ∧ ∀ datatype, dtoh16ap params data 2 = some datatype →
    Readable params data datatype 5 ∧
    ∀ v e, valueAt params data datatype 5 = some (v, e) →
      e + 4 ≤ data.length ∧ FormReadable params data datatype (e + 4)

theorem header_inBounds_iff {k : UInt16 → UInt16 → UInt8 → Unpack β}
    {P : UInt16 → Prop}
    (hP : 5 ≤ data.length → ∀ code datatype getSet, dtoh16ap params data 2 = some datatype →
      (InBounds data.length (k code datatype getSet ⟨5, false⟩) ↔ P datatype)) :
    InBounds data.length ((do
        let code ← peek fun _ => dtoh16ap params data 0
        let datatype ← peek fun _ => dtoh16ap params data 2
        let getSet ← peek fun _ => dtoh8a data 4
        Comp.modify fun c => { c with offset := 5 }
        k code datatype getSet : Unpack β) ⟨0, false⟩) ↔
      5 ≤ data.length ∧ ∀ datatype, dtoh16ap params data 2 = some datatype → P datatype := by
  simp only [peek_inBounds_iff]
  constructor
  · rintro ⟨code, -, datatype, hdatatype, getSet, hgetSet, h⟩
    have hlt := dtoh8a_lt hgetSet
    refine ⟨hlt, fun datatype' hdatatype' => ?_⟩
    rw [hdatatype] at hdatatype'
    cases hdatatype'
    exact (hP hlt code datatype getSet hdatatype).mp h
  · rintro ⟨h5, h⟩
    have hsome : ∀ off, off + 2 ≤ data.length → ∃ x, dtoh16ap params data off = some x := by
      intro off hoff
      rw [← Option.isSome_iff_exists, dtoh16ap, Option.isSome_map, slice_isSome]
      exact hoff
    obtain ⟨code, hcode⟩ := hsome 0 (by omega)
    obtain ⟨datatype, hdatatype⟩ := hsome 2 (by omega)
    obtain ⟨getSet, hgetSet⟩ : ∃ x, dtoh8a data 4 = some x :=
      ⟨_, List.getElem?_eq_getElem (by omega)⟩
    exact ⟨code, hcode, datatype, hdatatype, getSet, hgetSet,
      (hP h5 code datatype getSet hdatatype).mpr (h datatype hdatatype)⟩

theorem unpackDPD_inBounds_iff (htotal : data.length < 2 ^ 32) :
    InBounds data.length (ptpUnpackDPD params data data.length ⟨0, false⟩) ↔
      DPDReadable params data := by
  unfold ptpUnpackDPD DPDReadable
  refine header_inBounds_iff fun h5 code datatype getSet _ => ?_
  refine bindDPV_inBounds_iff (c := ⟨5, false⟩) htotal h5 rfl
    (P := fun e => datatype = ptpDtcStr ∧ e = data.length ∨
      Readable params data datatype e ∧
        ∀ v' e', valueAt params data datatype e = some (v', e') →
          FormReadable params data datatype e') ?_ ?_
  · intro v e he5 he
    rw [get_bind_run]
    by_cases hend : datatype = ptpDtcStr ∧ e = data.length
    · rw [if_pos hend]
      exact iff_of_true (inBounds_pure he rfl) (Or.inl hend)
    · rw [if_neg hend]
      simp only [hend, false_or]
      refine bindDPV_inBounds_iff (c := ⟨e, false⟩) htotal he rfl ?_ ?_
      · intro v' e' hlt _
        rw [get_bind_run, if_neg (Nat.ne_of_gt (Nat.lt_trans he5 hlt))]
        exact formTail_inBounds_iff htotal rfl
      · intro hu _ c' h
        rw [get_bind_run]
        split
        · exact h.pure _
        · exact formTail_fails hu h
  · intro hu v c' h
    rw [get_bind_run]
    split
    · exact h.pure _
    · refine (dpvUnchecked_fails hu h).bind fun _ c'' h => ?_
      rw [get_bind_run]
      split
      · exact h.pure _
      · exact formTail_fails hu h

theorem unpackOPD_inBounds_iff (htotal : data.length < 2 ^ 32) :
    InBounds data.length (ptpUnpackOPD params data data.length ⟨0, false⟩) ↔
      OPDReadable params data := by
  unfold ptpUnpackOPD OPDReadable
  refine header_inBounds_iff fun h5 code datatype getSet _ => ?_
  refine bindDPV_inBounds_iff (c := ⟨5, false⟩) htotal h5 rfl
    (P := fun e => e + 4 ≤ data.length ∧ FormReadable params data datatype (e + 4)) ?_ ?_
  · intro v e _ he
    rw [peek_inBounds_iff]
    constructor
    · rintro ⟨groupCode, hgroup, h⟩
      have h4 := dtoh32ap_le hgroup
      rw [InBounds.bind_ok (advance_run (Nat.lt_of_le_of_lt h4 htotal))] at h
      exact ⟨h4, (formTail_inBounds_iff htotal rfl).mp h⟩
    · rintro ⟨h4, h⟩
      obtain ⟨groupCode, hgroup⟩ : ∃ x, dtoh32ap params data e = some x := by
        rw [← Option.isSome_iff_exists, dtoh32ap, Option.isSome_map, slice_isSome]
        exact h4
      refine ⟨groupCode, hgroup, ?_⟩
      rw [InBounds.bind_ok (advance_run (Nat.lt_of_le_of_lt h4 htotal))]
      exact (formTail_inBounds_iff htotal rfl).mpr h
  · intro hu _ _ h
    refine (h.peek fun off hoff => dtoh32ap_none (by omega)).bind fun _ _ h => ?_
    refine (h.advance 4).bind fun _ _ h => ?_
    exact formTail_fails hu h

/-- `ptp_unpack_DPV`, `ptp_unpack_DPD` and `ptp_unpack_OPD` stay inside the data exactly if all
the bytes that they read without a check are there. -/
theorem unpack_inBounds_iff (params : PTPParams) (data : List UInt8) (datatype : UInt16)
    (offset : Nat) (htotal : data.length < 2 ^ 32) (hoffset : offset ≤ data.length) :
    (InBounds data.length (ptpUnpackDPV params data data.length datatype ⟨offset, false⟩) ↔
      Readable params data datatype offset) ∧
    (InBounds data.length (ptpUnpackDPD params data data.length ⟨0, false⟩) ↔
      DPDReadable params data) ∧
    (InBounds data.length (ptpUnpackOPD params data data.length ⟨0, false⟩) ↔
      OPDReadable params data) :=
  ⟨unpackDPV_inBounds_iff (c := ⟨offset, false⟩) htotal hoffset rfl,
    unpackDPD_inBounds_iff htotal, unpackOPD_inBounds_iff htotal⟩

/-- A string of one character, of which only the length byte has arrived. -/
theorem unpack_inBounds_cut_off :
    (InBounds 1 (ptpUnpackDPV ⟨.little, none, false⟩ [2] 1 0xFFFF ⟨0, false⟩) ↔
      Readable ⟨.little, none, false⟩ [2] 0xFFFF 0) ∧
    (InBounds 1 (ptpUnpackDPD ⟨.little, none, false⟩ [2] 1 ⟨0, false⟩) ↔
      DPDReadable ⟨.little, none, false⟩ [2]) ∧
    (InBounds 1 (ptpUnpackOPD ⟨.little, none, false⟩ [2] 1 ⟨0, false⟩) ↔
      OPDReadable ⟨.little, none, false⟩ [2]) :=
  unpack_inBounds_iff ⟨.little, none, false⟩ [2] 0xFFFF 0 (by decide) (by decide)

/-- Its characters are read from beyond the data. -/
theorem unpackDPV_reads_beyond :
    ¬ ∀ (params : PTPParams) (data : List UInt8) (datatype : UInt16) (offset : Nat),
      data.length < 2 ^ 32 → offset ≤ data.length →
      InBounds data.length
        (ptpUnpackDPV params data data.length datatype ⟨offset, false⟩) := by
  intro h
  obtain ⟨r, c, hrun, -⟩ := h ⟨.little, none, false⟩ [2] 0xFFFF 0 (by decide) (by decide)
  have hnone : ptpUnpackDPV ⟨.little, none, false⟩ [2] [2].length 0xFFFF ⟨0, false⟩ = none := by
    decide
  cases hnone.symm.trans hrun

end GPhoto2
