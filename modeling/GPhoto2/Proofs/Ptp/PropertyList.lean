import GPhoto2.Proofs.Ptp.PropertyBounds

/-!
# `GPhoto2.Proofs.Ptp.PropertyList`: what `ptp_unpack_OPL` reads

`leadingEntries` are the entries of a list up to the first one that is not whole.
`unpackOPL_bounds_iff` says exactly when `ptp_unpack_OPL` stays inside the data and returns
these.

The step is `unpackEntry`: from a cursor inside the data it either moves to another one
(`unpackEntry_readable`), or it reads outside, or its remaining length wraps around
(`unpackEntry_unreadable`) and stays noted as wrapped.
-/

set_option autoImplicit false

namespace GPhoto2

open Lib
open Lib.Comp (bind_eq_ok bind_run_none bind_run_ok)
open Option (bind_eq_some_iff isSome_iff_exists map_eq_some_iff mem_def)

/-! ### Entries -/

/-- The entry at an offset, if all of it is in the data, and where it ends. -/
def entryAt (params : PTPParams) (data : List UInt8) (off : Nat) :
    Option (MTPProperties × Nat) :=
  (dtoh32ap params data off).bind fun objectHandle =>
  (dtoh16ap params data (off + 4)).bind fun property =>
  (dtoh16ap params data (off + 6)).bind fun datatype =>
  (valueAt params (data.drop (off + 8)) datatype 0).map fun (propval, e) =>
    (⟨property, datatype, objectHandle, propval⟩, off + 8 + e)

/-- The whole entries among the next `n`, up to the first one that is not whole. -/
def leadingEntries (params : PTPParams) (data : List UInt8) : Nat → Nat → List MTPProperties
  | 0, _ => []
  | n + 1, off =>
    match entryAt params data off with
    | some (prop, e) => prop :: leadingEntries params data n e
    | none => []

/-- The datatype of the entry at an offset is there, but not one that is known. -/
def UnknownAt (params : PTPParams) (data : List UInt8) (off : Nat) : Prop :=
  ∃ datatype ∈ dtoh16ap params data (off + 6), dataType datatype = none

/-- The first of the next `n` entries that is not whole has an unknown datatype. -/
def StopsAtUnknown (params : PTPParams) (data : List UInt8) : Nat → Nat → Prop
  | 0, _ => False
  | n + 1, off => UnknownAt params data off ∨
    ∃ p ∈ entryAt params data off, StopsAtUnknown params data n p.2

/-- The first of the next `n` entries that is not whole, if there is one, would start at the end
of the data, or it has an unknown datatype. -/
def EndsBetween (params : PTPParams) (data : List UInt8) : Nat → Nat → Prop
  | 0, _ => True
  | n + 1, off => off = data.length ∨ UnknownAt params data off ∨
    ∃ p ∈ entryAt params data off, EndsBetween params data n p.2

/-- Where `ptp_unpack_DPV` leaves its offset. -/
def dpvOffset (params : PTPParams) (data : List UInt8) (datatype : UInt16) : Nat :=
  match ptpUnpackDPV params data data.length datatype ⟨0, false⟩ with
  | some (_, c) => c.offset
  | none => 0

/-- Each of the next `n` entries that the parser comes to starts at the end of the data, or has
its first eight bytes there, and its value, if it is a string or a 128-bit integer, is whole. -/
def EntriesReadable (params : PTPParams) (data : List UInt8) : Nat → Nat → Prop
  | 0, _ => True
  | n + 1, off => off = data.length ∨
    ∃ datatype ∈ dtoh16ap params data (off + 6),
      Readable params (data.drop (off + 8)) datatype 0 ∧
      EntriesReadable params data n
        (off + 8 + dpvOffset params (data.drop (off + 8)) datatype)

/-- The number of entries that a list announces. -/
def propCount (params : PTPParams) (data : List UInt8) : Nat :=
  ((dtoh32ap params data 0).getD 0).toNat

/-- `ptp_unpack_OPL` reads nothing outside of the data, its remaining length does not wrap
around, and it returns exactly the leading whole entries, unless they end at an entry of a
datatype that is not known, where nothing tells how long it is. -/
def OPLInBounds (params : PTPParams) (data : List UInt8) (qsort : Qsort compareFunc) : Prop :=
  ∃ props c, ptpUnpackOPL params data qsort ⟨0, data.length, false⟩ = some (.ok props, c) ∧
    c.wrapped = false ∧
    (¬ StopsAtUnknown params data (propCount params data) 4 →
      props.Perm (leadingEntries params data (propCount params data) 4))

variable {params : PTPParams} {data : List UInt8} {off : Nat}

/-! ### Primitive steps -/

/-- The cursor at an offset of the data. -/
def ListCursor.at (data : List UInt8) (off : Nat) : ListCursor := ⟨off, data.length - off, false⟩

theorem consume_run {n : Nat} (htotal : data.length < 2 ^ 32) (h : off + n ≤ data.length) :
    consume n (.at data off) = some (.ok (), .at data (off + n)) := by
  have hlen : (data.length - off + 2 ^ 32 - n) % 2 ^ 32 = data.length - (off + n) := by
    have he : data.length - off + 2 ^ 32 - n = data.length - (off + n) + 2 ^ 32 := by omega
    rw [he, Nat.add_mod_right, Nat.mod_eq_of_lt (by omega)]
  have hfits : decide (data.length - off < n) = false := decide_eq_false (by omega)
  simp only [consume, Comp.modify_run, ListCursor.at, hlen, hfits, Bool.or_false]

variable (n : Nat) (datatype : UInt16)

theorem consume_bind {α : Type} (k : Unit → UnpackList α) (c : ListCursor) :
    (consume n >>= k) c =
      k () ⟨c.pos + n, (c.len + 2 ^ 32 - n) % 2 ^ 32, c.wrapped || decide (c.len < n)⟩ := rfl

theorem readData_run {α : Type} {read : Nat → Option α} {c : ListCursor} {a : α}
    (h : read c.pos = some a) : readData read c = some (.ok a, c) := by
  rw [readData, h]
  rfl

theorem readData_none {α : Type} {read : Nat → Option α} {c : ListCursor}
    (h : read c.pos = none) : readData read c = none := by
  rw [readData, h]
  rfl

/-- A parser keeps the note of a length that has wrapped around. -/
def KeepsWrapped {α : Type} (m : UnpackList α) : Prop :=
  Comp.Keeps (fun c => c.wrapped = true) (fun _ _ => True) m

theorem consume_keeps : KeepsWrapped (consume n) := by
  refine .modify fun c hc => ⟨?_, trivial⟩
  have htrue : c.wrapped = true := hc
  simp only [htrue, Bool.true_or]

theorem readData_keeps {α : Type} (read : Nat → Option α) : KeepsWrapped (readData read) := by
  intro c r c' hc hrun
  obtain ⟨a, -, he⟩ := map_eq_some_iff.mp hrun
  cases he
  exact ⟨hc, trivial⟩

theorem unpackValue_keeps :
    KeepsWrapped (unpackValue params data datatype) := by
  intro c r c' hc hrun
  obtain ⟨⟨r', d⟩, -, he⟩ := map_eq_some_iff.mp hrun
  cases he
  exact ⟨hc, trivial⟩

theorem unpackEntry_keeps : KeepsWrapped (unpackEntry params data) :=
  .bind (readData_keeps _) fun _ => .bind (consume_keeps _) fun _ =>
  .bind (readData_keeps _) fun _ => .bind (consume_keeps _) fun _ =>
  .bind (readData_keeps _) fun _ => .bind (consume_keeps _) fun _ =>
  .bind (unpackValue_keeps _) fun _ => .bind (consume_keeps _) fun _ =>
  .pure _

theorem unpackEntries_keeps : KeepsWrapped (unpackEntries params data n) := by
  induction n with
  | zero => exact .pure _
  | succ n ih =>
    exact .bind Comp.Keeps.get fun _ => .ite (fun _ => .pure _)
      fun _ => .bind unpackEntry_keeps fun _ => .bind ih fun _ =>
      .pure _

/-! ### One entry -/

theorem header_at {datatype : UInt16} (h : dtoh16ap params data (off + 6) = some datatype) :
    off + 8 ≤ data.length ∧ ∃ objectHandle property, dtoh32ap params data off = some objectHandle ∧
      dtoh16ap params data (off + 4) = some property := by
  have h8 : off + 6 + 2 ≤ data.length := dtoh16ap_isSome.mp (Option.isSome_of_eq_some h)
  obtain ⟨objectHandle, hhandle⟩ := isSome_iff_exists.mp
    (dtoh32ap_isSome.mpr (by omega : off + 4 ≤ data.length))
  obtain ⟨property, hproperty⟩ := isSome_iff_exists.mp
    (dtoh16ap_isSome.mpr (by omega : off + 4 + 2 ≤ data.length))
  exact ⟨h8, objectHandle, property, hhandle, hproperty⟩

/-- Past the first eight bytes of an entry. -/
theorem unpackEntry_header {datatype : UInt16} (htotal : data.length < 2 ^ 32)
    (h : dtoh16ap params data (off + 6) = some datatype) :
    ∃ objectHandle property, dtoh32ap params data off = some objectHandle ∧
      dtoh16ap params data (off + 4) = some property ∧
      unpackEntry params data (.at data off) = (do
        let (propval, offset) ← unpackValue params data datatype
        consume offset
        pure (MTPProperties.mk property datatype objectHandle propval)) (.at data (off + 8)) := by
  obtain ⟨h8, objectHandle, property, hhandle, hproperty⟩ := header_at h
  refine ⟨objectHandle, property, hhandle, hproperty, ?_⟩
  have h4 : dtoh16ap params data (ListCursor.at data (off + 4)).pos = some property := hproperty
  have h6 : dtoh16ap params data (ListCursor.at data (off + 4 + 2)).pos = some datatype := h
  unfold unpackEntry
  rw [bind_run_ok (readData_run hhandle),
    bind_run_ok (consume_run htotal (by omega)), bind_run_ok (readData_run h4),
    bind_run_ok (consume_run htotal (by omega)), bind_run_ok (readData_run h6),
    bind_run_ok (consume_run htotal (by omega))]

/-- Without its first eight bytes an entry is read from beyond the data. -/
theorem unpackEntry_short (h : dtoh16ap params data (off + 6) = none) :
    unpackEntry params data (.at data off) = none := by
  unfold unpackEntry
  cases h0 : dtoh32ap params data off with
  | none => exact bind_run_none (readData_none h0)
  | some objectHandle =>
    refine (bind_run_ok (readData_run h0)).trans ((consume_bind _ _ _).trans ?_)
    cases h4 : dtoh16ap params data (off + 4) with
    | none => exact bind_run_none (readData_none h4)
    | some property =>
      refine (bind_run_ok (readData_run h4)).trans ((consume_bind _ _ _).trans ?_)
      exact bind_run_none (readData_none h)

theorem unpackValue_at :
    unpackValue params data datatype (.at data off) =
      (ptpUnpackDPV params (data.drop off) (data.drop off).length datatype ⟨0, false⟩).map
        fun (r, d) => (.ok (match r with
          | .ok propval => propval
          | .error () => .unset, d.offset), .at data off) := by
  rw [List.length_drop]
  rfl

/-- An entry that can be read: the cursor moves on inside the data, and an entry that is whole
comes back. -/
theorem unpackEntry_readable {datatype : UInt16} (htotal : data.length < 2 ^ 32)
    (hdt : dtoh16ap params data (off + 6) = some datatype)
    (hread : Readable params (data.drop (off + 8)) datatype 0) :
    off + 8 + dpvOffset params (data.drop (off + 8)) datatype ≤ data.length ∧
    ∃ prop, unpackEntry params data (.at data off) = some (.ok prop,
        .at data (off + 8 + dpvOffset params (data.drop (off + 8)) datatype)) ∧
      ∀ p ∈ entryAt params data off,
        p = (prop, off + 8 + dpvOffset params (data.drop (off + 8)) datatype) := by
  obtain ⟨objectHandle, property, hhandle, hproperty, hrun⟩ := unpackEntry_header htotal hdt
  have h8 := (header_at hdt).1
  have hdrop : (data.drop (off + 8)).length < 2 ^ 32 := by
    rw [List.length_drop]
    omega
  have hentry : entryAt params data off =
      (valueAt params (data.drop (off + 8)) datatype 0).map fun (propval, e) =>
        (⟨property, datatype, objectHandle, propval⟩, off + 8 + e) := by
    rw [entryAt, hhandle, hproperty, hdt]
    rfl
  rw [hrun, hentry]
  rcases ptpUnpackDPV_cases (c := ⟨0, false⟩) params datatype hdrop (Nat.zero_le _) with
    ⟨v, e, hv, hdpv⟩ | ⟨-, hv, c, hdpv, hle, -⟩ | ⟨hcut, -⟩
  · have hoff : dpvOffset params (data.drop (off + 8)) datatype = e := by
      rw [dpvOffset, hdpv]
    have hle := (valueAt_le hv).2
    rw [List.length_drop] at hle
    have hvalue : unpackValue params data datatype (.at data (off + 8)) =
        some (.ok (v, e), .at data (off + 8)) := by
      rw [unpackValue_at, hdpv]
      rfl
    rw [hoff, hv, bind_run_ok hvalue]
    refine ⟨by omega, _, bind_run_ok (consume_run htotal (by omega)), ?_⟩
    intro p hp
    exact (Option.some.inj hp).symm
  · have hoff : dpvOffset params (data.drop (off + 8)) datatype = c.offset := by
      rw [dpvOffset, hdpv]
    rw [List.length_drop] at hle
    have hvalue : unpackValue params data datatype (.at data (off + 8)) =
        some (.ok (.unset, c.offset), .at data (off + 8)) := by
      rw [unpackValue_at, hdpv]
      rfl
    rw [hoff, hv, bind_run_ok hvalue]
    refine ⟨by omega, _, bind_run_ok (consume_run htotal (by omega)), ?_⟩
    intro p hp
    cases hp
  · exact absurd hread hcut

/-- From the start of its data, the offset of a value that is not checked does not wrap around. -/
theorem unchecked_not_wrapped {datatype : UInt16} {d : Cursor}
    {r : Except Unit PTPPropertyValue} (hunchecked : IsUnchecked datatype)
    (h : ptpUnpackDPV params data data.length datatype ⟨0, false⟩ = some (r, d)) :
    d.wrapped = false := by
  unfold ptpUnpackDPV at h
  rcases hunchecked with ht | ht | ht
  · rw [ht] at h
    cases h
    rfl
  · rw [ht] at h
    cases h
    rfl
  · rw [ht] at h
    simp only [] at h
    cases hs : ptpUnpackString params data (UInt16.ofNat 0) with
    | none =>
      rw [bind_run_none (peek_none hs)] at h
      cases h
    | some p =>
      rw [bind_run_ok (peek_run hs)] at h
      cases h
      have hlen := p.2.toNat_lt
      exact decide_eq_false (by show ¬ 2 ^ 32 ≤ 0 + (p.2.toNat * 2 + 1); omega)

/-- An entry that cannot be read: it is read from beyond the data, or the remaining length wraps
around. It is not whole, and its datatype is known. -/
theorem unpackEntry_unreadable (htotal : data.length < 2 ^ 32)
    (h : ¬ ∃ datatype ∈ dtoh16ap params data (off + 6),
      Readable params (data.drop (off + 8)) datatype 0) :
    ∀ prop c, unpackEntry params data (.at data off) = some (.ok prop, c) → c.wrapped = true := by
  intro prop c hrun
  cases hdt : dtoh16ap params data (off + 6) with
  | none =>
    rw [unpackEntry_short hdt] at hrun
    cases hrun
  | some datatype =>
    have hcut : ¬ Readable params (data.drop (off + 8)) datatype 0 :=
      fun hread => h ⟨datatype, hdt, hread⟩
    have hunchecked : IsUnchecked datatype := by
      by_contra hchecked
      exact hcut fun hunchecked => absurd hunchecked hchecked
    have hvalue : valueAt params (data.drop (off + 8)) datatype 0 = none := by
      rw [← Option.not_isSome_iff_eq_none]
      exact fun hsome => hcut fun _ => hsome
    obtain ⟨objectHandle, property, -, -, hhead⟩ := unpackEntry_header htotal hdt
    rw [hhead] at hrun
    obtain ⟨⟨v, n⟩, c₁, hv, hrest⟩ := bind_eq_ok.mp hrun
    rw [unpackValue_at] at hv
    obtain ⟨⟨r, d⟩, hdpv, he⟩ := map_eq_some_iff.mp hv
    cases he
    rcases ptpUnpackDPV_fails (c := ⟨0, false⟩) hunchecked hvalue with
      hnone | ⟨a, d', hok, hbad⟩
    · rw [hnone] at hdpv
      cases hdpv
    · cases hok.symm.trans hdpv
      cases hrest
      rcases hbad with hwrap | hlt
      · rw [unchecked_not_wrapped hunchecked hok] at hwrap
        cases hwrap
      · rw [List.length_drop] at hlt
        exact decide_eq_true hlt

/-- An entry that is whole can be read, and its value ends where `ptp_unpack_DPV` says. -/
theorem entryAt_readable (htotal : data.length < 2 ^ 32) {prop : MTPProperties} {e : Nat}
    (h : entryAt params data off = some (prop, e)) :
    ∃ datatype ∈ dtoh16ap params data (off + 6),
      Readable params (data.drop (off + 8)) datatype 0 ∧
      e = off + 8 + dpvOffset params (data.drop (off + 8)) datatype := by
  obtain ⟨objectHandle, -, h⟩ := bind_eq_some_iff.mp h
  obtain ⟨property, -, h⟩ := bind_eq_some_iff.mp h
  obtain ⟨datatype, hdt, h⟩ := bind_eq_some_iff.mp h
  obtain ⟨⟨v, n⟩, hv, he⟩ := map_eq_some_iff.mp h
  cases he
  have hdrop : (data.drop (off + 8)).length < 2 ^ 32 := by
    rw [List.length_drop]
    omega
  have hrun := ptpUnpackDPV_whole (c := ⟨0, false⟩) hdrop hv
  refine ⟨datatype, hdt, fun _ => Option.isSome_of_eq_some hv, ?_⟩
  rw [dpvOffset, hrun]

theorem entryAt_end : entryAt params data data.length = none := by
  have hnone : dtoh32ap params data data.length = none := by
    rw [← Option.not_isSome_iff_eq_none, dtoh32ap_isSome]
    omega
  rw [entryAt, hnone, Option.bind_none]

theorem UnknownAt.entryAt_eq_none (h : UnknownAt params data off) :
    entryAt params data off = none := by
  obtain ⟨datatype, hdt, hunknown⟩ := h
  have hvalue : valueAt params (data.drop (off + 8)) datatype 0 = none := by
    unfold valueAt
    rw [hunknown]
  rw [entryAt, mem_def.mp hdt]
  simp only [Option.bind_some, hvalue, Option.map_none, Option.bind_fun_none]

/-! ### The loop -/

theorem at_len_eq_zero (hoff : off ≤ data.length) :
    (ListCursor.at data off).len = 0 ↔ off = data.length := by
  show data.length - off = 0 ↔ _
  omega

variable (htotal : data.length < 2 ^ 32)
include htotal

/-- The loop stays inside the data exactly if every entry that it comes to can be read. -/
theorem unpackEntries_inside_iff (n : Nat)
    (hoff : off ≤ data.length) :
    (∃ props c, unpackEntries params data n (.at data off) = some (.ok props, c) ∧
      c.wrapped = false) ↔ EntriesReadable params data n off := by
  induction n generalizing off with
  | zero => exact iff_of_true ⟨[], _, rfl, rfl⟩ trivial
  | succ n ih =>
    rw [unpackEntries, EntriesReadable, Comp.get_bind_run]
    by_cases hend : off = data.length
    · rw [if_pos ((at_len_eq_zero hoff).mpr hend)]
      exact iff_of_true ⟨[], _, rfl, rfl⟩ (Or.inl hend)
    · rw [if_neg (fun h => hend ((at_len_eq_zero hoff).mp h))]
      simp only [hend, false_or]
      by_cases hread : ∃ datatype ∈ dtoh16ap params data (off + 6),
          Readable params (data.drop (off + 8)) datatype 0
      · obtain ⟨datatype, hdt, hread⟩ := hread
        obtain ⟨hle, prop, hrun, -⟩ := unpackEntry_readable htotal hdt hread
        rw [bind_run_ok hrun]
        constructor
        · rintro ⟨props, c, hrest, hw⟩
          obtain ⟨props', c', hloop, hpure⟩ := bind_eq_ok.mp hrest
          cases hpure
          exact ⟨datatype, hdt, hread, (ih hle).mp ⟨props', _, hloop, hw⟩⟩
        · rintro ⟨datatype', hdt', -, hrest⟩
          cases (mem_def.mp hdt).symm.trans hdt'
          obtain ⟨props, c, hloop, hw⟩ := (ih hle).mpr hrest
          exact ⟨prop :: props, c, bind_run_ok hloop, hw⟩
      · constructor
        · rintro ⟨props, c, hrun, hw⟩
          obtain ⟨prop, c₁, hentry, hrest⟩ := bind_eq_ok.mp hrun
          -- a length that has wrapped around stays noted
          have hwrap := unpackEntry_unreadable htotal hread prop c₁ hentry
          have hkept : c.wrapped = true := ((Comp.Keeps.bind (unpackEntries_keeps n)
            fun props => .pure (prop :: props)) c₁ _ c hwrap hrest).1
          rw [hw] at hkept
          cases hkept
        · rintro ⟨datatype, hdt, hreadable, -⟩
          exact absurd ⟨datatype, hdt, hreadable⟩ hread

/-- What the loop returns, where it stays inside the data: the leading whole entries, if the
first one that is not whole would start at the end of the data, and more than these if that one
is cut off. -/
theorem unpackEntries_eq {n : Nat} (hoff : off ≤ data.length)
    {props : List MTPProperties} {c : ListCursor}
    (hrun : unpackEntries params data n (.at data off) = some (.ok props, c))
    (hw : c.wrapped = false) :
    (EndsBetween params data n off → ¬ StopsAtUnknown params data n off →
      props = leadingEntries params data n off) ∧
    (¬ EndsBetween params data n off → ¬ StopsAtUnknown params data n off ∧
      (leadingEntries params data n off).length < props.length) := by
  induction n generalizing off props c with
  | zero =>
    cases hrun
    exact ⟨fun _ _ => rfl, fun h => absurd trivial h⟩
  | succ n ih =>
    rw [unpackEntries, Comp.get_bind_run] at hrun
    by_cases hend : off = data.length
    · rw [if_pos ((at_len_eq_zero hoff).mpr hend)] at hrun
      cases hrun
      refine ⟨fun _ _ => ?_, fun h => absurd (Or.inl hend) h⟩
      rw [leadingEntries, hend, entryAt_end]
    · rw [if_neg (fun h => hend ((at_len_eq_zero hoff).mp h))] at hrun
      obtain ⟨prop, c₁, hentry, hrest⟩ := bind_eq_ok.mp hrun
      by_cases hread : ∃ datatype ∈ dtoh16ap params data (off + 6),
          Readable params (data.drop (off + 8)) datatype 0
      · obtain ⟨datatype, hdt, hread⟩ := hread
        obtain ⟨hle, prop', hrun', hwhole⟩ := unpackEntry_readable htotal hdt hread
        cases hentry.symm.trans hrun'
        obtain ⟨props', c', hloop, hpure⟩ := bind_eq_ok.mp hrest
        cases hpure
        have hih := ih hle hloop hw
        rw [EndsBetween, StopsAtUnknown, leadingEntries]
        cases hat : entryAt params data off with
        | some p =>
          obtain rfl := hwhole p hat
          have hknown : ¬ UnknownAt params data off := by
            intro hunknown
            rw [hunknown.entryAt_eq_none] at hat
            cases hat
          simp only [hend, hknown, false_or, mem_def, Option.some.injEq,
            exists_eq_left', List.cons.injEq, true_and, List.length_cons, Nat.add_lt_add_iff_right]
          exact hih
        | none =>
          simp only [hend, false_or, mem_def, reduceCtorEq, false_and, exists_false,
            or_false, List.length_nil, List.length_cons, Nat.zero_lt_succ, and_true, imp_self]
          exact fun h h' => absurd h h'
      · have hwrap := unpackEntry_unreadable htotal hread prop c₁ hentry
        have hkept : c.wrapped = true := ((Comp.Keeps.bind (unpackEntries_keeps n)
          fun props => .pure (prop :: props)) c₁ _ c hwrap hrest).1
        rw [hw] at hkept
        cases hkept

/-- The parser returns the leading whole entries, in the order that `qsort` gives them. -/
theorem unpackOPL_run (qsort : Qsort compareFunc)
    (h4 : 4 ≤ data.length) (hread : EntriesReadable params data (propCount params data) 4)
    (hends : EndsBetween params data (propCount params data) 4) :
    ∃ props c, ptpUnpackOPL params data qsort ⟨0, data.length, false⟩ = some (.ok props, c) ∧
      c.wrapped = false ∧ (¬ StopsAtUnknown params data (propCount params data) 4 →
        props = qsort.sort (leadingEntries params data (propCount params data) 4)) := by
  obtain ⟨n, hn⟩ := isSome_iff_exists.mp
    (dtoh32ap_isSome.mpr (by omega) : (dtoh32ap params data 0).isSome)
  have hcount : propCount params data = n.toNat := by rw [propCount, hn]; rfl
  have hconsume : consume 4 ⟨0, data.length, false⟩ = some (.ok (), .at data 4) :=
    consume_run htotal (by omega : 0 + 4 ≤ data.length)
  rw [hcount] at hread hends ⊢
  unfold ptpUnpackOPL
  rw [bind_run_ok (readData_run hn)]
  by_cases hzero : n = 0
  · rw [if_pos hzero, hzero]
    exact ⟨[], _, rfl, rfl, fun _ => (List.perm_nil.mp (qsort.perm [])).symm⟩
  · rw [if_neg hzero, bind_run_ok hconsume]
    obtain ⟨props, c, hloop, hw⟩ := (unpackEntries_inside_iff htotal _ h4).mpr hread
    refine ⟨qsort.sort props, c, bind_run_ok hloop, hw, fun hknown => ?_⟩
    rw [(unpackEntries_eq htotal h4 hloop hw).1 hends hknown]

/-- `ptp_unpack_OPL` stays inside the data, and returns exactly the leading whole entries,
exactly if it has the number of entries, every entry that it comes to can be read, and the list
is not cut off within an integer or an array. -/
theorem unpackOPL_bounds_iff (qsort : Qsort compareFunc) :
    OPLInBounds params data qsort ↔
      4 ≤ data.length ∧ EntriesReadable params data (propCount params data) 4 ∧
        EndsBetween params data (propCount params data) 4 := by
  constructor
  · rintro ⟨props, c, hrun, hw, hperm⟩
    unfold ptpUnpackOPL at hrun
    cases hn : dtoh32ap params data 0 with
    | none =>
      rw [bind_run_none (readData_none hn)] at hrun
      cases hrun
    | some n =>
      have h4 := dtoh32ap_le hn
      have hcount : propCount params data = n.toNat := by rw [propCount, hn]; rfl
      have hconsume : consume 4 ⟨0, data.length, false⟩ = some (.ok (), .at data 4) :=
        consume_run htotal (by omega : 0 + 4 ≤ data.length)
      rw [hcount] at hperm ⊢
      rw [bind_run_ok (readData_run hn)] at hrun
      by_cases hzero : n = 0
      · rw [hzero]
        exact ⟨by omega, trivial, trivial⟩
      · rw [if_neg hzero, bind_run_ok hconsume] at hrun
        obtain ⟨props', c', hloop, hpure⟩ := bind_eq_ok.mp hrun
        cases hpure
        refine ⟨by omega, (unpackEntries_inside_iff htotal _ (by omega)).mp ⟨_, _, hloop, hw⟩, ?_⟩
        by_contra hcut
        obtain ⟨hknown, hlt⟩ := (unpackEntries_eq htotal (by omega) hloop hw).2 hcut
        have hlen := ((qsort.perm props').symm.trans (hperm hknown)).length_eq
        omega
  · rintro ⟨h4, hread, hends⟩
    obtain ⟨props, c, hrun, hw, hprops⟩ := unpackOPL_run htotal qsort h4 hread hends
    refine ⟨props, c, hrun, hw, fun hknown => ?_⟩
    rw [hprops hknown]
    exact qsort.perm _

end GPhoto2
