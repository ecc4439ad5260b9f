import GPhoto2.Ax203.YuvDelta
import Mathlib.Data.List.GetD

/-!
# `GPhoto2.Proofs.Ax203.YuvDelta`: the decoder keeps step with the encoder

The encoder goes on from the values that the decoder will have (`running`). `closest_spec` says what
the search for a correction finds, `lockstep` follows four values, and `decodeYuvDelta_encode` the
blocks of a picture.
-/

set_option autoImplicit false

namespace GPhoto2.Ax203

/-! ### The types -/

section

variable {kind : Kind}

theorem Kind.wrap_eq {x : Int} (hlow : kind.low ≤ x) (hhigh : x ≤ kind.low + 255) :
    kind.wrap x = x := by
  rw [Kind.wrap, Int.emod_eq_of_lt (by omega) (by omega), Int.sub_add_cancel]

theorem Kind.valid_le (kind : Kind) : kind.low + 16 ≤ kind.min ∧ kind.max ≤ kind.low + 239 := by
  cases kind <;> decide

theorem Kind.min_le_roundDown {x : Int} (h : kind.min ≤ x) : kind.min ≤ roundDown x := by
  rw [roundDown]
  cases kind with
  | signed =>
    have hmin : (-112 : Int) ≤ x := h
    show (-112 : Int) ≤ x - x % 8
    omega
  | unsigned =>
    have hmin : (16 : Int) ≤ x := h
    show (16 : Int) ≤ x - x % 8
    omega

theorem Kind.low_le_roundDown {x : Int} (h : kind.low ≤ x) : kind.low ≤ roundDown x := by
  rw [roundDown]
  cases kind with
  | signed =>
    have hlow : (-128 : Int) ≤ x := h
    show (-128 : Int) ≤ x - x % 8
    omega
  | unsigned =>
    have hlow : (0 : Int) ≤ x := h
    show (0 : Int) ≤ x - x % 8
    omega

theorem roundDown_le (x : Int) : roundDown x ≤ x ∧ x ≤ roundDown x + 7 := by
  rw [roundDown]
  omega

end

/-! ### The search for a correction -/

/-- How far the correction `i` leads away from `val`. -/
def deltaOf (kind : Kind) (base val : Int) (table i : Nat) : Nat :=
  (kind.wrap (base + corrOf table i) - val).natAbs

/-- The value is one of the valid ones. -/
def Kind.Valid (kind : Kind) (x : Int) : Prop := kind.min ≤ x ∧ x ≤ kind.max

section

variable {kind : Kind} {base val : Int} {table : Nat}

theorem allowed_iff {i : Nat} :
    allowed kind base table i = true ↔
      (table ≠ 0 → kind.low ≤ base + corrOf table i ∧
        base + corrOf table i ≤ kind.low + 255) ∧
      kind.Valid (kind.wrap (base + corrOf table i)) := by
  rw [allowed, Kind.Valid]
  by_cases htable : table = 0
  · simp [htable]
  · simp [htable]
    omega

theorem corrOf_zero (table : Nat) : corrOf table 0 = 0 := by
  by_cases htable : table < 4
  · revert table
    decide
  · rw [corrOf, List.getD_eq_default corrTables [] (Nat.not_lt.mp htable)]
    rfl

theorem allowed_zero (hbase : kind.Valid base) : allowed kind base table 0 = true := by
  have hends := kind.valid_le
  have hlow : kind.low ≤ base := by
    have hmin := hbase.1
    omega
  have hhigh : base ≤ kind.low + 255 := by
    have hmax := hbase.2
    omega
  rw [allowed_iff, corrOf_zero, Int.add_zero, Kind.wrap_eq hlow hhigh]
  exact ⟨fun _ => ⟨hlow, hhigh⟩, hbase⟩

theorem closestStep_eq (closest : Nat × Nat) (i : Nat) :
    closestStep kind base val table closest i =
      if allowed kind base table i = true ∧ deltaOf kind base val table i < closest.1 then
        (deltaOf kind base val table i, i)
      else
        closest := by
  rw [closestStep]
  by_cases hallowed : allowed kind base table i = true
  · rw [if_pos hallowed]
    show (if deltaOf kind base val table i < closest.1 then
      (deltaOf kind base val table i, i) else closest) = _
    by_cases hless : deltaOf kind base val table i < closest.1
    · rw [if_pos hless, if_pos ⟨hallowed, hless⟩]
    · rw [if_neg hless, if_neg fun h => hless h.2]
  · rw [if_neg hallowed, if_neg fun h => hallowed h.1]

theorem closest_fold (hbase : kind.Valid base) (hval : kind.Valid val) (n : Nat) :
    let closest := (List.range (n + 1)).foldl (closestStep kind base val table) (256, 0)
    closest.2 < n + 1 ∧ allowed kind base table closest.2 = true ∧
      closest.1 = deltaOf kind base val table closest.2 ∧
        ∀ i < n + 1, allowed kind base table i = true →
          closest.1 ≤ deltaOf kind base val table i := by
  induction n with
  | zero =>
    have hends := kind.valid_le
    have hwrap : kind.wrap (base + corrOf table 0) = base := by
      have hmin := hbase.1
      have hmax := hbase.2
      rw [corrOf_zero, Int.add_zero, Kind.wrap_eq (by omega) (by omega)]
    have hdelta : deltaOf kind base val table 0 < 256 := by
      have hmin := hbase.1
      have hmax := hbase.2
      have hmin' := hval.1
      have hmax' := hval.2
      rw [deltaOf, hwrap]
      omega
    have hfold : (List.range 1).foldl (closestStep kind base val table) (256, 0) =
        (deltaOf kind base val table 0, 0) := by
      show closestStep kind base val table (256, 0) 0 = _
      rw [closestStep_eq, if_pos ⟨allowed_zero hbase, hdelta⟩]
    rw [hfold]
    refine ⟨Nat.zero_lt_one, allowed_zero hbase, rfl, fun i hi _ => ?_⟩
    rw [Nat.lt_one_iff.mp hi]
  | succ n ih =>
    obtain ⟨hindex, hallowed, hdelta, hleast⟩ := ih
    intro closest
    have hfold : closest = closestStep kind base val table
        ((List.range (n + 1)).foldl (closestStep kind base val table) (256, 0)) (n + 1) := by
      show (List.range (n + 1 + 1)).foldl _ _ = _
      rw [List.range_succ, List.foldl_append]
      rfl
    generalize (List.range (n + 1)).foldl (closestStep kind base val table) (256, 0) = before at *
    rw [hfold, closestStep_eq]
    by_cases hnext : allowed kind base table (n + 1) = true ∧
        deltaOf kind base val table (n + 1) < before.1
    · rw [if_pos hnext]
      refine ⟨Nat.lt_succ_self _, hnext.1, rfl, fun i hi hi' => ?_⟩
      by_cases hlast : i = n + 1
      · rw [hlast]
      · exact Nat.le_trans (Nat.le_of_lt hnext.2) (hleast i (by omega) hi')
    · rw [if_neg hnext]
      refine ⟨Nat.lt_succ_of_lt hindex, hallowed, hdelta, fun i hi hi' => ?_⟩
      by_cases hlast : i = n + 1
      · subst hlast
        exact Nat.not_lt.mp fun hless => hnext ⟨hi', hless⟩
      · exact hleast i (by omega) hi'

/-- **The search finds an allowed correction, and none that is allowed leads nearer.** -/
theorem closest_spec (hbase : kind.Valid base) (hval : kind.Valid val) :
    allowed kind base table (findClosestCorrection kind base val table) = true ∧
      ∀ i < 8, allowed kind base table i = true →
        deltaOf kind base val table (findClosestCorrection kind base val table) ≤
          deltaOf kind base val table i := by
  obtain ⟨-, hallowed, hdelta, hleast⟩ := @closest_fold kind base val table hbase hval 7
  refine ⟨hallowed, fun i hi hi' => ?_⟩
  have hle := hleast i hi hi'
  rwa [hdelta] at hle

/-- The number of the correction fits into three bits, whatever the values are. -/
theorem findClosestCorrection_lt (kind : Kind) (base val : Int) (table : Nat) :
    findClosestCorrection kind base val table < 8 := by
  have hfold : ∀ n ≤ 8,
      ((List.range n).foldl (closestStep kind base val table) (256, 0)).2 < 8 := by
    intro n
    induction n with
    | zero => exact fun _ => Nat.zero_lt_succ 7
    | succ n ih =>
      intro hn
      rw [List.range_succ, List.foldl_append]
      show (closestStep kind base val table _ n).2 < 8
      rw [closestStep_eq]
      by_cases hnext : allowed kind base table n = true ∧ deltaOf kind base val table n <
          ((List.range n).foldl (closestStep kind base val table) (256, 0)).1
      · rw [if_pos hnext]
        exact hn
      · rw [if_neg hnext]
        exact ih (by omega)
  exact hfold 8 (Nat.le_refl 8)

end

/-! ### The bytes -/

/-- The first byte: the high bits of the value, the table, and the low bit of the last
correction. -/
theorem first_byte : ∀ q < 32, ∀ table < 4, ∀ c < 2,
    (8 * q ||| table <<< 1 ||| c) - (8 * q ||| table <<< 1 ||| c) % 8 = 8 * q ∧
      (8 * q ||| table <<< 1 ||| c) >>> 1 &&& 3 = table ∧
        (8 * q ||| table <<< 1 ||| c) &&& 1 = c := by
  decide +kernel

/-- The second byte: two corrections, and the high bits of the last one. -/
theorem second_byte : ∀ c₁ < 8, ∀ c₂ < 8, ∀ c₃ < 8,
    (0 ||| c₁ <<< 5 ||| c₂ <<< 2 ||| c₃ >>> 1) >>> 5 &&& 7 = c₁ ∧
      (0 ||| c₁ <<< 5 ||| c₂ <<< 2 ||| c₃ >>> 1) >>> 2 &&& 7 = c₂ ∧
        ((0 ||| c₁ <<< 5 ||| c₂ <<< 2 ||| c₃ >>> 1) <<< 1 &&& 6 ||| (c₃ &&& 1)) = c₃ := by
  decide +kernel

/-! ### Four values -/

/-- The value `j` that the encoder goes on from. -/
def running (kind : Kind) (src : Nat → Int) (j : Nat) : Int :=
  (storeValues kind (selectTable kind src) src j).base

/-- The correction behind the value `j`. -/
def correctionOf (kind : Kind) (src : Nat → Int) (j : Nat) : Nat :=
  findClosestCorrection kind (running kind src j) (src (j + 1)) (selectTable kind src)

section

variable {kind : Kind} {src : Nat → Int}

theorem running_zero : running kind src 0 = roundDown (src 0) := rfl

theorem running_succ (j : Nat) :
    running kind src (j + 1) =
      kind.wrap (running kind src j + corrOf (selectTable kind src) (correctionOf kind src j)) :=
  rfl

theorem selectTable_lt (kind : Kind) (src : Nat → Int) : selectTable kind src < 4 := by
  rw [selectTable]
  cases hfind : [3, 2, 1].find? (tableFits kind src) with
  | none => exact Nat.zero_lt_succ 3
  | some table =>
    have hmem := List.mem_of_find?_eq_some hfind
    simp only [List.mem_cons, List.not_mem_nil, or_false] at hmem
    show table < 4
    omega

theorem exists_roundDown (x : Int) : ∃ q < 32, (roundDown x % 256).toNat = 8 * q := by
  refine ⟨(x / 8 % 32).toNat, by omega, ?_⟩
  rw [roundDown]
  omega

theorem wrap_roundDown {x : Int} (hlow : kind.low ≤ x) (hhigh : x ≤ kind.low + 255) :
    kind.wrap ((roundDown x % 256).toNat : Int) = roundDown x := by
  have hround := Kind.low_le_roundDown hlow
  have hle := (roundDown_le x).1
  rw [Kind.wrap]
  omega

theorem decode_of_parts {b0 b1 table : Nat} {value : Nat → Int} {corr : Nat → Nat}
    (hfirst : kind.wrap (b0 - b0 % 8 : Nat) = value 0) (htable : b0 >>> 1 &&& 3 = table)
    (h₁ : b1 >>> 5 &&& 7 = corr 0) (h₂ : b1 >>> 2 &&& 7 = corr 1)
    (h₃ : (b1 <<< 1 &&& 6 ||| (b0 &&& 1)) = corr 2)
    (hvalue : ∀ j < 3, value (j + 1) = kind.wrap (value j + corrOf table (corr j))) {j : Nat}
    (hj : j < 4) : decodeComponentValues kind b0 b1 j = value j := by
  induction j with
  | zero => exact hfirst
  | succ j ih =>
    rw [decodeComponentValues, ih (by omega), hvalue j (by omega), htable]
    have hcorr : (if j + 1 = 1 then b1 >>> 5 &&& 7 else if j + 1 = 2 then b1 >>> 2 &&& 7
        else b1 <<< 1 &&& 6 ||| (b0 &&& 1)) = corr j := by
      obtain rfl | rfl | rfl : j = 0 ∨ j = 1 ∨ j = 2 := by omega
      · exact h₁
      · exact h₂
      · exact h₃
    show kind.wrap (value j + corrOf table (if j + 1 = 1 then _ else if j + 1 = 2 then _ else _)) =
      _
    rw [hcorr]

/-- **The decoder has the running values of the encoder**, for any numbers of the type. -/
theorem decode_encode (hlow : kind.low ≤ src 0) (hhigh : src 0 ≤ kind.low + 255) {j : Nat}
    (hj : j < 4) :
    decodeComponentValues kind (encodeComponentValues kind src).1
      (encodeComponentValues kind src).2 j = running kind src j := by
  obtain ⟨q, hq, hfirst⟩ := exists_roundDown (src 0)
  have hcorr : ∀ j, correctionOf kind src j < 8 := fun j => findClosestCorrection_lt _ _ _ _
  have hand : correctionOf kind src 2 &&& 1 < 2 := Nat.lt_of_le_of_lt Nat.and_le_right (by decide)
  have hb0 : (encodeComponentValues kind src).1 =
      8 * q ||| selectTable kind src <<< 1 ||| (correctionOf kind src 2 &&& 1) := by
    rw [← hfirst]
    rfl
  have hb1 : (encodeComponentValues kind src).2 = 0 ||| correctionOf kind src 0 <<< 5 |||
      correctionOf kind src 1 <<< 2 ||| correctionOf kind src 2 >>> 1 := rfl
  obtain ⟨hbase, htable, hbit⟩ := first_byte q hq _ (selectTable_lt kind src) _ hand
  obtain ⟨h₁, h₂, h₃⟩ := second_byte _ (hcorr 0) _ (hcorr 1) _ (hcorr 2)
  rw [hb0, hb1]
  refine decode_of_parts ?_ htable h₁ h₂ (hbit.symm ▸ h₃) (fun j _ => running_succ j) hj
  rw [hbase, ← hfirst]
  exact wrap_roundDown hlow hhigh

/-! ### Where the values stay -/

/-- The four values are valid. -/
def ValidSource (kind : Kind) (src : Nat → Int) : Prop := ∀ j < 4, kind.Valid (src j)

/-- **The running values are valid.** -/
theorem running_valid (h : ValidSource kind src) {j : Nat} (hj : j < 4) :
    kind.Valid (running kind src j) := by
  induction j with
  | zero =>
    rw [running_zero]
    exact ⟨Kind.min_le_roundDown (h 0 hj).1, Int.le_trans (roundDown_le _).1 (h 0 hj).2⟩
  | succ j ih =>
    rw [running_succ]
    exact (allowed_iff.mp (closest_spec (ih (by omega)) (h (j + 1) hj)).1).2

/-- **No correction wraps around, other than those of table 0.** -/
theorem running_noWrap (h : ValidSource kind src) (htable : selectTable kind src ≠ 0) {j : Nat}
    (hj : j < 3) :
    running kind src (j + 1) =
      running kind src j + corrOf (selectTable kind src) (correctionOf kind src j) := by
  have hbase := running_valid h (show j < 4 by omega)
  have hallowed := (@closest_spec kind _ _ (selectTable kind src) hbase (h (j + 1) (by omega))).1
  obtain ⟨hlow, hhigh⟩ := (allowed_iff.mp hallowed).1 htable
  rw [running_succ]
  exact Kind.wrap_eq hlow hhigh

/-- What is left of the difference to a value at most, by the table: half a step, and in table 3,
which is taken up to a distance of 4 from its last correction, what goes beyond. -/
def boundOf (table : Nat) : Nat := (corrOf table 1 / 2).toNat + if table = 3 then 2 else 0

/-- The value that a correction leads to. In table 0 it wraps around. -/
def reached (kind : Kind) (table : Nat) (base : Int) (i : Nat) : Int :=
  if table = 0 then kind.wrap (base + corrOf table i) else base + corrOf table i

/-- A correction that leads near enough is not allowed, since it leaves the valid values. -/
def Clamped (kind : Kind) (table : Nat) (base val : Int) : Prop :=
  ∃ i < 8, (reached kind table base i - val).natAbs ≤ boundOf table ∧
    ¬ kind.Valid (reached kind table base i)

section

variable {base val : Int} {table : Nat}

/-- A correction that leads to a valid value without wrapping around is allowed. -/
theorem allowed_of_valid {i : Nat} (h : kind.Valid (reached kind table base i)) :
    allowed kind base table i = true ∧
      kind.wrap (base + corrOf table i) = reached kind table base i := by
  by_cases htable : table = 0
  · rw [reached, if_pos htable] at h ⊢
    exact ⟨allowed_iff.mpr ⟨fun hne => absurd htable hne, h⟩, rfl⟩
  · rw [reached, if_neg htable] at h ⊢
    have hends := kind.valid_le
    have hlow : kind.low ≤ base + corrOf table i := by
      have hmin := h.1
      omega
    have hhigh : base + corrOf table i ≤ kind.low + 255 := by
      have hmax := h.2
      omega
    have hwrap := Kind.wrap_eq hlow hhigh
    exact ⟨allowed_iff.mpr ⟨fun _ => ⟨hlow, hhigh⟩, hwrap.symm ▸ h⟩, hwrap⟩

/-- Where some correction leads near enough, the chosen one does, unless it is clamped. -/
theorem corrected_near (hbase : kind.Valid base) (hval : kind.Valid val)
    (hnear : ∃ i < 8, (reached kind table base i - val).natAbs ≤ boundOf table) :
    (corrected kind table base val - val).natAbs ≤ boundOf table ∨
      Clamped kind table base val := by
  obtain ⟨i, hi, hdelta⟩ := hnear
  by_cases hvalid : kind.Valid (reached kind table base i)
  · obtain ⟨hallowed, hwrap⟩ := allowed_of_valid hvalid
    have hle := (@closest_spec kind base val table hbase hval).2 i hi hallowed
    rw [deltaOf, deltaOf, hwrap] at hle
    exact Or.inl (Nat.le_trans hle hdelta)
  · exact Or.inr ⟨i, hi, hdelta, hvalid⟩

theorem corrOf_table0 : ∀ i < 8, corrOf 0 i = 32 * i := by decide

/-- The corrections of the other tables go from four steps down to three steps up. -/
theorem corrOf_step : ∀ table < 4, table ≠ 0 → ∀ i < 8,
    corrOf table i =
      if i < 4 then corrOf table 1 * i else corrOf table 1 * i - corrOf table 1 * 8 := by
  decide

/-- In table 0 some correction leads within half a step of any valid value. -/
theorem exists_near_table0 (hval : kind.Valid val) :
    ∃ i < 8, (reached kind 0 base i - val).natAbs ≤ boundOf 0 := by
  have hends := kind.valid_le
  have hmin := hval.1
  have hmax := hval.2
  refine ⟨((val - base + 15) / 32 % 8).toNat, by omega, ?_⟩
  rw [reached, if_pos rfl, corrOf_table0 _ (by omega), Kind.wrap]
  show _ ≤ 16
  omega

/-- In another table one does where the needed correction is not too large. -/
theorem exists_near (htable : table < 4) (hne : table ≠ 0)
    (hhigh : ¬ base + corrOf table 3 + 4 < val) (hlow : ¬ base + corrOf table 4 - 4 > val) :
    ∃ i < 8, (reached kind table base i - val).natAbs ≤ boundOf table := by
  have hcorr := corrOf_step table htable hne
  rw [hcorr 3 (by omega)] at hhigh
  rw [hcorr 4 (by omega)] at hlow
  -- the number of steps, as far as the table goes
  obtain ⟨n, hn⟩ : ∃ n, n = max (-4) (min 3 ((val - base + corrOf table 1 / 2) / corrOf table 1)) :=
    ⟨_, rfl⟩
  refine ⟨(n % 8).toNat, by omega, ?_⟩
  rw [reached, if_neg hne, hcorr _ (by omega)]
  obtain rfl | rfl | rfl : table = 1 ∨ table = 2 ∨ table = 3 := by omega
  · have hstep : corrOf 1 1 = 16 := rfl
    rw [hstep] at hhigh hlow hn ⊢
    show _ ≤ 8
    split <;> omega
  · have hstep : corrOf 2 1 = 8 := rfl
    rw [hstep] at hhigh hlow hn ⊢
    show _ ≤ 4
    split <;> omega
  · have hstep : corrOf 3 1 = 4 := rfl
    rw [hstep] at hhigh hlow hn ⊢
    show _ ≤ 4
    split <;> omega

end

theorem tryStep_eq_some {table j : Nat} {base base' : Int} :
    tryStep kind table src base j = some base' ↔
      (¬ base + corrOf table 3 + 4 < src j ∧ ¬ base + corrOf table 4 - 4 > src j) ∧
        corrected kind table base (src j) = base' := by
  rw [tryStep]
  by_cases hfar : base + corrOf table 3 + 4 < src j ∨ base + corrOf table 4 - 4 > src j
  · rw [if_pos hfar]
    constructor
    · intro h
      cases h
    · intro h
      exact absurd hfar (not_or.mpr h.1)
  · rw [if_neg hfar, Option.some.injEq]
    exact ⟨fun h => ⟨not_or.mp hfar, h⟩, fun h => h.2⟩

/-- The corrections of the selected table are large enough for every value. -/
theorem running_reaches (htable : selectTable kind src ≠ 0) {j : Nat} (hj : j < 3) :
    ¬ running kind src j + corrOf (selectTable kind src) 3 + 4 < src (j + 1) ∧
      ¬ running kind src j + corrOf (selectTable kind src) 4 - 4 > src (j + 1) := by
  have hfits : tableFits kind src (selectTable kind src) = true := by
    cases hfind : [3, 2, 1].find? (tableFits kind src) with
    | none =>
      refine absurd ?_ htable
      rw [selectTable, hfind]
      rfl
    | some table =>
      have hsame : selectTable kind src = table := by
        rw [selectTable, hfind]
        rfl
      rw [hsame]
      exact List.find?_some hfind
  rw [tableFits] at hfits
  obtain ⟨last, hlast⟩ := Option.isSome_iff_exists.mp hfits
  simp only [List.foldlM_cons, List.foldlM_nil, Option.bind_eq_bind,
    Option.bind_eq_some_iff] at hlast
  -- the values of the trial are those of the run
  obtain ⟨v₁, h₁, v₂, h₂, v₃, h₃, -⟩ := hlast
  obtain ⟨hnear₁, hv₁⟩ := tryStep_eq_some.mp h₁
  obtain ⟨hnear₂, hv₂⟩ := tryStep_eq_some.mp h₂
  obtain ⟨hnear₃, -⟩ := tryStep_eq_some.mp h₃
  subst hv₁ hv₂
  obtain rfl | rfl | rfl : j = 0 ∨ j = 1 ∨ j = 2 := by omega
  · exact hnear₁
  · exact hnear₂
  · exact hnear₃

/-- What holds of four values and their two bytes. -/
structure Lockstep (kind : Kind) (src : Nat → Int) : Prop where
  decoded : ∀ j < 4, decodeComponentValues kind (encodeComponentValues kind src).1
    (encodeComponentValues kind src).2 j = running kind src j
  valid : ∀ j < 4, kind.Valid (running kind src j)
  noWrap : selectTable kind src ≠ 0 → ∀ j < 3, running kind src (j + 1) =
    running kind src j + corrOf (selectTable kind src) (correctionOf kind src j)
  first : running kind src 0 ≤ src 0 ∧ src 0 ≤ running kind src 0 + 7
  near : ∀ j < 3, (running kind src (j + 1) - src (j + 1)).natAbs ≤
      boundOf (selectTable kind src) ∨
    Clamped kind (selectTable kind src) (running kind src j) (src (j + 1))

/-- **Four valid values**: the decoder keeps step with the encoder. -/
theorem lockstep (h : ValidSource kind src) : Lockstep kind src where
  decoded := by
    intro j hj
    have hends := kind.valid_le
    have hmin := (h 0 (by omega)).1
    have hmax := (h 0 (by omega)).2
    exact decode_encode (by omega) (by omega) hj
  valid := fun j hj => running_valid h hj
  noWrap := fun htable j hj => running_noWrap h htable hj
  first := roundDown_le (src 0)
  near := by
    intro j hj
    refine corrected_near (running_valid h (by omega)) (h (j + 1) (by omega)) ?_
    by_cases htable : selectTable kind src = 0
    · rw [htable]
      exact exists_near_table0 (h (j + 1) (by omega))
    · have hreach := running_reaches htable hj
      exact exists_near (selectTable_lt kind src) htable hreach.1 hreach.2

end

/-! ### Pictures -/

section

variable {conv : Conversion} {src : Picture}

/-- What the decoder shows for a pixel: the running values of the encoder for its block. -/
def trackedPixel (conv : Conversion) (src : Picture) (row col : Nat) : Colour :=
  let top := 4 * (row / 4)
  let left := 4 * (col / 4)
  let y := row % 4
  let x := col % 4
  let Y := running .unsigned (lumaValues conv src (top + y / 2 * 2) (left + x / 2 * 2))
    (y % 2 * 2 + x % 2)
  let U := running .signed (chromaValues conv.toU src top left) (y / 2 * 2 + x / 2)
  let V := running .signed (chromaValues conv.toV src top left) (y / 2 * 2 + x / 2)
  { red := clampU8 (conv.red Y U V)
    green := clampU8 (conv.green Y U V)
    blue := clampU8 (conv.blue Y U V) }

theorem decode_luma (conv : Conversion) (src : Picture) (row col : Nat) {j : Nat} (hj : j < 4) :
    decodeComponentValues .unsigned
      (encodeUnsignedComponentValues (lumaValues conv src row col)).1
      (encodeUnsignedComponentValues (lumaValues conv src row col)).2 j =
        running .unsigned (lumaValues conv src row col) j := by
  have hlt := (conv.toY (src row col).red (src row col).green (src row col).blue).toNat_lt
  refine decode_encode ?_ ?_ hj
  · exact Int.natCast_nonneg _
  · show ((conv.toY (src row col).red (src row col).green (src row col).blue).toNat : Int) ≤ 0 + 255
    omega

theorem decode_chroma (convert : Nat → Nat → Nat → Int8) (src : Picture) (row col : Nat) {j : Nat}
    (hj : j < 4) :
    decodeComponentValues .signed
      (encodeSignedComponentValues (chromaValues convert src row col)).1
      (encodeSignedComponentValues (chromaValues convert src row col)).2 j =
        running .signed (chromaValues convert src row col) j := by
  refine decode_encode ?_ ?_ hj
  · exact Int8.le_toInt _
  · exact Int.le_of_lt_add_one (Int8.toInt_lt _)

theorem length_encodeBlockYuvDelta (conv : Conversion) (src : Picture) (srcX srcY : Nat) :
    (encodeBlockYuvDelta conv src srcX srcY).length = 12 := rfl

theorem getD_encodeBlock (rest : List Nat) (srcX srcY : Nat) {y x : Nat} (hy : y < 4)
    (hx : x < 4) :
    (encodeBlockYuvDelta conv src srcX srcY ++ rest).getD (4 + 2 * (y / 2 * 2 + x / 2)) 0 =
        (encodeUnsignedComponentValues
          (lumaValues conv src (srcY + y / 2 * 2) (srcX + x / 2 * 2))).1 ∧
      (encodeBlockYuvDelta conv src srcX srcY ++ rest).getD (4 + 2 * (y / 2 * 2 + x / 2) + 1) 0 =
        (encodeUnsignedComponentValues
          (lumaValues conv src (srcY + y / 2 * 2) (srcX + x / 2 * 2))).2 := by
  have hy' : y / 2 = 0 ∨ y / 2 = 1 := by omega
  have hx' : x / 2 = 0 ∨ x / 2 = 1 := by omega
  rcases hy' with hy' | hy' <;> rcases hx' with hx' | hx' <;> rw [hy', hx'] <;> exact ⟨rfl, rfl⟩

/-- **A block is read back** from its twelve bytes, whatever follows them. -/
theorem blockPixel_encode (rest : List Nat) {y x : Nat} (hy : y < 4) (hx : x < 4)
    (down right : Nat) :
    blockPixel conv (encodeBlockYuvDelta conv src (4 * right) (4 * down) ++ rest) y x =
      trackedPixel conv src (4 * down + y) (4 * right + x) := by
  have hrow : (4 * down + y) / 4 = down ∧ (4 * down + y) % 4 = y := by omega
  have hcol : (4 * right + x) / 4 = right ∧ (4 * right + x) % 4 = x := by omega
  have hluma := decode_luma conv src (4 * down + y / 2 * 2) (4 * right + x / 2 * 2)
    (show y % 2 * 2 + x % 2 < 4 by omega)
  have hU := decode_chroma conv.toU src (4 * down) (4 * right)
    (show y / 2 * 2 + x / 2 < 4 by omega)
  have hV := decode_chroma conv.toV src (4 * down) (4 * right)
    (show y / 2 * 2 + x / 2 < 4 by omega)
  obtain ⟨h₁, h₂⟩ := @getD_encodeBlock conv src rest (4 * right) (4 * down) y x hy hx
  simp only [blockPixel, trackedPixel, hrow, hcol, h₁, h₂]
  rw [hluma, ← hU, ← hV]
  rfl

/-- The blocks of a picture, in the order of the loops. -/
def places (w h : Nat) : List (Nat × Nat) :=
  (List.range h).flatMap fun y => (List.range w).map fun x => (y, x)

theorem steps_mul (n : Nat) : steps (4 * n) = List.range n := by
  rw [steps, show (4 * n + 3) / 4 = n by omega]

theorem mem_places {w h : Nat} {p : Nat × Nat} : p ∈ places w h ↔ p.1 < h ∧ p.2 < w := by
  simp only [places, List.mem_flatMap, List.mem_map, List.mem_range]
  constructor
  · intro hp
    obtain ⟨y, hy, x, hx, rfl⟩ := hp
    exact ⟨hy, hx⟩
  · intro hp
    exact ⟨p.1, hp.1, p.2, hp.2, rfl⟩

theorem encodeYuvDelta_eq (w h : Nat) :
    encodeYuvDelta conv src (4 * w) (4 * h) =
      (places w h).flatMap fun p => encodeBlockYuvDelta conv src (4 * p.2) (4 * p.1) := by
  rw [encodeYuvDelta, steps_mul, steps_mul, places, List.flatMap_assoc]
  simp only [List.flatMap_map]

theorem decodeYuvDelta_eq (bytes : List Nat) (dest : Picture) (w h : Nat) :
    decodeYuvDelta conv bytes dest (4 * w) (4 * h) =
      ((places w h).foldl (fun s p => decodeStep conv p.1 s p.2) (bytes, dest)).2 := by
  rw [decodeYuvDelta, steps_mul, steps_mul, places, List.foldl_flatMap]
  simp only [List.foldl_map]

/-- The pixel is in the block. -/
def InSquare (row col : Nat) (p : Nat × Nat) : Prop := row / 4 = p.1 ∧ col / 4 = p.2

instance (row col : Nat) (p : Nat × Nat) : Decidable (InSquare row col p) :=
  inferInstanceAs (Decidable (_ ∧ _))

theorem decodeStep_encode (rest : List Nat) (dest : Picture) (p : Nat × Nat) :
    (decodeStep conv p.1 (encodeBlockYuvDelta conv src (4 * p.2) (4 * p.1) ++ rest, dest) p.2).1 =
        rest ∧
      ∀ row col, (decodeStep conv p.1
          (encodeBlockYuvDelta conv src (4 * p.2) (4 * p.1) ++ rest, dest) p.2).2 row col =
        if InSquare row col p then trackedPixel conv src row col else dest row col := by
  refine ⟨List.drop_left' (length_encodeBlockYuvDelta conv src _ _), ?_⟩
  intro row col
  show (if 4 * p.1 ≤ row ∧ row < 4 * p.1 + 4 ∧ 4 * p.2 ≤ col ∧ col < 4 * p.2 + 4 then
    blockPixel conv (encodeBlockYuvDelta conv src (4 * p.2) (4 * p.1) ++ rest) (row - 4 * p.1)
      (col - 4 * p.2) else dest row col) = _
  by_cases hin : InSquare row col p
  · have hrow := hin.1
    have hcol := hin.2
    rw [if_pos (by omega), if_pos hin, blockPixel_encode rest (by omega) (by omega),
      show 4 * p.1 + (row - 4 * p.1) = row by omega, show 4 * p.2 + (col - 4 * p.2) = col by omega]
  · have hout : ¬ (row / 4 = p.1 ∧ col / 4 = p.2) := hin
    rw [if_neg (by omega), if_neg hin]

theorem decode_blocks (blocks : List (Nat × Nat)) (dest : Picture) (row col : Nat) :
    (blocks.foldl (fun s p => decodeStep conv p.1 s p.2)
        (blocks.flatMap fun p => encodeBlockYuvDelta conv src (4 * p.2) (4 * p.1),
          dest)).2 row col =
      if ∃ p ∈ blocks, InSquare row col p then trackedPixel conv src row col else dest row col := by
  induction blocks generalizing dest with
  | nil =>
    rw [if_neg fun h => List.not_mem_nil h.choose_spec.1]
    rfl
  | cons p blocks ih =>
    rw [List.flatMap_cons, List.foldl_cons]
    obtain ⟨hrest, hdest⟩ := @decodeStep_encode conv src
      (blocks.flatMap fun p => encodeBlockYuvDelta conv src (4 * p.2) (4 * p.1)) dest p
    generalize decodeStep conv p.1 _ p.2 = s at hrest hdest
    obtain ⟨bytes, dest'⟩ := s
    subst hrest
    have hpixel : dest' row col = _ := hdest row col
    rw [ih dest', hpixel]
    by_cases hp : InSquare row col p
    · have hcons : ∃ p' ∈ p :: blocks, InSquare row col p' := ⟨p, List.mem_cons_self, hp⟩
      rw [if_pos hcons, if_pos hp]
      exact ite_self _
    · have hcons : (∃ p' ∈ p :: blocks, InSquare row col p') ↔
          ∃ p' ∈ blocks, InSquare row col p' := by
        rw [List.exists_mem_cons_iff]
        exact or_iff_right hp
      rw [if_neg hp]
      exact if_congr hcons.symm rfl rfl

/-- **A picture is read back**: each block where it was. -/
theorem decodeYuvDelta_encode (conv : Conversion) (src dest : Picture) (w h row col : Nat) :
    decodeYuvDelta conv (encodeYuvDelta conv src (4 * w) (4 * h)) dest (4 * w) (4 * h) row col =
      if row < 4 * h ∧ col < 4 * w then trackedPixel conv src row col else dest row col := by
  rw [decodeYuvDelta_eq, encodeYuvDelta_eq, decode_blocks]
  refine if_congr ?_ rfl rfl
  constructor
  · intro hblock
    obtain ⟨p, hp, hrow, hcol⟩ := hblock
    have hplace := mem_places.mp hp
    omega
  · intro hin
    exact ⟨(row / 4, col / 4), mem_places.mpr (by omega), rfl, rfl⟩

end

/-- **The decoder keeps step with the encoder**: over four valid values, and so over every picture
whose sides are multiples of 4. -/
theorem yuvDelta_lockstep :
    (∀ kind src, ValidSource kind src → Lockstep kind src) ∧
      ∀ (conv : Conversion) (src dest : Picture) (w h row col : Nat),
        decodeYuvDelta conv (encodeYuvDelta conv src (4 * w) (4 * h)) dest (4 * w) (4 * h) row col =
          if row < 4 * h ∧ col < 4 * w then trackedPixel conv src row col else dest row col :=
  ⟨fun _ _ h => lockstep h, decodeYuvDelta_encode⟩

/-- Four equal values. -/
theorem yuvDelta_grey :
    ValidSource .unsigned (fun _ => 128) ∧ Lockstep .unsigned (fun _ => 128) := by
  have hvalid : ValidSource .unsigned (fun _ => 128) := by
    intro j _
    show (16 : Int) ≤ 128 ∧ (128 : Int) ≤ 235
    decide
  exact ⟨hvalid, yuvDelta_lockstep.1 .unsigned _ hvalid⟩

end GPhoto2.Ax203
