import GPhoto2.Digigr8.Init

/-!
# `GPhoto2.Proofs.Digigr8.Init`: the catalogue is right where nothing has to be cast out

The loop of `digi_init` copies, for an entry that is cast out, what is behind it up to sixteen bytes
behind the block: the block ends with the sixteen bytes that were cleared at `i`, and the copy of
`i + 16 - j` bytes starts at `j + 16`. So `castOut_eq` finds it stuck at the first deleted entry.
`digiInit_iff` draws the conclusion for all catalogues.
-/

set_option autoImplicit false

namespace GPhoto2.Digigr8

/-! ### The entries -/

/-- The entries up to the first one that begins with a zero, at most `n` of them. -/
def entriesIn : Nat → List UInt8 → List (List UInt8)
  | 0, _ => []
  | n + 1, bytes =>
    if bytes.getD 0 0 ≠ 0 then bytes.take 16 :: entriesIn n (bytes.drop 16) else []

/-- The entries that the camera has sent. -/
def entries (data : List UInt8) : List (List UInt8) := entriesIn 1024 (catalogBlock data)

/-- The entry begins with the mark of a deleted picture. -/
def Deleted (entry : List UInt8) : Prop := entry.getD 0 0 = 0x64

instance (entry : List UInt8) : Decidable (Deleted entry) := inferInstanceAs (Decidable (_ = _))

/-- The entries of the pictures that are there. -/
def kept (data : List UInt8) : List (List UInt8) :=
  (entries data).filter fun entry => ¬ Deleted entry

/-- The catalogue begins with the entries that are not deleted, and `nb_entries` is their number. -/
def HoldsKept (data : List UInt8) (outcome : Option Priv) : Prop :=
  ∃ priv, outcome = some priv ∧ priv.nbEntries = (kept data).length ∧
    (kept data).flatten <+: priv.catalog.getD []

theorem entriesIn_spec {n : Nat} {bytes entry : List UInt8} (hlength : 16 * n ≤ bytes.length)
    (h : entry ∈ entriesIn n bytes) : entry.length = 16 ∧ entry.getD 0 0 ≠ 0 := by
  induction n generalizing bytes with
  | zero => cases h
  | succ n ih =>
    rw [entriesIn] at h
    by_cases hzero : bytes.getD 0 0 ≠ 0
    · rw [if_pos hzero, List.mem_cons] at h
      rcases h with rfl | h
      · constructor
        · rw [List.length_take]
          omega
        · rw [List.getD_eq_getElem?_getD, List.getElem?_take_of_lt (by omega),
            ← List.getD_eq_getElem?_getD]
          exact hzero
      · have hrest : 16 * n ≤ (bytes.drop 16).length := by
          rw [List.length_drop]
          omega
        exact ih hrest h
    · rw [if_neg hzero] at h
      cases h

theorem entriesIn_flatten {n : Nat} {bytes : List UInt8} (hlength : 16 * n ≤ bytes.length) :
    bytes.take (16 * (entriesIn n bytes).length) = (entriesIn n bytes).flatten ∧
      (entriesIn n bytes).length ≤ n := by
  induction n generalizing bytes with
  | zero => exact ⟨rfl, Nat.le_refl 0⟩
  | succ n ih =>
    rw [entriesIn]
    by_cases hzero : bytes.getD 0 0 ≠ 0
    · have hrest : 16 * n ≤ (bytes.drop 16).length := by
        rw [List.length_drop]
        omega
      obtain ⟨htake, hcount⟩ := ih hrest
      rw [if_pos hzero, List.length_cons, List.flatten_cons, ← htake]
      constructor
      · rw [Nat.mul_add, Nat.mul_one, Nat.add_comm, List.take_add]
      · omega
    · rw [if_neg hzero]
      exact ⟨rfl, Nat.zero_le _⟩

theorem endOfEntries_eq (catalog : List UInt8) (n i : Nat) :
    endOfEntries catalog n i = i + 16 * (entriesIn n (catalog.drop i)).length := by
  induction n generalizing i with
  | zero => rfl
  | succ n ih =>
    have hfirst : (catalog.drop i).getD 0 0 = catalog.getD i 0 := by
      simp only [List.getD_eq_getElem?_getD, List.getElem?_drop, Nat.add_zero]
    rw [endOfEntries, entriesIn, hfirst]
    by_cases hzero : catalog.getD i 0 ≠ 0
    · rw [if_pos hzero, if_pos hzero, ih, List.length_cons, List.drop_drop]
      omega
    · rw [if_neg hzero, if_neg hzero]
      rfl

theorem length_catalogBlock (data : List UInt8) : (catalogBlock data).length = 0x4010 := by
  have htake : (data.take 0x4000).length ≤ 0x4000 := List.length_take_le _ _
  rw [catalogBlock, List.length_append, List.length_replicate]
  omega

/-! ### The loop -/

theorem copyWithin_behind {block : List UInt8} {i j : Nat} (hlength : block.length = i + 16)
    (hj : j ≤ i) : copyWithin block j (j + 16) (i + 16 - j) = none := by
  have hout : ¬ (j + 16 + (i + 16 - j) ≤ block.length ∧ j + (i + 16 - j) ≤ block.length) := by
    omega
  rw [copyWithin, if_neg hout]

/-- The loop changes nothing as long as no entry is deleted, and is stuck at the first one that
is. The induction is on the entries that are left. -/
theorem castOut_eq {i j : Nat} {block rest : List UInt8} {es : List (List UInt8)} {nbEntries : Int}
    (hlength : block.length = i + 16) (hj : j ≤ i) (hdrop : block.drop j = es.flatten ++ rest)
    (hrest : j + 16 * es.length = i) (hes : ∀ e ∈ es, e.length = 16 ∧ e.getD 0 0 ≠ 0) :
    castOut false i es.length j block nbEntries =
      if ∃ e ∈ es, Deleted e then none else some (block, nbEntries) := by
  induction es generalizing j with
  | nil =>
    have hnone : ¬ ∃ e ∈ ([] : List (List UInt8)), Deleted e := by simp
    rw [if_neg hnone]
    rfl
  | cons e es ih =>
    obtain ⟨hwhole, hzero⟩ := hes e List.mem_cons_self
    have hfirst : block.getD j 0 = e.getD 0 0 := by
      have hat : block.getD j 0 = (block.drop j).getD 0 0 := by
        simp only [List.getD_eq_getElem?_getD, List.getElem?_drop, Nat.add_zero]
      rw [hat, hdrop, List.flatten_cons, List.append_assoc, List.getD_eq_getElem?_getD,
        List.getElem?_append_left (by omega), ← List.getD_eq_getElem?_getD]
    rw [List.length_cons, castOut, if_neg Bool.false_ne_true, hfirst]
    rw [List.length_cons] at hrest
    by_cases hdeleted : e.getD 0 0 = 0x64
    · have hany : ∃ e' ∈ e :: es, Deleted e' := ⟨e, List.mem_cons_self, hdeleted⟩
      rw [if_pos (Or.inr hdeleted), if_pos hany, copyWithin_behind hlength hj]
      rfl
    · have hnot : ¬ (e.getD 0 0 = 0 ∨ e.getD 0 0 = 0x64) := by
        intro h
        exact h.elim hzero hdeleted
      have hnext : block.drop (j + 16) = es.flatten ++ rest := by
        rw [← List.drop_drop, hdrop, List.flatten_cons, List.append_assoc, ← hwhole,
          List.drop_left]
      have hiff : (∃ e' ∈ e :: es, Deleted e') ↔ ∃ e' ∈ es, Deleted e' := by
        simp only [List.mem_cons, exists_eq_or_imp]
        exact or_iff_right hdeleted
      rw [if_neg hnot, ih (by omega) hnext (by omega) fun e' he' =>
        hes e' (List.mem_cons_of_mem _ he')]
      simp only [hiff]

/-! ### The catalogue -/

/-- What `digi_init` does with the entries. -/
theorem digiInit_eq (moved : Bool) (data : List UInt8) :
    digiInit moved data =
      if entries data = [] then
        some { catalog := none, nbEntries := 0, lastFetchedEntry := -1, initDone := true }
      else if moved = true ∨ ∃ e ∈ entries data, Deleted e then
        none
      else
        some { catalog := some ((entries data).flatten ++ List.replicate 16 0),
               nbEntries := (entries data).length, lastFetchedEntry := -1, initDone := true } := by
  have hblock : 16 * 1024 ≤ (catalogBlock data).length := by
    rw [length_catalogBlock]
    omega
  have hend : endOfEntries (catalogBlock data) 1024 0 = 16 * (entries data).length := by
    rw [endOfEntries_eq, Nat.zero_add, List.drop_zero, entries]
  obtain ⟨htake, hcount⟩ := entriesIn_flatten hblock
  have hspec := fun e he => @entriesIn_spec _ _ e hblock he
  rw [← entries] at htake hcount
  simp only [digiInit, hend, htake]
  by_cases hempty : entries data = []
  · rw [if_pos hempty, hempty]
    rfl
  · have hpositive : 0 < (entries data).length := List.length_pos_iff.mpr hempty
    have hne : 16 * (entries data).length ≠ 0 := by omega
    have hdiv : 16 * (entries data).length / 16 = (entries data).length := by omega
    rw [if_pos hne, if_neg hempty, hdiv]
    cases moved with
    | true =>
      rw [if_pos (Or.inl rfl)]
      obtain ⟨n, hn⟩ := Nat.exists_eq_succ_of_ne_zero (Nat.pos_iff_ne_zero.mp hpositive)
      rw [hn]
      rfl
    | false =>
      have hlength : ((entries data).flatten ++ List.replicate 16 0).length =
          16 * (entries data).length + 16 := by
        rw [List.length_append, List.length_replicate, ← htake, List.length_take]
        omega
      rw [castOut_eq hlength (Nat.zero_le _) List.drop_zero (Nat.zero_add _) hspec]
      by_cases hany : ∃ e ∈ entries data, Deleted e
      · rw [if_pos hany, if_pos (Or.inr hany)]
        rfl
      · have hnot : ¬ (false = true ∨ ∃ e ∈ entries data, Deleted e) := by
          intro h
          exact h.elim Bool.false_ne_true hany
        rw [if_neg hany, if_neg hnot]
        rfl

/-- Where an entry is deleted, or the block moves, the function is stuck. -/
theorem digiInit_stuck {moved : Bool} {data : List UInt8} (hempty : entries data ≠ [])
    (hstuck : moved = true ∨ ∃ e ∈ entries data, Deleted e) :
    ¬ HoldsKept data (digiInit moved data) := by
  rw [digiInit_eq, if_neg hempty, if_pos hstuck]
  intro h
  obtain ⟨_, hnone, _⟩ := h
  cases hnone

/-- **The catalogue is right where there is no entry at all, or where no entry is deleted and
`realloc` has left the block in its place.** -/
theorem digiInit_iff (moved : Bool) (data : List UInt8) :
    HoldsKept data (digiInit moved data) ↔
      entries data = [] ∨ (moved = false ∧ ∀ e ∈ entries data, ¬ Deleted e) := by
  by_cases hempty : entries data = []
  · rw [digiInit_eq, if_pos hempty]
    have hkept : kept data = [] := by rw [kept, hempty, List.filter_nil]
    refine ⟨fun _ => Or.inl hempty, fun _ => ⟨_, rfl, ?_, ?_⟩⟩
    · rw [hkept]
      rfl
    · rw [hkept]
      exact List.nil_prefix
  by_cases hstuck : moved = true ∨ ∃ e ∈ entries data, Deleted e
  · constructor
    · intro h
      exact absurd h (digiInit_stuck hempty hstuck)
    · intro h
      rcases h with h | ⟨hmoved, hall⟩
      · exact absurd h hempty
      · rcases hstuck with hstuck | ⟨e, he, hdeleted⟩
        · rw [hmoved] at hstuck
          cases hstuck
        · exact absurd hdeleted (hall e he)
  · rw [digiInit_eq, if_neg hempty, if_neg hstuck]
    have hmoved : moved = false := Bool.eq_false_iff.mpr fun h => hstuck (Or.inl h)
    have hall : ∀ e ∈ entries data, ¬ Deleted e := fun e he h => hstuck (Or.inr ⟨e, he, h⟩)
    have hkept : kept data = entries data := by
      rw [kept, List.filter_eq_self]
      intro e he
      exact decide_eq_true (hall e he)
    refine ⟨fun _ => Or.inr ⟨hmoved, hall⟩, fun _ => ⟨_, rfl, ?_, ?_⟩⟩
    · rw [hkept]
    · rw [hkept]
      exact List.prefix_append _ _

/-- One entry, which is deleted: the copy reads sixteen bytes behind the block. -/
theorem one_deleted :
    copyWithin ([0x64] ++ List.replicate 31 0) 0 16 32 = none ∧
      ¬ HoldsKept [0x64] (digiInit false [0x64]) := by
  have hfirst : [0x64] ++ List.replicate 15 0 ∈ entries [0x64] := by decide +kernel
  exact ⟨rfl, digiInit_stuck (List.ne_nil_of_mem hfirst) (Or.inr ⟨_, hfirst, rfl⟩)⟩

end GPhoto2.Digigr8
