import Mathlib.Algebra.Group.Int.Defs
import Mathlib.Algebra.Group.Nat.Defs
import Mathlib.Data.List.Basic
import Mathlib.Data.List.Sort

/-!
# `GPhoto2.Lib.Qsort`: the sorting of the C library

`qsort` promises a sorted array if the comparison orders the elements, and says nothing of
the order otherwise. `Qsort cmp` is any function that keeps this promise and only moves the
elements around, so a result about every `Qsort` is a result about every C library.

* `Qsort.insertion`: one such function.
* `Qsort.instead`: any other arrangement of an array that the comparison does not order is
  allowed too.
-/

set_option autoImplicit false

namespace GPhoto2.Lib

variable {α : Type}

/-- `cmp` orders the elements of `l`: it is negative one way round exactly if it is positive
the other way round, and it is transitive. -/
structure Orders (cmp : α → α → Int) (l : List α) : Prop where
  flip : ∀ a ∈ l, ∀ b ∈ l, 0 < cmp a b ↔ cmp b a < 0
  trans : ∀ a ∈ l, ∀ b ∈ l, ∀ c ∈ l, cmp a b ≤ 0 → cmp b c ≤ 0 → cmp a c ≤ 0

/-- `qsort` with the comparison `cmp`, as the C library promises it. -/
structure Qsort (cmp : α → α → Int) where
  sort : List α → List α
  perm : ∀ l, (sort l).Perm l
  sorted : ∀ l, Orders cmp l → (sort l).Pairwise fun a b => cmp a b ≤ 0

variable {cmp : α → α → Int}

theorem Orders.sublist {l l' : List α} (h : Orders cmp l) (hsub : ∀ a ∈ l', a ∈ l) :
    Orders cmp l' where
  flip := fun a ha b hb => h.flip a (hsub a ha) b (hsub b hb)
  trans := fun a ha b hb c hc => h.trans a (hsub a ha) b (hsub b hb) c (hsub c hc)

theorem orderedInsert_sorted {a : α} {l : List α} (horders : Orders cmp (a :: l))
    (hl : l.Pairwise fun a b => cmp a b ≤ 0) :
    (l.orderedInsert (fun a b => cmp a b ≤ 0) a).Pairwise fun a b => cmp a b ≤ 0 := by
  induction l with
  | nil => simp
  | cons b l ih =>
    have hb := List.pairwise_cons.mp hl
    rw [List.orderedInsert_cons]
    split
    · rename_i hab
      refine List.pairwise_cons.mpr ⟨?_, hl⟩
      intro c hc
      rcases List.mem_cons.mp hc with rfl | hc
      · exact hab
      · exact horders.trans a (by simp) b (by simp) c (by simp [hc]) hab (hb.1 c hc)
    · rename_i hab
      have hba : cmp b a ≤ 0 := by
        have := (horders.flip a (by simp) b (by simp)).mp (by omega)
        omega
      have hrest : Orders cmp (a :: l) := by
        apply horders.sublist
        intro c hc
        rcases List.mem_cons.mp hc with rfl | hc
        · simp
        · simp [hc]
      refine List.pairwise_cons.mpr ⟨?_, ih hrest hb.2⟩
      intro c hc
      rw [List.mem_orderedInsert] at hc
      rcases hc with rfl | hc
      · exact hba
      · exact hb.1 c hc

theorem insertionSort_sorted {l : List α} (horders : Orders cmp l) :
    (l.insertionSort fun a b => cmp a b ≤ 0).Pairwise fun a b => cmp a b ≤ 0 := by
  induction l with
  | nil => simp
  | cons a l ih =>
    rw [List.insertionSort_cons]
    apply orderedInsert_sorted
    · apply horders.sublist
      intro b hb
      rcases List.mem_cons.mp hb with rfl | hb
      · simp
      · simp [(List.mem_insertionSort _).mp hb]
    · exact ih (horders.sublist fun b hb => by simp [hb])

/-- Sorting by insertion. -/
def Qsort.insertion (cmp : α → α → Int) : Qsort cmp where
  sort := List.insertionSort fun a b => cmp a b ≤ 0
  perm := List.perm_insertionSort _
  sorted := fun _ => insertionSort_sorted

/-- Sorting as `q` does, but for one array that `cmp` does not order. -/
def Qsort.instead [DecidableEq α] (q : Qsort cmp) {l l' : List α} (hl : ¬ Orders cmp l)
    (hperm : l'.Perm l) : Qsort cmp where
  sort := fun m => if m = l then l' else q.sort m
  perm := by
    intro m
    split
    · rename_i hm
      rw [hm]
      exact hperm
    · exact q.perm m
  sorted := by
    intro m hm
    have hne : m ≠ l := by
      intro he
      exact hl (he ▸ hm)
    rw [if_neg hne]
    exact q.sorted m hm

theorem Qsort.instead_sort [DecidableEq α] (q : Qsort cmp) {l l' : List α}
    (hl : ¬ Orders cmp l) (hperm : l'.Perm l) : (q.instead hl hperm).sort l = l' := by
  show (if l = l then l' else q.sort l) = l'
  rw [if_pos rfl]

theorem Qsort.mem_sort (q : Qsort cmp) {l : List α} {a : α} : a ∈ q.sort l ↔ a ∈ l :=
  (q.perm l).mem_iff

/-! ## The binary search of the C library

`bsearch cmp l` looks for an element that `cmp` calls equal to the key: it halves the window
`[lo, hi)`, goes left where `cmp` is negative and right where it is positive. C promises a
hit only if `cmp` orders the array around the key. Here the search is a plain function, so
that the callers with a comparison that does not order the array have an outcome too.

* `bsearch_sound`: what is found compares equal.
* `bsearch_eq_some_iff`: the one element that compares equal is found exactly if `cmp` sends
  the search to the right side at each index on the way to it (`bsearchProbes`).
-/

/-- The search of the window `[lo, hi)`, which gets smaller in each of the `fuel` rounds. -/
def bsearchLoop (cmp : α → Int) (l : List α) : Nat → Nat → Nat → Option Nat
  | 0, _, _ => none
  | fuel + 1, lo, hi =>
    if lo < hi then
      match l[(lo + hi) / 2]? with
      | none => none
      | some a =>
        if cmp a < 0 then bsearchLoop cmp l fuel lo ((lo + hi) / 2)
        else if 0 < cmp a then bsearchLoop cmp l fuel ((lo + hi) / 2 + 1) hi
        else some ((lo + hi) / 2)
    else none

/-- `bsearch`, with the comparison already applied to the key. -/
def bsearch (cmp : α → Int) (l : List α) : Option Nat :=
  bsearchLoop cmp l l.length 0 l.length

/-- The indices a search of the window looks at on its way to the index `k`. -/
def bsearchProbesLoop (k : Nat) : Nat → Nat → Nat → List Nat
  | 0, _, _ => []
  | fuel + 1, lo, hi =>
    (lo + hi) / 2 ::
      if k < (lo + hi) / 2 then bsearchProbesLoop k fuel lo ((lo + hi) / 2)
      else if (lo + hi) / 2 < k then bsearchProbesLoop k fuel ((lo + hi) / 2 + 1) hi
      else []

/-- The indices a search in `n` elements looks at on its way to the index `k`. -/
def bsearchProbes (n k : Nat) : List Nat := bsearchProbesLoop k n 0 n

example : bsearchProbes 8 2 = [4, 2] := by decide

/-- Going to the right side at the index `i`, on the way to the index `k`. -/
def LeadsTo (cmp : α → Int) (l : List α) (k i : Nat) : Prop :=
  ∀ a, l[i]? = some a → (i < k → 0 < cmp a) ∧ (k < i → cmp a < 0)

variable {cmp : α → Int} {l : List α}

theorem bsearchLoop_sound {fuel lo hi i : Nat} (h : bsearchLoop cmp l fuel lo hi = some i) :
    lo ≤ i ∧ i < hi ∧ ∃ a, l[i]? = some a ∧ cmp a = 0 := by
  induction fuel generalizing lo hi with
  | zero => cases h
  | succ fuel ih =>
    unfold bsearchLoop at h
    by_cases hlt : lo < hi
    · rw [if_pos hlt] at h
      cases ha : l[(lo + hi) / 2]? with
      | none =>
        rw [ha] at h
        cases h
      | some a =>
        simp only [ha] at h
        by_cases hneg : cmp a < 0
        · rw [if_pos hneg] at h
          obtain ⟨hlo, hhi, hfound⟩ := ih h
          exact ⟨hlo, by omega, hfound⟩
        · rw [if_neg hneg] at h
          by_cases hpos : 0 < cmp a
          · rw [if_pos hpos] at h
            obtain ⟨hlo, hhi, hfound⟩ := ih h
            exact ⟨by omega, hhi, hfound⟩
          · rw [if_neg hpos] at h
            cases h
            exact ⟨by omega, by omega, a, ha, by omega⟩
    · rw [if_neg hlt] at h
      cases h

/-- What is found compares equal to the key. -/
theorem bsearch_sound {i : Nat} (h : bsearch cmp l = some i) :
    ∃ a, l[i]? = some a ∧ cmp a = 0 :=
  (bsearchLoop_sound h).2.2

theorem bsearchLoop_eq_some_iff {k fuel lo hi : Nat} (hfuel : hi - lo ≤ fuel) (hlo : lo ≤ k)
    (hhi : k < hi) (hlen : hi ≤ l.length)
    (hk : ∀ i a, l[i]? = some a → (cmp a = 0 ↔ i = k)) :
    bsearchLoop cmp l fuel lo hi = some k ↔
      ∀ i ∈ bsearchProbesLoop k fuel lo hi, LeadsTo cmp l k i := by
  induction fuel generalizing lo hi with
  | zero => omega
  | succ fuel ih =>
    have hmid : (lo + hi) / 2 < l.length := by omega
    obtain ⟨a, ha⟩ : ∃ a, l[(lo + hi) / 2]? = some a := ⟨_, List.getElem?_eq_getElem hmid⟩
    have hzero := hk _ a ha
    unfold bsearchLoop bsearchProbesLoop
    rw [if_pos (by omega)]
    simp only [ha, List.forall_mem_cons]
    have hleads : LeadsTo cmp l k ((lo + hi) / 2) ↔
        ((lo + hi) / 2 < k → 0 < cmp a) ∧ (k < (lo + hi) / 2 → cmp a < 0) := by
      unfold LeadsTo
      rw [ha]
      simp
    rw [hleads]
    rcases Nat.lt_trichotomy k ((lo + hi) / 2) with hlt | heq | hgt
    · rw [if_pos hlt]
      by_cases hneg : cmp a < 0
      · rw [if_pos hneg, ih (by omega) hlo hlt (by omega)]
        simp [hneg, Nat.not_lt.mpr (Nat.le_of_lt hlt)]
      · -- The search goes right, and the element is on the left.
        rw [if_neg hneg, if_pos (by omega)]
        refine iff_of_false (fun h => ?_) (fun h => hneg (h.1.2 hlt))
        have := (bsearchLoop_sound h).1
        omega
    · have hcmp : cmp a = 0 := hzero.mpr heq.symm
      simp [hcmp, ← heq]
    · rw [if_neg (Nat.not_lt.mpr (Nat.le_of_lt hgt)), if_pos hgt]
      by_cases hpos : 0 < cmp a
      · rw [if_neg (by omega), if_pos hpos, ih (by omega) (by omega) hhi hlen]
        simp [hpos, Nat.not_lt.mpr (Nat.le_of_lt hgt)]
      · rw [if_pos (by omega)]
        refine iff_of_false (fun h => ?_) (fun h => hpos (h.1.1 hgt))
        have := (bsearchLoop_sound h).2.1
        omega

/-- The one element that compares equal is found exactly if each comparison on the way to it
sends the search to its side. -/
theorem bsearch_eq_some_iff {k : Nat} (hlen : k < l.length)
    (hk : ∀ i a, l[i]? = some a → (cmp a = 0 ↔ i = k)) :
    bsearch cmp l = some k ↔ ∀ i ∈ bsearchProbes l.length k, LeadsTo cmp l k i :=
  bsearchLoop_eq_some_iff (by omega) (Nat.zero_le k) hlen (Nat.le_refl _) hk

/-! ## Comparing 32-bit numbers by their difference

A comparison that returns the difference of two `uint32_t` as an `int` is right for numbers less
than `2^31` apart only (`sub_toInt_near`); for others the sign is the wrong one
(`sub_toInt_far`, `sub_toInt_half`). `sort_ascending_iff`: sorting by such a comparison is sure
to give an ascending array if and only if no two of the numbers are that far apart.
-/

theorem sub_toInt (a b : UInt32) :
    (a - b).toInt32.toInt = if b.toNat ≤ a.toNat then
        if a.toNat - b.toNat < 2 ^ 31 then ((a.toNat - b.toNat : Nat) : Int)
        else ((a.toNat - b.toNat : Nat) : Int) - 2 ^ 32
      else
        if b.toNat - a.toNat ≤ 2 ^ 31 then -((b.toNat - a.toNat : Nat) : Int)
        else 2 ^ 32 - ((b.toNat - a.toNat : Nat) : Int) := by
  have ha := a.toNat_lt
  have hb := b.toNat_lt
  have h : (a - b).toInt32.toInt = (a.toBitVec - b.toBitVec).toInt := rfl
  rw [h, BitVec.toInt_eq_toNat_cond, BitVec.toNat_sub]
  simp only [UInt32.toNat_toBitVec]
  split_ifs <;> omega

theorem sub_toInt_near {a b : UInt32} (h : a.toNat < b.toNat + 2 ^ 31)
    (h' : b.toNat < a.toNat + 2 ^ 31) : (a - b).toInt32.toInt = (a.toNat : Int) - b.toNat := by
  rw [sub_toInt]
  split_ifs <;> omega

theorem sub_toInt_far {a b : UInt32} (h : a.toNat + 2 ^ 31 < b.toNat) :
    0 < (a - b).toInt32.toInt := by
  have hb := b.toNat_lt
  rw [sub_toInt]
  split_ifs <;> omega

theorem sub_toInt_half {a b : UInt32} (h : a.toNat + 2 ^ 31 = b.toNat) :
    (a - b).toInt32.toInt < 0 ∧ (b - a).toInt32.toInt < 0 := by
  rw [sub_toInt, sub_toInt]
  constructor
  · split_ifs <;> omega
  · split_ifs <;> omega

section
variable {α : Type} (key : α → UInt32)

/-- The comparison of two elements by the difference of their keys. -/
def compareKeys (a b : α) : Int := (key a - key b).toInt32.toInt

/-- No two of the keys are `2^31` or more apart. -/
def KeysNear (l : List α) : Prop :=
  ∀ a ∈ l, ∀ b ∈ l, (key a).toNat < (key b).toNat + 2 ^ 31

variable {key}

theorem KeysNear.compareKeys_eq {l : List α} (h : KeysNear key l) {a b : α} (ha : a ∈ l)
    (hb : b ∈ l) : compareKeys key a b = ((key a).toNat : Int) - (key b).toNat :=
  sub_toInt_near (h a ha b hb) (h b hb a ha)

theorem KeysNear.orders {l : List α} (h : KeysNear key l) : Orders (compareKeys key) l where
  flip a ha b hb := by
    rw [h.compareKeys_eq ha hb, h.compareKeys_eq hb ha]
    omega
  trans a ha b hb c hc hab hbc := by
    rw [h.compareKeys_eq ha hb] at hab
    rw [h.compareKeys_eq hb hc] at hbc
    rw [h.compareKeys_eq ha hc]
    omega

/-- An array in which a larger key may stand in front of a smaller one. -/
theorem exists_sort_descends [DecidableEq α] {l : List α} {a b : α} (ha : a ∈ l) (hb : b ∈ l)
    (hfar : (key a).toNat + 2 ^ 31 ≤ (key b).toNat) :
    ∃ q : Qsort (compareKeys key), ¬ (q.sort l).Pairwise fun x y => key x ≤ key y := by
  have hne : a ≠ b := by
    rintro rfl
    omega
  have hgt : ¬ key b ≤ key a := by
    rw [UInt32.le_iff_toNat_le]
    omega
  by_cases horders : Orders (compareKeys key) l
  · -- a sorted array has them in the wrong order
    have hpos : 0 < compareKeys key a b := by
      rcases Nat.lt_or_eq_of_le hfar with hlt | heq
      · exact sub_toInt_far hlt
      · have hhalf := sub_toInt_half heq
        have hflip := (horders.flip b hb a ha).mpr hhalf.1
        exact absurd hhalf.2 (Int.not_lt.mpr (Int.le_of_lt hflip))
    refine ⟨Qsort.insertion _, fun hsorted => ?_⟩
    have hcmp := (Qsort.insertion (compareKeys key)).sorted l horders
    have ha' := (Qsort.insertion (compareKeys key)).mem_sort.mpr ha
    have hb' := (Qsort.insertion (compareKeys key)).mem_sort.mpr hb
    obtain ⟨i, hi, hia⟩ := List.getElem_of_mem ha'
    obtain ⟨j, hj, hjb⟩ := List.getElem_of_mem hb'
    rcases Nat.lt_trichotomy i j with hij | hij | hij
    · have hle := List.pairwise_iff_getElem.mp hcmp i j hi hj hij
      rw [hia, hjb] at hle
      omega
    · subst hij
      exact hne (hia.symm.trans hjb)
    · have hle := List.pairwise_iff_getElem.mp hsorted j i hj hi hij
      rw [hia, hjb] at hle
      exact hgt hle
  · have hrest : a ∈ l.erase b := (List.mem_erase_of_ne hne).mpr ha
    refine ⟨(Qsort.insertion _).instead horders (List.perm_cons_erase hb).symm, fun hsorted => ?_⟩
    rw [Qsort.instead_sort] at hsorted
    exact hgt ((List.pairwise_cons.mp hsorted).1 a hrest)

theorem sort_ascending_iff [DecidableEq α] {l : List α} :
    (∀ q : Qsort (compareKeys key), (q.sort l).Pairwise fun x y => key x ≤ key y) ↔
      KeysNear key l := by
  constructor
  · intro h b hb a ha
    by_contra hfar
    obtain ⟨q, hq⟩ := exists_sort_descends ha hb (Nat.le_of_not_lt hfar)
    exact hq (h q)
  · intro h q
    have hsorted := q.sorted l h.orders
    refine hsorted.imp_of_mem fun {x y} hx hy hxy => ?_
    rw [h.compareKeys_eq (q.mem_sort.mp hx) (q.mem_sort.mp hy)] at hxy
    rw [UInt32.le_iff_toNat_le]
    omega

end

end GPhoto2.Lib
