import Mathlib.Data.List.Basic
import Mathlib.Data.List.Nodup
import Mathlib.Logic.Function.Basic

/-!
# `GPhoto2.Lib.SelfHeadedList`: doubly linked lists whose head points back to itself

A doubly linked list is two maps `next` and `prev` of addresses, with a pointer to the
first and to the last element. Here the `prev` of the first element is the element itself,
so `prev a ≠ none` says that `a` is on the list. `SelfHeadedList next prev first last l`
says that the pointers spell the list `l`: by index, the successor of `l[i]` is `l[i + 1]`
and its predecessor is `l[i - 1]`, which for `i = 0` is `l[0]` again.

The three edits are `SelfHeadedList.append` (at the end), `SelfHeadedList.erase` (anywhere)
and `SelfHeadedList.clear`. Each takes the edited maps by their values.
-/

set_option autoImplicit false

namespace GPhoto2.Lib

open List (getElem?_eq_getElem getElem?_eraseIdx getElem_mem getElem_of_mem getLast?_eq_getElem?
  head?_eq_getElem?)

variable {α : Type}

/-- The pointers spell the list `l`. -/
structure SelfHeadedList (next prev : α → Option α) (first last : Option α) (l : List α) :
    Prop where
  nodup : l.Nodup
  first_eq : first = l.head?
  last_eq : last = l.getLast?
  next_get : ∀ (i : Nat) (h : i < l.length), next l[i] = l[i + 1]?
  prev_get : ∀ (i : Nat) (h : i < l.length), prev l[i] = l[i - 1]?
  off : ∀ a, a ∉ l → next a = none ∧ prev a = none

namespace SelfHeadedList

variable {next prev : α → Option α} {first last : Option α} {l : List α}

/-- `prev` tells whether an element is on the list. -/
theorem prev_ne_none_iff (h : SelfHeadedList next prev first last l) (a : α) :
    prev a ≠ none ↔ a ∈ l := by
  constructor
  · intro hp
    by_contra ha
    exact hp (h.off a ha).2
  · intro ha
    obtain ⟨i, hi, rfl⟩ := getElem_of_mem ha
    rw [h.prev_get i hi, getElem?_eq_getElem (by omega)]
    simp

variable {a : α}

section
variable (h : SelfHeadedList next prev first last l)
include h

/-- The predecessor of an element is on the list. -/
theorem prev_mem {p : α}
    (hp : prev a = some p) : p ∈ l := by
  have ha : a ∈ l := (h.prev_ne_none_iff a).mp (by simp [hp])
  obtain ⟨i, hi, rfl⟩ := getElem_of_mem ha
  rw [h.prev_get i hi] at hp
  exact List.mem_of_getElem? hp

/-- The successor of an element is on the list. -/
theorem next_mem {n : α}
    (hn : next a = some n) : n ∈ l := by
  by_cases ha : a ∈ l
  · obtain ⟨i, hi, rfl⟩ := getElem_of_mem ha
    rw [h.next_get i hi] at hn
    exact List.mem_of_getElem? hn
  · rw [(h.off a ha).1] at hn
    cases hn

/-- No element is its own successor. -/
theorem next_ne_self (a : α) :
    next a ≠ some a := by
  intro hn
  obtain ⟨i, hi, rfl⟩ := getElem_of_mem (h.next_mem hn)
  rw [h.next_get i hi] at hn
  obtain ⟨hi', heq⟩ := List.getElem?_eq_some_iff.mp hn
  have := h.nodup.getElem_inj_iff.mp heq
  omega

/-- The first element is the one that precedes itself. -/
theorem first_eq_some_iff :
    first = some a ↔ prev a = some a := by
  rw [h.first_eq]
  constructor
  · intro hf
    rw [head?_eq_getElem?] at hf
    obtain ⟨hi, rfl⟩ := List.getElem?_eq_some_iff.mp hf
    rw [h.prev_get 0 hi, getElem?_eq_getElem hi]
  · intro hp
    obtain ⟨i, hi, rfl⟩ := getElem_of_mem (h.prev_mem hp)
    rw [h.prev_get i hi] at hp
    obtain ⟨hi', heq⟩ := List.getElem?_eq_some_iff.mp hp
    have := h.nodup.getElem_inj_iff.mp heq
    obtain rfl : i = 0 := by omega
    rw [head?_eq_getElem?, getElem?_eq_getElem hi]

/-- The last element is the one on the list without a successor. -/
theorem last_eq_some_iff :
    last = some a ↔ a ∈ l ∧ next a = none := by
  rw [h.last_eq, getLast?_eq_getElem?]
  constructor
  · intro hl
    obtain ⟨hi, rfl⟩ := List.getElem?_eq_some_iff.mp hl
    refine ⟨getElem_mem hi, ?_⟩
    rw [h.next_get _ hi, List.getElem?_eq_none (by omega)]
  · rintro ⟨ha, hn⟩
    obtain ⟨i, hi, rfl⟩ := getElem_of_mem ha
    rw [h.next_get i hi, List.getElem?_eq_none_iff] at hn
    obtain rfl : i = l.length - 1 := by omega
    rw [getElem?_eq_getElem hi]

end

/-- The empty list. -/
theorem nil : SelfHeadedList (fun _ : α => none) (fun _ => none) none none [] where
  nodup := List.nodup_nil
  first_eq := rfl
  last_eq := rfl
  next_get := by simp
  prev_get := by simp
  off := by simp

theorem first_eq_none_iff (h : SelfHeadedList next prev first last l) :
    first = none ↔ l = [] := by
  rw [h.first_eq, List.head?_eq_none_iff]

variable {next' prev' : α → Option α}

variable (h : SelfHeadedList next prev first last l)
include h

/-- Clearing the pointers of every element on the list leaves no pointer behind. -/
theorem clear (hon : ∀ a ∈ l, next' a = none ∧ prev' a = none)
    (hoff : ∀ a, a ∉ l → next' a = next a ∧ prev' a = prev a) :
    SelfHeadedList next' prev' none none [] where
  nodup := List.nodup_nil
  first_eq := rfl
  last_eq := rfl
  next_get := by simp
  prev_get := by simp
  off := by
    intro a _
    by_cases ha : a ∈ l
    · exact hon a ha
    · rw [(hoff a ha).1, (hoff a ha).2]
      exact h.off a ha

/-- Putting a new element at the end. -/
theorem append [DecidableEq α] (ha : a ∉ l)
    {first' : Option α}
    (hfirst : first' = if first = none then some a else first)
    (hnext : ∀ x, next' x = if x = a then none else if last = some x then some a else next x)
    (hprev : ∀ x, prev' x = if x = a then (if last = none then some a else last) else prev x) :
    SelfHeadedList next' prev' first' (some a) (l ++ [a]) where
  nodup := List.nodup_append.mpr ⟨h.nodup, by simp, by
    intro x hx y hy
    obtain rfl := List.mem_singleton.mp hy
    rintro rfl
    exact ha hx⟩
  first_eq := by
    rw [hfirst, h.first_eq]
    cases l <;> simp
  last_eq := by simp
  next_get := by
    intro i hi
    rw [hnext]
    simp only [List.length_append, List.length_cons, List.length_nil] at hi
    by_cases hil : i < l.length
    · rw [List.getElem_append_left hil]
      have hne : l[i] ≠ a := fun e => ha (e ▸ getElem_mem hil)
      rw [if_neg hne]
      by_cases hlast : last = some l[i]
      · rw [if_pos hlast]
        have hnn := (h.last_eq_some_iff.mp hlast).2
        rw [h.next_get i hil, List.getElem?_eq_none_iff] at hnn
        obtain hlen : i + 1 = l.length := by omega
        rw [List.getElem?_append_right (by omega), hlen]
        simp
      · rw [if_neg hlast, h.next_get i hil]
        have hlt : i + 1 < l.length := by
          by_contra hc
          exact hlast (h.last_eq_some_iff.mpr
            ⟨getElem_mem hil, by rw [h.next_get i hil, List.getElem?_eq_none (by omega)]⟩)
        rw [List.getElem?_append_left hlt]
    · obtain rfl : i = l.length := by omega
      rw [List.getElem_append_right (by omega), List.getElem?_append_right (by omega)]
      simp
  prev_get := by
    intro i hi
    rw [hprev]
    simp only [List.length_append, List.length_cons, List.length_nil] at hi
    by_cases hil : i < l.length
    · rw [List.getElem_append_left hil]
      have hne : l[i] ≠ a := fun e => ha (e ▸ getElem_mem hil)
      rw [if_neg hne, h.prev_get i hil, List.getElem?_append_left (by omega)]
    · obtain rfl : i = l.length := by omega
      rw [List.getElem_append_right (by omega)]
      simp only [Nat.sub_self, List.getElem_cons_zero, if_true]
      rw [h.last_eq, getLast?_eq_getElem?]
      cases hl : l.length with
      | zero =>
        obtain rfl := List.length_eq_zero_iff.mp hl
        simp
      | succ n =>
        rw [List.getElem?_append_left (by omega), if_neg]
        rw [List.getElem?_eq_none_iff]
        omega
  off := by
    intro x hx
    simp only [List.mem_append, List.mem_singleton, not_or] at hx
    rw [hnext, hprev, if_neg hx.2, if_neg hx.2, if_neg]
    · exact h.off x hx.1
    · intro hlast
      exact hx.1 (h.last_eq_some_iff.mp hlast).1

/-- Taking an element out. -/
theorem erase [DecidableEq α]
    (ha : a ∈ l) {first' last' : Option α}
    (hfirst : first' = if first = some a then next a else first)
    (hlast : last' =
      if last = some a then (if first = some a then none else prev a) else last)
    (hnext : ∀ x, next' x =
      if x = a then none else if prev a = some x then next a else next x)
    (hprev : ∀ x, prev' x =
      if x = a then none
      else if next a = some x then (if first = some a then some x else prev a)
      else prev x) :
    SelfHeadedList next' prev' first' last' (l.erase a) := by
  obtain ⟨k, hk, rfl⟩ := getElem_of_mem ha
  have inj : ∀ (i j : Nat) (hi : i < l.length) (hj : j < l.length),
      l[i] = l[j] ↔ i = j := fun i j hi hj => h.nodup.getElem_inj_iff
  have inj? : ∀ (i j : Nat) (hj : j < l.length), l[i]? = some l[j] ↔ i = j := by
    intro i j hj
    rw [List.getElem?_eq_some_iff]
    constructor
    · rintro ⟨hi, heq⟩
      exact (inj i j hi hj).mp heq
    · rintro rfl
      exact ⟨hj, rfl⟩
  have hfirst_iff : first = some l[k] ↔ k = 0 := by
    rw [h.first_eq, head?_eq_getElem?, inj?]
    exact eq_comm
  have hlast_iff : last = some l[k] ↔ k + 1 = l.length := by
    rw [h.last_eq, getLast?_eq_getElem?, inj?]
    omega
  rw [h.nodup.erase_getElem]
  have hlen := List.length_eraseIdx_of_lt hk
  exact {
    nodup := h.nodup.sublist (List.eraseIdx_sublist l k)
    first_eq := by
      rw [hfirst, head?_eq_getElem?, getElem?_eraseIdx, h.next_get k hk, h.first_eq]
      by_cases hk0 : k = 0
      · subst hk0
        rw [if_pos (by rw [← h.first_eq]; exact hfirst_iff.mpr rfl), if_neg (by omega)]
      · rw [if_neg (by rw [← h.first_eq]; exact fun hc => hk0 (hfirst_iff.mp hc)),
          if_pos (by omega), head?_eq_getElem?]
    last_eq := by
      rw [hlast, getLast?_eq_getElem?, hlen, getElem?_eraseIdx]
      by_cases hk1 : k + 1 = l.length
      · rw [if_pos (hlast_iff.mpr hk1)]
        by_cases hk0 : k = 0
        · rw [if_pos (hfirst_iff.mpr hk0), if_neg (by omega), List.getElem?_eq_none (by omega)]
        · rw [if_neg (fun hc => hk0 (hfirst_iff.mp hc)), if_pos (by omega), h.prev_get k hk]
          congr 1
          omega
      · rw [if_neg (fun hc => hk1 (hlast_iff.mp hc)), if_neg (by omega), h.last_eq,
          getLast?_eq_getElem?]
        congr 1
        omega
    next_get := by
      intro i hi
      rw [getElem?_eraseIdx, hnext, List.getElem_eraseIdx, h.prev_get k hk]
      by_cases hik : i < k
      · simp only [dif_pos hik]
        rw [if_neg (fun hc => by have := (inj _ _ (by omega) hk).mp hc; omega)]
        by_cases hik1 : i + 1 < k
        · rw [if_neg (fun hc => by have := (inj? _ _ (by omega)).mp hc; omega),
            if_pos hik1, h.next_get]
        · rw [if_pos ((inj? _ _ (by omega)).mpr (by omega)), if_neg hik1,
            h.next_get k hk]
          congr 1
          omega
      · simp only [dif_neg hik]
        rw [if_neg (fun hc => by have := (inj _ _ (by omega) hk).mp hc; omega),
          if_neg (fun hc => by have := (inj? _ _ (by omega)).mp hc; omega),
          if_neg (by omega), h.next_get]
    prev_get := by
      intro i hi
      rw [getElem?_eraseIdx, hprev, List.getElem_eraseIdx, h.next_get k hk,
        h.prev_get k hk]
      by_cases hik : i < k
      · simp only [dif_pos hik]
        rw [if_neg (fun hc => by have := (inj _ _ (by omega) hk).mp hc; omega), if_neg,
          if_pos (by omega), h.prev_get]
        intro hc
        have := (inj? _ _ (by omega)).mp hc
        omega
      · simp only [dif_neg hik]
        rw [if_neg (fun hc => by have := (inj _ _ (by omega) hk).mp hc; omega)]
        by_cases hik' : i = k
        · subst hik'
          rw [if_pos ((inj? _ _ (by omega)).mpr rfl)]
          by_cases hk0 : i = 0
          · subst hk0
            rw [if_pos (hfirst_iff.mpr rfl), if_neg (by omega),
              getElem?_eq_getElem (by omega)]
          · rw [if_neg (fun hc => hk0 (hfirst_iff.mp hc)), if_pos (by omega)]
        · rw [if_neg (fun hc => by have := (inj? _ _ (by omega)).mp hc; omega),
            if_neg (by omega), h.prev_get]
          congr 1
          omega
    off := by
      intro x hx
      rw [hnext, hprev]
      by_cases hxa : x = l[k]
      · simp [hxa]
      · have hxl : x ∉ l := by
          intro hmem
          apply hx
          obtain ⟨i, hi, rfl⟩ := getElem_of_mem hmem
          exact List.mem_eraseIdx_iff_getElem.mpr
            ⟨i, hi, fun hc => hxa ((inj _ _ hi hk).mpr hc), rfl⟩
        rw [if_neg hxa, if_neg hxa, if_neg (fun hc => hxl (h.prev_mem hc)),
          if_neg (fun hc => hxl (h.next_mem hc))]
        exact h.off x hxl }

end SelfHeadedList

end GPhoto2.Lib
