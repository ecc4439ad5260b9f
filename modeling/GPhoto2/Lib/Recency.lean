import Mathlib.Data.List.Infix
import Mathlib.Data.List.Nodup

/-!
# `GPhoto2.Lib.Recency`: a bounded list in the order of last use

A cache keeps its elements in the order of their last use, the oldest one first. To use an
element is to `touch` it: it moves to the end. To stay within a budget elements are dropped from
the front, as long as more than `k` of them weigh something (`Trims`).

`recency l xs` is the order of last use after `xs` have been used. What such a cache holds is
always a suffix of it (`touch_suffix`), and elements may vanish from both (`touch_filter`).
-/

set_option autoImplicit false

namespace GPhoto2.Lib

variable {α : Type}

/-- `kept` is left of `l` when elements are dropped from the front as long as more than `k` of
them weigh. -/
structure Trims (weighs : α → Bool) (k : Nat) (l evicted kept : List α) : Prop where
  split : l = evicted ++ kept
  fits : kept.countP weighs ≤ k
  shortest : ∀ es e, evicted = es ++ [e] → k < (e :: kept).countP weighs

section
variable {weighs : α → Bool} {k : Nat} {l evicted kept : List α}

/-- A list within the budget stays as it is. -/
theorem Trims.done (h : l.countP weighs ≤ k) : Trims weighs k l [] l where
  split := rfl
  fits := h
  shortest es e he := by simp at he

/-- A list over the budget loses its first element. -/
theorem Trims.drop {a : α} (ha : k < (a :: l).countP weighs)
    (h : Trims weighs k l evicted kept) : Trims weighs k (a :: l) (a :: evicted) kept where
  split := by rw [h.split, List.cons_append]
  fits := h.fits
  shortest := by
    intro es e he
    cases es with
    | nil =>
      obtain ⟨rfl, rfl⟩ := List.cons.inj he
      rwa [h.split] at ha
    | cons b es => exact h.shortest es e (List.cons.inj he).2

/-- What is kept is the end of the list. -/
theorem Trims.suffix (h : Trims weighs k l evicted kept) : kept <:+ l :=
  ⟨evicted, h.split.symm⟩

theorem Trims.congr {weighs' : α → Bool} (h : Trims weighs k l evicted kept)
    (hsame : ∀ a ∈ l, weighs' a = weighs a) : Trims weighs' k l evicted kept where
  split := h.split
  fits := by
    rw [List.countP_congr fun a ha => by rw [hsame a (h.suffix.subset ha)]]
    exact h.fits
  shortest := by
    intro es e he
    have hmem : ∀ a ∈ e :: kept, a ∈ l := by
      intro a ha
      rw [h.split, he, List.append_assoc]
      exact List.mem_append_right es ha
    rw [List.countP_congr fun a ha => by rw [hsame a (hmem a ha)]]
    exact h.shortest es e he

end

/-! ### The order of last use -/

variable [DecidableEq α]

/-- Use an element: it moves to the end. -/
def touch (x : α) (l : List α) : List α := l.erase x ++ [x]

/-- The order of last use after `xs` have been used. -/
def recency (l xs : List α) : List α := xs.foldl (fun l x => touch x l) l

theorem recency_concat (l xs : List α) (x : α) :
    recency l (xs ++ [x]) = touch x (recency l xs) := by
  simp [recency]

theorem mem_touch {x a : α} {l : List α} (h : a ∈ touch x l) : a ∈ l ∨ a = x := by
  rcases List.mem_append.mp h with h | h
  · exact Or.inl (List.mem_of_mem_erase h)
  · exact Or.inr (List.mem_singleton.mp h)

theorem nodup_touch {l : List α} (h : l.Nodup) (x : α) : (touch x l).Nodup := by
  refine List.nodup_append.mpr ⟨h.erase x, List.nodup_singleton x, fun a ha b hb => ?_⟩
  rw [List.mem_singleton.mp hb]
  exact (h.mem_erase_iff.mp ha).1

/-- Using an element adds one element at most that weighs, if the others do not gain. -/
theorem countP_touch_le {weighs weighs' : α → Bool} {x : α} {l : List α} (hnodup : l.Nodup)
    (h : ∀ a ∈ l, a ≠ x → weighs' a = true → weighs a = true) :
    (touch x l).countP weighs' ≤ l.countP weighs + 1 := by
  have hone : [x].countP weighs' ≤ 1 := List.countP_le_length
  have hmono : (l.erase x).countP weighs' ≤ (l.erase x).countP weighs :=
    List.countP_mono_left fun a ha =>
      h a (List.mem_of_mem_erase ha) (hnodup.mem_erase_iff.mp ha).1
  have herase := List.Sublist.countP_le (p := weighs) (List.erase_sublist (a := x) (l := l))
  rw [touch, List.countP_append]
  omega

/-- The last ones in the order of use stay the last ones. -/
theorem touch_suffix {l order : List α} (h : l <:+ order) (hnodup : order.Nodup) (x : α) :
    touch x l <:+ touch x order := by
  obtain ⟨pre, rfl⟩ := h
  unfold touch
  rw [List.erase_append]
  by_cases hx : x ∈ pre
  · have hl : x ∉ l := fun hm => (List.nodup_append.mp hnodup).2.2 x hx x hm rfl
    rw [if_pos hx, List.erase_of_not_mem hl]
    exact ⟨pre.erase x, (List.append_assoc _ _ _).symm⟩
  · rw [if_neg hx]
    exact ⟨pre, (List.append_assoc _ _ _).symm⟩

/-- Elements that vanish later on may as well vanish before. -/
theorem touch_filter {l : List α} (hnodup : l.Nodup) {p q : α → Bool}
    (hpq : ∀ a ∈ l, q a = true → p a = true) (x : α) :
    (touch x (l.filter p)).filter q = (touch x l).filter q := by
  unfold touch
  rw [List.filter_append, List.filter_append, (hnodup.filter p).erase_eq_filter,
    hnodup.erase_eq_filter, List.filter_filter, List.filter_filter, List.filter_filter]
  congr 1
  refine List.filter_congr fun a ha => ?_
  by_cases hq : q a = true
  · simp [hq, hpq a ha hq]
  · simp [hq]

end GPhoto2.Lib
