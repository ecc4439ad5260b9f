import Mathlib.Data.List.Nodup

/-!
# `GPhoto2.Lib.KeyedList`: a list with at most one entry for a key

`put` replaces the first entry with the key of the new one, or adds the new one at the end.
Then the keys stay distinct (`nodup_put`), and what is found under a key is what was put there
last (`lookup_put`, `latest_concat`, `lookup_eq_latest`).
-/

set_option autoImplicit false

namespace GPhoto2.Lib.KeyedList

variable {α κ : Type} [DecidableEq κ] (key : α → κ)

/-- Replace the first entry with the same key, or add one at the end. -/
def put (a : α) : List α → List α
  | [] => [a]
  | b :: l => if key b = key a then a :: l else b :: put a l

/-- The first entry with the key. -/
def lookup (k : κ) (l : List α) : Option α := l.find? fun a => key a = k

/-- The last entry with the key. -/
def latest (k : κ) (l : List α) : Option α := l.reverse.find? fun a => key a = k

variable (a : α) (k : κ) (l : List α)

theorem lookup_put :
    lookup key k (put key a l) = if key a = k then some a else lookup key k l := by
  induction l with
  | nil =>
    by_cases hk : key a = k
    · simp [put, lookup, hk]
    · simp [put, lookup, hk]
  | cons b l ih =>
    unfold lookup at ih ⊢
    by_cases hb : key b = key a
    · by_cases hk : key a = k
      · simp [put, hb, hk]
      · simp [put, hb, hk]
    · rw [put, if_neg hb, List.find?_cons]
      by_cases hk : key b = k
      · have hne : key a ≠ k := fun h => hb (hk.trans h.symm)
        simp [hk, hne]
      · simp [hk, ih]

/-- The keys are those that were there, with the new one behind them unless it was there. -/
theorem map_put :
    (put key a l).map key = if key a ∈ l.map key then l.map key else l.map key ++ [key a] := by
  induction l with
  | nil => simp [put]
  | cons b l ih =>
    by_cases hb : key b = key a
    · simp [put, hb]
    · rw [put, if_neg hb, List.map_cons, ih, List.map_cons]
      by_cases hmem : key a ∈ l.map key
      · rw [if_pos hmem, if_pos (List.mem_cons_of_mem _ hmem)]
      · rw [if_neg hmem, if_neg (by
          rw [List.mem_cons, not_or]
          exact ⟨Ne.symm hb, hmem⟩)]
        rfl

/-- An entry with a new key comes last. -/
theorem put_of_not_mem {a : α} {l : List α} (h : key a ∉ l.map key) : put key a l = l ++ [a] := by
  induction l with
  | nil => rfl
  | cons b l ih =>
    rw [List.map_cons, List.mem_cons, not_or] at h
    rw [put, if_neg (Ne.symm h.1), ih h.2]
    rfl

theorem nodup_put {l : List α} (h : (l.map key).Nodup) :
    ((put key a l).map key).Nodup := by
  rw [map_put]
  by_cases hmem : key a ∈ l.map key
  · rwa [if_pos hmem]
  · rw [if_neg hmem]
    refine h.append (List.nodup_singleton _) fun k hk hk' => ?_
    rw [List.mem_singleton.mp hk'] at hk
    exact hmem hk

theorem mem_put {a b : α} {l : List α} (h : b ∈ put key a l) : b = a ∨ b ∈ l := by
  induction l with
  | nil => exact Or.inl (List.mem_singleton.mp h)
  | cons c l ih =>
    unfold put at h
    by_cases hc : key c = key a
    · rw [if_pos hc, List.mem_cons] at h
      exact h.imp_right (List.mem_cons_of_mem c)
    · rw [if_neg hc, List.mem_cons] at h
      rcases h with rfl | h
      · exact Or.inr List.mem_cons_self
      · exact (ih h).imp_right (List.mem_cons_of_mem c)

theorem latest_concat :
    latest key k (l ++ [a]) = if key a = k then some a else latest key k l := by
  unfold latest
  rw [List.reverse_append, List.reverse_singleton, List.singleton_append, List.find?_cons]
  by_cases hk : key a = k
  · simp [hk]
  · simp [hk]

/-- With distinct keys the first entry is the last one. -/
theorem lookup_eq_latest {l : List α} (h : (l.map key).Nodup) (k : κ) :
    lookup key k l = latest key k l := by
  induction l with
  | nil => rfl
  | cons a l ih =>
    rw [List.map_cons, List.nodup_cons] at h
    have hrest := ih h.2
    unfold lookup latest at hrest ⊢
    rw [List.find?_cons, List.reverse_cons, List.find?_append, ← hrest]
    by_cases hk : key a = k
    · -- nobody else has this key
      have hnone : l.find? (fun b => key b = k) = none := by
        rw [List.find?_eq_none]
        intro b hb hbk
        refine h.1 ?_
        rw [hk, ← of_decide_eq_true hbk]
        exact List.mem_map_of_mem hb
      simp [hk, hnone]
    · cases l.find? (fun b => key b = k) with
      | none => simp [hk]
      | some b => simp [hk]

end GPhoto2.Lib.KeyedList
