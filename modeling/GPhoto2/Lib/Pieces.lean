import Mathlib.Data.List.Basic

/-!
# `GPhoto2.Lib.Pieces`: reading from a stream that comes in pieces

A stream is what its reads bring, one piece after the other, until it ends or fails. A read gets
at most as much as it asks for, and the rest of a piece is left for the next one. `readFull`
reads until it has a given number of elements. What it gets depends on what arrives only, not on
how it is cut into pieces (`readFull_of_le`, `readFull_of_lt`).
-/

set_option autoImplicit false

namespace GPhoto2.Lib

/-- What a read brings. An empty piece is the end of the stream. -/
inductive Piece (α : Type)
  | data (xs : List α)
  | failed
  deriving DecidableEq

variable {α : Type}

/-- All that arrives before the stream ends or fails. -/
def arriving : List (Piece α) → List α
  | [] => []
  | .failed :: _ => []
  | .data [] :: _ => []
  | .data (x :: xs) :: rest => x :: xs ++ arriving rest

/-- Read until there are `n` elements, if the stream does not end or fail before. -/
def readFull : Nat → List (Piece α) → Option (List α) × List (Piece α)
  | 0, stream => (some [], stream)
  | _ + 1, [] => (none, [])
  | _ + 1, .failed :: rest => (none, rest)
  | _ + 1, .data [] :: rest => (none, rest)
  | n + 1, .data (x :: xs) :: rest =>
    if n < xs.length then (some ((x :: xs).take (n + 1)), .data ((x :: xs).drop (n + 1)) :: rest)
    else
      let (more, rest) := readFull (n - xs.length) rest
      (more.map (x :: xs ++ ·), rest)

@[simp] theorem arriving_nil : arriving ([] : List (Piece α)) = [] := rfl

@[simp] theorem arriving_data (xs : List α) (rest : List (Piece α)) (h : xs ≠ []) :
    arriving (.data xs :: rest) = xs ++ arriving rest := by
  cases xs with
  | nil => exact absurd rfl h
  | cons x xs => rfl

/-- Where enough arrives, it is read, and the rest is left. -/
theorem readFull_of_le {n : Nat} {stream : List (Piece α)} (h : n ≤ (arriving stream).length) :
    (readFull n stream).1 = some ((arriving stream).take n) ∧
      arriving (readFull n stream).2 = (arriving stream).drop n := by
  induction stream generalizing n with
  | nil =>
    cases Nat.le_zero.mp h
    exact ⟨rfl, rfl⟩
  | cons piece rest ih =>
    cases n with
    | zero => exact ⟨rfl, rfl⟩
    | succ n =>
      match piece with
      | .failed => exact absurd h (Nat.not_succ_le_zero n)
      | .data [] => exact absurd h (Nat.not_succ_le_zero n)
      | .data (x :: xs) =>
        rw [arriving, List.length_append, List.length_cons] at h
        by_cases hlt : n < xs.length
        · rw [readFull, if_pos hlt, arriving]
          have hne : (x :: xs).drop (n + 1) ≠ [] := by
            rw [List.drop_succ_cons, ← List.length_pos_iff, List.length_drop]
            omega
          constructor
          · rw [List.take_append_of_le_length (by rw [List.length_cons]; omega)]
          · rw [arriving_data _ _ hne, List.drop_append_of_le_length
              (by rw [List.length_cons]; omega)]
        · obtain ⟨hmore, hrest⟩ := @ih (n - xs.length) (by omega)
          have hle : (x :: xs).length ≤ n + 1 := by
            rw [List.length_cons]
            omega
          have hlength : n + 1 - (x :: xs).length = n - xs.length := by
            rw [List.length_cons]
            omega
          rw [readFull, if_neg hlt, arriving]
          simp only [hmore, hrest, Option.map_some]
          constructor
          · rw [List.take_append, List.take_of_length_le hle, hlength]
          · rw [List.drop_append, List.drop_eq_nil_of_le hle, hlength, List.nil_append]

/-- Where too little arrives, nothing is read. -/
theorem readFull_of_lt {n : Nat} {stream : List (Piece α)} (h : (arriving stream).length < n) :
    (readFull n stream).1 = none := by
  induction stream generalizing n with
  | nil =>
    cases n with
    | zero => exact absurd h (Nat.not_lt_zero _)
    | succ n => rfl
  | cons piece rest ih =>
    cases n with
    | zero => exact absurd h (Nat.not_lt_zero _)
    | succ n =>
      match piece with
      | .failed => rfl
      | .data [] => rfl
      | .data (x :: xs) =>
        rw [arriving, List.length_append, List.length_cons] at h
        rw [readFull, if_neg (by omega)]
        simp only [@ih (n - xs.length) (by omega), Option.map_none]

theorem readFull_eq_some {n : Nat} {stream rest : List (Piece α)} {xs : List α}
    (h : readFull n stream = (some xs, rest)) :
    xs.length = n ∧ arriving stream = xs ++ arriving rest := by
  have hle : n ≤ (arriving stream).length := by
    by_contra hlt
    have hnone := readFull_of_lt (Nat.not_le.mp hlt)
    rw [h] at hnone
    cases hnone
  obtain ⟨hxs, hrest⟩ := readFull_of_le hle
  rw [h] at hxs hrest
  cases hxs
  exact ⟨List.length_take_of_le hle, by rw [hrest, List.take_append_drop]⟩

end GPhoto2.Lib
