import Mathlib.Data.List.Basic

/-!
# `GPhoto2.Lib.Chunk`: chunks that are stored in a block, one behind the other

A block of memory whose elements need not have been written. `storeAt` writes a chunk into it and is
stuck where the chunk leaves the block. A chunk that is written where the ones before it end extends
what is in front (`take_storeAt`).
-/

set_option autoImplicit false

/-! ## A list in blocks of one length -/

namespace GPhoto2.Lib

variable {α : Type}

/-- The first `n` blocks of `c` elements, as a list of them. -/
def blocks (c : Nat) : Nat → List α → List (List α)
  | 0, _ => []
  | n + 1, xs => xs.take c :: blocks c n (xs.drop c)

theorem flatten_blocks (c n : Nat) (xs : List α) : (blocks c n xs).flatten = xs.take (n * c) := by
  induction n generalizing xs with
  | zero => simp [blocks]
  | succ n ih =>
    rw [blocks, List.flatten_cons, ih, Nat.succ_mul, Nat.add_comm (n * c) c, List.take_add]

/-- The cells of a block of memory. -/
abbrev Cells (α : Type) := List (Option α)

/-- Write a chunk from the offset on. An empty chunk may be anywhere. -/
def storeAt (offset : Nat) (block : Cells α) (chunk : List α) : Option (Cells α) :=
  if chunk.length ≤ block.length - offset then
    some (block.take offset ++ chunk.map some ++ block.drop (offset + chunk.length))
  else
    none

variable {offset : Nat} {block block' : Cells α} {chunk : List α}

theorem storeAt_isSome_iff :
    (storeAt offset block chunk).isSome ↔ chunk.length ≤ block.length - offset := by
  rw [storeAt]
  by_cases h : chunk.length ≤ block.length - offset
  · rw [if_pos h]
    exact iff_of_true rfl h
  · rw [if_neg h]
    exact iff_of_false Bool.false_ne_true h

theorem storeAt_of_le (h : chunk.length ≤ block.length - offset) :
    ∃ block', storeAt offset block chunk = some block' := ⟨_, if_pos h⟩

theorem storeAt_of_lt (h : block.length - offset < chunk.length) :
    storeAt offset block chunk = none := if_neg (Nat.not_le.mpr h)

/-- A chunk at the beginning of the block. -/
theorem storeAt_zero (h : chunk.length ≤ block.length) :
    storeAt 0 block chunk = some (chunk.map some ++ block.drop chunk.length) := by
  rw [storeAt, if_pos (by rwa [Nat.sub_zero]), List.take_zero, List.nil_append, Nat.zero_add]

section
variable (h : storeAt offset block chunk = some block')
include h

theorem storeAt_eq_some :
    chunk.length ≤ block.length - offset ∧
      block' = block.take offset ++ chunk.map some ++ block.drop (offset + chunk.length) := by
  rw [storeAt] at h
  by_cases hle : chunk.length ≤ block.length - offset
  · rw [if_pos hle] at h
    exact ⟨hle, (Option.some.inj h).symm⟩
  · rw [if_neg hle] at h
    cases h

theorem length_storeAt :
    block'.length = block.length := by
  obtain ⟨hle, rfl⟩ := storeAt_eq_some h
  simp only [List.length_append, List.length_take, List.length_map, List.length_drop]
  omega

/-- What is in front of the chunk stays, and the chunk comes behind it. -/
theorem take_storeAt (hin : offset ≤ block.length) :
    block'.take (offset + chunk.length) = block.take offset ++ chunk.map some := by
  obtain ⟨hle, rfl⟩ := storeAt_eq_some h
  have hlength : (block.take offset ++ chunk.map some).length = offset + chunk.length := by
    rw [List.length_append, List.length_take, List.length_map]
    omega
  rw [← hlength, List.take_left]

/-- What is in front of the chunk stays. -/
theorem take_storeAt_front {n : Nat}
    (hn : n ≤ offset) (hin : offset ≤ block.length) : block'.take n = block.take n := by
  have hfront := congrArg (List.take n) (take_storeAt h hin)
  have hlength : n ≤ (block.take offset).length := by
    rw [List.length_take]
    omega
  rw [List.take_take, Nat.min_eq_left (by omega), List.take_append_of_le_length hlength,
    List.take_take, Nat.min_eq_left hn] at hfront
  exact hfront

end

/-- Write several chunks, each over the one before it. -/
def storeAll (offset : Nat) : Cells α → List (List α) → Option (Cells α)
  | block, [] => some block
  | block, chunk :: chunks =>
    (storeAt offset block chunk).bind fun block => storeAll offset block chunks

theorem storeAll_isSome_iff {chunks : List (List α)} :
    (storeAll offset block chunks).isSome ↔
      ∀ chunk ∈ chunks, chunk.length ≤ block.length - offset := by
  induction chunks generalizing block with
  | nil => simp [storeAll]
  | cons chunk chunks ih =>
    rw [storeAll, List.forall_mem_cons]
    cases hstore : storeAt offset block chunk with
    | none =>
      have hnot : ¬ chunk.length ≤ block.length - offset := by
        rw [← storeAt_isSome_iff, hstore]
        exact Bool.false_ne_true
      exact iff_of_false Bool.false_ne_true fun h => hnot h.1
    | some block' =>
      rw [Option.bind_some, ih, length_storeAt hstore]
      exact (and_iff_right (storeAt_eq_some hstore).1).symm

theorem storeAll_spec {chunks : List (List α)} (h : storeAll offset block chunks = some block') :
    block'.length = block.length ∧
      (offset ≤ block.length → block'.take offset = block.take offset) := by
  induction chunks generalizing block with
  | nil =>
    cases h
    exact ⟨rfl, fun _ => rfl⟩
  | cons chunk chunks ih =>
    obtain ⟨block₁, hstore, hrest⟩ := Option.bind_eq_some_iff.mp h
    obtain ⟨hlength, hfront⟩ := ih hrest
    have hlength₁ := length_storeAt hstore
    refine ⟨hlength.trans hlength₁, fun hin => ?_⟩
    rw [hfront (by omega), take_storeAt_front hstore (Nat.le_refl _) hin]

end GPhoto2.Lib
