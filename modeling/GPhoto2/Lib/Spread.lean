import Mathlib.Data.List.Count
import Mathlib.Logic.Relation

/-!
# `GPhoto2.Lib.Spread`: marks that spread along links

Some places of a list are marked. A link passes the mark of one place on to another, if that has
none, and a round follows all links once. `spread_origin` says where a mark comes from.

The number of places without a mark (`open`) is the measure: a round that changes something
lowers it.
-/

set_option autoImplicit false

namespace GPhoto2.Lib

variable {α : Type} [DecidableEq α] (unset : α)

/-- One link: the mark at its start goes to its end, if there is none. -/
def follow (marks : List α) (link : Nat × Nat) : List α :=
  if marks.getD link.1 unset ≠ unset ∧ marks[link.2]? = some unset then
    marks.set link.2 (marks.getD link.1 unset)
  else marks

/-- One round. -/
def spread (links : List (Nat × Nat)) (marks : List α) : List α := links.foldl (follow unset) marks

/-- A way along links. -/
def Way (links : List (Nat × Nat)) : Nat → Nat → Prop :=
  Relation.ReflTransGen fun i j => (i, j) ∈ links

variable {unset} {links : List (Nat × Nat)} {marks : List α}

theorem spread_append (links links' : List (Nat × Nat)) (marks : List α) :
    spread unset (links ++ links') marks = spread unset links' (spread unset links marks) :=
  List.foldl_append ..

/-- What a link does. -/
theorem follow_cases (marks : List α) (link : Nat × Nat) :
    follow unset marks link = marks ∧
      (marks.getD link.1 unset ≠ unset → marks[link.2]? ≠ some unset) ∨
    ∃ m, m ≠ unset ∧ marks[link.1]? = some m ∧ marks[link.2]? = some unset ∧
      follow unset marks link = marks.set link.2 m := by
  unfold follow
  by_cases hpass : marks.getD link.1 unset ≠ unset ∧ marks[link.2]? = some unset
  · right
    rw [if_pos hpass]
    refine ⟨_, hpass.1, ?_, hpass.2, rfl⟩
    cases hget : marks[link.1]? with
    | none =>
      rw [List.getD_eq_getElem?_getD, hget] at hpass
      exact absurd rfl hpass.1
    | some m => rw [List.getD_eq_getElem?_getD, hget, Option.getD_some]
  · rw [if_neg hpass]
    exact .inl ⟨rfl, fun hset hunset => hpass ⟨hset, hunset⟩⟩

@[simp] theorem length_follow (marks : List α) (link : Nat × Nat) :
    (follow unset marks link).length = marks.length := by
  unfold follow
  split
  · exact List.length_set
  · rfl

@[simp] theorem length_spread (links : List (Nat × Nat)) (marks : List α) :
    (spread unset links marks).length = marks.length := by
  unfold spread
  induction links generalizing marks with
  | nil => rfl
  | cons link links ih => rw [List.foldl_cons, ih, length_follow]

/-- A mark stays. -/
theorem follow_keeps {j : Nat} {m : α} (hj : marks[j]? = some m) (hm : m ≠ unset)
    (link : Nat × Nat) : (follow unset marks link)[j]? = some m := by
  rcases follow_cases marks link with ⟨hsame, -⟩ | ⟨m', -, -, hunset, hset⟩
  · rw [hsame]
    exact hj
  · rw [hset, List.getElem?_set_ne]
    · exact hj
    · rintro rfl
      rw [hj] at hunset
      exact hm (Option.some.inj hunset)

theorem spread_keeps {j : Nat} {m : α} (hj : marks[j]? = some m) (hm : m ≠ unset)
    (links : List (Nat × Nat)) : (spread unset links marks)[j]? = some m := by
  unfold spread
  induction links generalizing marks with
  | nil => exact hj
  | cons link links ih => exact ih (follow_keeps hj hm link)

/-- A mark was passed on along links. -/
theorem spread_origin {sub : List (Nat × Nat)} (hsub : ∀ link ∈ sub, link ∈ links) {j : Nat} {m : α}
    (hj : (spread unset sub marks)[j]? = some m) (hm : m ≠ unset) :
    ∃ i, marks[i]? = some m ∧ Way links i j := by
  unfold spread at hj
  induction sub generalizing marks with
  | nil => exact ⟨j, hj, .refl⟩
  | cons link sub ih =>
    obtain ⟨i, hi, hway⟩ := ih (fun l hl => hsub l (List.mem_cons_of_mem link hl)) hj
    rcases follow_cases marks link with ⟨hsame, -⟩ | ⟨m', -, hstart, hunset, hset⟩
    · rw [hsame] at hi
      exact ⟨i, hi, hway⟩
    · rw [hset] at hi
      by_cases hend : link.2 = i
      · -- It came along this link.
        subst hend
        have hlt : link.2 < marks.length := (List.getElem?_eq_some_iff.mp hunset).1
        rw [List.getElem?_set_self hlt] at hi
        obtain rfl := Option.some.inj hi
        exact ⟨link.1, hstart, .head (hsub link List.mem_cons_self) hway⟩
      · rw [List.getElem?_set_ne hend] at hi
        exact ⟨i, hi, hway⟩

/-! ### Rounds that change nothing -/

/-- A link that passes a mark on leaves one place less. -/
theorem count_follow (marks : List α) (link : Nat × Nat) :
    follow unset marks link = marks ∨
      (follow unset marks link).count unset + 1 = marks.count unset := by
  rcases follow_cases marks link with ⟨hsame, -⟩ | ⟨m, hm, -, hunset, hset⟩
  · exact .inl hsame
  · right
    obtain ⟨hlt, hget⟩ := List.getElem?_eq_some_iff.mp hunset
    have hpos : 0 < marks.count unset := List.count_pos_iff.mpr (hget ▸ List.getElem_mem hlt)
    rw [hset, List.count_set hlt, hget]
    simp only [beq_self_eq_true, if_true, beq_eq_false_iff_ne.mpr hm, Bool.false_eq_true, if_false]
    omega

theorem count_spread_le (links : List (Nat × Nat)) (marks : List α) :
    (spread unset links marks).count unset ≤ marks.count unset := by
  unfold spread
  induction links generalizing marks with
  | nil => exact Nat.le_refl _
  | cons link links ih =>
    have hrest := ih (follow unset marks link)
    rcases @count_follow α _ unset marks link with hsame | hless
    · rw [List.foldl_cons]
      rw [hsame] at hrest ⊢
      exact hrest
    · rw [List.foldl_cons]
      omega

/-- A round that leaves as many places changes nothing at any link. -/
theorem follow_eq_of_count (hcount : (spread unset links marks).count unset = marks.count unset) :
    spread unset links marks = marks ∧ ∀ link ∈ links, follow unset marks link = marks := by
  induction links generalizing marks with
  | nil => exact ⟨rfl, fun link hlink => absurd hlink List.not_mem_nil⟩
  | cons link links ih =>
    have hrest := @count_spread_le α _ unset links (follow unset marks link)
    have hround : spread unset (link :: links) marks =
        spread unset links (follow unset marks link) := rfl
    rw [hround] at hcount ⊢
    rcases @count_follow α _ unset marks link with hsame | hless
    · rw [hsame] at hcount ⊢
      obtain ⟨hspread, hlinks⟩ := ih hcount
      refine ⟨hspread, ?_⟩
      intro l hl
      rcases List.mem_cons.mp hl with rfl | hl
      · exact hsame
      · exact hlinks l hl
    · omega

/-- When no link passes anything on, all is marked that is linked to a mark. -/
theorem marked_of_way (hlinks : ∀ link ∈ links, follow unset marks link = marks)
    (hends : ∀ link ∈ links, link.2 < marks.length) {i j : Nat} {m : α}
    (hi : marks[i]? = some m) (hm : m ≠ unset) (hway : Way links i j) :
    ∃ m', marks[j]? = some m' ∧ m' ≠ unset := by
  induction hway with
  | refl => exact ⟨m, hi, hm⟩
  | tail _ hlink ih =>
    rename_i j k _
    obtain ⟨m', hj, hm'⟩ := ih
    have hlt : k < marks.length := hends _ hlink
    refine ⟨marks[k], List.getElem?_eq_getElem hlt, ?_⟩
    intro hunset
    rcases follow_cases marks (j, k) with ⟨-, hblocked⟩ | ⟨m'', hne, hstart, hopen, hset⟩
    · refine hblocked ?_ ?_
      · rw [List.getD_eq_getElem?_getD, hj]
        exact hm'
      · rw [List.getElem?_eq_getElem hlt, hunset]
    · -- A link that passes something on changes the marks.
      have hsame := hlinks _ hlink
      rw [hset] at hsame
      have hk := congrArg (·[k]?) hsame
      simp only at hk
      rw [List.getElem?_set_self hlt] at hk
      rw [← hk] at hopen
      exact hne (Option.some.inj hopen)

end GPhoto2.Lib
