import GPhoto2.Camera.CameraList
import GPhoto2.Lib.Outcome
import Mathlib.Data.List.Perm.Basic

/-!
# `GPhoto2.Proofs.Camera.CameraList`: what a list of names and values has after any calls

A call does what it is for, or it fails for one of two reasons and changes nothing
(`listCall_ends`). So after any calls a list has what those that succeeded make of an empty one, and
a name is found where it stands last (`runListCalls_replay`).
-/

set_option autoImplicit false

namespace GPhoto2

open Lib
open Lib.Comp (Ends)
open Lib.Comp.Ends (get_bind modify_bind)

/-- Names, some of them with a value. -/
abbrev Listing := List (CString × Option CString)

/-- The entry with a name and a value. -/
def listEntry (x : CString × Option CString) : ListEntry := ⟨some x.1, x.2⟩

/-- The list has these names and values, and memory for them. -/
structure Lists (xs : Listing) (list : CameraList) : Prop where
  entry : list.entry = xs.map listEntry
  room : xs.length ≤ list.max

/-- The call has an index that is none of the list. -/
def ListCall.Beyond (xs : Listing) : ListCall → Prop
  | setName index _ => index < 0 ∨ xs.length ≤ index
  | setValue index _ => index < 0 ∨ xs.length ≤ index
  | _ => False

/-- What a call makes of the names and values. -/
def ListCall.Makes : ListCall → Listing → Listing → Prop
  | append name value, xs, ys => ys = xs ++ [(name, value)]
  | reset, _, ys => ys = []
  | sort, xs, ys => ys.Perm xs ∧ ys.Pairwise fun x y => strcmp x.1 y.1 ≤ 0
  | setName index name, xs, ys => ys = xs.modify index.toNat fun x => (name, x.2)
  | setValue index value, xs, ys => ys = xs.modify index.toNat fun x => (x.1, some value)

/-- What the calls that return `GP_OK` make of the names and values. The others change nothing. -/
inductive Replay : List ListCall → List (Except Int Unit) → Listing → Listing → Prop
  | nil (xs : Listing) : Replay [] [] xs xs
  | ok {call calls rs xs ys zs} (hin : ¬ call.Beyond xs) (hmakes : call.Makes xs ys)
      (hrest : Replay calls rs ys zs) : Replay (call :: calls) (.ok () :: rs) xs zs
  | error {call calls rs xs zs} {e : Int}
      (hwhy : e = gpErrorBadParameters ∧ call.Beyond xs ∨ e = gpErrorNoMemory)
      (hrest : Replay calls rs xs zs) : Replay (call :: calls) (.error e :: rs) xs zs

/-- Position `i` is the last one with the name. -/
def LastNamed (xs : Listing) (name : CString) (i : Nat) : Prop :=
  (∃ value, xs[i]? = some (name, value)) ∧ ∀ j > i, ∀ x, xs[j]? = some x → x.1 ≠ name

theorem strcmp_le_zero (s t : CString) : strcmp s t ≤ 0 ↔ ¬ t < s := by
  unfold strcmp
  by_cases hlt : s < t
  · rw [if_pos hlt]
    exact iff_of_true (by decide) (List.not_lt.mpr (List.le_of_lt hlt))
  · rw [if_neg hlt]
    by_cases hgt : t < s
    · rw [if_pos hgt]
      exact iff_of_false (by decide) (not_not_intro hgt)
    · rw [if_neg hgt]
      exact iff_of_true (by decide) hgt

theorem cmpList_orders (l : List ListEntry) : Orders cmpList l where
  flip a _ b _ := by
    have hle := (strcmp_le_zero (a.name.getD []) (b.name.getD [])).not
    rw [Int.not_le, not_not] at hle
    rw [cmpList, hle, cmpList, strcmp]
    by_cases hlt : b.name.getD [] < a.name.getD []
    · simp [hlt]
    · rw [if_neg hlt]
      split <;> simp [hlt]
  trans a _ b _ c _ hab hbc := by
    unfold cmpList at *
    rw [strcmp_le_zero] at *
    exact List.not_lt.mpr (List.le_trans (List.not_lt.mp hab) (List.not_lt.mp hbc))

section

variable {xs : Listing} {list : CameraList}

theorem Lists.length (h : Lists xs list) : list.entry.length = xs.length := by
  rw [h.entry, List.length_map]

theorem alloc_ends {P : CameraList → Prop} (h : ∀ allocs, P { list with allocs := allocs }) :
    Ends (fun _ l => P l) (fun e l => e = gpErrorNoMemory ∧ P l) (alloc list) :=
  get_bind (modify_bind (Ends.ite (fun _ => Ends.pure (h _)) fun _ => Ends.throw ⟨rfl, h _⟩))

section
variable (h : Lists xs list)
include h

theorem growList_ends :
    Ends (fun _ l => Lists xs l ∧ xs.length < l.max) (fun e l => e = gpErrorNoMemory ∧ Lists xs l)
      (growList list) := by
  have hroom := h.room
  refine get_bind (Ends.ite (fun _ => ?_) fun hfull => ?_)
  · refine Ends.bind (alloc_ends fun _ => ⟨h.entry, h.room⟩) fun _ l hl => ?_
    have hroom := hl.room
    exact Ends.modify ⟨⟨hl.entry, by show _ ≤ l.max + 100; omega⟩, by show _ < l.max + 100; omega⟩
  · rw [h.length] at hfull
    exact Ends.pure ⟨h, by omega⟩

theorem append_ends (name : CString) (value : Option CString) :
    Ends (fun _ l => Lists (xs ++ [(name, value)]) l) (fun e l => e = gpErrorNoMemory ∧ Lists xs l)
      (gpListAppend (some name) value list) := by
  have hdup : ∀ s (l : CameraList), Lists xs l ∧ xs.length < l.max →
      Ends (fun _ l => Lists xs l ∧ xs.length < l.max)
        (fun e l => e = gpErrorNoMemory ∧ Lists xs l) (dupString s l) := fun s l hl =>
    Ends.ite (fun _ => (alloc_ends fun _ => ⟨⟨hl.1.entry, hl.1.room⟩, hl.2⟩).mono
      (fun _ _ hok => hok) fun _ _ he => ⟨he.1, he.2.1⟩) fun _ => Ends.pure hl
  refine Ends.bind (growList_ends h) fun _ l hl => ?_
  refine Ends.bind (hdup _ l hl) fun _ l hl => Ends.bind (hdup _ l hl) fun _ l hl => ?_
  refine get_bind (Ends.ite (fun _ => Ends.modify ⟨?_, ?_⟩) fun hfull => ?_)
  · rw [List.map_append, ← hl.1.entry]
    rfl
  · rw [List.length_append]
    exact hl.2
  · rw [hl.1.length] at hfull
    exact absurd hl.2 hfull

theorem setEntry_ends (index : Int) {change : ListEntry → ListEntry}
    {f : CString × Option CString → CString × Option CString}
    (hchange : ∀ x, change (listEntry x) = listEntry (f x)) :
    Ends (fun _ l => ¬ (index < 0 ∨ xs.length ≤ index) ∧
        ∃ ys, ys = xs.modify index.toNat f ∧ Lists ys l)
      (fun e l => (e = gpErrorBadParameters ∧ (index < 0 ∨ xs.length ≤ index) ∨
        e = gpErrorNoMemory) ∧ Lists xs l) (setEntry index change list) := by
  refine get_bind (Ends.ite (fun hout => Ends.throw ?_) fun hin => ?_)
  · rw [h.length] at hout
    exact ⟨Or.inl ⟨rfl, hout⟩, h⟩
  · rw [h.length] at hin
    refine Ends.bind ((alloc_ends fun _ => ⟨h.entry, h.room⟩).mono (fun _ _ hok => hok)
      fun _ _ he => ⟨Or.inr he.1, he.2⟩) fun _ l (hl : Lists xs l) => ?_
    refine Ends.modify ⟨hin, _, rfl, ?_, by rw [List.length_modify]; exact hl.room⟩
    apply List.ext_getElem?
    intro j
    rw [hl.entry, List.getElem?_modify, List.getElem?_map, List.getElem?_map, List.getElem?_modify]
    cases xs[j]? with
    | none => rfl
    | some x =>
      by_cases hj : index.toNat = j
      · simp [hj, hchange]
      · simp [hj]

theorem sort_ends (qsort : Qsort cmpList) :
    Ends (fun _ l => ∃ ys, ListCall.sort.Makes xs ys ∧ Lists ys l) (fun _ _ => False)
      (gpListSort qsort list) := by
  obtain ⟨ys, hsort, hperm⟩ := (congrFun₂ (List.eq_map_comp_perm listEntry)
    (qsort.sort (xs.map listEntry)) xs).mpr (qsort.perm _)
  refine get_bind (Ends.ite (fun _ => Ends.modify ⟨ys, ⟨hperm, ?_⟩, ?_, ?_⟩) fun hnull => ?_)
  · have hsorted := qsort.sorted _ (cmpList_orders (xs.map listEntry))
    rw [hsort, List.pairwise_map] at hsorted
    exact hsorted
  · rw [h.entry, hsort]
  · rw [hperm.length_eq]
    exact h.room
  · exact absurd (by rw [h.entry]; simp [listEntry]) hnull

theorem listCall_ends (qsort : Qsort cmpList) (call : ListCall) :
    Ends (fun _ l => ¬ call.Beyond xs ∧ ∃ ys, call.Makes xs ys ∧ Lists ys l)
      (fun e l => (e = gpErrorBadParameters ∧ call.Beyond xs ∨ e = gpErrorNoMemory) ∧ Lists xs l)
      (call.body qsort list) := by
  cases call with
  | append name value =>
    exact (append_ends h name value).mono (fun _ _ hok => ⟨id, _, rfl, hok⟩)
      fun _ _ he => ⟨Or.inr he.1, he.2⟩
  | reset => exact ⟨id, [], rfl, rfl, Nat.zero_le _⟩
  | sort => exact (sort_ends h qsort).mono (fun _ _ hok => ⟨id, hok⟩) fun _ _ he => he.elim
  | setName index name => exact setEntry_ends h index fun _ => rfl
  | setValue index value => exact setEntry_ends h index fun _ => rfl

theorem find_ends (name : CString) :
    Ends (fun i l => l = list ∧ LastNamed xs name i)
      (fun e l => l = list ∧ e = gpError ∧ ∀ x ∈ xs, x.1 ≠ name)
      (gpListFindByName name list) := by
  have hloop : ∀ n ≤ xs.length, (∀ j ≥ n, ∀ x, xs[j]? = some x → x.1 ≠ name) →
      Ends (fun i l => l = list ∧ LastNamed xs name i)
        (fun e l => l = list ∧ e = gpError ∧ ∀ x ∈ xs, x.1 ≠ name)
        (findByNameLoop name list.entry n list) := by
    intro n hn hbehind
    induction n with
    | zero =>
      refine Ends.throw ⟨rfl, rfl, fun x hx => ?_⟩
      obtain ⟨j, hj⟩ := List.mem_iff_getElem?.mp hx
      exact hbehind j (Nat.zero_le _) x hj
    | succ n ih =>
      obtain ⟨x, hx⟩ : ∃ x, xs[n]? = some x := ⟨_, List.getElem?_eq_getElem hn⟩
      have hname : list.entry[n]?.bind ListEntry.name = some x.1 := by
        rw [h.entry, List.getElem?_map, hx]
        rfl
      rw [findByNameLoop, hname]
      refine Ends.ite (fun hit => Ends.pure ⟨rfl, ⟨x.2, by rw [hx, ← hit]⟩, hbehind⟩)
        fun hmiss => ?_
      refine ih (by omega) fun j hj y hy => ?_
      rcases Nat.eq_or_lt_of_le hj with rfl | hlt
      · rw [hx] at hy
        cases hy
        exact hmiss
      · exact hbehind j hlt y hy
  refine get_bind ?_
  rw [h.length]
  refine hloop _ (Nat.le_refl _) fun j hj x hx => ?_
  rw [List.getElem?_eq_none hj] at hx
  cases hx

end

theorem runListCalls_ends (h : Lists xs list) (qsort : Qsort cmpList) (calls : List ListCall) :
    ∃ rs list', runListCalls qsort calls list = some (.ok rs, list') ∧
      ∃ ys, Replay calls rs xs ys ∧ Lists ys list' := by
  induction calls generalizing xs list with
  | nil => exact ⟨[], list, rfl, xs, .nil xs, h⟩
  | cons call calls ih =>
    have hcall := listCall_ends h qsort call
    have hattempt : ∀ {r l}, call.body qsort list = some (r, l) →
        Comp.attempt (call.body qsort) list = some (.ok r, l) :=
      fun hrun => Comp.attempt_eq_some.mpr ⟨_, hrun, rfl⟩
    cases hrun : call.body qsort list with
    | none => exact (hcall.ne_none hrun).elim
    | some p =>
      obtain ⟨r, l⟩ := p
      cases r with
      | error e =>
        obtain ⟨hwhy, hl⟩ := hcall.of_error hrun
        obtain ⟨rs, list', hrest, ys, hreplay, hys⟩ := ih hl
        refine ⟨.error e :: rs, list', ?_, ys, .error hwhy hreplay, hys⟩
        rw [runListCalls, Comp.bind_run_ok (hattempt hrun), Comp.bind_run_ok hrest]
        rfl
      | ok _ =>
        obtain ⟨hin, ys, hmakes, hl⟩ := hcall.of_ok hrun
        obtain ⟨rs, list', hrest, zs, hreplay, hzs⟩ := ih hl
        refine ⟨.ok () :: rs, list', ?_, zs, .ok hin hmakes hreplay, hzs⟩
        rw [runListCalls, Comp.bind_run_ok (hattempt hrun), Comp.bind_run_ok hrest]
        rfl

end

/-- After any calls on a new list, whichever allocations fail, the list has what the calls that
succeeded make of an empty one: the others changed nothing. There is memory for its entries, and
`gp_list_find_by_name` finds the last entry with a name, if there is one. -/
theorem runListCalls_replay (qsort : Qsort cmpList) (calls : List ListCall) (allocs : List Bool) :
    ∃ rs list, runListCalls qsort calls (gpListNew allocs) = some (.ok rs, list) ∧
      ∃ xs, Replay calls rs [] xs ∧ list.entry = xs.map listEntry ∧ xs.length ≤ list.max ∧
        ∀ name, Ends (fun i l => l = list ∧ LastNamed xs name i)
          (fun e l => l = list ∧ e = gpError ∧ ∀ x ∈ xs, x.1 ≠ name)
          (gpListFindByName name list) := by
  obtain ⟨rs, list, hrun, xs, hreplay, hlists⟩ :=
    @runListCalls_ends [] (gpListNew allocs) ⟨rfl, Nat.le_refl 0⟩ qsort calls
  exact ⟨rs, list, hrun, xs, hreplay, hlists.entry, hlists.room, find_ends hlists⟩

end GPhoto2
