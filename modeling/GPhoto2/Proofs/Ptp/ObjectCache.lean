import GPhoto2.Ptp.ObjectCache
import Mathlib.Data.List.Induction
import Mathlib.Data.List.InsertIdx
import Mathlib.Data.List.Nodup

/-!
# `GPhoto2.Proofs.Ptp.ObjectCache`: what the cache finds

`ptp_object_find_or_insert` compares handles as unsigned numbers and keeps the array ascending
by its own search (`ptpObjectFindOrInsert_found`, `ptpObjectFindOrInsert_new`).
`ptp_object_find` compares by the sign of a 32-bit difference, which is the unsigned order
only for handles less than `2^31` apart (`cmpOb_pos_iff`, `cmpOb_neg_iff`).

`runCache_find_iff`: a run finds exactly the handles inserted and not removed since, if and
only if no search for one of them ever compares it with a handle too far away.
-/

set_option autoImplicit false

namespace GPhoto2

open Lib
open UInt32 (lt_iff_toNat_lt toNat_inj)

/-! ### The comparison -/

variable (oa : PTPObject) (calls : List CacheCall) (call : CacheCall)

theorem cmpOb_eq (ob : PTPObject) :
    cmpOb oa ob = if ob.oid.toNat ≤ oa.oid.toNat then
        if oa.oid.toNat - ob.oid.toNat < 2 ^ 31 then ((oa.oid.toNat - ob.oid.toNat : Nat) : Int)
        else ((oa.oid.toNat - ob.oid.toNat : Nat) : Int) - 2 ^ 32
      else
        if ob.oid.toNat - oa.oid.toNat ≤ 2 ^ 31 then -((ob.oid.toNat - oa.oid.toNat : Nat) : Int)
        else 2 ^ 32 - ((ob.oid.toNat - oa.oid.toNat : Nat) : Int) :=
  sub_toInt oa.oid ob.oid

variable {ob : PTPObject}

theorem cmpOb_eq_zero {oa : PTPObject} : cmpOb oa ob = 0 ↔ oa.oid = ob.oid := by
  have ha := oa.oid.toNat_lt
  have hb := ob.oid.toNat_lt
  rw [cmpOb_eq, ← toNat_inj]
  split_ifs <;> omega

theorem cmpOb_pos_iff (h : ob.oid < oa.oid) :
    0 < cmpOb oa ob ↔ oa.oid.toNat - ob.oid.toNat < 2 ^ 31 := by
  have ha := oa.oid.toNat_lt
  rw [lt_iff_toNat_lt] at h
  rw [cmpOb_eq]
  split_ifs <;> omega

theorem cmpOb_neg_iff (h : oa.oid < ob.oid) :
    cmpOb oa ob < 0 ↔ ob.oid.toNat - oa.oid.toNat ≤ 2 ^ 31 := by
  have hb := ob.oid.toNat_lt
  rw [lt_iff_toNat_lt] at h
  rw [cmpOb_eq]
  split_ifs <;> omega

/-! ### The order of the array -/

/-- The handles of an array. -/
def oids (objects : List PTPObject) : List UInt32 := objects.map (·.oid)

/-- The array is strictly ascending by handle, compared as an unsigned number. -/
def Ascending (objects : List PTPObject) : Prop := (oids objects).Pairwise (· < ·)

@[simp] theorem oids_nil : oids [] = [] := rfl

@[simp] theorem oids_cons (ob : PTPObject) (objects : List PTPObject) :
    oids (ob :: objects) = ob.oid :: oids objects := rfl

@[simp] theorem oids_append (objects objects' : List PTPObject) :
    oids (objects ++ objects') = oids objects ++ oids objects' := List.map_append

@[simp] theorem length_oids (objects : List PTPObject) :
    (oids objects).length = objects.length := List.length_map _

theorem oids_getElem? (objects : List PTPObject) (i : Nat) :
    (oids objects)[i]? = (objects[i]?).map (·.oid) := List.getElem?_map ..

variable {objects : List PTPObject}

theorem oidAt_of_getElem? {i : Nat}
    (h : objects[i]? = some ob) : oidAt objects i = ob.oid := by
  rw [oidAt, h]
  rfl

theorem oids_getElem?_eq_some {i : Nat} (h : i < objects.length) :
    (oids objects)[i]? = some (oidAt objects i) := by
  rw [oids_getElem?, oidAt, List.getElem?_eq_getElem h]
  rfl

theorem Ascending.nodup (h : Ascending objects) :
    (oids objects).Nodup := h.imp fun hlt => UInt32.ne_of_lt hlt

theorem index_of_mem_oids {handle : UInt32}
    (hmem : handle ∈ oids objects) : ∃ i, i < objects.length ∧ oidAt objects i = handle := by
  obtain ⟨i, hi⟩ := List.getElem?_of_mem hmem
  have hlt : i < objects.length := by
    rw [← length_oids]
    exact (List.getElem?_eq_some_iff.mp hi).1
  rw [oids_getElem?_eq_some hlt, Option.some.injEq] at hi
  exact ⟨i, hlt, hi⟩

theorem Ascending.insert {pre post : List PTPObject} {handle : UInt32}
    (h : Ascending (pre ++ post)) (hpre : ∀ o ∈ oids pre, o < handle)
    (hpost : ∀ o ∈ oids post, handle < o) : Ascending (pre ++ .new handle :: post) := by
  unfold Ascending at h ⊢
  rw [oids_append, List.pairwise_append] at h
  rw [oids_append, oids_cons, List.pairwise_append, List.pairwise_cons]
  refine ⟨h.1, ⟨hpost, h.2.1⟩, ?_⟩
  intro o ho o' ho'
  rcases List.mem_cons.mp ho' with rfl | ho'
  · exact hpre o ho
  · exact h.2.2 o ho o' ho'

theorem Ascending.oidAt_lt (h : Ascending objects) {i j : Nat}
    (hij : i < j) (hj : j < objects.length) :
    (oidAt objects i).toNat < (oidAt objects j).toNat := by
  have hi := oids_getElem?_eq_some (Nat.lt_trans hij hj)
  have hj' := oids_getElem?_eq_some hj
  rw [List.getElem?_eq_some_iff] at hi hj'
  obtain ⟨hi, hie⟩ := hi
  obtain ⟨hj', hje⟩ := hj'
  rw [← hie, ← hje]
  exact lt_iff_toNat_lt.mp (List.pairwise_iff_getElem.mp h i j hi hj' hij)

theorem Ascending.index_unique (h : Ascending objects) {i j : Nat}
    (hi : i < objects.length) (hj : j < objects.length)
    (hij : oidAt objects i = oidAt objects j) : i = j := by
  rcases Nat.lt_trichotomy i j with hlt | heq | hgt
  · have := h.oidAt_lt hlt hj
    rw [hij] at this
    omega
  · exact heq
  · have := h.oidAt_lt hgt hi
    rw [hij] at this
    omega

/-! ### `ptp_object_find_or_insert` -/

section
variable {objects : List PTPObject} {handle : UInt32}

/-- What the loop of `ptp_object_find_or_insert` knows of its two indices. -/
structure InsertRange (objects : List PTPObject) (handle : UInt32) (first last : Nat) :
    Prop where
  le : first ≤ last
  lt : last < objects.length
  below : 0 < first → (oidAt objects first).toNat < handle.toNat
  above : last < objects.length - 1 → handle.toNat < (oidAt objects last).toNat

theorem findOrInsertLoop_cases {fuel first last : Nat}
    (hrange : InsertRange objects handle first last) (hfuel : last - first < fuel) :
    (∃ cursor, findOrInsertLoop objects handle fuel first last = .inl cursor ∧
      cursor < objects.length ∧ oidAt objects cursor = handle) ∨
    ∃ first' last', findOrInsertLoop objects handle fuel first last = .inr (first', last') ∧
      InsertRange objects handle first' last' ∧ last' - first' ≤ 1 := by
  induction fuel generalizing first last with
  | zero => omega
  | succ fuel ih =>
    obtain ⟨hle, hlt, hbelow, habove⟩ := hrange
    unfold findOrInsertLoop
    by_cases hfound : oidAt objects ((last - first) / 2 + first) = handle
    · exact Or.inl ⟨_, if_pos hfound, by omega, hfound⟩
    have hne : (oidAt objects ((last - first) / 2 + first)).toNat ≠ handle.toNat :=
      fun he => hfound (toNat_inj.mp he)
    simp only [hfound, if_false, lt_iff_toNat_lt]
    by_cases hless : (oidAt objects ((last - first) / 2 + first)).toNat < handle.toNat
    · have hrange' : InsertRange objects handle ((last - first) / 2 + first) last :=
        ⟨by omega, hlt, fun _ => hless, habove⟩
      simp only [hless, if_true]
      split
      · exact Or.inr ⟨_, _, rfl, hrange', by assumption⟩
      · exact ih hrange' (by omega)
    · have hrange' : InsertRange objects handle first ((last - first) / 2 + first) :=
        ⟨by omega, by omega, hbelow, fun _ => by omega⟩
      simp only [hless, if_false]
      split
      · exact Or.inr ⟨_, _, rfl, hrange', by assumption⟩
      · exact ih hrange' (by omega)

/-- The index to insert at is behind the smaller handles and before the greater ones. -/
theorem InsertRange.insertAt {first last : Nat} (hasc : Ascending objects)
    (hrange : InsertRange objects handle first last) (hclose : last - first ≤ 1)
    (hfirst : oidAt objects first ≠ handle) (hlast : oidAt objects last ≠ handle) :
    insertAt objects handle first last ≤ objects.length ∧
    (∀ i, i < insertAt objects handle first last →
      (oidAt objects i).toNat < handle.toNat) ∧
    ∀ i, insertAt objects handle first last ≤ i → i < objects.length →
      handle.toNat < (oidAt objects i).toNat := by
  obtain ⟨hle, hlt, hbelow, habove⟩ := hrange
  have hfirst' : (oidAt objects first).toNat ≠ handle.toNat :=
    fun he => hfirst (toNat_inj.mp he)
  have hlast' : (oidAt objects last).toNat ≠ handle.toNat :=
    fun he => hlast (toNat_inj.mp he)
  have hmono : ∀ i j, i ≤ j → j < objects.length →
      (oidAt objects i).toNat ≤ (oidAt objects j).toNat := by
    intro i j hij hj
    rcases Nat.lt_or_eq_of_le hij with hij | rfl
    · exact Nat.le_of_lt (hasc.oidAt_lt hij hj)
    · exact Nat.le_refl _
  simp only [GPhoto2.insertAt, lt_iff_toNat_lt]
  split_ifs with h₁ h₂
  · -- Before the whole array.
    obtain ⟨rfl, h₁⟩ := h₁
    refine ⟨by omega, fun i hi => by omega, fun i _ hi => ?_⟩
    have := hmono 0 i (by omega) hi
    omega
  · -- Behind the whole array.
    refine ⟨by omega, fun i hi => ?_, fun i _ _ => by omega⟩
    have := hmono i last (by omega) hlt
    omega
  · -- Between the two indices.
    have hfirst_lt : (oidAt objects first).toNat < handle.toNat := by
      by_cases h0 : 0 < first
      · exact hbelow h0
      · obtain rfl : first = 0 := by omega
        omega
    have hlast_gt : handle.toNat < (oidAt objects last).toNat := by
      by_cases hend : last < objects.length - 1
      · exact habove hend
      · omega
    have hnext : last = first + 1 := by
      rcases Nat.lt_or_eq_of_le hle with hlt' | rfl
      · omega
      · omega
    refine ⟨by omega, fun i hi => ?_, fun i hi hi' => ?_⟩
    · have := hmono i first (by omega) (by omega)
      omega
    · have := hmono last i (by omega) hi'
      omega

theorem ptpObjectFindOrInsert_zero : ptpObjectFindOrInsert objects 0 = none := rfl

/-- The three ways in which the search of the array ends. -/
theorem ptpObjectFindOrInsert_ends (objects : List PTPObject) (hne : handle ≠ 0) :
    (∃ i, i < objects.length ∧ oidAt objects i = handle ∧
      ptpObjectFindOrInsert objects handle = some (i, objects)) ∨
    (objects = [] ∧ ptpObjectFindOrInsert objects handle = some (0, [.new handle])) ∨
    ∃ first last, InsertRange objects handle first last ∧ last - first ≤ 1 ∧
      oidAt objects first ≠ handle ∧ oidAt objects last ≠ handle ∧
      ptpObjectFindOrInsert objects handle = some (insertAt objects handle first last,
        objects.take (insertAt objects handle first last) ++ .new handle ::
          objects.drop (insertAt objects handle first last)) := by
  unfold ptpObjectFindOrInsert
  rw [if_neg hne]
  by_cases hempty : objects.length = 0
  · rw [if_pos hempty]
    exact Or.inr (Or.inl ⟨List.eq_nil_of_length_eq_zero hempty, rfl⟩)
  have hwhole : InsertRange objects handle 0 (objects.length - 1) :=
    ⟨by omega, by omega, by omega, by omega⟩
  rw [if_neg hempty]
  obtain ⟨cursor, hloop, hlt, hc⟩ | ⟨first, last, hloop, hrange, hclose⟩ :=
    @findOrInsertLoop_cases _ _ objects.length _ _ hwhole (by omega)
  · rw [hloop]
    exact Or.inl ⟨cursor, hlt, hc, rfl⟩
  have hle := hrange.le
  have hlt := hrange.lt
  rw [hloop]
  by_cases hfirst : oidAt objects first = handle
  · exact Or.inl ⟨first, by omega, hfirst, if_pos hfirst⟩
  by_cases hlast : oidAt objects last = handle
  · exact Or.inl ⟨last, hlt, hlast, (if_neg hfirst).trans (if_pos hlast)⟩
  · exact Or.inr (Or.inr ⟨first, last, hrange, hclose, hfirst, hlast,
      (if_neg hfirst).trans (if_neg hlast)⟩)

theorem ptpObjectFindOrInsert_found (hasc : Ascending objects) (hne : handle ≠ 0) {i : Nat}
    (hi : i < objects.length) (hoid : oidAt objects i = handle) :
    ptpObjectFindOrInsert objects handle = some (i, objects) := by
  obtain ⟨j, hj, hj', hrun⟩ | ⟨rfl, -⟩ | ⟨first, last, hrange, hclose, hfirst, hlast, -⟩ :=
    ptpObjectFindOrInsert_ends objects hne
  · rw [hrun, hasc.index_unique hj hi (hj'.trans hoid.symm)]
  · exact absurd hi (Nat.not_lt_zero i)
  · -- Neither the smaller nor the greater handles contain it.
    obtain ⟨-, hbelow, habove⟩ := hrange.insertAt hasc hclose hfirst hlast
    rcases Nat.lt_or_ge i (insertAt objects handle first last) with h | h
    · have := hbelow i h
      rw [hoid] at this
      omega
    · have := habove i h hi
      rw [hoid] at this
      omega

theorem ptpObjectFindOrInsert_new (hasc : Ascending objects) (hne : handle ≠ 0)
    (hnew : handle ∉ oids objects) :
    ∃ pre post, objects = pre ++ post ∧
      ptpObjectFindOrInsert objects handle = some (pre.length, pre ++ .new handle :: post) ∧
      (∀ o ∈ oids pre, o < handle) ∧ ∀ o ∈ oids post, handle < o := by
  obtain ⟨j, hj, hj', -⟩ | ⟨rfl, hrun⟩ | ⟨first, last, hrange, hclose, hfirst, hlast, hrun⟩ :=
    ptpObjectFindOrInsert_ends objects hne
  · exact absurd (List.mem_of_getElem? (hj' ▸ oids_getElem?_eq_some hj)) hnew
  · exact ⟨[], [], rfl, hrun, by simp, by simp⟩
  · obtain ⟨hat, hbelow, habove⟩ := hrange.insertAt hasc hclose hfirst hlast
    generalize insertAt objects handle first last = at' at hat hbelow habove hrun
    refine ⟨objects.take at', objects.drop at', (List.take_append_drop ..).symm, ?_, ?_, ?_⟩
    · rw [hrun, List.length_take, Nat.min_eq_left hat]
    · intro o ho
      obtain ⟨j, hj, rfl⟩ := List.getElem_of_mem ho
      have hj' : j < at' ∧ j < objects.length := by
        simp only [length_oids, List.length_take] at hj
        omega
      have := hbelow j hj'.1
      rw [oidAt, List.getElem?_eq_getElem hj'.2] at this
      simpa [oids, lt_iff_toNat_lt] using this
    · intro o ho
      obtain ⟨j, hj, rfl⟩ := List.getElem_of_mem ho
      have hj' : at' + j < objects.length := by
        simp only [length_oids, List.length_drop] at hj
        omega
      have := habove (at' + j) (by omega) hj'
      rw [oidAt, List.getElem?_eq_getElem hj'] at this
      simpa [oids, lt_iff_toNat_lt] using this

end

/-! ### `ptp_object_find` -/

/-- The two handles are close enough for `_cmp_ob` to order them. -/
def Within (handle other : UInt32) : Prop :=
  (other < handle → handle.toNat - other.toNat < 2 ^ 31) ∧
  (handle < other → other.toNat - handle.toNat ≤ 2 ^ 31)

/-- A search for the handle in the ascending array compares it only with handles that are
close enough. -/
def SearchWithin (live : List UInt32) (handle : UInt32) : Prop :=
  ∀ k, live[k]? = some handle → ∀ i ∈ bsearchProbes live.length k, ∀ o, live[i]? = some o →
    Within handle o

section
variable {objects : List PTPObject} {handle : UInt32}

theorem ptpObjectFind_sound {i : Nat} (h : ptpObjectFind objects handle = some i) :
    ∃ ob, objects[i]? = some ob ∧ ob.oid = handle := by
  obtain ⟨ob, hob, hcmp⟩ := bsearch_sound h
  exact ⟨ob, hob, (cmpOb_eq_zero.mp hcmp).symm⟩

/-- A handle of the array is found exactly if the search stays within reach of it. -/
theorem ptpObjectFind_eq_some_iff (hasc : Ascending objects) :
    (∃ i, ptpObjectFind objects handle = some i) ↔
      handle ∈ oids objects ∧ SearchWithin (oids objects) handle := by
  by_cases hmem : handle ∈ oids objects
  · obtain ⟨k, hk⟩ := List.getElem?_of_mem hmem
    have hlen : k < objects.length := by
      rw [← length_oids]
      exact (List.getElem?_eq_some_iff.mp hk).1
    have hunique : ∀ i ob, objects[i]? = some ob →
        (cmpOb (.new handle) ob = 0 ↔ i = k) := by
      intro i ob hob
      have hi : i < objects.length := (List.getElem?_eq_some_iff.mp hob).1
      rw [cmpOb_eq_zero]
      show handle = ob.oid ↔ i = k
      rw [oids_getElem?_eq_some hlen, Option.some.injEq] at hk
      rw [← oidAt_of_getElem? hob, ← hk]
      exact ⟨fun h => hasc.index_unique hi hlen h.symm, fun h => by rw [h]⟩
    have hfind := bsearch_eq_some_iff hlen hunique
    have hleads : ∀ i, LeadsTo (cmpOb (.new handle)) objects k i ↔
        ∀ o, (oids objects)[i]? = some o → Within handle o := by
      intro i
      have horder : ∀ ob, objects[i]? = some ob →
          (i < k ↔ ob.oid < handle) ∧ (k < i ↔ handle < ob.oid) := by
        intro ob hob
        have hi : i < objects.length := (List.getElem?_eq_some_iff.mp hob).1
        rw [oids_getElem?_eq_some hlen, Option.some.injEq] at hk
        rw [← oidAt_of_getElem? hob, ← hk, lt_iff_toNat_lt, lt_iff_toNat_lt]
        have hlt := fun h : i < k => hasc.oidAt_lt h hlen
        have hgt := fun h : k < i => hasc.oidAt_lt h hi
        rcases Nat.lt_trichotomy i k with h | rfl | h
        · have := hlt h
          omega
        · omega
        · have := hgt h
          omega
      rw [oids_getElem?]
      constructor
      · intro h o ho
        obtain ⟨ob, hob, rfl⟩ := Option.map_eq_some_iff.mp ho
        obtain ⟨hleft, hright⟩ := horder ob hob
        obtain ⟨hpos, hneg⟩ := h ob hob
        exact ⟨fun hlt => (cmpOb_pos_iff (.new handle) hlt).mp (hpos (hleft.mpr hlt)),
          fun hlt => (cmpOb_neg_iff (.new handle) hlt).mp (hneg (hright.mpr hlt))⟩
      · intro h ob hob
        obtain ⟨hleft, hright⟩ := horder ob hob
        obtain ⟨hbelow, habove⟩ := h ob.oid (by rw [hob]; rfl)
        exact ⟨fun hi => (cmpOb_pos_iff (.new handle) (hleft.mp hi)).mpr
            (hbelow (hleft.mp hi)),
          fun hi => (cmpOb_neg_iff (.new handle) (hright.mp hi)).mpr
            (habove (hright.mp hi))⟩
    constructor
    · rintro ⟨i, hi⟩
      refine ⟨hmem, fun k' hk' => ?_⟩
      obtain ⟨ob, hob, hoid⟩ := ptpObjectFind_sound hi
      obtain rfl := (hunique i ob hob).mp (cmpOb_eq_zero.mpr hoid.symm)
      have hlen' : k' < objects.length := by
        rw [← length_oids]
        exact (List.getElem?_eq_some_iff.mp hk').1
      obtain rfl : k' = i := by
        rw [oids_getElem?_eq_some hlen', Option.some.injEq] at hk'
        rw [oids_getElem?_eq_some hlen, Option.some.injEq] at hk
        exact hasc.index_unique hlen' hlen (hk'.trans hk.symm)
      rw [length_oids]
      exact fun j hj => (hleads j).mp (hfind.mp hi j hj)
    · rintro ⟨-, hwithin⟩
      have := hwithin k hk
      rw [length_oids] at this
      exact ⟨k, hfind.mpr fun j hj => (hleads j).mpr (this j hj)⟩
  · refine iff_of_false ?_ (fun h => hmem h.1)
    rintro ⟨i, hi⟩
    obtain ⟨ob, hob, rfl⟩ := ptpObjectFind_sound hi
    exact hmem (List.mem_map.mpr ⟨ob, List.mem_of_getElem? hob, rfl⟩)

end

/-! ### Runs -/

section
variable {objects : List PTPObject}

variable (hasc : Ascending objects)
include hasc

theorem Ascending.exec (call : CacheCall) :
    Ascending (call.exec objects) := by
  cases call with
  | findOrInsert handle =>
    simp only [CacheCall.exec]
    by_cases hzero : handle = 0
    · rwa [hzero, ptpObjectFindOrInsert_zero]
    · by_cases hmem : handle ∈ oids objects
      · obtain ⟨i, hlt, hi⟩ := index_of_mem_oids hmem
        rwa [ptpObjectFindOrInsert_found hasc hzero hlt hi]
      · obtain ⟨pre, post, rfl, hrun, hpre, hpost⟩ := ptpObjectFindOrInsert_new hasc hzero hmem
        rw [hrun]
        exact hasc.insert hpre hpost
  | remove handle =>
    simp only [CacheCall.exec, ptpRemoveObjectFromCache]
    cases ptpObjectFind objects handle with
    | none => exact hasc
    | some i => exact hasc.sublist ((List.eraseIdx_sublist ..).map _)

theorem oids_exec_findOrInsert (handle : UInt32) :
    oids ((CacheCall.findOrInsert handle).exec objects) =
      (CacheCall.findOrInsert handle).leaves (oids objects) := by
  simp only [CacheCall.exec, CacheCall.leaves]
  by_cases hzero : handle = 0
  · rw [hzero, ptpObjectFindOrInsert_zero, if_pos (Or.inl rfl)]
    rfl
  · by_cases hmem : handle ∈ oids objects
    · obtain ⟨i, hlt, hi⟩ := index_of_mem_oids hmem
      rw [ptpObjectFindOrInsert_found hasc hzero hlt hi, if_pos (Or.inr hmem)]
      rfl
    · obtain ⟨pre, post, rfl, hrun, hpre, hpost⟩ := ptpObjectFindOrInsert_new hasc hzero hmem
      have hpre' : ∀ o ∈ oids pre, decide (o < handle) = true := fun o ho =>
        decide_eq_true (hpre o ho)
      have hpost' : (oids post).takeWhile (· < handle) = [] ∧
          (oids post).dropWhile (· < handle) = oids post := by
        cases hcase : oids post with
        | nil => exact ⟨rfl, rfl⟩
        | cons o os =>
          have ho : ¬ o < handle := by
            have := hpost o (by rw [hcase]; exact List.mem_cons_self)
            rw [lt_iff_toNat_lt] at this ⊢
            omega
          simp [ho]
      rw [hrun, if_neg (not_or.mpr ⟨hzero, hmem⟩)]
      simp only [Option.map_some, Option.getD_some, oids_append, oids_cons]
      rw [List.takeWhile_append_of_pos hpre', List.dropWhile_append_of_pos hpre', hpost'.1,
        hpost'.2, List.append_nil]
      rfl

theorem oids_exec_remove {handle : UInt32}
    (hfind : handle ∈ oids objects → ∃ i, ptpObjectFind objects handle = some i) :
    oids ((CacheCall.remove handle).exec objects) =
      (CacheCall.remove handle).leaves (oids objects) := by
  simp only [CacheCall.exec, CacheCall.leaves, ptpRemoveObjectFromCache]
  cases hi : ptpObjectFind objects handle with
  | none =>
    have hmem : handle ∉ oids objects := by
      intro hmem
      obtain ⟨i, hi'⟩ := hfind hmem
      rw [hi] at hi'
      cases hi'
    exact (List.erase_of_not_mem hmem).symm
  | some i =>
    obtain ⟨ob, hob, rfl⟩ := ptpObjectFind_sound hi
    obtain ⟨hlt, hob⟩ := List.getElem?_eq_some_iff.mp hob
    have hlt' : i < (oids objects).length := by rwa [length_oids]
    have hget : (oids objects)[i] = ob.oid := by
      rw [← hob]
      exact List.getElem_map ..
    rw [← hget, hasc.nodup.erase_getElem i hlt']
    exact (List.eraseIdx_map ..).symm

end

/-- After the run, `ptp_object_find` finds exactly the live handles, and the object found has
the handle. -/
def FindsLive (calls : List CacheCall) : Prop :=
  ∀ handle, ((∃ i, ptpObjectFind (runCache calls) handle = some i) ↔
      handle ∈ liveHandles calls) ∧
    ∀ i, ptpObjectFind (runCache calls) handle = some i →
      ∃ ob, (runCache calls)[i]? = some ob ∧ ob.oid = handle

theorem runCache_concat :
    runCache (calls ++ [call]) = call.exec (runCache calls) := List.foldl_concat ..

theorem liveHandles_concat :
    liveHandles (calls ++ [call]) = call.leaves (liveHandles calls) := List.foldl_concat ..

/-- The array is ascending after every run. -/
theorem runCache_ascending : Ascending (runCache calls) := by
  induction calls using List.reverseRecOn with
  | nil => exact List.Pairwise.nil
  | append_singleton calls call ih =>
    rw [runCache_concat]
    exact ih.exec call

/-- As long as every removal found what it had to, the array holds the live handles. -/
theorem oids_runCache {calls : List CacheCall}
    (h : ∀ pre, pre <+: calls → pre ≠ calls → FindsLive pre) :
    oids (runCache calls) = liveHandles calls := by
  induction calls using List.reverseRecOn with
  | nil => rfl
  | append_singleton calls call ih =>
    have hproper : ∀ pre, pre <+: calls → FindsLive pre := fun pre hpre => by
      refine h pre (hpre.trans (List.prefix_append ..)) fun he => ?_
      have := hpre.length_le
      rw [he, List.length_append, List.length_singleton] at this
      omega
    have hcalls := ih fun pre hpre _ => hproper pre hpre
    rw [runCache_concat, liveHandles_concat, ← hcalls]
    cases call with
    | findOrInsert handle => exact oids_exec_findOrInsert (runCache_ascending calls) handle
    | remove handle =>
      refine oids_exec_remove (runCache_ascending calls) fun hmem => ?_
      exact ((hproper calls List.prefix_rfl) handle).1.mpr (hcalls ▸ hmem)

/-- For an array that holds the live handles, finding them is a matter of the searches. -/
theorem findsLive_iff {calls : List CacheCall} (h : oids (runCache calls) = liveHandles calls) :
    FindsLive calls ↔ ∀ handle ∈ liveHandles calls, SearchWithin (liveHandles calls) handle := by
  have hfind : ∀ handle, (∃ i, ptpObjectFind (runCache calls) handle = some i) ↔
      handle ∈ liveHandles calls ∧ SearchWithin (liveHandles calls) handle := by
    intro handle
    rw [ptpObjectFind_eq_some_iff (runCache_ascending calls), h]
  constructor
  · intro hfinds handle hlive
    exact ((hfind handle).mp ((hfinds handle).1.mpr hlive)).2
  · intro hwithin handle
    refine ⟨?_, fun i hi => ptpObjectFind_sound hi⟩
    rw [hfind]
    exact ⟨fun h => h.1, fun hlive => ⟨hlive, hwithin handle hlive⟩⟩

/-- Throughout a run, `ptp_object_find` finds exactly the handles inserted and not removed
since, if and only if no search for one of them compares it with a handle too far away. -/
theorem runCache_find_iff (calls : List CacheCall) :
    (∀ pre, pre <+: calls → FindsLive pre) ↔
      ∀ pre, pre <+: calls → ∀ handle ∈ liveHandles pre,
        SearchWithin (liveHandles pre) handle := by
  constructor
  · intro h pre hpre
    exact (findsLive_iff (oids_runCache fun pre' hpre' _ => h pre' (hpre'.trans hpre))).mp
      (h pre hpre)
  · intro h
    induction calls using List.reverseRecOn with
    | nil =>
      intro pre hpre
      obtain rfl := List.prefix_nil.mp hpre
      exact (findsLive_iff rfl).mpr (h [] List.prefix_rfl)
    | append_singleton calls call ih =>
      have hproper := ih fun pre hpre => h pre (hpre.trans (List.prefix_append ..))
      intro pre hpre
      rcases List.prefix_concat_iff.mp hpre with rfl | hpre
      · refine (findsLive_iff (oids_runCache fun pre' hpre' hne => ?_)).mpr
          (h _ List.prefix_rfl)
        rcases List.prefix_concat_iff.mp hpre' with rfl | hpre'
        · exact absurd rfl hne
        · exact hproper pre' hpre'
      · exact hproper pre hpre

/-- Two handles far apart: the smaller one is not found. -/
theorem find_far_handle : ¬ ∀ calls, FindsLive calls := by
  intro h
  have hmem : (1 : UInt32) ∈ liveHandles [.findOrInsert 1, .findOrInsert 0x90000000] := by
    decide
  obtain ⟨i, hi⟩ := (h [.findOrInsert 1, .findOrInsert 0x90000000] 1).1.mpr hmem
  have hnone : ptpObjectFind (runCache [.findOrInsert 1, .findOrInsert 0x90000000]) 1 = none := by
    decide
  rw [hnone] at hi
  cases hi

/-! ## The entry of a handle

What `ptp_object_find_or_insert` leaves of an array that is strictly ascending.

* `findOrInsertLoop_ends`: its loop ends. `SearchEnds` is the loop with no bound on its rounds,
  and each round that goes on has brought the two indices closer.
* `GivesEntry`: what is true of the array and of the index afterwards, wherever the handle
  belongs. `findOrInsert_keeps` says so of every handle but 0, which is refused.
-/

/-! ### The loop -/

/-- The index a round of the loop looks at. -/
def cursorOf (first last : Nat) : Nat := (last - first) / 2 + first

/-- The two indices after a round that did not find the handle. -/
def narrow (objects : List PTPObject) (handle : UInt32) (first last : Nat) : Nat × Nat :=
  if oidAt objects (cursorOf first last) < handle then (cursorOf first last, last)
  else (first, cursorOf first last)

/-- The rounds of the loop from two indices on, and the way they end. -/
inductive SearchEnds (objects : List PTPObject) (handle : UInt32) :
    Nat → Nat → Nat ⊕ (Nat × Nat) → Prop
  | found {first last : Nat} (heq : oidAt objects (cursorOf first last) = handle) :
    SearchEnds objects handle first last (.inl (cursorOf first last))
  | close {first last : Nat} (hne : oidAt objects (cursorOf first last) ≠ handle)
    (hclose : (narrow objects handle first last).2 -
      (narrow objects handle first last).1 ≤ 1) :
    SearchEnds objects handle first last (.inr (narrow objects handle first last))
  | again {first last : Nat} {out : Nat ⊕ (Nat × Nat)}
    (hne : oidAt objects (cursorOf first last) ≠ handle)
    (hfar : 1 < (narrow objects handle first last).2 - (narrow objects handle first last).1)
    (hrest : SearchEnds objects handle (narrow objects handle first last).1
      (narrow objects handle first last).2 out) :
    SearchEnds objects handle first last out

section
variable {objects : List PTPObject} {handle : UInt32}

theorem narrow_closer {first last : Nat}
    (hfar : 1 < (narrow objects handle first last).2 - (narrow objects handle first last).1) :
    (narrow objects handle first last).2 - (narrow objects handle first last).1 <
      last - first := by
  unfold narrow cursorOf at hfar ⊢
  by_cases hless : oidAt objects ((last - first) / 2 + first) < handle
  · rw [if_pos hless] at hfar ⊢
    show last - ((last - first) / 2 + first) < last - first
    have hfar : 1 < last - ((last - first) / 2 + first) := hfar
    omega
  · rw [if_neg hless] at hfar ⊢
    show (last - first) / 2 + first - first < last - first
    have hfar : 1 < (last - first) / 2 + first - first := hfar
    omega

theorem findOrInsertLoop_succ (fuel first last : Nat) :
    findOrInsertLoop objects handle (fuel + 1) first last =
      if oidAt objects (cursorOf first last) = handle then .inl (cursorOf first last)
      else if (narrow objects handle first last).2 - (narrow objects handle first last).1 ≤ 1 then
        .inr (narrow objects handle first last)
      else findOrInsertLoop objects handle fuel (narrow objects handle first last).1
        (narrow objects handle first last).2 := by
  rw [findOrInsertLoop]
  unfold narrow cursorOf
  by_cases hless : oidAt objects ((last - first) / 2 + first) < handle
  · simp only [if_pos hless]
  · simp only [if_neg hless]

theorem findOrInsertLoop_ends {fuel first last : Nat} (hfuel : last - first < fuel) :
    SearchEnds objects handle first last
      (findOrInsertLoop objects handle fuel first last) := by
  induction fuel generalizing first last with
  | zero => omega
  | succ fuel ih =>
    rw [findOrInsertLoop_succ]
    by_cases heq : oidAt objects (cursorOf first last) = handle
    · rw [if_pos heq]
      exact .found heq
    · rw [if_neg heq]
      by_cases hclose : (narrow objects handle first last).2 -
          (narrow objects handle first last).1 ≤ 1
      · rw [if_pos hclose]
        exact .close heq hclose
      · rw [if_neg hclose]
        have hcloser := @narrow_closer objects handle first last (by omega)
        exact .again heq (by omega) (ih (by omega))

/-! ### The array afterwards -/

/-- The array is ascending and has one entry for the handle, at the index. The others are as
they were, and so is this one if it was there before. -/
structure GivesEntry (objects : List PTPObject) (handle : UInt32) (i : Nat)
    (objects' : List PTPObject) : Prop where
  ascending : Ascending objects'
  entry : ∃ ob, objects'[i]? = some ob ∧ ob.oid = handle
  once : (oids objects').count handle = 1
  others : objects'.filter (fun ob => ob.oid ≠ handle) =
    objects.filter fun ob => ob.oid ≠ handle
  known : handle ∈ oids objects → objects' = objects
  fresh : handle ∉ oids objects → PTPObject.new handle ∈ objects'

theorem GivesEntry.of_known (hasc : Ascending objects) {i : Nat} (hi : i < objects.length)
    (hoid : oidAt objects i = handle) : GivesEntry objects handle i objects := by
  have hget : (oids objects)[i]? = some handle := by rw [oids_getElem?_eq_some hi, hoid]
  have hmem : handle ∈ oids objects := List.mem_of_getElem? hget
  rw [oids_getElem?] at hget
  exact {
    ascending := hasc
    entry := Option.map_eq_some_iff.mp hget
    once := List.count_eq_one_of_mem hasc.nodup hmem
    others := rfl
    known := fun _ => rfl
    fresh := fun hnew => absurd hmem hnew }

theorem GivesEntry.of_new {pre post : List PTPObject} (hasc : Ascending (pre ++ post))
    (hpre : ∀ o ∈ oids pre, o < handle) (hpost : ∀ o ∈ oids post, handle < o)
    (hnew : handle ∉ oids (pre ++ post)) :
    GivesEntry (pre ++ post) handle pre.length (pre ++ .new handle :: post) := by
  have hasc' : Ascending (pre ++ .new handle :: post) := hasc.insert hpre hpost
  have hmem : handle ∈ oids (pre ++ .new handle :: post) := by
    rw [oids_append, oids_cons]
    exact List.mem_append_right _ List.mem_cons_self
  exact {
    ascending := hasc'
    entry := ⟨.new handle, by simp, rfl⟩
    once := List.count_eq_one_of_mem hasc'.nodup hmem
    others := by simp [List.filter_append, PTPObject.new]
    known := fun hold => absurd hold hnew
    fresh := fun _ => List.mem_append_right _ List.mem_cons_self }

/-- Every handle but 0 has its entry afterwards, and the loop that looked for it has ended. The
handle 0 is refused, and the array stays. -/
theorem findOrInsert_keeps (objects : List PTPObject) (handle : UInt32)
    (hasc : Ascending objects) :
    (handle = 0 → ptpObjectFindOrInsert objects handle = none) ∧
    (handle ≠ 0 → ∃ i objects', ptpObjectFindOrInsert objects handle = some (i, objects') ∧
      GivesEntry objects handle i objects') ∧
    (objects ≠ [] → SearchEnds objects handle 0 (objects.length - 1)
      (findOrInsertLoop objects handle objects.length 0 (objects.length - 1))) := by
  refine ⟨?_, ?_, ?_⟩
  · intro hzero
    rw [hzero]
    exact ptpObjectFindOrInsert_zero
  · intro hne
    by_cases hmem : handle ∈ oids objects
    · obtain ⟨i, hi, hoid⟩ := index_of_mem_oids hmem
      exact ⟨i, objects, ptpObjectFindOrInsert_found hasc hne hi hoid, .of_known hasc hi hoid⟩
    · obtain ⟨pre, post, rfl, hrun, hpre, hpost⟩ := ptpObjectFindOrInsert_new hasc hne hmem
      exact ⟨_, _, hrun, .of_new hasc hpre hpost hmem⟩
  · intro hne
    have hlen := List.length_pos_iff.mpr hne
    exact findOrInsertLoop_ends (by omega)

/-- Two neighbours that the handle belongs between. -/
theorem findOrInsert_between :
    ∃ i objects', ptpObjectFindOrInsert [.new 2, .new 0x90000000] 7 = some (i, objects') ∧
      GivesEntry [.new 2, .new 0x90000000] 7 i objects' :=
  (findOrInsert_keeps [.new 2, .new 0x90000000] 7 (by unfold Ascending; decide)).2.1 (by decide)

/-- The handle 0 gets no entry. -/
theorem findOrInsert_refuses_zero :
    ¬∀ (objects : List PTPObject) (handle : UInt32), Ascending objects →
      (∃ i objects', ptpObjectFindOrInsert objects handle = some (i, objects') ∧
        GivesEntry objects handle i objects') ∧
      (objects ≠ [] → SearchEnds objects handle 0 (objects.length - 1)
        (findOrInsertLoop objects handle objects.length 0 (objects.length - 1))) := by
  intro h
  obtain ⟨⟨i, objects', hrun, -⟩, -⟩ := h [] 0 List.Pairwise.nil
  cases hrun

end

end GPhoto2
