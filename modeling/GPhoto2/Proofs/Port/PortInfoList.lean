import GPhoto2.Port.PortInfoList
import Mathlib.Data.List.Basic

/-!
# `GPhoto2.Proofs.Port.PortInfoList`: the indices of the list of ports

What the list stands for is the list of its entries that are not generic (`regularEntries`).
Each function of the library is a function of that list: the count is its length, the lookups
give a position in it, and `gp_port_info_list_get_info` the entry at a position
(`getInfo_eq`). Hence the indices agree (`portInfoList_consistent`).
-/

set_option autoImplicit false

namespace GPhoto2

/-- The entries that are not generic. -/
def regularEntries (list : List PortInfo) : List PortInfo := list.filter fun e => e.name ≠ []

theorem regularEntries_append (list : List PortInfo) (info : PortInfo) (h : info.name ≠ []) :
    regularEntries (list ++ [info]) = regularEntries list ++ [info] := by
  simp [regularEntries, h]

variable {e : PortInfo}

theorem regularEntries_generic (h : e.name = []) (list : List PortInfo) :
    regularEntries (e :: list) = regularEntries list := by
  simp [regularEntries, h]

theorem regularEntries_regular (h : e.name ≠ []) (list : List PortInfo) :
    regularEntries (e :: list) = e :: regularEntries list := by
  simp [regularEntries, h]

variable {list : List PortInfo}

theorem name_ne_nil (h : e ∈ regularEntries list) :
    e.name ≠ [] := by
  simpa using (List.mem_filter.mp h).2

theorem countGeneric_add (list : List PortInfo) :
    countGeneric list + (regularEntries list).length = list.length := by
  induction list with
  | nil => rfl
  | cons e list ih =>
    by_cases he : e.name = []
    · rw [countGeneric, if_pos he, regularEntries_generic he, List.length_cons]
      omega
    · rw [countGeneric, if_neg he, regularEntries_regular he, List.length_cons, List.length_cons]
      omega

/-- `gp_port_info_list_count` counts them. -/
theorem count_eq (list : List PortInfo) :
    gpPortInfoListCount list = (regularEntries list).length := by
  have hadd := countGeneric_add list
  unfold gpPortInfoListCount
  omega

/-- `gp_port_info_list_append` returns the last position. -/
theorem append_index (list : List PortInfo) (info : PortInfo) :
    (gpPortInfoListAppend list info).1 =
      ((regularEntries (list ++ [info])).length : Int) - 1 := by
  have hadd := countGeneric_add (list ++ [info])
  show ((list ++ [info]).length : Int) - 1 - countGeneric (list ++ [info]) = _
  omega

/-- The loop of the lookups finds a position among the regular entries. -/
theorem lookupEntryLoop_eq (isIt : PortInfo → Bool) (list : List PortInfo) (i generic : Nat) :
    lookupEntryLoop isIt list i generic =
      ((regularEntries list).findIdx? isIt).map fun k : Nat => (i : Int) - generic + k := by
  induction list generalizing i generic with
  | nil => rfl
  | cons e list ih =>
    unfold lookupEntryLoop
    by_cases he : e.name = []
    · rw [if_pos he, regularEntries_generic he, ih]
      refine congrArg (fun f => Option.map f _) (funext fun k => ?_)
      omega
    · rw [if_neg he, regularEntries_regular he, List.findIdx?_cons]
      by_cases hit : isIt e = true
      · simp [hit]
      · rw [if_neg hit, if_neg hit, ih, Option.map_map]
        refine congrArg (fun f => Option.map f _) (funext fun k => ?_)
        show ((i + 1 : Nat) : Int) - generic + k = (i : Int) - generic + ((k + 1 : Nat) : Int)
        omega

theorem lookupEntryLoop_eq_some {isIt : PortInfo → Bool} {i : Int}
    (h : lookupEntryLoop isIt list 0 0 = some i) :
    ∃ k e, i = ((k : Nat) : Int) ∧ (regularEntries list)[k]? = some e ∧ isIt e = true := by
  rw [lookupEntryLoop_eq] at h
  obtain ⟨k, hk, rfl⟩ := Option.map_eq_some_iff.mp h
  obtain ⟨hlt, hit, -⟩ := List.findIdx?_eq_some_iff_getElem.mp hk
  exact ⟨k, _, by omega, List.getElem?_eq_getElem hlt, hit⟩

/-- The loop of `gp_port_info_list_get_info`: as long as it has not passed the index, the entry
it is after is among the rest of the array, as far on as the index is. -/
theorem getInfoLoop_spec {count : Nat} (rest : List PortInfo) {i n : Nat}
    (hcount : i + rest.length = count) (hlt : n < count) (hle : i ≤ n) :
    (∃ m, getInfoLoop count rest i n = some (.ok m) ∧ i ≤ m ∧
      rest[m - i]? = (regularEntries rest)[n - i]? ∧ n - i < (regularEntries rest).length) ∨
    (getInfoLoop count rest i n = some (.error gpErrorBadParameters) ∧
      (regularEntries rest).length ≤ n - i) := by
  induction rest generalizing i n with
  | nil =>
    rw [List.length_nil] at hcount
    omega
  | cons e rest ih =>
    rw [List.length_cons] at hcount
    have hfilter : (regularEntries rest).length ≤ rest.length := List.length_filter_le ..
    unfold getInfoLoop
    rw [if_neg (Nat.not_lt.mpr hle)]
    by_cases he : e.name = []
    · -- one entry more to go
      simp only [if_pos he, regularEntries_generic he]
      by_cases hend : count ≤ n + 1
      · rw [if_pos hend]
        refine Or.inr ⟨rfl, ?_⟩
        omega
      · rw [if_neg hend]
        have hsub : n + 1 - (i + 1) = n - i := by omega
        rcases ih (by omega) (by omega) (Nat.succ_le_succ hle) with
          ⟨m, hrun, him, hget, hlen⟩ | ⟨hrun, hlen⟩
        · rw [hsub] at hget hlen
          refine Or.inl ⟨m, hrun, by omega, ?_, hlen⟩
          rw [show m - i = (m - (i + 1)) + 1 by omega, List.getElem?_cons_succ, hget]
        · rw [hsub] at hlen
          exact Or.inr ⟨hrun, hlen⟩
    · simp only [if_neg he, regularEntries_regular he]
      by_cases hlast : n = i
      · -- this is the one
        subst hlast
        refine Or.inl ⟨n, ?_, Nat.le_refl n, ?_, ?_⟩
        · unfold getInfoLoop
          rw [if_pos (Nat.lt_succ_self n)]
        · rw [Nat.sub_self]
          rfl
        · rw [Nat.sub_self]
          exact Nat.succ_pos _
      · have hsub : n - i = n - (i + 1) + 1 := by omega
        rw [hsub, List.length_cons]
        rcases @ih (i + 1) n (by omega) hlt (by omega) with
          ⟨m, hrun, him, hget, hlen⟩ | ⟨hrun, hlen⟩
        · refine Or.inl ⟨m, hrun, by omega, ?_, Nat.succ_lt_succ hlen⟩
          rw [show m - i = (m - (i + 1)) + 1 by omega, List.getElem?_cons_succ, hget,
            List.getElem?_cons_succ]
        · exact Or.inr ⟨hrun, Nat.succ_le_succ hlen⟩

/-- `gp_port_info_list_get_info` gives the entry at a position. -/
theorem getInfo_eq (list : List PortInfo) (n : Nat) :
    gpPortInfoListGetInfo list n = some
      (match (regularEntries list)[n]? with
      | some e => .ok e
      | none => .error gpErrorBadParameters) := by
  have hfilter : (regularEntries list).length ≤ list.length := List.length_filter_le ..
  unfold gpPortInfoListGetInfo
  by_cases hlt : n < list.length
  · rw [if_neg (by omega), Int.toNat_natCast]
    rcases getInfoLoop_spec list (Nat.zero_add _) hlt (Nat.zero_le n) with
      ⟨m, hrun, -, hget, hlen⟩ | ⟨hrun, hlen⟩
    · rw [hrun, Option.bind_some]
      rw [Nat.sub_zero, Nat.sub_zero] at hget
      rw [Nat.sub_zero] at hlen
      rw [List.getElem?_eq_getElem hlen] at hget ⊢
      simp [hget]
    · rw [Nat.sub_zero] at hlen
      rw [hrun, Option.bind_some, List.getElem?_eq_none hlen]
  · rw [if_pos (by omega), List.getElem?_eq_none (by omega)]

theorem getInfo_neg {n : Int} (h : n < 0) :
    gpPortInfoListGetInfo list n = some (.error gpErrorBadParameters) := if_pos (Or.inl h)

theorem getInfo_of_getElem? {k : Nat}
    (h : (regularEntries list)[k]? = some e) :
    gpPortInfoListGetInfo list k = some (.ok e) := by
  rw [getInfo_eq, h]

theorem getInfo_append (list : List PortInfo) {info : PortInfo} (h : info.name ≠ []) :
    gpPortInfoListGetInfo (gpPortInfoListAppend list info).2
      (gpPortInfoListAppend list info).1 = some (.ok info) := by
  have hindex : (gpPortInfoListAppend list info).1 = ((regularEntries list).length : Nat) := by
    rw [append_index, regularEntries_append list info h, List.length_append]
    show (((regularEntries list).length + 1 : Nat) : Int) - 1 = _
    omega
  rw [hindex]
  refine getInfo_of_getElem? ?_
  show (regularEntries (list ++ [info]))[(regularEntries list).length]? = some info
  rw [regularEntries_append list info h, List.getElem?_concat_length]

theorem regexLoop_eq_some {regex : Regex} {path : CString}
    {newinfo : PortInfo} (h : regexLoop regex path list = some (some newinfo)) :
    newinfo.name ≠ [] ∧ newinfo.path = path := by
  induction list with
  | nil => cases h
  | cons e list ih =>
    unfold regexLoop at h
    by_cases he : e.name ≠ []
    · rw [if_pos he] at h
      exact ih h
    · rw [if_neg he] at h
      cases hmatch : regex.isMatch e.path path with
      | none =>
        simp only [hmatch] at h
        by_cases hgnu : regex.gnu = true
        · rw [if_pos hgnu] at h
          exact ih h
        · rw [if_neg hgnu] at h
          cases h
      | some found =>
        cases found with
        | false =>
          simp only [hmatch] at h
          exact ih h
        | true =>
          simp only [hmatch] at h
          obtain ⟨info, hinfo, hsome⟩ := Option.map_eq_some_iff.mp h
          cases hsome
          obtain ⟨library, -, rfl⟩ := Option.map_eq_some_iff.mp hinfo
          exact ⟨(by decide : genericPort ≠ []), rfl⟩

/-- `gp_port_info_list_lookup_path` finds an entry, adds one, or fails. -/
theorem lookupPath_cases {regex : Regex} {list' : List PortInfo} {path : CString} {i : Int}
    (h : gpPortInfoListLookupPath regex list path = some (i, list')) :
    (list' = list ∧ ∃ k e, i = ((k : Nat) : Int) ∧ (regularEntries list)[k]? = some e ∧
      e.path = path) ∨
    (list' = list ∧ i = gpErrorUnknownPort) ∨
    ∃ newinfo, newinfo.name ≠ [] ∧ newinfo.path = path ∧
      (i, list') = gpPortInfoListAppend list newinfo := by
  unfold gpPortInfoListLookupPath at h
  cases hexact : lookupEntryLoop (fun e => e.path = path) list 0 0 with
  | some j =>
    rw [hexact] at h
    cases h
    obtain ⟨k, e, hk, hget, hit⟩ := lookupEntryLoop_eq_some hexact
    exact Or.inl ⟨rfl, k, e, hk, hget, of_decide_eq_true hit⟩
  | none =>
    simp only [hexact] at h
    obtain ⟨found, hfound, h⟩ := Option.map_eq_some_iff.mp h
    cases found with
    | none =>
      cases h
      exact Or.inr (Or.inl ⟨rfl, rfl⟩)
    | some newinfo =>
      obtain ⟨hname, hpath⟩ := regexLoop_eq_some hfound
      exact Or.inr (Or.inr ⟨newinfo, hname, hpath, h.symm⟩)

/-- The indices of a list agree: what a lookup returns is an index of what was looked up, the
indices are those below the count, and the index of a new entry is its own. -/
structure IndicesAgree (regex : Regex) (list : List PortInfo) : Prop where
  name : ∀ name i, gpPortInfoListLookupName list name = i → 0 ≤ i →
    ∃ e, gpPortInfoListGetInfo list i = some (.ok e) ∧ e.name ≠ [] ∧ e.name = name
  path : ∀ path i list', gpPortInfoListLookupPath regex list path = some (i, list') → 0 ≤ i →
    ∃ e, gpPortInfoListGetInfo list' i = some (.ok e) ∧ e.name ≠ [] ∧ e.path = path
  index : ∀ n, (∃ e, gpPortInfoListGetInfo list n = some (.ok e)) ↔
    0 ≤ n ∧ n < gpPortInfoListCount list
  appended : ∀ info, info.name ≠ [] →
    gpPortInfoListGetInfo (gpPortInfoListAppend list info).2
      (gpPortInfoListAppend list info).1 = some (.ok info)
  created : ∀ path i list', gpPortInfoListLookupPath regex list path = some (i, list') →
    list' ≠ list → ∃ e, list' = list ++ [e] ∧ gpPortInfoListGetInfo list' i = some (.ok e)

/-- The indices agree in every list, however it was built. -/
theorem portInfoList_consistent (regex : Regex) (list : List PortInfo) :
    IndicesAgree regex list where
  name := by
    intro name i hlookup hi
    unfold gpPortInfoListLookupName at hlookup
    cases hexact : lookupEntryLoop (fun e => e.name = name) list 0 0 with
    | some j =>
      rw [hexact] at hlookup
      subst hlookup
      obtain ⟨k, e, hk, hget, hit⟩ := lookupEntryLoop_eq_some hexact
      refine ⟨e, ?_, name_ne_nil (List.mem_of_getElem? hget), of_decide_eq_true hit⟩
      show gpPortInfoListGetInfo list j = _
      rw [hk]
      exact getInfo_of_getElem? hget
    | none =>
      rw [hexact] at hlookup
      subst hlookup
      exact absurd hi (by decide)
  path := by
    intro path i list' hlookup hi
    rcases lookupPath_cases hlookup with ⟨rfl, k, e, rfl, hget, hpath⟩ | ⟨-, rfl⟩ |
      ⟨newinfo, hname, hpath, happend⟩
    · exact ⟨e, getInfo_of_getElem? hget, name_ne_nil (List.mem_of_getElem? hget), hpath⟩
    · exact absurd hi (by decide)
    · have hget := getInfo_append list hname
      rw [← happend] at hget
      exact ⟨newinfo, hget, hname, hpath⟩
  index := by
    intro n
    rw [count_eq]
    constructor
    · rintro ⟨e, he⟩
      by_cases hneg : n < 0
      · rw [getInfo_neg hneg] at he
        cases he
      · obtain ⟨k, rfl⟩ := Int.eq_ofNat_of_zero_le (Int.not_lt.mp hneg)
        rw [getInfo_eq] at he
        cases hget : (regularEntries list)[k]? with
        | none =>
          rw [hget] at he
          cases he
        | some e' =>
          obtain ⟨hlt, -⟩ := List.getElem?_eq_some_iff.mp hget
          omega
    · rintro ⟨hn, hlt⟩
      obtain ⟨k, rfl⟩ := Int.eq_ofNat_of_zero_le hn
      exact ⟨_, getInfo_of_getElem? (List.getElem?_eq_getElem (by omega))⟩
  appended := fun info h => getInfo_append list h
  created := by
    intro path i list' hlookup hne
    rcases lookupPath_cases hlookup with ⟨rfl, -⟩ | ⟨rfl, -⟩ | ⟨newinfo, hname, -, happend⟩
    · exact absurd rfl hne
    · exact absurd rfl hne
    · have hget := getInfo_append list hname
      rw [← happend] at hget
      exact ⟨newinfo, congrArg Prod.snd happend, hget⟩

/-- A generic entry ahead of a disk: the disk has index 0. -/
example : gpPortInfoListLookupName
    [⟨4, [], "^usb:".toList, none⟩, ⟨8, "Disk".toList, "disk:/".toList, none⟩]
    "Disk".toList = 0 := by decide

end GPhoto2
