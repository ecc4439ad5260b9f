import GPhoto2.Lib.Scan
import GPhoto2.Lib.Spread
import GPhoto2.Ptp.CanonDirectory

/-!
# `GPhoto2.Proofs.Ptp.CanonDirectory`: the storage of each object

The rounds of `ptp_unpack_canon_directory` are those of `GPhoto2.Lib.Spread`: the marks are the
`StorageID`s, and `linksOf` are the links an entry follows. `Tracks` connects the two for a part
of a round.

* `distributeStorage_ends`: the rounds end, and all objects on a way from a marked one are
  marked.
* `way_reaches` and `way_of_reaches`: the ways between indices are those between entries.
* `ptpUnpackCanonDirectory_distributes`: the storage of an object is the one of a storage entry
  from which links lead to it.
-/

set_option autoImplicit false

namespace GPhoto2

open Lib
open List (foldl_cons getElem?_map length_map map_map mem_cons mem_flatMap mem_of_getElem?)

/-! ### Entries and their links -/

/-- The entries of objects. -/
def objectsOf (entries : List CanonDirEntry) : List CanonDirEntry :=
  entries.filter CanonDirEntry.isObject

/-- The next entry in the directory, or the first child. -/
def CanonDirEntry.LinksTo (e e' : CanonDirEntry) : Prop :=
  (e.nextid ≠ ptpCanonDirNone ∧ e.nextid = e'.objectid) ∨
    (e.nextchild ≠ ptpCanonDirNone ∧ e.nextchild = e'.objectid)

/-- A link that leads to an object, and is not behind one that leads to none. -/
def CanonDirEntry.FollowsTo (entries : List CanonDirEntry) (e e' : CanonDirEntry) : Prop :=
  (e.nextid ≠ ptpCanonDirNone ∧ e.nextid = e'.objectid) ∨
    (e.nextchild ≠ ptpCanonDirNone ∧ e.nextchild = e'.objectid ∧
      (e.nextid = ptpCanonDirNone ∨ ∃ o ∈ objectsOf entries, e.nextid = o.objectid))

/-- The objects that links lead to from the first child of an entry. -/
inductive Reaches (entries : List CanonDirEntry) (link : CanonDirEntry → CanonDirEntry → Prop)
    (root : CanonDirEntry) : CanonDirEntry → Prop
  | child {e : CanonDirEntry} (he : e ∈ objectsOf entries)
    (hchild : root.nextchild = e.objectid) : Reaches entries link root e
  | step {e e' : CanonDirEntry} (hreach : Reaches entries link root e)
    (he' : e' ∈ objectsOf entries) (hlink : link e e') : Reaches entries link root e'

/-- The object info but for its storage. -/
def PTPObjectInfo.bare (oi : PTPObjectInfo) : PTPObjectInfo :=
  { oi with storageID := ptpCanonDirNone }

/-- The storage of an object is the one of a storage entry from which links lead to it, and there
is one if such links can be followed. -/
structure StorageGiven (entries : List CanonDirEntry) (e : CanonDirEntry) (storageid : UInt32) :
    Prop where
  origin : storageid ≠ ptpCanonDirNone → ∃ root ∈ entries, root.isObject = false ∧
    Reaches entries CanonDirEntry.LinksTo root e ∧ storageid = root.storageid
  reached : ∀ root ∈ entries, root.isObject = false →
    Reaches entries (CanonDirEntry.FollowsTo entries) root e → storageid ≠ ptpCanonDirNone
  agreed : ∀ root ∈ entries, root.isObject = false →
    Reaches entries (CanonDirEntry.FollowsTo entries) root e →
    (∀ root' ∈ entries, root'.isObject = false → Reaches entries CanonDirEntry.LinksTo root' e →
      root'.storageid = root.storageid) → storageid = root.storageid

/-- What the function makes of a block. -/
structure Distributed (entries : List CanonDirEntry) (d : CanonDirectory) : Prop where
  handles : d.handles = (objectsOf entries).map CanonDirEntry.objectid
  flags : d.flags = (objectsOf entries).map CanonDirEntry.flags
  length_eq : d.oinfos.length = (objectsOf entries).length
  info : ∀ (k : Nat) (e : CanonDirEntry), (objectsOf entries)[k]? = some e →
    ∃ oi : PTPObjectInfo, d.oinfos[k]? = some oi ∧ e.objectInfo = some oi.bare ∧
      oi.parentObject = e.parentid ∧ StorageGiven entries e oi.storageID

/-! ### Rounds -/

section
variable (handles : List UInt32)

/-- The link to the first child. -/
def childLinks (j : Nat) (e : CanonDirEntry) : List (Nat × Nat) :=
  if e.nextchild ≠ ptpCanonDirNone then
    match findHandler handles e.nextchild with
    | none => []
    | some k => [(j, k)]
  else []

/-- The links that are followed from the entry of an object. -/
def objectLinks (j : Nat) (e : CanonDirEntry) : List (Nat × Nat) :=
  if e.nextid ≠ ptpCanonDirNone then
    match findHandler handles e.nextid with
    | none => []
    | some k => (j, k) :: childLinks handles j e
  else childLinks handles j e

/-- The links that are followed from an entry. -/
def linksOf (e : CanonDirEntry) : List (Nat × Nat) :=
  if e.isObject then
    match findHandler handles e.objectid with
    | none => []
    | some j => objectLinks handles j e
  else []

end

/-- The `StorageID`s. -/
def storages (oinfos : List PTPObjectInfo) : List UInt32 := oinfos.map PTPObjectInfo.storageID

/-- The number of objects without one. -/
def openCount (oinfos : List PTPObjectInfo) : Nat := (storages oinfos).count ptpCanonDirNone

/-- From `s` to `s'` the marks were passed on along links, and counted. -/
structure Tracks (links : List (Nat × Nat)) (s s' : Distribution) : Prop where
  bare : s'.oinfos.map PTPObjectInfo.bare = s.oinfos.map PTPObjectInfo.bare
  marks : storages s'.oinfos = spread ptpCanonDirNone links (storages s.oinfos)
  count : s'.changed + openCount s'.oinfos = s.changed + openCount s.oinfos

theorem Tracks.refl (s : Distribution) : Tracks [] s s := ⟨rfl, rfl, rfl⟩

theorem Tracks.trans {links links' : List (Nat × Nat)} {s s' s'' : Distribution}
    (h : Tracks links s s') (h' : Tracks links' s' s'') : Tracks (links ++ links') s s'' := by
  refine ⟨h'.bare.trans h.bare, ?_, h'.count.trans h.count⟩
  rw [spread_append, ← h.marks]
  exact h'.marks

variable (oinfos : List PTPObjectInfo) (j : Nat) (m : UInt32)

@[simp] theorem length_storages :
    (storages oinfos).length = oinfos.length := length_map ..

theorem Tracks.length_eq {links : List (Nat × Nat)} {s s' : Distribution}
    (h : Tracks links s s') : s'.oinfos.length = s.oinfos.length := by
  have := congrArg List.length h.bare
  simpa using this

theorem storages_setStorage :
    storages (setStorage oinfos j m) = (storages oinfos).set j m := by
  unfold storages setStorage
  refine List.ext_getElem? fun i => ?_
  rw [getElem?_map, List.getElem?_modify, List.getElem?_set, getElem?_map]
  by_cases hij : j = i
  · subst hij
    rw [length_map]
    cases hget : oinfos[j]? with
    | none =>
      rw [if_pos rfl, if_neg]
      · rfl
      · rw [List.getElem?_eq_none_iff] at hget
        omega
    | some oi =>
      obtain ⟨hlt, -⟩ := List.getElem?_eq_some_iff.mp hget
      rw [if_pos rfl, if_pos hlt]
      simp
  · rw [if_neg hij]
    simp [hij]

theorem bare_setStorage :
    (setStorage oinfos j m).map PTPObjectInfo.bare = oinfos.map PTPObjectInfo.bare := by
  unfold setStorage
  refine List.ext_getElem? fun i => ?_
  rw [getElem?_map, List.getElem?_modify, getElem?_map]
  cases oinfos[i]? with
  | none => rfl
  | some oi =>
    by_cases hij : j = i
    · simp [hij, PTPObjectInfo.bare]
    · simp [hij]

section
variable {handles : List UInt32} {s s' : Distribution} {storageid handle : UInt32} {j k : Nat}

theorem storageAt_eq (oinfos : List PTPObjectInfo) (j : Nat) :
    storageAt oinfos j = (storages oinfos).getD j ptpCanonDirNone := rfl

theorem findHandler_eq_some (h : findHandler handles handle = some k) :
    handles[k]? = some handle := by
  obtain ⟨hlt, hget, -⟩ := List.findIdx?_eq_some_iff_getElem.mp h
  rw [List.getElem?_eq_getElem hlt, of_decide_eq_true hget]

theorem pass_tracks (hlength : handles.length = s.oinfos.length)
    (hfrom : storageAt s.oinfos j = storageid) (hset : storageid ≠ ptpCanonDirNone)
    (hfind : findHandler handles handle = some k) :
    ∃ s', s.pass handles storageid handle = some s' ∧ Tracks [(j, k)] s s' := by
  obtain ⟨hlt, -⟩ := List.getElem?_eq_some_iff.mp (findHandler_eq_some hfind)
  have hk : k < (storages s.oinfos).length := by
    rw [length_storages]
    omega
  have hget : (storages s.oinfos)[k]? = some (storageAt s.oinfos k) := by
    rw [storageAt_eq, List.getD_eq_getElem?_getD, List.getElem?_eq_getElem hk]
    rfl
  unfold Distribution.pass
  simp only [hfind]
  by_cases hopen : storageAt s.oinfos k = ptpCanonDirNone
  · rw [if_pos hopen]
    rw [hopen] at hget
    have hfollow : follow ptpCanonDirNone (storages s.oinfos) (j, k) =
        (storages s.oinfos).set k storageid := by
      unfold follow
      rw [← storageAt_eq, hfrom, if_pos ⟨hset, hget⟩]
    refine ⟨_, rfl, bare_setStorage .., ?_, ?_⟩
    · show storages (setStorage s.oinfos k storageid) = _
      rw [storages_setStorage]
      exact hfollow.symm
    · show s.changed + 1 + openCount (setStorage s.oinfos k storageid) = _
      unfold openCount
      rw [storages_setStorage, ← hfollow]
      rcases count_follow (storages s.oinfos) (j, k) with hsame | hless
      · -- The place was open.
        rw [hfollow] at hsame
        have hclosed := congrArg (·[k]?) hsame
        simp only [List.getElem?_set_self hk, hget] at hclosed
        exact absurd (Option.some.inj hclosed) hset
      · omega
  · rw [if_neg hopen]
    refine ⟨s, rfl, rfl, ?_, rfl⟩
    show storages s.oinfos = follow ptpCanonDirNone (storages s.oinfos) (j, k)
    unfold follow
    rw [if_neg]
    intro hpass
    rw [hget] at hpass
    exact hopen (Option.some.inj hpass.2)

theorem Tracks.storageAt {links : List (Nat × Nat)} (h : Tracks links s s')
    (hfrom : storageAt s.oinfos j = storageid) (hset : storageid ≠ ptpCanonDirNone) :
    GPhoto2.storageAt s'.oinfos j = storageid := by
  have hget : (storages s.oinfos)[j]? = some storageid := by
    rw [storageAt_eq, List.getD_eq_getElem?_getD] at hfrom
    cases hget : (storages s.oinfos)[j]? with
    | none =>
      rw [hget] at hfrom
      exact absurd hfrom.symm hset
    | some m =>
      rw [hget] at hfrom
      exact congrArg some hfrom
  rw [storageAt_eq, h.marks, List.getD_eq_getElem?_getD, spread_keeps hget hset]
  rfl

theorem child_tracks (hlength : handles.length = s.oinfos.length)
    (hfrom : GPhoto2.storageAt s.oinfos j = storageid) (hset : storageid ≠ ptpCanonDirNone)
    (cur : CanonDirEntry) :
    Tracks (childLinks handles j cur) s
      (if cur.nextchild ≠ ptpCanonDirNone then
        (s.pass handles storageid cur.nextchild).getD s else s) := by
  unfold childLinks
  by_cases hchild : cur.nextchild ≠ ptpCanonDirNone
  · rw [if_pos hchild, if_pos hchild]
    cases hfind : findHandler handles cur.nextchild with
    | none =>
      unfold Distribution.pass
      rw [hfind]
      exact .refl s
    | some k =>
      obtain ⟨s', hpass, htracks⟩ := pass_tracks hlength hfrom hset hfind
      rw [hpass]
      exact htracks
  · rw [if_neg hchild, if_neg hchild]
    exact .refl s

theorem links_tracks (hlength : handles.length = s.oinfos.length)
    (hfrom : GPhoto2.storageAt s.oinfos j = storageid) (hset : storageid ≠ ptpCanonDirNone)
    (cur : CanonDirEntry) :
    Tracks (objectLinks handles j cur) s (s.links handles storageid cur) := by
  unfold objectLinks Distribution.links
  by_cases hnext : cur.nextid ≠ ptpCanonDirNone
  · rw [if_pos hnext]
    simp only [if_pos hnext]
    cases hfind : findHandler handles cur.nextid with
    | none =>
      -- The entry is left here.
      unfold Distribution.pass
      simp only [hfind]
      exact .refl s
    | some k =>
      obtain ⟨s', hpass, htracks⟩ := pass_tracks hlength hfrom hset hfind
      rw [hpass]
      have hrest := child_tracks (hlength.trans htracks.length_eq.symm)
        (htracks.storageAt hfrom hset) hset cur
      exact htracks.trans hrest
  · rw [if_neg hnext]
    simp only [if_neg hnext]
    exact child_tracks hlength hfrom hset cur

theorem spread_of_open {marks : List UInt32} {links : List (Nat × Nat)}
    (hopen : marks.getD j ptpCanonDirNone = ptpCanonDirNone) (hlinks : ∀ link ∈ links, link.1 = j) :
    spread ptpCanonDirNone links marks = marks := by
  unfold spread
  induction links with
  | nil => rfl
  | cons link links ih =>
    have hsame : follow ptpCanonDirNone marks link = marks := by
      unfold follow
      rw [hlinks link List.mem_cons_self, if_neg fun hpass => hpass.1 hopen]
    rw [foldl_cons, hsame]
    exact ih fun l hl => hlinks l (List.mem_cons_of_mem link hl)

theorem objectLinks_fst (handles : List UInt32) (j : Nat) (cur : CanonDirEntry) :
    ∀ link ∈ objectLinks handles j cur, link.1 = j := by
  have hchild : ∀ link ∈ childLinks handles j cur, link.1 = j := by
    intro link hlink
    unfold childLinks at hlink
    split at hlink
    · split at hlink
      · cases hlink
      · rw [List.mem_singleton.mp hlink]
    · cases hlink
  intro link hlink
  unfold objectLinks at hlink
  split at hlink
  · split at hlink
    · cases hlink
    · rcases mem_cons.mp hlink with rfl | hlink
      · rfl
      · exact hchild link hlink
  · exact hchild link hlink

theorem entry_tracks (hlength : handles.length = s.oinfos.length) (cur : CanonDirEntry) :
    Tracks (linksOf handles cur) s (s.entry handles cur) := by
  unfold linksOf Distribution.entry
  by_cases hobject : cur.isObject = true
  · rw [if_pos hobject, if_pos hobject]
    cases hfind : findHandler handles cur.objectid with
    | none => exact .refl s
    | some j =>
      simp only
      by_cases hopen : GPhoto2.storageAt s.oinfos j = ptpCanonDirNone
      · rw [if_pos hopen]
        refine ⟨rfl, ?_, rfl⟩
        exact (spread_of_open hopen (objectLinks_fst handles j cur)).symm
      · rw [if_neg hopen]
        exact links_tracks hlength rfl hopen cur
  · rw [if_neg hobject, if_neg hobject]
    exact .refl s

theorem round_tracks (hlength : handles.length = s.oinfos.length) (entries : List CanonDirEntry) :
    Tracks (entries.flatMap (linksOf handles)) s
      (entries.foldl (Distribution.entry handles) s) := by
  induction entries generalizing s with
  | nil => exact .refl s
  | cons cur entries ih =>
    have hfirst := entry_tracks hlength cur
    rw [List.flatMap_cons, foldl_cons]
    exact hfirst.trans (ih (hlength.trans hfirst.length_eq.symm))

end

/-! ### The walk -/

/-- Between two lists of marks, some were passed on along links, to all that they lead to. -/
structure Spread (links : List (Nat × Nat)) (marks marks' : List UInt32) : Prop where
  length_eq : marks'.length = marks.length
  origin : ∀ j m, marks'[j]? = some m → m ≠ ptpCanonDirNone →
    ∃ i, marks[i]? = some m ∧ Way links i j
  reached : ∀ i j m, marks[i]? = some m → m ≠ ptpCanonDirNone → Way links i j →
    ∃ m', marks'[j]? = some m' ∧ m' ≠ ptpCanonDirNone

section
variable {links : List (Nat × Nat)} {marks : List UInt32}

theorem spread_of_unchanged (hends : ∀ link ∈ links, link.2 < marks.length)
    (hcount : (spread ptpCanonDirNone links marks).count ptpCanonDirNone =
      marks.count ptpCanonDirNone) :
    Spread links marks (spread ptpCanonDirNone links marks) := by
  obtain ⟨hsame, hlinks⟩ := follow_eq_of_count hcount
  rw [hsame]
  refine ⟨rfl, fun j m hj _ => ⟨j, hj, .refl⟩, ?_⟩
  intro i j m hi hm hway
  exact marked_of_way hlinks hends hi hm hway

/-- A round that changes all marks but one is the last one, too: none is missing. -/
theorem spread_of_all (hends : ∀ link ∈ links, link.2 < marks.length)
    (hless : (spread ptpCanonDirNone links marks).count ptpCanonDirNone <
      marks.count ptpCanonDirNone)
    (hall : marks.count ptpCanonDirNone -
      (spread ptpCanonDirNone links marks).count ptpCanonDirNone = marks.length - 1) :
    Spread links marks (spread ptpCanonDirNone links marks) := by
  have hle : marks.count ptpCanonDirNone ≤ marks.length := List.count_le_length
  refine ⟨length_spread links marks,
    fun j m hj hm => spread_origin (fun link hlink => hlink) hj hm, ?_⟩
  intro i j m hi hm hway
  -- The mark at the start is one that was there before.
  have hstart : marks.count ptpCanonDirNone < marks.length := by
    rcases Nat.lt_or_eq_of_le hle with hlt | heq
    · exact hlt
    · have hmem := mem_of_getElem? hi
      exact absurd (List.count_eq_length.mp heq m hmem).symm hm
  have hzero : (spread ptpCanonDirNone links marks).count ptpCanonDirNone = 0 := by omega
  have hj : j < (spread ptpCanonDirNone links marks).length := by
    rw [length_spread]
    rcases Relation.ReflTransGen.cases_tail hway with rfl | ⟨k, -, hlink⟩
    · exact (List.getElem?_eq_some_iff.mp hi).1
    · exact hends _ hlink
  refine ⟨_, List.getElem?_eq_getElem hj, ?_⟩
  intro hopen
  have hmem := List.getElem_mem hj
  rw [hopen] at hmem
  exact List.count_eq_zero.mp hzero hmem

theorem Spread.trans_round {marks' : List UInt32}
    (h : Spread links (spread ptpCanonDirNone links marks) marks') : Spread links marks marks' := by
  refine ⟨h.length_eq.trans (length_spread links marks), ?_, ?_⟩
  · intro j m hj hm
    obtain ⟨i, hi, hway⟩ := h.origin j m hj hm
    obtain ⟨i', hi', hway'⟩ := spread_origin (fun link hlink => hlink) hi hm
    exact ⟨i', hi', hway'.trans hway⟩
  · intro i j m hi hm hway
    exact h.reached i j m (spread_keeps hi hm links) hm hway

end

/-- The walk ends, with the same object infos however many rounds it may take. -/
theorem distributeStorage_ends {handles : List UInt32} {entries : List CanonDirEntry}
    (hends : ∀ link ∈ entries.flatMap (linksOf handles), link.2 < handles.length)
    {oinfos : List PTPObjectInfo} (hlength : handles.length = oinfos.length) :
    ∃ oinfos', (∀ rounds, openCount oinfos < rounds →
        distributeStorage handles entries rounds oinfos = some oinfos') ∧
      oinfos'.map PTPObjectInfo.bare = oinfos.map PTPObjectInfo.bare ∧
      Spread (entries.flatMap (linksOf handles)) (storages oinfos) (storages oinfos') := by
  induction hcount : openCount oinfos using Nat.strongRecOn generalizing oinfos with
  | ind n ih =>
    obtain ⟨s, hs⟩ : ∃ s, entries.foldl (Distribution.entry handles) ⟨oinfos, 0⟩ = s := ⟨_, rfl⟩
    have hround := round_tracks (s := ⟨oinfos, 0⟩) hlength entries
    rw [hs] at hround
    obtain ⟨hbare, hmarks, hchanged⟩ := hround
    simp only at hbare hmarks hchanged
    have hends' : ∀ link ∈ entries.flatMap (linksOf handles),
        link.2 < (storages oinfos).length := by
      intro link hlink
      rw [length_storages, ← hlength]
      exact hends link hlink
    have hopen : openCount s.oinfos =
        (spread ptpCanonDirNone (entries.flatMap (linksOf handles)) (storages oinfos)).count
          ptpCanonDirNone := by
      unfold openCount
      rw [hmarks]
    have hstep : ∀ rounds, distributeStorage handles entries (rounds + 1) oinfos =
        if s.changed = 0 ∨ s.changed = handles.length - 1 then some s.oinfos
        else distributeStorage handles entries rounds s.oinfos := by
      intro rounds
      rw [distributeStorage, hs]
    by_cases hstop : s.changed = 0 ∨ s.changed = handles.length - 1
    · refine ⟨s.oinfos, ?_, hbare, ?_⟩
      · intro rounds hrounds
        obtain ⟨rounds, rfl⟩ : ∃ r, rounds = r + 1 := ⟨rounds - 1, by omega⟩
        rw [hstep, if_pos hstop]
      · rw [hmarks]
        by_cases hzero : s.changed = 0
        · refine spread_of_unchanged hends' ?_
          rw [← hopen]
          show openCount s.oinfos = openCount oinfos
          omega
        · have hall : s.changed = handles.length - 1 := hstop.resolve_left hzero
          refine spread_of_all hends' ?_ ?_
          · rw [← hopen]
            show openCount s.oinfos < openCount oinfos
            omega
          · rw [← hopen, length_storages, ← hlength, ← hall]
            show openCount oinfos - openCount s.oinfos = s.changed
            omega
    · have hless : openCount s.oinfos < n := by omega
      have hlength' : handles.length = s.oinfos.length := by
        have := congrArg List.length hbare
        simp only [length_map] at this
        omega
      obtain ⟨oinfos', hrun, hbare', hspread⟩ := ih _ hless hlength' rfl
      refine ⟨oinfos', ?_, hbare'.trans hbare, ?_⟩
      · intro rounds hrounds
        obtain ⟨rounds, rfl⟩ : ∃ r, rounds = r + 1 := ⟨rounds - 1, by omega⟩
        rw [hstep, if_neg hstop]
        exact hrun rounds (by omega)
      · rw [hmarks] at hspread
        exact hspread.trans_round

/-! ### The storages -/

section
variable {handles : List UInt32} {oinfos : List PTPObjectInfo} {j : Nat}

theorem storages_rootStorage (handles : List UInt32) (oinfos : List PTPObjectInfo)
    (cur : CanonDirEntry) :
    (storages (rootStorage handles oinfos cur) = storages oinfos ∧
      (cur.isObject = false → findHandler handles cur.nextchild = none)) ∨
    ∃ j, cur.isObject = false ∧ findHandler handles cur.nextchild = some j ∧
      storages (rootStorage handles oinfos cur) = (storages oinfos).set j cur.storageid := by
  unfold rootStorage
  by_cases hobject : cur.isObject = true
  · rw [if_pos hobject, hobject]
    exact .inl ⟨rfl, fun h => by cases h⟩
  · rw [if_neg hobject]
    have hroot : cur.isObject = false := Bool.eq_false_iff.mpr hobject
    cases hfind : findHandler handles cur.nextchild with
    | none => exact .inl ⟨rfl, fun _ => rfl⟩
    | some j => exact .inr ⟨j, hroot, rfl, storages_setStorage ..⟩

theorem bare_rootStorages (entries : List CanonDirEntry) (oinfos : List PTPObjectInfo) :
    (entries.foldl (rootStorage handles) oinfos).map PTPObjectInfo.bare =
      oinfos.map PTPObjectInfo.bare := by
  induction entries generalizing oinfos with
  | nil => rfl
  | cons cur entries ih =>
    rw [foldl_cons, ih]
    unfold rootStorage
    split
    · rfl
    · split
      · rfl
      · exact bare_setStorage ..

theorem rootStorages_origin {all entries : List CanonDirEntry} (hsub : ∀ e ∈ entries, e ∈ all)
    (hbefore : ∀ j m, (storages oinfos)[j]? = some m → m ≠ ptpCanonDirNone →
      ∃ root ∈ all, root.isObject = false ∧ findHandler handles root.nextchild = some j ∧
        m = root.storageid) :
    ∀ j m, (storages (entries.foldl (rootStorage handles) oinfos))[j]? = some m →
      m ≠ ptpCanonDirNone →
      ∃ root ∈ all, root.isObject = false ∧ findHandler handles root.nextchild = some j ∧
        m = root.storageid := by
  induction entries generalizing oinfos with
  | nil => exact hbefore
  | cons cur entries ih =>
    rw [foldl_cons]
    refine ih (fun e he => hsub e (List.mem_cons_of_mem cur he)) ?_
    intro j m hj hm
    rcases storages_rootStorage handles oinfos cur with ⟨hsame, -⟩ | ⟨k, hroot, hfind, hset⟩
    · rw [hsame] at hj
      exact hbefore j m hj hm
    · rw [hset] at hj
      by_cases hkj : k = j
      · subst hkj
        rw [List.getElem?_set_self' (a := cur.storageid)] at hj
        obtain ⟨_, -, rfl⟩ := Option.map_eq_some_iff.mp hj
        exact ⟨cur, hsub cur List.mem_cons_self, hroot, hfind, rfl⟩
      · rw [List.getElem?_set_ne hkj] at hj
        exact hbefore j m hj hm

/-- The place has a storage. -/
def Marked (oinfos : List PTPObjectInfo) (j : Nat) : Prop :=
  ∃ m, (storages oinfos)[j]? = some m ∧ m ≠ ptpCanonDirNone

theorem Marked.rootStorage (h : Marked oinfos j) (cur : CanonDirEntry) :
    Marked (rootStorage handles oinfos cur) j := by
  obtain ⟨m, hj, hm⟩ := h
  unfold Marked
  rcases storages_rootStorage handles oinfos cur with ⟨hsame, -⟩ | ⟨k, hroot, -, hset⟩
  · rw [hsame]
    exact ⟨m, hj, hm⟩
  · rw [hset]
    by_cases hkj : k = j
    · subst hkj
      rw [List.getElem?_set_self (List.getElem?_eq_some_iff.mp hj).1]
      exact ⟨_, rfl, of_decide_eq_false hroot⟩
    · rw [List.getElem?_set_ne hkj]
      exact ⟨m, hj, hm⟩

theorem Marked.rootStorages (h : Marked oinfos j) (entries : List CanonDirEntry) :
    Marked (entries.foldl (GPhoto2.rootStorage handles) oinfos) j := by
  induction entries generalizing oinfos with
  | nil => exact h
  | cons cur entries ih => exact ih (h.rootStorage cur)

theorem rootStorages_marked (hlength : handles.length = oinfos.length)
    {entries : List CanonDirEntry} {root : CanonDirEntry} (hroot : root ∈ entries)
    (hnot : root.isObject = false) (hfind : findHandler handles root.nextchild = some j) :
    Marked (entries.foldl (rootStorage handles) oinfos) j := by
  induction entries generalizing oinfos with
  | nil => cases hroot
  | cons cur entries ih =>
    rw [foldl_cons]
    rcases mem_cons.mp hroot with rfl | hroot
    · refine Marked.rootStorages ?_ entries
      unfold Marked
      rcases storages_rootStorage handles oinfos root with ⟨-, hnone⟩ | ⟨k, -, hk, hset⟩
      · rw [hnone hnot] at hfind
        cases hfind
      · rw [hk] at hfind
        obtain rfl := Option.some.inj hfind
        have hlt := (List.getElem?_eq_some_iff.mp (findHandler_eq_some hk)).1
        rw [hset, List.getElem?_set_self (by rw [length_storages]; omega)]
        exact ⟨_, rfl, of_decide_eq_false hnot⟩
    · refine ih ?_ hroot
      have hbare := congrArg List.length (@bare_rootStorages handles [cur] oinfos)
      simp only [length_map, foldl_cons, List.foldl_nil] at hbare
      omega

end

/-! ### Ways and entries -/

section
variable {entries : List CanonDirEntry}

/-- The handles of the objects. -/
def handlesOf (entries : List CanonDirEntry) : List UInt32 :=
  (objectsOf entries).map CanonDirEntry.objectid

variable {e : CanonDirEntry}

theorem mem_objectsOf :
    e ∈ objectsOf entries ↔ e ∈ entries ∧ e.isObject = true := List.mem_filter

variable {j : Nat}

theorem object_of_findHandler {handle : UInt32}
    (h : findHandler (handlesOf entries) handle = some j) :
    ∃ e, (objectsOf entries)[j]? = some e ∧ e.objectid = handle := by
  have hget := findHandler_eq_some h
  unfold handlesOf at hget
  rw [getElem?_map] at hget
  exact Option.map_eq_some_iff.mp hget

variable (hdistinct : (handlesOf entries).Nodup)
include hdistinct

theorem findHandler_of_object (h : (objectsOf entries)[j]? = some e) :
    findHandler (handlesOf entries) e.objectid = some j := by
  have hget : (handlesOf entries)[j]? = some e.objectid := by
    unfold handlesOf
    rw [getElem?_map, h]
    rfl
  obtain ⟨hlt, heq⟩ := List.getElem?_eq_some_iff.mp hget
  refine List.findIdx?_eq_some_iff_getElem.mpr ⟨hlt, decide_eq_true heq.symm, ?_⟩
  intro i hij hfound
  have hi : (handlesOf entries)[i] = (handlesOf entries)[j] := by
    rw [heq]
    exact (of_decide_eq_true hfound).symm
  exact List.pairwise_iff_getElem.mp hdistinct i j (by omega) hlt hij hi

theorem object_of_mem (he : e ∈ objectsOf entries)
    (h : findHandler (handlesOf entries) e.objectid = some j) :
    (objectsOf entries)[j]? = some e := by
  obtain ⟨i, hi⟩ := List.mem_iff_getElem?.mp he
  rw [findHandler_of_object hdistinct hi] at h
  obtain rfl := Option.some.inj h
  exact hi

theorem findHandler_isSome (he : e ∈ objectsOf entries) :
    ∃ j, findHandler (handlesOf entries) e.objectid = some j := by
  obtain ⟨i, hi⟩ := List.mem_iff_getElem?.mp he
  exact ⟨i, findHandler_of_object hdistinct hi⟩

omit hdistinct in
theorem mem_childLinks {handles : List UInt32} {i k : Nat} :
    (i, k) ∈ childLinks handles j e ↔
      i = j ∧ e.nextchild ≠ ptpCanonDirNone ∧ findHandler handles e.nextchild = some k := by
  unfold childLinks
  by_cases hchild : e.nextchild ≠ ptpCanonDirNone
  · rw [if_pos hchild]
    cases hfind : findHandler handles e.nextchild with
    | none => simp
    | some k' => simp [hchild, eq_comm]
  · rw [if_neg hchild]
    simp [hchild]

omit hdistinct in
theorem mem_linksOf {handles : List UInt32} {i k : Nat} :
    (i, k) ∈ linksOf handles e ↔
      e.isObject = true ∧ findHandler handles e.objectid = some i ∧
      ((e.nextid ≠ ptpCanonDirNone ∧ findHandler handles e.nextid = some k) ∨
        (e.nextchild ≠ ptpCanonDirNone ∧ findHandler handles e.nextchild = some k ∧
          (e.nextid = ptpCanonDirNone ∨ ∃ k', findHandler handles e.nextid = some k'))) := by
  unfold linksOf
  by_cases hobject : e.isObject = true
  · rw [if_pos hobject]
    cases hfind : findHandler handles e.objectid with
    | none => simp
    | some j =>
      simp only
      unfold objectLinks
      by_cases hnext : e.nextid ≠ ptpCanonDirNone
      · rw [if_pos hnext]
        cases hfindnext : findHandler handles e.nextid with
        | none => simp [hnext]
        | some k' =>
          simp only [mem_cons, Prod.mk.injEq, mem_childLinks]
          simp [hobject, hnext]
          tauto
      · rw [if_neg hnext]
        have hend : e.nextid = ptpCanonDirNone := not_not.mp hnext
        simp only [mem_childLinks]
        simp [hobject, hend]
        tauto
  · rw [if_neg hobject]
    simp [hobject]

theorem way_reaches {root : CanonDirEntry} {i : Nat}
    (hchild : findHandler (handlesOf entries) root.nextchild = some i)
    (hway : Way (entries.flatMap (linksOf (handlesOf entries))) i j) :
    ∃ e, (objectsOf entries)[j]? = some e ∧ Reaches entries CanonDirEntry.LinksTo root e := by
  induction hway with
  | refl =>
    obtain ⟨e, he, hid⟩ := object_of_findHandler hchild
    exact ⟨e, he, .child (mem_of_getElem? he) hid.symm⟩
  | tail _ hlink ih =>
    rename_i j k _
    obtain ⟨e, he, hreach⟩ := ih
    obtain ⟨cur, hcur, hlink⟩ := mem_flatMap.mp hlink
    obtain ⟨hobject, hfind, hends⟩ := mem_linksOf.mp hlink
    -- The entry the link belongs to is the object that has been reached.
    have hsame := object_of_mem hdistinct (mem_objectsOf.mpr ⟨hcur, hobject⟩) hfind
    rw [he] at hsame
    obtain rfl := Option.some.inj hsame
    rcases hends with ⟨hnext, hfind⟩ | ⟨hnext, hfind, -⟩
    · obtain ⟨e', he', hid⟩ := object_of_findHandler hfind
      exact ⟨e', he', .step hreach (mem_of_getElem? he') (.inl ⟨hnext, hid.symm⟩)⟩
    · obtain ⟨e', he', hid⟩ := object_of_findHandler hfind
      exact ⟨e', he', .step hreach (mem_of_getElem? he') (.inr ⟨hnext, hid.symm⟩)⟩

theorem mem_links_of_followsTo {e' : CanonDirEntry} (he : e ∈ objectsOf entries)
    (hlink : e.FollowsTo entries e') {k : Nat}
    (hj : findHandler (handlesOf entries) e.objectid = some j)
    (hk : findHandler (handlesOf entries) e'.objectid = some k) :
    (j, k) ∈ entries.flatMap (linksOf (handlesOf entries)) := by
  obtain ⟨hmem, hobject⟩ := mem_objectsOf.mp he
  refine mem_flatMap.mpr ⟨e, hmem, mem_linksOf.mpr ⟨hobject, hj, ?_⟩⟩
  rcases hlink with ⟨hnext, hid⟩ | ⟨hchild, hid, hlisted⟩
  · exact .inl ⟨hnext, hid ▸ hk⟩
  · refine .inr ⟨hchild, hid ▸ hk, ?_⟩
    rcases hlisted with hend | ⟨o, ho, hoid⟩
    · exact .inl hend
    · right
      rw [hoid]
      exact findHandler_isSome hdistinct ho

theorem way_of_reaches {root : CanonDirEntry}
    (hreach : Reaches entries (CanonDirEntry.FollowsTo entries) root e) :
    e ∈ objectsOf entries ∧ ∀ k, findHandler (handlesOf entries) e.objectid = some k →
      ∃ i, findHandler (handlesOf entries) root.nextchild = some i ∧
        Way (entries.flatMap (linksOf (handlesOf entries))) i k := by
  induction hreach with
  | child he hchild =>
    refine ⟨he, ?_⟩
    intro k hk
    rw [hchild]
    exact ⟨k, hk, .refl⟩
  | step _ he' hlink ih =>
    obtain ⟨he, hways⟩ := ih
    refine ⟨he', ?_⟩
    intro k hk
    obtain ⟨j, hj⟩ := findHandler_isSome hdistinct he
    obtain ⟨i, hi, hway⟩ := hways j hj
    exact ⟨i, hi, hway.tail (mem_links_of_followsTo hdistinct he hlink hj hk)⟩

omit hdistinct in
theorem links_lt {link : Nat × Nat}
    (hlink : link ∈ entries.flatMap (linksOf (handlesOf entries))) :
    link.2 < (handlesOf entries).length := by
  obtain ⟨e, -, hlink⟩ := mem_flatMap.mp hlink
  obtain ⟨i, k⟩ := link
  obtain ⟨-, -, hends⟩ := mem_linksOf.mp hlink
  rcases hends with ⟨-, hfind⟩ | ⟨-, hfind, -⟩
  · exact (List.getElem?_eq_some_iff.mp (findHandler_eq_some hfind)).1
  · exact (List.getElem?_eq_some_iff.mp (findHandler_eq_some hfind)).1

/-! ### `ptp_unpack_canon_directory` -/

theorem storageGiven {oinfos oinfos' : List PTPObjectInfo}
    (hlength : (handlesOf entries).length = oinfos.length)
    (hopen : ∀ (j : Nat) (m : UInt32), (storages oinfos)[j]? = some m → m = ptpCanonDirNone)
    (hspread : Spread (entries.flatMap (linksOf (handlesOf entries)))
      (storages (entries.foldl (rootStorage (handlesOf entries)) oinfos)) (storages oinfos'))
    {k : Nat} {oi : PTPObjectInfo} (he : (objectsOf entries)[k]? = some e)
    (hoi : oinfos'[k]? = some oi) : StorageGiven entries e oi.storageID := by
  have hk : (storages oinfos')[k]? = some oi.storageID := by
    unfold storages
    rw [getElem?_map, hoi]
    rfl
  have horigin : oi.storageID ≠ ptpCanonDirNone → ∃ root ∈ entries, root.isObject = false ∧
      Reaches entries CanonDirEntry.LinksTo root e ∧ oi.storageID = root.storageid := by
    intro hset
    obtain ⟨i, hi, hway⟩ := hspread.origin k _ hk hset
    have hall : ∀ e ∈ entries, e ∈ entries := fun _ he => he
    have hroots := @rootStorages_origin (handlesOf entries) oinfos entries entries hall
      fun j m hj hm => absurd (hopen j m hj) hm
    obtain ⟨root, hroot, hnot, hfind, hstorage⟩ := hroots i _ hi hset
    obtain ⟨e', he', hreach⟩ := way_reaches hdistinct hfind hway
    rw [he] at he'
    obtain rfl := Option.some.inj he'
    exact ⟨root, hroot, hnot, hreach, hstorage⟩
  have hreached : ∀ root ∈ entries, root.isObject = false →
      Reaches entries (CanonDirEntry.FollowsTo entries) root e →
      oi.storageID ≠ ptpCanonDirNone := by
    intro root hroot hnot hreach
    obtain ⟨-, hways⟩ := way_of_reaches hdistinct hreach
    obtain ⟨i, hi, hway⟩ := hways k (findHandler_of_object hdistinct he)
    obtain ⟨m, hm, hset⟩ := rootStorages_marked hlength hroot hnot hi
    obtain ⟨m', hm', hset'⟩ := hspread.reached i k m hm hset hway
    rw [hk] at hm'
    obtain rfl := Option.some.inj hm'
    exact hset'
  refine ⟨horigin, hreached, ?_⟩
  intro root hroot hnot hreach hsame
  obtain ⟨root', hroot', hnot', hreach', hstorage⟩ :=
    horigin (hreached root hroot hnot hreach)
  rw [hstorage]
  exact hsame root' hroot' hnot' hreach'

end

/-- The object info of an entry with a name. -/
def infoOf (e : CanonDirEntry) : PTPObjectInfo := e.objectInfo.getD .zero

theorem objectInfo_eq {e : CanonDirEntry} (h : e.name.isSome = true) :
    e.objectInfo = some (infoOf e) ∧ (infoOf e).bare = infoOf e ∧
      (infoOf e).parentObject = e.parentid ∧ (infoOf e).storageID = ptpCanonDirNone := by
  obtain ⟨name, hname⟩ := Option.isSome_iff_exists.mp h
  unfold infoOf CanonDirEntry.objectInfo
  rw [hname]
  exact ⟨rfl, rfl, rfl, rfl⟩

/-- `ptp_unpack_canon_directory` ends, and gives each object the storage that its links lead
from. The parent is the one that the entry names. -/
theorem ptpUnpackCanonDirectory_distributes (params : PTPParams) {dir : List UInt8} {cnt : Nat}
    {entries : List CanonDirEntry} (hread : canonDirEntries params dir cnt = some entries)
    (hnames : ∀ e ∈ entries, e.isObject = true → e.name.isSome = true)
    (hdistinct : ((objectsOf entries).map CanonDirEntry.objectid).Nodup) :
    ∃ d, (∀ rounds, (objectsOf entries).length < rounds →
        ptpUnpackCanonDirectory params dir cnt rounds = some d) ∧ Distributed entries d := by
  have hnamed : ∀ e ∈ objectsOf entries, e.name.isSome = true := by
    intro e he
    obtain ⟨hmem, hobject⟩ := mem_objectsOf.mp he
    exact hnames e hmem hobject
  have hinfos := mapM_of_forall fun e he => (objectInfo_eq (hnamed e he)).1
  have hrooted := @bare_rootStorages (handlesOf entries) entries ((objectsOf entries).map infoOf)
  have hlength : (handlesOf entries).length =
      (entries.foldl (rootStorage (handlesOf entries))
        ((objectsOf entries).map infoOf)).length := by
    have hlength := congrArg List.length hrooted
    simp only [length_map] at hlength
    rw [hlength]
    exact length_map ..
  obtain ⟨oinfos, hrun, hbare, hspread⟩ := distributeStorage_ends
    (fun link hlink => links_lt hlink) hlength
  rw [hrooted] at hbare
  refine ⟨⟨handlesOf entries, oinfos, (objectsOf entries).map CanonDirEntry.flags⟩, ?_,
    rfl, rfl, ?_, ?_⟩
  · intro rounds hrounds
    have hcount : openCount (entries.foldl (rootStorage (handlesOf entries))
        ((objectsOf entries).map infoOf)) < rounds := by
      have hle : openCount (entries.foldl (rootStorage (handlesOf entries))
          ((objectsOf entries).map infoOf)) ≤ _ := List.count_le_length
      rw [length_storages, ← hlength] at hle
      have hsame : (handlesOf entries).length = (objectsOf entries).length := length_map ..
      omega
    unfold ptpUnpackCanonDirectory
    rw [hread]
    show ((objectsOf entries).mapM CanonDirEntry.objectInfo).bind (fun oinfos =>
      (distributeStorage (handlesOf entries) entries rounds
        (entries.foldl (rootStorage (handlesOf entries)) oinfos)).bind _) = _
    rw [hinfos, Option.bind_some, hrun rounds hcount]
    rfl
  · have hsame := congrArg List.length hbare
    simpa using hsame
  · intro k e he
    have hoi : (oinfos.map PTPObjectInfo.bare)[k]? = some (infoOf e) := by
      rw [hbare, map_map, getElem?_map, he]
      exact congrArg some (objectInfo_eq (hnamed e (mem_of_getElem? he))).2.1
    rw [getElem?_map] at hoi
    obtain ⟨oi, hget, hoi⟩ := Option.map_eq_some_iff.mp hoi
    obtain ⟨hinfo, -, hparent, -⟩ := objectInfo_eq (hnamed e (mem_of_getElem? he))
    refine ⟨oi, hget, hoi ▸ hinfo, ?_, ?_⟩
    · rw [← hparent, ← hoi]
      rfl
    · have hopen : ∀ (j : Nat) (m : UInt32),
          (storages ((objectsOf entries).map infoOf))[j]? = some m → m = ptpCanonDirNone := by
        intro j m hj
        unfold storages at hj
        rw [map_map, getElem?_map] at hj
        obtain ⟨e', he', rfl⟩ := Option.map_eq_some_iff.mp hj
        exact (objectInfo_eq (hnamed e' (mem_of_getElem? he'))).2.2.2
      have hinfoLength : (handlesOf entries).length = ((objectsOf entries).map infoOf).length := by
        rw [length_map]
        exact length_map ..
      exact storageGiven hdistinct hinfoLength hopen hspread he hget

/-! ### A block -/

/-- An entry with its links and nothing else. -/
def linkEntry (objectid parentid nextid nextchild storageid : UInt32) : CanonDirEntry where
  ofc := 0
  objectid := objectid
  parentid := parentid
  nextid := nextid
  nextchild := nextchild
  storageid := storageid
  name := some []
  flags := 0
  size := 0
  unixtime := 0
  thumbsize := 0
  width := 0
  height := 0

/-- Its bytes. -/
def linkEntryBytes (objectid parentid nextid nextchild storageid : UInt32) : List UInt8 :=
  let htod32a := htod32ap ⟨.little, none, false⟩
  List.replicate 8 0 ++ htod32a objectid ++ htod32a parentid ++ List.replicate 4 0 ++
    htod32a nextid ++ htod32a nextchild ++ htod32a storageid ++ List.replicate 44 0

/-- A storage with a directory, in which there is an object that names another parent. -/
def cardBlock : List UInt8 :=
  linkEntryBytes 0 0 0xffffffff 0x10 1 ++
    linkEntryBytes 0x10 0 0xffffffff 0x20 0xffffffff ++
    linkEntryBytes 0x20 0x99 0xffffffff 0xffffffff 0xffffffff

def cardEntries : List CanonDirEntry :=
  [linkEntry 0 0 0xffffffff 0x10 1, linkEntry 0x10 0 0xffffffff 0x20 0xffffffff,
    linkEntry 0x20 0x99 0xffffffff 0xffffffff 0xffffffff]

theorem ptpUnpackCanonDirectory_distributes_card :
    ∃ d, (∀ rounds, (objectsOf cardEntries).length < rounds →
        ptpUnpackCanonDirectory ⟨.little, none, false⟩ cardBlock 3 rounds = some d) ∧
      Distributed cardEntries d :=
  ptpUnpackCanonDirectory_distributes ⟨.little, none, false⟩ (by decide +kernel)
    (by decide +kernel) (by decide +kernel)

/-- The parent of an object need not be the directory whose child it is. -/
theorem parent_not_of_links :
    ¬∀ (params : PTPParams) (dir : List UInt8) (cnt rounds : Nat) (entries : List CanonDirEntry)
      (d : CanonDirectory), canonDirEntries params dir cnt = some entries →
      ((objectsOf entries).map CanonDirEntry.objectid).Nodup →
      ptpUnpackCanonDirectory params dir cnt rounds = some d →
      ∀ e ∈ objectsOf entries, e.nextchild ≠ ptpCanonDirNone → ∀ k,
        findHandler d.handles e.nextchild = some k →
        (d.oinfos[k]?).map PTPObjectInfo.parentObject = some e.objectid := by
  intro hclaim
  obtain ⟨d, hd⟩ : ∃ d, ptpUnpackCanonDirectory ⟨.little, none, false⟩ cardBlock 3 3 = some d :=
    Option.isSome_iff_exists.mp (by decide +kernel)
  have hparent := hclaim ⟨.little, none, false⟩ cardBlock 3 3 cardEntries d (by decide +kernel)
    (by decide +kernel) hd (linkEntry 0x10 0 0xffffffff 0x20 0xffffffff) (by decide +kernel)
    (by decide) 1
  have hrun : (ptpUnpackCanonDirectory ⟨.little, none, false⟩ cardBlock 3 3).map (fun d =>
      (findHandler d.handles 0x20, (d.oinfos[1]?).map PTPObjectInfo.parentObject)) =
        some (some 1, some 0x99) := by decide +kernel
  rw [hd] at hrun
  obtain ⟨hfind, hinfo⟩ := Prod.mk.inj (Option.some.inj hrun)
  rw [hparent hfind] at hinfo
  exact absurd hinfo (by decide)

end GPhoto2
