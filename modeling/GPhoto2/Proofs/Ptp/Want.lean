import GPhoto2.Proofs.Ptp.ObjectCache
import GPhoto2.Ptp.ObjectWant

/-!
# `GPhoto2.Proofs.Ptp.Want`: what `ptp_object_want` does to the array

The array may be in any order here, and the camera may answer anything.

The handle is found, or a new entry is put between two neighbours that are not it
(`ptpObjectFindOrInsert_cases`). Then the entry learns what the requests answered, or it leaves
the cache because its object info could not be read. All other entries stay.
-/

set_option autoImplicit false

namespace GPhoto2

open Lib

/-! ### The search -/

section
variable {objects : List PTPObject} {handle : UInt32}

/-- No neighbour of the place in front of the index `k` has the handle. -/
def FreeGap (objects : List PTPObject) (handle : UInt32) (k : Nat) : Prop :=
  k ≤ objects.length ∧ (0 < k → oidAt objects (k - 1) ≠ handle) ∧
    (k < objects.length → oidAt objects k ≠ handle)

/-- The array with an object inserted. -/
def insertObject (objects : List PTPObject) (k : Nat) (ob : PTPObject) : List PTPObject :=
  objects.take k ++ ob :: objects.drop k

theorem InsertRange.freeGap {first last : Nat} (hrange : InsertRange objects handle first last)
    (hclose : last - first ≤ 1) (hfirst : oidAt objects first ≠ handle)
    (hlast : oidAt objects last ≠ handle) :
    FreeGap objects handle (GPhoto2.insertAt objects handle first last) := by
  obtain ⟨hle, hlt, hbelow, habove⟩ := hrange
  have hfirst' : (oidAt objects first).toNat ≠ handle.toNat :=
    fun he => hfirst (UInt32.toNat_inj.mp he)
  simp only [FreeGap, GPhoto2.insertAt, UInt32.lt_iff_toNat_lt]
  split_ifs with h₁ h₂
  · obtain ⟨rfl, -⟩ := h₁
    exact ⟨by omega, by omega, fun _ => hfirst⟩
  · refine ⟨by omega, fun _ => ?_, by omega⟩
    rw [Nat.add_sub_cancel]
    exact hlast
  · have hnext : last = first + 1 := by
      rcases Nat.lt_or_eq_of_le hle with hlt' | rfl
      · omega
      · by_cases hzero : first = 0
        · subst hzero
          omega
        · have := hbelow (by omega)
          by_cases hend : first < objects.length - 1
          · have := habove hend
            omega
          · omega
    subst hnext
    exact ⟨by omega, fun _ => by rw [Nat.add_sub_cancel]; exact hfirst, fun _ => hlast⟩

/-- In an array of any order, the handle is found, or a new entry is put between two
neighbours that are not it. -/
theorem ptpObjectFindOrInsert_cases (objects : List PTPObject) (hne : handle ≠ 0) :
    (∃ i, i < objects.length ∧ oidAt objects i = handle ∧
      ptpObjectFindOrInsert objects handle = some (i, objects)) ∨
    ∃ k, FreeGap objects handle k ∧
      ptpObjectFindOrInsert objects handle = some (k, insertObject objects k (.new handle)) := by
  obtain hfound | ⟨rfl, hrun⟩ | ⟨first, last, hrange, hclose, hfirst, hlast, hrun⟩ :=
    ptpObjectFindOrInsert_ends objects hne
  · exact Or.inl hfound
  · exact Or.inr ⟨0, ⟨by simp, by simp, by simp⟩, hrun⟩
  · exact Or.inr ⟨_, hrange.freeGap hclose hfirst hlast, hrun⟩

end

/-! ### What an entry learns -/

section
variable {δ : Type} (dev : PTPDevice δ)

/-- What the entry of an object makes of the answer to a request about it. -/
def PTPObject.learn (handle : UInt32) (ob : PTPObject) : Exchange → PTPObject
  | ⟨.getObjectInfo _, .ok oi⟩ => (ob.withInfo handle oi).markInfo
  | ⟨.canonGetObjectInfoEx .., .ok (entry :: _)⟩ => { ob with canonFlags := entry.flags.toUInt32 }
  | ⟨.mtpGetObjPropList _, .ok props⟩ =>
    { ob with
      oi := if dev.flag deviceFlagProplistOverridesOi then
          props.foldl (PTPObjectInfo.override handle) ob.oi
        else ob.oi
      flags := { ob.flags with mtpPropListLoaded := true } }
  | _ => ob

/-- The requests `ptp_object_want` makes about an object. -/
def Exchange.IsAbout (handle : UInt32) (x : Exchange) : Prop :=
  x.request = .getObjectInfo handle ∨ x.request = .mtpGetObjPropList handle ∨
    ∃ store parent, x.request = .canonGetObjectInfoEx store 0 parent handle

@[simp] theorem PTPObject.learn_oid (handle : UInt32) (ob : PTPObject) (x : Exchange) :
    (ob.learn dev handle x).oid = ob.oid := by
  unfold PTPObject.learn
  split <;> rfl

/-- What the entry of an object makes of the answers to several requests. -/
def PTPObject.learnAll (handle : UInt32) (ob : PTPObject) (xs : List Exchange) : PTPObject :=
  xs.foldl (PTPObject.learn dev handle) ob

@[simp] theorem PTPObject.learnAll_oid (handle : UInt32) (ob : PTPObject)
    (xs : List Exchange) : (ob.learnAll dev handle xs).oid = ob.oid := by
  unfold PTPObject.learnAll
  induction xs generalizing ob with
  | nil => rfl
  | cons x xs ih => simp [ih]

end

/-! ### The requests of `ptp_object_want` -/

@[simp] theorem length_modify_objects (objects : List PTPObject) (i : Nat)
    (f : PTPObject → PTPObject) : (objects.modify i f).length = objects.length :=
  List.length_modify ..

variable {objects : List PTPObject}

theorem objectAt_eq {i : Nat} (h : i < objects.length) :
    objects[i]? = some (objectAt objects i) := by
  rw [objectAt, List.getElem?_eq_getElem h]
  rfl

theorem objectAt_modify {i : Nat} (h : i < objects.length)
    (f : PTPObject → PTPObject) : objectAt (objects.modify i f) i = f (objectAt objects i) := by
  rw [objectAt, List.getElem?_modify_eq, objectAt_eq h]
  rfl

theorem mem_modify {i : Nat} {f : PTPObject → PTPObject}
    {ob : PTPObject} (h : ob ∈ objects.modify i f) :
    ob ∈ objects ∨ i < objects.length ∧ ob = f (objectAt objects i) := by
  obtain ⟨j, hj⟩ := List.mem_iff_getElem?.mp h
  rw [List.getElem?_modify] at hj
  cases hget : objects[j]? with
  | none => simp [hget] at hj
  | some ob' =>
    by_cases hij : i = j
    · subst hij
      right
      refine ⟨(List.getElem?_eq_some_iff.mp hget).1, ?_⟩
      rw [objectAt, hget]
      simpa [hget] using hj.symm
    · left
      have hob : ob' = ob := by simpa [hget, hij] using hj
      rw [← hob]
      exact List.mem_of_getElem? hget

section
variable {δ : Type} {dev : PTPDevice δ} {handle : UInt32} {i : Nat} {w w' w'' : PTPWorld δ}

/-- The answer to a request. -/
def PTPWorld.answer (dev : PTPDevice δ) (w : PTPWorld δ) (r : PTPRequest) :
    Except PTPFailure r.Answer := (dev.respond r w.device).1

/-- The state after a request. -/
def PTPWorld.asked (dev : PTPDevice δ) (w : PTPWorld δ) (r : PTPRequest) : PTPWorld δ :=
  { w with
    device := (dev.respond r w.device).2
    log := w.log ++ [⟨r, w.answer dev r⟩] }

theorem attempt_request_run {α : Type} (r : PTPRequest)
    (k : Except PTPFailure r.Answer → Ptp δ α) (w : PTPWorld δ) :
    (Comp.attempt (dev.request r) >>= k) w = k (w.answer dev r) (w.asked dev r) := rfl

theorem modifyObject_run (i : Nat) (f : PTPObject → PTPObject) (w : PTPWorld δ) :
    modifyObject i f w = some (.ok (), { w with objects := w.objects.modify i f }) := rfl

/-- From `w` to `w'` only requests about an object were made, and only its entry changed: it
learned the answers. -/
def Learns (dev : PTPDevice δ) (handle : UInt32) (i : Nat) (w w' : PTPWorld δ)
    (xs : List Exchange) : Prop :=
  w'.log = w.log ++ xs ∧ (∀ x ∈ xs, x.IsAbout handle) ∧ w'.events = w.events ∧
    w'.objects = w.objects.modify i fun ob => ob.learnAll dev handle xs

theorem Learns.refl (dev : PTPDevice δ) (handle : UInt32) (i : Nat) (w : PTPWorld δ) :
    Learns dev handle i w w [] := by
  refine ⟨by simp, by simp, rfl, ?_⟩
  show w.objects = w.objects.modify i id
  rw [List.modify_id]

theorem Learns.trans {xs ys : List Exchange} (h : Learns dev handle i w w' xs)
    (h' : Learns dev handle i w' w'' ys) : Learns dev handle i w w'' (xs ++ ys) := by
  obtain ⟨hlog, habout, hev, hob⟩ := h
  obtain ⟨hlog', habout', hev', hob'⟩ := h'
  refine ⟨by simp [hlog', hlog], ?_, hev'.trans hev, ?_⟩
  · intro x hx
    rcases List.mem_append.mp hx with hx | hx
    · exact habout x hx
    · exact habout' x hx
  · rw [hob', hob, List.modify_modify_eq]
    congr 1
    funext ob
    simp [PTPObject.learnAll]

/-- One request about the object, and what its entry makes of the answer. -/
theorem Learns.asked {r : PTPRequest} {answer : Except PTPFailure r.Answer}
    {f : PTPObject → PTPObject} (habout : Exchange.IsAbout handle ⟨r, answer⟩)
    (hans : w.answer dev r = answer)
    (hf : (fun ob => PTPObject.learn dev handle ob ⟨r, answer⟩) = f) :
    Learns dev handle i w
      { w.asked dev r with objects := (w.asked dev r).objects.modify i f } [⟨r, answer⟩] := by
  subst hf hans
  refine ⟨rfl, ?_, rfl, rfl⟩
  intro x hx
  rw [List.mem_singleton.mp hx]
  exact habout

theorem Learns.asked_only {r : PTPRequest} {answer : Except PTPFailure r.Answer}
    (habout : Exchange.IsAbout handle ⟨r, answer⟩) (hans : w.answer dev r = answer)
    (hf : (fun ob => PTPObject.learn dev handle ob ⟨r, answer⟩) = id) :
    Learns dev handle i w (w.asked dev r) [⟨r, answer⟩] := by
  have h := Learns.asked (i := i) habout hans hf
  rw [List.modify_id] at h
  exact h

theorem readCanonFlags_run (w : PTPWorld δ) :
    ∃ w' xs, readCanonFlags dev handle i w = some (.ok (), w') ∧
      Learns dev handle i w w' xs ∧
      ∀ ob : PTPObject,
        ob.markInfo.learnAll dev handle xs = (ob.learnAll dev handle xs).markInfo := by
  unfold readCanonFlags
  rw [Comp.get_bind_run, attempt_request_run]
  cases hans : w.answer dev (.canonGetObjectInfoEx (objectAt w.objects i).oi.storageID 0
      (objectAt w.objects i).oi.parentObject handle) with
  | error e =>
    exact ⟨_, _, rfl, Learns.asked_only (by simp [Exchange.IsAbout]) hans rfl, fun _ => rfl⟩
  | ok entries =>
    cases entries with
    | nil =>
      exact ⟨_, _, rfl, Learns.asked_only (by simp [Exchange.IsAbout]) hans rfl, fun _ => rfl⟩
    | cons entry entries =>
      exact ⟨_, _, rfl, Learns.asked (by simp [Exchange.IsAbout]) hans rfl, fun _ => rfl⟩

/-- Reading the object info: the object leaves the cache, or its entry has the info. -/
theorem readObjectInfo_run (dev : PTPDevice δ) (handle : UInt32) (i : Nat) (w : PTPWorld δ) :
    (∃ e, w.answer dev (.getObjectInfo handle) = .error e ∧
      readObjectInfo dev handle i w = some (.error e,
        { w.asked dev (.getObjectInfo handle) with
          objects := ptpRemoveObjectFromCache w.objects handle })) ∨
    ∃ w' xs, readObjectInfo dev handle i w = some (.ok (), w') ∧
      Learns dev handle i w w' xs ∧
      (i < w.objects.length → (objectAt w'.objects i).flags.hasInfo = true) := by
  unfold readObjectInfo
  rw [attempt_request_run]
  cases hans : w.answer dev (.getObjectInfo handle) with
  | error e => exact Or.inl ⟨e, rfl, rfl⟩
  | ok oi =>
    right
    simp only []
    rw [Comp.bind_run_ok (modifyObject_run ..)]
    obtain ⟨w₁, hw₁⟩ : ∃ w₁ : PTPWorld δ, w₁ =
        { w.asked dev (.getObjectInfo handle) with
          objects := (w.asked dev (.getObjectInfo handle)).objects.modify i
            (fun ob => ob.withInfo handle oi) } := ⟨_, rfl⟩
    have hcanon : ∃ w₂ xs, (if dev.vendorExtensionID = ptpVendorCanon ∧
          dev.operationSupported ptpOcCanonGetObjectInfoEx = true
        then readCanonFlags dev handle i else pure ()) w₁ = some (.ok (), w₂) ∧
        Learns dev handle i w₁ w₂ xs ∧
        ∀ ob : PTPObject,
          ob.markInfo.learnAll dev handle xs = (ob.learnAll dev handle xs).markInfo := by
      split
      · exact readCanonFlags_run w₁
      · exact ⟨w₁, [], rfl, Learns.refl dev handle i w₁, fun _ => rfl⟩
    obtain ⟨w₂, xs, hrun, hlearns, hcomm⟩ := hcanon
    rw [← hw₁, Comp.bind_run_ok hrun, modifyObject_run]
    obtain ⟨hlog, habout, hev, hob⟩ := hlearns
    refine ⟨_, ⟨.getObjectInfo handle, .ok oi⟩ :: xs, rfl, ⟨?_, ?_, ?_, ?_⟩, ?_⟩
    · show w₂.log = _
      rw [hlog, hw₁]
      simp [PTPWorld.asked, hans]
    · intro x hx
      rcases List.mem_cons.mp hx with rfl | hx
      · exact Or.inl rfl
      · exact habout x hx
    · show w₂.events = _
      rw [hev, hw₁]
      rfl
    · show w₂.objects.modify i _ = _
      rw [hob, hw₁]
      simp only [List.modify_modify_eq]
      congr 1
      funext ob
      -- The flags are set last, and the Canon flags do not get in the way.
      exact (hcomm (ob.withInfo handle oi)).symm
    · intro hi
      have hi₂ : i < w₂.objects.length := by
        rw [hob, hw₁, length_modify_objects, length_modify_objects]
        exact hi
      show (objectAt (w₂.objects.modify i _) i).flags.hasInfo = true
      rw [objectAt_modify hi₂]
      rfl

/-- Reading the property list: it is not wanted on this device, it is loaded, or its request
failed. -/
theorem readPropList_run (dev : PTPDevice δ) (handle : UInt32) (i : Nat) (w : PTPWorld δ) :
    ∃ b w' xs, readPropList dev handle i w = some (.ok b, w') ∧
      Learns dev handle i w w' xs ∧
      (b = true → i < w.objects.length →
        (objectAt w'.objects i).flags.mtpPropListLoaded = true ∨ ∃ x ∈ xs, ¬ x.Succeeds) ∧
      ∀ ob : PTPObject, (ob.learnAll dev handle xs).flags.hasInfo = ob.flags.hasInfo := by
  unfold readPropList
  split
  · exact ⟨false, w, [], rfl, Learns.refl dev handle i w, by simp, fun _ => rfl⟩
  · split
    · exact ⟨false, w, [], rfl, Learns.refl dev handle i w, by simp, fun _ => rfl⟩
    · rw [attempt_request_run]
      cases hans : w.answer dev (.mtpGetObjPropList handle) with
      | error e =>
        refine ⟨true, _, _, rfl, Learns.asked_only (by simp [Exchange.IsAbout]) hans rfl, ?_,
          fun _ => rfl⟩
        intro _ _
        exact Or.inr ⟨_, List.mem_singleton.mpr rfl, by simp [Exchange.Succeeds]⟩
      | ok props =>
        refine ⟨true, _, _, rfl, Learns.asked (by simp [Exchange.IsAbout]) hans rfl, ?_,
          fun _ => rfl⟩
        intro _ hi
        left
        show (objectAt (w.objects.modify i _) i).flags.mtpPropListLoaded = true
        rw [objectAt_modify hi]

theorem Learns.length {xs : List Exchange} (h : Learns dev handle i w w' xs) :
    w'.objects.length = w.objects.length := by
  rw [h.2.2.2, length_modify_objects]

theorem Learns.objectAt {xs : List Exchange} (h : Learns dev handle i w w' xs)
    (hi : i < w.objects.length) :
    objectAt w'.objects i = (objectAt w.objects i).learnAll dev handle xs := by
  rw [h.2.2.2, objectAt_modify hi]

@[simp] theorem entryIs_bind_run {α : Type} (i : Nat) (lacks : PTPObjectFlags → Bool)
    (k : Bool → Ptp δ α) (w : PTPWorld δ) :
    (entryIs i lacks >>= k) w = k (lacks (GPhoto2.objectAt w.objects i).flags) w := rfl

theorem PTPObjectFlags.has_of_hasInfo {flags want : PTPObjectFlags}
    (hinfo : want.wantsInfo = true → flags.hasInfo = true)
    (hdir : want.directoryLoaded = false)
    (hlist : want.mtpPropListLoaded = true → flags.mtpPropListLoaded = true) :
    flags.has want = true := by
  obtain ⟨a, b, c, d, e⟩ := flags
  obtain ⟨a', b', c', d', e'⟩ := want
  revert hinfo hdir hlist
  simp only [PTPObjectFlags.has, PTPObjectFlags.hasInfo, PTPObjectFlags.wantsInfo]
  revert a b c d e a' b' c' d' e'
  decide

theorem PTPObjectFlags.has_of_has {flags want : PTPObjectFlags} {list : Bool}
    (h : flags.has { want with mtpPropListLoaded := list } = true) :
    flags.has { want with mtpPropListLoaded := false } = true := by
  obtain ⟨a, b, c, d, e⟩ := flags
  obtain ⟨a', b', c', d', e'⟩ := want
  revert h
  simp only [PTPObjectFlags.has]
  revert a b c d e a' c' d' e' list
  decide

/-- The first part of `readObject`. -/
theorem readInfoIfLacking_run (dev : PTPDevice δ) (handle : UInt32) (w : PTPWorld δ)
    (hi : i < w.objects.length)
    (want : PTPObjectFlags) :
    (∃ e, w.answer dev (.getObjectInfo handle) = .error e ∧
      (if (want.wantsInfo && !(objectAt w.objects i).flags.hasInfo) = true
        then readObjectInfo dev handle i else pure ()) w = some (.error e,
        { w.asked dev (.getObjectInfo handle) with
          objects := ptpRemoveObjectFromCache w.objects handle })) ∨
    ∃ w' xs, (if (want.wantsInfo && !(objectAt w.objects i).flags.hasInfo) = true
        then readObjectInfo dev handle i else pure ()) w = some (.ok (), w') ∧
      Learns dev handle i w w' xs ∧
      (want.wantsInfo = true → (objectAt w'.objects i).flags.hasInfo = true) := by
  by_cases hlacks : (want.wantsInfo && !(objectAt w.objects i).flags.hasInfo) = true
  · simp only [hlacks, if_true]
    rcases readObjectInfo_run dev handle i w with
      h | ⟨w', xs, hrun, hlearns, hinfo⟩
    · exact Or.inl h
    · exact Or.inr ⟨w', xs, hrun, hlearns, fun _ => hinfo hi⟩
  · rw [if_neg hlacks]
    refine Or.inr ⟨w, [], rfl, Learns.refl dev handle i w, ?_⟩
    intro hwants
    simpa [hwants] using hlacks

/-- The second part of `readObject`. -/
theorem readListIfLacking_run (dev : PTPDevice δ) (handle : UInt32) (w : PTPWorld δ)
    (hi : i < w.objects.length)
    (want : PTPObjectFlags) :
    ∃ b w' xs, (if (want.mtpPropListLoaded &&
          !(objectAt w.objects i).flags.mtpPropListLoaded) = true
        then readPropList dev handle i else pure want.mtpPropListLoaded) w =
          some (.ok b, w') ∧
      Learns dev handle i w w' xs ∧
      (b = true → (objectAt w'.objects i).flags.mtpPropListLoaded = true ∨
        ∃ x ∈ xs, ¬ x.Succeeds) ∧
      (objectAt w'.objects i).flags.hasInfo = (objectAt w.objects i).flags.hasInfo := by
  by_cases hlacks : (want.mtpPropListLoaded &&
      !(objectAt w.objects i).flags.mtpPropListLoaded) = true
  · simp only [hlacks, if_true]
    obtain ⟨b, w', xs, hrun, hlearns, hlist, hinfo⟩ :=
      readPropList_run dev handle i w
    refine ⟨b, w', xs, hrun, hlearns, fun hb => hlist hb hi, ?_⟩
    rw [hlearns.objectAt hi, hinfo]
  · rw [if_neg hlacks]
    refine ⟨_, w, [], rfl, Learns.refl dev handle i w, ?_, rfl⟩
    intro hwants
    left
    simpa [hwants] using hlacks

/-- Reading what an entry lacks: the object leaves the cache, or its entry learns the answers
and has what is wanted, unless one of the requests failed. -/
theorem readObject_run (dev : PTPDevice δ) (handle : UInt32) (w : PTPWorld δ)
    (hi : i < w.objects.length) (want : PTPObjectFlags) :
    (∃ e, w.answer dev (.getObjectInfo handle) = .error e ∧
      readObject dev handle want i w = some (.error e,
        { w.asked dev (.getObjectInfo handle) with
          objects := ptpRemoveObjectFromCache w.objects handle })) ∨
    ∃ r w' xs, readObject dev handle want i w = some (r, w') ∧ Learns dev handle i w w' xs ∧
      (r = .ok i ∧
          (objectAt w'.objects i).flags.has { want with mtpPropListLoaded := false } = true ∨
        r = .error .generalError ∧ (want.directoryLoaded = false → ∃ x ∈ xs, ¬ x.Succeeds)) := by
  unfold readObject
  rw [entryIs_bind_run]
  rcases readInfoIfLacking_run dev handle w hi want with
    ⟨e, hans, hrun⟩ | ⟨w₁, xs₁, hrun₁, hlearns₁, hinfo₁⟩
  · exact Or.inl ⟨e, hans, Comp.bind_run_error hrun⟩
  · right
    rw [Comp.bind_run_ok hrun₁, entryIs_bind_run]
    have hi₁ : i < w₁.objects.length := by rw [hlearns₁.length]; exact hi
    obtain ⟨b, w₂, xs₂, hrun₂, hlearns₂, hlist₂, hinfo₂⟩ :=
      readListIfLacking_run dev handle w₁ hi₁ want
    rw [Comp.bind_run_ok hrun₂, entryIs_bind_run]
    by_cases hhas : (objectAt w₂.objects i).flags.has
        { want with mtpPropListLoaded := b } = true
    · refine ⟨_, w₂, _, ?_, hlearns₁.trans hlearns₂, Or.inl ⟨rfl, PTPObjectFlags.has_of_has hhas⟩⟩
      simp only [hhas, if_true]
      rfl
    · refine ⟨_, w₂, _, ?_, hlearns₁.trans hlearns₂, Or.inr ⟨rfl, ?_⟩⟩
      · simp only [hhas]
        rfl
      · intro hdir
        -- Only a failing property list can still be missing.
        by_contra hall
        refine hhas (PTPObjectFlags.has_of_hasInfo ?_ hdir ?_)
        · intro hwants
          rw [hinfo₂]
          exact hinfo₁ hwants
        · intro hb
          rcases hlist₂ hb with h | ⟨x, hx, hfail⟩
          · exact h
          · exact absurd ⟨x, List.mem_append_right _ hx, hfail⟩ hall

/-- `ptp_object_want` for a handle, from the array `base` in which it has an entry. -/
structure Wanted (dev : PTPDevice δ) (handle : UInt32) (want : PTPObjectFlags) (i : Nat)
    (base : List PTPObject) (w : PTPWorld δ) (r : Except PTPFailure Nat) (w' : PTPWorld δ)
    (xs : List Exchange) : Prop where
  lt : i < base.length
  oid : oidAt base i = handle
  log : w'.log = w.log ++ xs
  events : w'.events = w.events
  about : ∀ x ∈ xs, x.IsAbout handle
  failed : r ≠ .ok i → want.directoryLoaded = false → ∃ x ∈ xs, ¬ x.Succeeds
  objects : w'.objects = base.modify i (fun ob => ob.learnAll dev handle xs) ∧
      (r = .ok i ∧ (objectAt w'.objects i).flags.has want = true ∨ r = .error .generalError) ∨
    w'.objects = ptpRemoveObjectFromCache base handle ∧ ∃ e, r = .error e

/-- The array in which `ptp_object_want` works on the entry `i`: the one before, or with a new
entry in it. -/
def HasEntry (handle : UInt32) (objects : List PTPObject) (i : Nat) (base : List PTPObject) :
    Prop :=
  base = objects ∨ FreeGap objects handle i ∧ base = insertObject objects i (.new handle)

theorem insertObject_getElem? (objects : List PTPObject) {k : Nat} (hk : k ≤ objects.length)
    (ob : PTPObject) : (insertObject objects k ob)[k]? = some ob := by
  rw [insertObject, List.getElem?_append_right (by simp)]
  simp [hk]

variable {objects : List PTPObject}

theorem mem_insertObject {k : Nat} {ob ob' : PTPObject} :
    ob' ∈ insertObject objects k ob ↔ ob' = ob ∨ ob' ∈ objects := by
  have h : ob' ∈ objects ↔ ob' ∈ objects.take k ∨ ob' ∈ objects.drop k := by
    rw [← List.mem_append, List.take_append_drop]
  rw [insertObject, List.mem_append, List.mem_cons, h]
  tauto

theorem HasEntry.mem {handle : UInt32} {base : List PTPObject} {i : Nat}
    (h : HasEntry handle objects i base) {ob : PTPObject} (hob : ob ∈ base) :
    ob = .new handle ∨ ob ∈ objects := by
  rcases h with rfl | ⟨-, rfl⟩
  · exact Or.inr hob
  · exact mem_insertObject.mp hob

theorem mem_removeObject {handle : UInt32} {ob : PTPObject}
    (h : ob ∈ ptpRemoveObjectFromCache objects handle) : ob ∈ objects := by
  unfold ptpRemoveObjectFromCache at h
  split at h
  · exact h
  · exact List.mem_of_mem_eraseIdx h

theorem ptpObjectFindOrInsert_entry (objects : List PTPObject) (hne : handle ≠ 0) :
    ∃ i base, ptpObjectFindOrInsert objects handle = some (i, base) ∧
      HasEntry handle objects i base ∧ i < base.length ∧ oidAt base i = handle := by
  rcases ptpObjectFindOrInsert_cases objects hne with ⟨i, hi, hoid, hrun⟩ | ⟨k, hgap, hrun⟩
  · exact ⟨i, objects, hrun, Or.inl rfl, hi, hoid⟩
  · refine ⟨k, _, hrun, Or.inr ⟨hgap, rfl⟩, ?_, ?_⟩
    · have := hgap.1
      simp only [insertObject, List.length_append, List.length_take, List.length_cons]
      omega
    · rw [oidAt_of_getElem? (insertObject_getElem? objects hgap.1 _)]
      rfl

/-- `ptp_object_want` returns for every handle but 0. The property list may still be missing
then. -/
theorem ptpObjectWant_wanted (dev : PTPDevice δ) (w : PTPWorld δ) (hne : handle ≠ 0)
    (want : PTPObjectFlags) :
    ∃ i base r w' xs, HasEntry handle w.objects i base ∧
      ptpObjectWant dev handle want w = some (r, w') ∧
      Wanted dev handle { want with mtpPropListLoaded := false } i base w r w' xs := by
  obtain ⟨i, base, hfind, hentry, hi, hoid⟩ := ptpObjectFindOrInsert_entry w.objects hne
  refine ⟨i, base, ?_⟩
  have hhas : ∀ {flags : PTPObjectFlags} {list : Bool},
      flags.has { want with mtpPropListLoaded := list } = true →
      flags.has { want with mtpPropListLoaded := false } = true :=
    fun h => PTPObjectFlags.has_of_has h
  obtain ⟨w₀, hw₀⟩ : ∃ w₀ : PTPWorld δ, w₀ = { w with objects := base } := ⟨_, rfl⟩
  have hrun : ptpObjectWant dev handle want w =
      (if (objectAt base i).flags.has (dev.forcedWant want) = true then pure i
        else readObject dev handle (dev.forcedWant want) i : Ptp δ Nat) w₀ := by
    unfold ptpObjectWant
    rw [Comp.get_bind_run, hw₀]
    simp only [hfind]
    rfl
  rw [hrun]
  by_cases hloaded : (objectAt base i).flags.has (dev.forcedWant want) = true
  · refine ⟨.ok i, w₀, [], hentry, by rw [if_pos hloaded]; rfl, hi, hoid, ?_, ?_, by simp,
      fun h => absurd rfl h, Or.inl ⟨?_, Or.inl ⟨rfl, ?_⟩⟩⟩
    · simp [hw₀]
    · rw [hw₀]
    · rw [hw₀]
      exact (List.modify_id i base).symm
    · rw [hw₀]
      exact hhas hloaded
  · rw [if_neg hloaded]
    have hi₀ : i < w₀.objects.length := by rw [hw₀]; exact hi
    rcases readObject_run dev handle w₀ hi₀ (dev.forcedWant want) with
      ⟨e, hans, hread⟩ | ⟨r, w', xs, hread, hlearns, hresult⟩
    · refine ⟨_, _, [⟨.getObjectInfo handle, .error e⟩], hentry, hread, hi, hoid, ?_, ?_, ?_, ?_,
        Or.inr ⟨?_, e, rfl⟩⟩
      · show w₀.log ++ _ = _
        rw [hans, hw₀]
      · rw [hw₀]
        rfl
      · intro x hx
        rw [List.mem_singleton.mp hx]
        exact Or.inl rfl
      · intro _ _
        exact ⟨_, List.mem_singleton.mpr rfl, by simp [Exchange.Succeeds]⟩
      · rw [hw₀]
    · obtain ⟨hlog, habout, hev, hob⟩ := hlearns
      refine ⟨r, w', xs, hentry, hread, hi, hoid, by rw [hlog, hw₀], by rw [hev, hw₀], habout,
        ?_, Or.inl ⟨by rw [hob, hw₀], ?_⟩⟩
      · intro hr hdir
        rcases hresult with ⟨hok, -⟩ | ⟨-, hfail⟩
        · exact absurd hok hr
        · exact hfail hdir
      · rcases hresult with ⟨hok, hgot⟩ | ⟨herr, -⟩
        · exact Or.inl ⟨hok, hhas hgot⟩
        · exact Or.inr herr

/-- `ptp_object_want` for the handle 0. -/
theorem ptpObjectWant_zero (w : PTPWorld δ) (want : PTPObjectFlags) :
    ptpObjectWant dev 0 want w = some (.error .generalError, w) := rfl

end

end GPhoto2
