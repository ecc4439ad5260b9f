import GPhoto2.Lib.Outcome
import GPhoto2.Lib.Recency
import GPhoto2.Proofs.Filesys.Views

/-!
# `GPhoto2.Proofs.Filesys.LruBudget`: what a store evicts

`gp_filesystem_set_file_noop` makes room before it puts a file at the end of the LRU list: it
evicts the first entries of the list as long as more than `pictures_to_keep` entries hold data
(`lruTrim_run`). So the list is in the order of the last store, and what it holds is the end of
that order.

`setFileNoop_effect` is the specification of one successful call. `storeRun_lru` is about a run of
them: each call has this effect, and the list stays the end of the order of the last store, up to
entries that the lookups of the calls have dropped.
-/

set_option autoImplicit false

namespace GPhoto2

open Lib Relation
open Lib.Comp (bind_eq_ok bind_run_ok)
open SelfHeadedList (first_eq next_get)

variable {σ : Type}

section
variable {w w' w'' : World σ} {l : List FileAddr}

open CameraFilesystem

/-! ### Counting -/

theorem holdsData_eq (w : World σ) (a : FileAddr) :
    w.holdsData a = ((w.slotAt a .normal).isSome || (w.slotAt a .raw).isSome ||
      (w.slotAt a .audio).isSome) := by
  unfold World.holdsData World.slotAt
  cases w.fs.files a <;> rfl

theorem holdsData_congr {a : FileAddr}
    (h : ∀ type, type.big → w'.slotAt a type = w.slotAt a type) :
    w'.holdsData a = w.holdsData a := by
  rw [holdsData_eq, holdsData_eq, h _ (Or.inl rfl), h _ (Or.inr (Or.inl rfl)),
    h _ (Or.inr (Or.inr rfl))]

theorem lruCountLoop_run (h : w.fs.LruChain l) (n i : Nat) (hn : l.length ≤ i + n) :
    lruCountLoop w.fs n l[i]? = some ((l.drop i).countP w.holdsData) := by
  induction n generalizing i with
  | zero =>
    rw [List.getElem?_eq_none (by omega), List.drop_of_length_le (by omega)]
    rfl
  | succ n ih =>
    by_cases hi : i < l.length
    · obtain ⟨f, hf⟩ := h.isSome (List.getElem_mem hi)
      have hnext : f.lruNext = l[i + 1]? := by
        rw [← lruNext_eq hf, next_get h i hi]
      rw [List.getElem?_eq_getElem hi, List.drop_eq_getElem_cons hi, List.countP_cons]
      simp only [lruCountLoop, hf, hnext, ih (i + 1) (by omega), Option.map_some,
        World.holdsData, Option.any_some]
    · rw [List.getElem?_eq_none (by omega), List.drop_of_length_le (by omega)]
      cases n <;> rfl

theorem lruCount_run (h : w.fs.LruChain l) (hlen : l.length ≤ w.brk) :
    gpFilesystemLruCount w = some (.ok (l.countP w.holdsData), w) := by
  have hfirst : w.fs.lruFirst = l[0]? := by
    rw [← List.head?_eq_getElem?]
    exact first_eq h
  unfold gpFilesystemLruCount
  rw [hfirst, lruCountLoop_run h w.brk 0 (by omega)]
  rfl

/-! ### Making room -/

/-- Some entries lost the contents that count. All other contents are as they were. -/
structure Evicted (w w' : World σ) (evicted : List FileAddr) : Prop where
  lost : ∀ a ∈ evicted, ∀ type, type.big → w'.slotAt a type = none
  kept : ∀ a type, a ∉ evicted ∨ ¬ type.big → w'.slotAt a type = w.slotAt a type
  dead : ∀ a, w'.fs.files a = none ↔ w.fs.files a = none
  tree : w'.tree = w.tree
  brk : w'.brk = w.brk
  keep : w'.picturesToKeep = w.picturesToKeep
  cameraFile : w'.cameraFile = w.cameraFile

theorem Evicted.refl (w : World σ) : Evicted w w [] where
  lost a ha := by cases ha
  kept _ _ _ := rfl
  dead _ := Iff.rfl
  tree := rfl
  brk := rfl
  keep := rfl
  cameraFile := rfl

theorem Evicted.trans {es es' : List FileAddr} (h : Evicted w w' es) (h' : Evicted w' w'' es') :
    Evicted w w'' (es ++ es') where
  lost a ha type hbig := by
    by_cases ha' : a ∈ es'
    · exact h'.lost a ha' type hbig
    · rw [h'.kept a type (Or.inl ha')]
      exact h.lost a ((List.mem_append.mp ha).resolve_right ha') type hbig
  kept a type ha := by
    rw [List.mem_append, not_or] at ha
    rw [h'.kept a type (ha.imp_left And.right), h.kept a type (ha.imp_left And.left)]
  dead a := (h'.dead a).trans (h.dead a)
  tree := h'.tree.trans h.tree
  brk := h'.brk.trans h.brk
  keep := h'.keep.trans h.keep
  cameraFile := h'.cameraFile.trans h.cameraFile

theorem slot_evicted (f : CameraFilesystemFile) (type : CameraFileType) :
    f.evicted.slot type = if type.big then none else f.slot type := by
  cases type <;> rfl

theorem lruFree_evicted (hl : w.fs.LruChain l)
    (h : gpFilesystemLruFree w = some (.ok (), w')) :
    ∃ ptr rest, l = ptr :: rest ∧ w'.fs.LruChain rest ∧ Evicted w w' [ptr] := by
  obtain ⟨ptr, rest, f, rfl, hf, hchain, hother, hptr, hcam⟩ := lruFree_ok hl h
  have hframe : w'.tree = w.tree ∧ w'.brk = w.brk ∧ w'.picturesToKeep = w.picturesToKeep := by
    rcases lruFree_cases h with ⟨-, rfl⟩ | ⟨_, _, -, -, hframe⟩
    · exact ⟨rfl, rfl, rfl⟩
    · exact ⟨hframe.tree, hframe.brk, hframe.picturesToKeep⟩
  have hslot : ∀ type, w'.slotAt ptr type = if type.big then none else w.slotAt ptr type := by
    intro type
    rw [World.slotAt, hptr, Option.bind_some, slot_evicted, World.slotAt, hf, Option.bind_some]
  refine ⟨ptr, rest, rfl, hchain, fun a ha type hbig => ?_, fun a type ha => ?_, fun a => ?_,
    hframe.1, hframe.2.1, hframe.2.2, hcam⟩
  · rw [List.mem_singleton.mp ha, hslot, if_pos hbig]
  · by_cases hap : a = ptr
    · rw [hap] at ha ⊢
      rw [hslot, if_neg (ha.resolve_left (not_not.mpr (List.mem_singleton_self ptr)))]
    · exact slotAt_of_unlinked (hother a hap) type
  · by_cases hap : a = ptr
    · simp [hap, hptr, hf]
    · exact files_eq_none_of_unlinked (hother a hap)

/-- The loop of `gp_filesystem_lru_update` evicts the first entries of the list, until at most
`pictures_to_keep` entries hold data. -/
theorem lruTrim_run (n : Nat) (hwf : w.tree.Wf) (hl : w.fs.LruChain l) {k : Nat}
    (hk : w.picturesToKeep = k) (h : lruTrim n w = some (.ok (), w')) :
    ∃ evicted kept, Trims w.holdsData k l evicted kept ∧ w'.fs.LruChain kept ∧
      Evicted w w' evicted := by
  induction n generalizing w l with
  | zero => cases h
  | succ n ih =>
    unfold lruTrim at h
    rw [bind_run_ok (lruCount_run hl (length_le_of_lruChain hl hwf)), Comp.get_bind_run,
      hk] at h
    by_cases hover : k < l.countP w.holdsData
    · rw [if_pos (by exact_mod_cast hover)] at h
      obtain ⟨_, w₁, h₁, h⟩ := bind_eq_ok.mp h
      obtain ⟨ptr, rest, rfl, hl₁, hone⟩ := lruFree_evicted hl h₁
      obtain ⟨evicted, kept, htrims, hkept, hmore⟩ :=
        ih (by rwa [hone.tree]) hl₁ (hone.keep.trans hk) h
      have hnot : ∀ a ∈ rest, a ∉ [ptr] := by
        intro a ha hap
        rw [List.mem_singleton.mp hap] at ha
        exact (List.nodup_cons.mp hl.nodup).1 ha
      refine ⟨ptr :: evicted, kept, Trims.drop hover (htrims.congr fun a ha => ?_), hkept,
        hone.trans hmore⟩
      exact (holdsData_congr fun type _ => hone.kept a type (Or.inl (hnot a ha))).symm
    · rw [if_neg (by exact_mod_cast hover)] at h
      cases h
      exact ⟨[], l, .done (Nat.le_of_not_lt hover), hl, .refl _⟩

theorem initPicturesToKeep_run {r : Except Int Unit}
    (h : initPicturesToKeep w = some (r, w')) :
    ∃ (k : Nat) (cached : Option Int), (0 ≤ w.picturesToKeep → w.picturesToKeep = k) ∧
      w' = { w with picturesToKeep := k, cachedImages := cached } := by
  unfold initPicturesToKeep at h
  simp only [Comp.modify_run, Option.some.injEq, Prod.mk.injEq] at h
  obtain ⟨-, rfl⟩ := h
  -- A negative number is replaced, and any other one is a natural number.
  have hend : ∀ w₁ : World σ, (∃ n cached, w₁ = { w with
      picturesToKeep := n, cachedImages := cached } ∧
        (0 ≤ w.picturesToKeep → w.picturesToKeep = n)) →
      ∃ (k : Nat) (cached : Option Int), (0 ≤ w.picturesToKeep → w.picturesToKeep = k) ∧
        (if w₁.picturesToKeep < 0 then { w₁ with picturesToKeep := PICTURES_TO_KEEP } else w₁) =
          { w with picturesToKeep := k, cachedImages := cached } := by
    rintro _ ⟨n, cached, rfl, hn⟩
    by_cases hneg : n < 0
    · refine ⟨2, cached, fun h => ?_, by rw [if_pos hneg]; rfl⟩
      have := hn h
      omega
    · refine ⟨n.toNat, cached, fun h => ?_, ?_⟩
      · rw [hn h, Int.toNat_of_nonneg (by omega)]
      · rw [if_neg hneg, Int.toNat_of_nonneg (by omega)]
  by_cases hunset : w.picturesToKeep = -1
  · rw [if_pos hunset]
    cases hcached : w.cachedImages with
    | some n => exact hend _ ⟨n, _, rfl, fun h => by omega⟩
    | none => exact hend _ ⟨w.picturesToKeep, _, rfl, fun _ => rfl⟩
  · rw [if_neg hunset]
    exact hend _ ⟨w.picturesToKeep, w.cachedImages, rfl, fun _ => rfl⟩

/-! ### One store -/

variable (funcs : CameraFilesystemFuncs σ)
  {filename : CString} {type : CameraFileType} {file : CameraFileRef}

/-- `gp_filesystem_lru_update`: room is made, the file is looked up, and it goes to the end of
the list. -/
theorem lruUpdate_ok {folder : CString}
    {context : GPContext} (hwf : w.tree.Wf) (hl : w.fs.LruChain l) (hbig : type.big)
    (h : gpFilesystemLruUpdate funcs folder filename type file context w = some (.ok (), w')) :
    ∃ (k : Nat) (cached : Option Int) (evicted kept : List FileAddr) (w₂ w₃ : World σ)
      (f : FolderAddr) (x : FileAddr) (e : Event),
      (0 ≤ w.picturesToKeep → w.picturesToKeep = k) ∧
      Trims w.holdsData k l evicted kept ∧
      Evicted { w with picturesToKeep := k, cachedImages := cached } w₂ evicted ∧
      TreeSteps w₂ w₃ ∧ w₃.tree.locate (components folder) filename = .ok (f, x) ∧
      w'.fs.LruChain (touch x (kept.filter w₃.alive)) ∧
      LruFrame { w₃ with log := w₃.log ++ [e] } w' := by
  obtain ⟨size, w₀, hsize, h⟩ := bind_eq_ok.mp h
  rw [cameraFileSize_run, Option.some.injEq, Prod.mk.injEq] at hsize
  obtain ⟨hsize, rfl⟩ := hsize
  obtain ⟨_, w₁, hinit, h⟩ := bind_eq_ok.mp h
  obtain ⟨k, cached, hk, rfl⟩ := initPicturesToKeep_run hinit
  rw [Comp.get_bind_run] at h
  obtain ⟨_, w₂, htrim, h⟩ := bind_eq_ok.mp h
  obtain ⟨evicted, kept, htrims, hkept, hevicted⟩ := lruTrim_run
    (w := { w with picturesToKeep := k, cachedImages := cached }) _ hwf hl rfl htrim
  have hwf₂ : w₂.tree.Wf := by
    rw [hevicted.tree]
    exact hwf
  obtain ⟨w₃, hsteps, hwf₃, ⟨-, e, he⟩ | ⟨f, x, hat, h⟩⟩ :=
    lookupFolderFile_bind_eq_some funcs hwf₂ h
  · cases he
  have hdropped := hsteps.dropped hwf₂
  have hchain₃ := hdropped.chain kept hkept fun a ha =>
    hwf₂.file_lt (fileName_ne_none.mpr (hkept.isSome ha))
  have hsize₃ : gpFileGetSize (w₃.cameraFile file) = .ok size := by
    rw [TreeSteps.cameraFile hsteps hwf₂, hevicted.cameraFile]
    exact hsize
  have hinsert : lruInsert x type file size w₃ = some (.ok (), w') := h
  obtain ⟨g, hg, hframe⟩ := lruInsert_cases hinsert
  rcases lruInsert_run hchain₃ hg hbig hsize₃ with ⟨-, -, e, he⟩ | ⟨w₄, hrun, hchain, -, -⟩
  · rw [hinsert] at he
    cases he
  rw [hinsert, Option.some.injEq, Prod.mk.injEq] at hrun
  obtain ⟨-, rfl⟩ := hrun
  exact ⟨k, cached, evicted, kept, w₂, w₃, f, x, _, hk, htrims, hevicted, hsteps, hat, hchain,
    hframe⟩

/-- What a successful store of `file` does, in a world with the LRU list `l` and the budget `k`.
The first entries of the list, up to those that a lookup has dropped, are evicted, as many as it
takes; `x` is the entry that is stored to. -/
structure StoreEffect (w w' : World σ) (l : List FileAddr) (folder filename : CString)
    (type : CameraFileType) (file : CameraFileRef) (k : Nat) (x : FileAddr)
    (evicted kept : List FileAddr) : Prop where
  brk_le : w.brk ≤ w'.brk
  used : x < w'.brk
  alive : ∀ a, a < w.brk → w'.alive a = true → w.alive a = true
  budget : w'.picturesToKeep = k
  budget_eq : 0 ≤ w.picturesToKeep → w.picturesToKeep = k
  trims : ∃ looked : FileAddr → Bool,
    (∀ a, a < w.brk → w'.alive a = true → looked a = true) ∧
      Trims w.holdsData k (l.filter looked) evicted kept
  chain : w'.fs.LruChain ((touch x kept).filter w'.alive)
  bound : ((touch x kept).filter w'.alive).countP w'.holdsData ≤ k + 1
  place : w'.alive x = true → ∃ f, w'.tree.locate (components folder) filename = .ok (f, x)
  stored : w'.alive x = true → w'.slotAt x type = some file
  lost : ∀ a ∈ evicted, ∀ type', type'.big → a ≠ x ∨ type' ≠ type → w'.slotAt a type' = none
  same : ∀ a type', a < w.brk → w'.alive a = true → a ∉ evicted ∨ ¬ type'.big →
    a ≠ x ∨ type' ≠ type → w'.slotAt a type' = w.slotAt a type'

variable {x : FileAddr}

theorem slotAt_store {g : CameraFilesystemFile}
    {e : Event} (hg : w.fs.files x = some g) {a : FileAddr}
    {type' : CameraFileType} (h : a ≠ x ∨ type' ≠ type) :
    ({ w.setFile x (some (g.setSlot (some file) type)) with log := w.log ++ [e] } :
      World σ).slotAt a type' = w.slotAt a type' := by
  by_cases ha : a = x
  · subst ha
    simp [World.slotAt, hg,
      g.slot_setSlot_of_ne (some file) (h.resolve_left (not_not.mpr rfl))]
  · simp [World.slotAt, ha]

/-- The write of the content into an entry that has just been linked. -/
structure Stored (w w' : World σ) (x : FileAddr) (type : CameraFileType) (file : CameraFileRef) :
    Prop where
  dead : ∀ a, w'.fs.files a = none ↔ w.fs.files a = none
  slot : ∀ a type', a ≠ x ∨ type' ≠ type → w'.slotAt a type' = w.slotAt a type'
  stored : w'.slotAt x type = some file
  tree : w'.tree = w.tree
  brk : w'.brk = w.brk
  keep : w'.picturesToKeep = w.picturesToKeep

theorem stored_of_setSlot {g : CameraFilesystemFile} (file : CameraFileRef)
    {e : Event} (e' : Event) (hbig : type.big)
    (hframe : LruFrame { w with log := w.log ++ [e] } w') (hg : w'.fs.files x = some g) :
    Stored w { w'.setFile x (some (g.setSlot (some file) type)) with log := w'.log ++ [e'] }
      x type file where
  dead a := by
    rw [← files_eq_none_of_unlinked (hframe.files a)]
    by_cases ha : a = x
    · subst ha
      simp [hg]
    · simp [ha]
  slot a type' h := by
    rw [slotAt_store hg h]
    exact slotAt_of_unlinked (hframe.files a) type'
  stored := by
    simp [World.slotAt, g.slot_setSlot_self (some file) (big_known hbig)]
  tree := by
    have hname : (g.setSlot (some file) type).name = g.name := by cases type <;> rfl
    exact (tree_setFile_of_name hg _ hname).trans hframe.tree
  brk := hframe.brk
  keep := hframe.picturesToKeep

/-- The effect of a store, put together from its steps: entries are dropped by a lookup, evicted,
dropped by the second lookup, written, and dropped once more. -/
theorem storeEffect_of_steps {w₁ w₂ w₃ w₅ : World σ} {folder : CString} {f : FolderAddr}
    {k : Nat} {cached : Option Int}
    {evicted kept : List FileAddr} (hdropped₁ : Dropped w w₁)
    (hk : 0 ≤ w₁.picturesToKeep → w₁.picturesToKeep = k)
    (htrims : Trims w₁.holdsData k (l.filter w₁.alive) evicted kept)
    (hevicted : Evicted { w₁ with picturesToKeep := k, cachedImages := cached } w₂ evicted)
    (hdropped₃ : Dropped w₂ w₃) (hstored : Stored w₃ w₅ x type file) (hdropped' : Dropped w₅ w')
    (hwf : w.tree.Wf) (hwf₂ : w₂.tree.Wf) (hl : w.fs.LruChain l)
    (hat : w₃.tree.locate (components folder) filename = .ok (f, x))
    (hchain₅ : w₅.fs.LruChain (touch x (kept.filter w₃.alive))) :
    StoreEffect w w' l folder filename type file k x evicted kept := by
  have hwf₅ : w₅.tree.Wf := by
    rw [hstored.tree]
    exact (hdropped₃.tree hwf₂).1
  have hbrk₂ : w.brk ≤ w₂.brk := by
    rw [hevicted.brk]
    exact hdropped₁.brk_le
  have hbrk₅ : w.brk ≤ w₅.brk := by
    rw [hstored.brk]
    exact Nat.le_trans hbrk₂ hdropped₃.brk_le
  -- What is alive in the end was alive all the time.
  have halive₃ : ∀ a, a < w.brk → w'.alive a = true → w₃.alive a = true := by
    intro a ha halive
    have halive₅ := hdropped'.alive (Nat.lt_of_lt_of_le ha hbrk₅) halive
    rw [alive_iff] at halive₅ ⊢
    rwa [Ne, ← hstored.dead]
  have halive₁ : ∀ a, a < w.brk → w'.alive a = true → w₁.alive a = true := by
    intro a ha halive
    have halive₂ := hdropped₃.alive (Nat.lt_of_lt_of_le ha hbrk₂) (halive₃ a ha halive)
    rw [alive_iff] at halive₂ ⊢
    rwa [Ne, hevicted.dead] at halive₂
  have hslot₁ : ∀ a type', a < w.brk → w₁.alive a = true →
      w₁.slotAt a type' = w.slotAt a type' := by
    intro a type' ha halive
    exact hdropped₁.slot a type' ha (alive_iff.mp halive)
  -- The end of the call changes the content that is stored only.
  have hslot₂ : ∀ a type', a < w.brk → w'.alive a = true → a ≠ x ∨ type' ≠ type →
      w'.slotAt a type' = w₂.slotAt a type' := by
    intro a type' ha halive hne
    rw [hdropped'.slot a type' (Nat.lt_of_lt_of_le ha hbrk₅) (alive_iff.mp halive),
      hstored.slot a type' hne,
      hdropped₃.slot a type' (Nat.lt_of_lt_of_le ha hbrk₂) (alive_iff.mp (halive₃ a ha halive))]
  have hsame : ∀ a type', a < w.brk → w'.alive a = true → a ∉ evicted ∨ ¬ type'.big →
      a ≠ x ∨ type' ≠ type → w'.slotAt a type' = w.slotAt a type' := by
    intro a type' ha halive hnot hne
    rw [hslot₂ a type' ha halive hne, ← hslot₁ a type' ha (halive₁ a ha halive)]
    exact hevicted.kept a type' hnot
  have hlt : ∀ a ∈ l, a < w.brk := fun a ha =>
    hwf.file_lt (fileName_ne_none.mpr (hl.isSome ha))
  have hsub : ∀ a, a ∈ evicted ∨ a ∈ kept → a ∈ l ∧ w₁.alive a = true := by
    intro a ha
    have hmem : a ∈ l.filter w₁.alive := by
      rw [htrims.split]
      exact List.mem_append.mpr ha
    exact List.mem_filter.mp hmem
  have hnodup : (evicted ++ kept).Nodup := by
    rw [← htrims.split]
    exact hl.nodup.filter _
  have htrims' : Trims w.holdsData k (l.filter w₁.alive) evicted kept := by
    refine htrims.congr fun a ha => ?_
    obtain ⟨hal, halive⟩ := List.mem_filter.mp ha
    exact (holdsData_congr fun type' _ => hslot₁ a type' (hlt a hal) halive).symm
  have hx : x < w₅.brk := by
    have hx₅ : w₅.fs.files x ≠ none := by
      intro hnone
      have hslot := slotAt_of_dead hnone type
      rw [hstored.stored] at hslot
      cases hslot
    exact hwf₅.file_lt (fileName_ne_none.mpr (Option.ne_none_iff_exists'.mp hx₅))
  refine ⟨Nat.le_trans hbrk₅ hdropped'.brk_le, Nat.lt_of_lt_of_le hx hdropped'.brk_le,
    fun a ha halive => hdropped₁.alive ha (halive₁ a ha halive), ?_, ?_,
    ⟨w₁.alive, halive₁, htrims'⟩, ?_, ?_, ?_, ?_, ?_, hsame⟩
  · rw [hdropped'.keep, hstored.keep, hdropped₃.keep, hevicted.keep]
  · rwa [hdropped₁.keep] at hk
  · have hmem : ∀ a ∈ kept, w'.alive a = true → w₃.alive a = true := fun a ha =>
      halive₃ a (hlt a (hsub a (Or.inr ha)).1)
    rw [← touch_filter (List.nodup_append.mp hnodup).2.1 hmem]
    refine hdropped'.chain _ hchain₅ fun a ha => ?_
    exact hwf₅.file_lt (fileName_ne_none.mpr (hchain₅.isSome ha))
  · have hone : (touch x kept).countP w'.holdsData ≤ kept.countP w.holdsData + 1 := by
      refine countP_touch_le (List.nodup_append.mp hnodup).2.1 fun a ha hne hholds => ?_
      have halive : w'.alive a = true := by
        rw [alive_iff]
        intro hnone
        simp [World.holdsData, hnone] at hholds
      have hnot : a ∉ evicted := fun hev =>
        (List.nodup_append.mp hnodup).2.2 a hev a ha rfl
      rwa [← holdsData_congr fun type' _ => hsame a type' (hlt a (hsub a (Or.inr ha)).1) halive
        (Or.inl hnot) (Or.inl hne)]
    have hfilter := List.Sublist.countP_le (p := w'.holdsData)
      (List.filter_sublist (p := w'.alive) (l := touch x kept))
    have hfits := htrims'.fits
    omega
  · intro halive
    have hat₅ : w₅.tree.locate (components folder) filename = .ok (f, x) := by
      rw [hstored.tree]
      exact hat
    exact ⟨f, (hdropped'.tree hwf₅).2.locate (hdropped'.tree hwf₅).1 hat₅
      (fileName_ne_none.mpr (Option.ne_none_iff_exists'.mp (alive_iff.mp halive)))⟩
  · intro halive
    rw [hdropped'.slot x type hx (alive_iff.mp halive), hstored.stored]
  · intro a ha type' hbig hne
    by_cases halive : w'.alive a = true
    · rw [hslot₂ a type' (hlt a (hsub a (Or.inl ha)).1) halive hne]
      exact hevicted.lost a ha type' hbig
    · exact slotAt_of_dead (not_not.mp fun hsome => halive (alive_iff.mpr hsome)) type'

/-- A call of `gp_filesystem_set_file_noop` with a kind of data that counts. -/
structure StoreCall where
  folder : CString
  filename : CString
  type : CameraFileType
  file : CameraFileRef
  context : GPContext
  big : type.big

/-- The call. -/
def StoreCall.exec (c : StoreCall) : Fs σ Unit :=
  gpFilesystemSetFileNoop funcs c.folder c.filename c.type c.file c.context

/-- The entry that the call comes to. -/
def StoreCall.target (c : StoreCall) : Fs σ FileAddr := do
  checkCancel funcs c.context
  checkAbsolute c.folder
  let (_, x) ← lookupFolderFile funcs c.folder c.filename c.context
  pure x

/-- The specification of `gp_filesystem_set_file_noop`, for a call that succeeds. -/
theorem setFileNoop_effect {c : StoreCall} (hwf : w.tree.Wf) (hl : w.fs.LruChain l)
    (hcall : c.exec funcs w = some (.ok (), w')) :
    w'.tree.Wf ∧ ∃ w₁ k x evicted kept, c.target funcs w = some (.ok x, w₁) ∧
      StoreEffect w w' l c.folder c.filename c.type c.file k x evicted kept := by
  obtain ⟨_, w₀, hcancel, hcall₁⟩ := bind_eq_ok.mp hcall
  obtain ⟨_, w₀', habsolute, hcall₂⟩ := bind_eq_ok.mp hcall₁
  obtain ⟨⟨f, x⟩, w₁, hlookup, hcall₃⟩ := bind_eq_ok.mp hcall₂
  have htarget : c.target funcs w = some (.ok x, w₁) := by
    unfold StoreCall.target
    rw [bind_run_ok hcancel, bind_run_ok habsolute, bind_run_ok hlookup]
    rfl
  obtain ⟨s, henv, -⟩ := checkCancel_eq_some funcs hcancel
  obtain ⟨rfl, -⟩ := checkAbsolute_eq_some habsolute
  have hdropped₀ : Dropped w w₀' :=
    (EnvStep.lookupSteps ⟨s, henv⟩).treeSteps.dropped hwf
  have hwf₀ := (hdropped₀.tree hwf).1
  obtain ⟨hsteps₁, hat⟩ := lookupFolderFile_run funcs hwf₀ hlookup
  have hdropped₁ : Dropped w w₁ := hdropped₀.trans (hsteps₁.dropped hwf₀)
  have hwf₁ := (hdropped₁.tree hwf).1
  have hlt : ∀ a ∈ l, a < w.brk := fun a ha =>
    hwf.file_lt (fileName_ne_none.mpr (hl.isSome ha))
  have hl₁ := hdropped₁.chain l hl hlt
  have hbig := c.big
  simp only [if_pos hbig] at hcall₃
  obtain ⟨_, w₄, hupdate, hend⟩ := bind_eq_ok.mp hcall₃
  obtain ⟨k, cached, evicted, kept, w₂, w₃, f', x', e, hk, htrims, hevicted, hsteps₃, hat', hchain₄,
    hframe⟩ := lruUpdate_ok funcs hwf₁ hl₁ hbig hupdate
  have hwf₂ : w₂.tree.Wf := by
    rw [hevicted.tree]
    exact hwf₁
  have hdropped₃ := hsteps₃.dropped hwf₂
  obtain ⟨hwf₃, hstable₃⟩ := hdropped₃.tree hwf₂
  have hwf₄ : w₄.tree.Wf := by
    rw [hframe.tree]
    exact hwf₃
  have hcheck := lruCheck_run hchain₄ (length_le_of_lruChain hchain₄ hwf₄)
  obtain ⟨-, hfail | ⟨n, hn⟩⟩ | ⟨-, -, g, hg, hmtime⟩ := setFileNoop_end_cases funcs hend
  · exact absurd hcheck hfail
  · exact absurd hn (big_known hbig n)
  -- The entry is still there, so the second lookup found the same one.
  have halive₃ : w₃.fs.files x ≠ none := by
    rw [Ne, ← files_eq_none_of_unlinked (hframe.files x), hg]
    simp
  have hsame : x' = x := by
    have hat₂ : w₂.tree.locate (components c.folder) c.filename = .ok (f, x) := by
      rw [hevicted.tree]
      exact hat.symm
    have hlocate := hstable₃.locate hwf₃ hat₂
      (fileName_ne_none.mpr (Option.ne_none_iff_exists'.mp halive₃))
    rw [hat', Except.ok.injEq, Prod.mk.injEq] at hlocate
    exact hlocate.2
  subst hsame
  have hstored := stored_of_setSlot c.file
    (.setFileNoop c.folder c.filename c.type (w₄.cameraFile c.file).data) hbig hframe hg
  generalize hw₅ : ({ w₄.setFile x' (some (g.setSlot (some c.file) c.type)) with
    log := w₄.log ++ [.setFileNoop c.folder c.filename c.type (w₄.cameraFile c.file).data] } :
      World σ) = w₅ at hmtime hstored
  have hwf₅ : w₅.tree.Wf := by
    rw [hstored.tree]
    exact hwf₃
  obtain ⟨hwf', hdropped'⟩ := keepsDropped_setFileMtime funcs c.folder c.filename c.file w₅ _ w'
    hwf₅ hmtime
  have hchain₅ : w₅.fs.LruChain (touch x' (kept.filter w₃.alive)) := by
    obtain ⟨hnext, hprev⟩ := lruNext_setSlot w₄.fs
      (w₄.setFile x' (some (g.setSlot (some c.file) c.type))).fs hg rfl
    rw [← hw₅]
    exact hchain₄.congr (fun a => by rw [← hnext]) (fun a => by rw [← hprev]) rfl rfl
  refine ⟨hwf', w₁, k, x', evicted, kept, htarget, ?_⟩
  exact storeEffect_of_steps hdropped₁ hk htrims hevicted hdropped₃ hstored hdropped' hwf hwf₂
    hl hat' hchain₅

/-! ### A run of stores -/

/-- A run of successful stores, and the entries they have come to. -/
inductive StoreCallRun (w₀ : World σ) : List StoreCall → List FileAddr → World σ → Prop
  | nil : StoreCallRun w₀ [] [] w₀
  | snoc {calls : List StoreCall} {xs : List FileAddr} {w w₁ w' : World σ} (c : StoreCall)
      (x : FileAddr) (hrun : StoreCallRun w₀ calls xs w)
      (htarget : c.target funcs w = some (.ok x, w₁))
      (hcall : c.exec funcs w = some (.ok (), w')) : StoreCallRun w₀ (calls ++ [c]) (xs ++ [x]) w'

/-- What a run of stores keeps: the LRU list `l` is the end of the order of the last store, which
is `recency l₀ xs`, less the entries that lookups have dropped. -/
structure StoreOrder (l₀ xs l : List FileAddr) (w : World σ) : Prop where
  wf : w.tree.Wf
  chain : w.fs.LruChain l
  lt : ∀ a ∈ recency l₀ xs, a < w.brk
  nodup : (recency l₀ xs).Nodup
  suffix : l <:+ (recency l₀ xs).filter w.alive

theorem StoreOrder.start (hwf : w.tree.Wf) (hl : w.fs.LruChain l) : StoreOrder l [] l w where
  wf := hwf
  chain := hl
  lt a ha := hwf.file_lt (fileName_ne_none.mpr (hl.isSome ha))
  nodup := hl.nodup
  suffix := by
    show l <:+ l.filter w.alive
    rw [filter_alive hl]

theorem StoreOrder.step {l₀ xs : List FileAddr} {folder : CString}
    {k : Nat}
    {evicted kept : List FileAddr} (h : StoreOrder l₀ xs l w) (hwf' : w'.tree.Wf)
    (heffect : StoreEffect w w' l folder filename type file k x evicted kept) :
    StoreOrder l₀ (xs ++ [x]) ((touch x kept).filter w'.alive) w' where
  wf := hwf'
  chain := heffect.chain
  lt a ha := by
    rw [recency_concat] at ha
    rcases mem_touch ha with ha | rfl
    · exact Nat.lt_of_lt_of_le (h.lt a ha) heffect.brk_le
    · exact heffect.used
  nodup := by
    rw [recency_concat]
    exact nodup_touch h.nodup x
  suffix := by
    obtain ⟨looked, hlooked, htrims⟩ := heffect.trims
    -- What is kept is the end of the order, less what the lookups have dropped.
    have hkept : kept <:+ (recency l₀ xs).filter fun a => looked a && w.alive a := by
      have hfilter := htrims.suffix.trans (h.suffix.filter looked)
      rwa [List.filter_filter] at hfilter
    have hall : ∀ a ∈ recency l₀ xs, w'.alive a = true → (looked a && w.alive a) = true := by
      intro a ha halive
      rw [hlooked a (h.lt a ha) halive, heffect.alive a (h.lt a ha) halive]
      rfl
    rw [recency_concat, ← touch_filter h.nodup hall]
    exact (touch_suffix hkept (h.nodup.filter _) x).filter w'.alive

theorem storeRun_order {w₀ : World σ} {l₀ : List FileAddr} (hwf : w₀.tree.Wf)
    (hl : w₀.fs.LruChain l₀) {calls : List StoreCall}
    (h : calls.forM (·.exec funcs) w₀ = some (.ok (), w)) :
    ∃ xs l, StoreCallRun funcs w₀ calls xs w ∧ StoreOrder l₀ xs l w := by
  induction calls using List.reverseRecOn generalizing w with
  | nil =>
    cases h
    exact ⟨[], l₀, .nil, .start hwf hl⟩
  | append_singleton calls c ih =>
    obtain ⟨w₁, hcalls, hlast⟩ := Comp.forM_append_eq_ok.mp h
    obtain ⟨_, w₂, hcall, hend⟩ := bind_eq_ok.mp hlast
    cases hend
    obtain ⟨xs, l, hrun, horder⟩ := ih hcalls
    obtain ⟨hwf', w₃, k, x, evicted, kept, htarget, heffect⟩ :=
      setFileNoop_effect funcs horder.wf horder.chain hcall
    exact ⟨xs ++ [x], _, .snoc c x hrun htarget hcall, horder.step hwf' heffect⟩

end

/-- A camera with three files. -/
def threeFilesFuncs : CameraFilesystemFuncs Unit :=
  { CameraFilesystemFuncs.none with
    fileListFunc := some fun _ s => (.ok [['a'], ['b'], ['c']], s) }

/-- A store into the top folder. -/
def storeNormal (filename : CString) : StoreCall :=
  ⟨['/'], filename, .normal, 0, .null, Or.inr (Or.inl rfl)⟩

/-- A camera with a file `o` in a subfolder. It refuses to delete all files, and the frontend
gives up at its second question. -/
def reloadFuncs : CameraFilesystemFuncs Nat :=
  { CameraFilesystemFuncs.none with
    fileListFunc := some fun path s =>
      (.ok (if path = ['/', 'd'] then [['o']] else [['n'], ['m']]), s)
    folderListFunc := some fun path s => (.ok (if path = ['/'] then [['d']] else []), s)
    deleteAllFunc := some fun _ s => (.error gpError, s)
    cancelFunc := some fun s => (s = 1, s + 1) }

/-- A store into the subfolder, one into the top folder, and a deletion that marks the top folder
dirty. -/
def reloadOps : List FsOp :=
  [.setFileNoop ['/', 'd'] ['o'] .normal 0 .null, .setFileNoop ['/'] ['n'] .normal 0 .null,
    .deleteAll ['/'] .frontend]

end GPhoto2
