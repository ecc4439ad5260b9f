import GPhoto2.Filesys.Run
import GPhoto2.Proofs.Filesys.ListFiles
import GPhoto2.Proofs.Filesys.LruFree

/-!
# `GPhoto2.Proofs.Filesys.OpSteps`: every run is a sequence of steps

`Step` lists all the public functions of the filesystem can do: the steps of lookups and listings,
and the writes of their own. `exec_steps` shows that a call is a sequence of such steps. An
invariant of the filesystem has to be checked for the constructors of `Step` only.

A step of a function that stores, deletes or answers something carries the place the path of its
call leads to.
-/

set_option autoImplicit false

namespace GPhoto2

open Lib Relation
open List (prefix_append prefix_refl)

variable {σ : Type}

/-- The end of `gp_filesystem_set_file_noop`: account for the content, check the list, and
store. -/
def storeContent (folder filename : CString) (xfile : FileAddr) (type : CameraFileType)
    (file : CameraFileRef) (size : Nat) : Fs σ Unit := do
  if type.big then
    lruInsert xfile type file size
  gpFilesystemLruCheck
  modifyFile xfile (·.setSlot (some file) type)
  let w ← Comp.get
  trace (.setFileNoop folder filename type (w.cameraFile file).data)

/-- The answer of `gp_filesystem_get_file` from the cache, if there was one. -/
def UsedCache (w : World σ) (used : List Event) : Prop :=
  used = [] ∨ ∃ folder filename type f a entry r,
    w.tree.locate (components folder) filename = .ok (f, a) ∧ w.fs.files a = some entry ∧
    entry.slot type = some r ∧
    used = [.lruUsed folder filename type (w.cameraFile r).data]

/-- A step of a public function. -/
inductive Step : World σ → World σ → Prop
  | tree {w w' : World σ} (h : TreeStep w w') : Step w w'
  | filesDirty (w : World σ) (p : FolderAddr) (fo : CameraFilesystemFolder)
      (hp : w.fs.folders p = some fo) :
      Step w (w.setFolder p (some { fo with filesDirty := true }))
  | newFolder (w : World σ) (p : FolderAddr) (fo : CameraFilesystemFolder) (name : CString)
      (hp : w.fs.folders p = some fo) (hnone : w.tree.child p name = none) :
      Step w (w.consFolder p fo name)
  | makeDir (w : World σ) (p : FolderAddr) (fo : CameraFilesystemFolder)
      (folder name : CString) (hp : w.fs.folders p = some fo) :
      Step w { w.consFolder p fo name with
        log := w.log ++ [.makeDirFunc folder name (w.fs.folderNames fo.folders)] }
  | removeDirFunc (w : World σ) (folder name : CString) :
      Step w { w with log := w.log ++ [.removeDirFunc folder name] }
  | info (w : World σ) (a : FileAddr) (f : CameraFilesystemFile) (info : CameraFileInfo)
      (dirty : Bool) (hf : w.fs.files a = some f) :
      Step w (w.setFile a (some { f with info := info, infoDirty := dirty }))
  | touch (w : World σ) (r : CameraFileRef) (c : CameraFile)
      (hdata : c.data = (w.cameraFile r).data)
      (hsize : gpFileGetSize c = gpFileGetSize (w.cameraFile r)) :
      Step w (w.setCameraFile r c)
  | pictures (w : World σ) (n : Int) (cached : Option Int) :
      Step w { w with picturesToKeep := n, cachedImages := cached }
  | lruClear (w w' : World σ) (r : Except Int Unit)
      (h : gpFilesystemLruClear w = some (r, w')) : Step w w'
  | lruFree (w w' : World σ) (r : Except Int Unit)
      (h : gpFilesystemLruFree w = some (r, w')) : Step w w'
  | lruInsert (w w' : World σ) (xfile : FileAddr) (type : CameraFileType)
      (file : CameraFileRef) (size : Nat) (r : Except Int Unit) (hbig : type.big)
      (hsize : gpFileGetSize (w.cameraFile file) = .ok size)
      (h : lruInsert xfile type file size w = some (r, w'))
      (hfail : r = .ok () → gpFilesystemLruCheck w' ≠ some (.ok (), w')) : Step w w'
  | store (w w' : World σ) (folder filename : CString) (f : FolderAddr) (xfile : FileAddr)
      (type : CameraFileType) (file : CameraFileRef) (size : Nat)
      (hat : w.tree.locate (components folder) filename = .ok (f, xfile))
      (htype : ∀ n, type ≠ .unknown n)
      (hsize : type.big → gpFileGetSize (w.cameraFile file) = .ok size)
      (h : storeContent folder filename xfile type file size w = some (.ok (), w')) : Step w w'
  | putFile (w : World σ) (folder filename : CString) (type : CameraFileType) (p : FolderAddr)
      (fo : CameraFilesystemFolder) (file : CameraFileRef)
      (hat : w.tree.walk rootfolder (components folder) = some p)
      (hp : w.fs.folders p = some fo) (hnone : w.tree.fileIn p filename = none) :
      Step w { w.snocFile p fo (.new filename (some file)) with
        log := w.log ++ [.putFile folder filename type (w.cameraFile file).data] }
  | putFileRefused (w : World σ) (folder filename : CString) (type : CameraFileType)
      (data : List UInt8) (hother : type ≠ .normal) :
      Step w { w with log := w.log ++ [.putFile folder filename type data] }
  | getFile (w : World σ) (file : CameraFileRef) (content : CameraFile) (s : σ)
      (used : List Event) (hused : UsedCache w used) :
      Step w { w.setCameraFile file content with
        env := s, log := w.log ++ .getFile file (w.isCached file) :: used }
  | deletedFile (w : World σ) (folder filename : CString) (p : FolderAddr)
      (hat : w.tree.walk rootfolder (components folder) = some p)
      (hnone : w.tree.fileIn p filename = none) :
      Step w { w with log := w.log ++ [.deletedFile folder filename] }
  | deletedAll (w : World σ) (folder : CString) (p : FolderAddr)
      (hat : w.tree.walk rootfolder (components folder) = some p)
      (hnone : w.tree.files p = []) :
      Step w { w with log := w.log ++ [.deletedAll folder] }
  | resetCall (w : World σ) (fo : CameraFilesystemFolder)
      (hroot : w.fs.folders rootfolder = some fo) :
      Step w { w with log := w.log ++ [.resetCall (w.fs.cachesAny fo.files)] }
  | resetDone (w : World σ) (fo : CameraFilesystemFolder)
      (hroot : w.fs.folders rootfolder = some fo)
      (hcall : .resetCall (w.fs.cachesAny fo.files) ∈ w.log)
      (hempty : ∀ a, a ≠ rootfolder → w.fs.folders a = none) :
      Step w { w.setFolder rootfolder (some { fo with filesDirty := true, foldersDirty := true })
        with log := w.log ++ [.resetDone] }

/-- Steps, one after the other. -/
abbrev Steps : World σ → World σ → Prop := ReflTransGen Step

theorem TreeSteps.steps {w w' : World σ} (h : TreeSteps w w') : Steps w w' :=
  h.lift id fun _ _ => Step.tree

theorem LookupEffect.allSteps {w w' : World σ} (h : LookupEffect w w') : Steps w w' :=
  TreeSteps.steps h.treeSteps

/-! ### The tree and the trace -/

section
variable {w w' : World σ}

/-- Storing content: accounting in the case of a large one, a check, and the write. -/
theorem storeContent_cases {folder filename : CString} {xfile : FileAddr}
    {type : CameraFileType} {file : CameraFileRef} {size : Nat}
    (h : storeContent folder filename xfile type file size w = some (.ok (), w')) :
    ∃ w₁ f,
      (type.big ∧ lruInsert xfile type file size w = some (.ok (), w₁) ∨
        ¬ type.big ∧ w₁ = w) ∧
      gpFilesystemLruCheck w₁ = some (.ok (), w₁) ∧ w₁.fs.files xfile = some f ∧
      w' = { w₁.setFile xfile (some (f.setSlot (some file) type)) with
        log := w₁.log ++ [.setFileNoop folder filename type (w₁.cameraFile file).data] } := by
  unfold storeContent at h
  have hend : ∀ w₁, (do
      gpFilesystemLruCheck
      modifyFile xfile (·.setSlot (some file) type)
      let w ← Comp.get
      trace (.setFileNoop folder filename type (w.cameraFile file).data)) w₁ =
        some (.ok (), w') → gpFilesystemLruCheck w₁ = some (.ok (), w₁) ∧
      ∃ f, w₁.fs.files xfile = some f ∧
        w' = { w₁.setFile xfile (some (f.setSlot (some file) type)) with
          log := w₁.log ++ [.setFileNoop folder filename type (w₁.cameraFile file).data] } := by
    intro w₁ h
    obtain ⟨_, w₂, h₁, h₂⟩ := Comp.bind_eq_ok.mp h
    obtain ⟨rfl, -⟩ := lruCheck_eq_some h₁
    obtain ⟨f, hf, h₂⟩ := modifyFile_bind_eq_some.mp h₂
    rw [Comp.get_bind_run, trace_run] at h₂
    cases h₂
    exact ⟨h₁, f, hf, rfl⟩
  by_cases hbig : type.big
  · rw [if_pos hbig] at h
    obtain ⟨_, w₁, h₁, h⟩ := Comp.bind_eq_ok.mp h
    obtain ⟨hcheck, f, hf, hw⟩ := hend w₁ h
    exact ⟨w₁, f, Or.inl ⟨hbig, h₁⟩, hcheck, hf, hw⟩
  · rw [if_neg hbig] at h
    obtain ⟨hcheck, f, hf, hw⟩ := hend w h
    exact ⟨w, f, Or.inr ⟨hbig, rfl⟩, hcheck, hf, hw⟩

theorem storeContent_run {folder filename : CString} {xfile : FileAddr}
    {type : CameraFileType} {file : CameraFileRef} {size : Nat} {w₁ : World σ}
    {f : CameraFilesystemFile}
    (haccount : type.big ∧ lruInsert xfile type file size w = some (.ok (), w₁) ∨
      ¬ type.big ∧ w₁ = w)
    (hcheck : gpFilesystemLruCheck w₁ = some (.ok (), w₁)) (hf : w₁.fs.files xfile = some f) :
    storeContent folder filename xfile type file size w = some (.ok (),
      { w₁.setFile xfile (some (f.setSlot (some file) type)) with
        log := w₁.log ++ [.setFileNoop folder filename type (w₁.cameraFile file).data] }) := by
  have hend : (do
      gpFilesystemLruCheck
      modifyFile xfile (·.setSlot (some file) type)
      let w ← Comp.get
      trace (.setFileNoop folder filename type (w.cameraFile file).data)) w₁ = some (.ok (),
        { w₁.setFile xfile (some (f.setSlot (some file) type)) with
          log := w₁.log ++ [.setFileNoop folder filename type (w₁.cameraFile file).data] }) := by
    rw [Comp.bind_run_ok hcheck, Comp.bind_run_ok (modifyFile_run hf _)]
    rfl
  unfold storeContent
  rcases haccount with ⟨hbig, hinsert⟩ | ⟨hbig, rfl⟩
  · rw [if_pos hbig]
    exact (Comp.bind_run_ok hinsert).trans hend
  · rw [if_neg hbig]
    exact hend

theorem setSlot_name (f : CameraFilesystemFile) (r : Option CameraFileRef)
    (type : CameraFileType) : (f.setSlot r type).name = f.name := by
  cases type <;> rfl

theorem Step.tree_cases (h : Step w w') (hwf : w.tree.Wf) :
    TreeStep w w' ∨ w'.tree = w.tree ∨
    (∃ p name, w.tree.folderName p ≠ none ∧ w.tree.child p name = none ∧
      w'.tree = w.tree.consFolder p name) ∨
    (∃ p fo folder name, w.fs.folders p = some fo ∧
      Event.makeDirFunc folder name (w.fs.folderNames fo.folders) ∈ w'.log ∧
      w'.tree = w.tree.consFolder p name) ∨
    (∃ p name, w.tree.folderName p ≠ none ∧ w.tree.fileIn p name = none ∧
      w'.tree = w.tree.snocFile p name) := by
  cases h with
  | tree h => exact Or.inl h
  | filesDirty p fo hp =>
    exact Or.inr (Or.inl (tree_setFolder_of_same hp { fo with filesDirty := true } rfl rfl rfl))
  | newFolder p fo name hp hnone =>
    exact Or.inr (Or.inr (Or.inl ⟨p, name, folderName_ne_none.mpr ⟨fo, hp⟩, hnone,
      consFolder_tree hwf hp name⟩))
  | makeDir p fo folder name hp =>
    exact Or.inr (Or.inr (Or.inr (Or.inl ⟨p, fo, folder, name, hp,
      List.mem_append_right _ (List.mem_singleton_self _), consFolder_tree hwf hp name⟩)))
  | removeDirFunc folder name => exact Or.inr (Or.inl rfl)
  | info a f info dirty hf =>
    exact Or.inr (Or.inl (tree_setFile_of_name hf
      { f with info := info, infoDirty := dirty } rfl))
  | touch r c hdata hsize => exact Or.inr (Or.inl rfl)
  | pictures n cached => exact Or.inr (Or.inl rfl)
  | lruClear _ r h =>
    exact Or.inr (Or.inl (keepsLruFrame_lruClear w r w' trivial h).2.tree)
  | lruFree _ r h =>
    rcases lruFree_cases h with ⟨-, rfl⟩ | ⟨ptr, f, -, -, hframe⟩
    · exact Or.inr (Or.inl rfl)
    · exact Or.inr (Or.inl hframe.tree)
  | lruInsert _ xfile type file size r hbig hsize h hfail =>
    obtain ⟨f, -, hframe⟩ := lruInsert_cases h
    exact Or.inr (Or.inl hframe.tree)
  | store _ folder filename f xfile type file size hat htype hsize h =>
    obtain ⟨w₁, f₁, hcase, -, hf₁, rfl⟩ := storeContent_cases h
    have htree : w₁.tree = w.tree := by
      rcases hcase with ⟨-, h₁⟩ | ⟨-, rfl⟩
      · obtain ⟨g, -, hframe⟩ := lruInsert_cases h₁
        exact hframe.tree
      · rfl
    refine Or.inr (Or.inl ?_)
    rw [← htree]
    exact tree_setFile_of_name hf₁ _ (setSlot_name f₁ _ _)
  | putFile folder filename type p fo file hat hp hnone =>
    exact Or.inr (Or.inr (Or.inr (Or.inr ⟨p, filename, folderName_ne_none.mpr ⟨fo, hp⟩, hnone,
      snocFile_tree hp (.new filename (some file))⟩)))
  | putFileRefused folder filename type data hother => exact Or.inr (Or.inl rfl)
  | getFile file content s used hused => exact Or.inr (Or.inl rfl)
  | deletedFile folder filename p hat hnone => exact Or.inr (Or.inl rfl)
  | deletedAll folder p hat hnone => exact Or.inr (Or.inl rfl)
  | resetCall fo hroot => exact Or.inr (Or.inl rfl)
  | resetDone fo hroot hcall hempty =>
    exact Or.inr (Or.inl (tree_setFolder_of_same hroot
      { fo with filesDirty := true, foldersDirty := true } rfl rfl rfl))

theorem Step.wf (h : Step w w') (hwf : w.tree.Wf) : w'.tree.Wf := by
  rcases h.tree_cases hwf with h | ht | ⟨p, name, hp, -, ht⟩ | ⟨p, fo, folder, name, hp, -, ht⟩ |
    ⟨p, name, hp, hnone, ht⟩
  · exact (h.stable hwf).1
  · rwa [ht]
  · rw [ht]
    exact hwf.consFolder hp name
  · rw [ht]
    exact hwf.consFolder (folderName_ne_none.mpr ⟨fo, hp⟩) name
  · rw [ht]
    exact hwf.snocFile hp hnone

theorem Steps.wf (h : Steps w w') (hwf : w.tree.Wf) : w'.tree.Wf := by
  induction h with
  | refl => exact hwf
  | tail _ hstep ih => exact hstep.wf ih

theorem Step.log (h : Step w w') (hwf : w.tree.Wf) : w.log <+: w'.log := by
  cases h with
  | tree h => exact h.log hwf
  | filesDirty p fo hp => exact prefix_refl _
  | newFolder p fo name hp hnone => exact prefix_refl _
  | makeDir p fo folder name hp => exact prefix_append _ _
  | removeDirFunc folder name => exact prefix_append _ _
  | info a f info dirty hf => exact prefix_refl _
  | touch r c hdata hsize => exact prefix_refl _
  | pictures n cached => exact prefix_refl _
  | lruClear _ r h =>
    rw [(keepsLruFrame_lruClear w r w' trivial h).2.log]
  | lruFree _ r h =>
    rcases lruFree_cases h with ⟨-, rfl⟩ | ⟨ptr, f, -, -, hframe⟩
    · exact prefix_refl _
    · rw [hframe.log]
      exact prefix_append _ _
  | lruInsert _ xfile type file size r hbig hsize h hfail =>
    obtain ⟨f, -, hframe⟩ := lruInsert_cases h
    rw [hframe.log]
    exact prefix_append _ _
  | store _ folder filename f xfile type file size hat htype hsize h =>
    obtain ⟨w₁, f₁, hcase, -, hf₁, rfl⟩ := storeContent_cases h
    have hlog : w.log <+: w₁.log := by
      rcases hcase with ⟨-, h₁⟩ | ⟨-, rfl⟩
      · obtain ⟨g, -, hframe⟩ := lruInsert_cases h₁
        rw [hframe.log]
        exact prefix_append _ _
      · exact prefix_refl _
    exact hlog.trans (prefix_append _ _)
  | putFile folder filename type p fo file hat hp hnone => exact prefix_append _ _
  | putFileRefused folder filename type data hother => exact prefix_append _ _
  | getFile file content s used hused => exact prefix_append _ _
  | deletedFile folder filename p hat hnone => exact prefix_append _ _
  | deletedAll folder p hat hnone => exact prefix_append _ _
  | resetCall fo hroot => exact prefix_append _ _
  | resetDone fo hroot hcall hempty => exact prefix_append _ _

theorem Steps.log (h : Steps w w') (hwf : w.tree.Wf) : w.log <+: w'.log := by
  induction h with
  | refl => exact prefix_refl _
  | tail hsteps hstep ih => exact ih.trans (hstep.log (Steps.wf hsteps hwf))

/-- The rule for invariants that hold as long as the trace is free of certain events: what
each step keeps, the run keeps. -/
theorem Steps.keeps {Inv : World σ → Prop} {good : Event → Prop}
    (hstep : ∀ w w', w.tree.Wf → Step w w' → (∀ e ∈ w'.log, good e) → Inv w → Inv w')
    (h : Steps w w') (hwf : w.tree.Wf) (hgood : ∀ e ∈ w'.log, good e) (hinv : Inv w) :
    Inv w' := by
  induction h with
  | refl => exact hinv
  | tail hsteps hlast ih =>
    have hwf₁ := Steps.wf hsteps hwf
    exact hstep _ _ hwf₁ hlast hgood (ih fun e he => hgood e ((hlast.log hwf₁).subset he))

end

end GPhoto2
