import GPhoto2.Proofs.Filesys.ExecSteps
import GPhoto2.Proofs.Filesys.Observed

/-!
# `GPhoto2.Proofs.Filesys.Reset`: a filesystem after `gp_filesystem_reset`

`gp_filesystem_reset` clears the LRU list, deletes all folders below the root folder, and marks
the root folder dirty. It does not delete the files of the root folder. If there were none, all
that is left of the old filesystem is `lru_size`, and nothing observes it: every later run has
the same results as on a new filesystem. If there were some, `gp_filesystem_count` still counts
them. `reset_observes_new_iff` puts the two together.
-/

set_option autoImplicit false

namespace GPhoto2

open Lib Relation
open Lib.Comp (Keeps bind_eq_ok get_bind_run)

variable {σ α : Type}

/-! ### The ends of the LRU list -/

/-- A property of the two ends of the LRU list. -/
def EndsInv (P : Option FileAddr → Option FileAddr → Prop) (w : World σ) : Prop :=
  P w.fs.lruFirst w.fs.lruLast

section
variable {P : Option FileAddr → Option FileAddr → Prop}

/-- Keeping a property of the two ends. -/
abbrev KeepsEnds (P : Option FileAddr → Option FileAddr → Prop) (m : Fs σ α) : Prop :=
  Keeps (EndsInv P) (fun _ _ => True) m

theorem keepsEnds_derefFile (a : FileAddr) :
    KeepsEnds P (derefFile a : Fs σ CameraFilesystemFile) := by
  intro w r w' hw h
  obtain ⟨f, -, -, rfl⟩ := derefFile_eq_some.mp h
  exact ⟨hw, trivial⟩

theorem keepsEnds_modifyFile (a : FileAddr) (g : CameraFilesystemFile → CameraFilesystemFile) :
    KeepsEnds P (modifyFile a g : Fs σ Unit) := by
  intro w r w' hw h
  obtain ⟨f, -, -, rfl⟩ := modifyFile_eq_some.mp h
  exact ⟨hw, trivial⟩

theorem keepsEnds_cameraFileSize (r : CameraFileRef) :
    KeepsEnds P (cameraFileSize r : Fs σ Nat) :=
  Keeps.get.bind fun _ => .ofExcept _

theorem keepsEnds_setLruSize (g : World σ → Nat) :
    KeepsEnds P (Comp.modify fun w => w.setLruSize (g w) : Fs σ Unit) :=
  .modify fun _ hw => ⟨hw, trivial⟩

theorem keepsEnds_setLru {first last : Option FileAddr} (h : P first last) :
    KeepsEnds P (Comp.modify (·.setLru first last) : Fs σ Unit) :=
  .modify fun _ _ => ⟨h, trivial⟩

theorem keepsEnds_lruClearLoop (n : Nat) (ptr : Option FileAddr) (prev : FileAddr) :
    KeepsEnds P (lruClearLoop n ptr prev : Fs σ Unit) := by
  induction n generalizing ptr prev with
  | zero =>
    cases ptr with
    | none => exact .pure _
    | some ptr => exact .stuck
  | succ n ih =>
    cases ptr with
    | none => exact .pure _
    | some ptr =>
      refine (keepsEnds_derefFile ptr).bind fun f => ?_
      refine .ite (fun _ => .throw _) fun _ => ?_
      exact (keepsEnds_modifyFile ptr _).bind fun _ => ih f.lruNext ptr

theorem keepsEnds_lruClear (hempty : P none none) :
    KeepsEnds P (gpFilesystemLruClear : Fs σ Unit) := by
  refine Keeps.get.bind fun w => ?_
  cases w.fs.lruFirst with
  | none => exact .pure _
  | some first =>
    exact (keepsEnds_lruClearLoop _ _ _).bind fun _ =>
      .modify fun _ _ => ⟨hempty, trivial⟩

theorem keepsEnds_lruUncount (f : CameraFilesystemFile) (type : CameraFileType) :
    KeepsEnds P (lruUncount f type : Fs σ Unit) := by
  have hcount : KeepsEnds P (uncountSlot (f.slot type) : Fs σ Unit) := by
    cases f.slot type with
    | none => exact .pure _
    | some oldfile => exact (keepsEnds_cameraFileSize oldfile).bind fun _ => keepsEnds_setLruSize _
  cases type with
  | normal | raw | audio => exact hcount
  | preview | exif | metadata => exact .pure _
  | unknown n => exact .throw _

theorem keepsEnds_lruFreeSlot (ptr : FileAddr) (type : CameraFileType) :
    KeepsEnds P (lruFreeSlot ptr type : Fs σ Unit) := by
  refine (keepsEnds_derefFile ptr).bind fun f => ?_
  cases f.slot type with
  | none => exact .pure _
  | some r =>
    exact (keepsEnds_cameraFileSize r).bind fun _ => (keepsEnds_setLruSize _).bind fun _ =>
      keepsEnds_modifyFile ptr _

variable (honly : ∀ a, P (some a) (some a) → P none none)
include honly

/-- Taking an entry off the list. The three conditions are the three cases in which it is at
an end. -/
theorem lruMoveEnds_ends {item : FileAddr} {f : CameraFilesystemFile} {w w' : World σ}
    {r : Except Int Unit}
    (hlast : ∀ first a b, P first (some a) → P first (some b))
    (hfirst : ∀ a b last, P (some a) last → P (some b) last) (hprev : f.lruPrev ≠ none)
    (h : lruMoveEnds item f w = some (r, w')) (hw : EndsInv P w) : EndsInv P w' := by
  obtain ⟨prev, hprev⟩ := Option.ne_none_iff_exists'.mp hprev
  unfold lruMoveEnds at h
  rw [get_bind_run] at h
  unfold EndsInv at hw ⊢
  by_cases hl : w.fs.lruLast = some item
  · rw [if_pos hl] at h
    rw [hl] at hw
    by_cases hf : w.fs.lruFirst = some item
    · rw [if_pos hf] at h
      rw [hf] at hw
      cases h
      exact honly item hw
    · rw [if_neg hf, hprev] at h
      cases h
      exact hlast _ item prev hw
  · rw [if_neg hl] at h
    by_cases hf : w.fs.lruFirst = some item
    · rw [if_pos hf] at h
      rw [hf] at hw
      cases hnext : f.lruNext with
      | none =>
        rw [hnext] at h
        cases h
      | some next =>
        rw [hnext] at h
        obtain ⟨n, -, -, rfl⟩ := modifyFile_eq_some.mp h
        exact hfirst item next _ hw
    · rw [if_neg hf] at h
      cases h
      exact hw

theorem keepsEnds_lruRemoveOne (hlast : ∀ first a b, P first (some a) → P first (some b))
    (hfirst : ∀ a b last, P (some a) last → P (some b) last) (item : FileAddr) :
    KeepsEnds P (gpFilesystemLruRemoveOne item : Fs σ Unit) := by
  intro w r w' hw h
  refine ⟨?_, trivial⟩
  obtain ⟨f, hf, h⟩ := derefFile_bind_eq_some.mp h
  cases hprev : f.lruPrev with
  | none =>
    rw [hprev] at h
    cases h
    exact hw
  | some prev =>
    simp only [hprev] at h
    obtain ⟨p, hp, h⟩ := modifyFile_bind_eq_some.mp h
    obtain ⟨f₁, hf₁, h⟩ := derefFile_bind_eq_some.mp h
    -- The pointer back stays set until the end.
    have hprev₁ : f₁.lruPrev = some prev := by
      by_cases hip : item = prev
      · subst hip
        rw [hf, Option.some.injEq] at hp
        subst hp
        simp only [World.setFile_fs_files, Function.update_self, Option.some.injEq] at hf₁
        rw [← hf₁, hprev]
      · rw [World.setFile_fs_files, Function.update_of_ne hip, hf, Option.some.injEq] at hf₁
        rw [← hf₁, hprev]
    have hend : ∀ (w₂ : World σ) (f₂ : CameraFilesystemFile), (do
        let f ← derefFile item
        lruMoveEnds item f
        modifyFile item fun f => { f with lruPrev := none, lruNext := none }) w₂ = some (r, w') →
        EndsInv P w₂ → w₂.fs.files item = some f₂ → f₂.lruPrev ≠ none → EndsInv P w' := by
      intro w₂ f₂ h hw₂ hf₂ hprev₂
      obtain ⟨f₂', hf₂', h⟩ := derefFile_bind_eq_some.mp h
      obtain rfl := Option.some.inj (hf₂.symm.trans hf₂')
      rcases Comp.bind_eq_some.mp h with ⟨e, h₃, -⟩ | ⟨_, w₃, h₃, h⟩
      · exact lruMoveEnds_ends honly hlast hfirst hprev₂ h₃ hw₂
      · have hw₃ := lruMoveEnds_ends honly hlast hfirst hprev₂ h₃ hw₂
        obtain ⟨f₃, -, -, rfl⟩ := modifyFile_eq_some.mp h
        exact hw₃
    cases hnext : f₁.lruNext with
    | none =>
      simp only [hnext, whenSome] at h
      exact hend _ f₁ h hw hf₁ (by simp [hprev₁])
    | some next =>
      simp only [hnext, whenSome] at h
      obtain ⟨n, hn, h⟩ := modifyFile_bind_eq_some.mp h
      by_cases hin : item = next
      · subst hin
        exact hend _ { n with lruPrev := f₁.lruPrev } h hw (by simp) (by simp [hprev₁])
      · refine hend _ f₁ h hw ?_ (by simp [hprev₁])
        rw [World.setFile_fs_files, Function.update_of_ne hin, hf₁]

end

/-- Both ends of the LRU list are there, or none is. -/
def EndsAgree (first last : Option FileAddr) : Prop := first = none ↔ last = none

theorem endsAgree_some (a b : FileAddr) : EndsAgree (some a) (some b) :=
  ⟨fun h => (by cases h), fun h => (by cases h)⟩

theorem endsAgree_none : EndsAgree none none := Iff.rfl

section
variable {w w' : World σ}

theorem keepsEndsAgree_lruRemoveOne (item : FileAddr) :
    KeepsEnds EndsAgree (gpFilesystemLruRemoveOne item : Fs σ Unit) := by
  refine keepsEnds_lruRemoveOne (fun _ _ => endsAgree_none) (fun first a b h => ?_)
    (fun a b last h => ?_) item
  · exact h.trans ⟨fun h => (by cases h), fun h => (by cases h)⟩
  · exact Iff.trans ⟨fun h => (by cases h), fun h => (by cases h)⟩ h

theorem keepsEndsAgree_lruFree : KeepsEnds EndsAgree (gpFilesystemLruFree : Fs σ Unit) := by
  refine .get_bind fun w r w' hw h => ?_
  cases hfirst : w.fs.lruFirst with
  | none =>
    rw [hfirst] at h
    cases h
    exact ⟨hw, trivial⟩
  | some ptr =>
    simp only [hfirst] at h
    obtain ⟨f, hf, h⟩ := derefFile_bind_eq_some.mp h
    rw [trace_bind_run] at h
    have hlast : ∃ last, w.fs.lruLast = some last := by
      refine Option.ne_none_iff_exists'.mp fun hn => ?_
      rw [hw.mpr hn] at hfirst
      cases hfirst
    obtain ⟨last, hlast⟩ := hlast
    -- The next entry becomes the first, with the same last one; or none is left.
    have hdrop : ∀ (w₀ : World σ) r₁ w₁, lruDropFirst f.lruNext w₀ = some (r₁, w₁) →
        w₀.fs.lruLast = some last → EndsInv EndsAgree w₁ := by
      intro w₀ r₁ w₁ h₁ hlast₀
      unfold lruDropFirst at h₁
      rw [get_bind_run, hlast₀] at h₁
      cases hnext : f.lruNext with
      | none =>
        rw [hnext] at h₁
        cases h₁
        exact endsAgree_none
      | some next =>
        rw [hnext] at h₁
        obtain ⟨n, -, -, rfl⟩ := modifyFile_eq_some.mp h₁
        exact endsAgree_some next last
    rcases Comp.bind_eq_some.mp h with ⟨e, h₁, -⟩ | ⟨_, w₁, h₁, h⟩
    · exact ⟨hdrop _ _ _ h₁ hlast, trivial⟩
    · have hrest : KeepsEnds EndsAgree (do
          lruFreeSlot ptr .normal
          lruFreeSlot ptr .raw
          lruFreeSlot ptr .audio
          modifyFile ptr fun f => { f with lruPrev := none, lruNext := none } : Fs σ Unit) :=
        (keepsEnds_lruFreeSlot ptr .normal).bind fun _ =>
          (keepsEnds_lruFreeSlot ptr .raw).bind fun _ =>
          (keepsEnds_lruFreeSlot ptr .audio).bind fun _ => keepsEnds_modifyFile ptr _
      exact hrest _ _ _ (hdrop _ _ _ h₁ hlast) h

theorem keepsEndsAgree_lruAttach (xfile : FileAddr) :
    KeepsEnds EndsAgree (lruAttach xfile : Fs σ Unit) := by
  refine Keeps.get.bind fun w => ?_
  cases w.fs.lruFirst with
  | none => exact (keepsEnds_setLru (endsAgree_some _ _)).bind fun _ => keepsEnds_modifyFile _ _
  | some first =>
    cases w.fs.lruLast with
    | none => exact .stuck
    | some last =>
      exact (keepsEnds_modifyFile xfile _).bind fun _ => (keepsEnds_modifyFile last _).bind fun _ =>
        keepsEnds_setLru (endsAgree_some _ _)

theorem keepsEndsAgree_lruInsert (xfile : FileAddr) (type : CameraFileType)
    (file : CameraFileRef) (size : Nat) :
    KeepsEnds EndsAgree (lruInsert xfile type file size : Fs σ Unit) := by
  refine (keepsEnds_derefFile xfile).bind fun f => Keeps.get.bind fun w => ?_
  have htrace : ∀ e, KeepsEnds EndsAgree (trace e : Fs σ Unit) := fun e =>
    .modify fun _ hw => ⟨hw, trivial⟩
  have hdetach : KeepsEnds EndsAgree (lruDetach xfile type : Fs σ Unit) :=
    (keepsEnds_derefFile xfile).bind fun f => .ite (fun _ =>
      (keepsEnds_lruUncount f type).bind fun _ => keepsEndsAgree_lruRemoveOne xfile)
      fun _ => .pure _
  exact (htrace _).bind fun _ => hdetach.bind fun _ => (keepsEndsAgree_lruAttach xfile).bind
    fun _ => (keepsEnds_cameraFileSize file).bind fun _ => keepsEnds_setLruSize _

/-- Dropping a file writes the ends of the list in `gp_filesystem_lru_remove_one` only. -/
theorem dropFile_ends {P : Option FileAddr → Option FileAddr → Prop} {p : FolderAddr}
    {a : FileAddr} {r : Except Int Unit}
    (hP : KeepsEnds P (gpFilesystemLruRemoveOne a : Fs σ Unit))
    (h : dropFile p a w = some (r, w')) (hw : EndsInv P w) : EndsInv P w' := by
  obtain ⟨f, w₁, fo, r₁, -, -, -, h₁, rfl⟩ := dropFile_eq_some h
  exact (hP { w with log := w.log ++ [.dropFile (w.lruEntry a f)] } r₁ w₁ hw h₁).1

theorem LookupStep.ends {P : Option FileAddr → Option FileAddr → Prop}
    (hP : ∀ a, KeepsEnds P (gpFilesystemLruRemoveOne a : Fs σ Unit)) (h : LookupStep w w')
    (hwf : w.tree.Wf) (hw : EndsInv P w) : EndsInv P w' := by
  cases h with
  | env s => exact hw
  | folderListFunc path answer => exact hw
  | foldersClean p fo hp => exact hw
  | dropFile _ p a ha h => exact dropFile_ends (hP a) h hw
  | dropFolder p c fo hp hc hfolders hfiles => exact hw
  | relist _ p path names hlog hempty h =>
    rcases appendFolders_alive hwf h with rfl | ⟨fo, hp⟩
    · cases h
      exact hw
    · obtain ⟨-, -, ⟨_, _, rfl⟩, -⟩ := appendFolders_run hwf hp h
      exact hw

theorem Step.endsAgree (h : Step w w') (hwf : w.tree.Wf) (hw : EndsInv EndsAgree w) :
    EndsInv EndsAgree w' := by
  cases h with
  | tree h =>
    cases h with
    | lookup h => exact h.ends keepsEndsAgree_lruRemoveOne hwf hw
    | fileListFunc path answer => exact hw
    | filesClean p fo hp => exact hw
    | newFile p fo name hp hnone => exact hw
  | lruClear _ r h => exact (keepsEnds_lruClear endsAgree_none _ _ _ hw h).1
  | lruFree _ r h => exact (keepsEndsAgree_lruFree _ _ _ hw h).1
  | lruInsert _ x type file size r hbig hsize h hfail =>
    exact (keepsEndsAgree_lruInsert x type file size _ _ _ hw h).1
  | store _ folder filename f x type file size hat htype hsize h =>
    obtain ⟨w₁, f₁, hcase, -, -, rfl⟩ := storeContent_cases h
    rcases hcase with ⟨-, hinsert⟩ | ⟨-, rfl⟩
    · exact (keepsEndsAgree_lruInsert x type file size _ _ _ hw hinsert).1
    · exact hw
  | filesDirty p fo hp => exact hw
  | newFolder p fo name hp hnone => exact hw
  | makeDir p fo folder name hp => exact hw
  | removeDirFunc folder name => exact hw
  | info a f info dirty hf => exact hw
  | touch r c hdata hsize => exact hw
  | pictures n cached => exact hw
  | putFile folder filename type p fo file hat hp hnone => exact hw
  | putFileRefused folder filename type data hother => exact hw
  | getFile file content s used hused => exact hw
  | deletedFile folder filename p hat hnone => exact hw
  | deletedAll folder p hat hnone => exact hw
  | resetCall fo hroot => exact hw
  | resetDone fo hroot hcall hempty => exact hw

theorem Reachable.endsAgree {funcs : CameraFilesystemFuncs σ} (h : Reachable funcs w) :
    EndsInv EndsAgree w :=
  h.induction funcs (fun w₀ hnew => by unfold EndsInv; rw [hnew.fs]; exact endsAgree_none)
    (fun _ _ hwf hstep _ => hstep.endsAgree hwf) (fun _ _ => trivial)

end

/-! ### What is left after a reset -/

/-- What a caller sees of a run: the results, the `CameraFile`s, and the driver and the
frontend. -/
def observe (run : Option (List (Except Int FsValue) × World σ)) :
    Option (List (Except Int FsValue) × (CameraFileRef → CameraFile) × σ) :=
  run.map fun p => (p.1, p.2.cameraFile, p.2.env)

section
variable {w w' : World σ}

theorem lruClear_ok (hw : EndsInv EndsAgree w)
    (h : gpFilesystemLruClear w = some (.ok (), w')) :
    w'.fs.lruFirst = none ∧ w'.fs.lruLast = none := by
  unfold gpFilesystemLruClear at h
  rw [get_bind_run] at h
  cases hfirst : w.fs.lruFirst with
  | none =>
    rw [hfirst] at h
    cases h
    exact ⟨hfirst, hw.mp hfirst⟩
  | some first =>
    rw [hfirst] at h
    obtain ⟨_, w₁, -, h⟩ := bind_eq_ok.mp h
    cases h
    exact ⟨rfl, rfl⟩

theorem LookupSteps.ends_none (h : LookupSteps w w') (hwf : w.tree.Wf)
    (hfirst : w.fs.lruFirst = none) (hlast : w.fs.lruLast = none) :
    w'.fs.lruFirst = none ∧ w'.fs.lruLast = none := by
  have hnone : EndsInv (fun first last => first = none ∧ last = none) w' := by
    induction h with
    | refl => exact ⟨hfirst, hlast⟩
    | tail hsteps hstep ih =>
      refine hstep.ends (fun a => ?_) (LookupSteps.stable hsteps hwf).1 ih
      exact keepsEnds_lruRemoveOne (fun _ _ => ⟨rfl, rfl⟩) (fun _ _ _ h => (by cases h.2))
        (fun _ _ _ h => (by cases h.1)) a
  exact hnone

variable (funcs : CameraFilesystemFuncs σ)

/-- A reset leaves the root folder, with its files, and an empty LRU list. -/
theorem reset_run (hwf : w.tree.Wf) (hends : EndsInv EndsAgree w)
    (h : gpFilesystemReset funcs w = some (.ok (), w')) :
    ∃ fo, w.fs.folders rootfolder = some fo ∧
      w'.fs.folders rootfolder =
        some { fo with folders := [], filesDirty := true, foldersDirty := true } ∧
      (∀ q, q ≠ rootfolder → w'.fs.folders q = none) ∧ w'.fs.lruFirst = none ∧
      w'.fs.lruLast = none := by
  obtain ⟨fo, hfo, h⟩ := derefFolder_bind_eq_some.mp h
  rw [get_bind_run, trace_bind_run] at h
  generalize hw₀ : ({ w with log := _ } : World σ) = w₀ at h
  have hwf₀ : w₀.tree.Wf := by rwa [← hw₀]
  have hfo₀ : w₀.fs.folders rootfolder = some fo := by rwa [← hw₀]
  have hends₀ : EndsInv EndsAgree w₀ := by rwa [← hw₀]
  obtain ⟨_, w₁, h₁, h⟩ := bind_eq_ok.mp h
  have hframe := (keepsLruFrame_lruClear _ _ w₁ trivial h₁).2
  obtain ⟨hfirst₁, hlast₁⟩ := lruClear_ok hends₀ h₁
  have hwf₁ : w₁.tree.Wf := by rwa [hframe.tree]
  obtain ⟨_, w₂, h₂, h⟩ := bind_eq_ok.mp h
  obtain ⟨-, hsteps, hfo₂, hgone, -⟩ :=
    deleteAllFolders_root_run funcs hwf₁ (by rwa [hframe.folders]) h₂
  obtain ⟨hfirst₂, hlast₂⟩ := hsteps.ends_none hwf₁ hfirst₁ hlast₁
  obtain ⟨fo₂, hfo₂', h⟩ := modifyFolder_bind_eq_some.mp h
  obtain rfl := Option.some.inj (hfo₂.symm.trans hfo₂')
  cases h
  refine ⟨fo, hfo, by simp, fun q hq => ?_, hfirst₂, hlast₂⟩
  rw [World.setFolder_fs_folders, Function.update_of_ne hq, hgone q hq]

/-- If the root folder had no files, nothing that can be observed is left of the old
filesystem. -/
theorem reset_observed (hwf : w.tree.Wf) (hends : EndsInv EndsAgree w)
    (h : gpFilesystemReset funcs w = some (.ok (), w'))
    (hroot : w.tree.files rootfolder = []) :
    w'.observed = World.observed { w' with fs := gpFilesystemNew } := by
  obtain ⟨fo, hfo, hfo', hgone, hfirst, hlast⟩ := reset_run funcs hwf hends h
  have hwf' : w'.tree.Wf := (keepsSteps_reset funcs _ _ _ hwf h).1
  rw [tree_files hfo] at hroot
  have hfolders : w'.fs.folders = gpFilesystemNew.folders := by
    funext q
    by_cases hq : q = rootfolder
    · have hname := hwf'.root
      rw [tree_folderName hfo', Option.some.injEq] at hname
      rw [hq, hfo']
      show some _ = some _
      rw [Option.some.injEq, CameraFilesystemFolder.mk.injEq]
      exact ⟨hname, rfl, rfl, rfl, hroot⟩
    · rw [hgone q hq]
      exact (if_neg hq).symm
  have hfiles : w'.fs.files = gpFilesystemNew.files := by
    funext a
    by_contra hne
    obtain ⟨f, hf⟩ := Option.ne_none_iff_exists'.mp hne
    obtain ⟨p, hp⟩ := hwf'.has_owner (fileName_ne_none.mpr ⟨f, hf⟩)
    obtain ⟨fo₁, hfo₁⟩ := folderName_ne_none.mp (hwf'.owner_alive hp)
    have hproot : p = rootfolder := by
      by_contra hpne
      rw [hgone p hpne] at hfo₁
      cases hfo₁
    rw [hproot, tree_files hfo'] at hp
    rw [show fo.files = [] from hroot] at hp
    cases hp
  have hfs : ({ w'.fs with lruSize := 0 } : CameraFilesystem) = gpFilesystemNew := by
    rw [CameraFilesystem.mk.injEq]
    exact ⟨hfolders, hfiles, hfirst, hlast, rfl⟩
  exact congrArg (fun fs => ({ w' with fs := fs, log := [] } : World σ)) hfs

theorem count_root_run {fo : CameraFilesystemFolder}
    (hfo : w.fs.folders rootfolder = some fo) :
    runOps funcs [.count ['/'] .null] w = some ([.ok (.number fo.files.length)], w) := by
  have hcount : gpFilesystemCount funcs ['/'] .null w = some (.ok fo.files.length, w) :=
    (Comp.bind_run_ok (m := derefFolder rootfolder) (derefFolder_run hfo)).trans rfl
  have hexec : FsOp.exec funcs (.count ['/'] .null) w = some (.ok (.number fo.files.length), w) :=
    Comp.bind_run_ok hcount
  simp only [runOps, hexec, Option.map_some]

/-- After a reset every run goes as on a new filesystem, with the same driver in the same
state, exactly when the root folder had no files of its own. -/
theorem reset_observes_new_iff (h : Reachable funcs w)
    (hreset : gpFilesystemReset funcs w = some (.ok (), w')) :
    (∀ ops, observe (runOps funcs ops w') =
      observe (runOps funcs ops { w' with fs := gpFilesystemNew })) ↔
    w.tree.files rootfolder = [] := by
  have hwf := h.wf funcs
  constructor
  · intro hops
    obtain ⟨fo, hfo, hfo', -⟩ := reset_run funcs hwf h.endsAgree hreset
    have hnew : ({ w' with fs := gpFilesystemNew } : World σ).fs.folders rootfolder =
        some (.new ['/']) := rfl
    have hcount := hops [.count ['/'] .null]
    rw [count_root_run funcs hfo', count_root_run funcs hnew] at hcount
    simp only [observe, Option.map_some, Option.some.injEq, Prod.mk.injEq, List.cons.injEq,
      Except.ok.injEq, FsValue.number.injEq] at hcount
    rw [tree_files hfo]
    exact List.eq_nil_of_length_eq_zero hcount.1.1
  · intro hroot ops
    have hrun := runOps_observes funcs ops (reset_observed funcs hwf h.endsAgree hreset hroot)
    have hproj : ∀ run : Option (List (Except Int FsValue) × World σ),
        observe run = observe (run.map (Prod.map id World.observed)) := by
      intro run
      cases run <;> rfl
    rw [hproj, hrun, ← hproj]

end

/-! ### A file in the root folder -/

/-- A file of the root folder is still counted after a reset. -/
theorem reset_with_root_file :
    ¬ ∀ (w w' : World Unit), Reachable CameraFilesystemFuncs.none w →
      gpFilesystemReset CameraFilesystemFuncs.none w = some (.ok (), w') →
      ∀ ops, observe (runOps CameraFilesystemFuncs.none ops w') =
        observe (runOps CameraFilesystemFuncs.none ops { w' with fs := gpFilesystemNew }) := by
  intro h
  obtain ⟨rs, w, hrun, w', hreset, hcount, hnew⟩ : ∃ rs w, runOps CameraFilesystemFuncs.none
      [.append ['/'] ['a'] .null] (World.new ()) = some (rs, w) ∧
      ∃ w', gpFilesystemReset CameraFilesystemFuncs.none w = some (.ok (), w') ∧
        (observe (runOps CameraFilesystemFuncs.none [.count ['/'] .null] w')).map Prod.fst =
          some [.ok (.number 1)] ∧
        (observe (runOps CameraFilesystemFuncs.none [.count ['/'] .null]
          { w' with fs := gpFilesystemNew })).map Prod.fst = some [.ok (.number 0)] :=
    ⟨_, _, rfl, _, rfl, rfl, rfl⟩
  have hsame := h w w' ⟨_, _, rs, World.new_isNew (), hrun⟩ hreset [.count ['/'] .null]
  rw [hsame, hnew] at hcount
  cases hcount

/-- A file in a subfolder is gone. -/
theorem reset_with_subfolder : ∃ w w' : World Unit,
    gpFilesystemReset CameraFilesystemFuncs.none w = some (.ok (), w') ∧
    ∀ ops, observe (runOps CameraFilesystemFuncs.none ops w') =
      observe (runOps CameraFilesystemFuncs.none ops { w' with fs := gpFilesystemNew }) := by
  obtain ⟨rs, w, hrun, hroot, w', hreset⟩ : ∃ rs w, runOps CameraFilesystemFuncs.none
      [.append ['/', 'a'] ['f'] .null] (World.new ()) = some (rs, w) ∧
      w.tree.files rootfolder = [] ∧
      ∃ w', gpFilesystemReset CameraFilesystemFuncs.none w = some (.ok (), w') :=
    ⟨_, _, rfl, rfl, _, rfl⟩
  exact ⟨w, w', hreset, (reset_observes_new_iff CameraFilesystemFuncs.none
    ⟨_, _, rs, World.new_isNew (), hrun⟩ hreset).mpr hroot⟩

end GPhoto2
