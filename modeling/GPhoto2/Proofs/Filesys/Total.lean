import GPhoto2.Proofs.Filesys.LruSize

/-!
# `GPhoto2.Proofs.Filesys.Total`: deleting entries comes to an end

A well-formed tree is deleted in full: no loop runs past its count, and no freed entry is
touched. The LRU pointers are followed on the way, so they have to spell a list as well.
`World.Sound` is both, and every step of a lookup or a listing keeps it
(`TreeSteps.sound`).

The main lemmas are `deleteAllFiles_ends`, `recurseDeleteFolder_ends` and `reset_ends`.
-/

set_option autoImplicit false

namespace GPhoto2

open Lib Relation
open Lib.Comp (bind_run_ok)

variable {σ : Type}

/-- The tree is well formed, and the LRU pointers spell a list. -/
structure World.Sound (w : World σ) : Prop where
  wf : w.tree.Wf
  chain : ∃ l, w.fs.LruChain l

section
variable {w w' : World σ}

/-! ### Steps keep the world sound -/

theorem LookupStep.sound (h : LookupStep w w') (hw : w.Sound) : w'.Sound := by
  obtain ⟨l, hl⟩ := hw.chain
  refine ⟨(h.stable hw.wf).1, ?_⟩
  cases h with
  | env s => exact ⟨l, hl⟩
  | folderListFunc path answer => exact ⟨l, hl⟩
  | foldersClean p fo hp => exact ⟨l, hl⟩
  | dropFile _ p a ha hdrop => exact ⟨_, (dropFile_lruChain hl hdrop).1⟩
  | dropFolder p c fo hp hc hfolders hfiles => exact ⟨l, hl⟩
  | relist _ p path names hlog hempty h =>
    rcases appendFolders_alive hw.wf h with rfl | ⟨fo, hp⟩
    · cases h
      exact ⟨l, hl⟩
    · obtain ⟨-, -, ⟨_, _, rfl⟩, -⟩ := appendFolders_run hw.wf hp h
      exact ⟨l, hl⟩

theorem TreeStep.sound (h : TreeStep w w') (hw : w.Sound) : w'.Sound := by
  cases h with
  | lookup h => exact h.sound hw
  | fileListFunc path answer => exact ⟨hw.wf, hw.chain⟩
  | filesClean p fo hp => exact ⟨((TreeStep.filesClean w p fo hp).stable hw.wf).1, hw.chain⟩
  | newFile p fo name hp hnone =>
    obtain ⟨l, hl⟩ := hw.chain
    exact ⟨((TreeStep.newFile w p fo name hp hnone).stable hw.wf).1, l,
      lruChain_snocFile hl hw.wf p fo name⟩

theorem TreeSteps.sound (h : TreeSteps w w') (hw : w.Sound) : w'.Sound := by
  induction h with
  | refl => exact hw
  | tail _ hstep ih => exact hstep.sound ih

theorem LookupSteps.sound (h : LookupSteps w w') (hw : w.Sound) : w'.Sound :=
  TreeSteps.sound h.treeSteps hw

theorem LookupEffect.sound (h : LookupEffect w w') (hw : w.Sound) : w'.Sound :=
  LookupSteps.sound h.steps hw

/-! ### Deleting files -/

variable {p : FolderAddr}

theorem dropFile_total (hw : w.Sound) {a : FileAddr}
    (ha : a ∈ w.tree.files p) : ∃ w', dropFile p a w = some (.ok (), w') ∧ w'.brk = w.brk := by
  obtain ⟨l, hl⟩ := hw.chain
  obtain ⟨f, hf⟩ := fileName_ne_none.mp (hw.wf.file_alive ha)
  obtain ⟨fo, hfo⟩ := folderName_ne_none.mp (hw.wf.owner_alive ha)
  obtain ⟨r, w₁, hremove, -, -⟩ := lruRemoveOne_erase
    (w := { w with log := w.log ++ [.dropFile (w.lruEntry a f)] }) hl hf
  have hframe := LruFrame.of_dropFile hremove
  have hfo₁ : w₁.fs.folders p = some fo := by
    rw [hframe.folders]
    exact hfo
  have hattempt : Comp.attempt (gpFilesystemLruRemoveOne a)
      { w with log := w.log ++ [.dropFile (w.lruEntry a f)] } = some (.ok r, w₁) :=
    Comp.attempt_eq_some.mpr ⟨r, hremove, rfl⟩
  unfold dropFile
  rw [bind_run_ok (derefFile_run hf), Comp.get_bind_run, trace_bind_run,
    bind_run_ok hattempt, bind_run_ok (modifyFolder_run hfo₁ _)]
  exact ⟨_, rfl, hframe.brk⟩

theorem dropFiles_ends (hw : w.Sound) {l : List FileAddr} (hnodup : l.Nodup)
    (hl : ∀ a ∈ l, a ∈ w.tree.files p) :
    ∃ w', (l.forM (dropFile p) : Fs σ Unit) w = some (.ok (), w') ∧ w'.brk = w.brk := by
  induction l generalizing w with
  | nil => exact ⟨w, rfl, rfl⟩
  | cons a l ih =>
    obtain ⟨hna, hnodup⟩ := List.nodup_cons.mp hnodup
    have ha : a ∈ w.tree.files p := hl a List.mem_cons_self
    obtain ⟨w₁, h₁, hbrk₁⟩ := dropFile_total hw ha
    have hw₁ : w₁.Sound := (LookupStep.dropFile w w₁ p a ha h₁).sound hw
    obtain ⟨w', h, hbrk⟩ := ih hw₁ hnodup fun b hb => by
      rw [dropFile_tree h₁, hw.wf.mem_eraseFile ha]
      exact ⟨hl b (List.mem_cons_of_mem _ hb), fun e => hna (e ▸ hb)⟩
    refine ⟨w', ?_, hbrk.trans hbrk₁⟩
    show (dropFile p a >>= fun _ => l.forM (dropFile p)) w = _
    rw [bind_run_ok h₁]
    exact h

variable {fo : CameraFilesystemFolder}

theorem deleteAllFiles_ends (hw : w.Sound)
    (hp : w.fs.folders p = some fo) :
    ∃ w', deleteAllFiles p w = some (.ok (), w') ∧ w'.brk = w.brk := by
  have hnodup : fo.files.Nodup := by
    rw [← tree_files hp]
    exact hw.wf.files_nodup p
  obtain ⟨w', h, hbrk⟩ := dropFiles_ends hw hnodup fun a ha => by rwa [tree_files hp]
  unfold deleteAllFiles
  rw [bind_run_ok (derefFolder_run hp)]
  exact ⟨w', h, hbrk⟩

/-! ### Deleting folders -/

theorem deleteFolder_ends (hw : w.Sound) {c : FolderAddr}
    (hp : w.fs.folders p = some fo) (hc : c ∈ fo.folders) :
    ∃ w', deleteFolder p c w = some (.ok (), w') ∧ w'.brk = w.brk := by
  have hmem : c ∈ w.tree.folders p := by rwa [tree_folders hp]
  obtain ⟨co, hco⟩ := folderName_ne_none.mp (hw.wf.child_alive hmem)
  obtain ⟨w₁, h₁, hbrk₁⟩ := deleteAllFiles_ends hw hco
  obtain ⟨-, -, -, -, -, hother⟩ := deleteAllFiles_run hw.wf h₁
  have hp₁ : w₁.fs.folders p = some fo := by
    rw [hother p (Nat.ne_of_lt (hw.wf.child_gt hmem)), hp]
  unfold deleteFolder
  rw [bind_run_ok h₁, bind_run_ok (modifyFolder_run hp₁ _)]
  exact ⟨_, rfl, hbrk₁⟩

theorem recurseDeleteFolder_ends (n : Nat)
    (hw : w.Sound) (hp : w.fs.folders p = some fo) (hn : w.brk ≤ n + p) :
    ∃ w', recurseDeleteFolder n p w = some (.ok (), w') ∧ w'.brk = w.brk := by
  induction n generalizing p fo w with
  | zero =>
    have hlt := hw.wf.folder_lt (folderName_ne_none.mpr ⟨fo, hp⟩)
    exact absurd hn (by rw [Nat.zero_add]; exact Nat.not_le.mpr hlt)
  | succ n ih =>
    -- The children left, each of them a folder of its own.
    have loop : ∀ (l : List FolderAddr) (w : World σ) (fo : CameraFilesystemFolder), w.Sound →
        w.fs.folders p = some fo → fo.folders = l → w.brk ≤ n + 1 + p →
        ∃ w', (l.forM (fun child => do recurseDeleteFolder n child; deleteFolder p child) :
          Fs σ Unit) w = some (.ok (), w') ∧ w'.brk = w.brk := by
      intro l
      induction l with
      | nil =>
        intro w fo _ _ _ _
        exact ⟨w, rfl, rfl⟩
      | cons c l ihl =>
        intro w fo hw hp hl hn
        have hc : c ∈ fo.folders := by rw [hl]; exact List.mem_cons_self
        have hmem : c ∈ w.tree.folders p := by rwa [tree_folders hp]
        have hgt := hw.wf.child_gt hmem
        obtain ⟨co, hco⟩ := folderName_ne_none.mp (hw.wf.child_alive hmem)
        -- The subtree of the first child goes, and then the child.
        obtain ⟨w₁, h₁, hbrk₁⟩ := ih hw hco (by
          have := Nat.add_le_add_left hgt n
          omega)
        obtain ⟨-, hsteps₁, hc₁, hsmall₁, -⟩ := recurseDeleteFolder_run n hw.wf hco h₁
        have hw₁ := LookupSteps.sound hsteps₁ hw
        have hp₁ : w₁.fs.folders p = some fo := by rw [hsmall₁ p hgt, hp]
        obtain ⟨w₂, h₂, hbrk₂⟩ := deleteFolder_ends hw₁ hp₁ hc
        obtain ⟨-, hsteps₂, hp₂, -, -⟩ :=
          deleteFolder_run hw₁.wf hp₁ hc (by rw [tree_folders hc₁]) h₂
        obtain ⟨w', h, hbrk⟩ := ihl w₂ _ (LookupSteps.sound hsteps₂ hw₁) hp₂
          (by rw [hl]; exact List.erase_cons_head c l) (by omega)
        refine ⟨w', ?_, by omega⟩
        show ((do recurseDeleteFolder n c; deleteFolder p c) >>= fun _ =>
          l.forM fun child => do recurseDeleteFolder n child; deleteFolder p child) w = _
        rw [bind_run_ok ((bind_run_ok h₁).trans h₂)]
        exact h
    unfold recurseDeleteFolder
    rw [bind_run_ok (derefFolder_run hp)]
    exact loop fo.folders w fo hw hp rfl hn

/-! ### Resetting -/

variable (funcs : CameraFilesystemFuncs σ)

theorem reset_ends (hw : w.Sound) : ∃ w', gpFilesystemReset funcs w = some (.ok (), w') := by
  obtain ⟨l, hl⟩ := hw.chain
  obtain ⟨fo, hfo⟩ := root_alive hw.wf
  unfold gpFilesystemReset
  rw [bind_run_ok (derefFolder_run hfo), Comp.get_bind_run, trace_bind_run]
  generalize hw₀ : ({ w with log := _ } : World σ) = w₀
  have hfo₀ : w₀.fs.folders rootfolder = some fo := by rwa [← hw₀]
  have hwf₀ : w₀.tree.Wf := by rw [← hw₀]; exact hw.wf
  have hl₀ : w₀.fs.LruChain l := by rwa [← hw₀]
  -- The LRU list is cleared first, so the entries are deleted off the list.
  obtain ⟨w₁, h₁, hl₁, -⟩ := lruClear_run hl₀ (length_le_of_lruChain hl₀ hwf₀)
  have hframe := (keepsLruFrame_lruClear _ _ w₁ trivial h₁).2
  have hw₁ : w₁.Sound := ⟨by rw [hframe.tree]; exact hwf₀, [], hl₁⟩
  have hfo₁ : w₁.fs.folders rootfolder = some fo := by rw [hframe.folders, hfo₀]
  obtain ⟨w₂, h₂, -⟩ := recurseDeleteFolder_ends w₁.brk hw₁ hfo₁ (Nat.le_add_right _ _)
  obtain ⟨-, -, hfo₂, -, -⟩ := recurseDeleteFolder_run w₁.brk hw₁.wf hfo₁ h₂
  have hdelete : deleteAllFolders funcs ['/'] .null w₁ = some (.ok (), w₂) := h₂
  rw [bind_run_ok h₁, bind_run_ok hdelete,
    bind_run_ok (modifyFolder_run hfo₂ _)]
  exact ⟨_, rfl⟩

end

/-- A world of a run is sound, as long as no entry was evicted that cannot tell its size. -/
theorem Reachable.sound {funcs : CameraFilesystemFuncs σ} {w : World σ}
    (h : Reachable funcs w) (hgood : ∀ e ∈ w.log, e.evictsSized) : w.Sound := by
  obtain ⟨l, hl⟩ := reachable_lruWellFormed funcs h hgood
  exact ⟨h.wf funcs, l, hl.chain⟩

theorem World.new_sound (env : σ) : (World.new env).Sound := by
  have hreach : Reachable CameraFilesystemFuncs.none (World.new env) :=
    ⟨_, [], [], World.new_isNew env, rfl⟩
  exact hreach.sound fun _ he => by cases he

end GPhoto2
