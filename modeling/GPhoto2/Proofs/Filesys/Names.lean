import GPhoto2.Proofs.Filesys.ExecSteps

/-!
# `GPhoto2.Proofs.Filesys.Names`: distinct names in a folder

Files of one folder have distinct names in every world a run ends in: both functions that
append a file look for the name first. For folders only `append_to_folder` looks.
`gp_filesystem_list_folders` appends what the driver lists, and `gp_filesystem_make_dir` what
the driver agreed to make. `reachable_namesDistinct` is the exact statement: as long as the
driver lists no folder twice and makes no directory that is there, folder names are distinct,
a path leads to one entry at most, and a deletion leaves none.
-/

set_option autoImplicit false

namespace GPhoto2

open Lib Relation
open NameTree (child_eq_none child_eq_some eraseFolder_folderName walk_concat)

variable {σ : Type}

/-- Siblings have distinct names: the subfolders of each folder, and its files. -/
def World.NamesDistinct (w : World σ) : Prop :=
  ∀ p fo, w.fs.folders p = some fo →
    (w.fs.folderNames fo.folders).Nodup ∧ (w.fs.fileNames fo.files).Nodup

/-- The driver lists no folder twice, and makes no directory that is there already. -/
def Event.namesNew : Event → Bool
  | .folderListFunc _ (.ok names) => decide names.Nodup
  | .makeDirFunc _ name subfolders => !subfolders.contains name
  | _ => true

section
variable {w w' : World σ}

/-- Names along a chain are distinct if no two entries of the chain have the same. -/
theorem nodup_names {α : Type} {name : α → Option CString} {chain : List α}
    (hnd : chain.Nodup) (hname : ∀ a ∈ chain, ∀ b ∈ chain, ∀ n, name a = some n →
      name b = some n → a = b) : (chain.filterMap name).Nodup := by
  refine List.pairwise_filterMap.mpr (List.Pairwise.imp_of_mem ?_ hnd)
  intro a b ha hb hne n hn n' hn' heq
  subst heq
  exact hne (hname a ha b hb n hn hn')

theorem nodup_fileNames {p : FolderAddr} {fo : CameraFilesystemFolder} (hwf : w.tree.Wf)
    (hp : w.fs.folders p = some fo) : (w.fs.fileNames fo.files).Nodup := by
  refine nodup_names ?_ fun a ha b hb n hn hn' => ?_
  · rw [← tree_files hp]
    exact hwf.files_nodup p
  · rw [← tree_files hp] at ha hb
    exact hwf.files_distinct ha hb (hn.trans hn'.symm)

theorem NameTree.Wf.namesDistinct (hwf : w.tree.Wf) (hd : w.tree.Distinct) :
    w.NamesDistinct := by
  intro p fo hp
  constructor
  · refine nodup_names ?_ fun a ha b hb n hn hn' => ?_
    · rw [← tree_folders hp]
      exact hwf.folders_nodup p
    · rw [← tree_folders hp] at ha hb
      exact hd p a b ha hb (hn.trans hn'.symm)
  · exact nodup_fileNames hwf hp

theorem LookupStep.distinct (h : LookupStep w w') (hwf : w.tree.Wf)
    (hgood : ∀ e ∈ w'.log, e.namesNew) (hd : w.tree.Distinct) : w'.tree.Distinct := by
  rcases h.tree_cases hwf with ht | ⟨p, a, ha, ht⟩ | ⟨p, c, hc, hfolders, hfiles, ht⟩ |
      ⟨p, path, names, hlog, hempty, hp, ht⟩ <;> rw [ht]
  · exact hd
  · exact hd
  · exact hd.eraseFolder hwf hc
  · have hnames : names.Nodup := by
      simpa [Event.namesNew] using hgood _ ((h.log hwf).subset hlog)
    refine hd.consFolders hwf hp hnames fun name _ => child_eq_none.mpr fun c hc => ?_
    rw [hempty] at hc
    cases hc

theorem TreeStep.distinct (h : TreeStep w w') (hwf : w.tree.Wf)
    (hgood : ∀ e ∈ w'.log, e.namesNew) (hd : w.tree.Distinct) : w'.tree.Distinct := by
  cases h with
  | lookup h => exact h.distinct hwf hgood hd
  | fileListFunc path answer => exact hd
  | filesClean p fo hp =>
    rwa [tree_setFolder_of_same hp { fo with filesDirty := false } rfl rfl rfl]
  | newFile p fo name hp hnone =>
    rw [snocFile_tree hp]
    exact hd

theorem Step.distinct (h : Step w w') (hwf : w.tree.Wf)
    (hgood : ∀ e ∈ w'.log, e.namesNew) (hd : w.tree.Distinct) : w'.tree.Distinct := by
  rcases h.tree_cases hwf with h | ht | ⟨p, name, hp, hnone, ht⟩ |
    ⟨p, fo, folder, name, hp, hlog, ht⟩ | ⟨p, name, hp, hnone, ht⟩
  · exact h.distinct hwf hgood hd
  · rwa [ht]
  · rw [ht]
    exact hd.consFolder hwf hnone
  · rw [ht]
    have hnew : name ∉ w.fs.folderNames fo.folders := by
      simpa [Event.namesNew] using hgood _ hlog
    refine hd.consFolder hwf (child_eq_none.mpr fun c hc hcn => hnew ?_)
    rw [tree_folders hp] at hc
    exact List.mem_filterMap.mpr ⟨c, hc, hcn⟩
  · rw [ht]
    exact hd

theorem Steps.distinct (h : Steps w w') (hwf : w.tree.Wf)
    (hgood : ∀ e ∈ w'.log, e.namesNew) (hd : w.tree.Distinct) : w'.tree.Distinct :=
  h.keeps (fun _ _ hwf hstep => hstep.distinct hwf) hwf hgood hd

variable (funcs : CameraFilesystemFuncs σ)

theorem Reachable.distinct (h : Reachable funcs w) (hgood : ∀ e ∈ w.log, e.namesNew) :
    w.tree.Distinct := by
  refine h.induction funcs (fun w₀ hnew => ?_) (fun _ _ hwf hstep => hstep.distinct hwf) hgood
  rw [hnew.tree]
  exact NameTree.new_distinct _

/-! ### Deletions -/

theorem deleteFile_ok {folder filename : CString} {context : GPContext} (hwf : w.tree.Wf)
    (h : gpFilesystemDeleteFile funcs folder filename context w = some (.ok (), w')) :
    ∃ f, w'.tree.walk rootfolder (components folder) = some f ∧
      w'.tree.fileIn f filename = none := by
  obtain ⟨w₀, henv, ⟨-, e, he⟩ | h⟩ := checks_bind_eq_some funcs h
  · cases he
  rw [← henv.tree] at hwf
  cases hfunc : funcs.deleteFileFunc with
  | none =>
    rw [hfunc] at h
    cases h
  | some deleteFunc =>
    simp only [hfunc] at h
    obtain ⟨w₁, -, hwf₁, ⟨-, e, he⟩ | ⟨f, a, hat, h⟩⟩ := lookupFolderFile_bind_eq_some funcs hwf h
    · cases he
    obtain ⟨w₂, henv₂, ⟨-, e, he⟩ | ⟨_, h⟩⟩ := callEnv_ofExcept_eq_some h
    · cases he
    rw [← henv₂.tree] at hwf₁ hat
    exact ⟨f, (deleteFile_steps hwf₁ hat h).2⟩

/-- A removed folder was the one found under the name, and it is gone. -/
theorem removeDir_ok {folder name : CString} {context : GPContext} (hwf : w.tree.Wf)
    (h : gpFilesystemRemoveDir funcs folder name context w = some (.ok (), w')) :
    ∃ w₁ f dir, Steps w w₁ ∧ Steps w₁ w' ∧
      w₁.tree.walk rootfolder (components folder) = some f ∧
      w₁.tree.child f name = some dir ∧ w'.tree = w₁.tree.eraseFolder f dir := by
  obtain ⟨w₀, henv, ⟨-, e, he⟩ | h⟩ := checks_bind_eq_some funcs h
  · cases he
  have hstep₀ : Steps w w₀ := .single henv.step
  rw [← henv.tree] at hwf
  cases hfunc : funcs.removeDirFunc with
  | none =>
    rw [hfunc] at h
    cases h
  | some removeDir =>
    simp only [hfunc] at h
    obtain ⟨found, w₁, h₁, h⟩ := Comp.bind_eq_ok.mp h
    obtain ⟨heffect, hr⟩ := lookupFolder_run funcs folder context _ _ _ hwf h₁
    rw [Except.ok.injEq] at hr
    subst hr
    have hwf₁ := heffect.wf hwf
    cases hwalk : w₁.tree.walk rootfolder (components folder) with
    | none =>
      rw [hwalk] at h
      cases h
    | some f =>
      rw [hwalk] at h
      obtain ⟨fo, hfo, h⟩ := derefFolder_bind_eq_some.mp h
      have hend : ∀ w₂, LookupEffect w₁ w₂ →
          removeDirEnd folder name removeDir f w₂ = some (.ok (), w') →
          ∃ w₁ f dir, Steps w w₁ ∧ Steps w₁ w' ∧
            w₁.tree.walk rootfolder (components folder) = some f ∧
            w₁.tree.child f name = some dir ∧ w'.tree = w₁.tree.eraseFolder f dir := by
        intro w₂ heffect₂ h
        obtain ⟨hsteps, hgone⟩ := removeDir_steps (heffect₂.wf hwf₁) h
        obtain ⟨dir, hchild, htree⟩ := hgone rfl
        obtain ⟨fo₂, hfo₂⟩ := folderName_ne_none.mp
          ((heffect₂.wf hwf₁).parent_alive (child_eq_some hchild).1)
        exact ⟨w₂, f, dir, hstep₀.trans (heffect.allSteps.trans heffect₂.allSteps), hsteps,
          heffect₂.walk hwf₁ hwalk hfo₂, hchild, htree⟩
      by_cases hdirty : fo.foldersDirty = true
      · simp only [hdirty, if_true] at h
        obtain ⟨_, w₂, h₂, h⟩ := Comp.bind_eq_ok.mp h
        obtain ⟨r₂, h₂, -⟩ := Comp.attempt_eq_some.mp h₂
        exact hend w₂ (listFolders_run funcs hwf₁ h₂).1 h
      · simp only [hdirty] at h
        exact hend w₁ (.refl _) h

/-- As long as the driver lists no folder twice and makes no directory that is there, names
are distinct; a path leads to one folder at most; and what was deleted or removed is found
under its path no more. -/
theorem reachable_namesDistinct (h : Reachable funcs w) (hgood : ∀ e ∈ w.log, e.namesNew) :
    w.NamesDistinct ∧
    (∀ path p q, w.tree.At p path → w.tree.At q path → p = q) ∧
    (∀ folder filename context w',
      gpFilesystemDeleteFile funcs folder filename context w = some (.ok (), w') →
      (∀ e ∈ w'.log, e.namesNew) →
      ∀ f a, w'.tree.At f (components folder) → a ∈ w'.tree.files f →
        w'.tree.fileName a ≠ some filename) ∧
    (∀ folder name context w',
      gpFilesystemRemoveDir funcs folder name context w = some (.ok (), w') →
      (∀ e ∈ w'.log, e.namesNew) → ∀ p, ¬ w'.tree.At p (components folder ++ [name])) := by
  have hwf := h.wf funcs
  have hd := h.distinct funcs hgood
  refine ⟨hwf.namesDistinct hd, fun _ _ _ => hd.at_unique, ?_, ?_⟩
  · intro folder filename context w' hdelete hgood' f a hat ha hname
    have hop : FsOp.exec funcs (.deleteFile folder filename context) w = some (.ok .unit, w') :=
      Comp.bind_run_ok hdelete
    have hd' := (exec_steps funcs hwf hop).distinct hwf hgood' hd
    obtain ⟨g, hwalk, hnone⟩ := deleteFile_ok funcs hwf hdelete
    rw [hd'.walk_of_at hat, Option.some.injEq] at hwalk
    subst hwalk
    exact NameTree.fileIn_eq_none.mp hnone a ha hname
  · intro folder name context w' hremove hgood' p hat
    have hop : FsOp.exec funcs (.removeDir folder name context) w = some (.ok .unit, w') :=
      Comp.bind_run_ok hremove
    have hd' := (exec_steps funcs hwf hop).distinct hwf hgood' hd
    obtain ⟨w₁, f, dir, hsteps, hsteps', hwalk, hchild, htree⟩ := removeDir_ok funcs hwf hremove
    have hwf₁ := Steps.wf hsteps hwf
    have hd₁ : w₁.tree.Distinct :=
      hsteps.distinct hwf (fun e he => hgood' e ((Steps.log hsteps' hwf₁).subset he)) hd
    have hstable := hwf₁.stable_eraseFolder (NameTree.child_eq_some hchild).1
    have hwf' : (w₁.tree.eraseFolder f dir).Wf := htree ▸ Steps.wf hsteps' hwf₁
    have hne : f ≠ dir := Nat.ne_of_lt (hwf₁.child_gt (NameTree.child_eq_some hchild).1)
    have halive : (w₁.tree.eraseFolder f dir).folderName f ≠ none := by
      rw [NameTree.eraseFolder_folderName, if_neg hne]
      exact hwf₁.parent_alive (NameTree.child_eq_some hchild).1
    have hwalk' := hd'.walk_of_at hat
    rw [htree, NameTree.walk_concat, (hstable.walk hwf' hwalk halive).1, Option.bind_some,
      hd₁.child_eraseFolder hwf₁ hchild] at hwalk'
    cases hwalk'

/-- A driver that makes every directory it is asked for. -/
def makeDirFuncs : CameraFilesystemFuncs Unit :=
  { CameraFilesystemFuncs.none with makeDirFunc := some fun _ _ s => (.ok (), s) }

/-- Making a directory twice gives two folders of one name. -/
theorem makeDir_twice_not_distinct :
    ¬ ∀ w, Reachable makeDirFuncs w → w.NamesDistinct := by
  intro h
  obtain ⟨rs, w, hrun, hnames⟩ : ∃ rs w,
      runOps makeDirFuncs [.makeDir ['/'] ['a'] .null, .makeDir ['/'] ['a'] .null]
        (World.new ()) = some (rs, w) ∧
      (w.fs.folders rootfolder).map (fun fo => w.fs.folderNames fo.folders) =
        some [['a'], ['a']] := ⟨_, _, rfl, rfl⟩
  obtain ⟨fo, hfo, hfo'⟩ := Option.map_eq_some_iff.mp hnames
  have hnd := (h w ⟨_, _, rs, World.new_isNew (), hrun⟩ rootfolder fo hfo).1
  rw [hfo'] at hnd
  exact absurd hnd (by decide)

/-- One directory made, and another in it. -/
theorem reachable_namesDistinct_makeDir : ∃ w,
    (runOps makeDirFuncs [.makeDir ['/'] ['a'] .null, .makeDir ['/', 'a'] ['a'] .null]
      (World.new ())).map Prod.snd = some w ∧ w.NamesDistinct := by
  obtain ⟨rs, w, hrun, hlog⟩ : ∃ rs w,
      runOps makeDirFuncs [.makeDir ['/'] ['a'] .null, .makeDir ['/', 'a'] ['a'] .null]
        (World.new ()) = some (rs, w) ∧ w.log.all Event.namesNew = true := ⟨_, _, rfl, rfl⟩
  exact ⟨w, by rw [hrun]; rfl, (reachable_namesDistinct makeDirFuncs
    ⟨_, _, rs, World.new_isNew (), hrun⟩ (List.all_eq_true.mp hlog)).1⟩

end

/-! ## When a directory counts as empty

`gp_filesystem_remove_dir` makes sure that there are neither files nor folders in the directory
before it lets the driver remove it. It lists the folder around the directory if it has to, but
it never lists the directory itself: it looks at the two chains of the entry as they are, and
the chains of an entry that was just listed are empty.

`reachable_removeDir_iff` is the exact statement. The directory is judged right if and only if
the camera lists nothing in it where the chains are empty, and a removal leaves no folder of the
name if and only if there was no second one.
-/

section
variable {w w' : World σ}

/-- `gp_filesystem_remove_dir`, with the directory found. -/
theorem removeDir_eq (funcs : CameraFilesystemFuncs σ) {folder name : CString}
    {context : GPContext} {removeDir : CString → CString → σ → Except Int Unit × σ}
    (hfunc : funcs.removeDirFunc = some removeDir) :
    gpFilesystemRemoveDir funcs folder name context =
      removeDirTarget funcs folder name context >>= fun p =>
        removeDirJudged folder name removeDir p.1 p.2 := by
  have hend : ∀ f, (findDir name f >>= fun p => removeDirJudged folder name removeDir p.1 p.2) =
      (removeDirEnd folder name removeDir f : Fs σ Unit) := by
    intro f
    unfold findDir removeDirEnd
    simp only [Comp.bind_assoc]
    congr 1
    funext fo
    congr 1
    funext w
    cases w.fs.findFolder fo.folders name with
    | none => rfl
    | some dir => rfl
  unfold gpFilesystemRemoveDir removeDirTarget withFolder
  simp only [hfunc, Comp.bind_assoc]
  congr 1
  funext _
  congr 1
  funext _
  congr 1
  funext found
  cases found with
  | none => rfl
  | some f =>
    refine Eq.trans (congrArg (derefFolder f >>= ·) (funext fun fo => ?_))
      (Comp.bind_assoc (derefFolder f) _ _).symm
    by_cases hdirty : fo.foldersDirty = true
    · rw [if_pos hdirty, if_pos hdirty, Comp.bind_assoc]
      congr 1
      funext _
      exact (hend f).symm
    · rw [if_neg hdirty, if_neg hdirty]
      exact (hend f).symm

/-- What the search for the directory has found, in the world it leaves behind. -/
theorem removeDirTarget_ok {funcs : CameraFilesystemFuncs σ} {folder name : CString}
    {context : GPContext} {f dir : FolderAddr} (hwf : w.tree.Wf)
    (h : removeDirTarget funcs folder name context w = some (.ok (f, dir), w')) :
    w'.tree.Wf ∧ w'.tree.walk rootfolder (components folder) = some f ∧
      w'.tree.child f name = some dir := by
  obtain ⟨w₁, heffect, ⟨e, he, -⟩ | ⟨g, fo, hwalk, hfo, h, -⟩⟩ := withFolder_cases funcs hwf h
  · cases he
  have hwf₁ := heffect.wf hwf
  -- The search itself, after the folder has been listed or not.
  have hfind : ∀ w₂, LookupEffect w₁ w₂ → findDir name g w₂ = some (.ok (f, dir), w') →
      w'.tree.Wf ∧ w'.tree.walk rootfolder (components folder) = some f ∧
        w'.tree.child f name = some dir := by
    intro w₂ heffect₂ h
    obtain ⟨fo₂, hfo₂, h⟩ := derefFolder_bind_eq_some.mp h
    rw [Comp.get_bind_run, findFolder_eq_child hfo₂] at h
    cases hchild : w₂.tree.child g name with
    | none =>
      rw [hchild] at h
      cases h
    | some c =>
      rw [hchild] at h
      cases h
      exact ⟨heffect₂.wf hwf₁, heffect₂.walk hwf₁ hwalk hfo₂, hchild⟩
  obtain ⟨fo', hfo', h⟩ := derefFolder_bind_eq_some.mp h
  by_cases hdirty : fo'.foldersDirty = true
  · rw [if_pos hdirty] at h
    obtain ⟨_, w₂, h₂, h⟩ := Comp.bind_eq_ok.mp h
    obtain ⟨r₂, h₂, -⟩ := Comp.attempt_eq_some.mp h₂
    exact hfind w₂ (listFolders_run funcs hwf₁ h₂).1 h
  · rw [if_neg hdirty] at h
    exact hfind w₁ (.refl _) h

/-! ### The judgement -/

section
variable {folder name : CString} {removeDir : CString → CString → σ → Except Int Unit × σ}
  {f dir : FolderAddr} {d : CameraFilesystemFolder}

/-- A directory with an entry in one of its chains is refused, and nothing is touched. -/
theorem removeDirJudged_refuses (folder name : CString)
    (removeDir : CString → CString → σ → Except Int Unit × σ) (f : FolderAddr)
    (hd : w.fs.folders dir = some d) (hentry : d.folders ≠ [] ∨ d.files ≠ []) :
    ∃ e, (e = gpErrorDirectoryExists ∨ e = gpErrorFileExists) ∧
      removeDirJudged folder name removeDir f dir w = some (.error e, w) := by
  unfold removeDirJudged
  rw [Comp.bind_run_ok (derefFolder_run hd)]
  by_cases hfolders : d.folders = []
  · have hfiles : d.files ≠ [] := hentry.resolve_left (not_not.mpr hfolders)
    rw [if_neg (not_not.mpr hfolders), if_pos hfiles]
    exact ⟨_, Or.inr rfl, rfl⟩
  · rw [if_pos hfolders]
    exact ⟨_, Or.inl rfl, rfl⟩

/-- The world in which the driver has answered the request to remove the directory. -/
def World.askedToRemove (w : World σ) (folder name : CString)
    (removeDir : CString → CString → σ → Except Int Unit × σ) : World σ :=
  { w with env := (removeDir folder name w.env).2, log := w.log ++ [.removeDirFunc folder name] }

/-- With both chains empty the driver is asked, and if it agrees the entry goes. -/
theorem removeDirJudged_asks {fo : CameraFilesystemFolder} (hf : w.fs.folders f = some fo)
    (hd : w.fs.folders dir = some d) (hfolders : d.folders = []) (hfiles : d.files = []) :
    removeDirJudged folder name removeDir f dir w =
      match (removeDir folder name w.env).1 with
      | .error e => some (.error e, w.askedToRemove folder name removeDir)
      | .ok _ => some (.ok (), (w.askedToRemove folder name removeDir).dropFolder f dir fo) := by
  unfold removeDirJudged
  rw [Comp.bind_run_ok (derefFolder_run hd), if_neg (not_not.mpr hfolders),
    if_neg (not_not.mpr hfiles)]
  show (Comp.ofExcept (removeDir folder name w.env).1 >>= fun _ => deleteFolder f dir)
    (w.askedToRemove folder name removeDir) = _
  cases hanswer : (removeDir folder name w.env).1 with
  | error e => rfl
  | ok _ =>
    exact deleteFolder_empty (w := w.askedToRemove folder name removeDir) hf hd hfiles

end

/-! ### What the camera lists -/

/-- The path of a subfolder. -/
def subfolderPath (folder name : CString) : CString :=
  if folder.getLast? = some '/' then folder ++ name else folder ++ '/' :: name

/-- The camera would list a file or a folder under the path. -/
def CameraFilesystemFuncs.ListsEntry (funcs : CameraFilesystemFuncs σ) (path : CString)
    (s : σ) : Prop :=
  (∃ fileList names, funcs.fileListFunc = some fileList ∧
    (fileList path s).1 = .ok names ∧ names ≠ []) ∨
  (∃ folderList names, funcs.folderListFunc = some folderList ∧
    (folderList path s).1 = .ok names ∧ names ≠ [])

variable (funcs : CameraFilesystemFuncs σ)

/-- What the call should do from the world `w₁` in which the directory has been found: ask the
driver only about a directory in which the camera lists nothing, refuse any other one, and
leave no folder under the path after a success. -/
structure World.RemovesEmptyOnly (w₁ : World σ) (folder name : CString) (r : Except Int Unit)
    (w' : World σ) : Prop where
  called : .removeDirFunc folder name ∈ w'.log.drop w₁.log.length →
    ¬ funcs.ListsEntry (subfolderPath folder name) w₁.env
  refused : funcs.ListsEntry (subfolderPath folder name) w₁.env →
    (r = .error gpErrorDirectoryExists ∨ r = .error gpErrorFileExists) ∧ w' = w₁
  gone : r = .ok () → w'.tree.walk rootfolder (components folder ++ [name]) = none

/-- Every call that comes to a directory does what it should. -/
def World.RemoveDirGuarded (w : World σ) (folder name : CString) (context : GPContext) : Prop :=
  ∀ f dir w₁ r w', removeDirTarget funcs folder name context w = some (.ok (f, dir), w₁) →
    gpFilesystemRemoveDir funcs folder name context w = some (r, w') →
    w₁.RemovesEmptyOnly funcs folder name r w'

/-- Where the chains of the directory are empty, the camera lists nothing in it; and where the
driver agrees to remove it, no second folder has the name. -/
def World.JudgedRight (w : World σ) (folder name : CString) (context : GPContext)
    (removeDir : CString → CString → σ → Except Int Unit × σ) : Prop :=
  ∀ f dir w₁ d, removeDirTarget funcs folder name context w = some (.ok (f, dir), w₁) →
    w₁.fs.folders dir = some d → d.folders = [] → d.files = [] →
    ¬ funcs.ListsEntry (subfolderPath folder name) w₁.env ∧
      ((removeDir folder name w₁.env).1 = .ok () →
        ∀ c ∈ w₁.tree.folders f, w₁.tree.folderName c = some name → c = dir)

/-! ### The exact condition -/

section
variable {funcs} {folder name : CString} {context : GPContext}
  {removeDir : CString → CString → σ → Except Int Unit × σ}

theorem removeDir_of_target (hfunc : funcs.removeDirFunc = some removeDir)
    {f dir : FolderAddr} {w₁ : World σ}
    (htarget : removeDirTarget funcs folder name context w = some (.ok (f, dir), w₁)) :
    gpFilesystemRemoveDir funcs folder name context w =
      removeDirJudged folder name removeDir f dir w₁ := by
  rw [removeDir_eq funcs hfunc, Comp.bind_run_ok htarget]

/-- After a removal the path leads to a second folder of the name, if there was one. -/
theorem walk_dropFolder_eq_none (hwf : w.tree.Wf) {f dir : FolderAddr}
    {fo d : CameraFilesystemFolder} (hf : w.fs.folders f = some fo)
    (hd : w.fs.folders dir = some d) (hfolders : d.folders = []) (hfiles : d.files = [])
    (hwalk : w.tree.walk rootfolder (components folder) = some f)
    (hchild : w.tree.child f name = some dir) :
    (w.dropFolder f dir fo).tree.walk rootfolder (components folder ++ [name]) = none ↔
      ∀ c ∈ w.tree.folders f, w.tree.folderName c = some name → c = dir := by
  have hmem := (child_eq_some hchild).1
  have hne : f ≠ dir := Nat.ne_of_lt (hwf.child_gt hmem)
  have hempty : w.tree.folders dir = [] := by rw [tree_folders hd, hfolders]
  have hnofiles : w.tree.files dir = [] := by rw [tree_files hd, hfiles]
  have halive : (w.tree.eraseFolder f dir).folderName f ≠ none := by
    rw [eraseFolder_folderName, if_neg hne]
    exact hwf.parent_alive hmem
  have hwalk' := ((hwf.stable_eraseFolder hmem).walk (hwf.eraseFolder hmem hempty hnofiles)
    hwalk halive).1
  rw [dropFolder_tree hf hne hempty hnofiles, walk_concat, hwalk', Option.bind_some,
    child_eq_none]
  constructor
  · intro hnone c hc hcn
    by_contra hcd
    refine hnone c ((hwf.mem_eraseFolder hmem).mpr ⟨hc, hcd⟩) ?_
    rw [eraseFolder_folderName, if_neg hcd, hcn]
  · intro honly c hc hcn
    obtain ⟨hc, hcd⟩ := (hwf.mem_eraseFolder hmem).mp hc
    rw [eraseFolder_folderName, if_neg hcd] at hcn
    exact hcd (honly c hc hcn)

theorem askedToRemove_called (removeDir : CString → CString → σ → Except Int Unit × σ)
    (w : World σ) : Event.removeDirFunc folder name ∈
      (w.askedToRemove folder name removeDir).log.drop w.log.length := by
  simp [World.askedToRemove]

theorem guarded_of_judgedRight (hwf : w.tree.Wf)
    (hfunc : funcs.removeDirFunc = some removeDir)
    (hright : w.JudgedRight funcs folder name context removeDir) :
    w.RemoveDirGuarded funcs folder name context := by
  intro f dir w₁ r w' htarget hrun
  obtain ⟨hwf₁, hwalk, hchild⟩ := removeDirTarget_ok hwf htarget
  have hmem := (child_eq_some hchild).1
  obtain ⟨fo, hfo⟩ := folderName_ne_none.mp (hwf₁.parent_alive hmem)
  obtain ⟨d, hd⟩ := folderName_ne_none.mp (hwf₁.child_alive hmem)
  rw [removeDir_of_target hfunc htarget] at hrun
  by_cases hentry : d.folders ≠ [] ∨ d.files ≠ []
  · -- Refused, whatever the camera lists.
    obtain ⟨e, he, hrefused⟩ := removeDirJudged_refuses folder name removeDir f hd hentry
    rw [hrefused] at hrun
    cases hrun
    refine ⟨fun hcalled => ?_, fun _ => ⟨he.imp (congrArg _) (congrArg _), rfl⟩,
      fun hr => by cases hr⟩
    simp at hcalled
  · obtain ⟨hfolders, hfiles⟩ := not_or.mp hentry
    rw [not_not] at hfolders hfiles
    obtain ⟨hlists, honly⟩ := hright f dir w₁ d htarget hd hfolders hfiles
    refine ⟨fun _ => hlists, fun hl => absurd hl hlists, fun hr => ?_⟩
    subst hr
    rw [removeDirJudged_asks hfo hd hfolders hfiles] at hrun
    cases hanswer : (removeDir folder name w₁.env).1 with
    | error e =>
      rw [hanswer] at hrun
      cases hrun
    | ok _ =>
      rw [hanswer] at hrun
      cases hrun
      exact (walk_dropFolder_eq_none (w := w₁.askedToRemove folder name removeDir) hwf₁ hfo hd
        hfolders hfiles hwalk hchild).mpr (honly hanswer)

theorem judgedRight_of_guarded (hwf : w.tree.Wf)
    (hfunc : funcs.removeDirFunc = some removeDir)
    (hguarded : w.RemoveDirGuarded funcs folder name context) :
    w.JudgedRight funcs folder name context removeDir := by
  intro f dir w₁ d htarget hd hfolders hfiles
  obtain ⟨hwf₁, hwalk, hchild⟩ := removeDirTarget_ok hwf htarget
  obtain ⟨fo, hfo⟩ := folderName_ne_none.mp
    (hwf₁.parent_alive (child_eq_some hchild).1)
  have hrun := (removeDir_of_target hfunc htarget).trans
    (removeDirJudged_asks hfo hd hfolders hfiles)
  -- The driver is asked, and what follows depends on its answer.
  cases hanswer : (removeDir folder name w₁.env).1 with
  | error e =>
    rw [hanswer] at hrun
    have hend := hguarded f dir w₁ _ _ htarget hrun
    exact ⟨hend.called (askedToRemove_called removeDir w₁), fun hok => by cases hok⟩
  | ok _ =>
    rw [hanswer] at hrun
    have hend := hguarded f dir w₁ _ _ htarget hrun
    exact ⟨hend.called (askedToRemove_called removeDir w₁), fun _ =>
      (walk_dropFolder_eq_none (w := w₁.askedToRemove folder name removeDir) hwf₁ hfo hd
        hfolders hfiles hwalk hchild).mp (hend.gone rfl)⟩

/-- In every world of a run, `gp_filesystem_remove_dir` guards the directory as it should if and
only if it judges it right. Where the call does not come to a directory, it fails and the driver
is not asked. -/
theorem reachable_removeDir_iff (h : Reachable funcs w)
    (hfunc : funcs.removeDirFunc = some removeDir) :
    (w.RemoveDirGuarded funcs folder name context ↔
      w.JudgedRight funcs folder name context removeDir) ∧
    ∀ e w', removeDirTarget funcs folder name context w = some (.error e, w') →
      gpFilesystemRemoveDir funcs folder name context w = some (.error e, w') := by
  refine ⟨⟨judgedRight_of_guarded (h.wf funcs) hfunc,
    guarded_of_judgedRight (h.wf funcs) hfunc⟩, fun e w' htarget => ?_⟩
  rw [removeDir_eq funcs hfunc, Comp.bind_run_error htarget]

end

end

/-- A camera with one directory that has a file in it, and agrees to remove it. -/
def fullDirFuncs : CameraFilesystemFuncs Unit :=
  { CameraFilesystemFuncs.none with
    fileListFunc := some fun path s => (.ok (if path = ['/', 'a'] then [['x']] else []), s)
    folderListFunc := some fun path s => (.ok (if path = ['/'] then [['a']] else []), s)
    removeDirFunc := some fun _ _ s => (.ok (), s) }

/-- Once the directory has been listed, it is refused. -/
theorem reachable_removeDir_iff_listed : ∃ w,
    (runOps fullDirFuncs [.listFiles ['/', 'a'] .null] (World.new ())).map Prod.snd = some w ∧
    w.RemoveDirGuarded fullDirFuncs ['/'] ['a'] .null := by
  obtain ⟨rs, w, hrun, htarget⟩ : ∃ rs w,
      runOps fullDirFuncs [.listFiles ['/', 'a'] .null] (World.new ()) = some (rs, w) ∧
      (removeDirTarget fullDirFuncs ['/'] ['a'] .null w).map (fun p => (p.1.toOption.map fun q =>
        (p.2.fs.folders q.2).map (·.files))) = some (some (some [2])) := ⟨_, _, rfl, rfl⟩
  refine ⟨w, by rw [hrun]; rfl, ((reachable_removeDir_iff
    ⟨_, _, rs, World.new_isNew (), hrun⟩ rfl).1).mpr ?_⟩
  intro f dir w₁ d hfound hd _ hfiles
  simp only [hfound, Option.map_some, Except.toOption, Option.some.injEq] at htarget
  rw [hd, Option.map_some, hfiles] at htarget
  cases htarget

/-- A directory that was never listed is removed with the file in it. -/
theorem removeDir_of_full_dir : ¬ ∀ w, Reachable fullDirFuncs w → ∀ folder name context,
    w.RemoveDirGuarded fullDirFuncs folder name context := by
  intro h
  have hreach : Reachable fullDirFuncs (World.new ()) := ⟨_, [], [], World.new_isNew (), rfl⟩
  obtain ⟨w₁, w', htarget, hrun⟩ : ∃ w₁ w',
      removeDirTarget fullDirFuncs ['/'] ['a'] .null (World.new ()) =
        some (.ok (rootfolder, 1), w₁) ∧
      gpFilesystemRemoveDir fullDirFuncs ['/'] ['a'] .null (World.new ()) =
        some (.ok (), w') := ⟨_, _, rfl, rfl⟩
  have hend := h _ hreach ['/'] ['a'] .null rootfolder 1 w₁ _ w' htarget hrun
  have hlists : fullDirFuncs.ListsEntry (subfolderPath ['/'] ['a']) w₁.env :=
    Or.inl ⟨_, [['x']], rfl, rfl, by simp⟩
  obtain ⟨he | he, -⟩ := hend.refused hlists <;> cases he

end GPhoto2
