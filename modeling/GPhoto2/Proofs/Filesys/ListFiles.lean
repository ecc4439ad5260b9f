import GPhoto2.Proofs.Filesys.Lookup

/-!
# `GPhoto2.Proofs.Filesys.ListFiles`: what a file listing and a file lookup return

`listFiles_cases` says all `gp_filesystem_list_files` can do: fail before it gets to the
folder, answer from the cache, or query the driver. After a query the folder is marked
clean, whether or not the driver answered and whether or not its answer could be stored.

`lookupFolderFile_run` is the specification of `lookup_folder_file`. Both leave the tree well
formed and keep what was found (`TreeSteps.stable`).
-/

set_option autoImplicit false

namespace GPhoto2

open Lib Relation
open Lib.Comp (bind_eq_some bind_run_ok get_bind_run)

variable {σ : Type}

section
variable {w w' : World σ} {p : FolderAddr}

theorem internalAppend_eq_some {name : CString} {r : Except Int Unit}
    (h : internalAppend p name w = some (r, w')) :
    ∃ fo, w.fs.folders p = some fo ∧
      ((w.tree.fileIn p name ≠ none ∧ r = .error gpErrorFileExists ∧ w' = w) ∨
        (w.tree.fileIn p name = none ∧ r = .ok () ∧ w' = w.snocFile p fo (.new name none))) := by
  obtain ⟨fo, hfo, h⟩ := derefFolder_bind_eq_some.mp h
  refine ⟨fo, hfo, ?_⟩
  rw [get_bind_run, findFile_eq_fileIn hfo] at h
  cases hf : w.tree.fileIn p name with
  | some a =>
    rw [hf] at h
    cases h
    exact Or.inl ⟨by simp, rfl, rfl⟩
  | none =>
    rw [hf] at h
    obtain ⟨fo', hfo', hr, hw⟩ := addFile_eq_some.mp h
    rw [hfo, Option.some.injEq] at hfo'
    subst hfo'
    exact Or.inr ⟨rfl, hr, hw⟩

variable {fo : CameraFilesystemFolder}

theorem fileNames_snocFile (hwf : w.tree.Wf)
    (hp : w.fs.folders p = some fo) (f : CameraFilesystemFile) :
    (w.snocFile p fo f).fs.fileNames (fo.files ++ [w.brk]) =
      w.fs.fileNames fo.files ++ [f.name] := by
  have hnew : (w.snocFile p fo f).fs.fileName w.brk = some f.name := by
    simp [CameraFilesystem.fileName, World.snocFile]
  have hold : fo.files.filterMap (w.snocFile p fo f).fs.fileName =
      fo.files.filterMap w.fs.fileName := by
    refine List.filterMap_congr fun a ha => ?_
    have hne : a ≠ w.brk := by
      rintro rfl
      refine hwf.brk_not_mem_files p ?_
      rw [tree_files hp]
      exact ha
    simp [CameraFilesystem.fileName, World.snocFile, hne]
  unfold CameraFilesystem.fileNames
  rw [List.filterMap_append, hold]
  simp [hnew]

/-- The loop of `gp_filesystem_list_files` that appends the names of the driver. -/
theorem internalAppends_run {names : List CString}
    {r : Except Int Unit} (hwf : w.tree.Wf) (hp : w.fs.folders p = some fo)
    (h : names.forM (internalAppend p) w = some (r, w')) :
    TreeSteps w w' ∧ (r = .ok () ∨ r = .error gpErrorFileExists) ∧
      (∃ files, w'.fs.folders p = some { fo with files := files } ∧
        (r = .ok () → w'.fs.fileNames files = w.fs.fileNames fo.files ++ names)) ∧
      (∀ q, q ≠ p → w'.fs.folders q = w.fs.folders q) ∧ w'.log = w.log ∧ w'.env = w.env := by
  induction names generalizing w fo with
  | nil =>
    cases h
    exact ⟨.refl, Or.inl rfl, ⟨_, hp, fun _ => (List.append_nil _).symm⟩, fun _ _ => rfl, rfl,
      rfl⟩
  | cons name names ih =>
    rcases bind_eq_some.mp h with ⟨e, h₁, hr⟩ | ⟨_, w₁, h₁, h⟩
    · obtain ⟨fo', -, ⟨-, hr', rfl⟩ | ⟨-, hr', -⟩⟩ := internalAppend_eq_some h₁
      · cases hr'
        exact ⟨.refl, Or.inr hr, ⟨_, hp, fun hok => by rw [hr] at hok; cases hok⟩,
          fun _ _ => rfl, rfl, rfl⟩
      · cases hr'
    · obtain ⟨fo', hfo', ⟨-, hr', -⟩ | ⟨hnone, -, rfl⟩⟩ := internalAppend_eq_some h₁
      · cases hr'
      rw [hp, Option.some.injEq] at hfo'
      subst hfo'
      have hstep := TreeStep.newFile w p fo name hp hnone
      have hp₁ : (w.snocFile p fo (.new name none)).fs.folders p =
          some { fo with files := fo.files ++ [w.brk] } := by simp [World.snocFile]
      obtain ⟨hsteps, hr, ⟨files, hfiles, hnames⟩, hother, hlog, henv⟩ :=
        ih (hstep.stable hwf).1 hp₁ h
      refine ⟨.head hstep hsteps, hr, ⟨files, hfiles, fun hok => ?_⟩, fun q hq => ?_, hlog, henv⟩
      · rw [hnames hok, fileNames_snocFile hwf hp, List.append_assoc]
        rfl
      · rw [hother q hq]
        simp [World.snocFile, hq]

theorem fileNames_setFolder {fo : Option CameraFilesystemFolder}
    (chain : List FileAddr) : (w.setFolder p fo).fs.fileNames chain = w.fs.fileNames chain := rfl

/-- The driver and the frontend are in the state they were in. -/
def SameEnv (w w' : World σ) : Prop := w'.env = w.env

instance : IsPreorder (World σ) SameEnv where
  refl _ := rfl
  trans _ _ _ h h' := h'.trans h

theorem keepsEnv_deleteAllFiles (p : FolderAddr) :
    Comp.Keeps (fun _ => True) SameEnv (deleteAllFiles p : Fs σ Unit) := by
  refine .bind (fun w r w' _ h => ?_) fun fo => .forM fun a _ => ?_
  · obtain ⟨_, -, -, rfl⟩ := derefFolder_eq_some.mp h
    exact ⟨trivial, rfl⟩
  · intro w r w' _ h
    obtain ⟨f, w₁, fo, r₁, -, -, -, h₁, rfl⟩ := dropFile_eq_some h
    exact ⟨trivial, (LruFrame.of_dropFile h₁).env⟩

variable (funcs : CameraFilesystemFuncs σ) {f : FolderAddr} {r : Except Int (List CString)}

/-- The end of `gp_filesystem_list_files`. -/
theorem listFilesClean_eq_some (hfo : w.fs.folders f = some fo)
    (h : listFilesClean f w = some (r, w')) :
    r = .ok (w.fs.fileNames fo.files) ∧
      w' = w.setFolder f (some { fo with filesDirty := false }) := by
  obtain ⟨fo₁, hfo₁, h⟩ := modifyFolder_bind_eq_some.mp h
  rw [hfo, Option.some.injEq] at hfo₁
  subst hfo₁
  obtain ⟨fo₂, hfo₂, h⟩ := derefFolder_bind_eq_some.mp h
  simp only [World.setFolder_fs_folders, Function.update_self, Option.some.injEq] at hfo₂
  subst hfo₂
  rw [get_bind_run, fileNames_setFolder] at h
  cases h
  exact ⟨rfl, rfl⟩

variable {path : CString}

/-- With the folder found, `gp_filesystem_list_files` answers from the cache, or queries the
driver. If it succeeds then, it returns what the driver has answered. -/
theorem listFilesFound_cases (hwf : w.tree.Wf) (hfo : w.fs.folders f = some fo)
    (h : listFilesFound funcs path f w = some (r, w')) :
    ((fo.filesDirty = false ∨ funcs.fileListFunc = none) ∧
      r = .ok (w.fs.fileNames fo.files) ∧
      w' = w.setFolder f (some { fo with filesDirty := false })) ∨
    ∃ fileList, funcs.fileListFunc = some fileList ∧ fo.filesDirty = true ∧ TreeSteps w w' ∧
      (∃ pre answer, w.log <+: pre ∧ w'.log = pre ++ [.fileListFunc path answer]) ∧
      ∃ files, w'.fs.folders f = some { fo with filesDirty := false, files := files } ∧
        (∀ q, q ≠ f → w'.fs.folders q = w.fs.folders q) ∧
        ((∃ e, r = .error e) ∨ r = .ok (w'.fs.fileNames files) ∧
          (fileList path w.env).1 = .ok (w'.fs.fileNames files)) := by
  obtain ⟨fo', hfo', h⟩ := derefFolder_bind_eq_some.mp h
  rw [hfo, Option.some.injEq] at hfo'
  subst hfo'
  cases hdirty : fo.filesDirty with
  | false =>
    simp only [hdirty] at h
    exact Or.inl ⟨Or.inl rfl, listFilesClean_eq_some hfo h⟩
  | true =>
    cases hfunc : funcs.fileListFunc with
    | none =>
      simp only [hdirty, hfunc] at h
      exact Or.inl ⟨Or.inr rfl, listFilesClean_eq_some hfo h⟩
    | some fileList =>
      simp only [hdirty, hfunc] at h
      refine Or.inr ⟨fileList, rfl, rfl, ?_⟩
      rcases bind_eq_some.mp h with ⟨e, h₂, -⟩ | ⟨_, w₂, h₂, h⟩
      · obtain ⟨_, _, hr₂, -⟩ := deleteAllFiles_run hwf h₂
        cases hr₂
      obtain ⟨fo', hfo', -, hsteps₂, hfo₂, hother₂⟩ := deleteAllFiles_run hwf h₂
      rw [hfo, Option.some.injEq] at hfo'
      subst hfo'
      have hwf₂ := (hsteps₂.stable hwf).1
      have henv₂ : w₂.env = w.env := (keepsEnv_deleteAllFiles f _ _ _ trivial h₂).2
      obtain ⟨fo₃, hfo₃, h⟩ := modifyFolder_bind_eq_some.mp h
      rw [hfo₂, Option.some.injEq] at hfo₃
      subst hfo₃
      rw [callEnv_bind_run, trace_bind_run, World.setFolder_env, henv₂] at h
      generalize hreply : fileList path w.env = reply at h ⊢
      obtain ⟨answer, s⟩ := reply
      -- The folder is clean, and the driver has answered.
      have hsteps₃ : TreeSteps w { (w₂.setFolder f
          (some { fo with files := [], filesDirty := false })) with
            env := s, log := w₂.log ++ [.fileListFunc path answer] } :=
        ((hsteps₂.treeSteps.tail (.filesClean w₂ f _ hfo₂)).tail (.lookup (.env _ s))).tail
          (.fileListFunc _ path answer)
      have hlog : w.log <+: w₂.log := TreeSteps.log hsteps₂.treeSteps hwf
      rcases bind_eq_some.mp h with ⟨e, h₄, rfl⟩ | ⟨names, w₄, h₄, h⟩
      · cases h₄
        refine ⟨hsteps₃, ⟨w₂.log, _, hlog, rfl⟩, [], by simp, fun q hq => ?_,
          Or.inl ⟨e, rfl⟩⟩
        simp [hq, hother₂ q hq]
      cases h₄
      have hfo₄ : ({ (w₂.setFolder f (some { fo with files := [], filesDirty := false })) with
          env := s, log := w₂.log ++ [.fileListFunc path (.ok names)] } :
            World σ).fs.folders f = some { fo with files := [], filesDirty := false } := by
        simp
      rcases bind_eq_some.mp h with ⟨e, h₅, rfl⟩ | ⟨_, w₅, h₅, h⟩
      · obtain ⟨hsteps₅, -, ⟨files, hfiles, -⟩, hother₅, hlog₅, -⟩ :=
          internalAppends_run (TreeSteps.stable hsteps₃ hwf).1 hfo₄ h₅
        refine ⟨hsteps₃.trans hsteps₅, ⟨w₂.log, _, hlog, hlog₅⟩, files, hfiles,
          fun q hq => ?_, Or.inl ⟨e, rfl⟩⟩
        rw [hother₅ q hq]
        simp [hq, hother₂ q hq]
      · obtain ⟨hsteps₅, -, ⟨files, hfiles, hnames⟩, hother₅, hlog₅, -⟩ :=
          internalAppends_run (TreeSteps.stable hsteps₃ hwf).1 hfo₄ h₅
        obtain ⟨rfl, rfl⟩ := listFilesClean_eq_some hfiles h
        refine ⟨(hsteps₃.trans hsteps₅).tail (.filesClean w₅ f _ hfiles),
          ⟨w₂.log, _, hlog, hlog₅⟩, files, by simp, fun q hq => ?_, Or.inr ⟨?_, ?_⟩⟩
        · simp only [World.setFolder_fs_folders, Function.update_of_ne hq]
          rw [hother₅ q hq]
          simp [hq, hother₂ q hq]
        · rw [fileNames_setFolder]
        · rw [fileNames_setFolder, hnames rfl]
          rfl

variable {context : GPContext}

/-- The functions that look a folder up fail on the way to it, or go on with the folder the
path leads to. -/
theorem withFolder_cases {α : Type}
    {k : FolderAddr → Fs σ α} {r : Except Int α} (hwf : w.tree.Wf)
    (h : withFolder funcs path context k w = some (r, w')) :
    ∃ w₁, LookupEffect w w₁ ∧
      ((∃ e, r = .error e ∧ w' = w₁) ∨
      ∃ f fo, w₁.tree.walk rootfolder (components path) = some f ∧
        w₁.fs.folders f = some fo ∧ k f w₁ = some (r, w') ∧
        ∀ {β : Type} (k' : FolderAddr → Fs σ β),
          withFolder funcs path context k' w = k' f w₁) := by
  unfold withFolder at h
  rcases bind_eq_some.mp h with ⟨e, h₁, rfl⟩ | ⟨_, w₀, h₁, h⟩
  · obtain ⟨s, hs, -⟩ := checkCancel_eq_some funcs h₁
    exact ⟨w', EnvStep.effect ⟨s, hs⟩, Or.inl ⟨e, rfl, rfl⟩⟩
  obtain ⟨s, hs, -⟩ := checkCancel_eq_some funcs h₁
  have henv : EnvStep w w₀ := ⟨s, hs⟩
  have hwf₀ : w₀.tree.Wf := by rwa [henv.tree]
  rcases bind_eq_some.mp h with ⟨e, h₂, rfl⟩ | ⟨_, w₂, h₂, hlookup⟩
  · obtain ⟨rfl, -⟩ := checkAbsolute_eq_some h₂
    exact ⟨w', henv.effect, Or.inl ⟨e, rfl, rfl⟩⟩
  obtain ⟨rfl, -⟩ := checkAbsolute_eq_some h₂
  rcases bind_eq_some.mp hlookup with ⟨e, h₃, rfl⟩ | ⟨found, w₁, h₃, h⟩
  · exact ⟨w', henv.effect.trans hwf (lookupFolder_run funcs path context _ _ _ hwf₀ h₃).1,
      Or.inl ⟨e, rfl, rfl⟩⟩
  obtain ⟨heffect, hfound⟩ := lookupFolder_run funcs path context _ _ _ hwf₀ h₃
  rw [Except.ok.injEq] at hfound
  refine ⟨w₁, henv.effect.trans hwf heffect, ?_⟩
  cases found with
  | none =>
    cases h
    exact Or.inl ⟨_, rfl, rfl⟩
  | some f =>
    obtain ⟨fo, hfo⟩ := walk_root_alive (heffect.wf hwf₀) hfound.symm
    refine Or.inr ⟨f, fo, hfound.symm, hfo, h, fun k' => ?_⟩
    unfold withFolder
    rw [bind_run_ok h₁, bind_run_ok h₂, bind_run_ok h₃]

/-- `gp_filesystem_list_files` fails on the way to the folder, or answers from the cache, or
queries the driver. -/
theorem listFiles_cases (hwf : w.tree.Wf)
    (h : gpFilesystemListFiles funcs path context w = some (r, w')) :
    ∃ w₁, LookupEffect w w₁ ∧
      ((∃ e, r = .error e ∧ w' = w₁) ∨
      ∃ f fo, w₁.tree.walk rootfolder (components path) = some f ∧
        w₁.fs.folders f = some fo ∧
        (((fo.filesDirty = false ∨ funcs.fileListFunc = none) ∧
            r = .ok (w₁.fs.fileNames fo.files) ∧
            w' = w₁.setFolder f (some { fo with filesDirty := false })) ∨
          (fo.filesDirty = true ∧ TreeSteps w₁ w' ∧
            (∃ pre answer, w₁.log <+: pre ∧ w'.log = pre ++ [.fileListFunc path answer]) ∧
            ∃ files, w'.fs.folders f = some { fo with filesDirty := false, files := files } ∧
              (∀ q, q ≠ f → w'.fs.folders q = w₁.fs.folders q) ∧
              ((∃ e, r = .error e) ∨ r = .ok (w'.fs.fileNames files))))) := by
  obtain ⟨w₁, heffect, hend | ⟨f, fo, hwalk, hfo, h, -⟩⟩ := withFolder_cases funcs hwf h
  · exact ⟨w₁, heffect, Or.inl hend⟩
  refine ⟨w₁, heffect, Or.inr ⟨f, fo, hwalk, hfo, ?_⟩⟩
  rcases listFilesFound_cases funcs (heffect.wf hwf) hfo h with hclean |
      ⟨fileList, -, hdirty, hsteps, hlog, files, hfiles, hother, hr⟩
  · exact Or.inl hclean
  · exact Or.inr ⟨hdirty, hsteps, hlog, files, hfiles, hother, hr.imp_right And.left⟩

theorem LookupEffect.treeSteps (h : LookupEffect w w') : TreeSteps w w' :=
  LookupSteps.treeSteps h.steps

/-- What `gp_filesystem_list_files` returns: the names of the files of the folder the path
leads to, which is now marked clean. -/
theorem listFiles_run (hwf : w.tree.Wf)
    (h : gpFilesystemListFiles funcs path context w = some (r, w')) :
    TreeSteps w w' ∧ ∀ names, r = .ok names → ∃ f fo,
      w'.tree.walk rootfolder (components path) = some f ∧ w'.fs.folders f = some fo ∧
      fo.filesDirty = false ∧ names = w'.fs.fileNames fo.files := by
  obtain ⟨w₁, heffect, hcases⟩ := listFiles_cases funcs hwf h
  rcases hcases with ⟨e, rfl, rfl⟩ | ⟨f, fo, hwalk, hfo, ⟨-, rfl, rfl⟩ |
      ⟨-, hsteps, -, files, hfo', -, hr⟩⟩
  · exact ⟨heffect.treeSteps, fun _ hr => by cases hr⟩
  · have hstep := TreeStep.filesClean w₁ f fo hfo
    refine ⟨heffect.treeSteps.tail hstep, fun names hr => ⟨f, _, ?_, by simp; rfl, rfl, ?_⟩⟩
    · rw [tree_setFolder_of_same hfo { fo with filesDirty := false } rfl rfl rfl]
      exact hwalk
    · rw [Except.ok.injEq] at hr
      exact hr.symm
  · refine ⟨heffect.treeSteps.trans hsteps, fun names hn => ?_⟩
    rcases hr with ⟨e, rfl⟩ | rfl
    · cases hn
    · rw [Except.ok.injEq] at hn
      obtain ⟨hwf', hstable⟩ := TreeSteps.stable hsteps (heffect.wf hwf)
      exact ⟨f, _, (hstable.walk hwf' hwalk (folderName_ne_none.mpr ⟨_, hfo'⟩)).1, hfo', rfl,
        hn.symm⟩

/-- The folder and the file of a path and a name, with the error codes of
`lookup_folder_file`. -/
def NameTree.locate (t : NameTree) (path : List CString) (filename : CString) :
    Except Int (FolderAddr × FileAddr) :=
  match t.walk rootfolder path with
  | none => .error gpErrorDirectoryNotFound
  | some f =>
    match t.fileIn f filename with
    | none => .error gpErrorFileNotFound
    | some a => .ok (f, a)

variable {filename : CString}

theorem NameTree.locate_eq_ok {t : NameTree} {path : List CString}
    {a : FileAddr} :
    t.locate path filename = .ok (f, a) ↔
      t.walk rootfolder path = some f ∧ t.fileIn f filename = some a := by
  unfold NameTree.locate
  cases t.walk rootfolder path with
  | none => simp
  | some g =>
    simp only [Option.some.injEq]
    cases hb : t.fileIn g filename with
    | none =>
      simp only [reduceCtorEq, false_iff, not_and]
      rintro rfl
      simp [hb]
    | some b =>
      simp only [Except.ok.injEq, Prod.mk.injEq]
      constructor
      · rintro ⟨rfl, rfl⟩
        exact ⟨rfl, hb⟩
      · rintro ⟨rfl, ha⟩
        rw [hb, Option.some.injEq] at ha
        exact ⟨rfl, ha⟩

/-- A file that was looked up, and still exists, would be looked up again. -/
theorem NameTree.Stable.locate {t t' : NameTree} (h : t.Stable t') (hwf' : t'.Wf)
    {path : List CString} {a : FileAddr}
    (hat : t.locate path filename = .ok (f, a)) (ha : t'.fileName a ≠ none) :
    t'.locate path filename = .ok (f, a) := by
  obtain ⟨hwalk, hfile⟩ := NameTree.locate_eq_ok.mp hat
  have hfile' := h.fileIn hfile ha
  have halive := hwf'.owner_alive (NameTree.fileIn_eq_some hfile').1
  exact NameTree.locate_eq_ok.mpr ⟨(h.walk hwf' hwalk halive).1, hfile'⟩

/-- `lookup_folder_file` returns the folder and the file in the tree it leaves behind. -/
theorem lookupFolderFile_run {folder : CString}
    {r : Except Int (FolderAddr × FileAddr)} (hwf : w.tree.Wf)
    (h : lookupFolderFile funcs folder filename context w = some (r, w')) :
    TreeSteps w w' ∧ r = w'.tree.locate (components folder) filename := by
  rcases bind_eq_some.mp h with ⟨e, h₁, -⟩ | ⟨found, w₁, h₁, h⟩
  · obtain ⟨-, hr⟩ := lookupFolder_run funcs folder context _ _ _ hwf h₁
    cases hr
  obtain ⟨heffect, hr₁⟩ := lookupFolder_run funcs folder context _ _ _ hwf h₁
  rw [Except.ok.injEq] at hr₁
  subst hr₁
  have hwf₁ := heffect.wf hwf
  cases hf : w₁.tree.walk rootfolder (components folder) with
  | none =>
    rw [hf] at h
    cases h
    refine ⟨heffect.treeSteps, ?_⟩
    rw [NameTree.locate, hf]
  | some f =>
    rw [hf] at h
    obtain ⟨fo, hfo, h⟩ := derefFolder_bind_eq_some.mp h
    -- The listing of the files, or nothing.
    have hcase : ∃ w₂, TreeSteps w₁ w₂ ∧ lookupFileEnd f filename w₂ = some (r, w') := by
      by_cases hdirty : fo.filesDirty = true
      · simp only [hdirty, if_true] at h
        rcases bind_eq_some.mp h with ⟨e, h₂, -⟩ | ⟨_, w₂, h₂, h⟩
        · obtain ⟨_, -, he⟩ := Comp.attempt_eq_some.mp h₂
          cases he
        · obtain ⟨r₂, h₂, -⟩ := Comp.attempt_eq_some.mp h₂
          exact ⟨w₂, (listFiles_run funcs hwf₁ h₂).1, h⟩
      · simp only [hdirty] at h
        exact ⟨w₁, .refl, h⟩
    obtain ⟨w₂, hsteps, h⟩ := hcase
    obtain ⟨hwf₂, hstable⟩ := TreeSteps.stable hsteps hwf₁
    obtain ⟨fo₂, hfo₂, h⟩ := derefFolder_bind_eq_some.mp h
    have hwalk := (hstable.walk hwf₂ hf (folderName_ne_none.mpr ⟨fo₂, hfo₂⟩)).1
    rw [get_bind_run, findFile_eq_fileIn hfo₂] at h
    cases ha : w₂.tree.fileIn f filename with
    | none =>
      rw [ha] at h
      cases h
      refine ⟨heffect.treeSteps.trans hsteps, ?_⟩
      rw [NameTree.locate, hwalk]
      simp only [ha]
    | some a =>
      rw [ha] at h
      cases h
      exact ⟨heffect.treeSteps.trans hsteps, (NameTree.locate_eq_ok.mpr ⟨hwalk, ha⟩).symm⟩

end

end GPhoto2
