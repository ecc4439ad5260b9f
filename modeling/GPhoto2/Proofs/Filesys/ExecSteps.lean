import GPhoto2.Proofs.Filesys.OpSteps

/-!
# `GPhoto2.Proofs.Filesys.ExecSteps`: every run is a sequence of steps

One lemma for each public function: on a well-formed tree it is a sequence of `Step`s,
whatever it returns. `exec_steps` puts them together for a call.
-/

set_option autoImplicit false

namespace GPhoto2

open Lib Relation
open Lib.Comp (Keeps attempt_eq_some bind_eq_some bind_run_ok get_bind_run)

variable {σ α : Type}

instance : IsPreorder (World σ) Steps where
  refl _ := .refl
  trans _ _ _ := .trans

/-- `m` is a sequence of steps. -/
abbrev KeepsSteps (m : Fs σ α) : Prop := Keeps (fun w => w.tree.Wf) Steps m

theorem keepsSteps_of {m : Fs σ α}
    (h : ∀ w r w', w.tree.Wf → m w = some (r, w') → Steps w w') : KeepsSteps m :=
  fun w r w' hwf hm => ⟨Steps.wf (h w r w' hwf hm) hwf, h w r w' hwf hm⟩

variable {w w' : World σ}

theorem EnvStep.step (h : EnvStep w w') : Step w w' := by
  obtain ⟨s, rfl⟩ := h
  exact .tree (.lookup (.env w s))

section
variable (funcs : CameraFilesystemFuncs σ) (path : CString) (context : GPContext)

theorem keepsSteps_checkCancel :
    KeepsSteps (checkCancel funcs context) := by
  refine keepsSteps_of fun w r w' hwf h => ?_
  obtain ⟨s, rfl, -⟩ := checkCancel_eq_some funcs h
  exact .single (.tree (.lookup (.env w s)))

theorem keepsSteps_checkAbsolute :
    KeepsSteps (checkAbsolute path : Fs σ Unit) := by
  refine keepsSteps_of fun w r w' hwf h => ?_
  rw [(checkAbsolute_eq_some h).1]

theorem keepsSteps_lookupFolder :
    KeepsSteps (lookupFolder funcs path context) :=
  keepsSteps_of fun w r w' hwf h => (lookupFolder_run funcs path context w r w' hwf h).1.allSteps

theorem keepsSteps_lookupFolderFile (folder filename : CString) (context : GPContext) :
    KeepsSteps (lookupFolderFile funcs folder filename context) :=
  keepsSteps_of fun _ _ _ hwf h => TreeSteps.steps (lookupFolderFile_run funcs hwf h).1

theorem keepsSteps_listFiles :
    KeepsSteps (gpFilesystemListFiles funcs path context) :=
  keepsSteps_of fun _ _ _ hwf h => TreeSteps.steps (listFiles_run funcs hwf h).1

theorem keepsSteps_listFolders :
    KeepsSteps (gpFilesystemListFolders funcs path context) :=
  keepsSteps_of fun _ _ _ hwf h => (listFolders_run funcs hwf h).1.allSteps

end

theorem keepsSteps_derefFolder (p : FolderAddr) :
    KeepsSteps (derefFolder p : Fs σ CameraFilesystemFolder) := by
  refine keepsSteps_of fun w r w' hwf h => ?_
  obtain ⟨fo, -, -, rfl⟩ := derefFolder_eq_some.mp h
  exact .refl

theorem keepsSteps_derefFile (a : FileAddr) :
    KeepsSteps (derefFile a : Fs σ CameraFilesystemFile) := by
  refine keepsSteps_of fun w r w' hwf h => ?_
  obtain ⟨f, -, -, rfl⟩ := derefFile_eq_some.mp h
  exact .refl

theorem keepsSteps_callEnv (g : σ → α × σ) : KeepsSteps (callEnv g : Fs σ α) := by
  refine keepsSteps_of fun w r w' hwf h => ?_
  cases h
  exact .single (.tree (.lookup (.env w _)))

theorem keepsSteps_internalAppend (p : FolderAddr) (name : CString) :
    KeepsSteps (internalAppend p name : Fs σ Unit) := by
  refine keepsSteps_of fun w r w' hwf h => ?_
  obtain ⟨fo, hfo, ⟨-, -, rfl⟩ | ⟨hnone, -, rfl⟩⟩ := internalAppend_eq_some h
  · exact .refl
  · exact .single (.tree (.newFile w p fo name hfo hnone))

/-- `append_to_folder` finds the folder, or makes the first component that is missing. -/
theorem appendToFolder_eq_some {p : FolderAddr} {path : List CString}
    {r : Except Int FolderAddr} (hwf : w.tree.Wf)
    (h : appendToFolder p path w = some (r, w')) :
    (∃ q, w.tree.walk p path = some q ∧ r = .ok q ∧ w' = w) ∨
    ∃ pre name post q fo, path = pre ++ name :: post ∧ w.tree.walk p pre = some q ∧
      w.fs.folders q = some fo ∧ w.tree.child q name = none ∧ r = .ok w.brk ∧
      w' = w.consFolder q fo name := by
  induction path generalizing p with
  | nil =>
    cases h
    exact Or.inl ⟨p, rfl, rfl, rfl⟩
  | cons name path ih =>
    unfold appendToFolder at h
    obtain ⟨fo, hfo, h⟩ := derefFolder_bind_eq_some.mp h
    rw [get_bind_run, findFolder_eq_child hfo] at h
    cases hc : w.tree.child p name with
    | none =>
      rw [hc] at h
      obtain ⟨fo', hfo', hr, hw⟩ := appendFolderOne_eq_some hwf h
      exact Or.inr ⟨[], name, path, p, fo', rfl, rfl, hfo', hc, hr, hw⟩
    | some c =>
      rw [hc] at h
      have hwalk : ∀ rest, w.tree.walk p (name :: rest) = w.tree.walk c rest := by
        intro rest
        rw [NameTree.walk, hc, Option.bind_some]
      rcases ih h with ⟨q, hq, hr, hw⟩ | ⟨pre, name', post, q, fo', hpath, hq, hrest⟩
      · exact Or.inl ⟨q, by rw [hwalk, hq], hr, hw⟩
      · exact Or.inr ⟨name :: pre, name', post, q, fo', by rw [hpath]; rfl,
          by rw [hwalk, hq], hrest⟩

theorem keepsSteps_appendToFolder (p : FolderAddr) (path : List CString) :
    KeepsSteps (appendToFolder p path : Fs σ FolderAddr) := by
  refine keepsSteps_of fun w r w' hwf h => ?_
  rcases appendToFolder_eq_some hwf h with
    ⟨q, -, -, rfl⟩ | ⟨pre, name, post, q, fo, -, -, hfo, hnone, -, rfl⟩
  · exact .refl
  · exact .single (.newFolder w q fo name hfo hnone)

/-- A driver call, its error if it fails, and the rest of the function from the driver's new
state. -/
theorem callEnv_ofExcept_eq_some {β : Type} {g : σ → Except Int β × σ}
    {k : β → Fs σ α} {r : Except Int α}
    (h : (do let answer ← callEnv g; let b ← Comp.ofExcept answer; k b) w = some (r, w')) :
    ∃ w₀, EnvStep w w₀ ∧ ((w' = w₀ ∧ ∃ e, r = .error e) ∨ ∃ b, k b w₀ = some (r, w')) := by
  rw [callEnv_bind_run] at h
  generalize g w.env = reply at h
  obtain ⟨answer, s⟩ := reply
  refine ⟨{ w with env := s }, ⟨s, rfl⟩, ?_⟩
  rcases bind_eq_some.mp h with ⟨e, h₁, hr⟩ | ⟨b, w₁, h₁, h⟩
  · cases h₁
    exact Or.inl ⟨rfl, e, hr⟩
  · cases h₁
    exact Or.inr ⟨b, h⟩

/-! ### Listing and counting -/

section
variable (funcs : CameraFilesystemFuncs σ)

theorem KeepsSteps.checks {m : Fs σ α} (hm : KeepsSteps m) (context : GPContext)
    (path : CString) : KeepsSteps (do checkCancel funcs context; checkAbsolute path; m) :=
  (keepsSteps_checkCancel funcs context).bind fun _ =>
    (keepsSteps_checkAbsolute path).bind fun _ => hm

theorem keepsSteps_lookupFolder_bind {k : FolderAddr → Fs σ α} (hk : ∀ f, KeepsSteps (k f))
    (path : CString) (context : GPContext) :
    KeepsSteps (do
      match ← lookupFolder funcs path context with
      | none => Comp.throw gpErrorDirectoryNotFound
      | some f => k f) := by
  refine (keepsSteps_lookupFolder funcs path context).bind fun found => ?_
  cases found with
  | none => exact .throw _
  | some f => exact hk f

variable (folder filename : CString) (context : GPContext)

theorem keepsSteps_count :
    KeepsSteps (gpFilesystemCount funcs folder context) :=
  (keepsSteps_lookupFolder_bind funcs (fun f =>
    (keepsSteps_derefFolder f).bind fun _ => .pure _) folder context).checks funcs _ _

theorem keepsSteps_name (filenumber : Int) (context : GPContext) :
    KeepsSteps (gpFilesystemName funcs folder filenumber context) := by
  refine (keepsSteps_lookupFolder_bind funcs (fun f => ?_) folder context).checks funcs _ _
  refine (keepsSteps_derefFolder f).bind fun fo => ?_
  cases if filenumber < 0 then none else fo.files[filenumber.toNat]? with
  | none => exact .throw _
  | some a => exact (keepsSteps_derefFile a).bind fun _ => .pure _

theorem keepsSteps_numberAux (n : Nat) :
    KeepsSteps (gpFilesystemNumberAux funcs folder filename context n) := by
  induction n with
  | zero => exact .stuck
  | succ n ih =>
    refine (keepsSteps_lookupFolder_bind funcs (fun f => ?_) folder context).checks funcs _ _
    refine (keepsSteps_derefFolder f).bind fun fo => Keeps.get.bind fun w => ?_
    cases (w.fs.fileNames fo.files).idxOf? filename with
    | some num => exact .pure _
    | none =>
      refine .ite (fun _ => ?_) fun _ => .throw _
      exact (keepsSteps_listFiles funcs folder context).bind fun _ => ih

/-! ### Appending, deleting and resetting -/

theorem keepsSteps_append :
    KeepsSteps (gpFilesystemAppend funcs folder filename context) := by
  refine KeepsSteps.checks funcs ?_ _ _
  refine (keepsSteps_lookupFolder funcs folder context).bind fun found => ?_
  have happend : ∀ f, KeepsSteps (appendOnce filename f : Fs σ Unit) := by
    refine fun f => (keepsSteps_internalAppend f filename).attempt.bind fun r => ?_
    cases r with
    | ok _ => exact .pure _
    | error e => exact .ite (fun _ => .pure _) fun _ => .throw _
  have hlist : ∀ f, KeepsSteps (appendEnd funcs folder filename context f) := by
    refine fun f => (keepsSteps_derefFolder f).bind fun fo => ?_
    refine .ite (fun _ => ?_) fun _ => happend f
    exact (keepsSteps_listFiles funcs folder context).bind fun _ => happend f
  cases found with
  | some f => exact hlist f
  | none => exact ((keepsSteps_appendToFolder _ _).checks funcs _ _).bind hlist

theorem lookupFolderFile_bind_eq_some {w w' : World σ} {folder filename : CString}
    {context : GPContext} {k : FolderAddr × FileAddr → Fs σ α} {r : Except Int α}
    (hwf : w.tree.Wf) (h : (lookupFolderFile funcs folder filename context >>= k) w =
      some (r, w')) :
    ∃ w₁, TreeSteps w w₁ ∧ w₁.tree.Wf ∧ ((w' = w₁ ∧ ∃ e, r = .error e) ∨
      ∃ f a, w₁.tree.locate (components folder) filename = .ok (f, a) ∧
        k (f, a) w₁ = some (r, w')) := by
  rcases bind_eq_some.mp h with ⟨e, h₁, rfl⟩ | ⟨⟨f, a⟩, w₁, h₁, h⟩
  · have hsteps := (lookupFolderFile_run funcs hwf h₁).1
    exact ⟨w', hsteps, (TreeSteps.stable hsteps hwf).1, Or.inl ⟨rfl, e, rfl⟩⟩
  · obtain ⟨hsteps, hr⟩ := lookupFolderFile_run funcs hwf h₁
    exact ⟨w₁, hsteps, (TreeSteps.stable hsteps hwf).1, Or.inr ⟨f, a, hr.symm, h⟩⟩

theorem keepsSteps_lookupFolderFile_bind {folder filename : CString} {context : GPContext}
    {k : FolderAddr × FileAddr → Fs σ α}
    (hk : ∀ f a w r w', w.tree.Wf → w.tree.locate (components folder) filename = .ok (f, a) →
      k (f, a) w = some (r, w') → Steps w w') :
    KeepsSteps (lookupFolderFile funcs folder filename context >>= k) := by
  refine keepsSteps_of fun w r w' hwf h => ?_
  obtain ⟨w₁, hsteps, hwf₁, ⟨rfl, -⟩ | ⟨f, a, hat, h⟩⟩ :=
    lookupFolderFile_bind_eq_some funcs hwf h
  · exact TreeSteps.steps hsteps
  · exact (TreeSteps.steps hsteps).trans (hk f a w₁ r w' hwf₁ hat h)

end

theorem deleteFile_steps {folder filename : CString} {f : FolderAddr}
    {a : FileAddr} {r : Except Int Unit} (hwf : w.tree.Wf)
    (hat : w.tree.locate (components folder) filename = .ok (f, a))
    (h : (do deleteFile f a; trace (.deletedFile folder filename)) w = some (r, w')) :
    Steps w w' ∧ w'.tree.walk rootfolder (components folder) = some f ∧
      w'.tree.fileIn f filename = none := by
  obtain ⟨hwalk, hfile⟩ := NameTree.locate_eq_ok.mp hat
  have hmem := (NameTree.fileIn_eq_some hfile).1
  have hdrop : ∀ r w', deleteFile f a w = some (r, w') → dropFile f a w = some (r, w') := by
    intro r w' h
    obtain ⟨fo, hfo, h⟩ := derefFolder_bind_eq_some.mp h
    rwa [if_pos (by rwa [tree_files hfo] at hmem)] at h
  rcases bind_eq_some.mp h with ⟨e, h₁, -⟩ | ⟨_, w₁, h₁, h⟩
  · obtain ⟨_, _, _, _, -, -, hr, -⟩ := dropFile_eq_some (hdrop _ _ h₁)
    cases hr
  have h₁ := hdrop _ _ h₁
  cases h
  have htree := dropFile_tree h₁
  have hwalk₁ : w₁.tree.walk rootfolder (components folder) = some f := by
    rw [htree, NameTree.walk_eraseFile, hwalk]
  have hnone : w₁.tree.fileIn f filename = none := by rw [htree, hwf.fileIn_eraseFile hfile]
  exact ⟨.tail (.single (.tree (.lookup (.dropFile w w₁ f a hmem h₁))))
    (.deletedFile w₁ folder filename f hwalk₁ hnone), hwalk₁, hnone⟩

section
variable (funcs : CameraFilesystemFuncs σ) (folder filename : CString) (context : GPContext)

theorem keepsSteps_deleteFile :
    KeepsSteps (gpFilesystemDeleteFile funcs folder filename context) := by
  refine KeepsSteps.checks funcs ?_ _ _
  cases funcs.deleteFileFunc with
  | none => exact .throw _
  | some deleteFunc =>
    refine keepsSteps_lookupFolderFile_bind funcs fun f a w r w' hwf hat h => ?_
    obtain ⟨w₀, henv, ⟨rfl, -⟩ | ⟨_, h⟩⟩ := callEnv_ofExcept_eq_some h
    · exact .single henv.step
    · rw [← henv.tree] at hwf hat
      exact .head henv.step (deleteFile_steps hwf hat h).1

theorem keepsSteps_deleteFileNoop :
    KeepsSteps (gpFilesystemDeleteFileNoop funcs folder filename context) :=
  (keepsSteps_lookupFolderFile_bind funcs fun _ _ _ _ _ hwf hat h =>
    (deleteFile_steps hwf hat h).1).checks funcs _ _

theorem keepsSteps_deleteAllOneByOne :
    KeepsSteps (gpFilesystemDeleteAllOneByOne funcs folder context) :=
  (keepsSteps_listFiles funcs folder context).bind fun _ =>
    .forM fun name _ => keepsSteps_deleteFile funcs folder name context

end

theorem keepsSteps_modifyFilesDirty (f : FolderAddr) (dirty : Bool) :
    KeepsSteps (modifyFolder f fun fo => { fo with filesDirty := dirty } : Fs σ Unit) := by
  refine keepsSteps_of fun w r w' hwf h => ?_
  obtain ⟨fo, hfo, -, rfl⟩ := modifyFolder_eq_some.mp h
  cases dirty with
  | true => exact .single (.filesDirty w f fo hfo)
  | false => exact .single (.tree (.filesClean w f fo hfo))

/-- The part of `gp_filesystem_delete_all` behind a successful driver call. -/
theorem deleteAllFiles_steps {folder : CString} {f : FolderAddr}
    {r : Except Int Unit} (hwf : w.tree.Wf)
    (hwalk : w.tree.walk rootfolder (components folder) = some f)
    (h : deleteAllFiles f w = some (r, w')) :
    r = .ok () ∧ Steps w { w' with log := w'.log ++ [.deletedAll folder] } := by
  obtain ⟨fo, -, hr, hsteps, hfo, -⟩ := deleteAllFiles_run hwf h
  obtain ⟨hwf', hstable⟩ := LookupSteps.stable hsteps hwf
  refine ⟨hr, (TreeSteps.steps hsteps.treeSteps).tail (.deletedAll w' folder f ?_ ?_)⟩
  · exact (hstable.walk hwf' hwalk (folderName_ne_none.mpr ⟨_, hfo⟩)).1
  · rw [tree_files hfo]

section
variable (funcs : CameraFilesystemFuncs σ)

theorem keepsSteps_lookupFolder_bind' {folder : CString} {context : GPContext}
    {k : FolderAddr → Fs σ α} (hk : ∀ f w r w', w.tree.Wf →
      w.tree.walk rootfolder (components folder) = some f → k f w = some (r, w') → Steps w w') :
    KeepsSteps (do
      match ← lookupFolder funcs folder context with
      | none => Comp.throw gpErrorDirectoryNotFound
      | some f => k f) := by
  refine keepsSteps_of fun w r w' hwf h => ?_
  rcases bind_eq_some.mp h with ⟨e, h₁, -⟩ | ⟨found, w₁, h₁, h⟩
  · exact (lookupFolder_run funcs folder context _ _ _ hwf h₁).1.allSteps
  obtain ⟨heffect, hr⟩ := lookupFolder_run funcs folder context _ _ _ hwf h₁
  rw [Except.ok.injEq] at hr
  subst hr
  refine heffect.allSteps.trans ?_
  cases hf : w₁.tree.walk rootfolder (components folder) with
  | none =>
    rw [hf] at h
    cases h
    exact .refl
  | some f =>
    rw [hf] at h
    exact hk f w₁ r w' (heffect.wf hwf) hf h

variable (folder name : CString) (context : GPContext)

theorem keepsSteps_deleteAll :
    KeepsSteps (gpFilesystemDeleteAll funcs folder context) := by
  refine KeepsSteps.checks funcs ?_ _ _
  refine keepsSteps_lookupFolder_bind' funcs fun f w r w' hwf hwalk h => ?_
  have hone := keepsSteps_deleteAllOneByOne funcs folder context
  cases hfunc : funcs.deleteAllFunc with
  | none =>
    rw [hfunc] at h
    exact (hone w r w' hwf h).2
  | some deleteAll =>
    simp only [hfunc] at h
    obtain ⟨fo, hfo, h⟩ := modifyFolder_bind_eq_some.mp h
    have htree := tree_setFolder_of_same hfo { fo with filesDirty := true } rfl rfl rfl
    rw [callEnv_bind_run] at h
    generalize deleteAll folder _ = reply at h
    obtain ⟨answer, s⟩ := reply
    have hsteps : Steps w { w.setFolder f (some { fo with filesDirty := true }) with env := s } :=
      .tail (.single (.filesDirty w f fo hfo)) (.tree (.lookup (.env _ s)))
    refine hsteps.trans ?_
    have hwf₁ := Steps.wf hsteps hwf
    have hclean := keepsSteps_modifyFilesDirty (σ := σ) f false
    cases answer with
    | error e => exact ((hone.bind fun _ => hclean) _ r w' hwf₁ h).2
    | ok _ =>
      rcases bind_eq_some.mp h with ⟨e, h₁, -⟩ | ⟨_, w₁, h₁, h⟩
      · cases (deleteAllFiles_steps hwf₁ (htree ▸ hwalk) h₁).1
      · rw [trace_bind_run] at h
        have hsteps₁ := (deleteAllFiles_steps hwf₁ (htree ▸ hwalk) h₁).2
        exact hsteps₁.trans (hclean _ r w' (Steps.wf hsteps₁ hwf₁) h).2

/-- `delete_all_folders` on the root folder drops all other folders, and leaves the root
folder's own files alone. -/
theorem deleteAllFolders_root_run {w w' : World σ} {fo : CameraFilesystemFolder}
    {r : Except Int Unit} (hwf : w.tree.Wf) (hroot : w.fs.folders rootfolder = some fo)
    (h : deleteAllFolders funcs ['/'] .null w = some (r, w')) :
    r = .ok () ∧ LookupSteps w w' ∧ w'.fs.folders rootfolder = some { fo with folders := [] } ∧
      (∀ q, q ≠ rootfolder → w'.fs.folders q = none) ∧
      w'.fs.cachesAny fo.files = w.fs.cachesAny fo.files := by
  have hrun : recurseDeleteFolder w.brk rootfolder w = some (r, w') := h
  obtain ⟨hr, hsteps, hroot', -, -⟩ := recurseDeleteFolder_run w.brk hwf hroot hrun
  obtain ⟨hwf', hstable⟩ := LookupSteps.stable hsteps hwf
  refine ⟨hr, hsteps, hroot', fun q hq => ?_, ?_⟩
  · by_contra hne
    obtain ⟨fo', hfo'⟩ := Option.ne_none_iff_exists'.mp hne
    refine hq (hwf'.eq_root ?_ (folderName_ne_none.mpr ⟨fo', hfo'⟩))
    rw [tree_folders hroot']
  · unfold CameraFilesystem.cachesAny
    rw [Bool.eq_iff_iff, List.any_eq_true, List.any_eq_true]
    refine exists_congr fun a => and_congr_right fun ha => ?_
    have halive : w'.tree.fileName a ≠ none := by
      refine hwf'.file_alive (p := rootfolder) ?_
      rwa [tree_files hroot']
    obtain ⟨f', hf'⟩ := fileName_ne_none.mp halive
    obtain ⟨f, hf, heq⟩ := LookupSteps.file hsteps hwf hf'
    rw [hf, hf', Option.any_some, Option.any_some, ← f.hasContent_unlinked, ← heq,
      f'.hasContent_unlinked]

theorem keepsSteps_reset : KeepsSteps (gpFilesystemReset funcs) := by
  refine keepsSteps_of fun w r w' hwf h => ?_
  obtain ⟨fo, hfo, h⟩ := derefFolder_bind_eq_some.mp h
  rw [get_bind_run, trace_bind_run] at h
  have hcall := Step.resetCall w fo hfo
  refine .head hcall ?_
  have hwf₀ := hcall.wf hwf
  -- The cache list is cleared.
  have hclear : ∀ r₁ w₁, gpFilesystemLruClear
      { w with log := w.log ++ [.resetCall (w.fs.cachesAny fo.files)] } = some (r₁, w₁) →
      Step { w with log := w.log ++ [.resetCall (w.fs.cachesAny fo.files)] } w₁ ∧
      w₁.tree.Wf ∧ w₁.fs.folders rootfolder = some fo ∧
      w₁.fs.cachesAny fo.files = w.fs.cachesAny fo.files ∧
      w₁.log = w.log ++ [.resetCall (w.fs.cachesAny fo.files)] := by
    intro r₁ w₁ h₁
    have hframe := (keepsLruFrame_lruClear _ r₁ w₁ trivial h₁).2
    refine ⟨.lruClear _ w₁ r₁ h₁, by rw [hframe.tree]; exact hwf₀,
      by rw [hframe.folders]; exact hfo, ?_, hframe.log⟩
    exact hframe.cachesAny _
  rcases bind_eq_some.mp h with ⟨e, h₁, -⟩ | ⟨_, w₁, h₁, h⟩
  · exact .single (hclear _ _ h₁).1
  obtain ⟨hstep₁, hwf₁, hfo₁, hcached₁, hlog₁⟩ := hclear _ _ h₁
  refine .head hstep₁ ?_
  -- The folders are dropped.
  rcases bind_eq_some.mp h with ⟨e, h₂, -⟩ | ⟨_, w₂, h₂, h⟩
  · cases (deleteAllFolders_root_run funcs hwf₁ hfo₁ h₂).1
  obtain ⟨-, hsteps₂, hfo₂, hgone, hcached₂⟩ := deleteAllFolders_root_run funcs hwf₁ hfo₁ h₂
  refine (TreeSteps.steps hsteps₂.treeSteps).trans ?_
  obtain ⟨fo₃, hfo₃, h⟩ := modifyFolder_bind_eq_some.mp h
  cases h
  refine .single (.resetDone w₂ fo₃ hfo₃ ?_ hgone)
  rw [hfo₂, Option.some.injEq] at hfo₃
  subst hfo₃
  refine (TreeSteps.log hsteps₂.treeSteps hwf₁).subset ?_
  rw [hlog₁]
  show Event.resetCall (w₂.fs.cachesAny fo.files) ∈ _
  rw [hcached₂, hcached₁]
  exact List.mem_append_right _ (List.mem_singleton_self _)

/-! ### Directories -/

theorem keepsSteps_makeDir :
    KeepsSteps (gpFilesystemMakeDir funcs folder name context) := by
  refine KeepsSteps.checks funcs ?_ _ _
  cases funcs.makeDirFunc with
  | none => exact .throw _
  | some makeDir =>
    refine keepsSteps_lookupFolder_bind' funcs fun f w r w' hwf hwalk h => ?_
    obtain ⟨w₀, henv, ⟨rfl, -⟩ | ⟨_, h⟩⟩ := callEnv_ofExcept_eq_some h
    · exact .single henv.step
    refine .head henv.step ?_
    rw [← henv.tree] at hwf
    obtain ⟨fo, hfo, h⟩ := derefFolder_bind_eq_some.mp h
    rw [get_bind_run, trace_bind_run] at h
    generalize hw₁ : ({ w₀ with log := _ } : World σ) = w₁ at h
    have hwf₁ : w₁.tree.Wf := by rwa [← hw₁]
    rcases bind_eq_some.mp h with ⟨e, h₁, -⟩ | ⟨_, w₂, h₁, h⟩
    · obtain ⟨_, -, hr, -⟩ := appendFolderOne_eq_some hwf₁ h₁
      cases hr
    obtain ⟨fo', hfo', -, rfl⟩ := appendFolderOne_eq_some hwf₁ h₁
    subst hw₁
    have hsame : fo' = fo := Option.some.inj (hfo'.symm.trans hfo)
    subst hsame
    cases h
    exact .single (.makeDir w₀ f fo' folder name hfo)

/-- The end of `gp_filesystem_remove_dir`: if the driver agrees, the folder is gone. -/
theorem removeDir_steps {w w' : World σ} {folder name : CString} {f : FolderAddr}
    {removeDir : CString → CString → σ → Except Int Unit × σ} {r : Except Int Unit}
    (hwf : w.tree.Wf)
    (h : removeDirEnd folder name removeDir f w = some (r, w')) :
    Steps w w' ∧ (r = .ok () → ∃ dir, w.tree.child f name = some dir ∧
      w'.tree = w.tree.eraseFolder f dir) := by
  obtain ⟨fo, hfo, h⟩ := derefFolder_bind_eq_some.mp h
  rw [get_bind_run, findFolder_eq_child hfo] at h
  cases hc : w.tree.child f name with
  | none =>
    rw [hc] at h
    cases h
    exact ⟨.refl, fun hr => by cases hr⟩
  | some dir =>
    rw [hc] at h
    obtain ⟨d, hd, h⟩ := derefFolder_bind_eq_some.mp h
    by_cases hfolders : d.folders = []
    swap
    · rw [if_pos hfolders] at h
      cases h
      exact ⟨.refl, fun hr => by cases hr⟩
    rw [if_neg (not_not.mpr hfolders)] at h
    by_cases hfiles : d.files = []
    swap
    · rw [if_pos hfiles] at h
      cases h
      exact ⟨.refl, fun hr => by cases hr⟩
    rw [if_neg (not_not.mpr hfiles)] at h
    simp only [trace_bind_run] at h
    have hcall := Step.removeDirFunc w folder name
    obtain ⟨w₁, henv, ⟨rfl, e, rfl⟩ | ⟨_, h⟩⟩ := callEnv_ofExcept_eq_some h
    · exact ⟨.head hcall (.single henv.step), fun hr => by cases hr⟩
    have hfs : w₁.fs = w.fs := henv.fs
    have htree₁ : w₁.tree = w.tree := henv.tree
    rw [← hfs] at hfo hd
    obtain ⟨-, rfl⟩ := deleteFolder_empty_run hfo hd hfiles h
    have hmem := (NameTree.child_eq_some hc).1
    have hne : f ≠ dir := Nat.ne_of_lt (hwf.child_gt hmem)
    rw [← htree₁] at hmem
    have hempty : w₁.tree.folders dir = [] := by rw [tree_folders hd, hfolders]
    have hnofiles : w₁.tree.files dir = [] := by rw [tree_files hd, hfiles]
    refine ⟨.head hcall (.head henv.step (.single ?_)), fun _ => ⟨dir, rfl, ?_⟩⟩
    · rw [tree_folders hfo] at hmem
      exact .tree (.lookup (.dropFolder w₁ f dir fo hfo hmem hempty hnofiles))
    · rw [dropFolder_tree hfo hne hempty hnofiles, htree₁]

theorem keepsSteps_removeDir :
    KeepsSteps (gpFilesystemRemoveDir funcs folder name context) := by
  refine KeepsSteps.checks funcs ?_ _ _
  cases funcs.removeDirFunc with
  | none => exact .throw _
  | some removeDir =>
    refine keepsSteps_lookupFolder_bind funcs (fun f => ?_) _ _
    refine (keepsSteps_derefFolder f).bind fun fo => .ite (fun _ => ?_) fun _ => ?_
    · exact (keepsSteps_listFolders funcs folder context).attempt.bind fun _ =>
        keepsSteps_of fun w r w' hwf h => (removeDir_steps hwf h).1
    · exact keepsSteps_of fun w r w' hwf h => (removeDir_steps hwf h).1

end

/-! ### File information -/

theorem keepsSteps_modifyInfo (a : FileAddr) {g : CameraFilesystemFile → CameraFilesystemFile}
    (hg : ∀ f, ∃ info dirty, g f = { f with info := info, infoDirty := dirty }) :
    KeepsSteps (modifyFile a g : Fs σ Unit) := by
  refine keepsSteps_of fun w r w' hwf h => ?_
  obtain ⟨f, hf, -, rfl⟩ := modifyFile_eq_some.mp h
  obtain ⟨info, dirty, hgf⟩ := hg f
  rw [hgf]
  exact .single (.info w a f info dirty hf)

section
variable (funcs : CameraFilesystemFuncs σ)
  (folder filename : CString) (info : CameraFileInfo) (context : GPContext)

theorem keepsSteps_getInfo :
    KeepsSteps (gpFilesystemGetInfo funcs folder filename context) := by
  refine KeepsSteps.checks funcs ?_ _ _
  cases funcs.getInfoFunc with
  | none => exact .throw _
  | some getInfo =>
    refine (keepsSteps_lookupFolderFile funcs folder filename context).bind fun (_, file) => ?_
    refine (keepsSteps_derefFile file).bind fun f => ?_
    have hend : KeepsSteps (do
        let f ← derefFile file
        pure f.info : Fs σ CameraFileInfo) :=
      (keepsSteps_derefFile file).bind fun _ => .pure _
    refine .ite (fun _ => ?_) fun _ => hend
    refine (keepsSteps_callEnv _).bind fun (answer, info) => ?_
    refine (keepsSteps_modifyInfo file fun f => ⟨info, f.infoDirty, rfl⟩).bind fun _ =>
      (Keeps.ofExcept _).bind fun _ => ?_
    exact (keepsSteps_modifyInfo file fun f => ⟨f.info, false, rfl⟩).bind fun _ => hend

theorem keepsSteps_setInfoNoop :
    KeepsSteps (gpFilesystemSetInfoNoop funcs folder filename info context) := by
  refine KeepsSteps.checks funcs ?_ _ _
  refine (keepsSteps_lookupFolderFile funcs folder filename context).bind fun (_, xfile) => ?_
  exact keepsSteps_modifyInfo xfile fun f => ⟨info, false, rfl⟩

theorem keepsSteps_setInfo :
    KeepsSteps (gpFilesystemSetInfo funcs folder filename info context) := by
  refine KeepsSteps.checks funcs ?_ _ _
  cases funcs.setInfoFunc with
  | none => exact .throw _
  | some setInfo =>
    refine (keepsSteps_lookupFolderFile funcs folder filename context).bind fun (_, xfile) => ?_
    refine .ite (fun _ => (Keeps.throw _).bind fun _ => ?_) fun _ => ?_
    all_goals
      refine (keepsSteps_callEnv _).bind fun answer => ?_
      cases answer with
      | error e =>
        exact (keepsSteps_modifyInfo xfile fun f => ⟨f.info, true, rfl⟩).bind fun _ =>
          .throw _
      | ok _ =>
        refine .ite (fun _ => ?_) fun _ => .pure _
        exact keepsSteps_modifyInfo xfile fun f => ⟨_, f.infoDirty, rfl⟩

end

/-! ### File contents -/

/-- The object `file` was written, the driver called, and `used` appended to the trace. -/
def Filled (file : CameraFileRef) (used : List Event) (w w' : World σ) : Prop :=
  ∃ content s, w' = { w.setCameraFile file content with env := s, log := w.log ++ used }

section
variable {w w' w'' : World σ} {file : CameraFileRef} {used used' : List Event}

theorem Filled.refl (file : CameraFileRef) (w : World σ) : Filled file [] w w := by
  refine ⟨w.cameraFile file, w.env, ?_⟩
  simp [World.setCameraFile]

theorem Filled.trans (h : Filled file used w w') (h' : Filled file used' w' w'') :
    Filled file (used ++ used') w w'' := by
  obtain ⟨content, s, rfl⟩ := h
  obtain ⟨content', s', rfl⟩ := h'
  refine ⟨content', s', ?_⟩
  simp [World.setCameraFile]

instance : IsPreorder (World σ) (Filled file []) where
  refl := Filled.refl file
  trans _ _ _ h h' := h.trans h'

/-- Writing nothing but `file`, and calling nothing but the driver. -/
abbrev KeepsFilled (file : CameraFileRef) (m : Fs σ α) : Prop :=
  Keeps (fun _ => True) (Filled file []) m

theorem keepsFilled_modifyCameraFile (file : CameraFileRef) (g : CameraFile → CameraFile) :
    KeepsFilled file (modifyCameraFile file g : Fs σ Unit) :=
  .modify fun w _ => ⟨trivial, _, w.env, by simp [World.setCameraFile]; rfl⟩

theorem keepsFilled_callEnv (file : CameraFileRef) (g : σ → α × σ) :
    KeepsFilled file (callEnv g : Fs σ α) := by
  intro w r w' _ h
  cases h
  exact ⟨trivial, w.cameraFile file, (g w.env).2, by simp [World.setCameraFile]⟩

variable (funcs : CameraFilesystemFuncs σ)

theorem keepsFilled_fileCopy (file source : CameraFileRef) :
    KeepsFilled file (gpFileCopy funcs file source) := by
  refine Keeps.get.bind fun w => (keepsFilled_modifyCameraFile file _).bind fun _ => ?_
  have hio : KeepsFilled file (fileCopyIo funcs file source w) :=
    (keepsFilled_callEnv file _).bind fun _ => (keepsFilled_modifyCameraFile file _).bind fun _ =>
      .ofExcept _
  cases (w.cameraFile file).accesstype <;> cases (w.cameraFile source).accesstype
  case memory.memory =>
    exact .ite (fun _ => .stuck) fun _ => keepsFilled_modifyCameraFile file _
  case memory.fd =>
    cases gpFileGetSize (w.cameraFile source) with
    | error e =>
      exact (keepsFilled_modifyCameraFile file _).bind fun _ => .throw _
    | ok _ => exact keepsFilled_modifyCameraFile file _
  case fd.memory | fd.fd | handler.memory => exact hio
  all_goals exact .throw _

theorem keepsFilled_getFileFromDriver
    (getFile : CString → CString → CameraFileType → CameraFile → σ →
      (Except Int Unit × CameraFile) × σ)
    (folder filename : CString) (type : CameraFileType) (file : CameraFileRef) :
    KeepsFilled file (getFileFromDriver getFile folder filename type file) := by
  refine Keeps.get.bind fun w => (keepsFilled_callEnv file _).bind fun _ =>
    (keepsFilled_modifyCameraFile file _).bind fun _ => (Keeps.ofExcept _).bind fun _ =>
    (keepsFilled_modifyCameraFile file _).bind fun _ => ?_
  exact .ite (fun _ => keepsFilled_modifyCameraFile file _) fun _ => .pure _

theorem fileCopy_data {source : CameraFileRef} (hmem : (w.cameraFile file).accesstype = .memory)
    (h : gpFileCopy funcs file source w = some (.ok (), w')) :
    (w'.cameraFile file).data = (w.cameraFile source).data := by
  unfold gpFileCopy at h
  rw [get_bind_run, bind_run_ok (modifyCameraFile_run _ _ _)] at h
  simp only [hmem] at h
  cases hsrc : (w.cameraFile source).accesstype with
  | memory =>
    simp only [hsrc] at h
    split at h
    · cases h
    · cases h
      simp
  | fd =>
    simp only [hsrc] at h
    cases hsize : gpFileGetSize (w.cameraFile source) with
    | error e =>
      simp only [hsize] at h
      cases h
    | ok _ =>
      simp only [hsize] at h
      cases h
      simp
  | handler =>
    simp only [hsrc] at h
    cases h

theorem getFileFromCache_run {folder filename : CString} {type : CameraFileType}
    {cached : Option CameraFileRef} {r : Except Int (Except Int Unit)}
    (h : getFileFromCache funcs folder filename type file cached w = some (r, w')) :
    ∃ used ret, r = .ok ret ∧ Filled file used w w' ∧ (used = [] ∨ ∃ c, cached = some c ∧
      ret = .ok () ∧ used = [.lruUsed folder filename type (w.cameraFile c).data] ∧
      ((w.cameraFile file).accesstype = .memory →
        (w'.cameraFile file).data = (w.cameraFile c).data)) := by
  cases cached with
  | none =>
    cases h
    exact ⟨[], _, rfl, .refl _ _, Or.inl rfl⟩
  | some c =>
    unfold getFileFromCache at h
    simp only [get_bind_run] at h
    obtain ⟨ret, w₁, h₁, h⟩ := (bind_eq_some.mp h).resolve_left (by
      rintro ⟨e, he, -⟩
      obtain ⟨r', -, hr'⟩ := attempt_eq_some.mp he
      cases hr')
    obtain ⟨_, h₁, hret⟩ := attempt_eq_some.mp h₁
    cases hret
    have hfilled := (keepsFilled_fileCopy funcs file c w ret w₁ trivial h₁).2
    by_cases hok : ret = .ok ()
    · rw [if_pos hok, trace_bind_run] at h
      cases h
      have hused : Filled file [.lruUsed folder filename type (w.cameraFile c).data] w₁
          { w₁ with log := w₁.log ++ [.lruUsed folder filename type (w.cameraFile c).data] } :=
        ⟨w₁.cameraFile file, w₁.env, by simp [World.setCameraFile]⟩
      subst hok
      refine ⟨_, _, rfl, hfilled.trans hused, Or.inr ⟨c, rfl, rfl, rfl, fun hmem => ?_⟩⟩
      show (w₁.cameraFile file).data = _
      exact fileCopy_data funcs hmem h₁
    · rw [if_neg hok] at h
      cases h
      exact ⟨[], ret, rfl, hfilled, Or.inl rfl⟩

variable (folder filename : CString) (type : CameraFileType)

theorem keepsSteps_getFile (file : CameraFileRef) (context : GPContext) :
    KeepsSteps (gpFilesystemGetFile funcs folder filename type file context) := by
  refine KeepsSteps.checks funcs ?_ _ _
  have htouch : KeepsSteps (modifyCameraFile file (gpFileSetName · filename) : Fs σ Unit) := by
    refine keepsSteps_of fun w r w' hwf h => ?_
    cases h
    exact .single (.touch w file _ rfl rfl)
  refine htouch.bind fun _ => ?_
  cases funcs.getFileFunc with
  | none => exact .throw _
  | some getFile =>
    refine keepsSteps_lookupFolderFile_bind funcs fun f a w r w' hwf hat h => ?_
    obtain ⟨entry, hentry, h⟩ := derefFile_bind_eq_some.mp h
    rw [get_bind_run, trace_bind_run] at h
    -- From here on the destination is filled.
    have hstep : ∀ used, UsedCache w used → Filled file used
        { w with log := w.log ++ [Event.getFile file (w.isCached file)] } w' → Steps w w' := by
      rintro used hused ⟨content, s, rfl⟩
      simp only [List.append_assoc, List.singleton_append]
      exact .single (.getFile w file content s used hused)
    have hmain : getFileEnd funcs getFile folder filename type file (entry.slot type)
          { w with log := w.log ++ [Event.getFile file (w.isCached file)] } = some (r, w') →
        Steps w w' := by
      intro h
      obtain ⟨ret, w₁, h₁, h⟩ := (bind_eq_some.mp h).resolve_left (by
        rintro ⟨e, he, -⟩
        obtain ⟨_, ret, hret, -⟩ := getFileFromCache_run funcs he
        cases hret)
      obtain ⟨used, _, hret, hfilled, hcase⟩ := getFileFromCache_run funcs h₁
      cases hret
      refine hstep used ?_ ?_
      · rcases hcase with rfl | ⟨c, hc, -, rfl, -⟩
        · exact Or.inl rfl
        · exact Or.inr ⟨folder, filename, type, f, a, entry, c, hat, hentry, hc, rfl⟩
      · cases ret with
        | ok _ =>
          cases h
          exact hfilled
        | error e =>
          rw [← List.append_nil used]
          exact hfilled.trans
            (keepsFilled_getFileFromDriver getFile folder filename type file _ _ _ trivial h).2
    cases type with
    | unknown n =>
      cases h
      exact hstep [] (Or.inl rfl) (.refl _ _)
    | preview | normal | raw | audio | exif | metadata => exact hmain h

theorem keepsSteps_readFile (offset size : Nat) (context : GPContext) :
    KeepsSteps (gpFilesystemReadFile funcs folder filename type offset size context) := by
  refine KeepsSteps.checks funcs ?_ _ _
  cases funcs.readFileFunc with
  | none => exact .throw _
  | some readFile =>
    refine (keepsSteps_callEnv _).bind fun answer => ?_
    cases answer with
    | ok data => exact .pure _
    | error e => exact .throw _

theorem keepsSteps_putFile (file : CameraFileRef) (context : GPContext) :
    KeepsSteps (gpFilesystemPutFile funcs folder filename type file context) := by
  refine KeepsSteps.checks funcs ?_ _ _
  cases funcs.putFileFunc with
  | none => exact .throw _
  | some putFile =>
    refine keepsSteps_lookupFolder_bind' funcs fun f w r w' hwf hwalk h => ?_
    rw [get_bind_run] at h
    obtain ⟨w₀, henv, ⟨rfl, -⟩ | ⟨_, h⟩⟩ := callEnv_ofExcept_eq_some h
    · exact .single henv.step
    refine .head henv.step ?_
    rw [← henv.tree] at hwalk
    obtain ⟨ret, w₁, h₁, h⟩ := (bind_eq_some.mp h).resolve_left (by
      rintro ⟨e, he, -⟩
      obtain ⟨r', -, hr'⟩ := attempt_eq_some.mp he
      cases hr')
    obtain ⟨_, h₁, hret⟩ := attempt_eq_some.mp h₁
    cases hret
    obtain ⟨fo, hfo, h₁⟩ := derefFolder_bind_eq_some.mp h₁
    rw [get_bind_run, findFile_eq_fileIn hfo] at h₁
    have hend : ∀ w₂, (if type ≠ .normal then pure () else Comp.ofExcept ret : Fs σ Unit) w₂ =
        some (r, w') → w' = w₂ := by
      intro w₂ h
      split at h <;> cases h <;> rfl
    cases hfile : w₀.tree.fileIn f filename with
    | some a =>
      rw [hfile] at h₁
      cases h₁
      by_cases hother : type = .normal
      · rw [if_neg (by simp [hother])] at h
        rw [hend _ h]
      · rw [if_pos (Or.inr hother), trace_bind_run] at h
        rw [hend _ h]
        exact .single (.putFileRefused _ folder filename type _ hother)
    | none =>
      rw [hfile] at h₁
      obtain ⟨fo', hfo', rfl, rfl⟩ := addFile_eq_some.mp h₁
      have hsame : fo' = fo := Option.some.inj (hfo'.symm.trans hfo)
      subst hsame
      rw [if_pos (Or.inl rfl), trace_bind_run] at h
      rw [hend _ h]
      obtain ⟨s, rfl⟩ := henv
      exact .single (.putFile _ folder filename type f fo' file hwalk hfo hfile)

end

/-! ### Storing content -/

/-- Making room in the cache goes by steps, and leaves the tree and the `CameraFile`s
alone. -/
structure RoomMade (w w' : World σ) : Prop where
  steps : Steps w w'
  tree : w'.tree = w.tree
  cameraFile : w'.cameraFile = w.cameraFile

instance : IsPreorder (World σ) RoomMade where
  refl _ := ⟨.refl, rfl, rfl⟩
  trans _ _ _ h h' :=
    ⟨h.steps.trans h'.steps, h'.tree.trans h.tree, h'.cameraFile.trans h.cameraFile⟩

abbrev KeepsRoomMade (m : Fs σ α) : Prop := Keeps (fun w => w.tree.Wf) RoomMade m

theorem keepsRoomMade_of {m : Fs σ α}
    (h : ∀ w r w', w.tree.Wf → m w = some (r, w') → RoomMade w w') : KeepsRoomMade m := by
  intro w r w' hwf hm
  have hroom := h w r w' hwf hm
  refine ⟨?_, hroom⟩
  show w'.tree.Wf
  rwa [hroom.tree]

theorem keepsRoomMade_initPicturesToKeep : KeepsRoomMade (initPicturesToKeep : Fs σ Unit) := by
  refine keepsRoomMade_of fun w r w' hwf h => ?_
  have hw : ∃ n cached, w' = { w with picturesToKeep := n, cachedImages := cached } := by
    unfold initPicturesToKeep at h
    simp only [Comp.modify_run, Option.some.injEq, Prod.mk.injEq] at h
    rw [← h.2]
    by_cases hpics : w.picturesToKeep = -1
    · rcases w.cachedImages with _ | n
      all_goals
        simp only [hpics, if_true]
        split <;> exact ⟨_, _, rfl⟩
    · simp only [hpics, if_false]
      split <;> exact ⟨_, _, rfl⟩
  obtain ⟨n, cached, rfl⟩ := hw
  exact ⟨.single (.pictures w n cached), rfl, rfl⟩

theorem keepsRoomMade_lruTrim (n : Nat) : KeepsRoomMade (lruTrim n : Fs σ Unit) := by
  have hcount : KeepsRoomMade (gpFilesystemLruCount : Fs σ Nat) := by
    refine keepsRoomMade_of fun w r w' hwf h => ?_
    rw [(lruCount_eq_some h).1]
    exact Std.Refl.refl w
  have hfree : KeepsRoomMade (gpFilesystemLruFree : Fs σ Unit) := by
    refine keepsRoomMade_of fun w r w' hwf h => ⟨.single (.lruFree w w' r h), ?_, ?_⟩
    · rcases lruFree_cases h with ⟨-, rfl⟩ | ⟨ptr, f, -, -, hframe⟩
      · rfl
      · exact hframe.tree
    · rcases lruFree_cases h with ⟨-, rfl⟩ | ⟨ptr, f, -, -, hframe⟩
      · rfl
      · exact hframe.cameraFile
  induction n with
  | zero => exact .stuck
  | succ n ih =>
    refine hcount.bind fun x => Keeps.get.bind fun w =>
      .ite (fun _ => ?_) fun _ => .pure _
    exact hfree.bind fun _ => ih

section
variable (funcs : CameraFilesystemFuncs σ)

/-- `gp_filesystem_lru_update` fails before it gets to the entry, or accounts for the
content at the entry its own lookup finds. -/
theorem lruUpdate_cases {w w' : World σ} {folder filename : CString} {type : CameraFileType}
    {file : CameraFileRef} {context : GPContext} {r : Except Int Unit} (hwf : w.tree.Wf)
    (h : gpFilesystemLruUpdate funcs folder filename type file context w = some (r, w')) :
    (Steps w w' ∧ ∃ e, r = .error e) ∨
    ∃ w₁ f x size, Steps w w₁ ∧ w₁.tree.Wf ∧ w.tree.Stable w₁.tree ∧
      w₁.tree.locate (components folder) filename = .ok (f, x) ∧
      gpFileGetSize (w₁.cameraFile file) = .ok size ∧
      lruInsert x type file size w₁ = some (r, w') := by
  rcases bind_eq_some.mp h with ⟨e, h₁, hr⟩ | ⟨size, w₁, h₁, h⟩
  · rw [cameraFileSize_run, Option.some.injEq, Prod.mk.injEq] at h₁
    obtain ⟨-, rfl⟩ := h₁
    exact Or.inl ⟨.refl, e, hr⟩
  rw [cameraFileSize_run, Option.some.injEq, Prod.mk.injEq] at h₁
  obtain ⟨hsize, rfl⟩ := h₁
  -- Room is made.
  have hroom : KeepsRoomMade (do
      initPicturesToKeep
      let w ← Comp.get
      lruTrim (w.brk + 1) : Fs σ Unit) :=
    keepsRoomMade_initPicturesToKeep.bind fun _ => Keeps.get.bind fun w =>
      keepsRoomMade_lruTrim _
  have hsplit : ∃ r₂ w₂, (do
      initPicturesToKeep
      let w ← Comp.get
      lruTrim (w.brk + 1) : Fs σ Unit) w = some (r₂, w₂) ∧
      ((∃ e, r₂ = .error e ∧ r = .error e ∧ w' = w₂) ∨
        lruUpdateEnd funcs folder filename type file context size w₂ = some (r, w')) := by
    rcases bind_eq_some.mp h with ⟨e, h₂, hr⟩ | ⟨_, w₂, h₂, h⟩
    · exact ⟨_, w', by rw [Comp.bind_run_error h₂], Or.inl ⟨e, rfl, hr, rfl⟩⟩
    · rw [get_bind_run] at h
      rcases bind_eq_some.mp h with ⟨e, h₃, hr⟩ | ⟨_, w₃, h₃, h⟩
      · exact ⟨_, w', by rw [bind_run_ok h₂, get_bind_run, h₃],
          Or.inl ⟨e, rfl, hr, rfl⟩⟩
      · exact ⟨_, w₃, by rw [bind_run_ok h₂, get_bind_run, h₃], Or.inr h⟩
  obtain ⟨r₂, w₂, h₂, hcase⟩ := hsplit
  obtain ⟨hwf₂, hroom₂⟩ := hroom w r₂ w₂ hwf h₂
  rcases hcase with ⟨e, -, hr, rfl⟩ | h
  · exact Or.inl ⟨hroom₂.steps, e, hr⟩
  obtain ⟨w₃, hsteps, hwf₃, ⟨rfl, e, hr⟩ | ⟨f, x, hat, h⟩⟩ :=
    lookupFolderFile_bind_eq_some funcs hwf₂ h
  · exact Or.inl ⟨hroom₂.steps.trans (TreeSteps.steps hsteps), e, hr⟩
  · refine Or.inr ⟨w₃, f, x, size, hroom₂.steps.trans (TreeSteps.steps hsteps), hwf₃, ?_, hat,
      ?_, h⟩
    · rw [← hroom₂.tree]
      exact (TreeSteps.stable hsteps hwf₂).2
    · rw [TreeSteps.cameraFile hsteps hwf₂, hroom₂.cameraFile, hsize]

theorem keepsSteps_setFileMtime (folder filename : CString) (file : CameraFileRef) :
    KeepsSteps (setFileMtime funcs folder filename file) := by
  have htouch : ∀ mtime, KeepsSteps (modifyCameraFile file (gpFileSetMtime · mtime) :
      Fs σ Unit) := by
    refine fun mtime => keepsSteps_of fun w r w' hwf h => ?_
    cases h
    exact .single (.touch w file _ rfl rfl)
  refine Keeps.get.bind fun w => .ite (fun _ => ?_) fun _ => htouch _
  refine (keepsSteps_getInfo funcs folder filename .null).attempt.bind fun r => ?_
  cases r with
  | error e => exact .pure _
  | ok info => exact .ite (fun _ => htouch _) fun _ => .pure _

/-- The part of `gp_filesystem_set_file_noop` behind the accounting. -/
theorem setFileNoop_end_cases {w w' : World σ} {folder filename : CString}
    {type : CameraFileType} {file : CameraFileRef} {x : FileAddr} {r : Except Int Unit}
    (h : setFileEnd funcs folder filename type file x w = some (r, w')) :
    (w' = w ∧ (gpFilesystemLruCheck w ≠ some (.ok (), w) ∨ ∃ n, type = .unknown n)) ∨
    (gpFilesystemLruCheck w = some (.ok (), w) ∧ (∀ n, type ≠ .unknown n) ∧
      ∃ g, w.fs.files x = some g ∧ setFileMtime funcs folder filename file
        { w.setFile x (some (g.setSlot (some file) type)) with
          log := w.log ++ [.setFileNoop folder filename type (w.cameraFile file).data] } =
            some (r, w')) := by
  rcases bind_eq_some.mp h with ⟨e, h₁, -⟩ | ⟨_, w₁, h₁, h₂⟩
  · obtain ⟨rfl, -⟩ := lruCheck_eq_some h₁
    refine Or.inl ⟨rfl, Or.inl fun hok => ?_⟩
    rw [h₁] at hok
    cases hok
  · obtain ⟨rfl, -⟩ := lruCheck_eq_some h₁
    cases type with
    | unknown n =>
      cases h₂
      exact Or.inl ⟨rfl, Or.inr ⟨n, rfl⟩⟩
    | preview | normal | raw | audio | exif | metadata =>
      obtain ⟨g, hg, h₂⟩ := modifyFile_bind_eq_some.mp h₂
      rw [get_bind_run, trace_bind_run] at h₂
      exact Or.inr ⟨h₁, by simp, g, hg, h₂⟩

theorem keepsSteps_setFileNoop (folder filename : CString) (type : CameraFileType)
    (file : CameraFileRef) (context : GPContext) :
    KeepsSteps (gpFilesystemSetFileNoop funcs folder filename type file context) := by
  refine KeepsSteps.checks funcs ?_ _ _
  refine keepsSteps_lookupFolderFile_bind funcs fun f x w r w' hwf hat h => ?_
  by_cases hbig : type.big
  · simp only [if_pos hbig] at h
    have hknown : ∀ n, type ≠ .unknown n := by
      rintro n rfl
      rcases hbig with hbig | hbig | hbig <;> cases hbig
    rcases bind_eq_some.mp h with ⟨e, h₁, -⟩ | ⟨_, w₂, h₁, h⟩
    · rcases lruUpdate_cases funcs hwf h₁ with
        ⟨hsteps, -⟩ | ⟨w₁, f', x', size, hsteps, -, -, -, hsize, hinsert⟩
      · exact hsteps
      · exact hsteps.tail
          (.lruInsert w₁ w' x' type file size _ hbig hsize hinsert fun he => by cases he)
    rcases lruUpdate_cases funcs hwf h₁ with
      ⟨-, e, he⟩ | ⟨w₁, f', x', size, hsteps, hwf₁, hstable, hat', hsize, hinsert⟩
    · cases he
    refine hsteps.trans ?_
    rcases setFileNoop_end_cases funcs h with ⟨rfl, hfail⟩ | ⟨hcheck, -, g, hg, h⟩
    · refine .single (.lruInsert w₁ w' x' type file size _ hbig hsize hinsert fun _ => ?_)
      exact hfail.resolve_right fun ⟨n, hn⟩ => hknown n hn
    · -- The entry is still there, so the second lookup found the same one.
      obtain ⟨g₀, -, hframe⟩ := lruInsert_cases hinsert
      obtain ⟨g₁, hg₁, -⟩ := hframe.file hg
      have hsame := hstable.locate hwf₁ hat (fileName_ne_none.mpr ⟨g₁, hg₁⟩)
      rw [hat', Except.ok.injEq, Prod.mk.injEq] at hsame
      obtain ⟨rfl, rfl⟩ := hsame
      have hstore := Step.store w₁ _ folder filename f' x' type file size hat' hknown
        (fun _ => hsize) (storeContent_run (Or.inl ⟨hbig, hinsert⟩) hcheck hg)
      exact .head hstore (keepsSteps_setFileMtime funcs folder filename file _ r w'
        (hstore.wf hwf₁) h).2
  · simp only [if_neg hbig] at h
    rcases setFileNoop_end_cases funcs h with ⟨rfl, -⟩ | ⟨hcheck, hknown, g, hg, h⟩
    · exact .refl
    · have hstore := Step.store w _ folder filename f x type file 0 hat hknown
        (fun hb => absurd hb hbig) (storeContent_run (Or.inr ⟨hbig, rfl⟩) hcheck hg)
      exact .head hstore (keepsSteps_setFileMtime funcs folder filename file _ r w'
        (hstore.wf hwf) h).2

end

/-! ### Calls and runs -/

section
variable (funcs : CameraFilesystemFuncs σ) {w w' : World σ}

theorem exec_steps {op : FsOp} {r : Except Int FsValue} (hwf : w.tree.Wf)
    (h : FsOp.exec funcs op w = some (r, w')) : Steps w w' := by
  have hkeeps : KeepsSteps (FsOp.exec funcs op) := by
    cases op with
    | append folder filename context =>
      exact (keepsSteps_append funcs folder filename context).bind fun _ => .pure _
    | listFiles folder context =>
      exact (keepsSteps_listFiles funcs folder context).bind fun _ => .pure _
    | listFolders folder context =>
      exact (keepsSteps_listFolders funcs folder context).bind fun _ => .pure _
    | count folder context =>
      exact (keepsSteps_count funcs folder context).bind fun _ => .pure _
    | name folder filenumber context =>
      exact (keepsSteps_name funcs folder filenumber context).bind fun _ => .pure _
    | number folder filename context =>
      exact (keepsSteps_numberAux funcs folder filename context _).bind fun _ =>
        .pure _
    | getFile folder filename type file context =>
      exact (keepsSteps_getFile funcs folder filename type file context).bind fun _ =>
        .pure _
    | readFile folder filename type offset size context =>
      exact (keepsSteps_readFile funcs folder filename type offset size context).bind fun _ =>
        .pure _
    | setFileNoop folder filename type file context =>
      exact (keepsSteps_setFileNoop funcs folder filename type file context).bind fun _ =>
        .pure _
    | putFile folder filename type file context =>
      exact (keepsSteps_putFile funcs folder filename type file context).bind fun _ =>
        .pure _
    | getInfo folder filename context =>
      exact (keepsSteps_getInfo funcs folder filename context).bind fun _ => .pure _
    | setInfo folder filename info context =>
      exact (keepsSteps_setInfo funcs folder filename info context).bind fun _ =>
        .pure _
    | setInfoNoop folder filename info context =>
      exact (keepsSteps_setInfoNoop funcs folder filename info context).bind fun _ =>
        .pure _
    | deleteFile folder filename context =>
      exact (keepsSteps_deleteFile funcs folder filename context).bind fun _ => .pure _
    | deleteFileNoop folder filename context =>
      exact (keepsSteps_deleteFileNoop funcs folder filename context).bind fun _ =>
        .pure _
    | deleteAll folder context =>
      exact (keepsSteps_deleteAll funcs folder context).bind fun _ => .pure _
    | makeDir folder dirname context =>
      exact (keepsSteps_makeDir funcs folder dirname context).bind fun _ => .pure _
    | removeDir folder dirname context =>
      exact (keepsSteps_removeDir funcs folder dirname context).bind fun _ => .pure _
    | reset => exact (keepsSteps_reset funcs).bind fun _ => .pure _
  exact (hkeeps w r w' hwf h).2

theorem runOps_steps {ops : List FsOp} {rs : List (Except Int FsValue)} (hwf : w.tree.Wf)
    (h : runOps funcs ops w = some (rs, w')) : Steps w w' := by
  induction ops generalizing w rs with
  | nil =>
    cases h
    exact .refl
  | cons op ops ih =>
    simp only [runOps] at h
    cases hop : FsOp.exec funcs op w with
    | none =>
      rw [hop] at h
      cases h
    | some p =>
      obtain ⟨r, w₁⟩ := p
      rw [hop] at h
      obtain ⟨⟨rs', w₂⟩, hrun, heq⟩ := Option.map_eq_some_iff.mp h
      cases heq
      have hsteps := exec_steps funcs hwf hop
      exact hsteps.trans (ih (Steps.wf hsteps hwf) hrun)

theorem World.IsNew.tree (h : w.IsNew) : w.tree = NameTree.new w.brk := by
  unfold World.tree NameTree.new
  rw [h.fs]
  congr 1
  · funext a
    by_cases ha : a = rootfolder <;>
      simp [gpFilesystemNew, CameraFilesystem.folderName, CameraFilesystemFolder.new, ha]
  · funext p
    by_cases hp : p = rootfolder <;> simp [gpFilesystemNew, CameraFilesystemFolder.new, hp]
  · funext p
    by_cases hp : p = rootfolder <;> simp [gpFilesystemNew, CameraFilesystemFolder.new, hp]

theorem World.IsNew.wf (h : w.IsNew) : w.tree.Wf := by
  rw [h.tree]
  exact NameTree.new_wf h.brk

theorem Reachable.wf (h : Reachable funcs w) : w.tree.Wf := by
  obtain ⟨w₀, ops, rs, hnew, hrun⟩ := h
  exact Steps.wf (runOps_steps funcs hnew.wf hrun) hnew.wf

/-- The rule for invariants of runs: what holds of a new filesystem, and what each step keeps
as long as the trace is free of certain events, holds in every world a run ends in whose
trace is free of them. -/
theorem Reachable.induction {Inv : World σ → Prop} {good : Event → Prop}
    (hnew : ∀ w, w.IsNew → Inv w)
    (hstep : ∀ w w', w.tree.Wf → Step w w' → (∀ e ∈ w'.log, good e) → Inv w → Inv w')
    (h : Reachable funcs w) (hgood : ∀ e ∈ w.log, good e) : Inv w := by
  obtain ⟨w₀, ops, rs, hw₀, hrun⟩ := h
  exact Steps.keeps hstep (runOps_steps funcs hw₀.wf hrun) hw₀.wf hgood (hnew w₀ hw₀)

end

end GPhoto2
