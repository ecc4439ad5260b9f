import GPhoto2.Proofs.Filesys.Steps

/-!
# `GPhoto2.Proofs.Filesys.Lookup`: what a folder lookup returns

`lookupFolder_run` is the specification of `lookup_folder`: on a well-formed tree it is a
sequence of `LookupStep`s, and it returns the folder the path leads to in the tree it leaves
behind. `listFolders_run` is the one of `gp_filesystem_list_folders`.

Listing a folder looks it up twice, and a lookup may list folders on the way. So a pointer
to a folder can be used after a second lookup has replaced the folder. The model has no
outcome then; where it has one, the folder still exists, and by `NameTree.Stable` the second
lookup returned the same pointer.

The recursion of `lookup_folder` goes down with the length of the path. The count the model
starts with is enough: `lookupFolder_eq` is the equation of the source.
-/

set_option autoImplicit false

namespace GPhoto2

open Lib Relation
open Lib.Comp (bind_eq_some bind_run_ok get_bind_run)

variable {σ : Type}

/-! ### The parameter checks -/

section
variable (funcs : CameraFilesystemFuncs σ) {w w' : World σ}

/-- `CC` changes the state of the frontend at most. -/
theorem checkCancel_eq_some {context : GPContext} {r : Except Int Unit}
    (h : checkCancel funcs context w = some (r, w')) :
    ∃ s, w' = { w with env := s } ∧ (r = .ok () ∨ r = .error gpErrorCancel) := by
  cases context with
  | null =>
    cases h
    exact ⟨w.env, rfl, Or.inl rfl⟩
  | frontend =>
    unfold checkCancel at h
    cases hcancel : funcs.cancelFunc with
    | none =>
      rw [hcancel] at h
      cases h
      exact ⟨w.env, rfl, Or.inl rfl⟩
    | some cancel =>
      simp only [hcancel, callEnv_bind_run] at h
      by_cases hc : (cancel w.env).1 = true
      · rw [if_pos hc] at h
        cases h
        exact ⟨_, rfl, Or.inr rfl⟩
      · rw [if_neg hc] at h
        cases h
        exact ⟨_, rfl, Or.inl rfl⟩

theorem checkAbsolute_eq_some {path : CString} {r : Except Int Unit}
    (h : checkAbsolute path w = some (r, w')) :
    w' = w ∧ (r = .ok () ∧ isAbsolute path = true ∨ r = .error gpErrorPathNotAbsolute) := by
  unfold checkAbsolute at h
  by_cases ha : isAbsolute path = true
  · rw [if_pos ha] at h
    cases h
    exact ⟨rfl, Or.inl ⟨rfl, ha⟩⟩
  · rw [if_neg ha] at h
    cases h
    exact ⟨rfl, Or.inr rfl⟩

/-- Only the state of the driver and the frontend differs. -/
def EnvStep (w w₀ : World σ) : Prop := ∃ s, w₀ = { w with env := s }

theorem EnvStep.fs (h : EnvStep w w') : w'.fs = w.fs := by
  obtain ⟨s, rfl⟩ := h
  rfl

theorem EnvStep.tree (h : EnvStep w w') : w'.tree = w.tree := by
  obtain ⟨s, rfl⟩ := h
  rfl

theorem EnvStep.lookupSteps (h : EnvStep w w') : LookupSteps w w' := by
  obtain ⟨s, rfl⟩ := h
  exact .single (.env w s)

/-- The two checks in front of a function: they fail, or the function runs with a new state
of the frontend. -/
theorem checks_bind_eq_some {α : Type} {context : GPContext} {path : CString}
    {k : Fs σ α} {r : Except Int α}
    (h : (do checkCancel funcs context; checkAbsolute path; k) w = some (r, w')) :
    ∃ w₀, EnvStep w w₀ ∧ ((w' = w₀ ∧ ∃ e, r = .error e) ∨ k w₀ = some (r, w')) := by
  rcases bind_eq_some.mp h with ⟨e, h₁, hr⟩ | ⟨_, w₁, h₁, h⟩
  · obtain ⟨s, hs, -⟩ := checkCancel_eq_some funcs h₁
    exact ⟨w', ⟨s, hs⟩, Or.inl ⟨rfl, e, hr⟩⟩
  · obtain ⟨s, hs, -⟩ := checkCancel_eq_some funcs h₁
    refine ⟨w₁, ⟨s, hs⟩, ?_⟩
    rcases bind_eq_some.mp h with ⟨e, h₂, hr⟩ | ⟨_, w₂, h₂, h⟩
    · exact Or.inl ⟨(checkAbsolute_eq_some h₂).1, e, hr⟩
    · rw [(checkAbsolute_eq_some h₂).1] at h
      exact Or.inr h

end

/-! ### Dropping entries -/

section
variable {w w' : World σ} {p : FolderAddr} {fo : CameraFilesystemFolder} {r : Except Int Unit}

/-- The rounds of `delete_all_files`, over some of the files of the folder. -/
theorem dropFiles_run {l : List FileAddr}
    (hwf : w.tree.Wf) (hp : w.fs.folders p = some fo)
    (hnd : l.Nodup) (hl : ∀ a ∈ l, a ∈ fo.files)
    (h : l.forM (dropFile p) w = some (r, w')) :
    r = .ok () ∧ LookupSteps w w' ∧
      (∃ files, w'.fs.folders p = some { fo with files := files } ∧
        ∀ a, a ∈ files ↔ a ∈ fo.files ∧ a ∉ l) ∧
      ∀ q, q ≠ p → w'.fs.folders q = w.fs.folders q := by
  induction l generalizing w fo with
  | nil =>
    cases h
    exact ⟨rfl, .refl, ⟨fo.files, hp, by simp⟩, fun _ _ => rfl⟩
  | cons a l ih =>
    have ha : a ∈ w.tree.files p := by
      rw [tree_files hp]
      exact hl a List.mem_cons_self
    have hcase : ∃ w₁, dropFile p a w = some (.ok (), w₁) ∧
        l.forM (dropFile p) w₁ = some (r, w') := by
      rcases bind_eq_some.mp h with ⟨e, h₁, -⟩ | ⟨_, w₁, h₁, h⟩
      · obtain ⟨_, _, _, _, -, -, hr, -⟩ := dropFile_eq_some h₁
        cases hr
      · exact ⟨w₁, h₁, h⟩
    obtain ⟨w₁, h₁, h⟩ := hcase
    have hstep := LookupStep.dropFile w w₁ p a ha h₁
    obtain ⟨f, w₀, fo₀, r₁, -, hfo₀, -, hlru, hw₁⟩ := dropFile_eq_some h₁
    have hfolders : w₀.fs.folders = w.fs.folders := (LruFrame.of_dropFile hlru).folders
    rw [hfolders, hp, Option.some.injEq] at hfo₀
    subst hfo₀
    have hp₁ : w₁.fs.folders p = some { fo with files := fo.files.erase a } := by
      rw [hw₁]
      simp
    have hfnd : fo.files.Nodup := by
      rw [← tree_files hp]
      exact hwf.files_nodup p
    obtain ⟨hr, hsteps, ⟨files, hfiles, hmem⟩, hother⟩ := ih (hstep.stable hwf).1 hp₁
      (List.nodup_cons.mp hnd).2 (fun b hb => by
        have hba : b ≠ a := fun e => (List.nodup_cons.mp hnd).1 (e ▸ hb)
        exact (List.mem_erase_of_ne hba).mpr (hl b (List.mem_cons_of_mem _ hb))) h
    refine ⟨hr, .head hstep hsteps, ⟨files, hfiles, fun b => ?_⟩, fun q hq => ?_⟩
    · rw [hmem, hfnd.mem_erase_iff, List.mem_cons, not_or]
      tauto
    · rw [hother q hq, hw₁]
      simp [hq, hfolders]

/-- `delete_all_files` leaves the folder without files, and touches no other folder. -/
theorem deleteAllFiles_run (hwf : w.tree.Wf)
    (h : deleteAllFiles p w = some (r, w')) :
    ∃ fo, w.fs.folders p = some fo ∧ r = .ok () ∧ LookupSteps w w' ∧
      w'.fs.folders p = some { fo with files := [] } ∧
      ∀ q, q ≠ p → w'.fs.folders q = w.fs.folders q := by
  obtain ⟨fo, hp, h⟩ := derefFolder_bind_eq_some.mp h
  have hnd : fo.files.Nodup := by
    rw [← tree_files hp]
    exact hwf.files_nodup p
  obtain ⟨hr, hsteps, ⟨files, hfiles, hmem⟩, hother⟩ :=
    dropFiles_run hwf hp hnd (fun _ ha => ha) h
  have hnil : files = [] := by
    refine List.eq_nil_iff_forall_not_mem.mpr fun a ha => ?_
    obtain ⟨ha, hna⟩ := (hmem a).mp ha
    exact hna ha
  subst hnil
  exact ⟨fo, hp, hr, hsteps, hfiles, hother⟩

/-- `delete_folder`, for a folder without subfolders. -/
theorem deleteFolder_run {c : FolderAddr}
    (hwf : w.tree.Wf) (hp : w.fs.folders p = some fo) (hc : c ∈ fo.folders)
    (hempty : w.tree.folders c = []) (h : deleteFolder p c w = some (r, w')) :
    r = .ok () ∧ LookupSteps w w' ∧
      w'.fs.folders p = some { fo with folders := fo.folders.erase c } ∧
      w'.fs.folders c = none ∧ ∀ q, q ≠ p → q ≠ c → w'.fs.folders q = w.fs.folders q := by
  have hmem : c ∈ w.tree.folders p := by rwa [tree_folders hp]
  have hne : p ≠ c := Nat.ne_of_lt (hwf.child_gt hmem)
  unfold deleteFolder at h
  have hcase : ∃ w₁, deleteAllFiles c w = some (.ok (), w₁) ∧ (do
      modifyFolder p fun fo => { fo with folders := fo.folders.erase c }
      freeFolder c) w₁ = some (r, w') := by
    rcases bind_eq_some.mp h with ⟨e, h₁, -⟩ | ⟨_, w₁, h₁, h⟩
    · obtain ⟨_, _, hr, -⟩ := deleteAllFiles_run hwf h₁
      cases hr
    · exact ⟨w₁, h₁, h⟩
  obtain ⟨w₁, h₁, h⟩ := hcase
  obtain ⟨co, hco, -, hsteps, hc₁, hother⟩ := deleteAllFiles_run hwf h₁
  have hp₁ : w₁.fs.folders p = some fo := by rw [hother p hne, hp]
  obtain ⟨fo', hfo', h⟩ := modifyFolder_bind_eq_some.mp h
  rw [hp₁, Option.some.injEq] at hfo'
  subst hfo'
  cases h
  have hstep : LookupStep w₁ (w₁.dropFolder p c fo) := by
    refine .dropFolder w₁ p c fo hp₁ hc ?_ ?_
    · rw [tree_folders hc₁, ← tree_folders hco, hempty]
    · rw [tree_files hc₁]
  refine ⟨rfl, hsteps.tail hstep, ?_, ?_, fun q hqp hqc => ?_⟩
  · simp [hne]
  · simp
  · simp [hqp, hqc, hother q hqc]

theorem deleteFolder_empty {c : FolderAddr} {co : CameraFilesystemFolder}
    (hp : w.fs.folders p = some fo) (hc : w.fs.folders c = some co) (hfiles : co.files = []) :
    deleteFolder p c w = some (.ok (), w.dropFolder p c fo) := by
  have hdelete : deleteAllFiles c w = some (.ok (), w) := by
    unfold deleteAllFiles
    rw [bind_run_ok (derefFolder_run hc), hfiles]
    rfl
  unfold deleteFolder
  rw [bind_run_ok hdelete, bind_run_ok (modifyFolder_run hp _)]
  rfl

theorem deleteFolder_empty_run {c : FolderAddr} {co : CameraFilesystemFolder}
    (hp : w.fs.folders p = some fo) (hc : w.fs.folders c = some co)
    (hfiles : co.files = []) (h : deleteFolder p c w = some (r, w')) :
    r = .ok () ∧ w' = w.dropFolder p c fo := by
  rw [deleteFolder_empty hp hc hfiles] at h
  cases h
  exact ⟨rfl, rfl⟩

/-- `recurse_delete_folder` leaves the folder without subfolders. The other entries stay as
they are or go, and those with smaller addresses stay: only the folder's own descendants
go. -/
theorem recurseDeleteFolder_run (n : Nat)
    (hwf : w.tree.Wf) (hp : w.fs.folders p = some fo)
    (h : recurseDeleteFolder n p w = some (r, w')) :
    r = .ok () ∧ LookupSteps w w' ∧ w'.fs.folders p = some { fo with folders := [] } ∧
      (∀ q, q < p → w'.fs.folders q = w.fs.folders q) ∧
      ∀ q, q ≠ p → w'.fs.folders q = w.fs.folders q ∨ w'.fs.folders q = none := by
  induction n generalizing p fo w r w' with
  | zero => cases h
  | succ n ih =>
    unfold recurseDeleteFolder at h
    obtain ⟨fo', hfo', h⟩ := derefFolder_bind_eq_some.mp h
    rw [hp, Option.some.injEq] at hfo'
    subst hfo'
    -- Each round empties the first child, which only touches larger addresses, and drops it.
    have loop : ∀ (l : List FolderAddr) (w w' : World σ) (r : Except Int Unit)
        (fo : CameraFilesystemFolder), w.tree.Wf → w.fs.folders p = some fo → fo.folders = l →
        (l.forM (fun child => do recurseDeleteFolder n child; deleteFolder p child) :
          Fs σ Unit) w = some (r, w') →
        r = .ok () ∧ LookupSteps w w' ∧ w'.fs.folders p = some { fo with folders := [] } ∧
          (∀ q, q < p → w'.fs.folders q = w.fs.folders q) ∧
          ∀ q, q ≠ p → w'.fs.folders q = w.fs.folders q ∨ w'.fs.folders q = none := by
      intro l
      induction l with
      | nil =>
        intro w w' r fo _ hp hl h
        cases h
        exact ⟨rfl, .refl, by rw [hp, ← hl], fun _ _ => rfl, fun _ _ => Or.inl rfl⟩
      | cons c l ihl =>
        intro w w' r fo hwf hp hl h
        have hmem : c ∈ w.tree.folders p := by
          rw [tree_folders hp, hl]
          exact List.mem_cons_self
        have hlt := hwf.child_gt hmem
        obtain ⟨co, hco⟩ := folderName_ne_none.mp (hwf.child_alive hmem)
        have hcase : ∃ w₁ w₂, recurseDeleteFolder n c w = some (.ok (), w₁) ∧
            deleteFolder p c w₁ = some (.ok (), w₂) ∧
            (l.forM (fun child => do recurseDeleteFolder n child; deleteFolder p child) :
              Fs σ Unit) w₂ = some (r, w') := by
          rcases bind_eq_some.mp h with ⟨e, hbody, -⟩ | ⟨_, w₂, hbody, h⟩
          · rcases bind_eq_some.mp hbody with ⟨e, h₁, -⟩ | ⟨_, w₁, h₁, h₂⟩
            · cases (ih hwf hco h₁).1
            · obtain ⟨-, hsteps₁, hc₁, hother₁, -⟩ := ih hwf hco h₁
              have hp₁ : w₁.fs.folders p = some fo := by rw [hother₁ p hlt, hp]
              cases (deleteFolder_run (LookupSteps.stable hsteps₁ hwf).1 hp₁
                (by rw [hl]; exact List.mem_cons_self) (by rw [tree_folders hc₁]) h₂).1
          · obtain ⟨_, w₁, h₁, h₂⟩ := Comp.bind_eq_ok.mp hbody
            exact ⟨w₁, w₂, h₁, h₂, h⟩
        obtain ⟨w₁, w₂, h₁, h₂, h⟩ := hcase
        obtain ⟨-, hsteps₁, hc₁, hother₁, hrest₁⟩ := ih hwf hco h₁
        have hp₁ : w₁.fs.folders p = some fo := by rw [hother₁ p hlt, hp]
        obtain ⟨-, hsteps₂, hp₂, hgone, hother₂⟩ :=
          deleteFolder_run (LookupSteps.stable hsteps₁ hwf).1 hp₁
          (by rw [hl]; exact List.mem_cons_self) (by rw [tree_folders hc₁]) h₂
        have hsteps := hsteps₁.trans hsteps₂
        obtain ⟨hr, hsteps', hp', hother', hrest'⟩ :=
          ihl w₂ w' r _ (LookupSteps.stable hsteps hwf).1 hp₂
          (by rw [hl]; exact List.erase_cons_head c l) h
        refine ⟨hr, hsteps.trans hsteps', hp', fun q hq => ?_, fun q hq => ?_⟩
        · rw [hother' q hq, hother₂ q (Nat.ne_of_lt hq) (Nat.ne_of_lt (Nat.lt_trans hq hlt)),
            hother₁ q (Nat.lt_trans hq hlt)]
        · rcases hrest' q hq with he | he
          · rw [he]
            by_cases hqc : q = c
            · exact Or.inr (hqc ▸ hgone)
            · rw [hother₂ q hq hqc]
              exact hrest₁ q hqc
          · exact Or.inr he
    exact loop fo.folders w w' r fo hwf hp rfl h

end

/-! ### Lookup and listing -/

/-- A folder that exists in both worlds has kept its subfolders, or all it has are new. -/
def Renewed (w w' : World σ) : Prop :=
  ∀ q fo', q < w.brk → w'.fs.folders q = some fo' →
    ∃ fo, w.fs.folders q = some fo ∧ (fo'.folders = fo.folders ∨ ∀ c ∈ fo'.folders, w.brk ≤ c)

/-- What a lookup does to the world. -/
structure LookupEffect (w w' : World σ) : Prop where
  steps : LookupSteps w w'
  renewed : Renewed w w'

section
variable {w w' w'' : World σ}

theorem Renewed.of_same (h : ∀ q fo', w'.fs.folders q = some fo' →
    ∃ fo, w.fs.folders q = some fo ∧ fo'.folders = fo.folders) : Renewed w w' := by
  intro q fo' _ hfo'
  obtain ⟨fo, hfo, heq⟩ := h q fo' hfo'
  exact ⟨fo, hfo, Or.inl heq⟩

theorem LookupEffect.refl (w : World σ) : LookupEffect w w :=
  ⟨.refl, .of_same fun _ fo h => ⟨fo, h, rfl⟩⟩

theorem LookupEffect.wf (h : LookupEffect w w') (hwf : w.tree.Wf) : w'.tree.Wf :=
  (h.steps.stable hwf).1

theorem LookupEffect.stable (h : LookupEffect w w') (hwf : w.tree.Wf) :
    w.tree.Stable w'.tree := (h.steps.stable hwf).2

theorem LookupEffect.trans (h : LookupEffect w w') (hwf : w.tree.Wf)
    (h' : LookupEffect w' w'') : LookupEffect w w'' := by
  have hle : w.brk ≤ w'.brk := (h.stable hwf).brk_le
  refine ⟨h.steps.trans h'.steps, fun q fo'' hq hfo'' => ?_⟩
  obtain ⟨fo', hfo', heq | hnew⟩ := h'.renewed q fo'' (Nat.lt_of_lt_of_le hq hle) hfo''
  · obtain ⟨fo, hfo, heq'⟩ := h.renewed q fo' hq hfo'
    exact ⟨fo, hfo, by rwa [heq]⟩
  · obtain ⟨fo, hfo, -⟩ := h.renewed q fo' hq hfo'
    exact ⟨fo, hfo, Or.inr fun c hc => Nat.le_trans hle (hnew c hc)⟩

theorem EnvStep.effect (h : EnvStep w w') : LookupEffect w w' :=
  ⟨h.lookupSteps, .of_same fun _ fo hfo => ⟨fo, by rwa [h.fs] at hfo, rfl⟩⟩

/-- A folder that was looked up, and still exists, would be looked up again. -/
theorem LookupEffect.walk (h : LookupEffect w w') (hwf : w.tree.Wf)
    {p f : FolderAddr} {path : List CString} (hw : w.tree.walk p path = some f)
    {fo : CameraFilesystemFolder} (hf : w'.fs.folders f = some fo) :
    w'.tree.walk p path = some f :=
  ((h.stable hwf).walk (h.wf hwf) hw (folderName_ne_none.mpr ⟨fo, hf⟩)).1

end

/-- The specification of `lookup_folder`: the effect of a lookup, and then the folder the
path leads to. -/
def LookupSpec (lookup : CString → GPContext → Fs σ (Option FolderAddr)) : Prop :=
  ∀ path context w r w', w.tree.Wf → lookup path context w = some (r, w') →
    LookupEffect w w' ∧ r = .ok (w'.tree.walk rootfolder (components path))

theorem walk_root_alive {w : World σ} (hwf : w.tree.Wf) {path : List CString} {f : FolderAddr}
    (h : w.tree.walk rootfolder path = some f) : ∃ fo, w.fs.folders f = some fo :=
  folderName_ne_none.mp (hwf.walk_alive (by simp [hwf.root]) h)

theorem root_alive {w : World σ} (hwf : w.tree.Wf) :
    ∃ fo, w.fs.folders rootfolder = some fo :=
  walk_root_alive hwf (show w.tree.walk rootfolder [] = some rootfolder from rfl)

section
variable {w w' : World σ}

/-- The walk of `lookup_folder`, from a folder it has come to through `path`. -/
theorem lookupFolderLoop_run {listFolders : CString → Fs σ (List CString)}
    (hlist : ∀ copy w r w', w.tree.Wf → listFolders copy w = some (r, w') → LookupEffect w w')
    {steps : List (CString × CString)} {f : FolderAddr} (path : List CString)
    {r : Except Int (Option FolderAddr)} (hwf : w.tree.Wf)
    (hwalk : w.tree.walk rootfolder path = some f)
    (h : lookupFolderLoop listFolders f steps w = some (r, w')) :
    LookupEffect w w' ∧ r = .ok (w'.tree.walk rootfolder (path ++ steps.map Prod.snd)) := by
  induction steps generalizing w f path with
  | nil =>
    cases h
    refine ⟨.refl _, ?_⟩
    rw [List.map_nil, List.append_nil, hwalk]
  | cons step steps ih =>
    obtain ⟨copy, name⟩ := step
    unfold lookupFolderLoop at h
    obtain ⟨fo, hfo, h⟩ := derefFolder_bind_eq_some.mp h
    -- The listing of the folder, or nothing.
    have hcase : ∃ w₁, LookupEffect w w₁ ∧ lookupFolderEnd listFolders f name steps w₁ =
        some (r, w') := by
      by_cases hdirty : fo.foldersDirty = true
      · simp only [hdirty, if_true] at h
        rcases bind_eq_some.mp h with ⟨e, h₁, -⟩ | ⟨_, w₁, h₁, h⟩
        · obtain ⟨_, -, he⟩ := Comp.attempt_eq_some.mp h₁
          cases he
        · obtain ⟨r₁, h₁, -⟩ := Comp.attempt_eq_some.mp h₁
          exact ⟨w₁, hlist copy w r₁ w₁ hwf h₁, h⟩
      · simp only [hdirty] at h
        exact ⟨w, .refl _, h⟩
    obtain ⟨w₁, hsteps, h⟩ := hcase
    obtain ⟨fo₁, hfo₁, h⟩ := derefFolder_bind_eq_some.mp h
    have hwf₁ := hsteps.wf hwf
    have hwalk₁ := hsteps.walk hwf hwalk hfo₁
    rw [get_bind_run, findFolder_eq_child hfo₁] at h
    have hsplit : path ++ ((copy, name) :: steps).map Prod.snd =
        (path ++ [name]) ++ steps.map Prod.snd := by simp
    have hstep : w₁.tree.walk rootfolder (path ++ [name]) = w₁.tree.child f name := by
      rw [NameTree.walk_concat, hwalk₁, Option.bind_some]
    cases hchild : w₁.tree.child f name with
    | none =>
      rw [hchild] at h
      cases h
      refine ⟨hsteps, ?_⟩
      rw [hsplit, NameTree.walk_append, hstep, hchild, Option.bind_none]
    | some f' =>
      rw [hchild] at h
      obtain ⟨hsteps', hr⟩ := ih _ hwf₁ (hstep.trans hchild) h
      exact ⟨hsteps.trans hwf hsteps', by rw [hr, hsplit]⟩

variable (funcs : CameraFilesystemFuncs σ) {lookup : CString → GPContext → Fs σ (Option FolderAddr)}

/-- `delete_all_folders` leaves the folder the path leads to without subfolders. -/
theorem deleteAllFoldersWith_run
    (hlookup : LookupSpec lookup) {path : CString} {context : GPContext}
    {r : Except Int Unit} (hwf : w.tree.Wf)
    (h : deleteAllFoldersWith funcs lookup path context w = some (r, w')) :
    LookupEffect w w' ∧ (r = .ok () → ∃ f fo,
      w'.tree.walk rootfolder (components path) = some f ∧
      w'.fs.folders f = some fo ∧ fo.folders = []) := by
  obtain ⟨w₀, henv, ⟨rfl, e, rfl⟩ | h⟩ := checks_bind_eq_some funcs h
  · exact ⟨henv.effect, fun hr => by cases hr⟩
  have hwf₀ : w₀.tree.Wf := by rwa [henv.tree]
  rcases bind_eq_some.mp h with ⟨e, h₁, rfl⟩ | ⟨found, w₁, h₁, h⟩
  · exact ⟨henv.effect.trans hwf (hlookup path context _ _ _ hwf₀ h₁).1,
      fun hr => by cases hr⟩
  obtain ⟨heffect₁, hr₁⟩ := hlookup path context _ _ _ hwf₀ h₁
  rw [Except.ok.injEq] at hr₁
  subst hr₁
  have hwf₁ : w₁.tree.Wf := heffect₁.wf hwf₀
  cases hf : w₁.tree.walk rootfolder (components path) with
  | none =>
    rw [hf] at h
    cases h
  | some f =>
    rw [hf] at h
    simp only [get_bind_run] at h
    obtain ⟨fo, hfo⟩ := walk_root_alive hwf₁ hf
    obtain ⟨-, hsteps₂, hfo', -, hrest⟩ := recurseDeleteFolder_run w₁.brk hwf₁ hfo h
    have heffect₂ : LookupEffect w₁ w' := by
      refine ⟨hsteps₂, fun q fo₂ _ hfo₂ => ?_⟩
      by_cases hqf : q = f
      · subst hqf
        rw [hfo', Option.some.injEq] at hfo₂
        subst hfo₂
        exact ⟨fo, hfo, Or.inr fun _ hc => by cases hc⟩
      · rcases hrest q hqf with he | he
        · exact ⟨fo₂, he ▸ hfo₂, Or.inl rfl⟩
        · rw [he] at hfo₂
          cases hfo₂
    exact ⟨(henv.effect.trans hwf heffect₁).trans hwf heffect₂, fun _ =>
      ⟨f, _, heffect₂.walk hwf₁ hf hfo', hfo', rfl⟩⟩

theorem folderNames_setFolder {p : FolderAddr} {fo : CameraFilesystemFolder}
    (h : w.fs.folders p = some fo) (fo' : CameraFilesystemFolder) (hname : fo'.name = fo.name)
    (chain : List FolderAddr) :
    (w.setFolder p (some fo')).fs.folderNames chain = w.fs.folderNames chain := by
  unfold CameraFilesystem.folderNames
  congr 1
  funext a
  by_cases ha : a = p
  · subst ha
    simp [CameraFilesystem.folderName, h, hname]
  · simp [CameraFilesystem.folderName, ha]

theorem foldersClean_effect {p : FolderAddr} {fo : CameraFilesystemFolder}
    (hp : w.fs.folders p = some fo) :
    LookupEffect w (w.setFolder p (some { fo with foldersDirty := false })) := by
  refine ⟨.single (.foldersClean w p fo hp), .of_same fun q fo' hfo' => ?_⟩
  by_cases hqp : q = p
  · subst hqp
    simp only [World.setFolder_fs_folders, Function.update_self, Option.some.injEq] at hfo'
    subst hfo'
    exact ⟨fo, hp, rfl⟩
  · simp only [World.setFolder_fs_folders, Function.update_of_ne hqp] at hfo'
    exact ⟨fo', hfo', rfl⟩

theorem relist_effect {p : FolderAddr} {path : CString} {names : List CString}
    {r : Except Int Unit} (hwf : w.tree.Wf) (hlog : .folderListFunc path (.ok names) ∈ w.log)
    (hempty : w.tree.folders p = []) (h : appendFolders p names w = some (r, w')) :
    r = .ok () ∧ LookupEffect w w' := by
  rcases appendFolders_alive hwf h with rfl | ⟨fo, hp⟩
  · cases h
    exact ⟨rfl, .refl _⟩
  · obtain ⟨rfl, htree, -, -, hold, -⟩ := appendFolders_run hwf hp h
    refine ⟨rfl, .single (.relist w w' p path names hlog hempty h), fun q fo' hq hfo' => ?_⟩
    by_cases hqp : q = p
    · subst hqp
      refine ⟨fo, hp, Or.inr fun c hc => ?_⟩
      have hc' : c ∈ (w.tree.consFolders q names).folders q := by
        rwa [← htree, tree_folders hfo']
      by_contra hlt
      have hmem := NameTree.mem_consFolders_old names hc' (Nat.lt_of_not_le hlt)
      rw [hempty] at hmem
      cases hmem
    · rw [hold q hqp hq] at hfo'
      exact ⟨fo', hfo', Or.inl rfl⟩

/-- What `gp_filesystem_list_folders` returns: the names of the subfolders of the folder the
path leads to, which is now marked clean. -/
theorem listFoldersWith_run (hlookup : LookupSpec lookup) {path : CString} {context : GPContext}
    {r : Except Int (List CString)} (hwf : w.tree.Wf)
    (h : listFoldersWith funcs lookup path context w = some (r, w')) :
    LookupEffect w w' ∧ ∀ names, r = .ok names → ∃ f fo,
      w'.tree.walk rootfolder (components path) = some f ∧ w'.fs.folders f = some fo ∧
      fo.foldersDirty = false ∧ names = w'.fs.folderNames fo.folders := by
  obtain ⟨w₀, henv, ⟨rfl, e, rfl⟩ | h⟩ := checks_bind_eq_some funcs h
  · exact ⟨henv.effect, fun _ hr => by cases hr⟩
  have hwf₀ : w₀.tree.Wf := by rwa [henv.tree]
  rcases bind_eq_some.mp h with ⟨e, h₁, rfl⟩ | ⟨found, w₁, h₁, h⟩
  · exact ⟨henv.effect.trans hwf (hlookup path context _ _ _ hwf₀ h₁).1,
      fun _ hr => by cases hr⟩
  obtain ⟨heffect₁, hr₁⟩ := hlookup path context _ _ _ hwf₀ h₁
  rw [Except.ok.injEq] at hr₁
  subst hr₁
  have hwf₁ : w₁.tree.Wf := heffect₁.wf hwf₀
  replace heffect₁ := henv.effect.trans hwf heffect₁
  cases hf : w₁.tree.walk rootfolder (components path) with
  | none =>
    rw [hf] at h
    cases h
    exact ⟨heffect₁, fun _ hr => by cases hr⟩
  | some f =>
    rw [hf] at h
    obtain ⟨fo, hfo, h⟩ := derefFolder_bind_eq_some.mp h
    -- The end of the function, from any state a lookup leads to.
    have hend : ∀ w₂, LookupEffect w₁ w₂ → (do
        let fo ← derefFolder f
        let w ← Comp.get
        modifyFolder f fun fo => { fo with foldersDirty := false }
        pure (w.fs.folderNames fo.folders)) w₂ = some (r, w') →
        LookupEffect w w' ∧ ∀ names, r = .ok names → ∃ f fo,
          w'.tree.walk rootfolder (components path) = some f ∧ w'.fs.folders f = some fo ∧
          fo.foldersDirty = false ∧ names = w'.fs.folderNames fo.folders := by
      intro w₂ heffect₂ h
      obtain ⟨fo₂, hfo₂, h⟩ := derefFolder_bind_eq_some.mp h
      rw [get_bind_run] at h
      obtain ⟨fo₃, hfo₃, h⟩ := modifyFolder_bind_eq_some.mp h
      rw [hfo₂, Option.some.injEq] at hfo₃
      subst hfo₃
      cases h
      have heffect₃ := heffect₂.trans hwf₁ (foldersClean_effect hfo₂)
      have hfo' : (w₂.setFolder f (some { fo₂ with foldersDirty := false })).fs.folders f =
          some { fo₂ with foldersDirty := false } := by simp
      refine ⟨heffect₁.trans hwf heffect₃, fun names hr => ⟨f, _,
        heffect₃.walk hwf₁ hf hfo', hfo', rfl, ?_⟩⟩
      rw [Except.ok.injEq] at hr
      rw [← hr]
      exact (folderNames_setFolder hfo₂ { fo₂ with foldersDirty := false } rfl _).symm
    cases hdirty : fo.foldersDirty with
    | false =>
      simp only [hdirty] at h
      exact hend w₁ (.refl _) h
    | true =>
      cases hfunc : funcs.folderListFunc with
      | none =>
        simp only [hdirty, hfunc] at h
        exact hend w₁ (.refl _) h
      | some folderList =>
        simp only [hdirty, hfunc, callEnv_bind_run, trace_bind_run] at h
        generalize folderList path w₁.env = reply at h
        obtain ⟨answer, s⟩ := reply
        -- The driver has answered.
        have heffect₂ : LookupEffect w₁
            { w₁ with env := s, log := w₁.log ++ [.folderListFunc path answer] } :=
          ⟨.tail (.single (.env w₁ s)) (.folderListFunc _ path answer),
            .of_same fun _ fo hfo => ⟨fo, hfo, rfl⟩⟩
        rcases bind_eq_some.mp h with ⟨e, h₂, rfl⟩ | ⟨names, w₂, h₂, h⟩
        · cases h₂
          exact ⟨heffect₁.trans hwf heffect₂, fun _ hr => by cases hr⟩
        cases h₂
        have hwf₂ := heffect₂.wf hwf₁
        rcases bind_eq_some.mp h with ⟨e, h₃, rfl⟩ | ⟨_, w₃, h₃, h⟩
        · have heffect₃ := (deleteAllFoldersWith_run funcs hlookup hwf₂ h₃).1
          exact ⟨heffect₁.trans hwf (heffect₂.trans hwf₁ heffect₃), fun _ hr => by cases hr⟩
        obtain ⟨heffect₃, hdeleted⟩ := deleteAllFoldersWith_run funcs hlookup hwf₂ h₃
        obtain ⟨f', fo', hwalk, hfo', hempty⟩ := hdeleted rfl
        have hlog : Event.folderListFunc path (.ok names) ∈ w₃.log :=
          (TreeSteps.log heffect₃.steps.treeSteps hwf₂).subset
            (List.mem_append_right _ (List.mem_singleton_self _))
        replace heffect₃ : LookupEffect w₁ w₃ := heffect₂.trans hwf₁ heffect₃
        have hwf₃ := heffect₃.wf hwf₁
        -- `f` is still used, so it still exists, so it is the folder that was emptied.
        have hsame : (∃ fo₃, w₃.fs.folders f = some fo₃) → w₃.tree.folders f = [] := by
          rintro ⟨fo₃, hfo₃⟩
          have hf₃ := heffect₃.walk hwf₁ hf hfo₃
          rw [hf₃, Option.some.injEq] at hwalk
          subst hwalk
          rw [tree_folders hfo', hempty]
        have hempty₃ : w₃.tree.folders f = [] := by
          rcases bind_eq_some.mp h with ⟨e, h₄, -⟩ | ⟨_, w₄, h₄, h⟩
          · rcases appendFolders_alive hwf₃ h₄ with rfl | halive
            · cases h₄
            · exact hsame halive
          · rcases appendFolders_alive hwf₃ h₄ with rfl | halive
            · cases h₄
              obtain ⟨fo₃, hfo₃, -⟩ := derefFolder_bind_eq_some.mp h
              exact hsame ⟨fo₃, hfo₃⟩
            · exact hsame halive
        rcases bind_eq_some.mp h with ⟨e, h₄, -⟩ | ⟨_, w₄, h₄, h⟩
        · cases (relist_effect hwf₃ hlog hempty₃ h₄).1
        · exact hend w₄ (heffect₃.trans hwf₁ (relist_effect hwf₃ hlog hempty₃ h₄).2) h

end

/-! ### The recursion -/

section
variable (funcs : CameraFilesystemFuncs σ)

theorem lookupFolderAux_spec (n : Nat) : LookupSpec (lookupFolderAux funcs n) := by
  induction n with
  | zero =>
    intro path context w r w' hwf h
    have hlist : ∀ copy w r w', w.tree.Wf →
        (fun _ => Comp.stuck : CString → Fs σ (List CString)) copy w = some (r, w') →
        LookupEffect w w' := fun _ _ _ _ _ h => by cases h
    exact lookupFolderLoop_run hlist [] hwf rfl h
  | succ n ih =>
    intro path context w r w' hwf h
    exact lookupFolderLoop_run
      (fun copy w r w' hwf h => (listFoldersWith_run funcs ih hwf h).1) [] hwf rfl h

/-- `lookup_folder` returns the folder the path leads to in the tree it leaves behind. -/
theorem lookupFolder_run : LookupSpec (lookupFolder funcs) :=
  fun path context w r w' hwf h => lookupFolderAux_spec funcs path.length path context w r w' hwf h

/-- What `gp_filesystem_list_folders` returns: the names of the subfolders of the folder the
path leads to, which is now marked clean. -/
theorem listFolders_run {w w' : World σ} {path : CString} {context : GPContext}
    {r : Except Int (List CString)} (hwf : w.tree.Wf)
    (h : gpFilesystemListFolders funcs path context w = some (r, w')) :
    LookupEffect w w' ∧ ∀ names, r = .ok names → ∃ f fo,
      w'.tree.walk rootfolder (components path) = some f ∧ w'.fs.folders f = some fo ∧
      fo.foldersDirty = false ∧ names = w'.fs.folderNames fo.folders :=
  listFoldersWith_run funcs (lookupFolder_run funcs) hwf h

/-- The loop of `lookup_folder` lists folders under the parts of the path it was given. -/
theorem lookupFolderLoop_congr {list list' : CString → Fs σ (List CString)}
    {steps : List (CString × CString)} (h : ∀ p ∈ steps, list p.1 = list' p.1)
    (f : FolderAddr) : lookupFolderLoop list f steps = lookupFolderLoop list' f steps := by
  induction steps generalizing f with
  | nil => rfl
  | cons step steps ih =>
    obtain ⟨copy, name⟩ := step
    have hrest : ∀ f, lookupFolderLoop list f steps = lookupFolderLoop list' f steps :=
      ih fun p hp => h p (List.mem_cons_of_mem _ hp)
    unfold lookupFolderLoop
    rw [h (copy, name) List.mem_cons_self, funext hrest]

theorem listFoldersWith_congr {lookup lookup' : CString → GPContext → Fs σ (Option FolderAddr)}
    {path : CString} (h : ∀ context, lookup path context = lookup' path context)
    (context : GPContext) :
    listFoldersWith funcs lookup path context = listFoldersWith funcs lookup' path context := by
  unfold listFoldersWith deleteAllFoldersWith
  rw [h context]

/-- A count that is at least the length of the path makes no difference. -/
theorem lookupFolderAux_eq {n : Nat} {path : CString} (h : path.length ≤ n)
    (context : GPContext) :
    lookupFolderAux funcs n path context = lookupFolder funcs path context := by
  have key : ∀ (m n : Nat) (path : CString) (context : GPContext), path.length ≤ m →
      path.length ≤ n → lookupFolderAux funcs m path context =
        lookupFolderAux funcs n path context := by
    intro m
    induction m with
    | zero =>
      intro n path context hm hn
      obtain rfl := List.length_eq_zero_iff.mp (Nat.le_zero.mp hm)
      cases n <;> rfl
    | succ m ih =>
      intro n path context hm hn
      cases n with
      | zero =>
        obtain rfl := List.length_eq_zero_iff.mp (Nat.le_zero.mp hn)
        rfl
      | succ n =>
        refine lookupFolderLoop_congr (fun p hp => ?_) rootfolder
        have hlt := length_lt_of_mem_pathSteps hp
        exact listFoldersWith_congr funcs
          (fun context => ih n p.1 context (by omega) (by omega)) context
  exact key n path.length path context h (Nat.le_refl _)

/-- The equation of the source: a dirty folder on the way is listed by
`gp_filesystem_list_folders`, which is what `lookup_folder` and the count were cut out of. -/
theorem lookupFolder_eq (path : CString) (context : GPContext) :
    lookupFolder funcs path context =
      lookupFolderLoop (fun copy => gpFilesystemListFolders funcs copy context) rootfolder
        (pathSteps path) := by
  rw [← lookupFolderAux_eq funcs (Nat.le_succ path.length) context]
  refine lookupFolderLoop_congr (fun p hp => ?_) rootfolder
  exact listFoldersWith_congr funcs
    (fun context => lookupFolderAux_eq funcs (Nat.le_of_lt (length_lt_of_mem_pathSteps hp)) context)
    context

end

end GPhoto2
