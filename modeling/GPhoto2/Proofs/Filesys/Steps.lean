import GPhoto2.Abstract.NameTree
import GPhoto2.Proofs.Filesys.LruLinks
import Mathlib.Logic.Relation

/-!
# `GPhoto2.Proofs.Filesys.Steps`: the steps lookups and listings are made of

Whatever `lookup_folder`, `gp_filesystem_list_folders` and `gp_filesystem_list_files` do,
they do in small steps. `LookupStep` lists those of the first two: the driver answers, a file
or an empty folder entry is dropped, an emptied folder gets its new subfolders, a folder is
marked clean. `TreeStep` adds those of a file listing.

`TreeStep.stable` is what callers need: a step keeps the tree well formed and keeps what was
found (`NameTree.Stable`), and so do all steps together (`TreeSteps.stable`).
-/

set_option autoImplicit false

/-! ## What the primitive steps do to the tree of names

`World.tree` reads the tree of names off a filesystem. Most writes leave it alone
(`tree_setFolder_of_same`, `tree_setFile_of_name`, `LruFrame.tree`). The others are the
edits of `NameTree`: `dropFile` erases a file, unlinking and freeing a folder entry erases
a folder, `appendFolderOne` and `addFile` add one.
-/

namespace GPhoto2

open Lib

variable {σ : Type}

/-- The tree of names of a filesystem. -/
def World.tree (w : World σ) : NameTree where
  folderName := w.fs.folderName
  fileName := w.fs.fileName
  folders p := (w.fs.folders p).elim [] (·.folders)
  files p := (w.fs.folders p).elim [] (·.files)
  brk := w.brk

section
variable {w w' : World σ} {p : FolderAddr} {fo : CameraFilesystemFolder}

@[simp] theorem tree_brk : w.tree.brk = w.brk := rfl

section
variable (h : w.fs.folders p = some fo)
include h

theorem tree_folderName : w.tree.folderName p = some fo.name := by
  simp [World.tree, CameraFilesystem.folderName, h]

theorem tree_folders : w.tree.folders p = fo.folders := by
  simp [World.tree, h]

theorem tree_files : w.tree.files p = fo.files := by
  simp [World.tree, h]

theorem findFolder_eq_child (name : CString) :
    w.fs.findFolder fo.folders name = w.tree.child p name := by
  rw [NameTree.child, tree_folders h]
  rfl

theorem findFile_eq_fileIn (name : CString) :
    w.fs.findFile fo.files name = w.tree.fileIn p name := by
  rw [NameTree.fileIn, tree_files h]
  rfl

end

theorem folderName_ne_none : w.tree.folderName p ≠ none ↔ ∃ fo, w.fs.folders p = some fo := by
  simp [World.tree, CameraFilesystem.folderName, Option.ne_none_iff_exists']

theorem fileName_ne_none {a : FileAddr} :
    w.tree.fileName a ≠ none ↔ ∃ f, w.fs.files a = some f := by
  simp [World.tree, CameraFilesystem.fileName, Option.ne_none_iff_exists']

/-- The tree is made of the names, the chains and `brk`. -/
theorem tree_congr
    (hfolders : ∀ a, (w'.fs.folders a).map (fun fo => (fo.name, fo.folders, fo.files)) =
      (w.fs.folders a).map (fun fo => (fo.name, fo.folders, fo.files)))
    (hfiles : w'.fs.fileName = w.fs.fileName) (hbrk : w'.brk = w.brk) : w'.tree = w.tree := by
  have key : ∀ a, w'.fs.folderName a = w.fs.folderName a ∧
      (w'.fs.folders a).elim [] (·.folders) = (w.fs.folders a).elim [] (·.folders) ∧
      (w'.fs.folders a).elim [] (·.files) = (w.fs.folders a).elim [] (·.files) := by
    intro a
    have ha := hfolders a
    unfold CameraFilesystem.folderName
    cases hw : w.fs.folders a with
    | none =>
      rw [hw, Option.map_none, Option.map_eq_none_iff] at ha
      simp [ha]
    | some fo =>
      rw [hw, Option.map_some, Option.map_eq_some_iff] at ha
      obtain ⟨fo', hfo', heq⟩ := ha
      simp only [Prod.mk.injEq] at heq
      simp [hfo', heq]
  unfold World.tree
  congr 1
  · exact funext fun a => (key a).1
  · exact funext fun a => (key a).2.1
  · exact funext fun a => (key a).2.2

theorem tree_setFolder_of_same (h : w.fs.folders p = some fo) (fo' : CameraFilesystemFolder)
    (hname : fo'.name = fo.name) (hfolders : fo'.folders = fo.folders)
    (hfiles : fo'.files = fo.files) : (w.setFolder p (some fo')).tree = w.tree := by
  refine tree_congr (fun a => ?_) rfl rfl
  by_cases ha : a = p
  · subst ha
    simp [h, hname, hfolders, hfiles]
  · simp [ha]

variable {f : CameraFilesystemFile}

theorem tree_setFile_of_name {a : FileAddr}
    (h : w.fs.files a = some f) (f' : CameraFilesystemFile) (hname : f'.name = f.name) :
    (w.setFile a (some f')).tree = w.tree := by
  refine tree_congr (fun _ => rfl) ?_ rfl
  funext b
  by_cases hb : b = a
  · subst hb
    simp [CameraFilesystem.fileName, h, hname]
  · simp [CameraFilesystem.fileName, hb]

theorem LruFrame.tree (h : LruFrame w w') : w'.tree = w.tree :=
  tree_congr (fun a => by rw [h.folders]) h.fileName h.brk

/-! ### The edits -/

variable {r : Except Int Unit}

/-- Dropping a file: an LRU pointer edit `w₁`, and then the entry is gone. -/
theorem dropFile_eq_some {file : FileAddr}
    (h : dropFile p file w = some (r, w')) :
    ∃ f w₁ fo r₁, w.fs.files file = some f ∧ w₁.fs.folders p = some fo ∧ r = .ok () ∧
      gpFilesystemLruRemoveOne file
        { w with log := w.log ++ [.dropFile (w.lruEntry file f)] } = some (r₁, w₁) ∧
      w' = (w₁.setFolder p (some { fo with files := fo.files.erase file })).setFile file none := by
  unfold dropFile at h
  obtain ⟨f, hf, h⟩ := derefFile_bind_eq_some.mp h
  rw [Comp.get_bind_run, trace_bind_run] at h
  obtain ⟨_, w₁, h₁, h⟩ := (Comp.bind_eq_some.mp h).resolve_left (by
    rintro ⟨e, he, -⟩
    obtain ⟨r', -, hr'⟩ := Comp.attempt_eq_some.mp he
    cases hr')
  obtain ⟨r₁, h₁, -⟩ := Comp.attempt_eq_some.mp h₁
  obtain ⟨fo, hfo, h⟩ := modifyFolder_bind_eq_some.mp h
  cases h
  exact ⟨f, w₁, fo, r₁, hf, hfo, rfl, h₁, rfl⟩

/-- What an LRU pointer edit inside `dropFile` leaves of the world. -/
theorem LruFrame.of_dropFile {file : FileAddr} {w₁ : World σ}
    {r₁ : Except Int Unit} (h : gpFilesystemLruRemoveOne file
      { w with log := w.log ++ [.dropFile (w.lruEntry file f)] } = some (r₁, w₁)) :
    LruFrame { w with log := w.log ++ [.dropFile (w.lruEntry file f)] } w₁ :=
  (keepsLruFrame_lruRemoveOne file _ _ _ trivial h).2

theorem dropFile_tree {file : FileAddr}
    (h : dropFile p file w = some (r, w')) : w'.tree = w.tree.eraseFile p file := by
  obtain ⟨f, w₁, fo, r₁, hf, hfo, -, h₁, rfl⟩ := dropFile_eq_some h
  have hframe := LruFrame.of_dropFile h₁
  have htree : w₁.tree = w.tree := hframe.tree
  rw [← htree]
  have hfiles : ∀ q, (w₁.fs.folders q).elim [] (·.files) = w₁.tree.files q := fun _ => rfl
  unfold World.tree NameTree.eraseFile
  congr 1
  · funext q
    by_cases hq : q = p
    · subst hq
      simp [CameraFilesystem.folderName, hfo]
    · simp [CameraFilesystem.folderName, hq]
  · funext a
    by_cases ha : a = file
    · subst ha
      simp [CameraFilesystem.fileName]
    · simp [CameraFilesystem.fileName, ha]
  · funext q
    by_cases hq : q = p
    · subst hq
      simp [hfo]
    · simp [hq]
  · funext q
    by_cases hq : q = p
    · subst hq
      simp [hfo]
    · simp [hq]

/-- The world after an empty folder entry was unlinked and freed. -/
def World.dropFolder (w : World σ) (p c : FolderAddr) (fo : CameraFilesystemFolder) : World σ :=
  (w.setFolder p (some { fo with folders := fo.folders.erase c })).setFolder c none

theorem dropFolder_tree {c : FolderAddr} (hp : w.fs.folders p = some fo) (hne : p ≠ c)
    (hfolders : w.tree.folders c = []) (hfiles : w.tree.files c = []) :
    (w.dropFolder p c fo).tree = w.tree.eraseFolder p c := by
  unfold World.dropFolder NameTree.eraseFolder
  have hc : ∀ q, ((w.setFolder p (some { fo with folders := fo.folders.erase c })).setFolder c
      none).fs.folders q = if q = c then none else if q = p then
        some { fo with folders := fo.folders.erase c } else w.fs.folders q := by
    intro q
    simp [Function.update_apply]
  rw [World.tree]
  congr 1
  · funext q
    unfold CameraFilesystem.folderName
    rw [hc]
    by_cases hqc : q = c
    · simp [hqc]
    · by_cases hqp : q = p
      · subst hqp
        simp [hne, World.tree, CameraFilesystem.folderName, hp]
      · simp [hqc, hqp, World.tree, CameraFilesystem.folderName]
  · funext q
    rw [hc]
    by_cases hqc : q = c
    · subst hqc
      simp [Ne.symm hne, hfolders]
    · by_cases hqp : q = p
      · subst hqp
        simp [hne, World.tree, hp]
      · simp [hqc, hqp, World.tree]
  · funext q
    rw [hc]
    by_cases hqc : q = c
    · subst hqc
      simp [hfiles]
    · by_cases hqp : q = p
      · subst hqp
        simp [hne, World.tree, hp]
      · simp [hqc, hqp, World.tree]

/-- The world after a new folder entry was put in front of the subfolders. -/
def World.consFolder (w : World σ) (p : FolderAddr) (fo : CameraFilesystemFolder)
    (name : CString) : World σ :=
  { (w.setFolder w.brk (some (.new name))).setFolder p
      (some { fo with folders := w.brk :: fo.folders }) with brk := w.brk + 1 }

theorem appendFolderOne_eq_some (hwf : w.tree.Wf) {name : CString}
    {r : Except Int FolderAddr} (h : appendFolderOne p name w = some (r, w')) :
    ∃ fo, w.fs.folders p = some fo ∧ r = .ok w.brk ∧ w' = w.consFolder p fo name := by
  unfold appendFolderOne at h
  obtain ⟨fo, hfo, h⟩ := derefFolder_bind_eq_some.mp h
  have hlt : p < w.brk := hwf.folder_lt (folderName_ne_none.mpr ⟨fo, hfo⟩)
  obtain ⟨fo', hfo', h⟩ := modifyFolder_bind_eq_some.mp h
  simp only [World.setFolder_fs_folders, Function.update_of_ne (Nat.ne_of_lt hlt), hfo,
    Option.some.injEq] at hfo'
  subst hfo'
  cases h
  exact ⟨fo, hfo, rfl, rfl⟩

theorem consFolder_tree (hwf : w.tree.Wf) (hp : w.fs.folders p = some fo) (name : CString) :
    (w.consFolder p fo name).tree = w.tree.consFolder p name := by
  have hlt : p < w.brk := hwf.folder_lt (folderName_ne_none.mpr ⟨fo, hp⟩)
  have hbrk : w.fs.folders w.brk = none := by
    by_contra hc
    exact Nat.lt_irrefl _ (hwf.folder_lt
      (folderName_ne_none.mpr (Option.ne_none_iff_exists'.mp hc)))
  have hc : ∀ q, (w.consFolder p fo name).fs.folders q = if q = p then
      some { fo with folders := w.brk :: fo.folders } else if q = w.brk then
        some (.new name) else w.fs.folders q := by
    intro q
    simp [World.consFolder, Function.update_apply]
  rw [World.tree, NameTree.consFolder]
  congr 1
  · funext q
    unfold CameraFilesystem.folderName
    rw [hc]
    by_cases hqp : q = p
    · subst hqp
      simp [World.tree, CameraFilesystem.folderName, hp, Nat.ne_of_lt hlt]
    · by_cases hqb : q = w.brk
      · simp [hqb, World.tree, CameraFilesystemFolder.new, Nat.ne_of_gt hlt]
      · simp [hqp, hqb, World.tree, CameraFilesystem.folderName]
  · funext q
    rw [hc]
    by_cases hqp : q = p
    · subst hqp
      simp [World.tree, hp]
    · by_cases hqb : q = w.brk
      · simp [hqb, World.tree, CameraFilesystemFolder.new, Nat.ne_of_gt hlt, hbrk]
      · simp [hqp, hqb, World.tree]
  · funext q
    rw [hc]
    by_cases hqp : q = p
    · subst hqp
      simp [World.tree, hp]
    · by_cases hqb : q = w.brk
      · simp [hqb, World.tree, CameraFilesystemFolder.new, Nat.ne_of_gt hlt, hbrk]
      · simp [hqp, hqb, World.tree]

/-- The world after a new file entry was put at the end of the files. -/
def World.snocFile (w : World σ) (p : FolderAddr) (fo : CameraFilesystemFolder)
    (f : CameraFilesystemFile) : World σ :=
  { (w.setFile w.brk (some f)).setFolder p
      (some { fo with files := fo.files ++ [w.brk] }) with brk := w.brk + 1 }

theorem addFile_eq_some :
    addFile p f w = some (r, w') ↔
      ∃ fo, w.fs.folders p = some fo ∧ r = .ok () ∧ w' = w.snocFile p fo f := by
  unfold addFile
  rw [Comp.bind_run]
  simp only [allocFile]
  rw [modifyFolder_eq_some]
  rfl

theorem snocFile_tree (hp : w.fs.folders p = some fo) (f : CameraFilesystemFile) :
    (w.snocFile p fo f).tree = w.tree.snocFile p f.name := by
  have hc : ∀ q, (w.snocFile p fo f).fs.folders q = if q = p then
      some { fo with files := fo.files ++ [w.brk] } else w.fs.folders q := by
    intro q
    simp [World.snocFile, Function.update_apply]
  rw [World.tree, NameTree.snocFile]
  congr 1
  · funext q
    unfold CameraFilesystem.folderName
    rw [hc]
    by_cases hqp : q = p
    · subst hqp
      simp [World.tree, CameraFilesystem.folderName, hp]
    · simp [hqp, World.tree, CameraFilesystem.folderName]
  · funext a
    by_cases ha : a = w.brk
    · simp [ha, CameraFilesystem.fileName, World.snocFile]
    · simp [ha, CameraFilesystem.fileName, World.snocFile, World.tree]
  · funext q
    rw [hc]
    by_cases hqp : q = p
    · subst hqp
      simp [World.tree, hp]
    · simp [hqp, World.tree]
  · funext q
    rw [hc]
    by_cases hqp : q = p
    · subst hqp
      simp [World.tree, hp]
    · simp [hqp, World.tree]

end

open Lib Relation

/-- The loop of `gp_filesystem_list_folders` that appends the names of the driver. -/
def appendFolders (p : FolderAddr) (names : List CString) : Fs σ Unit :=
  names.forM fun name => do
    let _ ← appendFolderOne p name

/-- A step of `lookup_folder`. -/
inductive LookupStep : World σ → World σ → Prop
  | env (w : World σ) (s : σ) : LookupStep w { w with env := s }
  | folderListFunc (w : World σ) (path : CString) (answer : Except Int (List CString)) :
      LookupStep w { w with log := w.log ++ [.folderListFunc path answer] }
  | foldersClean (w : World σ) (p : FolderAddr) (fo : CameraFilesystemFolder)
      (hp : w.fs.folders p = some fo) :
      LookupStep w (w.setFolder p (some { fo with foldersDirty := false }))
  | dropFile (w w' : World σ) (p : FolderAddr) (a : FileAddr) (ha : a ∈ w.tree.files p)
      (h : dropFile p a w = some (.ok (), w')) : LookupStep w w'
  | dropFolder (w : World σ) (p c : FolderAddr) (fo : CameraFilesystemFolder)
      (hp : w.fs.folders p = some fo) (hc : c ∈ fo.folders)
      (hfolders : w.tree.folders c = []) (hfiles : w.tree.files c = []) :
      LookupStep w (w.dropFolder p c fo)
  | relist (w w' : World σ) (p : FolderAddr) (path : CString) (names : List CString)
      (hlog : .folderListFunc path (.ok names) ∈ w.log) (hempty : w.tree.folders p = [])
      (h : appendFolders p names w = some (.ok (), w')) : LookupStep w w'

/-- A step of a lookup, or of `gp_filesystem_list_files`. -/
inductive TreeStep : World σ → World σ → Prop
  | lookup {w w' : World σ} (h : LookupStep w w') : TreeStep w w'
  | fileListFunc (w : World σ) (path : CString) (answer : Except Int (List CString)) :
      TreeStep w { w with log := w.log ++ [.fileListFunc path answer] }
  | filesClean (w : World σ) (p : FolderAddr) (fo : CameraFilesystemFolder)
      (hp : w.fs.folders p = some fo) :
      TreeStep w (w.setFolder p (some { fo with filesDirty := false }))
  | newFile (w : World σ) (p : FolderAddr) (fo : CameraFilesystemFolder) (name : CString)
      (hp : w.fs.folders p = some fo) (hnone : w.tree.fileIn p name = none) :
      TreeStep w (w.snocFile p fo (.new name none))

/-- Steps of a lookup, one after the other. -/
abbrev LookupSteps : World σ → World σ → Prop := ReflTransGen LookupStep

/-- Steps of a lookup or a listing, one after the other. -/
abbrev TreeSteps : World σ → World σ → Prop := ReflTransGen TreeStep

theorem LookupSteps.treeSteps {w w' : World σ} (h : LookupSteps w w') : TreeSteps w w' :=
  h.lift id fun _ _ => TreeStep.lookup

/-! ### The tree -/

/-- Nothing but the folder entries was written. -/
def FolderFrame (w w' : World σ) : Prop :=
  ∃ folders brk, w' = { w with fs := { w.fs with folders := folders }, brk := brk }

/-- Appending names always succeeds, and each name becomes a subfolder. -/
theorem appendFolders_run {p : FolderAddr} {names : List CString} {w w' : World σ}
    {r : Except Int Unit} {fo : CameraFilesystemFolder} (hwf : w.tree.Wf)
    (hp : w.fs.folders p = some fo) (h : appendFolders p names w = some (r, w')) :
    r = .ok () ∧ w'.tree = w.tree.consFolders p names ∧ FolderFrame w w' ∧
      (∃ folders, w'.fs.folders p = some { fo with folders := folders }) ∧
      (∀ q, q ≠ p → q < w.brk → w'.fs.folders q = w.fs.folders q) ∧
      ∀ q fo', w.brk ≤ q → w'.fs.folders q = some fo' → ∃ name, fo' = .new name := by
  induction names generalizing w fo with
  | nil =>
    cases h
    refine ⟨rfl, rfl, ⟨_, _, rfl⟩, ⟨_, hp⟩, fun _ _ _ => rfl, fun q fo' hq hfo' => ?_⟩
    exact absurd (hwf.folder_lt (folderName_ne_none.mpr ⟨fo', hfo'⟩)) (Nat.not_lt.mpr hq)
  | cons name names ih =>
    have hcase : ∃ w₁, appendFolderOne p name w = some (.ok w.brk, w₁) ∧
        appendFolders p names w₁ = some (r, w') := by
      rcases Comp.bind_eq_some.mp h with ⟨e, h₁, -⟩ | ⟨_, w₁, h₁, h⟩
      · rcases Comp.bind_eq_some.mp h₁ with ⟨e, h₁, -⟩ | ⟨a, w₁, -, h₁⟩
        · obtain ⟨_, -, hr, -⟩ := appendFolderOne_eq_some hwf h₁
          cases hr
        · cases h₁
      · obtain ⟨a, _, h₂, h₁⟩ := Comp.bind_eq_ok.mp h₁
        cases h₁
        obtain ⟨_, -, hr, -⟩ := appendFolderOne_eq_some hwf h₂
        exact ⟨w₁, hr ▸ h₂, h⟩
    obtain ⟨w₁, h₁, h⟩ := hcase
    obtain ⟨fo', hfo', -, rfl⟩ := appendFolderOne_eq_some hwf h₁
    rw [hp, Option.some.injEq] at hfo'
    subst hfo'
    have htree := consFolder_tree hwf hp name
    have hp' := folderName_ne_none.mpr ⟨fo, hp⟩
    have hp₁ : (w.consFolder p fo name).fs.folders p =
        some { fo with folders := w.brk :: fo.folders } := by simp [World.consFolder]
    obtain ⟨hr, htree', ⟨folders, brk, hframe⟩, ⟨chain, hchain⟩, hold, hnew⟩ :=
      ih (by rw [htree]; exact hwf.consFolder hp' name) hp₁ h
    refine ⟨hr, by rw [htree', htree]; rfl, ⟨folders, brk, by rw [hframe]; rfl⟩,
      ⟨chain, hchain⟩, fun q hqp hq => ?_, fun q fo' hq hfo' => ?_⟩
    · rw [hold q hqp (Nat.lt_succ_of_lt hq)]
      simp [World.consFolder, hqp, Nat.ne_of_lt hq]
    · rcases Nat.eq_or_lt_of_le hq with rfl | hlt
      · have hne : w.brk ≠ p := Nat.ne_of_gt (hwf.folder_lt hp')
        rw [hold w.brk hne (Nat.lt_succ_self _)] at hfo'
        simp only [World.consFolder, World.setFolder_fs_folders, Function.update_of_ne hne,
          Function.update_self, Option.some.injEq] at hfo'
        exact ⟨name, hfo'.symm⟩
      · exact hnew q fo' hlt hfo'

theorem appendFolders_alive {p : FolderAddr} {names : List CString} {w w' : World σ}
    {r : Except Int Unit} (hwf : w.tree.Wf) (h : appendFolders p names w = some (r, w')) :
    names = [] ∨ ∃ fo, w.fs.folders p = some fo := by
  cases names with
  | nil => exact Or.inl rfl
  | cons name names =>
    refine Or.inr ?_
    rcases Comp.bind_eq_some.mp h with ⟨e, h₁, -⟩ | ⟨_, w₁, h₁, -⟩
    · rcases Comp.bind_eq_some.mp h₁ with ⟨e, h₁, -⟩ | ⟨a, w₁, -, h₁⟩
      · obtain ⟨fo, hfo, -⟩ := appendFolderOne_eq_some hwf h₁
        exact ⟨fo, hfo⟩
      · cases h₁
    · obtain ⟨a, _, h₂, -⟩ := Comp.bind_eq_ok.mp h₁
      obtain ⟨fo, hfo, -⟩ := appendFolderOne_eq_some hwf h₂
      exact ⟨fo, hfo⟩

section
variable {w w' : World σ}

theorem LookupStep.tree_cases (h : LookupStep w w') (hwf : w.tree.Wf) :
    w'.tree = w.tree ∨
    (∃ p a, a ∈ w.tree.files p ∧ w'.tree = w.tree.eraseFile p a) ∨
    (∃ p c, c ∈ w.tree.folders p ∧ w.tree.folders c = [] ∧ w.tree.files c = [] ∧
      w'.tree = w.tree.eraseFolder p c) ∨
    (∃ p path names, Event.folderListFunc path (.ok names) ∈ w.log ∧ w.tree.folders p = [] ∧
      w.tree.folderName p ≠ none ∧ w'.tree = w.tree.consFolders p names) := by
  cases h with
  | env s => exact Or.inl rfl
  | folderListFunc path answer => exact Or.inl rfl
  | foldersClean p fo hp => exact Or.inl (tree_setFolder_of_same hp _ rfl rfl rfl)
  | dropFile _ p a ha h => exact Or.inr (Or.inl ⟨p, a, ha, dropFile_tree h⟩)
  | dropFolder p c fo hp hc hfolders hfiles =>
    have hmem : c ∈ w.tree.folders p := by rwa [tree_folders hp]
    exact Or.inr (Or.inr (Or.inl ⟨p, c, hmem, hfolders, hfiles,
      dropFolder_tree hp (Nat.ne_of_lt (hwf.child_gt hmem)) hfolders hfiles⟩))
  | relist _ p path names hlog hempty h =>
    rcases appendFolders_alive hwf h with rfl | ⟨fo, hp⟩
    · cases h
      exact Or.inl rfl
    · exact Or.inr (Or.inr (Or.inr ⟨p, path, names, hlog, hempty,
        folderName_ne_none.mpr ⟨fo, hp⟩, (appendFolders_run hwf hp h).2.1⟩))

theorem LookupStep.stable (h : LookupStep w w') (hwf : w.tree.Wf) :
    w'.tree.Wf ∧ w.tree.Stable w'.tree := by
  rcases h.tree_cases hwf with ht | ⟨p, a, ha, ht⟩ | ⟨p, c, hc, hfolders, hfiles, ht⟩ |
      ⟨p, path, names, -, hempty, hp, ht⟩ <;> rw [ht]
  · exact ⟨hwf, .refl _⟩
  · exact ⟨hwf.eraseFile ha, hwf.stable_eraseFile ha⟩
  · exact ⟨hwf.eraseFolder hc hfolders hfiles, hwf.stable_eraseFolder hc⟩
  · exact ⟨hwf.consFolders hp names, hwf.stable_consFolders hempty names⟩

/-- A step of a lookup or a listing keeps the tree well formed, and keeps what was found. -/
theorem TreeStep.stable (h : TreeStep w w') (hwf : w.tree.Wf) :
    w'.tree.Wf ∧ w.tree.Stable w'.tree := by
  cases h with
  | lookup h => exact h.stable hwf
  | fileListFunc path answer => exact ⟨hwf, .refl _⟩
  | filesClean p fo hp =>
    rw [tree_setFolder_of_same hp { fo with filesDirty := false } rfl rfl rfl]
    exact ⟨hwf, .refl _⟩
  | newFile p fo name hp hnone =>
    rw [snocFile_tree hp]
    exact ⟨hwf.snocFile (folderName_ne_none.mpr ⟨fo, hp⟩) hnone, hwf.stable_snocFile p name⟩

theorem TreeSteps.stable (h : TreeSteps w w') (hwf : w.tree.Wf) :
    w'.tree.Wf ∧ w.tree.Stable w'.tree := by
  induction h with
  | refl => exact ⟨hwf, .refl _⟩
  | tail _ hstep ih =>
    obtain ⟨hwf₁, hstable⟩ := ih
    obtain ⟨hwf₂, hstable'⟩ := hstep.stable hwf₁
    exact ⟨hwf₂, hstable.trans hwf hstable'⟩

theorem LookupSteps.stable (h : LookupSteps w w') (hwf : w.tree.Wf) :
    w'.tree.Wf ∧ w.tree.Stable w'.tree := h.treeSteps.stable hwf

/-! ### The file entries, the `CameraFile`s and the trace -/

/-- A file entry behind a step of a lookup was there before, with other LRU pointers at
most. -/
theorem LookupStep.file (h : LookupStep w w') (hwf : w.tree.Wf) {a : FileAddr}
    {f' : CameraFilesystemFile} (hf : w'.fs.files a = some f') :
    ∃ f, w.fs.files a = some f ∧ f'.unlinked = f.unlinked := by
  cases h with
  | env s => exact ⟨f', hf, rfl⟩
  | folderListFunc path answer => exact ⟨f', hf, rfl⟩
  | foldersClean p fo hp => exact ⟨f', hf, rfl⟩
  | dropFile _ p b hb h =>
    obtain ⟨g, w₁, fo, r₁, -, -, -, h₁, rfl⟩ := dropFile_eq_some h
    by_cases hab : a = b
    · simp [hab] at hf
    · simp only [World.setFile_fs_files, Function.update_of_ne hab] at hf
      exact (LruFrame.of_dropFile h₁).file hf
  | dropFolder p c fo hp hc hfolders hfiles => exact ⟨f', hf, rfl⟩
  | relist _ p path names hlog hempty h =>
    rcases appendFolders_alive hwf h with rfl | ⟨fo, hp⟩
    · cases h
      exact ⟨f', hf, rfl⟩
    · obtain ⟨-, -, ⟨_, _, rfl⟩, -⟩ := appendFolders_run hwf hp h
      exact ⟨f', hf, rfl⟩

theorem LookupSteps.file (h : LookupSteps w w') (hwf : w.tree.Wf) {a : FileAddr}
    {f' : CameraFilesystemFile} (hf : w'.fs.files a = some f') :
    ∃ f, w.fs.files a = some f ∧ f'.unlinked = f.unlinked := by
  induction h generalizing f' with
  | refl => exact ⟨f', hf, rfl⟩
  | tail hsteps hstep ih =>
    obtain ⟨f₁, hf₁, heq⟩ := hstep.file (LookupSteps.stable hsteps hwf).1 hf
    obtain ⟨f, hf, heq'⟩ := ih hf₁
    exact ⟨f, hf, heq.trans heq'⟩

theorem LookupStep.cameraFile (h : LookupStep w w') (hwf : w.tree.Wf) :
    w'.cameraFile = w.cameraFile := by
  cases h with
  | env s => rfl
  | folderListFunc path answer => rfl
  | foldersClean p fo hp => rfl
  | dropFile _ p a ha h =>
    obtain ⟨f, w₁, fo, r₁, -, -, -, h₁, rfl⟩ := dropFile_eq_some h
    exact (LruFrame.of_dropFile h₁).cameraFile
  | dropFolder p c fo hp hc hfolders hfiles => rfl
  | relist _ p path names hlog hempty h =>
    rcases appendFolders_alive hwf h with rfl | ⟨fo, hp⟩
    · cases h
      rfl
    · obtain ⟨-, -, ⟨_, _, rfl⟩, -⟩ := appendFolders_run hwf hp h
      rfl

theorem TreeStep.cameraFile (h : TreeStep w w') (hwf : w.tree.Wf) :
    w'.cameraFile = w.cameraFile := by
  cases h with
  | lookup h => exact h.cameraFile hwf
  | fileListFunc path answer => rfl
  | filesClean p fo hp => rfl
  | newFile p fo name hp hnone => rfl

/-- Lookups and listings leave the `CameraFile`s alone. -/
theorem TreeSteps.cameraFile (h : TreeSteps w w') (hwf : w.tree.Wf) :
    w'.cameraFile = w.cameraFile := by
  induction h with
  | refl => rfl
  | tail hsteps hstep ih =>
    exact (hstep.cameraFile (TreeSteps.stable hsteps hwf).1).trans ih

/-- The events of a lookup. -/
def Event.ofLookup : Event → Bool
  | .folderListFunc _ _ | .dropFile _ => true
  | _ => false

/-- The events of a lookup or a listing. -/
def Event.ofListing : Event → Bool
  | .fileListFunc _ _ => true
  | e => e.ofLookup

theorem LookupStep.events (h : LookupStep w w') (hwf : w.tree.Wf) :
    ∃ es, w'.log = w.log ++ es ∧ ∀ e ∈ es, e.ofLookup := by
  have hnone : ∃ es, w.log = w.log ++ es ∧ ∀ e ∈ es, e.ofLookup := ⟨[], by simp, by simp⟩
  cases h with
  | env s => exact hnone
  | folderListFunc path answer => exact ⟨_, rfl, by simp [Event.ofLookup]⟩
  | foldersClean p fo hp => exact hnone
  | dropFile _ p a ha h =>
    obtain ⟨f, w₁, fo, r₁, -, -, -, h₁, rfl⟩ := dropFile_eq_some h
    exact ⟨_, (LruFrame.of_dropFile h₁).log, by simp [Event.ofLookup]⟩
  | dropFolder p c fo hp hc hfolders hfiles => exact hnone
  | relist _ p path names hlog hempty h =>
    rcases appendFolders_alive hwf h with rfl | ⟨fo, hp⟩
    · cases h
      exact hnone
    · obtain ⟨-, -, ⟨_, _, rfl⟩, -⟩ := appendFolders_run hwf hp h
      exact hnone

theorem TreeStep.events (h : TreeStep w w') (hwf : w.tree.Wf) :
    ∃ es, w'.log = w.log ++ es ∧ ∀ e ∈ es, e.ofListing := by
  cases h with
  | lookup h =>
    obtain ⟨es, hlog, hes⟩ := h.events hwf
    refine ⟨es, hlog, fun e he => ?_⟩
    have := hes e he
    cases e <;> first | exact this | rfl
  | fileListFunc path answer => exact ⟨_, rfl, by simp [Event.ofListing]⟩
  | filesClean p fo hp => exact ⟨[], by simp, by simp⟩
  | newFile p fo name hp hnone => exact ⟨[], by simp [World.snocFile], by simp⟩

theorem TreeSteps.events (h : TreeSteps w w') (hwf : w.tree.Wf) :
    ∃ es, w'.log = w.log ++ es ∧ ∀ e ∈ es, e.ofListing := by
  induction h with
  | refl => exact ⟨[], by simp, by simp⟩
  | tail hsteps hstep ih =>
    obtain ⟨es, hlog, hes⟩ := ih
    obtain ⟨es', hlog', hes'⟩ := hstep.events (TreeSteps.stable hsteps hwf).1
    refine ⟨es ++ es', by rw [hlog', hlog, List.append_assoc], fun e he => ?_⟩
    exact (List.mem_append.mp he).elim (hes e) (hes' e)

theorem LookupStep.log (h : LookupStep w w') (hwf : w.tree.Wf) : w.log <+: w'.log := by
  obtain ⟨es, hlog, -⟩ := h.events hwf
  exact ⟨es, hlog.symm⟩

theorem TreeStep.log (h : TreeStep w w') (hwf : w.tree.Wf) : w.log <+: w'.log := by
  obtain ⟨es, hlog, -⟩ := h.events hwf
  exact ⟨es, hlog.symm⟩

theorem TreeSteps.log (h : TreeSteps w w') (hwf : w.tree.Wf) : w.log <+: w'.log := by
  obtain ⟨es, hlog, -⟩ := h.events hwf
  exact ⟨es, hlog.symm⟩

end

end GPhoto2
