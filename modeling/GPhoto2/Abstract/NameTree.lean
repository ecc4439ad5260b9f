import GPhoto2.Filesys.Types
import Mathlib.Data.List.Find
import Mathlib.Data.List.Infix
import Mathlib.Data.List.Nodup
import Mathlib.Logic.Function.Basic

/-!
# `GPhoto2.Abstract.NameTree`: the tree of names

What the virtual filesystem is about, without its caches: folders and files with names,
each folder with its subfolders and its files in chain order. `NameTree.Wf` says that this
is a tree: every folder but the root hangs in exactly one folder, every file lies in
exactly one, and no two files of one folder have the same name. Two subfolders of one folder
may have the same name; `NameTree.Distinct` says that they do not.

The operations are the five edits the filesystem makes. `NameTree.Stable` compares a tree
with a later one: a folder or a file that was found under a name, and still exists, is still
found under that name. All edits but one keep it, and it is what lets a function use a
pointer after it has called back into the filesystem. The exception is a new folder with
the name of an existing one, which hides the older entry.
-/

set_option autoImplicit false

namespace GPhoto2

open Function (update_apply update_self)

/-- The names of the folders and files that exist, and the two chains of each folder. -/
structure NameTree where
  folderName : FolderAddr → Option CString
  fileName : FileAddr → Option CString
  folders : FolderAddr → List FolderAddr
  files : FolderAddr → List FileAddr
  /-- The next address to hand out. -/
  brk : Nat

namespace NameTree

/-! ### Lookup -/

/-- The first subfolder with the given name. -/
def child (t : NameTree) (p : FolderAddr) (name : CString) : Option FolderAddr :=
  (t.folders p).find? fun c => t.folderName c == some name

/-- The first file with the given name. -/
def fileIn (t : NameTree) (p : FolderAddr) (name : CString) : Option FileAddr :=
  (t.files p).find? fun a => t.fileName a == some name

/-- Follow the components of a path. -/
def walk (t : NameTree) : FolderAddr → List CString → Option FolderAddr
  | p, [] => some p
  | p, name :: rest => (t.child p name).bind fun c => t.walk c rest

/-- The folder at `p` hangs in the tree under the names `path`, from the root. -/
inductive At (t : NameTree) : FolderAddr → List CString → Prop
  | root : At t rootfolder []
  | child {p c : FolderAddr} {path : List CString} {name : CString} (h : At t p path)
      (hc : c ∈ t.folders p) (hn : t.folderName c = some name) : At t c (path ++ [name])

/-- The file at `a` has the name `name`, and lies in the folder under the names `path`. -/
def FileAt (t : NameTree) (path : List CString) (name : CString) (a : FileAddr) : Prop :=
  ∃ p, t.At p path ∧ a ∈ t.files p ∧ t.fileName a = some name

/-! ### Well-formed trees -/

/-- The folders form a tree under the root folder, and the files lie in it. -/
structure Wf (t : NameTree) : Prop where
  root : t.folderName rootfolder = some ['/']
  folder_lt : ∀ {a}, t.folderName a ≠ none → a < t.brk
  file_lt : ∀ {a}, t.fileName a ≠ none → a < t.brk
  parent_alive : ∀ {p c}, c ∈ t.folders p → t.folderName p ≠ none
  child_alive : ∀ {p c}, c ∈ t.folders p → t.folderName c ≠ none
  child_gt : ∀ {p c}, c ∈ t.folders p → p < c
  has_parent : ∀ {c}, t.folderName c ≠ none → c ≠ rootfolder → ∃ p, c ∈ t.folders p
  parent_unique : ∀ {p q c}, c ∈ t.folders p → c ∈ t.folders q → p = q
  folders_nodup : ∀ p, (t.folders p).Nodup
  owner_alive : ∀ {p a}, a ∈ t.files p → t.folderName p ≠ none
  file_alive : ∀ {p a}, a ∈ t.files p → t.fileName a ≠ none
  has_owner : ∀ {a}, t.fileName a ≠ none → ∃ p, a ∈ t.files p
  owner_unique : ∀ {p q a}, a ∈ t.files p → a ∈ t.files q → p = q
  files_nodup : ∀ p, (t.files p).Nodup
  files_distinct : ∀ {p a b}, a ∈ t.files p → b ∈ t.files p →
    t.fileName a = t.fileName b → a = b

/-- Sibling folders have distinct names. -/
def Distinct (t : NameTree) : Prop :=
  ∀ p a b, a ∈ t.folders p → b ∈ t.folders p → t.folderName a = t.folderName b → a = b

/-! ### The edits -/

/-- Take a file out of a folder. -/
def eraseFile (t : NameTree) (p : FolderAddr) (a : FileAddr) : NameTree :=
  { t with
    fileName := Function.update t.fileName a none
    files := Function.update t.files p ((t.files p).erase a) }

/-- Take an empty subfolder out of a folder. -/
def eraseFolder (t : NameTree) (p c : FolderAddr) : NameTree :=
  { t with
    folderName := Function.update t.folderName c none
    folders := Function.update t.folders p ((t.folders p).erase c) }

/-- Put a new subfolder in front. -/
def consFolder (t : NameTree) (p : FolderAddr) (name : CString) : NameTree :=
  { t with
    folderName := Function.update t.folderName t.brk (some name)
    folders := Function.update t.folders p (t.brk :: t.folders p)
    brk := t.brk + 1 }

/-- Put a new file at the end. -/
def snocFile (t : NameTree) (p : FolderAddr) (name : CString) : NameTree :=
  { t with
    fileName := Function.update t.fileName t.brk (some name)
    files := Function.update t.files p (t.files p ++ [t.brk])
    brk := t.brk + 1 }

/-- Put new subfolders in front, one after the other. -/
def consFolders (t : NameTree) (p : FolderAddr) (names : List CString) : NameTree :=
  names.foldl (fun t name => t.consFolder p name) t

/-- The tree of a new filesystem. -/
def new (brk : Nat) : NameTree where
  folderName a := if a = rootfolder then some ['/'] else none
  fileName _ := none
  folders _ := []
  files _ := []
  brk := brk

/-! ### Facts about lookup -/

variable {t : NameTree} {p c : FolderAddr} {name : CString}

theorem child_eq_some (h : t.child p name = some c) :
    c ∈ t.folders p ∧ t.folderName c = some name :=
  ⟨List.mem_of_find?_eq_some h, by simpa using List.find?_some h⟩

variable {a : FileAddr}

theorem fileIn_eq_some (h : t.fileIn p name = some a) : a ∈ t.files p ∧ t.fileName a = some name :=
  ⟨List.mem_of_find?_eq_some h, by simpa using List.find?_some h⟩

/-- A name that is not found is not there. -/
theorem child_eq_none :
    t.child p name = none ↔ ∀ c ∈ t.folders p, t.folderName c ≠ some name := by
  simp [child]

/-- A name that is not found is not there. -/
theorem fileIn_eq_none :
    t.fileIn p name = none ↔ ∀ a ∈ t.files p, t.fileName a ≠ some name := by
  simp [fileIn]

/-- File names are distinct, so a file is found under its name. -/
theorem Wf.fileIn_of_mem (h : t.Wf)
    (ha : a ∈ t.files p) (hn : t.fileName a = some name) : t.fileIn p name = some a := by
  cases hf : t.fileIn p name with
  | none => exact absurd hn (fileIn_eq_none.mp hf a ha)
  | some b =>
    obtain ⟨hb, hbn⟩ := fileIn_eq_some hf
    rw [h.files_distinct ha hb (hn.trans hbn.symm)]

/-- Among distinct siblings, a folder is found under its name. -/
theorem Distinct.child_of_mem (h : t.Distinct)
    (hc : c ∈ t.folders p) (hn : t.folderName c = some name) : t.child p name = some c := by
  cases hf : t.child p name with
  | none => exact absurd hn (child_eq_none.mp hf c hc)
  | some b =>
    obtain ⟨hb, hbn⟩ := child_eq_some hf
    rw [h p c b hc hb (hn.trans hbn.symm)]

theorem walk_append (t : NameTree) (p : FolderAddr) (path rest : List CString) :
    t.walk p (path ++ rest) = (t.walk p path).bind fun q => t.walk q rest := by
  induction path generalizing p with
  | nil => rfl
  | cons name path ih =>
    simp only [List.cons_append, walk]
    cases t.child p name with
    | none => rfl
    | some c => exact ih c

theorem walk_concat (t : NameTree) (p : FolderAddr) (path : List CString) (name : CString) :
    t.walk p (path ++ [name]) = (t.walk p path).bind fun q => t.child q name := by
  rw [walk_append]
  congr 1
  funext q
  simp [walk]

variable {q : FolderAddr} {path : List CString}

/-- A path leads to a folder that exists. -/
theorem Wf.walk_alive (h : t.Wf)
    (hp : t.folderName p ≠ none) (hw : t.walk p path = some q) : t.folderName q ≠ none := by
  induction path generalizing p with
  | nil =>
    cases hw
    exact hp
  | cons name path ih =>
    obtain ⟨c, hc, hw⟩ := Option.bind_eq_some_iff.mp hw
    exact ih (h.child_alive (child_eq_some hc).1) hw

/-- A path leads to a folder that hangs under it. -/
theorem at_of_walk (hw : t.walk rootfolder path = some q) : t.At q path := by
  induction path using List.reverseRecOn generalizing q with
  | nil =>
    cases hw
    exact At.root
  | append_singleton path name ih =>
    rw [walk_concat] at hw
    obtain ⟨p, hp, hc⟩ := Option.bind_eq_some_iff.mp hw
    obtain ⟨hmem, hn⟩ := child_eq_some hc
    exact (ih hp).child hmem hn

/-- Among distinct siblings, a folder is found under the path it hangs under. -/
theorem Distinct.walk_of_at (h : t.Distinct)
    (hq : t.At q path) : t.walk rootfolder path = some q := by
  induction hq with
  | root => rfl
  | child _ hc hn ih =>
    rw [walk_concat, ih]
    exact h.child_of_mem hc hn

/-- Every folder hangs somewhere in the tree: the addresses grow on the way down. -/
theorem Wf.exists_at (h : t.Wf) {a : FolderAddr} (ha : t.folderName a ≠ none) :
    ∃ path, t.At a path := by
  induction a using Nat.strongRecOn with
  | ind a ih =>
    by_cases hroot : a = rootfolder
    · subst hroot
      exact ⟨[], At.root⟩
    · obtain ⟨p, hp⟩ := h.has_parent ha hroot
      obtain ⟨path, hpath⟩ := ih p (h.child_gt hp) (h.parent_alive hp)
      obtain ⟨name, hn⟩ := Option.ne_none_iff_exists'.mp ha
      exact ⟨path ++ [name], hpath.child hp hn⟩

/-- In a tree whose root folder has no subfolders there is no other folder. -/
theorem Wf.eq_root (h : t.Wf) (hroot : t.folders rootfolder = [])
    (hq : t.folderName q ≠ none) : q = rootfolder := by
  obtain ⟨path, hat⟩ := h.exists_at hq
  induction hat with
  | root => rfl
  | child _ hc _ ih =>
    obtain rfl := ih (h.parent_alive hc)
    rw [hroot] at hc
    cases hc

/-! ### The edits keep a tree well formed -/

theorem new_wf {brk : Nat} (h : 0 < brk) : (new brk).Wf where
  root := rfl
  folder_lt := by
    intro a ha
    by_cases hroot : a = rootfolder
    · rw [hroot]
      exact h
    · simp [new, hroot] at ha
  file_lt ha := absurd rfl ha
  parent_alive ha := by cases ha
  child_alive ha := by cases ha
  child_gt ha := by cases ha
  has_parent ha hroot := by simp [new, hroot] at ha
  parent_unique ha := by cases ha
  folders_nodup _ := List.nodup_nil
  owner_alive ha := by cases ha
  file_alive ha := by cases ha
  has_owner ha := absurd rfl ha
  owner_unique ha := by cases ha
  files_nodup _ := List.nodup_nil
  files_distinct ha := by cases ha

theorem Wf.eraseFile_files (h : t.Wf) (ha : a ∈ t.files p)
    (q : FolderAddr) : (t.eraseFile p a).files q = (t.files q).erase a := by
  by_cases hq : q = p
  · subst hq
    simp [eraseFile]
  · rw [List.erase_of_not_mem fun hm => hq (h.owner_unique hm ha)]
    simp [eraseFile, hq]

variable {b : FileAddr}

/-- The files of a folder after one of them is gone. -/
theorem Wf.mem_eraseFile (h : t.Wf) (ha : a ∈ t.files p) :
    b ∈ (t.eraseFile p a).files q ↔ b ∈ t.files q ∧ b ≠ a := by
  rw [h.eraseFile_files ha, (h.files_nodup q).mem_erase_iff, and_comm]

theorem eraseFile_fileName :
    (t.eraseFile p a).fileName b = if b = a then none else t.fileName b := by
  simp [eraseFile, update_apply]

variable {t' : NameTree}

/-- A walk looks at nothing but children. -/
theorem walk_congr (h : t'.child = t.child) (q : FolderAddr)
    (path : List CString) : t'.walk q path = t.walk q path := by
  induction path generalizing q with
  | nil => rfl
  | cons name path ih =>
    rw [walk, walk, h]
    exact congrArg _ (funext ih)

theorem walk_eraseFile (q : FolderAddr) (path : List CString) :
    (t.eraseFile p a).walk q path = t.walk q path := walk_congr (by rfl) q path

theorem walk_snocFile (q : FolderAddr) (path : List CString) :
    (t.snocFile p name).walk q path = t.walk q path := walk_congr (by rfl) q path

/-- A file that was erased is not found again. -/
theorem Wf.fileIn_eraseFile (h : t.Wf)
    (ha : t.fileIn p name = some a) : (t.eraseFile p a).fileIn p name = none := by
  obtain ⟨hmem, hname⟩ := fileIn_eq_some ha
  refine fileIn_eq_none.mpr fun b hb hbn => ?_
  obtain ⟨hb, hne⟩ := (h.mem_eraseFile hmem).mp hb
  rw [eraseFile_fileName, if_neg hne] at hbn
  exact hne (h.files_distinct hb hmem (hbn.trans hname.symm))

theorem Wf.eraseFile (h : t.Wf) (ha : a ∈ t.files p) :
    (t.eraseFile p a).Wf where
  root := h.root
  folder_lt := h.folder_lt
  file_lt := by
    intro b hb
    rw [eraseFile_fileName] at hb
    split at hb
    · exact absurd rfl hb
    · exact h.file_lt hb
  parent_alive := h.parent_alive
  child_alive := h.child_alive
  child_gt := h.child_gt
  has_parent := h.has_parent
  parent_unique := h.parent_unique
  folders_nodup := h.folders_nodup
  owner_alive hb := h.owner_alive ((h.mem_eraseFile ha).mp hb).1
  file_alive := by
    intro q b hb
    obtain ⟨hb, hne⟩ := (h.mem_eraseFile ha).mp hb
    rw [eraseFile_fileName, if_neg hne]
    exact h.file_alive hb
  has_owner := by
    intro b hb
    rw [eraseFile_fileName] at hb
    by_cases hba : b = a
    · simp [hba] at hb
    · rw [if_neg hba] at hb
      obtain ⟨q, hq⟩ := h.has_owner hb
      exact ⟨q, (h.mem_eraseFile ha).mpr ⟨hq, hba⟩⟩
  owner_unique hb hb' :=
    h.owner_unique ((h.mem_eraseFile ha).mp hb).1 ((h.mem_eraseFile ha).mp hb').1
  files_nodup q := by
    by_cases hq : q = p
    · subst hq
      simpa [NameTree.eraseFile] using (h.files_nodup q).erase a
    · simpa [NameTree.eraseFile, hq] using h.files_nodup q
  files_distinct := by
    intro q b c hb hc hn
    obtain ⟨hb, hba⟩ := (h.mem_eraseFile ha).mp hb
    obtain ⟨hc, hca⟩ := (h.mem_eraseFile ha).mp hc
    rw [eraseFile_fileName, eraseFile_fileName, if_neg hba, if_neg hca] at hn
    exact h.files_distinct hb hc hn

theorem Wf.eraseFolder_folders (h : t.Wf) (hc : c ∈ t.folders p)
    (q : FolderAddr) : (t.eraseFolder p c).folders q = (t.folders q).erase c := by
  by_cases hq : q = p
  · subst hq
    simp [eraseFolder]
  · rw [List.erase_of_not_mem fun hm => hq (h.parent_unique hm hc)]
    simp [eraseFolder, hq]

/-- The subfolders of a folder after one of them is gone. -/
theorem Wf.mem_eraseFolder (h : t.Wf) {d : FolderAddr} (hc : c ∈ t.folders p) :
    d ∈ (t.eraseFolder p c).folders q ↔ d ∈ t.folders q ∧ d ≠ c := by
  rw [h.eraseFolder_folders hc, (h.folders_nodup q).mem_erase_iff, and_comm]

theorem eraseFolder_folderName {d : FolderAddr} :
    (t.eraseFolder p c).folderName d = if d = c then none else t.folderName d := by
  simp [NameTree.eraseFolder, update_apply]

theorem Wf.eraseFolder (h : t.Wf) (hc : c ∈ t.folders p)
    (hfolders : t.folders c = []) (hfiles : t.files c = []) : (t.eraseFolder p c).Wf := by
  have hroot : rootfolder ≠ c := by
    rintro rfl
    exact Nat.not_lt_zero _ (h.child_gt hc)
  have hne : ∀ {q d}, d ∈ t.folders q → q ≠ c := by
    rintro q d hd rfl
    rw [hfolders] at hd
    cases hd
  have hne' : ∀ {q a}, a ∈ t.files q → q ≠ c := by
    rintro q a ha rfl
    rw [hfiles] at ha
    cases ha
  exact {
    root := by rw [eraseFolder_folderName, if_neg hroot, h.root]
    folder_lt := by
      intro d hd
      rw [eraseFolder_folderName] at hd
      split at hd
      · exact absurd rfl hd
      · exact h.folder_lt hd
    file_lt := h.file_lt
    parent_alive := by
      intro q d hd
      have hd := ((h.mem_eraseFolder hc).mp hd).1
      rw [eraseFolder_folderName, if_neg (hne hd)]
      exact h.parent_alive hd
    child_alive := by
      intro q d hd
      obtain ⟨hd, hdc⟩ := (h.mem_eraseFolder hc).mp hd
      rw [eraseFolder_folderName, if_neg hdc]
      exact h.child_alive hd
    child_gt := fun hd => h.child_gt ((h.mem_eraseFolder hc).mp hd).1
    has_parent := by
      intro d hd hdroot
      rw [eraseFolder_folderName] at hd
      by_cases hdc : d = c
      · simp [hdc] at hd
      · rw [if_neg hdc] at hd
        obtain ⟨q, hq⟩ := h.has_parent hd hdroot
        exact ⟨q, (h.mem_eraseFolder hc).mpr ⟨hq, hdc⟩⟩
    parent_unique := fun hd hd' =>
      h.parent_unique ((h.mem_eraseFolder hc).mp hd).1 ((h.mem_eraseFolder hc).mp hd').1
    folders_nodup := by
      intro q
      by_cases hq : q = p
      · subst hq
        simpa [NameTree.eraseFolder] using (h.folders_nodup q).erase c
      · simpa [NameTree.eraseFolder, hq] using h.folders_nodup q
    owner_alive := by
      intro q a ha
      rw [eraseFolder_folderName, if_neg (hne' ha)]
      exact h.owner_alive ha
    file_alive := h.file_alive
    has_owner := h.has_owner
    owner_unique := h.owner_unique
    files_nodup := h.files_nodup
    files_distinct := h.files_distinct }

/-- Addresses past `brk` are in no chain. -/
theorem Wf.brk_not_mem_folders (h : t.Wf) (q : FolderAddr) : t.brk ∉ t.folders q :=
  fun hm => Nat.lt_irrefl _ (h.folder_lt (h.child_alive hm))

/-- Addresses past `brk` are in no chain. -/
theorem Wf.brk_not_mem_files (h : t.Wf) (q : FolderAddr) : t.brk ∉ t.files q :=
  fun hm => Nat.lt_irrefl _ (h.file_lt (h.file_alive hm))

theorem mem_consFolder :
    c ∈ (t.consFolder p name).folders q ↔ (c = t.brk ∧ q = p) ∨ c ∈ t.folders q := by
  by_cases hq : q = p
  · subst hq
    simp [consFolder]
  · simp [consFolder, hq]

theorem consFolder_folderName :
    (t.consFolder p name).folderName c = if c = t.brk then some name else t.folderName c := by
  simp [consFolder, update_apply]

theorem Wf.consFolder (h : t.Wf) (hp : t.folderName p ≠ none)
    (name : CString) : (t.consFolder p name).Wf := by
  have hplt := h.folder_lt hp
  have hold : ∀ {q}, t.folderName q ≠ none → (t.consFolder p name).folderName q ≠ none := by
    intro q hq
    rw [consFolder_folderName]
    split
    · simp
    · exact hq
  exact {
    root := by
      rw [consFolder_folderName, if_neg, h.root]
      exact Nat.ne_of_lt (h.folder_lt (by simp [h.root]))
    folder_lt := by
      intro a ha
      rw [consFolder_folderName] at ha
      by_cases hab : a = t.brk
      · exact hab ▸ Nat.lt_succ_self _
      · rw [if_neg hab] at ha
        exact Nat.lt_succ_of_lt (h.folder_lt ha)
    file_lt := fun ha => Nat.lt_succ_of_lt (h.file_lt ha)
    parent_alive := by
      intro q c hc
      rcases mem_consFolder.mp hc with ⟨-, rfl⟩ | hc
      · exact hold hp
      · exact hold (h.parent_alive hc)
    child_alive := by
      intro q c hc
      rcases mem_consFolder.mp hc with ⟨rfl, -⟩ | hc
      · simp [consFolder_folderName]
      · exact hold (h.child_alive hc)
    child_gt := by
      intro q c hc
      rcases mem_consFolder.mp hc with ⟨rfl, rfl⟩ | hc
      · exact hplt
      · exact h.child_gt hc
    has_parent := by
      intro c hc hroot
      rw [consFolder_folderName] at hc
      by_cases hcb : c = t.brk
      · exact ⟨p, mem_consFolder.mpr (Or.inl ⟨hcb, rfl⟩)⟩
      · rw [if_neg hcb] at hc
        obtain ⟨q, hq⟩ := h.has_parent hc hroot
        exact ⟨q, mem_consFolder.mpr (Or.inr hq)⟩
    parent_unique := by
      intro q q' c hc hc'
      rcases mem_consFolder.mp hc with ⟨rfl, rfl⟩ | hc <;>
        rcases mem_consFolder.mp hc' with ⟨hcb, hq'⟩ | hc'
      · exact hq'.symm
      · exact absurd hc' (h.brk_not_mem_folders _)
      · exact absurd (hcb ▸ hc) (h.brk_not_mem_folders _)
      · exact h.parent_unique hc hc'
    folders_nodup := by
      intro q
      by_cases hq : q = p
      · subst hq
        simpa [NameTree.consFolder] using ⟨h.brk_not_mem_folders q, h.folders_nodup q⟩
      · simpa [NameTree.consFolder, hq] using h.folders_nodup q
    owner_alive := fun ha => hold (h.owner_alive ha)
    file_alive := h.file_alive
    has_owner := h.has_owner
    owner_unique := h.owner_unique
    files_nodup := h.files_nodup
    files_distinct := h.files_distinct }

/-- The new folder is found under its name. -/
theorem child_consFolder_self (p : FolderAddr) (name : CString) :
    (t.consFolder p name).child p name = some t.brk := by
  simp [child, consFolder]

theorem Wf.consFolders (h : t.Wf) (hp : t.folderName p ≠ none)
    (names : List CString) : (t.consFolders p names).Wf := by
  induction names generalizing t with
  | nil => exact h
  | cons name names ih =>
    refine ih (h.consFolder hp name) ?_
    rw [consFolder_folderName, if_neg (Nat.ne_of_lt (h.folder_lt hp))]
    exact hp

theorem mem_snocFile :
    a ∈ (t.snocFile p name).files q ↔ a ∈ t.files q ∨ (a = t.brk ∧ q = p) := by
  by_cases hq : q = p
  · subst hq
    simp [snocFile]
  · simp [snocFile, hq]

theorem snocFile_fileName :
    (t.snocFile p name).fileName a = if a = t.brk then some name else t.fileName a := by
  simp [snocFile, update_apply]

theorem Wf.snocFile (h : t.Wf) (hp : t.folderName p ≠ none)
    (hnone : t.fileIn p name = none) : (t.snocFile p name).Wf := by
  have hne : ∀ {q a}, a ∈ t.files q → a ≠ t.brk := by
    rintro q a ha rfl
    exact h.brk_not_mem_files q ha
  have hold : ∀ {q a}, a ∈ t.files q → (t.snocFile p name).fileName a = t.fileName a :=
    fun ha => by rw [snocFile_fileName, if_neg (hne ha)]
  have hnew : (t.snocFile p name).fileName t.brk = some name := by
    rw [snocFile_fileName, if_pos rfl]
  exact {
    root := h.root
    folder_lt := fun ha => Nat.lt_succ_of_lt (h.folder_lt ha)
    file_lt := by
      intro a ha
      rw [snocFile_fileName] at ha
      by_cases hab : a = t.brk
      · exact hab ▸ Nat.lt_succ_self _
      · rw [if_neg hab] at ha
        exact Nat.lt_succ_of_lt (h.file_lt ha)
    parent_alive := h.parent_alive
    child_alive := h.child_alive
    child_gt := h.child_gt
    has_parent := h.has_parent
    parent_unique := h.parent_unique
    folders_nodup := h.folders_nodup
    owner_alive := by
      intro q a ha
      rcases mem_snocFile.mp ha with ha | ⟨-, rfl⟩
      · exact h.owner_alive ha
      · exact hp
    file_alive := by
      intro q a ha
      rcases mem_snocFile.mp ha with ha | ⟨rfl, -⟩
      · rw [hold ha]
        exact h.file_alive ha
      · simp [hnew]
    has_owner := by
      intro a ha
      rw [snocFile_fileName] at ha
      by_cases hab : a = t.brk
      · exact ⟨p, mem_snocFile.mpr (Or.inr ⟨hab, rfl⟩)⟩
      · rw [if_neg hab] at ha
        obtain ⟨q, hq⟩ := h.has_owner ha
        exact ⟨q, mem_snocFile.mpr (Or.inl hq)⟩
    owner_unique := by
      intro q q' a ha ha'
      rcases mem_snocFile.mp ha with h₁ | ⟨hab, hq⟩ <;>
        rcases mem_snocFile.mp ha' with h₂ | ⟨hab', hq'⟩
      · exact h.owner_unique h₁ h₂
      · exact absurd hab' (hne h₁)
      · exact absurd hab (hne h₂)
      · exact hq.trans hq'.symm
    files_nodup := by
      intro q
      by_cases hq : q = p
      · subst hq
        simp only [NameTree.snocFile, update_self]
        exact (h.files_nodup q).append (List.nodup_singleton _)
          (List.disjoint_singleton.mpr (h.brk_not_mem_files q))
      · simpa [NameTree.snocFile, hq] using h.files_nodup q
    files_distinct := by
      intro q a b ha hb hn
      rcases mem_snocFile.mp ha with h₁ | ⟨hab, hq⟩ <;>
        rcases mem_snocFile.mp hb with h₂ | ⟨hbb, hq'⟩
      · rw [hold h₁, hold h₂] at hn
        exact h.files_distinct h₁ h₂ hn
      · rw [hold h₁, hbb, hnew] at hn
        exact absurd hn (fileIn_eq_none.mp hnone a (hq' ▸ h₁))
      · rw [hold h₂, hab, hnew] at hn
        exact absurd hn.symm (fileIn_eq_none.mp hnone b (hq ▸ h₂))
      · exact hab.trans hbb.symm }

/-! ### What was found is still found -/

/-- A folder or file of `t` that still exists in `t'` is found in `t'` where it was found in
`t`. -/
structure Stable (t t' : NameTree) : Prop where
  brk_le : t.brk ≤ t'.brk
  folderName : ∀ {a}, a < t.brk → t'.folderName a ≠ none → t'.folderName a = t.folderName a
  fileName : ∀ {a}, a < t.brk → t'.fileName a ≠ none → t'.fileName a = t.fileName a
  child : ∀ {p name c}, t.child p name = some c → t'.folderName c ≠ none →
    t'.child p name = some c
  fileIn : ∀ {p name a}, t.fileIn p name = some a → t'.fileName a ≠ none →
    t'.fileIn p name = some a

theorem Stable.refl (t : NameTree) : t.Stable t where
  brk_le := Nat.le_refl _
  folderName _ _ := rfl
  fileName _ _ := rfl
  child h _ := h
  fileIn h _ := h

theorem Stable.trans (hwf : t.Wf) {t'' : NameTree} (h : t.Stable t') (h' : t'.Stable t'') :
    t.Stable t'' where
  brk_le := Nat.le_trans h.brk_le h'.brk_le
  folderName := by
    intro a ha hn
    have hn' := h'.folderName (Nat.lt_of_lt_of_le ha h.brk_le) hn
    rw [hn'] at hn ⊢
    exact h.folderName ha hn
  fileName := by
    intro a ha hn
    have hn' := h'.fileName (Nat.lt_of_lt_of_le ha h.brk_le) hn
    rw [hn'] at hn ⊢
    exact h.fileName ha hn
  child := by
    intro p name c hc hn
    have hlt := hwf.folder_lt (hwf.child_alive (child_eq_some hc).1)
    refine h'.child (h.child hc ?_) hn
    rw [← h'.folderName (Nat.lt_of_lt_of_le hlt h.brk_le) hn]
    exact hn
  fileIn := by
    intro p name a ha hn
    have hlt := hwf.file_lt (hwf.file_alive (fileIn_eq_some ha).1)
    refine h'.fileIn (h.fileIn ha ?_) hn
    rw [← h'.fileName (Nat.lt_of_lt_of_le hlt h.brk_le) hn]
    exact hn

/-- A path that leads to a folder leads there as long as the folder exists. -/
theorem Stable.walk (h : t.Stable t') (hwf' : t'.Wf)
    (hw : t.walk p path = some q) (hq : t'.folderName q ≠ none) :
    t'.walk p path = some q ∧ t'.folderName p ≠ none := by
  induction path generalizing p with
  | nil =>
    cases hw
    exact ⟨rfl, hq⟩
  | cons name path ih =>
    obtain ⟨c, hc, hw⟩ := Option.bind_eq_some_iff.mp hw
    obtain ⟨hw', hc'⟩ := ih hw
    have hchild := h.child hc hc'
    refine ⟨?_, hwf'.parent_alive (child_eq_some hchild).1⟩
    simp only [NameTree.walk, hchild]
    exact hw'

/-- Erasing another element does not change what is found first. -/
theorem find?_erase_of_ne {α : Type} [DecidableEq α] {l : List α} {f g : α → Bool} {a b : α}
    (h : l.find? f = some b) (hne : b ≠ a) (hfg : ∀ x, x ≠ a → g x = f x)
    (ha : g a = false) : (l.erase a).find? g = some b := by
  induction l with
  | nil => cases h
  | cons x l ih =>
    rw [List.find?_cons] at h
    rw [List.erase_cons]
    by_cases hxa : x = a
    · subst hxa
      rw [if_pos (by simp)]
      split at h
      · rw [Option.some.injEq] at h
        exact absurd h.symm hne
      · rename_i hfx
        have hgf : g = f := by
          funext y
          by_cases hy : y = x
          · rw [hy, ha, hfx]
          · exact hfg y hy
        rw [hgf, h]
    · rw [if_neg (by simpa using hxa), List.find?_cons, hfg x hxa]
      split at h
      · exact h
      · exact ih h

theorem Wf.stable_eraseFile (h : t.Wf) (ha : a ∈ t.files p) :
    t.Stable (t.eraseFile p a) where
  brk_le := Nat.le_refl _
  folderName _ _ := rfl
  fileName := by
    intro b _ hn
    rw [eraseFile_fileName] at hn ⊢
    split at hn
    · exact absurd rfl hn
    · rw [if_neg ‹_›]
  child h _ := h
  fileIn := by
    intro q name b hb hn
    rw [eraseFile_fileName] at hn
    have hba : b ≠ a := fun e => hn (if_pos e)
    unfold NameTree.fileIn
    rw [h.eraseFile_files ha]
    refine find?_erase_of_ne hb hba (fun x hx => ?_) ?_
    · rw [eraseFile_fileName, if_neg hx]
    · simp [eraseFile_fileName]

theorem Wf.stable_eraseFolder (h : t.Wf) (hc : c ∈ t.folders p) :
    t.Stable (t.eraseFolder p c) where
  brk_le := Nat.le_refl _
  folderName := by
    intro b _ hn
    rw [eraseFolder_folderName] at hn ⊢
    split at hn
    · exact absurd rfl hn
    · rw [if_neg ‹_›]
  fileName _ _ := rfl
  child := by
    intro q name d hd hn
    rw [eraseFolder_folderName] at hn
    have hdc : d ≠ c := fun e => hn (if_pos e)
    unfold NameTree.child
    rw [h.eraseFolder_folders hc]
    refine find?_erase_of_ne hd hdc (fun x hx => ?_) ?_
    · rw [eraseFolder_folderName, if_neg hx]
    · simp [eraseFolder_folderName]
  fileIn h _ := h

theorem Wf.stable_snocFile (h : t.Wf) (p : FolderAddr) (name : CString) :
    t.Stable (t.snocFile p name) where
  brk_le := Nat.le_succ _
  folderName _ _ := rfl
  fileName ha _ := by rw [snocFile_fileName, if_neg (Nat.ne_of_lt ha)]
  child h _ := h
  fileIn := by
    intro q n a ha _
    have hcongr : ∀ x ∈ t.files q, ((t.snocFile p name).fileName x == some n) =
        (t.fileName x == some n) := fun x hx => by
      rw [snocFile_fileName, if_neg (Nat.ne_of_lt (h.file_lt (h.file_alive hx)))]
    have hold : (t.files q).find? (fun x => (t.snocFile p name).fileName x == some n) =
        some a := by
      rw [← ha]
      exact List.find?_congr hcongr
    unfold NameTree.fileIn
    by_cases hq : q = p
    · subst hq
      simp only [NameTree.snocFile, update_self] at hold ⊢
      rw [List.find?_append, hold, Option.some_or]
    · simpa [NameTree.snocFile, hq] using hold

/-- A new folder with a new name hides nothing. -/
theorem Wf.stable_consFolder (h : t.Wf)
    (hnone : t.child p name = none) : t.Stable (t.consFolder p name) where
  brk_le := Nat.le_succ _
  folderName ha _ := by rw [consFolder_folderName, if_neg (Nat.ne_of_lt ha)]
  fileName _ _ := rfl
  child := by
    intro q n c hc _
    have hcongr : ∀ x ∈ t.folders q, ((t.consFolder p name).folderName x == some n) =
        (t.folderName x == some n) := fun x hx => by
      rw [consFolder_folderName, if_neg (Nat.ne_of_lt (h.folder_lt (h.child_alive hx)))]
    have hold : (t.folders q).find? (fun x => (t.consFolder p name).folderName x == some n) =
        some c := by
      rw [← hc]
      exact List.find?_congr hcongr
    unfold NameTree.child
    by_cases hq : q = p
    · subst hq
      have hne : n ≠ name := by
        rintro rfl
        rw [hnone] at hc
        cases hc
      simp only [NameTree.consFolder, update_self] at hold ⊢
      rw [List.find?_cons_of_neg (by simpa using hne.symm), hold]
    · simpa [NameTree.consFolder, hq] using hold
  fileIn h _ := h

variable (names : List CString)

theorem consFolders_files (p : FolderAddr) :
    (t.consFolders p names).files = t.files ∧
      (t.consFolders p names).fileName = t.fileName := by
  induction names generalizing t with
  | nil => exact ⟨rfl, rfl⟩
  | cons name names ih => exact ih (t := t.consFolder p name)

theorem brk_le_consFolders (p : FolderAddr) :
    t.brk ≤ (t.consFolders p names).brk := by
  induction names generalizing t with
  | nil => exact Nat.le_refl _
  | cons name names ih => exact Nat.le_trans (Nat.le_succ _) (ih (t := t.consFolder p name))

theorem consFolders_folderName (p : FolderAddr) {a : FolderAddr}
    (ha : a < t.brk) : (t.consFolders p names).folderName a = t.folderName a := by
  induction names generalizing t with
  | nil => rfl
  | cons name names ih =>
    have := ih (t := t.consFolder p name) (Nat.lt_succ_of_lt ha)
    rw [consFolder_folderName, if_neg (Nat.ne_of_lt ha)] at this
    exact this

theorem consFolders_folders_of_ne (hq : q ≠ p) :
    (t.consFolders p names).folders q = t.folders q := by
  induction names generalizing t with
  | nil => rfl
  | cons name names ih =>
    have := ih (t := t.consFolder p name)
    rw [show (t.consFolder p name).folders q = t.folders q by simp [consFolder, hq]] at this
    exact this

/-- A subfolder that is not new was there before. -/
theorem mem_consFolders_old
    (hc : c ∈ (t.consFolders p names).folders q) (hold : c < t.brk) : c ∈ t.folders q := by
  induction names generalizing t with
  | nil => exact hc
  | cons name names ih =>
    have hc' := ih (t := t.consFolder p name) hc (Nat.lt_succ_of_lt hold)
    rcases mem_consFolder.mp hc' with ⟨rfl, -⟩ | hc'
    · exact absurd hold (Nat.lt_irrefl _)
    · exact hc'

/-- A subfolder that was there before stays. -/
theorem mem_consFolders_of_mem (hc : c ∈ t.folders q) : c ∈ (t.consFolders p names).folders q := by
  induction names generalizing t with
  | nil => exact hc
  | cons name names ih => exact ih (t := t.consFolder p name) (mem_consFolder.mpr (Or.inr hc))

/-- A subfolder was there before, or has one of the new names. -/
theorem mem_consFolders_name (hc : c ∈ (t.consFolders p names).folders p) : c ∈ t.folders p ∨
      ∃ name ∈ names, (t.consFolders p names).folderName c = some name := by
  induction names generalizing t with
  | nil => exact Or.inl hc
  | cons name names ih =>
    rcases ih (t := t.consFolder p name) hc with hc' | ⟨n, hn, hname⟩
    · rcases mem_consFolder.mp hc' with ⟨rfl, -⟩ | hold
      · refine Or.inr ⟨name, List.mem_cons_self, ?_⟩
        have hkept := consFolders_folderName (t := t.consFolder p name) names p
          (Nat.lt_succ_self t.brk)
        rwa [consFolder_folderName, if_pos rfl] at hkept
      · exact Or.inl hold
    · exact Or.inr ⟨n, List.mem_cons_of_mem name hn, hname⟩

/-- Each of the new names has a subfolder. -/
theorem exists_consFolders_name (p : FolderAddr) :
    ∀ name ∈ names, ∃ c ∈ (t.consFolders p names).folders p,
      (t.consFolders p names).folderName c = some name := by
  induction names generalizing t with
  | nil =>
    intro name hmem
    cases hmem
  | cons n names ih =>
    intro name hmem
    rcases List.mem_cons.mp hmem with rfl | hmem
    · have hkept := consFolders_folderName (t := t.consFolder p name) names p
        (Nat.lt_succ_self t.brk)
      rw [consFolder_folderName, if_pos rfl] at hkept
      have hnew : t.brk ∈ (t.consFolder p name).folders p :=
        mem_consFolder.mpr (Or.inl ⟨rfl, rfl⟩)
      exact ⟨t.brk, mem_consFolders_of_mem names hnew, hkept⟩
    · exact ih (t := t.consFolder p n) name hmem

/-- Listing an emptied folder anew changes nothing that was found before. -/
theorem Wf.stable_consFolders (h : t.Wf) (hp : t.folders p = [])
    (names : List CString) : t.Stable (t.consFolders p names) where
  brk_le := brk_le_consFolders names p
  folderName ha _ := consFolders_folderName names p ha
  fileName _ _ := congrFun (consFolders_files names p).2 _
  child := by
    intro q n c hc _
    have hmem := (child_eq_some hc).1
    have hq : q ≠ p := by
      rintro rfl
      rw [hp] at hmem
      cases hmem
    unfold NameTree.child
    rw [consFolders_folders_of_ne names hq, ← hc]
    refine List.find?_congr fun x hx => ?_
    rw [consFolders_folderName names p (h.folder_lt (h.child_alive hx))]
  fileIn := by
    intro q n a ha _
    unfold NameTree.fileIn
    rw [(consFolders_files names p).1, (consFolders_files names p).2]
    exact ha

/-! ### Distinct names -/

theorem new_distinct (brk : Nat) : (new brk).Distinct := fun _ _ _ ha => by cases ha

section
variable (h : t.Distinct)
include h

/-- A path leads to one folder at most. -/
theorem Distinct.at_unique (hp : t.At p path) (hq : t.At q path) : p = q := by
  have hw := h.walk_of_at hp
  rwa [h.walk_of_at hq, Option.some.injEq, eq_comm] at hw

theorem Distinct.eraseFolder (hwf : t.Wf)
    (hc : c ∈ t.folders p) : (t.eraseFolder p c).Distinct := by
  intro q a b ha hb hn
  obtain ⟨ha, hac⟩ := (hwf.mem_eraseFolder hc).mp ha
  obtain ⟨hb, hbc⟩ := (hwf.mem_eraseFolder hc).mp hb
  rw [eraseFolder_folderName, if_neg hac, eraseFolder_folderName, if_neg hbc] at hn
  exact h q a b ha hb hn

/-- A folder that was erased is not found again. -/
theorem Distinct.child_eraseFolder (hwf : t.Wf)
    (hc : t.child p name = some c) :
    (t.eraseFolder p c).child p name = none := by
  obtain ⟨hmem, hname⟩ := child_eq_some hc
  refine child_eq_none.mpr fun b hb hbn => ?_
  obtain ⟨hb, hne⟩ := (hwf.mem_eraseFolder hmem).mp hb
  rw [eraseFolder_folderName, if_neg hne] at hbn
  exact hne (h p b c hb hmem (hbn.trans hname.symm))

/-- A folder with a new name keeps the names distinct. -/
theorem Distinct.consFolder (hwf : t.Wf)
    (hnone : t.child p name = none) : (t.consFolder p name).Distinct := by
  have hold : ∀ {q c}, c ∈ t.folders q →
      (t.consFolder p name).folderName c = t.folderName c := fun hc => by
    rw [consFolder_folderName, if_neg (Nat.ne_of_lt (hwf.folder_lt (hwf.child_alive hc)))]
  have hbrk : (t.consFolder p name).folderName t.brk = some name := by
    rw [consFolder_folderName, if_pos rfl]
  intro q a b ha hb hn
  rcases mem_consFolder.mp ha with ⟨rfl, rfl⟩ | ha <;>
    rcases mem_consFolder.mp hb with ⟨rfl, hqp⟩ | hb
  · rfl
  · rw [hbrk, hold hb] at hn
    exact absurd hn.symm (child_eq_none.mp hnone b hb)
  · rw [hbrk, hold ha] at hn
    exact absurd hn (child_eq_none.mp hnone a (hqp ▸ ha))
  · rw [hold ha, hold hb] at hn
    exact h q a b ha hb hn

/-- So do several new ones. -/
theorem Distinct.consFolders (hwf : t.Wf)
    (hp : t.folderName p ≠ none) {names : List CString} (hnd : names.Nodup)
    (hnew : ∀ name ∈ names, t.child p name = none) : (t.consFolders p names).Distinct := by
  induction names generalizing t with
  | nil => exact h
  | cons name names ih =>
    obtain ⟨hnot, hnd⟩ := List.nodup_cons.mp hnd
    have hname := hnew name List.mem_cons_self
    refine ih (h.consFolder hwf hname) (hwf.consFolder hp name) ?_ hnd fun n hn => ?_
    · rw [consFolder_folderName, if_neg (Nat.ne_of_lt (hwf.folder_lt hp))]
      exact hp
    · refine child_eq_none.mpr fun c hc hcn => ?_
      rw [consFolder_folderName] at hcn
      rcases mem_consFolder.mp hc with ⟨rfl, -⟩ | hc
      · rw [if_pos rfl, Option.some.injEq] at hcn
        exact hnot (hcn ▸ hn)
      · rw [if_neg (Nat.ne_of_lt (hwf.folder_lt (hwf.child_alive hc)))] at hcn
        exact child_eq_none.mp (hnew n (List.mem_cons_of_mem _ hn)) c hc hcn

end

/-! ### Places of files -/

/-- A folder hangs under one path only. -/
theorem Wf.path_unique (h : t.Wf) {path' : List CString}
    (hp : t.At p path) (hp' : t.At p path') : path = path' := by
  induction hp generalizing path' with
  | root =>
    cases hp' with
    | root => rfl
    | child _ hc _ => exact absurd (h.child_gt hc) (Nat.not_lt_zero _)
  | child _ hc hn ih =>
    cases hp' with
    | root => exact absurd (h.child_gt hc) (Nat.not_lt_zero _)
    | child hq hc' hn' =>
      obtain rfl := h.parent_unique hc hc'
      rw [hn, Option.some.injEq] at hn'
      rw [ih hq, hn']

/-- A file lies in one place only. -/
theorem Wf.place_unique (h : t.Wf) {path' : List CString} {name' : CString}
    (ha : t.FileAt path name a) (ha' : t.FileAt path' name' a) :
    path = path' ∧ name = name' := by
  obtain ⟨p, hp, hmem, hname⟩ := ha
  obtain ⟨q, hq, hmem', hname'⟩ := ha'
  obtain rfl := h.owner_unique hmem hmem'
  rw [hname, Option.some.injEq] at hname'
  exact ⟨h.path_unique hp hq, hname'⟩

/-- Where names are distinct, a place holds one file only. -/
theorem Distinct.file_unique (hd : t.Distinct) (h : t.Wf)
    (ha : t.FileAt path name a) (hb : t.FileAt path name b) :
    a = b := by
  obtain ⟨p, hp, hmem, hname⟩ := ha
  obtain ⟨q, hq, hmem', hname'⟩ := hb
  obtain rfl := hd.at_unique hp hq
  exact h.files_distinct hmem hmem' (hname.trans hname'.symm)

/-- Folders of a part of a tree hang where they hung. -/
theorem At.mono (h : t'.At p path)
    (hsub : ∀ {q c name}, c ∈ t'.folders q → t'.folderName c = some name →
      c ∈ t.folders q ∧ t.folderName c = some name) : t.At p path := by
  induction h with
  | root => exact .root
  | child _ hc hn ih =>
    obtain ⟨hc, hn⟩ := hsub hc hn
    exact ih.child hc hn

variable (h : t.Wf)
include h

theorem Wf.fileAt_eraseFile (ha : a ∈ t.files p)
    (hb : (t.eraseFile p a).FileAt path name b) :
    t.FileAt path name b ∧ b ≠ a := by
  obtain ⟨q, hq, hmem, hname⟩ := hb
  obtain ⟨hmem, hne⟩ := (h.mem_eraseFile ha).mp hmem
  rw [eraseFile_fileName, if_neg hne] at hname
  exact ⟨⟨q, hq.mono fun hc hn => ⟨hc, hn⟩, hmem, hname⟩, hne⟩

theorem Wf.fileAt_eraseFolder (hc : c ∈ t.folders p)
    (ha : (t.eraseFolder p c).FileAt path name a) : t.FileAt path name a := by
  obtain ⟨q, hq, hmem, hname⟩ := ha
  refine ⟨q, hq.mono fun hd hn => ?_, hmem, hname⟩
  obtain ⟨hd, hne⟩ := (h.mem_eraseFolder hc).mp hd
  rw [eraseFolder_folderName, if_neg hne] at hn
  exact ⟨hd, hn⟩

/-- A new folder holds no file, and the old ones hang where they hung. -/
theorem Wf.fileAt_consFolder {n : CString}
    (ha : (t.consFolder p n).FileAt path name a) : t.FileAt path name a := by
  obtain ⟨q, hq, hmem, hname⟩ := ha
  have halive : t.folderName q ≠ none := h.owner_alive hmem
  have key : ∀ {q path}, (t.consFolder p n).At q path → t.folderName q ≠ none →
      t.At q path := by
    intro q path hq
    induction hq with
    | root => exact fun _ => .root
    | child _ hc hn ih =>
      intro halive
      have hlt := h.folder_lt halive
      rw [consFolder_folderName, if_neg (Nat.ne_of_lt hlt)] at hn
      rcases mem_consFolder.mp hc with ⟨rfl, -⟩ | hc
      · exact absurd hlt (Nat.lt_irrefl _)
      · exact (ih (h.parent_alive hc)).child hc hn
  exact ⟨q, key hq halive, hmem, hname⟩

theorem Wf.fileAt_consFolders (hp : t.folderName p ≠ none)
    {names : List CString}
    (ha : (t.consFolders p names).FileAt path name a) : t.FileAt path name a := by
  induction names generalizing t with
  | nil => exact ha
  | cons n names ih =>
    refine h.fileAt_consFolder (ih (t := t.consFolder p n) (h.consFolder hp n) ?_ ha)
    rw [consFolder_folderName, if_neg (Nat.ne_of_lt (h.folder_lt hp))]
    exact hp

theorem Wf.fileAt_snocFile {n : CString}
    (ha : (t.snocFile p n).FileAt path name a) :
    (t.FileAt path name a ∧ a ≠ t.brk) ∨ (a = t.brk ∧ name = n ∧ t.At p path) := by
  obtain ⟨q, hq, hmem, hname⟩ := ha
  have hq' : t.At q path := hq.mono fun hc hn => ⟨hc, hn⟩
  rcases mem_snocFile.mp hmem with hmem | ⟨rfl, rfl⟩
  · have hne : a ≠ t.brk := Nat.ne_of_lt (h.file_lt (h.file_alive hmem))
    rw [snocFile_fileName, if_neg hne] at hname
    exact Or.inl ⟨⟨q, hq', hmem, hname⟩, hne⟩
  · rw [snocFile_fileName, if_pos rfl, Option.some.injEq] at hname
    exact Or.inr ⟨rfl, hname.symm, hq'⟩

end NameTree

end GPhoto2
