import GPhoto2.Proofs.Filesys.ExecSteps
import Mathlib.Data.List.Perm.Subperm

/-!
# `GPhoto2.Proofs.Filesys.LruEffect`: what a step does to the LRU list

`LruEffect w w' l` lists all a step can do to a well-formed LRU list `l` and to the contents
of its entries: leave them alone, drop an entry that is deleted, clear the list, evict its
first entry, move an entry to the end and store a content in it, or fill a `CameraFile` on
behalf of a caller. `Step.lruEffect` is the one case analysis; the invariants of the list and
of `lru_size` both come from it.
-/

set_option autoImplicit false

namespace GPhoto2

open Lib Relation
open Option (bind_some map_some)

variable {σ : Type}

/-- What the trace would keep of one content of an entry. -/
def World.contentAt (w : World σ) (a : FileAddr) (type : CameraFileType) :
    Option (Except Int Nat) :=
  (w.fs.files a).bind fun f => w.content f type

/-- The contents that count are the same. -/
def SameContent (w w' : World σ) (a : FileAddr) : Prop :=
  ∀ type, type.big → w'.contentAt a type = w.contentAt a type

/-- What a step does to the list `l`. -/
inductive LruEffect (w w' : World σ) (l : List FileAddr) : Prop
  | quiet (hchain : w'.fs.LruChain l) (hsize : w'.fs.lruSize = w.fs.lruSize)
      (hsame : ∀ a ∈ l, SameContent w w' a)
  | dropFile (a : FileAddr) (f : CameraFilesystemFile) (hf : w.fs.files a = some f)
      (hlog : .dropFile (w.lruEntry a f) ∈ w'.log) (hchain : w'.fs.LruChain (l.erase a))
      (hsize : w'.fs.lruSize = w.fs.lruSize) (hsame : ∀ b ∈ l, b ≠ a → SameContent w w' b)
  | clear (hchain : w'.fs.LruChain [])
      (hsize : w'.fs.lruSize = if l = [] then w.fs.lruSize else 0)
  | free (ptr : FileAddr) (rest : List FileAddr) (f : CameraFilesystemFile)
      (hl : l = ptr :: rest) (hf : w.fs.files ptr = some f)
      (hlog : .lruFree (w.lruEntry ptr f) ∈ w'.log)
      (heffect : (w.lruEntry ptr f).sized → w'.fs.LruChain rest ∧
        (∀ b, b ≠ ptr → SameContent w w' b) ∧
        ((w.lruEntry ptr f).total ≤ w.fs.lruSize → w.fs.lruSize < 2 ^ 64 →
          w'.fs.lruSize = w.fs.lruSize - (w.lruEntry ptr f).total))
  | store (x : FileAddr) (f : CameraFilesystemFile) (type : CameraFileType) (size : Nat)
      (hbig : type.big) (hf : w.fs.files x = some f)
      (hlog : .lruUpdate (w.lruEntry x f) type size w.fs.lruSize ∈ w'.log)
      (hchain : w'.fs.LruChain (l.erase x ++ [x]))
      (hsame : ∀ b, b ≠ x → SameContent w w' b)
      (hother : ∀ type', type'.big → type' ≠ type →
        w'.contentAt x type' = w.contentAt x type')
      (hnew : w'.contentAt x type = some (.ok size))
      (hoff : x ∉ l → w.fs.lruSize + size < 2 ^ 64 → w'.fs.lruSize = w.fs.lruSize + size)
      (hon : x ∈ l → contentSize (w.content f type) ≤ w.fs.lruSize → w.fs.lruSize < 2 ^ 64 →
        w.fs.lruSize - contentSize (w.content f type) + size < 2 ^ 64 →
        w'.fs.lruSize = w.fs.lruSize - contentSize (w.content f type) + size)
  | fill (file : CameraFileRef) (hlog : .getFile file (w.isCached file) ∈ w'.log)
      (hchain : w'.fs.LruChain l) (hsize : w'.fs.lruSize = w.fs.lruSize)
      (hsame : w.isCached file = false → ∀ a ∈ l, SameContent w w' a)

section
variable {w w' : World σ} {l : List FileAddr}

open CameraFilesystem

variable {a : FileAddr}

theorem contentAt_eq {f : CameraFilesystemFile} (hf : w.fs.files a = some f)
    (type : CameraFileType) : w.contentAt a type = w.content f type := by
  simp [World.contentAt, hf]

/-- Contents depend on the slots and on the sizes of the `CameraFile`s. -/
theorem SameContent.of_unlinked
    (hfile : (w'.fs.files a).map (·.unlinked) = (w.fs.files a).map (·.unlinked))
    (hcam : w'.cameraFile = w.cameraFile) : SameContent w w' a := by
  intro type _
  unfold World.contentAt World.content
  rw [hcam]
  cases hf : w.fs.files a with
  | none =>
    rw [hf, Option.map_none, Option.map_eq_none_iff] at hfile
    rw [hfile]
  | some f =>
    rw [hf, map_some, Option.map_eq_some_iff] at hfile
    obtain ⟨f', hf', heq⟩ := hfile
    rw [hf', bind_some, bind_some, ← f'.slot_unlinked, heq, f.slot_unlinked]

section
variable (h : w.fs.LruChain l)
include h

/-- The number of entries on the list is bounded by the number of addresses handed out. -/
theorem length_le_of_lruChain (hwf : w.tree.Wf) : l.length ≤ w.brk := by
  have hsub : l ⊆ List.range w.brk := by
    intro a ha
    exact List.mem_range.mpr (hwf.file_lt (fileName_ne_none.mpr (h.isSome ha)))
  simpa using (List.Nodup.subperm h.nodup hsub).length_le

/-! ### Steps that leave the list alone -/

theorem LruEffect.of_files (hfiles : w'.fs.files = w.fs.files)
    (hfirst : w'.fs.lruFirst = w.fs.lruFirst) (hlast : w'.fs.lruLast = w.fs.lruLast)
    (hsize : w'.fs.lruSize = w.fs.lruSize) (hcam : w'.cameraFile = w.cameraFile) :
    LruEffect w w' l := by
  refine .quiet (h.congr (fun a => ?_) (fun a => ?_) hfirst hlast) hsize fun a _ =>
    .of_unlinked (by rw [hfiles]) hcam
  · rw [lruNext, hfiles, lruNext]
  · rw [lruPrev, hfiles, lruPrev]

/-- A step that writes one file entry, but neither its pointers nor the contents that
count. -/
theorem LruEffect.of_file {g : CameraFilesystemFile}
    (hfiles : w'.fs.files = Function.update w.fs.files a (some g))
    (hnext : g.lruNext = w.fs.lruNext a) (hprev : g.lruPrev = w.fs.lruPrev a)
    (hcontent : a ∈ l → ∀ type, type.big → w.content g type = w.contentAt a type)
    (hfirst : w'.fs.lruFirst = w.fs.lruFirst) (hlast : w'.fs.lruLast = w.fs.lruLast)
    (hsize : w'.fs.lruSize = w.fs.lruSize) (hcam : w'.cameraFile = w.cameraFile) :
    LruEffect w w' l := by
  refine .quiet (h.congr (fun b => ?_) (fun b => ?_) hfirst hlast) hsize fun b hb => ?_
  · by_cases hba : b = a
    · subst hba
      simp [lruNext, hfiles, hnext]
    · simp [lruNext, hfiles, hba]
  · by_cases hba : b = a
    · subst hba
      simp [lruPrev, hfiles, hprev]
    · simp [lruPrev, hfiles, hba]
  · by_cases hba : b = a
    · subst hba
      intro type hbig
      rw [← hcontent hb type hbig]
      simp [World.contentAt, World.content, hfiles, hcam]
    · exact .of_unlinked (by simp [hfiles, hba]) hcam

theorem LruEffect.of_snocFile (hwf : w.tree.Wf) {p : FolderAddr}
    {fo : CameraFilesystemFolder} {name : CString} {r : Option CameraFileRef}
    (hfs : w'.fs = (w.snocFile p fo (.new name r)).fs) (hcam : w'.cameraFile = w.cameraFile) :
    LruEffect w w' l := by
  have hnone : w.fs.files w.brk = none := by
    by_contra hne
    exact Nat.lt_irrefl _ (hwf.file_lt (fileName_ne_none.mpr (Option.ne_none_iff_exists'.mp hne)))
  refine .of_file h (a := w.brk) (g := .new name r) (by rw [hfs]; rfl) ?_ ?_ ?_
    (by rw [hfs]; rfl) (by rw [hfs]; rfl) (by rw [hfs]; rfl) hcam
  · simp [lruNext, hnone, CameraFilesystemFile.new]
  · simp [lruPrev, hnone, CameraFilesystemFile.new]
  · intro hmem
    obtain ⟨f, hf⟩ := h.isSome hmem
    rw [hnone] at hf
    cases hf

theorem lruChain_snocFile (hwf : w.tree.Wf) (p : FolderAddr)
    (fo : CameraFilesystemFolder) (name : CString) :
    (w.snocFile p fo (.new name none)).fs.LruChain l := by
  have hfree : w.fs.files w.brk = none := by
    by_contra hne
    exact Nat.lt_irrefl _
      (hwf.file_lt (fileName_ne_none.mpr (Option.ne_none_iff_exists'.mp hne)))
  refine h.congr (fun a => ?_) (fun a => ?_) rfl rfl
  · by_cases ha : a = w.brk
    · simp [CameraFilesystem.lruNext, World.snocFile, ha, hfree, CameraFilesystemFile.new]
    · simp [CameraFilesystem.lruNext, World.snocFile, ha]
  · by_cases ha : a = w.brk
    · simp [CameraFilesystem.lruPrev, World.snocFile, ha, hfree, CameraFilesystemFile.new]
    · simp [CameraFilesystem.lruPrev, World.snocFile, ha]

/-! ### Steps that change the list -/

theorem LruChain.freed (ha : a ∉ l)
    (hfiles : w'.fs.files = Function.update w.fs.files a none)
    (hfirst : w'.fs.lruFirst = w.fs.lruFirst) (hlast : w'.fs.lruLast = w.fs.lruLast) :
    w'.fs.LruChain l := by
  obtain ⟨hnext, hprev⟩ := SelfHeadedList.off h a ha
  refine h.congr (fun b => ?_) (fun b => ?_) hfirst hlast
  · by_cases hba : b = a
    · subst hba
      rw [hnext]
      simp [lruNext, hfiles]
    · simp [lruNext, hfiles, hba]
  · by_cases hba : b = a
    · subst hba
      rw [hprev]
      simp [lruPrev, hfiles]
    · simp [lruPrev, hfiles, hba]

theorem lruRemoveOne_erase {f : CameraFilesystemFile}
    (hf : w.fs.files a = some f) : ∃ r w₁, gpFilesystemLruRemoveOne a w = some (r, w₁) ∧
      w₁.fs.LruChain (l.erase a) ∧ w₁.fs.lruSize = w.fs.lruSize := by
  by_cases hmem : a ∈ l
  · obtain ⟨w₁, hrun, hchain, hsize⟩ := lruRemoveOne_run h hmem
    exact ⟨_, w₁, hrun, hchain, hsize⟩
  · refine ⟨_, w, lruRemoveOne_off hf ?_, ?_, rfl⟩
    · rw [← lruPrev_eq hf]
      exact (SelfHeadedList.off h a hmem).2
    · rw [List.erase_of_not_mem hmem]
      exact h

end

variable {r : Except Int Unit}

section
variable (h : w.fs.LruChain l)
include h

theorem dropFile_lruChain {p : FolderAddr}
    (hdrop : GPhoto2.dropFile p a w = some (r, w')) :
    w'.fs.LruChain (l.erase a) ∧ w'.fs.lruSize = w.fs.lruSize := by
  obtain ⟨f, w₁, fo, r₁, hf, -, -, h₁, rfl⟩ := dropFile_eq_some hdrop
  obtain ⟨r₂, w₂, hrun, hchain, hsize⟩ := lruRemoveOne_erase
    (w := { w with log := w.log ++ [.dropFile (w.lruEntry a f)] }) h hf
  rw [hrun, Option.some.injEq, Prod.mk.injEq] at h₁
  obtain ⟨-, rfl⟩ := h₁
  exact ⟨LruChain.freed hchain (fun hm => (h.nodup.mem_erase_iff.mp hm).1 rfl) rfl rfl rfl,
    hsize⟩

theorem LruEffect.of_dropFile {p : FolderAddr}
    (hdrop : GPhoto2.dropFile p a w = some (r, w')) : LruEffect w w' l := by
  obtain ⟨hchain, hsize⟩ := dropFile_lruChain h hdrop
  obtain ⟨f, w₁, fo, r₁, hf, -, -, h₁, rfl⟩ := dropFile_eq_some hdrop
  have hframe := LruFrame.of_dropFile h₁
  refine .dropFile a f hf ?_ hchain hsize fun b hb hne => ?_
  · show _ ∈ w₁.log
    rw [hframe.log]
    exact List.mem_append_right _ (List.mem_singleton_self _)
  · refine .of_unlinked ?_ hframe.cameraFile
    simp only [World.setFile_fs_files, Function.update_of_ne hne]
    exact hframe.files b

theorem LruEffect.of_lookupStep (hwf : w.tree.Wf)
    (hstep : LookupStep w w') : LruEffect w w' l := by
  cases hstep with
  | env s => exact .of_files h rfl rfl rfl rfl rfl
  | folderListFunc path answer => exact .of_files h rfl rfl rfl rfl rfl
  | foldersClean p fo hp => exact .of_files h rfl rfl rfl rfl rfl
  | dropFile _ p a ha hdrop => exact .of_dropFile h hdrop
  | dropFolder p c fo hp hc hfolders hfiles => exact .of_files h rfl rfl rfl rfl rfl
  | relist _ p path names hlog hempty happend =>
    rcases appendFolders_alive hwf happend with rfl | ⟨fo, hp⟩
    · cases happend
      exact .of_files h rfl rfl rfl rfl rfl
    · obtain ⟨-, -, ⟨_, _, rfl⟩, -⟩ := appendFolders_run hwf hp happend
      exact .of_files h rfl rfl rfl rfl rfl

theorem LruEffect.of_treeStep (hwf : w.tree.Wf)
    (hstep : TreeStep w w') : LruEffect w w' l := by
  cases hstep with
  | lookup hstep => exact .of_lookupStep h hwf hstep
  | fileListFunc path answer => exact .of_files h rfl rfl rfl rfl rfl
  | filesClean p fo hp => exact .of_files h rfl rfl rfl rfl rfl
  | newFile p fo name hp hnone => exact .of_snocFile h hwf rfl rfl

theorem LruEffect.of_lruFree (hrun : gpFilesystemLruFree w = some (r, w')) : LruEffect w w' l := by
  rcases lruFree_cases hrun with ⟨-, rfl⟩ | ⟨ptr, f, hfirst, hf, hframe⟩
  · exact .of_files h rfl rfl rfl rfl rfl
  · have hl : ∃ rest, l = ptr :: rest := by
      cases l with
      | nil =>
        rw [(SelfHeadedList.first_eq_none_iff h).mpr rfl] at hfirst
        cases hfirst
      | cons a rest =>
        have hhead : w.fs.lruFirst = some a := SelfHeadedList.first_eq h
        rw [hhead, Option.some.injEq] at hfirst
        exact ⟨rest, by rw [hfirst]⟩
    obtain ⟨rest, rfl⟩ := hl
    refine .free ptr rest f rfl hf ?_ fun hsized => ?_
    · rw [hframe.log]
      exact List.mem_append_right _ (List.mem_singleton_self _)
    · obtain ⟨w₁, hrun₁, hchain, hother, -, hcam, hsize⟩ := lruFree_run h hf hsized
      rw [hrun, Option.some.injEq, Prod.mk.injEq] at hrun₁
      obtain ⟨-, rfl⟩ := hrun₁
      exact ⟨hchain, fun b hb => .of_unlinked (hother b hb) hcam, hsize⟩

end

variable {type : CameraFileType} {file : CameraFileRef}

/-- An accounting that is not followed by a write has failed, and changed nothing. -/
theorem LruEffect.of_failed (h : w.fs.LruChain l) (hwf : w.tree.Wf) {x : FileAddr}
    {size : Nat}
    (hbig : type.big) (hsize : gpFileGetSize (w.cameraFile file) = .ok size)
    (hrun : lruInsert x type file size w = some (r, w'))
    (hfail : r = .ok () → gpFilesystemLruCheck w' ≠ some (.ok (), w')) : LruEffect w w' l := by
  obtain ⟨f, hf, hframe⟩ := lruInsert_cases hrun
  rcases lruInsert_run h hf hbig hsize with ⟨-, -, e, he⟩ | ⟨w₁, hrun₁, hchain, -, -⟩
  · rw [hrun, Option.some.injEq, Prod.mk.injEq] at he
    obtain ⟨-, rfl⟩ := he
    exact .of_files h rfl rfl rfl rfl rfl
  · rw [hrun, Option.some.injEq, Prod.mk.injEq] at hrun₁
    obtain ⟨rfl, rfl⟩ := hrun₁
    have hwf' : w'.tree.Wf := by rwa [hframe.tree]
    exact absurd (lruCheck_run hchain (length_le_of_lruChain hchain hwf')) (hfail rfl)

theorem big_known (h : type.big) (n : Nat) : type ≠ .unknown n := by
  rintro rfl
  rcases h with h | h | h <;> cases h

theorem LruEffect.of_store (h : w.fs.LruChain l) {folder filename : CString} {x : FileAddr}
    {size : Nat}
    (hsize : type.big → gpFileGetSize (w.cameraFile file) = .ok size)
    (hrun : storeContent folder filename x type file size w = some (.ok (), w')) :
    LruEffect w w' l := by
  obtain ⟨w₁, f₁, hcase, -, hf₁, rfl⟩ := storeContent_cases hrun
  have hlru : (f₁.setSlot (some file) type).lruNext = f₁.lruNext ∧
      (f₁.setSlot (some file) type).lruPrev = f₁.lruPrev := by
    cases type <;> exact ⟨rfl, rfl⟩
  rcases hcase with ⟨hbig, hinsert⟩ | ⟨hsmall, rfl⟩
  · obtain ⟨f, hf, hframe⟩ := lruInsert_cases hinsert
    rcases lruInsert_run h hf hbig (hsize hbig) with ⟨-, -, e, he⟩ | ⟨w₂, hrun₂, hchain, hoff, hon⟩
    · rw [hinsert] at he
      cases he
    rw [hinsert, Option.some.injEq, Prod.mk.injEq] at hrun₂
    obtain ⟨-, rfl⟩ := hrun₂
    have hcam : w₁.cameraFile = w.cameraFile := hframe.cameraFile
    have hsame₁ : ∀ b, SameContent w w₁ b := fun b => .of_unlinked (hframe.files b) hcam
    refine .store x f type size hbig hf ?_ ?_ (fun b hb type' hbig' => ?_)
      (fun type' hbig' hne => ?_) ?_ hoff hon
    · refine List.mem_append_left _ ?_
      rw [hframe.log]
      exact List.mem_append_right _ (List.mem_singleton_self _)
    · obtain ⟨hnext, hprev⟩ := lruNext_setSlot w₁.fs
        (w₁.setFile x (some (f₁.setSlot (some file) type))).fs hf₁ rfl
      exact hchain.congr (fun a => by rw [← hnext]) (fun a => by rw [← hprev]) rfl rfl
    · rw [← hsame₁ b type' hbig']
      simp [World.contentAt, World.content, hb]
    · rw [← hsame₁ x type' hbig', contentAt_eq hf₁]
      simp [World.contentAt, World.content, CameraFilesystemFile.slot_setSlot_of_ne _ _ hne]
    · have hslot := f₁.slot_setSlot_self (some file) (big_known hbig)
      simp [World.contentAt, World.content, hslot, hcam, hsize hbig]
  · refine .of_file h (a := x) rfl ?_ ?_ (fun _ type' hbig' => ?_) rfl rfl rfl rfl
    · rw [hlru.1, lruNext_eq hf₁]
    · rw [hlru.2, lruPrev_eq hf₁]
    · have hne : type' ≠ type := fun e => hsmall (e ▸ hbig')
      rw [contentAt_eq hf₁]
      unfold World.content
      rw [CameraFilesystemFile.slot_setSlot_of_ne _ _ hne]

/-- Filling a `CameraFile` that no entry holds leaves the contents alone. -/
theorem sameContent_setCameraFile (hwf : w.tree.Wf) {c : CameraFile}
    (hcached : w.isCached file = false) (hfs : w'.fs = w.fs)
    (hcam : w'.cameraFile = Function.update w.cameraFile file c) (a : FileAddr) :
    SameContent w w' a := by
  intro type _
  unfold World.contentAt
  rw [hfs]
  cases hf : w.fs.files a with
  | none => rfl
  | some f =>
    rw [bind_some, bind_some]
    unfold World.content
    cases hslot : f.slot type with
    | none => rfl
    | some r =>
      have hne := ne_of_isCached_eq_false hwf hcached hf hslot
      rw [map_some, map_some, hcam, Function.update_of_ne hne]

theorem Step.lruEffect (hstep : Step w w') (hwf : w.tree.Wf) (h : w.fs.LruChain l) :
    LruEffect w w' l := by
  cases hstep with
  | tree hstep => exact .of_treeStep h hwf hstep
  | filesDirty p fo hp => exact .of_files h rfl rfl rfl rfl rfl
  | newFolder p fo name hp hnone => exact .of_files h rfl rfl rfl rfl rfl
  | makeDir p fo folder name hp => exact .of_files h rfl rfl rfl rfl rfl
  | removeDirFunc folder name => exact .of_files h rfl rfl rfl rfl rfl
  | info a f info dirty hf =>
    refine .of_file h (a := a) rfl (lruNext_eq hf).symm (lruPrev_eq hf).symm
      (fun _ type hbig => ?_) rfl rfl rfl rfl
    rw [contentAt_eq hf]
    rcases hbig with rfl | rfl | rfl <;> rfl
  | touch r c hdata hsize =>
    refine .quiet h rfl fun a _ type _ => ?_
    unfold World.contentAt
    refine congrArg _ (funext fun f => ?_)
    unfold World.content
    refine congrFun (congrArg _ (funext fun r' => ?_)) _
    by_cases hr : r' = r
    · subst hr
      simp [hsize]
    · simp [hr]
  | pictures n cached => exact .of_files h rfl rfl rfl rfl rfl
  | lruClear _ r hrun =>
    obtain ⟨w₁, hrun₁, hchain, hsize⟩ := lruClear_run h (length_le_of_lruChain h hwf)
    rw [hrun, Option.some.injEq, Prod.mk.injEq] at hrun₁
    obtain ⟨-, rfl⟩ := hrun₁
    exact .clear hchain hsize
  | lruFree _ r hrun => exact .of_lruFree h hrun
  | lruInsert _ x type file size r hbig hsize hrun hfail =>
    exact .of_failed h hwf hbig hsize hrun hfail
  | store _ folder filename f x type file size hat htype hsize hrun =>
    exact .of_store h hsize hrun
  | putFile folder filename type p fo file hat hp hnone => exact .of_snocFile h hwf rfl rfl
  | putFileRefused folder filename type data hother => exact .of_files h rfl rfl rfl rfl rfl
  | getFile file content s used hused =>
    exact .fill file (List.mem_append_right _ List.mem_cons_self) h rfl fun hcached a _ => by
      refine sameContent_setCameraFile (c := content) hwf hcached ?_ ?_ a <;> rfl
  | deletedFile folder filename p hat hnone => exact .of_files h rfl rfl rfl rfl rfl
  | deletedAll folder p hat hnone => exact .of_files h rfl rfl rfl rfl rfl
  | resetCall fo hroot => exact .of_files h rfl rfl rfl rfl rfl
  | resetDone fo hroot hcall hempty => exact .of_files h rfl rfl rfl rfl rfl

end

end GPhoto2
