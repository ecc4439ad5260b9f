import GPhoto2.Filesys.Ops
import GPhoto2.Lib.SelfHeadedList

/-!
# `GPhoto2.Proofs.Filesys.LruLinks`: the LRU functions edit a list

`LruChain fs l` says that the LRU pointers of the filesystem spell the list `l` of file
entries, in the sense of `Lib.SelfHeadedList`. On such a list each LRU function has a defined
outcome, and it is the list operation one expects: `gp_filesystem_lru_remove_one` erases
(`lruRemoveOne_run`), the end of `gp_filesystem_lru_update` appends (`lruAttach_run`),
`gp_filesystem_lru_clear` leaves the empty list (`lruClear_run`), and
`gp_filesystem_lru_check` finds nothing wrong (`lruCheck_run`).

`LruFrame` is the other half: whatever the pointers look like, these functions write
nothing but LRU pointers and `lru_size`.
-/

set_option autoImplicit false

/-! ## What the operations do after a branch

Several operations list a folder if it is dirty, or look at the kind of content, and then go on
in the same way. Here what comes after such a branch has a name, so that it is looked at once
for all branches. Each definition is the text of `GPhoto2.Filesys` from that point on.
-/

namespace GPhoto2

open Lib
open Lib.Comp (Keeps)

variable {σ : Type} (funcs : CameraFilesystemFuncs σ)

/-- `lruUncount` of a content that counts. -/
def uncountSlot (cached : Option CameraFileRef) : Fs σ Unit :=
  match cached with
  | none => pure ()
  | some oldfile => do
    let size ← cameraFileSize oldfile
    Comp.modify fun w => w.setLruSize (ulongSub w.fs.lruSize size)

/-- `lookup_folder`, after the folder has been listed. -/
def lookupFolderEnd (listFolders : CString → Fs σ (List CString)) (folder : FolderAddr)
    (name : CString) (rest : List (CString × CString)) : Fs σ (Option FolderAddr) := do
  let fo ← derefFolder folder
  let w ← Comp.get
  match w.fs.findFolder fo.folders name with
  | none => pure none
  | some f => lookupFolderLoop listFolders f rest

/-- The functions that check their parameters, look a folder up and fail if it is not there. -/
def withFolder {α : Type} (folder : CString) (context : GPContext) (k : FolderAddr → Fs σ α) :
    Fs σ α := do
  checkCancel funcs context
  checkAbsolute folder
  match ← lookupFolder funcs folder context with
  | none => Comp.throw gpErrorDirectoryNotFound
  | some f => k f

/-- `gp_filesystem_list_folders`, after the folder has been listed. -/
def listFoldersClean (f : FolderAddr) : Fs σ (List CString) := do
  let fo ← derefFolder f
  let w ← Comp.get
  modifyFolder f fun fo => { fo with foldersDirty := false }
  pure (w.fs.folderNames fo.folders)

/-- `gp_filesystem_list_folders`, with the folder found. -/
def listFoldersFound (folder : CString) (context : GPContext) (f : FolderAddr) :
    Fs σ (List CString) := do
  let fo ← derefFolder f
  match fo.foldersDirty, funcs.folderListFunc with
  | true, some folderList => do
    let answer ← callEnv (folderList folder)
    trace (.folderListFunc folder answer)
    let names ← Comp.ofExcept answer
    deleteAllFolders funcs folder context
    names.forM fun name => do
      let _ ← appendFolderOne f name
    listFoldersClean f
  | _, _ => listFoldersClean f

/-- `gp_filesystem_list_files`, with the folder clean. -/
def listFilesClean (f : FolderAddr) : Fs σ (List CString) := do
  modifyFolder f fun fo => { fo with filesDirty := false }
  let fo ← derefFolder f
  let w ← Comp.get
  pure (w.fs.fileNames fo.files)

/-- `gp_filesystem_list_files`, with the folder found. -/
def listFilesFound (folder : CString) (f : FolderAddr) : Fs σ (List CString) := do
  let fo ← derefFolder f
  match fo.filesDirty, funcs.fileListFunc with
  | true, some fileList => do
    deleteAllFiles f
    modifyFolder f fun fo => { fo with filesDirty := false }
    let answer ← callEnv (fileList folder)
    trace (.fileListFunc folder answer)
    let names ← Comp.ofExcept answer
    names.forM (internalAppend f)
    listFilesClean f
  | _, _ => listFilesClean f

/-- `gp_filesystem_name`, with the folder found. -/
def nameFound (filenumber : Int) (f : FolderAddr) : Fs σ CString := do
  let fo ← derefFolder f
  match if filenumber < 0 then none else fo.files[filenumber.toNat]? with
  | none => Comp.throw gpErrorFileNotFound
  | some a => do
    let file ← derefFile a
    pure file.name

/-- `gp_filesystem_number`, with the folder found and `n` starts left. -/
def numberFound (folder filename : CString) (context : GPContext) (n : Nat) (f : FolderAddr) :
    Fs σ Nat := do
  let fo ← derefFolder f
  let w ← Comp.get
  match (w.fs.fileNames fo.files).idxOf? filename with
  | some num => pure num
  | none =>
    if fo.filesDirty then do
      let _ ← gpFilesystemListFiles funcs folder context
      gpFilesystemNumberAux funcs folder filename context n
    else
      Comp.throw gpErrorFileNotFound

/-- `lookup_folder_file`, after the files have been listed. -/
def lookupFileEnd (xf : FolderAddr) (filename : CString) : Fs σ (FolderAddr × FileAddr) := do
  let fo ← derefFolder xf
  let w ← Comp.get
  match w.fs.findFile fo.files filename with
  | some f => pure (xf, f)
  | none => Comp.throw gpErrorFileNotFound

/-- `gp_filesystem_append`, after the files have been listed. -/
def appendOnce (filename : CString) (f : FolderAddr) : Fs σ Unit := do
  match ← Comp.attempt (internalAppend f filename) with
  | .ok _ => pure ()
  | .error e => if e = gpErrorFileExists then pure () else Comp.throw e

/-- `gp_filesystem_append`, with the folder there. -/
def appendEnd (folder filename : CString) (context : GPContext) (f : FolderAddr) :
    Fs σ Unit := do
  let fo ← derefFolder f
  if fo.filesDirty then do
    let _ ← gpFilesystemListFiles funcs folder context
  match ← Comp.attempt (internalAppend f filename) with
  | .ok _ => pure ()
  | .error e => if e = gpErrorFileExists then pure () else Comp.throw e

/-- `gp_filesystem_append`, with what its lookup found. -/
def appendFound (folder filename : CString) (context : GPContext) (found : Option FolderAddr) :
    Fs σ Unit :=
  match found with
  | some f => appendEnd funcs folder filename context f
  | none => do
    let f ← appendFolder funcs folder context
    appendEnd funcs folder filename context f

/-- `gp_filesystem_remove_dir`, after the folder has been listed. -/
def removeDirEnd (folder name : CString) (removeDir : CString → CString → σ → Except Int Unit × σ)
    (f : FolderAddr) : Fs σ Unit := do
  let fo ← derefFolder f
  let w ← Comp.get
  match w.fs.findFolder fo.folders name with
  | none => Comp.throw gpErrorDirectoryNotFound
  | some dir => do
    let d ← derefFolder dir
    if d.folders ≠ [] then Comp.throw gpErrorDirectoryExists
    if d.files ≠ [] then Comp.throw gpErrorFileExists
    trace (.removeDirFunc folder name)
    let answer ← callEnv (removeDir folder name)
    Comp.ofExcept answer
    deleteFolder f dir

/-- The search of `gp_filesystem_remove_dir` for the directory in the folder. -/
def findDir (name : CString) (f : FolderAddr) : Fs σ (FolderAddr × FolderAddr) := do
  let fo ← derefFolder f
  let w ← Comp.get
  match w.fs.findFolder fo.folders name with
  | none => Comp.throw gpErrorDirectoryNotFound
  | some dir => pure (f, dir)

/-- The part of `gp_filesystem_remove_dir` that comes to the folder and the directory. -/
def removeDirTarget (folder name : CString) (context : GPContext) :
    Fs σ (FolderAddr × FolderAddr) :=
  withFolder funcs folder context fun f => do
    let fo ← derefFolder f
    if fo.foldersDirty then do
      let _ ← Comp.attempt (gpFilesystemListFolders funcs folder context)
    findDir name f

/-- The end of `gp_filesystem_remove_dir`, with the directory found. -/
def removeDirJudged (folder name : CString)
    (removeDir : CString → CString → σ → Except Int Unit × σ) (f dir : FolderAddr) :
    Fs σ Unit := do
  let d ← derefFolder dir
  if d.folders ≠ [] then Comp.throw gpErrorDirectoryExists
  if d.files ≠ [] then Comp.throw gpErrorFileExists
  trace (.removeDirFunc folder name)
  let answer ← callEnv (removeDir folder name)
  Comp.ofExcept answer
  deleteFolder f dir

/-- `gp_file_copy` through the outside world. -/
def fileCopyIo (destination source : CameraFileRef) (w : World σ) : Fs σ Unit := do
  let (answer, data) ← callEnv (funcs.copyIo (w.cameraFile destination) (w.cameraFile source))
  modifyCameraFile destination fun d => { d with data := data }
  Comp.ofExcept answer

/-- `gp_filesystem_get_file_impl`, for a type of content that is known. -/
def getFileEnd
    (getFile : CString → CString → CameraFileType → CameraFile → σ →
      (Except Int Unit × CameraFile) × σ)
    (folder filename : CString) (type : CameraFileType) (file : CameraFileRef)
    (cached : Option CameraFileRef) : Fs σ Unit := do
  let ret ← getFileFromCache funcs folder filename type file cached
  match ret with
  | .ok _ => pure ()
  | .error _ => getFileFromDriver getFile folder filename type file

/-- `gp_filesystem_lru_update`, after room has been made. -/
def lruUpdateEnd (folder filename : CString) (type : CameraFileType) (file : CameraFileRef)
    (context : GPContext) (size : Nat) : Fs σ Unit := do
  let (_, xfile) ← lookupFolderFile funcs folder filename context
  lruInsert xfile type file size

/-- The store of `gp_filesystem_set_file_noop`. -/
def storeFile (folder filename : CString) (type : CameraFileType) (file : CameraFileRef)
    (xfile : FileAddr) : Fs σ Unit := do
  modifyFile xfile (·.setSlot (some file) type)
  let w ← Comp.get
  trace (.setFileNoop folder filename type (w.cameraFile file).data)
  setFileMtime funcs folder filename file

/-- `gp_filesystem_set_file_noop`, after the list of cached content has been brought up to
date. -/
def setFileEnd (folder filename : CString) (type : CameraFileType) (file : CameraFileRef)
    (xfile : FileAddr) : Fs σ Unit := do
  gpFilesystemLruCheck
  match type with
  | .unknown _ => Comp.throw gpError
  | _ => storeFile funcs folder filename type file xfile

open Lib.Comp (bind_run_ok get_bind_run modify_run)
open SelfHeadedList (first_eq first_eq_none_iff last_eq last_eq_some_iff next_get next_mem
  next_ne_self prev_get prev_mem prev_ne_none_iff)
open Option (any_map map_map map_some)

variable {σ : Type}

/-! ### The pointers -/

namespace CameraFilesystem

/-- `file->lru_next`. -/
def lruNext (fs : CameraFilesystem) (a : FileAddr) : Option FileAddr :=
  (fs.files a).bind (·.lruNext)

/-- `file->lru_prev`. -/
def lruPrev (fs : CameraFilesystem) (a : FileAddr) : Option FileAddr :=
  (fs.files a).bind (·.lruPrev)

/-- The LRU pointers spell the list `l`. -/
def LruChain (fs : CameraFilesystem) (l : List FileAddr) : Prop :=
  SelfHeadedList fs.lruNext fs.lruPrev fs.lruFirst fs.lruLast l

variable {fs : CameraFilesystem}

theorem lruNext_eq {a : FileAddr} {f : CameraFilesystemFile}
    (h : fs.files a = some f) : fs.lruNext a = f.lruNext := by
  simp [lruNext, h]

theorem lruPrev_eq {a : FileAddr} {f : CameraFilesystemFile}
    (h : fs.files a = some f) : fs.lruPrev a = f.lruPrev := by
  simp [lruPrev, h]

theorem LruChain.isSome {l : List FileAddr} (h : fs.LruChain l)
    {a : FileAddr} (ha : a ∈ l) : ∃ f, fs.files a = some f := by
  have hp := (prev_ne_none_iff h a).mpr ha
  cases hf : fs.files a with
  | none => simp [lruPrev, hf] at hp
  | some f => exact ⟨f, rfl⟩

theorem LruChain.congr {fs' : CameraFilesystem} {l : List FileAddr} (h : fs.LruChain l)
    (hnext : ∀ a, fs'.lruNext a = fs.lruNext a) (hprev : ∀ a, fs'.lruPrev a = fs.lruPrev a)
    (hfirst : fs'.lruFirst = fs.lruFirst) (hlast : fs'.lruLast = fs.lruLast) :
    fs'.LruChain l := by
  unfold LruChain
  rw [funext hnext, funext hprev, hfirst, hlast]
  exact h

end CameraFilesystem

/-! ### Writing nothing but LRU pointers -/

/-- The entry with its LRU pointers cleared. -/
def CameraFilesystemFile.unlinked (f : CameraFilesystemFile) : CameraFilesystemFile :=
  { f with lruPrev := none, lruNext := none }

@[simp] theorem CameraFilesystemFile.hasContent_unlinked (f : CameraFilesystemFile) :
    f.unlinked.hasContent = f.hasContent := rfl

/-- Nothing but LRU pointers and `lru_size` was written. -/
structure LruFrame (w w' : World σ) : Prop where
  folders : w'.fs.folders = w.fs.folders
  files : ∀ a, (w'.fs.files a).map (·.unlinked) = (w.fs.files a).map (·.unlinked)
  cameraFile : w'.cameraFile = w.cameraFile
  picturesToKeep : w'.picturesToKeep = w.picturesToKeep
  cachedImages : w'.cachedImages = w.cachedImages
  brk : w'.brk = w.brk
  env : w'.env = w.env
  log : w'.log = w.log

instance : IsPreorder (World σ) LruFrame where
  refl _ := ⟨rfl, fun _ => rfl, rfl, rfl, rfl, rfl, rfl, rfl⟩
  trans _ _ _ h h' := ⟨h'.folders.trans h.folders, fun a => (h'.files a).trans (h.files a),
    h'.cameraFile.trans h.cameraFile, h'.picturesToKeep.trans h.picturesToKeep,
    h'.cachedImages.trans h.cachedImages, h'.brk.trans h.brk, h'.env.trans h.env,
    h'.log.trans h.log⟩

theorem LruFrame.refl (w : World σ) : LruFrame w w := Std.Refl.refl w

variable {w w' : World σ}

section
variable (h : LruFrame w w')
include h

theorem LruFrame.isSome (a : FileAddr) :
    (w'.fs.files a).isSome = (w.fs.files a).isSome := by
  simpa using congrArg Option.isSome (h.files a)

/-- The entry on the other side of the frame differs in its LRU pointers only. -/
theorem LruFrame.file {a : FileAddr}
    {f' : CameraFilesystemFile} (hf : w'.fs.files a = some f') :
    ∃ f, w.fs.files a = some f ∧ f'.unlinked = f.unlinked := by
  have ha := h.files a
  rw [hf] at ha
  cases hw : w.fs.files a with
  | none => simp [hw] at ha
  | some f =>
    rw [hw, map_some, map_some, Option.some.injEq] at ha
    exact ⟨f, rfl, ha⟩

theorem LruFrame.fileName :
    w'.fs.fileName = w.fs.fileName := by
  funext a
  have hn := congrArg (Option.map (·.name)) (h.files a)
  rw [map_map, map_map] at hn
  exact hn

theorem LruFrame.cachesAny (chain : List FileAddr) :
    w'.fs.cachesAny chain = w.fs.cachesAny chain := by
  unfold CameraFilesystem.cachesAny
  refine congrArg (chain.any ·) (funext fun a => ?_)
  have ha := congrArg (Option.any (·.hasContent)) (h.files a)
  rw [any_map, any_map] at ha
  exact ha

end

/-- Keeping nothing but the frame. -/
abbrev KeepsLruFrame {α : Type} (m : Fs σ α) : Prop := Comp.Keeps (fun _ => True) LruFrame m

section

variable {α : Type}

theorem keepsLruFrame_setLru (g : World σ → Option FileAddr × Option FileAddr) :
    KeepsLruFrame (Comp.modify fun w => w.setLru (g w).1 (g w).2 : Fs σ Unit) :=
  .modify fun _ _ => ⟨trivial, ⟨rfl, fun _ => rfl, rfl, rfl, rfl, rfl, rfl, rfl⟩⟩

theorem keepsLruFrame_setLruSize (g : World σ → Nat) :
    KeepsLruFrame (Comp.modify fun w => w.setLruSize (g w) : Fs σ Unit) :=
  .modify fun _ _ => ⟨trivial, ⟨rfl, fun _ => rfl, rfl, rfl, rfl, rfl, rfl, rfl⟩⟩

theorem lruFrame_setFile {w : World σ} {a : FileAddr} {f g : CameraFilesystemFile}
    (hf : w.fs.files a = some f) (hg : g.unlinked = f.unlinked) :
    LruFrame w (w.setFile a (some g)) := by
  refine ⟨rfl, fun b => ?_, rfl, rfl, rfl, rfl, rfl, rfl⟩
  by_cases hb : b = a
  · subst hb
    simp [hf, hg]
  · simp [hb]

variable (item xfile a : FileAddr) (f : CameraFilesystemFile) (type : CameraFileType)

theorem keepsLruFrame_modifyFile {g : CameraFilesystemFile → CameraFilesystemFile}
    (hg : ∀ f, (g f).unlinked = f.unlinked) : KeepsLruFrame (modifyFile a g : Fs σ Unit) := by
  intro w r w' _ h
  obtain ⟨f, hf, -, rfl⟩ := modifyFile_eq_some.mp h
  exact ⟨trivial, lruFrame_setFile hf (hg f)⟩

theorem keepsLruFrame_derefFile :
    KeepsLruFrame (derefFile a : Fs σ CameraFilesystemFile) := by
  intro w r w' _ h
  obtain ⟨f, -, -, rfl⟩ := derefFile_eq_some.mp h
  exact ⟨trivial, LruFrame.refl _⟩

theorem keepsLruFrame_cameraFileSize (r : CameraFileRef) :
    KeepsLruFrame (cameraFileSize r : Fs σ Nat) := by
  intro w r w' _ h
  cases h
  exact ⟨trivial, LruFrame.refl _⟩

theorem keepsLruFrame_whenSome (ptr : Option FileAddr) {k : FileAddr → Fs σ Unit}
    (hk : ∀ a, KeepsLruFrame (k a)) : KeepsLruFrame (whenSome ptr k) := by
  cases ptr with
  | none => exact .pure _
  | some a => exact hk a

theorem keepsLruFrame_lruMoveEnds :
    KeepsLruFrame (lruMoveEnds item f : Fs σ Unit) := by
  refine Keeps.get.bind fun w => ?_
  refine .ite (fun _ => .ite (fun _ => ?_) fun _ => ?_) fun _ =>
    .ite (fun _ => ?_) fun _ => .pure _
  · exact keepsLruFrame_setLru fun _ => (none, none)
  · exact keepsLruFrame_setLru fun _ => (w.fs.lruFirst, f.lruPrev)
  · cases f.lruNext with
    | none => exact .stuck
    | some next =>
      exact (keepsLruFrame_setLru fun _ => (some next, w.fs.lruLast)).bind fun _ =>
        keepsLruFrame_modifyFile next (g := fun n => { n with lruPrev := some next })
          fun _ => rfl

theorem keepsLruFrame_lruRemoveOne :
    KeepsLruFrame (gpFilesystemLruRemoveOne item : Fs σ Unit) := by
  refine (keepsLruFrame_derefFile item).bind fun f => ?_
  cases f.lruPrev with
  | none => exact .throw _
  | some prev =>
    refine (keepsLruFrame_modifyFile prev ?_).bind fun _ => ?_
    · exact fun _ => rfl
    refine (keepsLruFrame_derefFile item).bind fun f => ?_
    refine (keepsLruFrame_whenSome _ fun next => ?_).bind fun _ => ?_
    · exact keepsLruFrame_modifyFile next (g := fun n => { n with lruPrev := f.lruPrev })
        fun _ => rfl
    refine (keepsLruFrame_derefFile item).bind fun f =>
      (keepsLruFrame_lruMoveEnds item f).bind fun _ => ?_
    exact keepsLruFrame_modifyFile item fun _ => rfl

theorem keepsLruFrame_lruClearLoop (n : Nat) (ptr : Option FileAddr) (prev : FileAddr) :
    KeepsLruFrame (lruClearLoop n ptr prev : Fs σ Unit) := by
  induction n generalizing ptr prev with
  | zero =>
    cases ptr with
    | none => exact .pure _
    | some ptr => exact .stuck
  | succ n ih =>
    cases ptr with
    | none => exact .pure _
    | some ptr =>
      refine (keepsLruFrame_derefFile ptr).bind fun f => .ite
        (fun _ => (Keeps.throw _).bind fun _ => ?_) fun _ => ?_
      all_goals
        refine (keepsLruFrame_modifyFile ptr ?_).bind fun _ => ih _ _
        exact fun _ => rfl

theorem keepsLruFrame_lruClear : KeepsLruFrame (gpFilesystemLruClear : Fs σ Unit) := by
  refine Keeps.get.bind fun w => ?_
  cases w.fs.lruFirst with
  | none => exact .pure _
  | some first =>
    refine (keepsLruFrame_lruClearLoop _ _ _).bind fun _ => ?_
    exact .modify fun _ _ =>
      ⟨trivial, ⟨rfl, fun _ => rfl, rfl, rfl, rfl, rfl, rfl, rfl⟩⟩

theorem keepsLruFrame_lruUncount :
    KeepsLruFrame (lruUncount f type : Fs σ Unit) := by
  have hslot : KeepsLruFrame (uncountSlot (f.slot type) : Fs σ Unit) := by
    cases f.slot type with
    | none => exact .pure _
    | some oldfile =>
      exact (keepsLruFrame_cameraFileSize oldfile).bind fun size =>
        keepsLruFrame_setLruSize fun w => ulongSub w.fs.lruSize size
  cases type with
  | normal | raw | audio => exact hslot
  | preview | exif | metadata => exact .pure _
  | unknown n => exact .throw _

theorem keepsLruFrame_lruDetach :
    KeepsLruFrame (lruDetach xfile type : Fs σ Unit) := by
  refine (keepsLruFrame_derefFile xfile).bind fun f =>
    .ite (fun _ => ?_) fun _ => .pure _
  exact (keepsLruFrame_lruUncount f type).bind fun _ => keepsLruFrame_lruRemoveOne xfile

theorem keepsLruFrame_lruAttach :
    KeepsLruFrame (lruAttach xfile : Fs σ Unit) := by
  refine Keeps.get.bind fun w => ?_
  cases w.fs.lruFirst with
  | none =>
    refine (keepsLruFrame_setLru fun _ => (some xfile, some xfile)).bind fun _ => ?_
    exact keepsLruFrame_modifyFile xfile fun _ => rfl
  | some first =>
    cases w.fs.lruLast with
    | none => exact .stuck
    | some last =>
      refine (keepsLruFrame_modifyFile xfile ?_).bind fun _ => ?_
      · exact fun _ => rfl
      refine (keepsLruFrame_modifyFile last ?_).bind fun _ => ?_
      · exact fun _ => rfl
      exact keepsLruFrame_setLru fun _ => (some first, some xfile)

end

/-! ### Writing one pointer -/

namespace World

/-- The world after a write to `lru_next` of an entry. -/
def setNext (w : World σ) (a : FileAddr) (next : Option FileAddr) : World σ :=
  w.setFile a ((w.fs.files a).map fun f => { f with lruNext := next })

/-- The world after a write to `lru_prev` of an entry. -/
def setPrev (w : World σ) (a : FileAddr) (prev : Option FileAddr) : World σ :=
  w.setFile a ((w.fs.files a).map fun f => { f with lruPrev := prev })

variable {w : World σ} {a : FileAddr} {f : CameraFilesystemFile}

section
variable (h : w.fs.files a = some f)
include h

theorem modifyFile_lruNext_run (next : Option FileAddr) :
    modifyFile a (fun f => { f with lruNext := next }) w = some (.ok (), w.setNext a next) := by
  rw [modifyFile_run h, setNext, h, map_some]

theorem modifyFile_lruPrev_run (prev : Option FileAddr) :
    modifyFile a (fun f => { f with lruPrev := prev }) w = some (.ok (), w.setPrev a prev) := by
  rw [modifyFile_run h, setPrev, h, map_some]

theorem modifyFile_unlink_run :
    modifyFile a (fun f => { f with lruPrev := none, lruNext := none }) w =
      some (.ok (), (w.setNext a none).setPrev a none) := by
  rw [modifyFile_run h]
  simp [setPrev, setNext, h, setFile]

theorem lruNext_setNext (next : Option FileAddr) (x : FileAddr) :
    (w.setNext a next).fs.lruNext x = if x = a then next else w.fs.lruNext x := by
  by_cases hx : x = a
  · subst hx
    simp [setNext, CameraFilesystem.lruNext, h]
  · simp [setNext, CameraFilesystem.lruNext, hx]

theorem lruPrev_setPrev (prev : Option FileAddr) (x : FileAddr) :
    (w.setPrev a prev).fs.lruPrev x = if x = a then prev else w.fs.lruPrev x := by
  by_cases hx : x = a
  · subst hx
    simp [setPrev, CameraFilesystem.lruPrev, h]
  · simp [setPrev, CameraFilesystem.lruPrev, hx]

end

@[simp] theorem lruPrev_setNext (w : World σ) (a : FileAddr) (next : Option FileAddr) :
    (w.setNext a next).fs.lruPrev = w.fs.lruPrev := by
  funext x
  by_cases hx : x = a
  · subst hx
    cases h : w.fs.files x <;> simp [setNext, CameraFilesystem.lruPrev, h]
  · simp [setNext, CameraFilesystem.lruPrev, hx]

@[simp] theorem lruNext_setPrev (w : World σ) (a : FileAddr) (prev : Option FileAddr) :
    (w.setPrev a prev).fs.lruNext = w.fs.lruNext := by
  funext x
  by_cases hx : x = a
  · subst hx
    cases h : w.fs.files x <;> simp [setPrev, CameraFilesystem.lruNext, h]
  · simp [setPrev, CameraFilesystem.lruNext, hx]

@[simp] theorem lruFirst_setNext (w : World σ) (a : FileAddr) (next : Option FileAddr) :
    (w.setNext a next).fs.lruFirst = w.fs.lruFirst := rfl

@[simp] theorem lruFirst_setPrev (w : World σ) (a : FileAddr) (prev : Option FileAddr) :
    (w.setPrev a prev).fs.lruFirst = w.fs.lruFirst := rfl

@[simp] theorem lruLast_setNext (w : World σ) (a : FileAddr) (next : Option FileAddr) :
    (w.setNext a next).fs.lruLast = w.fs.lruLast := rfl

@[simp] theorem lruLast_setPrev (w : World σ) (a : FileAddr) (prev : Option FileAddr) :
    (w.setPrev a prev).fs.lruLast = w.fs.lruLast := rfl

@[simp] theorem lruNext_setLru (w : World σ) (first last : Option FileAddr) :
    (w.setLru first last).fs.lruNext = w.fs.lruNext := rfl

@[simp] theorem lruPrev_setLru (w : World σ) (first last : Option FileAddr) :
    (w.setLru first last).fs.lruPrev = w.fs.lruPrev := rfl

theorem isSome_setNext (w : World σ) (a x : FileAddr) (next : Option FileAddr) :
    ((w.setNext a next).fs.files x).isSome = (w.fs.files x).isSome := by
  by_cases hx : x = a
  · subst hx
    simp [setNext]
  · simp [setNext, hx]

theorem isSome_setPrev (w : World σ) (a x : FileAddr) (prev : Option FileAddr) :
    ((w.setPrev a prev).fs.files x).isSome = (w.fs.files x).isSome := by
  by_cases hx : x = a
  · subst hx
    simp [setPrev]
  · simp [setPrev, hx]

theorem exists_setNext (h : w.fs.files a = some f) (x : FileAddr) (next : Option FileAddr) :
    ∃ g, (w.setNext x next).fs.files a = some g :=
  Option.isSome_iff_exists.mp (by rw [isSome_setNext, h]; rfl)

theorem exists_setPrev (h : w.fs.files a = some f) (x : FileAddr) (prev : Option FileAddr) :
    ∃ g, (w.setPrev x prev).fs.files a = some g :=
  Option.isSome_iff_exists.mp (by rw [isSome_setPrev, h]; rfl)

end World

/-! ### The functions on a list -/

section

variable {w : World σ} {l : List FileAddr}

open CameraFilesystem World

variable {f : CameraFilesystemFile}

theorem lruRemoveOne_off {item : FileAddr}
    (hf : w.fs.files item = some f) (hp : f.lruPrev = none) :
    gpFilesystemLruRemoveOne item w = some (.error gpError, w) := by
  unfold gpFilesystemLruRemoveOne
  rw [bind_run_ok (derefFile_run hf), hp]
  rfl

section
variable (h : w.fs.LruChain l)
include h

/-- The cases of `gp_filesystem_lru_remove_one`, for an entry on the list whose neighbours
have been linked to each other already. -/
theorem lruMoveEnds_run {item : FileAddr} {w₁ : World σ}
    (hitem : item ∈ l)
    (hfirst : w₁.fs.lruFirst = w.fs.lruFirst) (hlast : w₁.fs.lruLast = w.fs.lruLast)
    (hnext : f.lruNext = w.fs.lruNext item) (hprev : f.lruPrev = w.fs.lruPrev item)
    (halive : ∀ a ∈ l, ∃ g, w₁.fs.files a = some g) :
    ∃ w₂, lruMoveEnds item f w₁ = some (.ok (), w₂) ∧
      w₂.fs.lruNext = w₁.fs.lruNext ∧
      (∀ x, w₂.fs.lruPrev x =
        if w.fs.lruFirst = some item ∧ w.fs.lruNext item = some x then some x
        else w₁.fs.lruPrev x) ∧
      w₂.fs.lruFirst =
        (if w.fs.lruFirst = some item then w.fs.lruNext item else w.fs.lruFirst) ∧
      w₂.fs.lruLast = (if w.fs.lruLast = some item then
        (if w.fs.lruFirst = some item then none else w.fs.lruPrev item) else w.fs.lruLast) ∧
      (∀ a ∈ l, ∃ g, w₂.fs.files a = some g) ∧ w₂.fs.lruSize = w₁.fs.lruSize := by
  unfold lruMoveEnds
  rw [get_bind_run, hfirst, hlast]
  by_cases hl : w.fs.lruLast = some item
  · have hnone : w.fs.lruNext item = none := (last_eq_some_iff h).mp hl |>.2
    rw [if_pos hl]
    by_cases hf : w.fs.lruFirst = some item
    · rw [if_pos hf, modify_run]
      exact ⟨_, rfl, rfl, by simp [hnone], by simp [hf, hnone], by simp [hl, hf], halive, rfl⟩
    · rw [if_neg hf, modify_run]
      exact ⟨_, rfl, rfl, by simp [hf], by simp [hf], by simp [hl, hf, hprev], halive, rfl⟩
  · rw [if_neg hl]
    by_cases hf : w.fs.lruFirst = some item
    · rw [if_pos hf, hnext]
      cases hn : w.fs.lruNext item with
      | none => exact absurd ((last_eq_some_iff h).mpr ⟨hitem, hn⟩) hl
      | some next =>
        obtain ⟨g, hg⟩ := halive next (next_mem h hn)
        have hg' : (w₁.setLru (some next) w.fs.lruLast).fs.files next = some g := hg
        simp only
        rw [Comp.modify_bind_run, modifyFile_lruPrev_run hg']
        refine ⟨_, rfl, by simp, fun x => ?_, by simp [hf], by simp [hl], fun a ha => ?_, rfl⟩
        · rw [lruPrev_setPrev hg']
          by_cases hx : x = next
          · simp [hx, hf]
          · simp [hx, Ne.symm hx]
        · obtain ⟨g, hg⟩ := halive a ha
          exact exists_setPrev (w := w₁.setLru (some next) w.fs.lruLast) hg _ _
    · rw [if_neg hf, Comp.pure_run]
      exact ⟨_, rfl, rfl, by simp [hf], by simp [hf, hfirst], by simp [hl, hlast], halive, rfl⟩

theorem lruRemoveOne_run {item : FileAddr} (hitem : item ∈ l) :
    ∃ w', gpFilesystemLruRemoveOne item w = some (.ok (), w') ∧ w'.fs.LruChain (l.erase item) ∧
      w'.fs.lruSize = w.fs.lruSize := by
  obtain ⟨f, hf⟩ := h.isSome hitem
  obtain ⟨prev, hprev⟩ := Option.ne_none_iff_exists'.mp
    ((prev_ne_none_iff h item).mpr hitem)
  have hfprev : f.lruPrev = some prev := by rw [← lruPrev_eq hf, hprev]
  obtain ⟨p, hp⟩ := h.isSome (prev_mem h hprev)
  -- The predecessor's `lru_next`; the entry may be its own predecessor.
  obtain ⟨f₁, hf₁⟩ := exists_setNext hf prev f.lruNext
  have hnext₁ : f₁.lruNext = w.fs.lruNext item := by
    rw [← lruNext_eq hf₁, lruNext_setNext hp, lruNext_eq hf]
    split <;> rfl
  have hprev₁ : f₁.lruPrev = w.fs.lruPrev item := by
    rw [← lruPrev_eq hf₁, lruPrev_setNext]
  -- The successor's `lru_prev`.
  obtain ⟨w₂, hw₂, hnext₂, hprev₂, hfirst₂, hlast₂, halive₂, hsize₂⟩ : ∃ w₂,
      whenSome f₁.lruNext (fun next => modifyFile next fun n =>
        { n with lruPrev := f₁.lruPrev }) (w.setNext prev f.lruNext) = some (.ok (), w₂) ∧
      w₂.fs.lruNext = (w.setNext prev f.lruNext).fs.lruNext ∧
      (∀ x, w₂.fs.lruPrev x =
        if w.fs.lruNext item = some x then w.fs.lruPrev item else w.fs.lruPrev x) ∧
      w₂.fs.lruFirst = w.fs.lruFirst ∧ w₂.fs.lruLast = w.fs.lruLast ∧
      (∀ a ∈ l, ∃ g, w₂.fs.files a = some g) ∧ w₂.fs.lruSize = w.fs.lruSize := by
    rw [hnext₁, hprev₁]
    cases hn : w.fs.lruNext item with
    | none =>
      refine ⟨_, rfl, rfl, by simp, rfl, rfl, fun a ha => ?_, rfl⟩
      obtain ⟨g, hg⟩ := h.isSome ha
      exact exists_setNext hg _ _
    | some next =>
      obtain ⟨n, hn'⟩ := h.isSome (next_mem h hn)
      obtain ⟨n', hn'⟩ := exists_setNext hn' prev f.lruNext
      refine ⟨_, modifyFile_lruPrev_run hn' _, by simp, fun x => ?_, rfl, rfl,
        fun a ha => ?_, rfl⟩
      · rw [lruPrev_setPrev hn', lruPrev_setNext]
        by_cases hx : x = next
        · simp [hx]
        · simp [hx, Ne.symm hx]
      · obtain ⟨g, hg⟩ := h.isSome ha
        obtain ⟨g', hg'⟩ := exists_setNext hg prev f.lruNext
        exact exists_setPrev hg' _ _
  obtain ⟨f₂, hf₂⟩ := halive₂ item hitem
  have hnext₂' : f₂.lruNext = w.fs.lruNext item := by
    rw [← lruNext_eq hf₂, hnext₂, lruNext_setNext hp, lruNext_eq hf]
    split <;> rfl
  have hprev₂' : f₂.lruPrev = w.fs.lruPrev item := by
    rw [← lruPrev_eq hf₂, hprev₂, if_neg (next_ne_self h item)]
  obtain ⟨w₃, hw₃, hnext₃, hprev₃, hfirst₃, hlast₃, halive₃, hsize₃⟩ :=
    lruMoveEnds_run h hitem hfirst₂ hlast₂ hnext₂' hprev₂' halive₂
  obtain ⟨f₃, hf₃⟩ := halive₃ item hitem
  obtain ⟨f₄, hf₄⟩ := exists_setNext hf₃ item none
  refine ⟨(w₃.setNext item none).setPrev item none, ?_, ?_, ?_⟩
  · unfold gpFilesystemLruRemoveOne
    rw [bind_run_ok (derefFile_run hf), hfprev]
    simp only
    rw [bind_run_ok (modifyFile_lruNext_run hp _), bind_run_ok (derefFile_run hf₁),
      bind_run_ok hw₂, bind_run_ok (derefFile_run hf₂), bind_run_ok hw₃,
      modifyFile_unlink_run hf₃]
  · refine SelfHeadedList.erase h hitem hfirst₃ hlast₃ (fun x => ?_) fun x => ?_
    · rw [lruNext_setPrev, lruNext_setNext hf₃, hnext₃, hnext₂, lruNext_setNext hp,
        lruNext_eq hf, hprev]
      simp only [Option.some.injEq, eq_comm]
    · rw [lruPrev_setPrev hf₄, lruPrev_setNext, hprev₃, hprev₂]
      by_cases hx : w.fs.lruNext item = some x
      · by_cases hfst : w.fs.lruFirst = some item <;> simp [hx, hfst]
      · simp [hx]
  · exact hsize₃.trans hsize₂

/-- One round of `gp_filesystem_lru_clear`'s loop after another clears the rest of the list
and nothing else. -/
theorem lruClearLoop_run (n i : Nat) (p : FileAddr) (w₁ : World σ)
    (hn : l.length ≤ i + n) (hp : i < l.length → l[i - 1]? = some p)
    (hsame : ∀ a ∈ l.drop i, w₁.fs.files a = w.fs.files a) :
    ∃ w', lruClearLoop n l[i]? p w₁ = some (.ok (), w') ∧
      (∀ a ∈ l.drop i, w'.fs.lruNext a = none ∧ w'.fs.lruPrev a = none) ∧
      (∀ a, a ∉ l.drop i → w'.fs.lruNext a = w₁.fs.lruNext a ∧
        w'.fs.lruPrev a = w₁.fs.lruPrev a) := by
  induction n generalizing i p w₁ with
  | zero =>
    rw [List.getElem?_eq_none (by omega), List.drop_eq_nil_of_le (by omega)]
    exact ⟨w₁, rfl, by simp, fun _ _ => ⟨rfl, rfl⟩⟩
  | succ n ih =>
    by_cases hi : i < l.length
    · rw [List.getElem?_eq_getElem hi]
      have hdrop : l.drop i = l[i] :: l.drop (i + 1) := List.drop_eq_getElem_cons hi
      have hnd := h.nodup.sublist (List.drop_sublist i l)
      rw [hdrop, List.nodup_cons] at hnd
      obtain ⟨f, hf⟩ := h.isSome (List.getElem_mem hi)
      have hf₁ : w₁.fs.files l[i] = some f := by
        rw [hsame _ (by rw [hdrop]; exact List.mem_cons_self), hf]
      have hprev : f.lruPrev = some p := by
        rw [← lruPrev_eq hf, prev_get h i hi, hp hi]
      have hnext : f.lruNext = l[i + 1]? := by
        rw [← lruNext_eq hf, next_get h i hi]
      obtain ⟨f', hf'⟩ := exists_setNext hf₁ l[i] none
      obtain ⟨w', hw', hon, hoff⟩ := ih (i + 1) l[i] ((w₁.setNext l[i] none).setPrev l[i] none)
        (by omega) (fun _ => List.getElem?_eq_getElem hi) fun a ha => by
          have hne : a ≠ l[i] := fun e => hnd.1 (e ▸ ha)
          simp only [setPrev, setNext, setFile_fs_files, Function.update_of_ne hne]
          exact hsame a (by rw [hdrop]; exact List.mem_cons_of_mem _ ha)
      have hclear : ∀ a, a ∉ l.drop (i + 1) → w'.fs.lruNext a =
          (if a = l[i] then none else w₁.fs.lruNext a) ∧
          w'.fs.lruPrev a = if a = l[i] then none else w₁.fs.lruPrev a := by
        intro a ha
        rw [(hoff a ha).1, (hoff a ha).2, lruNext_setPrev, lruNext_setNext hf₁,
          lruPrev_setPrev hf', lruPrev_setNext]
        exact ⟨rfl, rfl⟩
      refine ⟨w', ?_, fun a ha => ?_, fun a ha => ?_⟩
      · unfold lruClearLoop
        rw [bind_run_ok (derefFile_run hf₁)]
        simp only [hprev, ne_eq, not_true_eq_false, if_false]
        rw [bind_run_ok (modifyFile_unlink_run hf₁), hnext, hw']
      · rw [hdrop, List.mem_cons] at ha
        by_cases hmem : a ∈ l.drop (i + 1)
        · exact hon a hmem
        · rw [(hclear a hmem).1, (hclear a hmem).2, if_pos (ha.resolve_right hmem)]
          exact ⟨rfl, if_pos (ha.resolve_right hmem)⟩
      · rw [hdrop, List.mem_cons, not_or] at ha
        rw [(hclear a ha.2).1, (hclear a ha.2).2, if_neg ha.1, if_neg ha.1]
        exact ⟨rfl, rfl⟩
    · rw [List.getElem?_eq_none (by omega), List.drop_eq_nil_of_le (by omega)]
      exact ⟨w₁, rfl, by simp, fun _ _ => ⟨rfl, rfl⟩⟩

/-- Clearing the list. Its length is bounded by the number of addresses handed out. -/
theorem lruClear_run (hlen : l.length ≤ w.brk) :
    ∃ w', gpFilesystemLruClear w = some (.ok (), w') ∧ w'.fs.LruChain [] ∧
      w'.fs.lruSize = if l = [] then w.fs.lruSize else 0 := by
  unfold gpFilesystemLruClear
  rw [get_bind_run]
  cases hfirst : w.fs.lruFirst with
  | none =>
    obtain rfl := (first_eq_none_iff h).mp hfirst
    exact ⟨w, rfl, h, by simp⟩
  | some first =>
    have hhead : l[0]? = some first := by
      rw [← List.head?_eq_getElem?, ← first_eq h, hfirst]
    obtain ⟨w', hw', hon, hoff⟩ := lruClearLoop_run h w.brk 0 first w (by omega)
      (fun _ => hhead) fun _ _ => rfl
    rw [hhead] at hw'
    rw [List.drop_zero] at hon hoff
    refine ⟨(w'.setLru none none).setLruSize 0, ?_, SelfHeadedList.clear h hon hoff, ?_⟩
    · simp only
      rw [bind_run_ok hw', modify_run]
    · have hne : l ≠ [] := by
        rintro rfl
        simp at hhead
      simp [hne]

end

theorem lruCheckLoop_run {fs : CameraFilesystem} (h : fs.LruChain l) (n i : Nat)
    (p : FileAddr) (hn : l.length ≤ i + n) (hp : i < l.length → l[i - 1]? = some p) :
    lruCheckLoop fs n l[i]? p = some true := by
  induction n generalizing i p with
  | zero =>
    rw [List.getElem?_eq_none (by omega)]
    rfl
  | succ n ih =>
    by_cases hi : i < l.length
    · obtain ⟨f, hf⟩ := h.isSome (List.getElem_mem hi)
      have hprev : f.lruPrev = some p := by
        rw [← lruPrev_eq hf, prev_get h i hi, hp hi]
      have hnext : f.lruNext = l[i + 1]? := by
        rw [← lruNext_eq hf, next_get h i hi]
      rw [List.getElem?_eq_getElem hi]
      simp only [lruCheckLoop, hf, hprev, ne_eq, not_true_eq_false, if_false, hnext]
      exact ih (i + 1) l[i] (by omega) fun _ => List.getElem?_eq_getElem hi
    · rw [List.getElem?_eq_none (by omega)]
      rfl

theorem lruCheck_run (h : w.fs.LruChain l) (hlen : l.length ≤ w.brk) :
    gpFilesystemLruCheck w = some (.ok (), w) := by
  unfold gpFilesystemLruCheck
  cases hfirst : w.fs.lruFirst with
  | none => rfl
  | some first =>
    have hhead : l[0]? = some first := by
      rw [← List.head?_eq_getElem?, ← first_eq h, hfirst]
    have hloop := lruCheckLoop_run h w.brk 0 first (by omega) fun _ => hhead
    rw [hhead] at hloop
    simp [hloop]

theorem lruAttach_run (h : w.fs.LruChain l) {xfile : FileAddr}
    (hf : w.fs.files xfile = some f) (hoff : xfile ∉ l) :
    ∃ w', lruAttach xfile w = some (.ok (), w') ∧ w'.fs.LruChain (l ++ [xfile]) ∧
      w'.fs.lruSize = w.fs.lruSize := by
  have hnone := (SelfHeadedList.off h xfile hoff).1
  unfold lruAttach
  rw [get_bind_run]
  cases hfirst : w.fs.lruFirst with
  | none =>
    obtain rfl := (first_eq_none_iff h).mp hfirst
    have hlast : w.fs.lruLast = none := last_eq h
    have hf' : (w.setLru (some xfile) (some xfile)).fs.files xfile = some f := hf
    refine ⟨(w.setLru (some xfile) (some xfile)).setPrev xfile (some xfile),
      modifyFile_lruPrev_run hf' _, ?_, rfl⟩
    refine SelfHeadedList.append h hoff (by simp [hfirst]) (fun x => ?_) fun x => ?_
    · rw [lruNext_setPrev, lruNext_setLru, hlast]
      by_cases hx : x = xfile
      · simp [hx, hnone]
      · simp [hx]
    · rw [lruPrev_setPrev hf', lruPrev_setLru, hlast]
      simp
  | some first =>
    cases hlast : w.fs.lruLast with
    | none =>
      have hl := last_eq h
      rw [hlast] at hl
      obtain rfl := List.getLast?_eq_none_iff.mp hl.symm
      have hl := first_eq h
      rw [hfirst] at hl
      cases hl
    | some last =>
      have hlastl := ((last_eq_some_iff h).mp hlast).1
      have hne : last ≠ xfile := fun e => hoff (e ▸ hlastl)
      obtain ⟨g, hg⟩ := h.isSome hlastl
      have hrun₁ : modifyFile xfile
          (fun f => { f with lruNext := none, lruPrev := some last }) w =
          some (.ok (), (w.setNext xfile none).setPrev xfile (some last)) := by
        rw [modifyFile_run hf]
        simp [setPrev, setNext, hf, setFile]
      obtain ⟨f', hf'⟩ := exists_setNext hf xfile none
      obtain ⟨g₁, hg₁⟩ := exists_setNext hg xfile none
      obtain ⟨g₂, hg₂⟩ := exists_setPrev hg₁ xfile (some last)
      refine ⟨(((w.setNext xfile none).setPrev xfile (some last)).setNext last
        (some xfile)).setLru (some first) (some xfile), ?_, ?_, rfl⟩
      · simp only
        rw [bind_run_ok hrun₁, bind_run_ok (modifyFile_lruNext_run hg₂ _),
          modify_run]
      · refine SelfHeadedList.append h hoff (by simp [hfirst]) (fun x => ?_) fun x => ?_
        · rw [lruNext_setLru, lruNext_setNext hg₂, lruNext_setPrev, lruNext_setNext hf, hlast]
          by_cases hx : x = xfile
          · simp [hx, Ne.symm hne]
          · simp [hx, eq_comm]
        · rw [lruPrev_setLru, lruPrev_setNext, lruPrev_setPrev hf', lruPrev_setNext, hlast]
          simp

end

end GPhoto2
