import GPhoto2.Filesys.Run
import GPhoto2.Proofs.Filesys.LruLinks

/-!
# `GPhoto2.Proofs.Filesys.Observed`: what the functions can observe of a world

No function makes anything depend on `lru_size`, and none reads the trace. `World.observed` is
a world without the two, and `Observes m` says that from worlds with the same observed part `m`
has the same result and ends in worlds with the same observed part. `runOps_observes` states
this for whole runs.
-/

set_option autoImplicit false

namespace GPhoto2

open Lib
open Lib.Comp (Respects)
open Option (map_map)

variable {σ α : Type}

/-- The world without `lru_size` and the trace. -/
def World.observed (w : World σ) : World σ :=
  { w with fs := { w.fs with lruSize := 0 }, log := [] }

/-- Using nothing but the observed part of the world. -/
abbrev Observes (m : Fs σ α) : Prop := Respects World.observed m

/-! ### Primitives -/

section
variable {w v : World σ}

variable (h : w.observed = v.observed)
include h

theorem observed_folders : w.fs.folders = v.fs.folders :=
  congrArg (·.fs.folders) h

theorem observed_files : w.fs.files = v.fs.files :=
  congrArg (·.fs.files) h

theorem observed_setFolder (a : FolderAddr)
    (f : Option CameraFilesystemFolder) :
    (w.setFolder a f).observed = (v.setFolder a f).observed :=
  congrArg (World.setFolder · a f) h

theorem observed_setFile (a : FileAddr)
    (f : Option CameraFilesystemFile) : (w.setFile a f).observed = (v.setFile a f).observed :=
  congrArg (World.setFile · a f) h

end

variable (item xfile : FileAddr) (n : Nat) (a folder : FolderAddr) (f : CameraFilesystemFile)
  (ptr : Option FileAddr) (type : CameraFileType) (name : CString) (r file : CameraFileRef)

theorem observes_derefFolder :
    Observes (derefFolder a : Fs σ CameraFilesystemFolder) := by
  intro w v h
  unfold derefFolder
  rw [observed_folders h]
  cases v.fs.folders a with
  | none => rfl
  | some fo => simp [h]

theorem observes_derefFile (a : FileAddr) :
    Observes (derefFile a : Fs σ CameraFilesystemFile) := by
  intro w v h
  unfold derefFile
  rw [observed_files h]
  cases v.fs.files a with
  | none => rfl
  | some f => simp [h]

theorem observes_modifyFolder (g : CameraFilesystemFolder → CameraFilesystemFolder) :
    Observes (modifyFolder a g : Fs σ Unit) := by
  intro w v h
  unfold modifyFolder
  rw [observed_folders h]
  cases v.fs.folders a with
  | none => rfl
  | some fo => simp [observed_setFolder h]

theorem observes_modifyFile (a : FileAddr)
    (g : CameraFilesystemFile → CameraFilesystemFile) :
    Observes (modifyFile a g : Fs σ Unit) := by
  intro w v h
  unfold modifyFile
  rw [observed_files h]
  cases v.fs.files a with
  | none => rfl
  | some f => simp [observed_setFile h]

theorem observes_allocFolder (f : CameraFilesystemFolder) :
    Observes (allocFolder f : Fs σ FolderAddr) := by
  intro w v h
  have hbrk : w.brk = v.brk := congrArg (·.brk) h
  have hset : ({ w.setFolder w.brk (some f) with brk := w.brk + 1 } : World σ).observed =
      ({ v.setFolder v.brk (some f) with brk := v.brk + 1 } : World σ).observed :=
    congrArg (fun u : World σ => { u.setFolder u.brk (some f) with brk := u.brk + 1 }) h
  exact congrArg some (Prod.ext (congrArg Except.ok hbrk) hset)

theorem observes_allocFile :
    Observes (allocFile f : Fs σ FileAddr) := by
  intro w v h
  have hbrk : w.brk = v.brk := congrArg (·.brk) h
  have hset : ({ w.setFile w.brk (some f) with brk := w.brk + 1 } : World σ).observed =
      ({ v.setFile v.brk (some f) with brk := v.brk + 1 } : World σ).observed :=
    congrArg (fun u : World σ => { u.setFile u.brk (some f) with brk := u.brk + 1 }) h
  exact congrArg some (Prod.ext (congrArg Except.ok hbrk) hset)

theorem observes_callEnv (g : σ → α × σ) : Observes (callEnv g : Fs σ α) := by
  intro w v h
  have henv : w.env = v.env := congrArg (·.env) h
  have hset : ({ w with env := (g w.env).2 } : World σ).observed =
      ({ v with env := (g v.env).2 } : World σ).observed :=
    congrArg (fun u : World σ => { u with env := (g u.env).2 }) h
  exact congrArg some (Prod.ext (by simp [henv]) hset)

theorem observes_trace (e : Event) : Observes (trace e : Fs σ Unit) :=
  .modify fun _ => rfl

theorem observes_cameraFileSize :
    Observes (cameraFileSize r : Fs σ Nat) :=
  .get_bind (fun _ => rfl) fun _ => .ofExcept _

theorem observes_modifyCameraFile (g : CameraFile → CameraFile) :
    Observes (modifyCameraFile r g : Fs σ Unit) := .modify fun _ => rfl

theorem observes_setLru (first last : Option FileAddr) :
    Observes (Comp.modify (·.setLru first last) : Fs σ Unit) := .modify fun _ => rfl

theorem observes_setLruSize (g : World σ → Nat) :
    Observes (Comp.modify fun w => w.setLruSize (g w) : Fs σ Unit) :=
  .modify fun _ => rfl

theorem observes_whenSome {k : FileAddr → Fs σ Unit}
    (hk : ∀ a, Observes (k a)) : Observes (whenSome ptr k) := by
  cases ptr with
  | none => exact .pure _
  | some a => exact hk a

section
variable (funcs : CameraFilesystemFuncs σ)

theorem observes_checkCancel (context : GPContext) : Observes (checkCancel funcs context) := by
  unfold checkCancel
  split
  · exact (observes_callEnv _).bind fun _ =>
      .ite (.throw _) (.pure _)
  · exact .pure _

theorem observes_checkAbsolute (path : CString) : Observes (checkAbsolute path : Fs σ Unit) :=
  .ite (.pure _) (.throw _)

theorem Observes.checks {m : Fs σ α} (hm : Observes m) (context : GPContext) (path : CString) :
    Observes (do checkCancel funcs context; checkAbsolute path; m) :=
  (observes_checkCancel funcs context).bind fun _ =>
    (observes_checkAbsolute path).bind fun _ => hm

end

/-! ### The LRU list -/

theorem observes_lruClearLoop (prev : FileAddr) :
    Observes (lruClearLoop n ptr prev : Fs σ Unit) := by
  induction n generalizing ptr prev with
  | zero =>
    cases ptr with
    | none => exact .pure _
    | some ptr => exact .stuck
  | succ n ih =>
    cases ptr with
    | none => exact .pure _
    | some ptr =>
      refine (observes_derefFile ptr).bind fun f => ?_
      refine .ite (.throw _) ?_
      exact (observes_modifyFile ptr _).bind fun _ => ih f.lruNext ptr

theorem observes_lruClear : Observes (gpFilesystemLruClear : Fs σ Unit) := by
  refine .get_bind (fun _ => rfl) fun w => ?_
  cases w.fs.lruFirst with
  | none => exact .pure _
  | some first =>
    exact (observes_lruClearLoop _ _ _).bind fun _ => .modify fun _ => rfl

theorem observes_lruMoveEnds :
    Observes (lruMoveEnds item f : Fs σ Unit) := by
  refine .get_bind (fun _ => rfl) fun w => ?_
  refine .ite (.ite ?_ ?_) (.ite ?_ ?_)
  · exact observes_setLru none none
  · exact observes_setLru w.fs.lruFirst f.lruPrev
  · cases f.lruNext with
    | none => exact .stuck
    | some next =>
      exact (observes_setLru (some next) _).bind fun _ => observes_modifyFile next _
  · exact .pure _

theorem observes_lruRemoveOne :
    Observes (gpFilesystemLruRemoveOne item : Fs σ Unit) := by
  refine (observes_derefFile item).bind fun f => ?_
  cases f.lruPrev with
  | none => exact .throw _
  | some prev =>
    refine (observes_modifyFile prev _).bind fun _ => (observes_derefFile item).bind fun f => ?_
    refine (observes_whenSome f.lruNext fun next => observes_modifyFile next _).bind fun _ => ?_
    refine (observes_derefFile item).bind fun f => ?_
    exact (observes_lruMoveEnds item f).bind fun _ => observes_modifyFile item _

theorem observes_lruFreeSlot (ptr : FileAddr) (type : CameraFileType) :
    Observes (lruFreeSlot ptr type : Fs σ Unit) := by
  refine (observes_derefFile ptr).bind fun f => ?_
  cases f.slot type with
  | none => exact .pure _
  | some r =>
    exact (observes_cameraFileSize r).bind fun _ =>
      (observes_setLruSize _).bind fun _ => observes_modifyFile ptr _

theorem observes_lruDropFirst (next : Option FileAddr) :
    Observes (lruDropFirst next : Fs σ Unit) := by
  refine .get_bind (fun _ => rfl) fun w => ?_
  cases next with
  | none => exact observes_setLru none none
  | some next => exact (observes_setLru (some next) _).bind fun _ => observes_modifyFile next _

theorem observes_lruFree : Observes (gpFilesystemLruFree : Fs σ Unit) := by
  refine .get_bind (fun _ => rfl) fun w => ?_
  cases w.fs.lruFirst with
  | none => exact .throw _
  | some ptr =>
    refine (observes_derefFile ptr).bind fun f => (observes_trace _).bind fun _ => ?_
    exact (observes_lruDropFirst _).bind fun _ => (observes_lruFreeSlot ptr .normal).bind fun _ =>
      (observes_lruFreeSlot ptr .raw).bind fun _ => (observes_lruFreeSlot ptr .audio).bind fun _ =>
      observes_modifyFile ptr _

theorem lruCountLoop_congr {fs fs' : CameraFilesystem} (h : fs.files = fs'.files) (n : Nat)
    (ptr : Option FileAddr) : lruCountLoop fs n ptr = lruCountLoop fs' n ptr := by
  induction n generalizing ptr with
  | zero => cases ptr <;> rfl
  | succ n ih =>
    cases ptr with
    | none => rfl
    | some ptr => simp only [lruCountLoop, h, ih]

theorem lruCheckLoop_congr {fs fs' : CameraFilesystem} (h : fs.files = fs'.files) (n : Nat)
    (ptr : Option FileAddr) (prev : FileAddr) :
    lruCheckLoop fs n ptr prev = lruCheckLoop fs' n ptr prev := by
  induction n generalizing ptr prev with
  | zero => cases ptr <;> rfl
  | succ n ih =>
    cases ptr with
    | none => rfl
    | some ptr => simp only [lruCheckLoop, h, ih]

theorem observes_lruCount : Observes (gpFilesystemLruCount : Fs σ Nat) := by
  intro w v h
  have hbrk : w.brk = v.brk := congrArg (·.brk) h
  have hfirst : w.fs.lruFirst = v.fs.lruFirst := congrArg (·.fs.lruFirst) h
  unfold gpFilesystemLruCount
  rw [lruCountLoop_congr (observed_files h), hbrk, hfirst, map_map, map_map]
  exact congrArg (Option.map · _) (funext fun n => by simp [h])

theorem observes_lruCheck : Observes (gpFilesystemLruCheck : Fs σ Unit) := by
  intro w v h
  have hbrk : w.brk = v.brk := congrArg (·.brk) h
  have hfirst : w.fs.lruFirst = v.fs.lruFirst := congrArg (·.fs.lruFirst) h
  unfold gpFilesystemLruCheck
  rw [hfirst]
  cases v.fs.lruFirst with
  | none => simp [h]
  | some first =>
    simp only
    rw [lruCheckLoop_congr (observed_files h), hbrk, map_map, map_map]
    exact congrArg (Option.map · _) (funext fun ok => by simp [h])

theorem observes_lruTrim : Observes (lruTrim n : Fs σ Unit) := by
  induction n with
  | zero => exact .stuck
  | succ n ih =>
    refine observes_lruCount.bind fun x => .get_bind (fun _ => rfl) fun w => ?_
    exact .ite (observes_lruFree.bind fun _ => ih) (.pure _)

theorem observes_lruUncount :
    Observes (lruUncount f type : Fs σ Unit) := by
  have hcount : Observes (uncountSlot (f.slot type) : Fs σ Unit) := by
    cases f.slot type with
    | none => exact .pure _
    | some oldfile =>
      exact (observes_cameraFileSize oldfile).bind fun _ => observes_setLruSize _
  cases type with
  | normal | raw | audio => exact hcount
  | preview | exif | metadata => exact .pure _
  | unknown n => exact .throw _

theorem observes_lruDetach :
    Observes (lruDetach xfile type : Fs σ Unit) := by
  refine (observes_derefFile xfile).bind fun f => .ite ?_ (.pure _)
  exact (observes_lruUncount f type).bind fun _ => observes_lruRemoveOne xfile

theorem observes_lruAttach : Observes (lruAttach xfile : Fs σ Unit) := by
  refine .get_bind (fun _ => rfl) fun w => ?_
  cases w.fs.lruFirst with
  | none => exact (observes_setLru _ _).bind fun _ => observes_modifyFile xfile _
  | some first =>
    cases w.fs.lruLast with
    | none => exact .stuck
    | some last =>
      exact (observes_modifyFile xfile _).bind fun _ => (observes_modifyFile last _).bind fun _ =>
        observes_setLru (some first) (some xfile)

theorem observes_lruInsert
    (size : Nat) : Observes (lruInsert xfile type file size : Fs σ Unit) := by
  refine (observes_derefFile xfile).bind fun f => ?_
  have hrest : Observes (do
      lruDetach xfile type
      lruAttach xfile
      let size ← cameraFileSize file
      Comp.modify fun w => w.setLruSize (ulongAdd w.fs.lruSize size) : Fs σ Unit) :=
    (observes_lruDetach xfile type).bind fun _ => (observes_lruAttach xfile).bind fun _ =>
      (observes_cameraFileSize file).bind fun _ => observes_setLruSize _
  intro w v h
  exact hrest { w with log := _ } { v with log := _ } h

/-! ### The tree -/

theorem observes_dropFile (file : FileAddr) :
    Observes (dropFile folder file : Fs σ Unit) := by
  refine (observes_derefFile file).bind fun f => .get_bind (fun _ => rfl) fun w => ?_
  refine (observes_trace _).bind fun _ => (observes_lruRemoveOne file).attempt.bind fun _ => ?_
  exact (observes_modifyFolder folder _).bind fun _ => .modify fun _ => rfl

theorem observes_deleteAllFiles :
    Observes (deleteAllFiles folder : Fs σ Unit) :=
  (observes_derefFolder folder).bind fun _ => .forM (observes_dropFile folder)

theorem observes_deleteFile (file : FileAddr) :
    Observes (deleteFile folder file : Fs σ Unit) := by
  refine (observes_derefFolder folder).bind fun fo => .ite ?_ ?_
  · exact observes_dropFile folder file
  · exact (observes_lruRemoveOne file).attempt.bind fun _ =>
      (observes_modifyFile file _).bind fun _ => .throw _

theorem observes_deleteFolder (parent child : FolderAddr) :
    Observes (deleteFolder parent child : Fs σ Unit) :=
  (observes_deleteAllFiles child).bind fun _ => (observes_modifyFolder parent _).bind fun _ =>
    .modify fun _ => rfl

theorem observes_recurseDeleteFolder :
    Observes (recurseDeleteFolder n folder : Fs σ Unit) := by
  induction n generalizing folder with
  | zero => exact .stuck
  | succ n ih =>
    exact (observes_derefFolder folder).bind fun _ => .forM fun child =>
      (ih child).bind fun _ => observes_deleteFolder folder child

theorem observes_appendFolderOne :
    Observes (appendFolderOne folder name : Fs σ FolderAddr) :=
  (observes_derefFolder folder).bind fun _ => (observes_allocFolder _).bind fun _ =>
    (observes_modifyFolder folder _).bind fun _ => .pure _

theorem observes_appendToFolder (path : List CString) :
    Observes (appendToFolder folder path : Fs σ FolderAddr) := by
  induction path generalizing folder with
  | nil => exact .pure _
  | cons name rest ih =>
    refine (observes_derefFolder folder).bind fun fo =>
      .get_bind (fun _ => rfl) fun w => ?_
    cases w.fs.findFolder fo.folders name with
    | none => exact observes_appendFolderOne folder name
    | some f => exact ih f

theorem observes_addFile :
    Observes (addFile folder f : Fs σ Unit) :=
  (observes_allocFile f).bind fun _ => observes_modifyFolder folder _

theorem observes_appendFile :
    Observes (appendFile folder name file : Fs σ Unit) := by
  refine (observes_derefFolder folder).bind fun fo =>
    .get_bind (fun _ => rfl) fun w => ?_
  cases w.fs.findFile fo.files name with
  | none => exact observes_addFile folder _
  | some _ => exact .throw _

theorem observes_internalAppend (filename : CString) :
    Observes (internalAppend folder filename : Fs σ Unit) := by
  refine (observes_derefFolder folder).bind fun fo =>
    .get_bind (fun _ => rfl) fun w => ?_
  cases w.fs.findFile fo.files filename with
  | none => exact observes_addFile folder _
  | some _ => exact .throw _

theorem observes_lookupFolderLoop {listFolders : CString → Fs σ (List CString)}
    (hlist : ∀ copy, Observes (listFolders copy)) (folder : FolderAddr)
    (path : List (CString × CString)) :
    Observes (lookupFolderLoop listFolders folder path : Fs σ (Option FolderAddr)) := by
  induction path generalizing folder with
  | nil => exact .pure _
  | cons step rest ih =>
    obtain ⟨copy, name⟩ := step
    have hend : Observes (lookupFolderEnd listFolders folder name rest : Fs σ _) := by
      refine (observes_derefFolder folder).bind fun fo =>
        .get_bind (fun _ => rfl) fun w => ?_
      cases w.fs.findFolder fo.folders name with
      | none => exact .pure _
      | some f => exact ih f
    refine (observes_derefFolder folder).bind fun fo => .ite ?_ hend
    exact (hlist copy).attempt.bind fun _ => hend

section
variable (funcs : CameraFilesystemFuncs σ)
  (foldername path folder filename name : CString) (info : CameraFileInfo)
  (context : GPContext) (type : CameraFileType) (n : Nat) (file : CameraFileRef)

theorem observes_appendFolder :
    Observes (appendFolder funcs folder context) :=
  (observes_appendToFolder rootfolder (components folder)).checks funcs context folder

theorem observes_deleteAllFoldersWith {lookup : CString → GPContext → Fs σ (Option FolderAddr)}
    (hlookup : ∀ path context, Observes (lookup path context)) (foldername : CString)
    (context : GPContext) : Observes (deleteAllFoldersWith funcs lookup foldername context) := by
  refine Observes.checks funcs ((hlookup foldername context).bind fun found => ?_) _ _
  cases found with
  | none => exact .stuck
  | some folder =>
    exact .get_bind (fun _ => rfl) fun _ => observes_recurseDeleteFolder _ folder

theorem observes_listFoldersWith {lookup : CString → GPContext → Fs σ (Option FolderAddr)}
    (hlookup : ∀ path context, Observes (lookup path context)) (folder : CString)
    (context : GPContext) : Observes (listFoldersWith funcs lookup folder context) := by
  refine Observes.checks funcs ((hlookup folder context).bind fun found => ?_) _ _
  cases found with
  | none => exact .throw _
  | some f =>
    have hend : Observes (do
        let fo ← derefFolder f
        let w ← Comp.get
        modifyFolder f fun fo => { fo with foldersDirty := false }
        pure (w.fs.folderNames fo.folders) : Fs σ (List CString)) :=
      (observes_derefFolder f).bind fun _ => .get_bind (fun _ => rfl) fun _ =>
        (observes_modifyFolder f _).bind fun _ => .pure _
    refine (observes_derefFolder f).bind fun fo => ?_
    cases fo.foldersDirty with
    | false => exact hend
    | true =>
      cases funcs.folderListFunc with
      | none => exact hend
      | some folderList =>
        refine (observes_callEnv _).bind fun answer => (observes_trace _).bind fun _ =>
          (Respects.ofExcept _).bind fun names => ?_
        refine (observes_deleteAllFoldersWith funcs hlookup folder context).bind fun _ => ?_
        refine .bind (.forM fun name => ?_) fun _ => hend
        exact (observes_appendFolderOne f name).bind fun _ => .pure _

theorem observes_lookupFolderAux (path : CString) (context : GPContext) :
    Observes (lookupFolderAux funcs n path context) := by
  induction n generalizing path context with
  | zero => exact observes_lookupFolderLoop (fun _ => .stuck) _ _
  | succ n ih =>
    exact observes_lookupFolderLoop (fun copy => observes_listFoldersWith funcs ih copy context) _ _

theorem observes_lookupFolder :
    Observes (lookupFolder funcs path context) := observes_lookupFolderAux funcs _ path context

theorem observes_listFolders :
    Observes (gpFilesystemListFolders funcs folder context) :=
  observes_listFoldersWith funcs (observes_lookupFolder funcs) folder context

theorem observes_deleteAllFolders :
    Observes (deleteAllFolders funcs foldername context) :=
  observes_deleteAllFoldersWith funcs (observes_lookupFolder funcs) foldername context

theorem Observes.lookupFolder {k : FolderAddr → Fs σ α} (hk : ∀ f, Observes (k f))
    (folder : CString) (context : GPContext) : Observes (do
      match ← lookupFolder funcs folder context with
      | none => Comp.throw gpErrorDirectoryNotFound
      | some f => k f) := by
  refine (observes_lookupFolder funcs folder context).bind fun found => ?_
  cases found with
  | none => exact .throw _
  | some f => exact hk f

/-! ### Listing, counting, appending and deleting -/

theorem observes_listFiles :
    Observes (gpFilesystemListFiles funcs folder context) := by
  refine Observes.checks funcs (Observes.lookupFolder funcs (fun f => ?_) folder context) _ _
  have hend : Observes (do
      modifyFolder f fun fo => { fo with filesDirty := false }
      let fo ← derefFolder f
      let w ← Comp.get
      pure (w.fs.fileNames fo.files) : Fs σ (List CString)) :=
    (observes_modifyFolder f _).bind fun _ => (observes_derefFolder f).bind fun _ =>
      .get_bind (fun _ => rfl) fun _ => .pure _
  refine (observes_derefFolder f).bind fun fo => ?_
  cases fo.filesDirty with
  | false => exact hend
  | true =>
    cases funcs.fileListFunc with
    | none => exact hend
    | some fileList =>
      exact (observes_deleteAllFiles f).bind fun _ => (observes_modifyFolder f _).bind fun _ =>
        (observes_callEnv _).bind fun _ => (observes_trace _).bind fun _ =>
        (Respects.ofExcept _).bind fun _ =>
        (Respects.forM (observes_internalAppend f)).bind fun _ => hend

theorem observes_lookupFolderFile :
    Observes (lookupFolderFile funcs folder filename context) := by
  refine Observes.lookupFolder funcs (fun xf => ?_) folder context
  have hend : Observes (lookupFileEnd xf filename : Fs σ _) := by
    refine (observes_derefFolder xf).bind fun fo =>
      .get_bind (fun _ => rfl) fun w => ?_
    cases w.fs.findFile fo.files filename with
    | some f => exact .pure _
    | none => exact .throw _
  refine (observes_derefFolder xf).bind fun fo => .ite ?_ hend
  exact (observes_listFiles funcs folder context).attempt.bind fun _ => hend

theorem observes_count :
    Observes (gpFilesystemCount funcs folder context) :=
  Observes.checks funcs (Observes.lookupFolder funcs (fun f =>
    (observes_derefFolder f).bind fun _ => .pure _) folder context) _ _

theorem observes_name (filenumber : Int) (context : GPContext) :
    Observes (gpFilesystemName funcs folder filenumber context) := by
  refine Observes.checks funcs (Observes.lookupFolder funcs (fun f => ?_) folder context) _ _
  refine (observes_derefFolder f).bind fun fo => ?_
  cases (if filenumber < 0 then none else fo.files[filenumber.toNat]?) with
  | none => exact .throw _
  | some a => exact (observes_derefFile a).bind fun _ => .pure _

theorem observes_numberAux :
    Observes (gpFilesystemNumberAux funcs folder filename context n) := by
  induction n with
  | zero => exact .stuck
  | succ n ih =>
    refine Observes.checks funcs (Observes.lookupFolder funcs (fun f => ?_) folder context) _ _
    refine (observes_derefFolder f).bind fun fo =>
      .get_bind (fun _ => rfl) fun w => ?_
    cases (w.fs.fileNames fo.files).idxOf? filename with
    | some num => exact .pure _
    | none =>
      refine .ite ?_ (.throw _)
      exact (observes_listFiles funcs folder context).bind fun _ => ih

theorem observes_append :
    Observes (gpFilesystemAppend funcs folder filename context) := by
  refine Observes.checks funcs ?_ _ _
  have hend : ∀ f, Observes (appendOnce filename f : Fs σ Unit) := by
    intro f
    refine (observes_internalAppend f filename).attempt.bind fun ret => ?_
    cases ret with
    | ok _ => exact .pure _
    | error e => exact .ite (.pure _) (.throw _)
  have hmain : ∀ f, Observes (appendEnd funcs folder filename context f) :=
    fun f => (observes_derefFolder f).bind fun _ => .ite
      ((observes_listFiles funcs folder context).bind fun _ => hend f) (hend f)
  refine (observes_lookupFolder funcs folder context).bind fun found => ?_
  cases found with
  | some f => exact hmain f
  | none => exact (observes_appendFolder funcs folder context).bind hmain

theorem observes_reset : Observes (gpFilesystemReset funcs) :=
  (observes_derefFolder rootfolder).bind fun _ => .get_bind (fun _ => rfl) fun _ =>
    (observes_trace _).bind fun _ => observes_lruClear.bind fun _ =>
    (observes_deleteAllFolders funcs _ _).bind fun _ =>
    (observes_modifyFolder rootfolder _).bind fun _ => observes_trace _

theorem observes_deleteFileNoop :
    Observes (gpFilesystemDeleteFileNoop funcs folder filename context) :=
  Observes.checks funcs ((observes_lookupFolderFile funcs folder filename context).bind fun p =>
    (observes_deleteFile p.1 p.2).bind fun _ => observes_trace _) _ _

theorem observes_fsDeleteFile :
    Observes (gpFilesystemDeleteFile funcs folder filename context) := by
  refine Observes.checks funcs ?_ _ _
  cases funcs.deleteFileFunc with
  | none => exact .throw _
  | some deleteFunc =>
    exact (observes_lookupFolderFile funcs folder filename context).bind fun p =>
      (observes_callEnv _).bind fun _ => (Respects.ofExcept _).bind fun _ =>
      (observes_deleteFile p.1 p.2).bind fun _ => observes_trace _

theorem observes_deleteAllOneByOne :
    Observes (gpFilesystemDeleteAllOneByOne funcs folder context) :=
  (observes_listFiles funcs folder context).bind fun _ => .forM fun name =>
    observes_fsDeleteFile funcs folder name context

theorem observes_deleteAll :
    Observes (gpFilesystemDeleteAll funcs folder context) := by
  refine Observes.checks funcs (Observes.lookupFolder funcs (fun f => ?_) folder context) _ _
  cases funcs.deleteAllFunc with
  | none => exact observes_deleteAllOneByOne funcs folder context
  | some deleteAll =>
    refine (observes_modifyFolder f _).bind fun _ => (observes_callEnv _).bind fun answer => ?_
    cases answer with
    | error e =>
      exact (observes_deleteAllOneByOne funcs folder context).bind fun _ =>
        observes_modifyFolder f _
    | ok _ =>
      exact (observes_deleteAllFiles f).bind fun _ => (observes_trace _).bind fun _ =>
        observes_modifyFolder f _

/-! ### Directories and file information -/

theorem observes_makeDir :
    Observes (gpFilesystemMakeDir funcs folder name context) := by
  refine Observes.checks funcs ?_ _ _
  cases funcs.makeDirFunc with
  | none => exact .throw _
  | some makeDir =>
    refine Observes.lookupFolder funcs (fun f => ?_) folder context
    exact (observes_callEnv _).bind fun _ => (Respects.ofExcept _).bind fun _ =>
      (observes_derefFolder f).bind fun _ => .get_bind (fun _ => rfl) fun _ =>
      (observes_trace _).bind fun _ => (observes_appendFolderOne f name).bind fun _ =>
      .pure _

theorem observes_removeDir :
    Observes (gpFilesystemRemoveDir funcs folder name context) := by
  refine Observes.checks funcs ?_ _ _
  cases funcs.removeDirFunc with
  | none => exact .throw _
  | some removeDir =>
    refine Observes.lookupFolder funcs (fun f => ?_) folder context
    have hend : Observes (do
        let fo ← derefFolder f
        let w ← Comp.get
        match w.fs.findFolder fo.folders name with
        | none => Comp.throw gpErrorDirectoryNotFound
        | some dir => do
          let d ← derefFolder dir
          if d.folders ≠ [] then Comp.throw gpErrorDirectoryExists
          if d.files ≠ [] then Comp.throw gpErrorFileExists
          trace (.removeDirFunc folder name)
          let answer ← callEnv (removeDir folder name)
          Comp.ofExcept answer
          deleteFolder f dir : Fs σ Unit) := by
      refine (observes_derefFolder f).bind fun fo =>
        .get_bind (fun _ => rfl) fun w => ?_
      cases w.fs.findFolder fo.folders name with
      | none => exact .throw _
      | some dir =>
        refine (observes_derefFolder dir).bind fun d =>
          .ite (.throw _) (.ite (.throw _) ?_)
        exact (observes_trace _).bind fun _ => (observes_callEnv _).bind fun _ =>
          (Respects.ofExcept _).bind fun _ => observes_deleteFolder f dir
    refine (observes_derefFolder f).bind fun fo => .ite ?_ hend
    exact (observes_listFolders funcs folder context).attempt.bind fun _ => hend

theorem observes_getInfo :
    Observes (gpFilesystemGetInfo funcs folder filename context) := by
  refine Observes.checks funcs ?_ _ _
  cases funcs.getInfoFunc with
  | none => exact .throw _
  | some getInfo =>
    refine (observes_lookupFolderFile funcs folder filename context).bind fun p => ?_
    have hend : Observes (do
        let f ← derefFile p.2
        pure f.info : Fs σ CameraFileInfo) :=
      (observes_derefFile p.2).bind fun _ => .pure _
    refine (observes_derefFile p.2).bind fun f => .ite ?_ hend
    exact (observes_callEnv _).bind fun _ => (observes_modifyFile p.2 _).bind fun _ =>
      (Respects.ofExcept _).bind fun _ => (observes_modifyFile p.2 _).bind fun _ => hend

theorem observes_setInfoNoop
     : Observes (gpFilesystemSetInfoNoop funcs folder filename info context) :=
  Observes.checks funcs ((observes_lookupFolderFile funcs folder filename context).bind fun p =>
    observes_modifyFile p.2 _) _ _

theorem observes_setInfo
     : Observes (gpFilesystemSetInfo funcs folder filename info context) := by
  refine Observes.checks funcs ?_ _ _
  cases funcs.setInfoFunc with
  | none => exact .throw _
  | some setInfo =>
    refine (observes_lookupFolderFile funcs folder filename context).bind fun p =>
      .ite (.throw _) ?_
    refine (observes_callEnv _).bind fun answer => ?_
    cases answer with
    | error e => exact (observes_modifyFile p.2 _).bind fun _ => .throw _
    | ok _ => exact .ite (observes_modifyFile p.2 _) (.pure _)

/-! ### File contents -/

theorem observes_fileCopy (destination source : CameraFileRef) :
    Observes (gpFileCopy funcs destination source) := by
  refine .get_bind (fun _ => rfl) fun w =>
    (observes_modifyCameraFile destination _).bind fun _ => ?_
  have hio : Observes (fileCopyIo funcs destination source w) :=
    (observes_callEnv _).bind fun _ => (observes_modifyCameraFile destination _).bind fun _ =>
      .ofExcept _
  cases (w.cameraFile destination).accesstype <;> cases (w.cameraFile source).accesstype
  case memory.memory =>
    exact .ite Respects.stuck (observes_modifyCameraFile destination _)
  case memory.fd =>
    cases gpFileGetSize (w.cameraFile source) with
    | error e =>
      exact (observes_modifyCameraFile destination _).bind fun _ => .throw _
    | ok _ => exact observes_modifyCameraFile destination _
  case fd.memory | fd.fd | handler.memory => exact hio
  all_goals exact .throw _

theorem observes_getFileFromCache (cached : Option CameraFileRef) :
    Observes (getFileFromCache funcs folder filename type file cached) := by
  cases cached with
  | none => exact .pure _
  | some c =>
    exact .get_bind (fun _ => rfl) fun w =>
      (observes_fileCopy funcs file c).attempt.bind fun _ => .ite
        ((observes_trace _).bind fun _ => .pure _) (.pure _)

theorem observes_getFileFromDriver (getFile : CString → CString → CameraFileType → CameraFile → σ →
      (Except Int Unit × CameraFile) × σ)
    (folder filename : CString) (type : CameraFileType) (file : CameraFileRef) :
    Observes (getFileFromDriver getFile folder filename type file) := by
  refine .get_bind (fun _ => rfl) fun w => (observes_callEnv _).bind fun _ =>
    (observes_modifyCameraFile file _).bind fun _ => (Respects.ofExcept _).bind fun _ =>
    (observes_modifyCameraFile file _).bind fun _ => ?_
  exact .ite (observes_modifyCameraFile file _) (.pure _)

theorem observes_getFile (context : GPContext) :
    Observes (gpFilesystemGetFile funcs folder filename type file context) := by
  refine Observes.checks funcs ((observes_modifyCameraFile file _).bind fun _ => ?_) _ _
  cases funcs.getFileFunc with
  | none => exact .throw _
  | some getFile =>
    refine (observes_lookupFolderFile funcs folder filename context).bind fun p =>
      (observes_derefFile p.2).bind fun f => .get_bind (fun _ => rfl) fun w =>
      (observes_trace _).bind fun _ => ?_
    have hmain : Observes (getFileEnd funcs getFile folder filename type file (f.slot type)) := by
      refine (observes_getFileFromCache funcs folder filename type file _).bind fun ret => ?_
      cases ret with
      | ok _ => exact .pure _
      | error _ => exact observes_getFileFromDriver getFile folder filename type file
    cases type with
    | unknown n => exact .throw _
    | preview | normal | raw | audio | exif | metadata => exact hmain

theorem observes_readFile (offset size : Nat) (context : GPContext) :
    Observes (gpFilesystemReadFile funcs folder filename type offset size context) := by
  refine Observes.checks funcs ?_ _ _
  cases funcs.readFileFunc with
  | none => exact .throw _
  | some readFile =>
    refine (observes_callEnv _).bind fun answer => ?_
    cases answer with
    | ok data => exact .pure _
    | error _ => exact .throw _

theorem observes_lruUpdate (context : GPContext) :
    Observes (gpFilesystemLruUpdate funcs folder filename type file context) := by
  refine (observes_cameraFileSize file).bind fun size => ?_
  have hpictures : Observes (initPicturesToKeep : Fs σ Unit) := by
    refine .modify fun w => ?_
    obtain ⟨fs, cameraFile, n, cached, brk, env, log⟩ := w
    by_cases hn : n = -1 <;> cases cached <;> simp only [World.observed, hn, if_true, if_false] <;>
      split <;> rfl
  refine hpictures.bind fun _ => .get_bind (fun _ => rfl) fun w =>
    (observes_lruTrim _).bind fun _ => ?_
  exact (observes_lookupFolderFile funcs folder filename context).bind fun p =>
    observes_lruInsert p.2 type file size

theorem observes_setFileMtime :
    Observes (setFileMtime funcs folder filename file) := by
  refine .get_bind (fun _ => rfl) fun w => .ite ?_ ?_
  · refine (observes_getInfo funcs folder filename .null).attempt.bind fun ret => ?_
    cases ret with
    | error _ => exact .pure _
    | ok info =>
      exact .ite (observes_modifyCameraFile file _) (.pure _)
  · exact observes_modifyCameraFile file _

theorem observes_setFileNoop (context : GPContext) :
    Observes (gpFilesystemSetFileNoop funcs folder filename type file context) := by
  refine Observes.checks funcs
    ((observes_lookupFolderFile funcs folder filename context).bind fun p => ?_) _ _
  have hstore : Observes (storeFile funcs folder filename type file p.2) :=
    (observes_modifyFile p.2 _).bind fun _ => .get_bind (fun _ => rfl) fun _ =>
      (observes_trace _).bind fun _ => observes_setFileMtime funcs folder filename file
  have hend : Observes (setFileEnd funcs folder filename type file p.2) := by
    refine observes_lruCheck.bind fun _ => ?_
    cases type with
    | unknown n => exact .throw _
    | preview | normal | raw | audio | exif | metadata => exact hstore
  refine .ite ?_ hend
  exact (observes_lruUpdate funcs folder filename type file context).bind fun _ => hend

theorem observes_putFile (context : GPContext) :
    Observes (gpFilesystemPutFile funcs folder filename type file context) := by
  refine Observes.checks funcs ?_ _ _
  cases funcs.putFileFunc with
  | none => exact .throw _
  | some putFile =>
    refine Observes.lookupFolder funcs (fun f => ?_) folder context
    refine .get_bind (fun _ => rfl) fun w => (observes_callEnv _).bind fun _ =>
      (Respects.ofExcept _).bind fun _ =>
      (observes_appendFile f filename file).attempt.bind fun ret => ?_
    have hend : Observes
        (if type ≠ .normal then pure () else Comp.ofExcept ret : Fs σ Unit) :=
      .ite (.pure _) (.ofExcept _)
    exact .ite ((observes_trace _).bind fun _ => hend) hend

/-! ### Runs -/

theorem exec_observes (op : FsOp) : Observes (op.exec funcs) := by
  cases op with
  | append folder filename context =>
    exact (observes_append funcs folder filename context).bind fun _ => .pure _
  | listFiles folder context =>
    exact (observes_listFiles funcs folder context).bind fun _ => .pure _
  | listFolders folder context =>
    exact (observes_listFolders funcs folder context).bind fun _ => .pure _
  | count folder context =>
    exact (observes_count funcs folder context).bind fun _ => .pure _
  | name folder filenumber context =>
    exact (observes_name funcs folder filenumber context).bind fun _ => .pure _
  | number folder filename context =>
    exact (observes_numberAux funcs folder filename context _).bind fun _ => .pure _
  | getFile folder filename type file context =>
    exact (observes_getFile funcs folder filename type file context).bind fun _ =>
      .pure _
  | readFile folder filename type offset size context =>
    exact (observes_readFile funcs folder filename type offset size context).bind fun _ =>
      .pure _
  | setFileNoop folder filename type file context =>
    exact (observes_setFileNoop funcs folder filename type file context).bind fun _ =>
      .pure _
  | putFile folder filename type file context =>
    exact (observes_putFile funcs folder filename type file context).bind fun _ =>
      .pure _
  | getInfo folder filename context =>
    exact (observes_getInfo funcs folder filename context).bind fun _ => .pure _
  | setInfo folder filename info context =>
    exact (observes_setInfo funcs folder filename info context).bind fun _ => .pure _
  | setInfoNoop folder filename info context =>
    exact (observes_setInfoNoop funcs folder filename info context).bind fun _ =>
      .pure _
  | deleteFile folder filename context =>
    exact (observes_fsDeleteFile funcs folder filename context).bind fun _ => .pure _
  | deleteFileNoop folder filename context =>
    exact (observes_deleteFileNoop funcs folder filename context).bind fun _ =>
      .pure _
  | deleteAll folder context =>
    exact (observes_deleteAll funcs folder context).bind fun _ => .pure _
  | makeDir folder dirname context =>
    exact (observes_makeDir funcs folder dirname context).bind fun _ => .pure _
  | removeDir folder dirname context =>
    exact (observes_removeDir funcs folder dirname context).bind fun _ => .pure _
  | reset => exact (observes_reset funcs).bind fun _ => .pure _

/-- From worlds that look the same, a run has the same results, and ends in worlds that look
the same. -/
theorem runOps_observes (ops : List FsOp) {w v : World σ} (h : w.observed = v.observed) :
    (runOps funcs ops w).map (Prod.map id World.observed) =
      (runOps funcs ops v).map (Prod.map id World.observed) := by
  induction ops generalizing w v with
  | nil => simp [runOps, h]
  | cons op ops ih =>
    have hop := exec_observes funcs op w v h
    simp only [runOps]
    cases hw : FsOp.exec funcs op w <;> cases hv : FsOp.exec funcs op v <;>
      simp only [hw, hv, Option.map_none, Option.map_some, reduceCtorEq, Option.some.injEq,
        Prod.mk.injEq, Prod.map] at hop
    · rfl
    · rename_i p q
      obtain ⟨r, w₁⟩ := p
      obtain ⟨r', v₁⟩ := q
      obtain ⟨rfl, hs⟩ := hop
      have hcons : ∀ u, (Option.map (fun p => (r :: p.1, p.2)) (runOps funcs ops u)).map
          (Prod.map id World.observed) =
            ((runOps funcs ops u).map (Prod.map id World.observed)).map
              (Prod.map (r :: ·) id) := fun u => by
        rw [map_map, map_map]
        rfl
      exact (hcons w₁).trans ((congrArg _ (ih hs)).trans (hcons v₁).symm)

end

end GPhoto2
