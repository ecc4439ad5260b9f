import GPhoto2.Filesys.Heap
import Mathlib.Algebra.Group.Int.Defs

/-!
# `GPhoto2.Filesys.Tree`: the folder tree

The static functions of `gphoto2-filesys.c` that walk and edit the folder tree, and
`gp_filesystem_list_folders`, which `lookup_folder` calls and which calls `lookup_folder`.

`lookup_folder` lists a folder that is marked `folders_dirty` before it looks for the next
component in it, under the part of the path walked so far. That part is shorter than the
path, so the recursion through `gp_filesystem_list_folders` goes down with the length of the
path: `lookupFolderAux` counts with it, and `lookupFolder_eq` (`Proofs.Filesys.Lookup`) shows
that `lookupFolder` and `gpFilesystemListFolders` satisfy the equations of the source.
-/

set_option autoImplicit false

/-! ## The list of cached content

The `gp_filesystem_lru_*` functions. The list is doubly linked through the file entries.
The first entry's `lru_prev` points to the entry itself, so that `lru_prev != NULL` says
"on the list" for every entry.

The loops along `lru_next` count down from the number of addresses handed out so far. A
loop that is still going after that many entries goes in a circle, and is stuck.
-/

namespace GPhoto2

open Lib

variable {σ : Type}

/-- `unsigned long` arithmetic. -/
def ulongAdd (a b : Nat) : Nat := (a + b) % 2 ^ 64

/-- `unsigned long` arithmetic. -/
def ulongSub (a b : Nat) : Nat := (a + (2 ^ 64 - b % 2 ^ 64)) % 2 ^ 64

/-- The loop of `gp_filesystem_lru_clear`, from `ptr` with the entry before it. -/
def lruClearLoop : Nat → Option FileAddr → FileAddr → Fs σ Unit
  | _, none, _ => pure ()
  | 0, some _, _ => Comp.stuck
  | n + 1, some ptr, prev => do
    let f ← derefFile ptr
    if f.lruPrev ≠ some prev then Comp.throw gpError
    modifyFile ptr fun f => { f with lruPrev := none, lruNext := none }
    lruClearLoop n f.lruNext ptr

/-- `gp_filesystem_lru_clear`. -/
def gpFilesystemLruClear : Fs σ Unit := do
  let w ← Comp.get
  match w.fs.lruFirst with
  | none => pure ()
  | some first => do
    lruClearLoop w.brk (some first) first
    Comp.modify fun w => (w.setLru none none).setLruSize 0

/-- The cases of `gp_filesystem_lru_remove_one`: `item` with the pointers `f` is at one of
the ends. -/
def lruMoveEnds (item : FileAddr) (f : CameraFilesystemFile) : Fs σ Unit := do
  let w ← Comp.get
  if w.fs.lruLast = some item then
    if w.fs.lruFirst = some item then
      -- Case 1: `item` is the only one in the list.
      Comp.modify (·.setLru none none)
    else
      -- Case 2: `item` is the last in the list.
      Comp.modify (·.setLru w.fs.lruFirst f.lruPrev)
  else if w.fs.lruFirst = some item then
    -- Case 3: `item` is the first in the list.
    match f.lruNext with
    | none => Comp.stuck
    | some next => do
      Comp.modify (·.setLru (some next) w.fs.lruLast)
      modifyFile next fun n => { n with lruPrev := some next }
  else
    pure ()

/-- `gp_filesystem_lru_remove_one`. -/
def gpFilesystemLruRemoveOne (item : FileAddr) : Fs σ Unit := do
  let f ← derefFile item
  match f.lruPrev with
  | none => Comp.throw gpError
  | some prev => do
    -- Update the prev and next pointers.
    modifyFile prev fun p => { p with lruNext := f.lruNext }
    let f ← derefFile item
    whenSome f.lruNext fun next => modifyFile next fun n => { n with lruPrev := f.lruPrev }
    let f ← derefFile item
    lruMoveEnds item f
    modifyFile item fun f => { f with lruPrev := none, lruNext := none }

/-- Drop one cached content of an evicted entry, and take its size off `lru_size`. -/
def lruFreeSlot (ptr : FileAddr) (type : CameraFileType) : Fs σ Unit := do
  let f ← derefFile ptr
  match f.slot type with
  | none => pure ()
  | some r => do
    let size ← cameraFileSize r
    Comp.modify fun w => w.setLruSize (ulongSub w.fs.lruSize size)
    modifyFile ptr (·.setSlot none type)

/-- The step of `gp_filesystem_lru_free` that makes the next entry the first. -/
def lruDropFirst (next : Option FileAddr) : Fs σ Unit := do
  let w ← Comp.get
  match next with
  | some next => do
    Comp.modify (·.setLru (some next) w.fs.lruLast)
    modifyFile next fun n => { n with lruPrev := some next }
  | none => Comp.modify (·.setLru none none)

/-- `gp_filesystem_lru_free`. -/
def gpFilesystemLruFree : Fs σ Unit := do
  let w ← Comp.get
  match w.fs.lruFirst with
  | none => Comp.throw gpErrorBadParameters
  | some ptr => do
    let f ← derefFile ptr
    trace (.lruFree (w.lruEntry ptr f))
    -- Remove it from the list.
    lruDropFirst f.lruNext
    -- Free its content. A failing size query returns from here, with the entry's own
    -- pointers still set.
    lruFreeSlot ptr .normal
    lruFreeSlot ptr .raw
    lruFreeSlot ptr .audio
    modifyFile ptr fun f => { f with lruPrev := none, lruNext := none }

/-- The loop of `gp_filesystem_lru_count`. -/
def lruCountLoop (fs : CameraFilesystem) : Nat → Option FileAddr → Option Nat
  | _, none => some 0
  | 0, some _ => none
  | n + 1, some ptr =>
    match fs.files ptr with
    | none => none
    | some f => (lruCountLoop fs n f.lruNext).map
        (· + if f.normal.isSome || f.raw.isSome || f.audio.isSome then 1 else 0)

/-- `gp_filesystem_lru_count`. -/
def gpFilesystemLruCount : Fs σ Nat := fun w =>
  (lruCountLoop w.fs w.brk w.fs.lruFirst).map fun n => (.ok n, w)

/-- `PICTURES_TO_KEEP`. -/
def PICTURES_TO_KEEP : Int := 2

/-- The head of `gp_filesystem_lru_update`: read the setting on the first call, and replace
a negative number. -/
def initPicturesToKeep : Fs σ Unit := Comp.modify fun w =>
  let w :=
    if w.picturesToKeep = -1 then
      match w.cachedImages with
      | some n => { w with picturesToKeep := n }
      | none => { w with cachedImages := some PICTURES_TO_KEEP }
    else w
  if w.picturesToKeep < 0 then { w with picturesToKeep := PICTURES_TO_KEEP } else w

/-- The loop of `gp_filesystem_lru_update` that evicts entries while there are too many. -/
def lruTrim : Nat → Fs σ Unit
  | 0 => Comp.stuck
  | n + 1 => do
    let x ← gpFilesystemLruCount
    let w ← Comp.get
    if (x : Int) > w.picturesToKeep then do
      gpFilesystemLruFree
      lruTrim n

/-- The content about to be replaced no longer counts. -/
def lruUncount (f : CameraFilesystemFile) (type : CameraFileType) : Fs σ Unit :=
  match type with
  | .normal | .raw | .audio =>
    match f.slot type with
    | none => pure ()
    | some oldfile => do
      let size ← cameraFileSize oldfile
      Comp.modify fun w => w.setLruSize (ulongSub w.fs.lruSize size)
  | .preview | .exif | .metadata => pure ()
  | .unknown _ => Comp.throw gpError

/-- The middle of `gp_filesystem_lru_update`: an entry that is on the list already leaves
it. -/
def lruDetach (xfile : FileAddr) (type : CameraFileType) : Fs σ Unit := do
  let f ← derefFile xfile
  if f.lruPrev ≠ none then do
    lruUncount f type
    gpFilesystemLruRemoveOne xfile

/-- The end of `gp_filesystem_lru_update`: put the entry at the end of the list. -/
def lruAttach (xfile : FileAddr) : Fs σ Unit := do
  let w ← Comp.get
  match w.fs.lruFirst with
  | none => do
    Comp.modify (·.setLru (some xfile) (some xfile))
    modifyFile xfile fun f => { f with lruPrev := some xfile }
  | some first =>
    match w.fs.lruLast with
    | none => Comp.stuck
    | some last => do
      modifyFile xfile fun f => { f with lruNext := none, lruPrev := some last }
      modifyFile last fun f => { f with lruNext := some xfile }
      Comp.modify (·.setLru (some first) (some xfile))

/-- The loop of `gp_filesystem_lru_check`. -/
def lruCheckLoop (fs : CameraFilesystem) : Nat → Option FileAddr → FileAddr → Option Bool
  | _, none, _ => some true
  | 0, some _, _ => none
  | n + 1, some ptr, prev =>
    match fs.files ptr with
    | none => none
    | some f => if f.lruPrev ≠ some prev then some false else lruCheckLoop fs n f.lruNext ptr

/-- `gp_filesystem_lru_check`. -/
def gpFilesystemLruCheck : Fs σ Unit := fun w =>
  match w.fs.lruFirst with
  | none => some (.ok (), w)
  | some first =>
    (lruCheckLoop w.fs w.brk (some first) first).map fun ok =>
      (if ok then .ok () else .error gpError, w)

variable {σ : Type} (funcs : CameraFilesystemFuncs σ)

/-! ### Dropping entries -/

/-- One round of the loop in `delete_all_files`: the entry leaves the LRU list and the
folder, and is freed with its cached contents. -/
def dropFile (folder : FolderAddr) (file : FileAddr) : Fs σ Unit := do
  let f ← derefFile file
  let w ← Comp.get
  trace (.dropFile (w.lruEntry file f))
  let _ ← Comp.attempt (gpFilesystemLruRemoveOne file)
  modifyFolder folder fun fo => { fo with files := fo.files.erase file }
  freeFile file

/-- `delete_all_files`. -/
def deleteAllFiles (folder : FolderAddr) : Fs σ Unit := do
  let fo ← derefFolder folder
  fo.files.forM (dropFile folder)

/-- `delete_file`. -/
def deleteFile (folder : FolderAddr) (file : FileAddr) : Fs σ Unit := do
  let fo ← derefFolder folder
  if file ∈ fo.files then
    dropFile folder file
  else do
    -- Not in the folder: the entry loses its contents and stays.
    let _ ← Comp.attempt (gpFilesystemLruRemoveOne file)
    modifyFile file fun f => { f with
      preview := none, normal := none, raw := none, audio := none, exif := none,
      metadata := none }
    Comp.throw gpError

/-- `delete_folder` on the link of `parent` to `child`. -/
def deleteFolder (parent child : FolderAddr) : Fs σ Unit := do
  deleteAllFiles child
  modifyFolder parent fun fo => { fo with folders := fo.folders.erase child }
  freeFolder child

/-- `recurse_delete_folder`. The count is the depth left; the addresses grow on the way down
from a folder, so their number bounds the depth. -/
def recurseDeleteFolder : Nat → FolderAddr → Fs σ Unit
  | 0, _ => Comp.stuck
  | n + 1, folder => do
    let fo ← derefFolder folder
    fo.folders.forM fun child => do
      recurseDeleteFolder n child
      deleteFolder folder child

/-! ### New entries -/

/-- `append_folder_one`. -/
def appendFolderOne (folder : FolderAddr) (name : CString) : Fs σ FolderAddr := do
  let _ ← derefFolder folder
  let f ← allocFolder (.new name)
  modifyFolder folder fun fo => { fo with folders := f :: fo.folders }
  pure f

/-- `append_to_folder`, over the components left in `foldername`. A missing component is
created, and the walk ends there. -/
def appendToFolder : FolderAddr → List CString → Fs σ FolderAddr
  | folder, [] => pure folder
  | folder, name :: rest => do
    let fo ← derefFolder folder
    let w ← Comp.get
    match w.fs.findFolder fo.folders name with
    | some f => appendToFolder f rest
    | none => appendFolderOne folder name

/-- `append_folder`. -/
def appendFolder (folder : CString) (context : GPContext) : Fs σ FolderAddr := do
  checkCancel funcs context
  checkAbsolute folder
  appendToFolder rootfolder (components folder)

/-- Put a new file entry at the end of the folder. -/
def addFile (folder : FolderAddr) (f : CameraFilesystemFile) : Fs σ Unit := do
  let a ← allocFile f
  modifyFolder folder fun fo => { fo with files := fo.files ++ [a] }

/-- `append_file`. -/
def appendFile (folder : FolderAddr) (name : CString) (file : CameraFileRef) :
    Fs σ Unit := do
  let fo ← derefFolder folder
  let w ← Comp.get
  match w.fs.findFile fo.files name with
  | some _ => Comp.throw gpError
  | none => addFile folder (.new name (some file))

/-- `internal_append`. -/
def internalAppend (folder : FolderAddr) (filename : CString) : Fs σ Unit := do
  let fo ← derefFolder folder
  let w ← Comp.get
  match w.fs.findFile fo.files filename with
  | some _ => Comp.throw gpErrorFileExists
  | none => addFile folder (.new filename none)

/-! ### Lookup and listing of folders -/

/-- The loop of `lookup_folder`, over the components left. -/
def lookupFolderLoop (listFolders : CString → Fs σ (List CString)) :
    FolderAddr → List (CString × CString) → Fs σ (Option FolderAddr)
  | folder, [] => pure (some folder)
  | folder, (copy, name) :: rest => do
    let fo ← derefFolder folder
    -- Check if we need to load the folder ... A failure is only logged.
    if fo.foldersDirty then do
      let _ ← Comp.attempt (listFolders copy)
    let fo ← derefFolder folder
    let w ← Comp.get
    match w.fs.findFolder fo.folders name with
    | none => pure none
    | some f => lookupFolderLoop listFolders f rest

/-- `delete_all_folders`, with `lookup_folder` as an argument. A null folder is not
checked for. -/
def deleteAllFoldersWith (lookup : CString → GPContext → Fs σ (Option FolderAddr))
    (foldername : CString) (context : GPContext) : Fs σ Unit := do
  checkCancel funcs context
  checkAbsolute foldername
  match ← lookup foldername context with
  | none => Comp.stuck
  | some folder => do
    let w ← Comp.get
    recurseDeleteFolder w.brk folder

/-- `gp_filesystem_list_folders`, with `lookup_folder` as an argument. -/
def listFoldersWith (lookup : CString → GPContext → Fs σ (Option FolderAddr))
    (folder : CString) (context : GPContext) : Fs σ (List CString) := do
  checkCancel funcs context
  checkAbsolute folder
  -- Search the folder
  match ← lookup folder context with
  | none => Comp.throw gpErrorDirectoryNotFound
  | some f => do
    let fo ← derefFolder f
    -- If the folder is dirty, query the contents.
    match fo.foldersDirty, funcs.folderListFunc with
    | true, some folderList => do
      let answer ← callEnv (folderList folder)
      trace (.folderListFunc folder answer)
      let names ← Comp.ofExcept answer
      deleteAllFoldersWith funcs lookup folder context
      names.forM fun name => do
        let _ ← appendFolderOne f name
    | _, _ => pure ()
    let fo ← derefFolder f
    let w ← Comp.get
    -- The folder is clean now
    modifyFolder f fun fo => { fo with foldersDirty := false }
    pure (w.fs.folderNames fo.folders)

/-- `lookup_folder` from the root folder, for paths of at most the given length. -/
def lookupFolderAux : Nat → CString → GPContext → Fs σ (Option FolderAddr)
  | 0, path, _ => lookupFolderLoop (fun _ => Comp.stuck) rootfolder (pathSteps path)
  | n + 1, path, context =>
    lookupFolderLoop (fun copy => listFoldersWith funcs (lookupFolderAux n) copy context)
      rootfolder (pathSteps path)

/-- `lookup_folder`, from the root folder. -/
def lookupFolder (path : CString) (context : GPContext) : Fs σ (Option FolderAddr) :=
  lookupFolderAux funcs path.length path context

/-- `gp_filesystem_list_folders`. -/
def gpFilesystemListFolders (folder : CString) (context : GPContext) :
    Fs σ (List CString) :=
  listFoldersWith funcs (lookupFolder funcs) folder context

/-- `delete_all_folders`. -/
def deleteAllFolders (foldername : CString) (context : GPContext) : Fs σ Unit :=
  deleteAllFoldersWith funcs (lookupFolder funcs) foldername context

end GPhoto2
