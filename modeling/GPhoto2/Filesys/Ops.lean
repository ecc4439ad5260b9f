import GPhoto2.Filesys.Tree

/-!
# `GPhoto2.Filesys.Ops`: the public functions of the filesystem

The `gp_filesystem_*` functions a frontend, the camera layer or a driver calls. Each one
follows its source function statement by statement: the parameter checks (`CC`, `CA`), the
lookup, the driver call, the update of the entries.

`lookupFolderFile` comes after `gpFilesystemListFiles`, which it calls.
-/

set_option autoImplicit false

namespace GPhoto2

open Lib

variable {σ : Type} (funcs : CameraFilesystemFuncs σ)

/-! ### Listing and counting -/

/-- `gp_filesystem_list_files`. -/
def gpFilesystemListFiles (folder : CString) (context : GPContext) :
    Fs σ (List CString) := do
  checkCancel funcs context
  checkAbsolute folder
  -- Search the folder
  match ← lookupFolder funcs folder context with
  | none => Comp.throw gpErrorDirectoryNotFound
  | some f => do
    let fo ← derefFolder f
    -- If the folder is dirty, delete the contents and query the camera
    match fo.filesDirty, funcs.fileListFunc with
    | true, some fileList => do
      deleteAllFiles f
      -- set it to non-dirty now, so we do not recurse via _append.
      modifyFolder f fun fo => { fo with filesDirty := false }
      let answer ← callEnv (fileList folder)
      trace (.fileListFunc folder answer)
      let names ← Comp.ofExcept answer
      names.forM (internalAppend f)
    | _, _ => pure ()
    -- The folder is clean now
    modifyFolder f fun fo => { fo with filesDirty := false }
    let fo ← derefFolder f
    let w ← Comp.get
    pure (w.fs.fileNames fo.files)

/-- `lookup_folder_file`. -/
def lookupFolderFile (folder filename : CString) (context : GPContext) :
    Fs σ (FolderAddr × FileAddr) := do
  match ← lookupFolder funcs folder context with
  | none => Comp.throw gpErrorDirectoryNotFound
  | some xf => do
    let fo ← derefFolder xf
    -- Check if we need to load the filelist of the folder ... A failure is only logged.
    if fo.filesDirty then do
      let _ ← Comp.attempt (gpFilesystemListFiles funcs folder context)
    let fo ← derefFolder xf
    let w ← Comp.get
    match w.fs.findFile fo.files filename with
    | some f => pure (xf, f)
    | none => Comp.throw gpErrorFileNotFound

/-- `gp_filesystem_count`. -/
def gpFilesystemCount (folder : CString) (context : GPContext) : Fs σ Nat := do
  checkCancel funcs context
  checkAbsolute folder
  match ← lookupFolder funcs folder context with
  | none => Comp.throw gpErrorDirectoryNotFound
  | some f => do
    let fo ← derefFolder f
    pure fo.files.length

/-- `gp_filesystem_name`. -/
def gpFilesystemName (folder : CString) (filenumber : Int) (context : GPContext) :
    Fs σ CString := do
  checkCancel funcs context
  checkAbsolute folder
  match ← lookupFolder funcs folder context with
  | none => Comp.throw gpErrorDirectoryNotFound
  | some f => do
    let fo ← derefFolder f
    -- The count down from a negative number never meets zero.
    match if filenumber < 0 then none else fo.files[filenumber.toNat]? with
    | none => Comp.throw gpErrorFileNotFound
    | some a => do
      let file ← derefFile a
      pure file.name

/-- `gp_filesystem_number`. It lists a dirty folder and starts over; the count is the
number of starts left. -/
def gpFilesystemNumberAux (folder filename : CString) (context : GPContext) :
    Nat → Fs σ Nat
  | 0 => Comp.stuck
  | n + 1 => do
    checkCancel funcs context
    checkAbsolute folder
    match ← lookupFolder funcs folder context with
    | none => Comp.throw gpErrorDirectoryNotFound
    | some f => do
      let fo ← derefFolder f
      let w ← Comp.get
      match (w.fs.fileNames fo.files).idxOf? filename with
      | some num => pure num
      | none =>
        -- Ok, we didn't find the file. Is the folder dirty?
        if fo.filesDirty then do
          -- The folder is dirty. List all files to make it clean
          let _ ← gpFilesystemListFiles funcs folder context
          gpFilesystemNumberAux folder filename context n
        else
          Comp.throw gpErrorFileNotFound

/-- `gp_filesystem_number`. A start that finds the folder dirty again comes after an
ancestor was listed anew, and there is one ancestor for each component. -/
def gpFilesystemNumber (folder filename : CString) (context : GPContext) : Fs σ Nat :=
  gpFilesystemNumberAux funcs folder filename context ((pathSteps folder).length + 2)

/-! ### Appending, deleting and resetting -/

/-- `gp_filesystem_append`. -/
def gpFilesystemAppend (folder filename : CString) (context : GPContext) :
    Fs σ Unit := do
  checkCancel funcs context
  checkAbsolute folder
  -- Check folder for existence, if not, create it.
  let f ← match ← lookupFolder funcs folder context with
    | some f => pure f
    | none => appendFolder funcs folder context
  let fo ← derefFolder f
  if fo.filesDirty then do
    -- Need to load folder from driver first ... capture case
    let _ ← gpFilesystemListFiles funcs folder context
  match ← Comp.attempt (internalAppend f filename) with
  | .ok _ => pure ()
  | .error e =>
    -- not an error here ... just in case we add files twice to the list
    if e = gpErrorFileExists then pure () else Comp.throw e

/-- `gp_filesystem_reset`. -/
def gpFilesystemReset : Fs σ Unit := do
  let fo ← derefFolder rootfolder
  let w ← Comp.get
  trace (.resetCall (w.fs.cachesAny fo.files))
  gpFilesystemLruClear
  deleteAllFolders funcs ['/'] .null
  modifyFolder rootfolder fun fo => { fo with filesDirty := true, foldersDirty := true }
  trace .resetDone

/-- `gp_filesystem_delete_file`. -/
def gpFilesystemDeleteFile (folder filename : CString) (context : GPContext) :
    Fs σ Unit := do
  checkCancel funcs context
  checkAbsolute folder
  -- First of all, do we support file deletion?
  match funcs.deleteFileFunc with
  | none => Comp.throw gpErrorNotSupported
  | some deleteFunc => do
    -- Search the folder and the file
    let (f, file) ← lookupFolderFile funcs folder filename context
    -- Delete the file
    let answer ← callEnv (deleteFunc folder filename)
    Comp.ofExcept answer
    deleteFile f file
    trace (.deletedFile folder filename)

/-- `gp_filesystem_delete_file_noop`. -/
def gpFilesystemDeleteFileNoop (folder filename : CString) (context : GPContext) :
    Fs σ Unit := do
  checkCancel funcs context
  checkAbsolute folder
  let (f, file) ← lookupFolderFile funcs folder filename context
  deleteFile f file
  trace (.deletedFile folder filename)

/-- `gp_filesystem_delete_all_one_by_one`: from the last name of the list to the first. -/
def gpFilesystemDeleteAllOneByOne (folder : CString) (context : GPContext) :
    Fs σ Unit := do
  let list ← gpFilesystemListFiles funcs folder context
  list.reverse.forM fun name => gpFilesystemDeleteFile funcs folder name context

/-- `gp_filesystem_delete_all`. -/
def gpFilesystemDeleteAll (folder : CString) (context : GPContext) : Fs σ Unit := do
  checkCancel funcs context
  checkAbsolute folder
  -- Make sure this folder exists
  match ← lookupFolder funcs folder context with
  | none => Comp.throw gpErrorDirectoryNotFound
  | some f =>
    match funcs.deleteAllFunc with
    | none => gpFilesystemDeleteAllOneByOne funcs folder context
    | some deleteAll => do
      -- Mark the folder dirty - it could be that an error happens, and then we don't know
      -- which files have been deleted and which not.
      modifyFolder f fun fo => { fo with filesDirty := true }
      let answer ← callEnv (deleteAll folder)
      match answer with
      | .error _ => gpFilesystemDeleteAllOneByOne funcs folder context
      | .ok _ => do
        deleteAllFiles f
        trace (.deletedAll folder)
      -- No error happened. We can be sure that all files have been deleted.
      modifyFolder f fun fo => { fo with filesDirty := false }

/-! ### Directories -/

/-- `gp_filesystem_make_dir`. -/
def gpFilesystemMakeDir (folder name : CString) (context : GPContext) : Fs σ Unit := do
  checkCancel funcs context
  checkAbsolute folder
  match funcs.makeDirFunc with
  | none => Comp.throw gpErrorNotSupported
  | some makeDir => do
    -- Search the folder
    match ← lookupFolder funcs folder context with
    | none => Comp.throw gpErrorDirectoryNotFound
    | some f => do
      -- Create the directory
      let answer ← callEnv (makeDir folder name)
      Comp.ofExcept answer
      let fo ← derefFolder f
      let w ← Comp.get
      trace (.makeDirFunc folder name (w.fs.folderNames fo.folders))
      -- and append to internal fs
      let _ ← appendFolderOne f name

/-- `gp_filesystem_remove_dir`. -/
def gpFilesystemRemoveDir (folder name : CString) (context : GPContext) : Fs σ Unit := do
  checkCancel funcs context
  checkAbsolute folder
  match funcs.removeDirFunc with
  | none => Comp.throw gpErrorNotSupported
  | some removeDir => do
    match ← lookupFolder funcs folder context with
    | none => Comp.throw gpErrorDirectoryNotFound
    | some f => do
      let fo ← derefFolder f
      -- Check if we need to load the folder ... A failure is not looked at.
      if fo.foldersDirty then do
        let _ ← Comp.attempt (gpFilesystemListFolders funcs folder context)
      let fo ← derefFolder f
      let w ← Comp.get
      match w.fs.findFolder fo.folders name with
      | none => Comp.throw gpErrorDirectoryNotFound
      | some dir => do
        -- Make sure there are neither files nor folders in the folder that is to be
        -- removed.
        let d ← derefFolder dir
        if d.folders ≠ [] then Comp.throw gpErrorDirectoryExists
        if d.files ≠ [] then Comp.throw gpErrorFileExists
        -- Remove the directory
        trace (.removeDirFunc folder name)
        let answer ← callEnv (removeDir folder name)
        Comp.ofExcept answer
        deleteFolder f dir

/-! ### File information -/

/-- `gp_filesystem_get_info`. -/
def gpFilesystemGetInfo (folder filename : CString) (context : GPContext) :
    Fs σ CameraFileInfo := do
  checkCancel funcs context
  checkAbsolute folder
  match funcs.getInfoFunc with
  | none => Comp.throw gpErrorNotSupported
  | some getInfo => do
    -- Search folder and file and get info if needed
    let (_, file) ← lookupFolderFile funcs folder filename context
    let f ← derefFile file
    if f.infoDirty then do
      let (answer, info) ← callEnv (getInfo folder filename f.info)
      modifyFile file fun f => { f with info := info }
      Comp.ofExcept answer
      modifyFile file fun f => { f with infoDirty := false }
    let f ← derefFile file
    pure f.info

/-- `gp_filesystem_set_info_noop`. -/
def gpFilesystemSetInfoNoop (folder filename : CString) (info : CameraFileInfo)
    (context : GPContext) : Fs σ Unit := do
  checkCancel funcs context
  checkAbsolute folder
  let (_, xfile) ← lookupFolderFile funcs folder filename context
  modifyFile xfile fun f => { f with info := info, infoDirty := false }

/-- The read-only attributes `gp_filesystem_set_info` refuses. -/
def setsReadOnlyField (info : CameraFileInfo) : Bool :=
  hasField info.file.fields gpFileInfoType ||
  hasField info.file.fields gpFileInfoSize ||
  hasField info.file.fields gpFileInfoWidth ||
  hasField info.file.fields gpFileInfoHeight ||
  hasField info.file.fields gpFileInfoStatus ||
  hasField info.preview.fields gpFileInfoType ||
  hasField info.preview.fields gpFileInfoSize ||
  hasField info.preview.fields gpFileInfoWidth ||
  hasField info.preview.fields gpFileInfoHeight ||
  hasField info.preview.fields gpFileInfoStatus ||
  hasField info.audio.fields gpFileInfoType ||
  hasField info.audio.fields gpFileInfoSize ||
  hasField info.audio.fields gpFileInfoStatus

/-- `gp_filesystem_set_info`. -/
def gpFilesystemSetInfo (folder filename : CString) (info : CameraFileInfo)
    (context : GPContext) : Fs σ Unit := do
  checkCancel funcs context
  checkAbsolute folder
  match funcs.setInfoFunc with
  | none => Comp.throw gpErrorNotSupported
  | some setInfo => do
    -- Search folder and file
    let (_, xfile) ← lookupFolderFile funcs folder filename context
    -- Check if people want to set read-only attributes
    if setsReadOnlyField info then Comp.throw gpErrorBadParameters
    -- Set the info. If anything goes wrong, mark info as dirty, because the operation
    -- could have been partially successful.
    let answer ← callEnv (setInfo folder filename info)
    match answer with
    | .error e => do
      modifyFile xfile fun f => { f with infoDirty := true }
      Comp.throw e
    | .ok _ =>
      if hasField info.file.fields gpFileInfoPermissions then
        modifyFile xfile fun f =>
          { f with info := { f.info with
              file := { f.info.file with permissions := info.file.permissions } } }

/-! ### File contents -/

/-- `gp_file_copy`, from the cached file `source`. Only the copies within memory and from a
descriptor into memory are spelled out; the others go through the outside world. -/
def gpFileCopy (destination source : CameraFileRef) : Fs σ Unit := do
  let w ← Comp.get
  let src := w.cameraFile source
  modifyCameraFile destination fun d =>
    { d with name := src.name, mimeType := src.mimeType, mtime := src.mtime }
  match (w.cameraFile destination).accesstype, src.accesstype with
  | .memory, .memory =>
    -- A copy onto itself frees the very buffer it is about to read.
    if destination = source then Comp.stuck
    else modifyCameraFile destination fun d => { d with data := src.data }
  | .memory, .fd =>
    match gpFileGetSize src with
    | .error e => do
      modifyCameraFile destination fun d => { d with data := [] }
      Comp.throw e
    | .ok _ => modifyCameraFile destination fun d => { d with data := src.data }
  | .fd, .fd | .fd, .memory | .handler, .memory => do
    let (answer, data) ← callEnv (funcs.copyIo (w.cameraFile destination) src)
    modifyCameraFile destination fun d => { d with data := data }
    Comp.ofExcept answer
  | _, _ => Comp.throw gpError

/-- The part of `gp_filesystem_get_file_impl` that asks the cache. -/
def getFileFromCache (folder filename : CString) (type : CameraFileType)
    (file : CameraFileRef) (cached : Option CameraFileRef) : Fs σ (Except Int Unit) :=
  match cached with
  | none => pure (.error gpError)
  | some cached => do
    let w ← Comp.get
    let ret ← Comp.attempt (gpFileCopy funcs file cached)
    if ret = .ok () then
      trace (.lruUsed folder filename type (w.cameraFile cached).data)
    pure ret

/-- The part of `gp_filesystem_get_file_impl` that asks the driver. -/
def getFileFromDriver
    (getFile : CString → CString → CameraFileType → CameraFile → σ →
      (Except Int Unit × CameraFile) × σ)
    (folder filename : CString) (type : CameraFileType) (file : CameraFileRef) :
    Fs σ Unit := do
  let w ← Comp.get
  let (answer, content) ← callEnv (getFile folder filename type (w.cameraFile file))
  modifyCameraFile file fun d => { d with
    name := content.name, mimeType := content.mimeType, mtime := content.mtime,
    data := content.data }
  Comp.ofExcept answer
  -- We don't trust the camera drivers
  modifyCameraFile file (gpFileSetName · filename)
  -- Often, thumbnails are of a different mime type than the normal picture. In this case,
  -- we should rename the file.
  if type ≠ .normal then
    modifyCameraFile file gpFileAdjustNameForMimeType

/-- `gp_filesystem_get_file_impl`. -/
def gpFilesystemGetFileImpl (folder filename : CString) (type : CameraFileType)
    (file : CameraFileRef) (context : GPContext) : Fs σ Unit := do
  checkCancel funcs context
  checkAbsolute folder
  modifyCameraFile file (gpFileSetName · filename)
  match funcs.getFileFunc with
  | none => Comp.throw gpErrorNotSupported
  | some getFile => do
    -- Search folder and file
    let (_, xfile) ← lookupFolderFile funcs folder filename context
    let f ← derefFile xfile
    let w ← Comp.get
    trace (.getFile file (w.isCached file))
    match type with
    | .unknown _ => Comp.throw gpError
    | _ => do
      let ret ← getFileFromCache funcs folder filename type file (f.slot type)
      match ret with
      | .ok _ => pure ()
      | .error _ => getFileFromDriver getFile folder filename type file

/-- `gp_filesystem_get_file`. Without libexif the fallbacks return the code they got. -/
def gpFilesystemGetFile (folder filename : CString) (type : CameraFileType)
    (file : CameraFileRef) (context : GPContext) : Fs σ Unit :=
  gpFilesystemGetFileImpl funcs folder filename type file context

/-- `gp_filesystem_read_file`. The code behind the `return` is never reached. -/
def gpFilesystemReadFile (folder filename : CString) (type : CameraFileType)
    (offset size : Nat) (context : GPContext) : Fs σ (List UInt8) := do
  checkCancel funcs context
  checkAbsolute folder
  match funcs.readFileFunc with
  | none => Comp.throw gpErrorNotSupported
  | some readFile => do
    match ← callEnv (readFile folder filename type offset size) with
    | .ok data => pure data
    | .error _ => Comp.throw gpErrorNotSupported

/-- The part of `gp_filesystem_lru_update` behind its lookup. -/
def lruInsert (xfile : FileAddr) (type : CameraFileType) (file : CameraFileRef) (size : Nat) :
    Fs σ Unit := do
  let f ← derefFile xfile
  let w ← Comp.get
  trace (.lruUpdate (w.lruEntry xfile f) type size w.fs.lruSize)
  -- If the file is already in the lru, we first remove it.
  lruDetach xfile type
  -- Then add the file at the end of the LRU.
  lruAttach xfile
  let size ← cameraFileSize file
  Comp.modify fun w => w.setLruSize (ulongAdd w.fs.lruSize size)

/-- `gp_filesystem_lru_update`. -/
def gpFilesystemLruUpdate (folder filename : CString) (type : CameraFileType)
    (file : CameraFileRef) (context : GPContext) : Fs σ Unit := do
  let size ← cameraFileSize file
  initPicturesToKeep
  let w ← Comp.get
  lruTrim (w.brk + 1)
  -- Search folder and file
  let (_, xfile) ← lookupFolderFile funcs folder filename context
  lruInsert xfile type file size

/-- The end of `gp_filesystem_set_file_noop`: if we didn't get a mtime, try to get it from
the CameraFileInfo. -/
def setFileMtime (folder filename : CString) (file : CameraFileRef) : Fs σ Unit := do
  let w ← Comp.get
  if (w.cameraFile file).mtime = 0 then do
    let r ← Comp.attempt (gpFilesystemGetInfo funcs folder filename .null)
    match r with
    | .error _ => pure ()
    | .ok info =>
      if hasField info.file.fields gpFileInfoMtime ∧ info.file.mtime ≠ 0 then
        modifyCameraFile file (gpFileSetMtime · info.file.mtime)
  else
    modifyCameraFile file (gpFileSetMtime · (w.cameraFile file).mtime)

/-- `gp_filesystem_set_file_noop`. -/
def gpFilesystemSetFileNoop (folder filename : CString) (type : CameraFileType)
    (file : CameraFileRef) (context : GPContext) : Fs σ Unit := do
  checkCancel funcs context
  checkAbsolute folder
  -- Search folder and file
  let (_, xfile) ← lookupFolderFile funcs folder filename context
  -- If we add a significant amount of data in the cache, we put (or move) a reference to
  -- this file in the LRU linked list.
  if type.big then
    gpFilesystemLruUpdate funcs folder filename type file context
  -- Redundant sanity check.
  gpFilesystemLruCheck
  match type with
  | .unknown _ => Comp.throw gpError
  | _ => do
    modifyFile xfile (·.setSlot (some file) type)
    let w ← Comp.get
    trace (.setFileNoop folder filename type (w.cameraFile file).data)
    setFileMtime funcs folder filename file

/-- `gp_filesystem_put_file`. -/
def gpFilesystemPutFile (folder filename : CString) (type : CameraFileType)
    (file : CameraFileRef) (context : GPContext) : Fs σ Unit := do
  checkCancel funcs context
  checkAbsolute folder
  -- Do we support file upload?
  match funcs.putFileFunc with
  | none => Comp.throw gpErrorNotSupported
  | some putFile => do
    -- Search the folder
    match ← lookupFolder funcs folder context with
    | none => Comp.throw gpErrorDirectoryNotFound
    | some f => do
      -- Upload the file
      let w ← Comp.get
      let answer ← callEnv (putFile folder filename type (w.cameraFile file))
      Comp.ofExcept answer
      -- And upload it to internal structure too
      let ret ← Comp.attempt (appendFile f filename file)
      if ret = .ok () ∨ type ≠ .normal then
        trace (.putFile folder filename type (w.cameraFile file).data)
      -- FIXME perhaps check before append_file?
      if type ≠ .normal then pure () else Comp.ofExcept ret

end GPhoto2
