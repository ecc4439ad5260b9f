import GPhoto2.Filesys.Ops

/-!
# `GPhoto2.Filesys.Run`: runs of filesystem operations

A run is a list of calls of the public functions, each with its arguments, from a new
filesystem. The callbacks answer from their own state, so a run covers any sequence of
successes and failures of the driver. A run that reaches a step without a defined outcome
has no result.
-/

set_option autoImplicit false

namespace GPhoto2

open Lib

variable {σ : Type} (funcs : CameraFilesystemFuncs σ)

/-- A call of a public function of the filesystem. -/
inductive FsOp
  | append (folder filename : CString) (context : GPContext)
  | listFiles (folder : CString) (context : GPContext)
  | listFolders (folder : CString) (context : GPContext)
  | count (folder : CString) (context : GPContext)
  | name (folder : CString) (filenumber : Int) (context : GPContext)
  | number (folder filename : CString) (context : GPContext)
  | getFile (folder filename : CString) (type : CameraFileType) (file : CameraFileRef)
      (context : GPContext)
  | readFile (folder filename : CString) (type : CameraFileType) (offset size : Nat)
      (context : GPContext)
  | setFileNoop (folder filename : CString) (type : CameraFileType) (file : CameraFileRef)
      (context : GPContext)
  | putFile (folder filename : CString) (type : CameraFileType) (file : CameraFileRef)
      (context : GPContext)
  | getInfo (folder filename : CString) (context : GPContext)
  | setInfo (folder filename : CString) (info : CameraFileInfo) (context : GPContext)
  | setInfoNoop (folder filename : CString) (info : CameraFileInfo) (context : GPContext)
  | deleteFile (folder filename : CString) (context : GPContext)
  | deleteFileNoop (folder filename : CString) (context : GPContext)
  | deleteAll (folder : CString) (context : GPContext)
  | makeDir (folder dirname : CString) (context : GPContext)
  | removeDir (folder dirname : CString) (context : GPContext)
  | reset

/-- What a call hands back beside its return code. -/
inductive FsValue
  | unit
  | names (list : List CString)
  | number (n : Nat)
  | name (filename : CString)
  | info (info : CameraFileInfo)
  | data (buf : List UInt8)
  deriving DecidableEq

/-- The call of one operation. -/
def FsOp.exec (op : FsOp) : Fs σ FsValue :=
  match op with
  | .append folder filename context => do
    gpFilesystemAppend funcs folder filename context
    pure .unit
  | .listFiles folder context => do
    pure (.names (← gpFilesystemListFiles funcs folder context))
  | .listFolders folder context => do
    pure (.names (← gpFilesystemListFolders funcs folder context))
  | .count folder context => do
    pure (.number (← gpFilesystemCount funcs folder context))
  | .name folder filenumber context => do
    pure (.name (← gpFilesystemName funcs folder filenumber context))
  | .number folder filename context => do
    pure (.number (← gpFilesystemNumber funcs folder filename context))
  | .getFile folder filename type file context => do
    gpFilesystemGetFile funcs folder filename type file context
    pure .unit
  | .readFile folder filename type offset size context => do
    pure (.data (← gpFilesystemReadFile funcs folder filename type offset size context))
  | .setFileNoop folder filename type file context => do
    gpFilesystemSetFileNoop funcs folder filename type file context
    pure .unit
  | .putFile folder filename type file context => do
    gpFilesystemPutFile funcs folder filename type file context
    pure .unit
  | .getInfo folder filename context => do
    pure (.info (← gpFilesystemGetInfo funcs folder filename context))
  | .setInfo folder filename info context => do
    gpFilesystemSetInfo funcs folder filename info context
    pure .unit
  | .setInfoNoop folder filename info context => do
    gpFilesystemSetInfoNoop funcs folder filename info context
    pure .unit
  | .deleteFile folder filename context => do
    gpFilesystemDeleteFile funcs folder filename context
    pure .unit
  | .deleteFileNoop folder filename context => do
    gpFilesystemDeleteFileNoop funcs folder filename context
    pure .unit
  | .deleteAll folder context => do
    gpFilesystemDeleteAll funcs folder context
    pure .unit
  | .makeDir folder dirname context => do
    gpFilesystemMakeDir funcs folder dirname context
    pure .unit
  | .removeDir folder dirname context => do
    gpFilesystemRemoveDir funcs folder dirname context
    pure .unit
  | .reset => do
    gpFilesystemReset funcs
    pure .unit

/-- The results of a run and the world it ends in. -/
def runOps : List FsOp → World σ → Option (List (Except Int FsValue) × World σ)
  | [], w => some ([], w)
  | op :: ops, w =>
    match FsOp.exec funcs op w with
    | none => none
    | some (r, w') => (runOps ops w').map fun p => (r :: p.1, p.2)

/-- A world with a filesystem straight from `gp_filesystem_new`, and an empty trace. -/
structure World.IsNew (w : World σ) : Prop where
  fs : w.fs = gpFilesystemNew
  brk : 0 < w.brk
  log : w.log = []

/-- A new filesystem in a world of empty `CameraFile`s. -/
def World.new (env : σ) : World σ where
  fs := gpFilesystemNew
  cameraFile _ := gpFileNew
  picturesToKeep := -1
  cachedImages := none
  brk := 1
  env := env
  log := []

theorem World.new_isNew (env : σ) : (World.new env).IsNew := ⟨rfl, Nat.one_pos, rfl⟩

/-- A driver without callbacks. -/
def CameraFilesystemFuncs.none : CameraFilesystemFuncs σ where
  fileListFunc := .none
  folderListFunc := .none
  getInfoFunc := .none
  setInfoFunc := .none
  getFileFunc := .none
  readFileFunc := .none
  putFileFunc := .none
  deleteFileFunc := .none
  deleteAllFunc := .none
  makeDirFunc := .none
  removeDirFunc := .none
  cancelFunc := .none
  copyIo _ _ s := ((.error gpErrorNotSupported, []), s)

/-- A world some run from a new filesystem ends in. -/
def Reachable (w : World σ) : Prop :=
  ∃ (w₀ : World σ) (ops : List FsOp) (rs : List (Except Int FsValue)),
    w₀.IsNew ∧ runOps funcs ops w₀ = some (rs, w)

end GPhoto2
