import GPhoto2.Filesys.Run
import GPhoto2.Port.PortInfoList

/-!
# `GPhoto2.Camera.Camera`: the camera object

`gphoto2-camera.c`: `gp_camera_init` and `gp_camera_exit`, the macros around every public
operation (`CHECK_INIT`, `CHECK_OPEN`, `CHECK_CLOSE`, `CAMERA_UNUSED`), the timeouts, and the
operations on files.

`used` counts the operations that hold the camera; it is an `unsigned char`. An operation
that finds it set is refused, and when it drops to zero a postponed `gp_camera_exit` or
`gp_camera_free` is made up for.

What the camera layer asks of the rest of the library, of the driver and of the system goes
through `CameraOutside`, and answers from the state `σ`. Calls of the driver back into the
camera layer are left out, but for the timeouts it starts in `camera_init`.
-/

set_option autoImplicit false

namespace GPhoto2

open Lib

/-! ### The data -/

/-- `CameraAbilities`. The USB numbers are looked at by the port layer only. -/
structure CameraAbilities where
  model : CString
  library : CString
deriving DecidableEq

/-- `CameraFunctions`: what a driver puts there for `gp_camera_exit` and around each
operation. -/
structure CameraFunctions (σ : Type) where
  exit : Option (σ → σ)
  preFunc : Option (σ → Except Int Unit × σ)
  postFunc : Option (σ → Except Int Unit × σ)

/-- The functions `memset` leaves. -/
def CameraFunctions.zero {σ : Type} : CameraFunctions σ := ⟨none, none, none⟩

/-- `Camera`, with its `CameraPrivateCore`. `lh` says that the driver is loaded. -/
structure Camera (σ : Type) where
  a : CameraAbilities
  lh : Bool
  refCount : UInt32
  used : UInt8
  exitRequested : Bool
  timeoutStartFunc : Option (UInt32 → σ → UInt32 × σ)
  timeoutStopFunc : Option (UInt32 → σ → σ)
  timeoutIds : List UInt32
  functions : CameraFunctions σ
  fsFuncs : CameraFilesystemFuncs σ
  port : PortInfo

/-- What a driver has set up when its `camera_init` returns. -/
structure DriverSetup (σ : Type) where
  functions : CameraFunctions σ
  fsFuncs : CameraFilesystemFuncs σ
  /-- The periods of the timeouts it has started. -/
  timeouts : List UInt32

/-- The abilities and port lists, the port, and the dynamic loader. -/
structure CameraOutside (σ : Type) where
  /-- `gp_abilities_list_detect`: the cameras that were found, each with the path of its
  port. -/
  detect : σ → List (CameraAbilities × CString) × σ
  /-- The entry of the port list for a path of a detected camera. -/
  portInfo : CString → σ → PortInfo × σ
  /-- `gp_port_set_info`, behind its assignments. -/
  setPortInfo : PortInfo → σ → Except Int Unit × σ
  usbFindDevice : CameraAbilities → σ → Except Int Unit × σ
  usbFindDeviceByClass : CameraAbilities → σ → Except Int Unit × σ
  portOpen : σ → Except Int Unit × σ
  portClose : σ → Except Int Unit × σ
  /-- `lt_dlopenext`. -/
  dlopen : CString → σ → Bool × σ
  /-- `lt_dlsym` of `camera_init`. -/
  cameraInit : CString → Option (σ → (Except Int Unit × DriverSetup σ) × σ)

/-- What a call of the camera layer can read and write. `camera` is gone once it was freed;
`stopped` is a trace of the timeouts the frontend was told to stop. -/
structure CameraWorld (σ : Type) where
  camera : Option (Camera σ)
  world : World σ
  stopped : List UInt32

/-- `gp_camera_new`. -/
def Camera.new (σ : Type) : Camera σ where
  a := ⟨[], []⟩
  lh := false
  refCount := 1
  used := 0
  exitRequested := false
  timeoutStartFunc := none
  timeoutStopFunc := none
  timeoutIds := []
  functions := .zero
  fsFuncs := .none
  port := ⟨0, [], [], none⟩

/-- A camera straight from `gp_camera_new`. -/
def CameraWorld.new {σ : Type} (env : σ) : CameraWorld σ where
  camera := some (Camera.new σ)
  world := World.new env
  stopped := []

/-- A function of the camera layer. -/
abbrev Cm (σ α : Type) := Lib.Comp (CameraWorld σ) Int α

section
variable {σ α : Type}

/-! ### Reads and writes -/

/-- `*camera`. -/
def derefCamera : Cm σ (Camera σ) := fun c =>
  match c.camera with
  | some camera => some (.ok camera, c)
  | none => none

/-- Write fields of `*camera`. -/
def modifyCamera (g : Camera σ → Camera σ) : Cm σ Unit := fun c =>
  match c.camera with
  | some camera => some (.ok (), { c with camera := some (g camera) })
  | none => none

/-- A function of the filesystem. -/
def runFs (m : Fs σ α) : Cm σ α := fun c =>
  (m c.world).map fun p => (p.1, { c with world := p.2 })

/-- A function of the filesystem of the camera, with the callbacks of the driver. -/
def cameraFs (m : CameraFilesystemFuncs σ → Fs σ α) : Cm σ α := do
  let camera ← derefCamera
  runFs (m camera.fsFuncs)

/-- Call the driver, the frontend, or another part of the library. -/
def callOutside (g : σ → α × σ) : Cm σ α := runFs (callEnv g)

/-! ### Timeouts -/

/-- `gp_camera_set_timeout_funcs`. -/
def gpCameraSetTimeoutFuncs (startFunc : Option (UInt32 → σ → UInt32 × σ))
    (stopFunc : Option (UInt32 → σ → σ)) : Cm σ Unit :=
  modifyCamera fun camera =>
    { camera with timeoutStartFunc := startFunc, timeoutStopFunc := stopFunc }

/-- `gp_camera_start_timeout`. -/
def gpCameraStartTimeout (timeout : UInt32) : Cm σ UInt32 := do
  let camera ← derefCamera
  match camera.timeoutStartFunc with
  | none => Comp.throw gpErrorNotSupported
  | some startFunc => do
    let id ← callOutside (startFunc timeout)
    -- As an `int` the number of the frontend may be negative.
    if 2 ^ 31 ≤ id.toNat then Comp.throw ((id.toNat : Int) - 2 ^ 32)
    else do
      -- We remember the id here in order to automatically remove the timeout on
      -- gp_camera_exit.
      modifyCamera fun camera => { camera with timeoutIds := camera.timeoutIds ++ [id] }
      pure id

/-- `gp_camera_stop_timeout`. -/
def gpCameraStopTimeout (id : UInt32) : Cm σ Unit := do
  let camera ← derefCamera
  match camera.timeoutStopFunc with
  | none => pure ()
  | some stopFunc =>
    -- Check if we know this id. If yes, remove it.
    if id ∈ camera.timeoutIds then do
      modifyCamera fun camera => { camera with timeoutIds := camera.timeoutIds.erase id }
      callOutside fun s => ((), stopFunc id s)
      Comp.modify fun c => { c with stopped := c.stopped ++ [id] }
    else pure ()

/-- The loop of `gp_camera_exit` that removes every timeout that is still pending, for a
number of rounds. -/
def stopPending : Nat → Cm σ Unit
  | 0 => Comp.stuck
  | n + 1 => do
    let camera ← derefCamera
    match camera.timeoutIds with
    | [] => pure ()
    | id :: _ => do
      gpCameraStopTimeout id
      stopPending n

end

section
variable {σ α : Type} (out : CameraOutside σ)

/-! ### Leaving the camera -/

/-- `gp_camera_exit`, with so many rounds for its loop. -/
def gpCameraExitRounds (rounds : Nat) : Cm σ Unit := do
  let camera ← derefCamera
  -- We have to postpone this operation if the camera is currently in use.
  if camera.used ≠ 0 then
    modifyCamera fun camera => { camera with exitRequested := true }
  else do
    stopPending rounds
    let camera ← derefCamera
    match camera.functions.exit with
    | some exit => callOutside fun s => ((), exit s)
    | none => pure ()
    let _ ← callOutside out.portClose
    modifyCamera fun camera => { camera with functions := .zero, lh := false }
    let _ ← Comp.attempt (cameraFs gpFilesystemReset)

/-- `gp_camera_exit`. A round that leaves the ids as they are is followed by the same one. -/
def gpCameraExit : Cm σ Unit := do
  let camera ← derefCamera
  gpCameraExitRounds out (camera.timeoutIds.length + 1)

/-- If the camera is currently initialized, close the connection. -/
def exitIfLoaded : Cm σ Unit := do
  let camera ← derefCamera
  if camera.lh then gpCameraExit out else pure ()

/-- `gp_camera_free`. -/
def gpCameraFree : Cm σ Unit := do
  exitIfLoaded out
  let _ ← Comp.attempt (cameraFs gpFilesystemReset)
  Comp.modify fun c => { c with camera := none }

/-- `gp_camera_ref`. -/
def gpCameraRef : Cm σ Unit :=
  modifyCamera fun camera => { camera with refCount := camera.refCount + 1 }

/-- `gp_camera_unref`. -/
def gpCameraUnref : Cm σ Unit := do
  let camera ← derefCamera
  if camera.refCount = 0 then Comp.throw gpError
  else do
    modifyCamera fun camera => { camera with refCount := camera.refCount - 1 }
    -- We cannot free a camera that is currently in use
    if camera.refCount - 1 = 0 ∧ camera.used = 0 then gpCameraFree out else pure ()

/-- The part of `CAMERA_UNUSED` that makes up for a postponed `gp_camera_exit`. -/
def exitIfRequested : Cm σ Unit := do
  let camera ← derefCamera
  if camera.exitRequested then gpCameraExit out else pure ()

/-- The macro `CAMERA_UNUSED`. -/
def cameraUnused : Cm σ Unit := do
  modifyCamera fun camera => { camera with used := camera.used - 1 }
  let camera ← derefCamera
  if camera.used = 0 then do
    exitIfRequested out
    let camera ← derefCamera
    if camera.refCount = 0 then gpCameraFree out else pure ()
  else pure ()

/-- The macros `CR`, `CRS` and `CRSL`: a failure gives the camera up, and is returned. -/
def cameraResult (m : Cm σ α) : Cm σ α := do
  match ← Comp.attempt m with
  | .error r => do
    cameraUnused out
    Comp.throw r
  | .ok a => pure a

/-! ### Getting at the camera -/

/-- `gp_camera_set_abilities`. -/
def gpCameraSetAbilities (abilities : CameraAbilities) : Cm σ Unit := do
  exitIfLoaded out
  modifyCamera fun camera => { camera with a := abilities }

/-- `gp_camera_set_port_info`. -/
def gpCameraSetPortInfo (info : PortInfo) : Cm σ Unit := do
  exitIfLoaded out
  cameraResult out do
    modifyCamera fun camera => { camera with port := info }
    let answer ← callOutside (out.setPortInfo info)
    Comp.ofExcept answer

/-- `GP_PORT_NONE`. -/
def gpPortNone : Nat := 0

/-- `GP_PORT_USB`. -/
def gpPortUsb : Nat := 4

/-- The detected camera `gp_camera_init` takes. If the port was set before, then that entry is
used, but not if it is "usb:". -/
def pickDetected (port : PortInfo) (list : List (CameraAbilities × CString)) :
    Option (CameraAbilities × CString) :=
  if port.type = gpPortUsb ∧ port.path ≠ [] ∧ port.path ≠ "usb:".toList then
    list.reverse.find? fun entry => entry.2 == port.path
  else list.head?

/-- The part of `gp_camera_init` for a camera without a model. -/
def autodetect : Cm σ Unit := do
  let list ← callOutside out.detect
  if list = [] then Comp.throw gpErrorModelNotFound
  else do
    let camera ← derefCamera
    match pickDetected camera.port list with
    | none => Comp.throw gpErrorFileNotFound
    | some entry => do
      cameraResult out (gpCameraSetAbilities out entry.1)
      let info ← callOutside (out.portInfo entry.2)
      cameraResult out (gpCameraSetPortInfo out info)

/-- The part of `gp_camera_init` that looks for a camera if the model hasn't been indicated. -/
def chooseModel : Cm σ Unit := do
  let camera ← derefCamera
  if camera.a.model = [] then autodetect out else pure ()

/-- `!strcasecmp (model, "Directory Browse")`. -/
def isDirectoryBrowse (model : CString) : Bool :=
  model.map Char.toLower == "directory browse".toList

/-- The part of `gp_camera_init` that looks at the port. -/
def findPort : Cm σ Unit := do
  let camera ← derefCamera
  if isDirectoryBrowse camera.a.model then pure ()
  else if camera.port.type = gpPortNone then Comp.throw gpErrorUnknownPort
  else if camera.port.type = gpPortUsb then do
    match ← callOutside (out.usbFindDevice camera.a) with
    | .ok _ => pure ()
    | .error _ => cameraResult out do
      Comp.ofExcept (← callOutside (out.usbFindDeviceByClass camera.a))
  else pure ()

/-- The part of `gp_camera_init` that loads the library: its `camera_init`. -/
def loadLibrary : Cm σ (σ → (Except Int Unit × DriverSetup σ) × σ) := do
  let camera ← derefCamera
  let loaded ← callOutside (out.dlopen camera.a.library)
  modifyCamera fun camera => { camera with lh := loaded }
  if loaded then
    match out.cameraInit camera.a.library with
    | some init => pure init
    | none => do
      modifyCamera fun camera => { camera with lh := false }
      Comp.throw gpErrorLibrary
  else Comp.throw gpErrorLibrary

/-- The part of `gp_camera_init` that opens the port. -/
def openPort : Cm σ Unit := do
  let camera ← derefCamera
  if isDirectoryBrowse camera.a.model then pure ()
  else do
    match ← callOutside out.portOpen with
    | .ok _ => pure ()
    | .error r => do
      modifyCamera fun camera => { camera with lh := false }
      Comp.throw r

/-- The call of the driver's `camera_init`. -/
def callCameraInit (init : σ → (Except Int Unit × DriverSetup σ) × σ) : Cm σ Unit := do
  let answer ← callOutside init
  modifyCamera fun camera =>
    { camera with functions := answer.2.functions, fsFuncs := answer.2.fsFuncs }
  answer.2.timeouts.forM fun timeout => do
    let _ ← Comp.attempt (gpCameraStartTimeout timeout)
  Comp.ofExcept answer.1

/-- `gp_camera_init`. -/
def gpCameraInit : Cm σ Unit := do
  -- Reset the exit_requested flag.
  modifyCamera fun camera => { camera with exitRequested := false }
  chooseModel out
  findPort out
  -- Load the library.
  let init ← loadLibrary out
  openPort out
  -- Initialize the camera
  match ← Comp.attempt (callCameraInit init) with
  | .ok _ => pure ()
  | .error r => do
    let _ ← callOutside out.portClose
    modifyCamera fun camera => { camera with lh := false, functions := .zero }
    Comp.throw r

/-- The macro `CHECK_INIT`. -/
def checkInit : Cm σ Unit := do
  let camera ← derefCamera
  if camera.used ≠ 0 then Comp.throw gpErrorCameraBusy
  else do
    modifyCamera fun camera => { camera with used := camera.used + 1 }
    if camera.lh then pure () else cameraResult out (gpCameraInit out)

/-- The macros `CHECK_OPEN` and `CHECK_CLOSE`: call the function the driver wants called
there, if there is one. -/
def checkFunc (func : CameraFunctions σ → Option (σ → Except Int Unit × σ)) : Cm σ Unit := do
  let camera ← derefCamera
  match func camera.functions with
  | none => pure ()
  | some f => cameraResult out do
    Comp.ofExcept (← callOutside f)

/-- The macro `CHECK_OPEN`. -/
def checkOpen : Cm σ Unit := checkFunc out (·.preFunc)

/-- The macro `CHECK_CLOSE`. -/
def checkClose : Cm σ Unit := checkFunc out (·.postFunc)

/-- The macro `CHECK_RESULT_OPEN_CLOSE`. -/
def checkResultOpenClose (m : Cm σ α) : Cm σ α := do
  checkOpen out
  match ← Comp.attempt m with
  | .error r => do
    checkClose out
    cameraUnused out
    Comp.throw r
  | .ok a => do
    checkClose out
    pure a

/-! ### Operations on files -/

/-- `gp_file_clean`. -/
def CameraFile.gpFileClean (file : CameraFile) : CameraFile :=
  match file.accesstype with
  | .memory => { file with data := [], name := [] }
  | _ => { file with name := [] }

/-- `gp_camera_file_get`. -/
def gpCameraFileGet (folder file : CString) (type : CameraFileType) (cameraFile : CameraFileRef)
    (context : GPContext) : Cm σ Unit := do
  checkInit out
  runFs (modifyCameraFile cameraFile CameraFile.gpFileClean)
  -- Did we get reasonable foldername/filename?
  if folder = [] then do
    cameraUnused out
    Comp.throw gpErrorDirectoryNotFound
  else if file = [] then do
    cameraUnused out
    Comp.throw gpErrorFileNotFound
  else do
    checkResultOpenClose out
      (cameraFs fun funcs => gpFilesystemGetFile funcs folder file type cameraFile context)
    cameraUnused out

/-- The part of `gp_camera_file_get_info` that asks the filesystem: its answer. -/
def askFilesystem (folder file : CString) (context : GPContext) :
    Cm σ (Except Int CameraFileInfo) := do
  checkInit out
  -- Check first if the camera driver supports the filesystem
  checkOpen out
  let result ← Comp.attempt
    (cameraFs fun funcs => gpFilesystemGetInfo funcs folder file context)
  checkClose out
  pure result

/-- What `gp_camera_file_get_info` reads off the preview. -/
def previewInfo (preview : CameraFile) : CameraFileInfo :=
  { CameraFileInfo.zero with
    preview := { CameraFileInfo.zero.preview with
      fields := gpFileInfoSize ||| gpFileInfoType
      size := UInt64.ofNat preview.data.length
      type := preview.mimeType.take 64 } }

/-- The fallback of `gp_camera_file_get_info`: we simply get the preview and look for
ourselves. `cfile` is where the `CameraFile` for it is allocated. -/
def infoFromPreview (folder file : CString) (cfile : CameraFileRef) (context : GPContext) :
    Cm σ CameraFileInfo := do
  runFs (modifyCameraFile cfile fun _ => gpFileNew)
  match ← Comp.attempt (gpCameraFileGet out folder file .preview cfile context) with
  | .ok _ => do
    let c ← Comp.get
    pure (previewInfo (c.world.cameraFile cfile))
  | .error _ => pure CameraFileInfo.zero

/-- `gp_camera_file_get_info`. -/
def gpCameraFileGetInfo (folder file : CString) (cfile : CameraFileRef) (context : GPContext) :
    Cm σ CameraFileInfo := do
  let result ← askFilesystem out folder file context
  if result ≠ .error gpErrorNotSupported then do
    cameraUnused out
    Comp.ofExcept result
  else do
    -- The CameraFilesystem doesn't support file info.
    let info ← infoFromPreview out folder file cfile context
    cameraUnused out
    pure info

end

end GPhoto2
