import GPhoto2.Filesys.Types
import Mathlib.Logic.Function.Basic
import Mathlib.Tactic.Simps.Basic

/-!
# `GPhoto2.Filesys.Heap`: reads and writes of the entries

The primitive steps the functions of the filesystem are made of: read an entry through its
address, write a field of it, allocate or free one, call the driver, append to the trace.
A read or write through an address that holds no entry is stuck.
-/

set_option autoImplicit false

namespace GPhoto2

open Lib

variable {σ : Type}

/-! ### Looking up names -/

namespace CameraFilesystem

/-- `f->name` of a folder entry. -/
def folderName (fs : CameraFilesystem) (a : FolderAddr) : Option CString :=
  (fs.folders a).map (·.name)

/-- `f->name` of a file entry. -/
def fileName (fs : CameraFilesystem) (a : FileAddr) : Option CString :=
  (fs.files a).map (·.name)

/-- The names along a chain of folder entries. -/
def folderNames (fs : CameraFilesystem) (chain : List FolderAddr) : List CString :=
  chain.filterMap fs.folderName

/-- The names along a chain of file entries. -/
def fileNames (fs : CameraFilesystem) (chain : List FileAddr) : List CString :=
  chain.filterMap fs.fileName

/-- The first folder entry of a chain with the given name. -/
def findFolder (fs : CameraFilesystem) (chain : List FolderAddr) (name : CString) :
    Option FolderAddr :=
  chain.find? (fun a => fs.folderName a == some name)

/-- The first file entry of a chain with the given name. -/
def findFile (fs : CameraFilesystem) (chain : List FileAddr) (name : CString) :
    Option FileAddr :=
  chain.find? (fun a => fs.fileName a == some name)

end CameraFilesystem

/-! ### Writes -/

namespace World

@[simps -fullyApplied]
def setFolder (w : World σ) (a : FolderAddr) (f : Option CameraFilesystemFolder) : World σ :=
  { w with fs := { w.fs with folders := Function.update w.fs.folders a f } }

@[simps -fullyApplied]
def setFile (w : World σ) (a : FileAddr) (f : Option CameraFilesystemFile) : World σ :=
  { w with fs := { w.fs with files := Function.update w.fs.files a f } }

@[simps -fullyApplied]
def setLru (w : World σ) (first last : Option FileAddr) : World σ :=
  { w with fs := { w.fs with lruFirst := first, lruLast := last } }

@[simps -fullyApplied]
def setLruSize (w : World σ) (size : Nat) : World σ :=
  { w with fs := { w.fs with lruSize := size } }

@[simps -fullyApplied]
def setCameraFile (w : World σ) (r : CameraFileRef) (f : CameraFile) : World σ :=
  { w with cameraFile := Function.update w.cameraFile r f }

end World

/-- `*folder`. -/
def derefFolder (a : FolderAddr) : Fs σ CameraFilesystemFolder := fun w =>
  match w.fs.folders a with
  | some f => some (.ok f, w)
  | none => none

/-- `*file`. -/
def derefFile (a : FileAddr) : Fs σ CameraFilesystemFile := fun w =>
  match w.fs.files a with
  | some f => some (.ok f, w)
  | none => none

/-- Write fields of `*folder`. -/
def modifyFolder (a : FolderAddr) (g : CameraFilesystemFolder → CameraFilesystemFolder) :
    Fs σ Unit := fun w =>
  match w.fs.folders a with
  | some f => some (.ok (), w.setFolder a (some (g f)))
  | none => none

/-- Write fields of `*file`. -/
def modifyFile (a : FileAddr) (g : CameraFilesystemFile → CameraFilesystemFile) :
    Fs σ Unit := fun w =>
  match w.fs.files a with
  | some f => some (.ok (), w.setFile a (some (g f)))
  | none => none

/-- `free (folder)`. -/
def freeFolder (a : FolderAddr) : Fs σ Unit := Comp.modify (·.setFolder a none)

/-- `free (file)`. -/
def freeFile (a : FileAddr) : Fs σ Unit := Comp.modify (·.setFile a none)

/-- `calloc` of a folder entry. Addresses are not used again. -/
def allocFolder (f : CameraFilesystemFolder) : Fs σ FolderAddr := fun w =>
  some (.ok w.brk, { w.setFolder w.brk (some f) with brk := w.brk + 1 })

/-- `calloc` of a file entry. -/
def allocFile (f : CameraFilesystemFile) : Fs σ FileAddr := fun w =>
  some (.ok w.brk, { w.setFile w.brk (some f) with brk := w.brk + 1 })

/-- `if (ptr) ...`. -/
def whenSome (ptr : Option FileAddr) (k : FileAddr → Fs σ Unit) : Fs σ Unit :=
  match ptr with
  | none => pure ()
  | some a => k a

/-- Call back into the driver or the frontend. -/
def callEnv {α : Type} (g : σ → α × σ) : Fs σ α := fun w =>
  some (.ok (g w.env).1, { w with env := (g w.env).2 })

/-- Append to the trace. -/
def trace (e : Event) : Fs σ Unit := Comp.modify fun w => { w with log := w.log ++ [e] }

/-- `gp_file_get_data_and_size (file, NULL, &size)`. -/
def cameraFileSize (r : CameraFileRef) : Fs σ Nat := do
  let w ← Comp.get
  Comp.ofExcept (gpFileGetSize (w.cameraFile r))

/-- Change a `CameraFile`. -/
def modifyCameraFile (r : CameraFileRef) (g : CameraFile → CameraFile) : Fs σ Unit :=
  Comp.modify fun w => w.setCameraFile r (g (w.cameraFile r))

/-- What the trace keeps of a file entry. -/
def World.lruEntry (w : World σ) (a : FileAddr) (f : CameraFilesystemFile) : LruEntry where
  file := a
  onLru := f.lruPrev.isSome
  normal := f.normal.map fun r => gpFileGetSize (w.cameraFile r)
  raw := f.raw.map fun r => gpFileGetSize (w.cameraFile r)
  audio := f.audio.map fun r => gpFileGetSize (w.cameraFile r)

/-- Is the `CameraFile` one of the contents of the entry? -/
def CameraFilesystemFile.holds (f : CameraFilesystemFile) (r : CameraFileRef) : Bool :=
  [f.preview, f.normal, f.raw, f.audio, f.exif, f.metadata].contains (some r)

/-- Is the `CameraFile` a cached content of some entry? -/
def World.isCached (w : World σ) (r : CameraFileRef) : Bool :=
  (List.range w.brk).any fun a => (w.fs.files a).any (·.holds r)

/-- Does a file of the chain have a cached content? -/
def CameraFilesystem.cachesAny (fs : CameraFilesystem) (chain : List FileAddr) : Bool :=
  chain.any fun a => (fs.files a).any (·.hasContent)

/-- The macro `CC`: give the frontend the chance to cancel. -/
def checkCancel (funcs : CameraFilesystemFuncs σ) (context : GPContext) : Fs σ Unit :=
  match context, funcs.cancelFunc with
  | .frontend, some cancel => do
    if ← callEnv cancel then Comp.throw gpErrorCancel
  | _, _ => pure ()

/-- The macro `CA`: the path has to be absolute. -/
def checkAbsolute (path : CString) : Fs σ Unit :=
  if isAbsolute path then pure () else Comp.throw gpErrorPathNotAbsolute

/-! ### Running each primitive -/

section
variable {α : Type} {w w' : World σ} {a : Nat}

theorem derefFolder_eq_some {r : Except Int CameraFilesystemFolder} :
    derefFolder a w = some (r, w') ↔ ∃ fo, w.fs.folders a = some fo ∧ r = .ok fo ∧ w' = w := by
  unfold derefFolder
  cases w.fs.folders a <;> simp [eq_comm]

theorem derefFile_eq_some {r : Except Int CameraFilesystemFile} :
    derefFile a w = some (r, w') ↔ ∃ f, w.fs.files a = some f ∧ r = .ok f ∧ w' = w := by
  unfold derefFile
  cases w.fs.files a <;> simp [eq_comm]

variable {g : CameraFilesystemFolder → CameraFilesystemFolder}

theorem modifyFolder_eq_some {r : Except Int Unit} :
    modifyFolder a g w = some (r, w') ↔
      ∃ fo, w.fs.folders a = some fo ∧ r = .ok () ∧ w' = w.setFolder a (some (g fo)) := by
  unfold modifyFolder
  cases w.fs.folders a <;> simp [eq_comm]

theorem modifyFile_eq_some {g : CameraFilesystemFile → CameraFilesystemFile}
    {r : Except Int Unit} :
    modifyFile a g w = some (r, w') ↔
      ∃ f, w.fs.files a = some f ∧ r = .ok () ∧ w' = w.setFile a (some (g f)) := by
  unfold modifyFile
  cases w.fs.files a <;> simp [eq_comm]

theorem derefFolder_run {fo : CameraFilesystemFolder} (h : w.fs.folders a = some fo) :
    derefFolder a w = some (.ok fo, w) := derefFolder_eq_some.mpr ⟨fo, h, rfl, rfl⟩

theorem derefFile_run {f : CameraFilesystemFile} (h : w.fs.files a = some f) :
    derefFile a w = some (.ok f, w) := derefFile_eq_some.mpr ⟨f, h, rfl, rfl⟩

theorem modifyFolder_run {fo : CameraFilesystemFolder} (h : w.fs.folders a = some fo)
    (g : CameraFilesystemFolder → CameraFilesystemFolder) :
    modifyFolder a g w = some (.ok (), w.setFolder a (some (g fo))) :=
  modifyFolder_eq_some.mpr ⟨fo, h, rfl, rfl⟩

theorem modifyFile_run {f : CameraFilesystemFile} (h : w.fs.files a = some f)
    (g : CameraFilesystemFile → CameraFilesystemFile) :
    modifyFile a g w = some (.ok (), w.setFile a (some (g f))) :=
  modifyFile_eq_some.mpr ⟨f, h, rfl, rfl⟩

variable {r : Except Int α}

theorem derefFolder_bind_eq_some {k : CameraFilesystemFolder → Fs σ α} :
    (derefFolder a >>= k) w = some (r, w') ↔
      ∃ fo, w.fs.folders a = some fo ∧ k fo w = some (r, w') := by
  rw [Comp.bind_run]
  unfold derefFolder
  cases w.fs.folders a <;> simp

theorem derefFile_bind_eq_some {k : CameraFilesystemFile → Fs σ α} :
    (derefFile a >>= k) w = some (r, w') ↔
      ∃ f, w.fs.files a = some f ∧ k f w = some (r, w') := by
  rw [Comp.bind_run]
  unfold derefFile
  cases w.fs.files a <;> simp

theorem modifyFolder_bind_eq_some {k : Unit → Fs σ α} :
    (modifyFolder a g >>= k) w = some (r, w') ↔
      ∃ fo, w.fs.folders a = some fo ∧
        k () (w.setFolder a (some (g fo))) = some (r, w') := by
  rw [Comp.bind_run]
  unfold modifyFolder
  cases w.fs.folders a <;> simp

theorem modifyFile_bind_eq_some {g : CameraFilesystemFile → CameraFilesystemFile}
    {k : Unit → Fs σ α} :
    (modifyFile a g >>= k) w = some (r, w') ↔
      ∃ f, w.fs.files a = some f ∧ k () (w.setFile a (some (g f))) = some (r, w') := by
  rw [Comp.bind_run]
  unfold modifyFile
  cases w.fs.files a <;> simp

@[simp] theorem trace_run (e : Event) (w : World σ) :
    trace e w = some (.ok (), { w with log := w.log ++ [e] }) := rfl

@[simp] theorem trace_bind_run (e : Event) (k : Unit → Fs σ α) (w : World σ) :
    (trace e >>= k) w = k () { w with log := w.log ++ [e] } := rfl

@[simp] theorem callEnv_bind_run {β : Type} (g : σ → β × σ) (k : β → Fs σ α) (w : World σ) :
    (callEnv g >>= k) w = k (g w.env).1 { w with env := (g w.env).2 } := rfl

@[simp] theorem modifyCameraFile_run (r : CameraFileRef) (g : CameraFile → CameraFile)
    (w : World σ) :
    modifyCameraFile r g w = some (.ok (), w.setCameraFile r (g (w.cameraFile r))) := rfl

@[simp] theorem cameraFileSize_run (r : CameraFileRef) (w : World σ) :
    cameraFileSize r w = some (gpFileGetSize (w.cameraFile r), w) := rfl

theorem cameraFileSize_ok {r : CameraFileRef} {n : Nat}
    (h : gpFileGetSize (w.cameraFile r) = .ok n) : cameraFileSize r w = some (.ok n, w) := by
  rw [cameraFileSize_run, h]

theorem cameraFileSize_error {r : CameraFileRef} {e : Int}
    (h : gpFileGetSize (w.cameraFile r) = .error e) :
    cameraFileSize r w = some (.error e, w) := by
  rw [cameraFileSize_run, h]

end

end GPhoto2
