import GPhoto2.File.CameraFile
import GPhoto2.Lib.Comp

/-!
# `GPhoto2.Filesys.Types`: the data of the virtual filesystem

The structs of `gphoto2-filesys.c` and `gphoto2-filesys.h`. Pointers are addresses. A folder entry
and a file entry live in the maps `folders` and `files` of `CameraFilesystem`, and an address
outside the map is a freed (or never allocated) entry: reading it has no defined outcome
(`Comp.stuck`).

The `next` chains of a folder (its subfolders, its files) are the lists `folders` and
`files` of the folder entry, in chain order. The two LRU pointers stay pointers, because
five functions edit them in place. The root folder has the fixed address `rootfolder`.

`World` is what a call can read and write: the filesystem, the `CameraFile` objects, the
static `pictures_to_keep` with the setting behind it, the allocator, and the state `env` of
the driver and the frontend. `log` is a trace in the place of the `gp_log` calls: functions
append to it, and none reads it.

The build modelled is the one without `HAVE_LIBEXIF`. Allocation does not fail.
-/

set_option autoImplicit false

/-! ## Path strings

`lookup_folder` walks a path with a pointer
`curpt`: it skips slashes, takes the characters up to the next slash as one component, and
goes on behind them. `pathSteps` is that walk. Each step carries the component and the part
of the string before it, because `lookup_folder` cuts the string there (`copy[curpt -
foldername] = '\0'`) when it has to list the folder the component lives in.

`pathStepsAux` counts the walk down with the length of the string. Each component takes at
least one character, so the count never runs out before the string does.
-/

namespace GPhoto2

/-- The walk from `curpt`, with `done` the characters before it. -/
def pathStepsAux : Nat → CString → CString → List (CString × CString)
  | 0, _, _ => []
  | n + 1, done, curpt =>
    let slashes := curpt.takeWhile (· == '/')
    let curpt := curpt.dropWhile (· == '/')
    if curpt = [] then []
    else
      let name := curpt.takeWhile (· != '/')
      (done ++ slashes, name) ::
        pathStepsAux n (done ++ slashes ++ name) (curpt.dropWhile (· != '/'))

/-- The components of a path, each with the part of the path before it. -/
def pathSteps (path : CString) : List (CString × CString) :=
  pathStepsAux path.length [] path

/-- The non-empty components of a path. -/
def components (path : CString) : List CString := (pathSteps path).map Prod.snd

/-- `(f)[0] != '/'` of the macro `CA`. -/
def isAbsolute (path : CString) : Bool := path.head? == some '/'

example : pathSteps ['/', 'a', '/', '/', 'b', '/'] =
    [(['/'], ['a']), (['/', 'a', '/', '/'], ['b'])] := by decide

/-- The part of the string before a component is shorter than the string. -/
theorem length_lt_of_mem_pathStepsAux (n : Nat) (done curpt : CString) :
    ∀ p ∈ pathStepsAux n done curpt, p.1.length < done.length + curpt.length := by
  induction n generalizing done curpt with
  | zero => simp [pathStepsAux]
  | succ n ih =>
    intro p hp
    have hsplit := congrArg List.length
      (List.takeWhile_append_dropWhile (p := (· == '/')) (l := curpt))
    have hname := congrArg List.length (List.takeWhile_append_dropWhile (p := (· != '/'))
      (l := curpt.dropWhile (· == '/')))
    simp only [List.length_append] at hsplit hname
    simp only [pathStepsAux] at hp
    split at hp
    · simp at hp
    · rename_i hne
      have hpos : 0 < (curpt.dropWhile (· == '/')).length := List.length_pos_iff.mpr hne
      rcases List.mem_cons.mp hp with rfl | hp
      · simp only [List.length_append]
        omega
      · have := ih _ _ p hp
        simp only [List.length_append] at this
        omega

/-- The string a folder is listed under is shorter than the path it was cut from. -/
theorem length_lt_of_mem_pathSteps {path : CString} {p : CString × CString}
    (h : p ∈ pathSteps path) : p.1.length < path.length := by
  simpa using length_lt_of_mem_pathStepsAux _ _ _ p h

/-- The address of a `CameraFilesystemFolder`. -/
abbrev FolderAddr := Nat

/-- The address of a `CameraFilesystemFile`. -/
abbrev FileAddr := Nat

/-- `fs->rootfolder`. -/
def rootfolder : FolderAddr := 0

/-! ### File information -/

def gpFileInfoType : Nat := 1
def gpFileInfoSize : Nat := 4
def gpFileInfoWidth : Nat := 8
def gpFileInfoHeight : Nat := 16
def gpFileInfoPermissions : Nat := 32
def gpFileInfoStatus : Nat := 64
def gpFileInfoMtime : Nat := 128

/-- `fields & flag`. -/
def hasField (fields flag : Nat) : Bool := fields &&& flag != 0

structure CameraFileInfoFile where
  fields : Nat
  status : Nat
  size : UInt64
  type : CString
  width : UInt32
  height : UInt32
  permissions : Nat
  mtime : Int
  deriving DecidableEq

structure CameraFileInfoPreview where
  fields : Nat
  status : Nat
  size : UInt64
  type : CString
  width : UInt32
  height : UInt32
  deriving DecidableEq

structure CameraFileInfoAudio where
  fields : Nat
  status : Nat
  size : UInt64
  type : CString
  deriving DecidableEq

structure CameraFileInfo where
  preview : CameraFileInfoPreview
  file : CameraFileInfoFile
  audio : CameraFileInfoAudio
  deriving DecidableEq

/-- The all-zero struct `calloc` leaves. -/
def CameraFileInfo.zero : CameraFileInfo where
  preview := ⟨0, 0, 0, [], 0, 0⟩
  file := ⟨0, 0, 0, [], 0, 0, 0, 0⟩
  audio := ⟨0, 0, 0, []⟩

/-! ### The filesystem -/

structure CameraFilesystemFile where
  name : CString
  infoDirty : Bool
  info : CameraFileInfo
  lruPrev : Option FileAddr
  lruNext : Option FileAddr
  preview : Option CameraFileRef
  normal : Option CameraFileRef
  raw : Option CameraFileRef
  audio : Option CameraFileRef
  exif : Option CameraFileRef
  metadata : Option CameraFileRef
  deriving DecidableEq

/-- What `calloc` and `info_dirty = 1` make of a new entry, with the content `normal`. -/
def CameraFilesystemFile.new (name : CString) (normal : Option CameraFileRef) :
    CameraFilesystemFile where
  name := name
  infoDirty := true
  info := CameraFileInfo.zero
  lruPrev := none
  lruNext := none
  preview := none
  normal := normal
  raw := none
  audio := none
  exif := none
  metadata := none

/-- The cached content of one type. -/
def CameraFilesystemFile.slot (f : CameraFilesystemFile) :
    CameraFileType → Option CameraFileRef
  | .preview => f.preview
  | .normal => f.normal
  | .raw => f.raw
  | .audio => f.audio
  | .exif => f.exif
  | .metadata => f.metadata
  | .unknown _ => none

/-- Store `content` as the cached content of one type. -/
def CameraFilesystemFile.setSlot (f : CameraFilesystemFile) (content : Option CameraFileRef) :
    CameraFileType → CameraFilesystemFile
  | .preview => { f with preview := content }
  | .normal => { f with normal := content }
  | .raw => { f with raw := content }
  | .audio => { f with audio := content }
  | .exif => { f with exif := content }
  | .metadata => { f with metadata := content }
  | .unknown _ => f

/-- Does the entry have a cached content of some type? -/
def CameraFilesystemFile.hasContent (f : CameraFilesystemFile) : Bool :=
  f.preview.isSome || f.normal.isSome || f.raw.isSome || f.audio.isSome || f.exif.isSome ||
    f.metadata.isSome

/-- The types whose content is a significant amount of data, and counts in the cache. -/
def CameraFileType.big (type : CameraFileType) : Prop :=
  type = .raw ∨ type = .normal ∨ type = .audio

instance (type : CameraFileType) : Decidable type.big := inferInstanceAs (Decidable (_ ∨ _))

structure CameraFilesystemFolder where
  name : CString
  filesDirty : Bool
  foldersDirty : Bool
  folders : List FolderAddr
  files : List FileAddr
  deriving DecidableEq

/-- What `append_folder_one` makes of a new entry: empty, with both listings pending. -/
def CameraFilesystemFolder.new (name : CString) : CameraFilesystemFolder where
  name := name
  filesDirty := true
  foldersDirty := true
  folders := []
  files := []

structure CameraFilesystem where
  folders : FolderAddr → Option CameraFilesystemFolder
  files : FileAddr → Option CameraFilesystemFile
  lruFirst : Option FileAddr
  lruLast : Option FileAddr
  /-- An `unsigned long`: arithmetic is modulo `2 ^ 64`. -/
  lruSize : Nat

/-- `gp_filesystem_new`. -/
def gpFilesystemNew : CameraFilesystem where
  folders := fun a => if a = rootfolder then some (.new ['/']) else none
  files := fun _ => none
  lruFirst := none
  lruLast := none
  lruSize := 0

/-! ### The driver and the frontend -/

/-- The callbacks of `CameraFilesystemFuncs` (a missing one is a null pointer), the cancel
function of the context, and the input and output of `CameraFile`s that are not in memory.
Each answers from a state `σ` of its own. A negative return code is the error; for the
listing functions, `ok` carries the names put on the list. -/
structure CameraFilesystemFuncs (σ : Type) where
  fileListFunc : Option (CString → σ → Except Int (List CString) × σ)
  folderListFunc : Option (CString → σ → Except Int (List CString) × σ)
  getInfoFunc : Option (CString → CString → CameraFileInfo → σ →
    (Except Int Unit × CameraFileInfo) × σ)
  setInfoFunc : Option (CString → CString → CameraFileInfo → σ → Except Int Unit × σ)
  getFileFunc : Option (CString → CString → CameraFileType → CameraFile → σ →
    (Except Int Unit × CameraFile) × σ)
  readFileFunc : Option (CString → CString → CameraFileType → Nat → Nat → σ →
    Except Int (List UInt8) × σ)
  putFileFunc : Option (CString → CString → CameraFileType → CameraFile → σ →
    Except Int Unit × σ)
  deleteFileFunc : Option (CString → CString → σ → Except Int Unit × σ)
  deleteAllFunc : Option (CString → σ → Except Int Unit × σ)
  makeDirFunc : Option (CString → CString → σ → Except Int Unit × σ)
  removeDirFunc : Option (CString → CString → σ → Except Int Unit × σ)
  cancelFunc : Option (σ → Bool × σ)
  copyIo : CameraFile → CameraFile → σ → (Except Int Unit × List UInt8) × σ

/-- The `GPContext *` argument: null, or the frontend's. -/
inductive GPContext
  | null
  | frontend
  deriving DecidableEq

/-! ### The trace -/

/-- What the trace keeps of a file entry: whether it is on the LRU list (`lru_prev` is
set), and the sizes of its cached normal, raw and audio content. -/
structure LruEntry where
  file : FileAddr
  onLru : Bool
  normal : Option (Except Int Nat)
  raw : Option (Except Int Nat)
  audio : Option (Except Int Nat)

/-- The size of a content. One that cannot tell its size counts for nothing. -/
def contentSize : Option (Except Int Nat) → Nat
  | some (.ok size) => size
  | _ => 0

/-- There is no content, or it can tell its size. -/
def contentSized : Option (Except Int Nat) → Bool
  | some (.error _) => false
  | _ => true

namespace LruEntry

/-- All contents that count can tell their size. -/
def sized (e : LruEntry) : Bool :=
  contentSized e.normal && contentSized e.raw && contentSized e.audio

/-- The size of the contents that count. -/
def total (e : LruEntry) : Nat :=
  contentSize e.normal + contentSize e.raw + contentSize e.audio

/-- The content of one type, if it is one that counts. -/
def content (e : LruEntry) : CameraFileType → Option (Except Int Nat)
  | .normal => e.normal
  | .raw => e.raw
  | .audio => e.audio
  | _ => none

/-- The entry without its content of one type. -/
def without (e : LruEntry) : CameraFileType → LruEntry
  | .normal => { e with normal := none }
  | .raw => { e with raw := none }
  | .audio => { e with audio := none }
  | _ => e

end LruEntry

/-- A step of the filesystem, in the place of its `gp_log` line. -/
inductive Event
  /-- `file_list_func` answered for a folder. -/
  | fileListFunc (folder : CString) (answer : Except Int (List CString))
  /-- `folder_list_func` answered for a folder. -/
  | folderListFunc (folder : CString) (answer : Except Int (List CString))
  /-- `make_dir_func` succeeded in a folder whose entry has these subfolders. -/
  | makeDirFunc (folder name : CString) (subfolders : List CString)
  /-- `remove_dir_func` is about to be called. -/
  | removeDirFunc (folder name : CString)
  /-- A file entry is about to be dropped from its folder and freed. -/
  | dropFile (entry : LruEntry)
  /-- `gp_filesystem_lru_free` is about to evict the first entry of the LRU list. -/
  | lruFree (entry : LruEntry)
  /-- `gp_filesystem_lru_update` is about to account for content of `size` bytes. -/
  | lruUpdate (entry : LruEntry) (type : CameraFileType) (size lruSize : Nat)
  /-- `gp_filesystem_get_file` found the file, and is about to fill `file`; `cached` says
  that `file` is itself a cached content of some entry. -/
  | getFile (file : CameraFileRef) (cached : Bool)
  /-- `gp_filesystem_get_file` answered from the cached content `data`. -/
  | lruUsed (folder filename : CString) (type : CameraFileType) (data : List UInt8)
  /-- `gp_filesystem_set_file_noop` stored `data`. -/
  | setFileNoop (folder filename : CString) (type : CameraFileType) (data : List UInt8)
  /-- `gp_filesystem_put_file` is about to report `data` as stored. -/
  | putFile (folder filename : CString) (type : CameraFileType) (data : List UInt8)
  /-- A file was deleted. -/
  | deletedFile (folder filename : CString)
  /-- All files of a folder were deleted at once. -/
  | deletedAll (folder : CString)
  /-- `gp_filesystem_reset` was called; `cached` says that a file of the root folder has a
  cached content. -/
  | resetCall (cached : Bool)
  /-- `gp_filesystem_reset` is done. -/
  | resetDone

/-- What a call of the filesystem can read and write. -/
structure World (σ : Type) where
  fs : CameraFilesystem
  cameraFile : CameraFileRef → CameraFile
  picturesToKeep : Int
  cachedImages : Option Int
  brk : Nat
  env : σ
  log : List Event

/-- A function of the filesystem. -/
abbrev Fs (σ α : Type) := Lib.Comp (World σ) Int α

end GPhoto2
