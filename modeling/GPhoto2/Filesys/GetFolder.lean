import GPhoto2.Filesys.Ops

/-!
# `GPhoto2.Filesys.GetFolder`: the search for a file

`gp_filesystem_get_folder` has two parts. `gp_filesystem_scan` lists the folders of the camera one
after the other, so that they are cached. It puts the path of a subfolder together in an array of
128 characters, and gives that to itself. `recursive_folder_scan` looks for the file in what is
cached then, and puts the path together on its way back.

Neither has a bound of its own. The counts are of the calls left.
-/

set_option autoImplicit false

/-! ## `lookup_folder` on the string

`lookup_folder` holds a pointer `curpt` into the path. It skips slashes, cuts the next component
off with `strchr`, and compares the names of the subfolders with it by `strncmp` and `strlen`,
or by `strcmp` behind the last slash. `lookupFolderAt` is that loop, with `curpt` as a position.

`lookupFolder_strings` (`Proofs.Filesys.LookupFolder`) shows that `lookupFolder` is this loop.
-/

namespace GPhoto2

open Lib

variable {σ : Type}

/-- `strncmp (a, b, n) == 0`. -/
def strncmpEq (a b : CString) (n : Nat) : Bool := a.take n == b.take n

/-- The comparison of `lookup_folder`: `s` is the distance to the next slash, if there is one. -/
def matchesComponent (s : Option Nat) (curpt name : CString) : Bool :=
  match s with
  | some n => strncmpEq name curpt n && name.length == n
  | none => name == curpt

/-- The loop of `lookup_folder`, with the position of `curpt` in the path. Each round takes a
character at least, so the count does not run out. -/
def lookupFolderAt (listFolders : CString → Fs σ (List CString)) (foldername : CString) :
    Nat → FolderAddr → Nat → Fs σ (Option FolderAddr)
  | 0, _, _ => Comp.stuck
  | n + 1, folder, curpt =>
    -- handle multiple slashes, and slashes at the end
    let curpt := curpt + ((foldername.drop curpt).takeWhile (· == '/')).length
    if foldername.drop curpt = [] then pure (some folder)
    else do
      let s := (foldername.drop curpt).idxOf? '/'
      let fo ← derefFolder folder
      -- Check if we need to load the folder ...
      if fo.foldersDirty then do
        let _ ← Comp.attempt (listFolders (foldername.take curpt))
      let fo ← derefFolder folder
      let w ← Comp.get
      let found := fo.folders.find? fun f =>
        (w.fs.folderName f).any (matchesComponent s (foldername.drop curpt))
      match found with
      | none => pure none
      | some f =>
        match s with
        | some len => lookupFolderAt listFolders foldername n f (curpt + len)
        | none => pure (some f)

variable {σ : Type} (funcs : CameraFilesystemFuncs σ)

/-- The size of `path` in `gp_filesystem_scan`. -/
def scanPathSize : Nat := 128

/-- `strncat (path, s, sizeof (path) - strlen (path) - 1)`. -/
def scanStrncat (path s : CString) : CString := path ++ s.take (scanPathSize - path.length - 1)

/-- The path of a subfolder. A path that fills the array is not ended by `strncpy`. -/
def scanPath (folder name : CString) : Option CString :=
  if scanPathSize ≤ folder.length then none
  else if folder.getLast? ≠ some '/' then some (scanStrncat (scanStrncat folder ['/']) name)
  else some (scanStrncat folder name)

/-- The body of the loop of `gp_filesystem_scan` over the subfolders. -/
def scanSubfolder (scan : CString → Fs σ Unit) (folder name : CString) : Fs σ Unit :=
  match scanPath folder name with
  | none => Comp.stuck
  | some path => scan path

/-- `gp_filesystem_scan`. -/
def gpFilesystemScan : Nat → CString → CString → GPContext → Fs σ Unit
  | 0, _, _, _ => Comp.stuck
  | n + 1, folder, filename, context => do
    checkCancel funcs context
    checkAbsolute folder
    let files ← gpFilesystemListFiles funcs folder context
    if filename ∈ files then pure ()
    else do
      let folders ← gpFilesystemListFolders funcs folder context
      folders.forM (scanSubfolder (fun path => gpFilesystemScan n path filename context) folder)

/-- The loop of `recursive_folder_scan` over the subfolders. -/
def firstSubfolder (scan : FolderAddr → Fs σ CString) : List FolderAddr → Fs σ CString
  | [] => Comp.throw gpErrorFileNotFound
  | f :: rest => do
    match ← Comp.attempt (scan f) with
    | .ok xfolder => pure xfolder
    | .error _ => firstSubfolder scan rest

/-- `recursive_folder_scan`. The addresses grow on the way down, so their number bounds the
depth. -/
def recursiveFolderScan : Nat → FolderAddr → CString → Fs σ CString
  | 0, _, _ => Comp.stuck
  | n + 1, folder, lookforfile => do
    let fo ← derefFolder folder
    let w ← Comp.get
    match w.fs.findFile fo.files lookforfile with
    | some _ => pure fo.name
    | none => do
      let xfolder ← firstSubfolder (fun f => recursiveFolderScan n f lookforfile) fo.folders
      pure (fo.name ++ '/' :: xfolder)

/-- `gp_filesystem_get_folder`, with `n` calls of `gp_filesystem_scan` below each other. -/
def gpFilesystemGetFolder (n : Nat) (filename : CString) (context : GPContext) :
    Fs σ CString := do
  checkCancel funcs context
  gpFilesystemScan funcs n ['/'] filename context
  let w ← Comp.get
  match ← Comp.attempt (recursiveFolderScan w.brk rootfolder filename) with
  | .ok folder => pure folder
  | .error _ => Comp.throw gpErrorFileNotFound

end GPhoto2
