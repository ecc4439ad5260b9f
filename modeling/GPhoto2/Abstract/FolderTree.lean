import GPhoto2.CString
import Mathlib.Data.List.Nodup

/-!
# `GPhoto2.Abstract.FolderTree`: the folders and files on a camera

A camera keeps its pictures in a finite tree of folders. A folder is given by the names on the way
to it, from the top. Nothing bounds the depth of a tree, or the length of a name.
-/

set_option autoImplicit false

namespace GPhoto2

/-- Where the names of subfolders lead, from the top. -/
inductive FolderPath (folders : List CString → List CString) : List CString → Prop
  | root : FolderPath folders []
  | sub {path : List CString} {name : CString} (h : FolderPath folders path)
      (hname : name ∈ folders path) : FolderPath folders (path ++ [name])

/-- The folders of a camera: the names of the subfolders of each folder. A folder can be told from
its siblings, a path can name it, and the tree is finite. -/
structure FolderTree where
  folders : List CString → List CString
  folders_nodup : ∀ path, (folders path).Nodup
  folder_name : ∀ path, ∀ name ∈ folders path, name ≠ [] ∧ ∀ c ∈ name, c ≠ '/'
  finite : ∃ height, ∀ path, FolderPath folders path → path.length ≤ height

/-- The camera has the folder. -/
abbrev FolderTree.Has (t : FolderTree) (path : List CString) : Prop := FolderPath t.folders path

/-- The folders and files of a camera. -/
structure CameraTree extends FolderTree where
  files : List CString → List CString
  files_nodup : ∀ path, (files path).Nodup

/-- All names on the way to a folder are names of folders. -/
theorem FolderTree.Has.names {t : FolderTree} {path : List CString} (h : t.Has path) :
    ∀ name ∈ path, name ≠ [] ∧ ∀ c ∈ name, c ≠ '/' := by
  induction h with
  | root =>
    intro name hmem
    cases hmem
  | sub _ hname ih =>
    intro name hmem
    rcases List.mem_append.mp hmem with hmem | hmem
    · exact ih name hmem
    · rw [List.mem_singleton.mp hmem]
      exact t.folder_name _ _ hname

/-! ### Paths as strings -/

/-- The names, each with a slash in front. -/
def pathTail (path : List CString) : CString := path.flatMap fun name => '/' :: name

/-- The path of a folder as a string. -/
def pathString (path : List CString) : CString := if path = [] then ['/'] else pathTail path

@[simp] theorem pathTail_nil : pathTail [] = [] := rfl

@[simp] theorem pathTail_cons (name : CString) (path : List CString) :
    pathTail (name :: path) = '/' :: (name ++ pathTail path) := rfl

theorem pathTail_concat (path : List CString) (name : CString) :
    pathTail (path ++ [name]) = pathTail path ++ '/' :: name := by
  simp [pathTail]

theorem pathString_of_ne_nil {path : List CString} (h : path ≠ []) :
    pathString path = pathTail path := if_neg h

end GPhoto2
