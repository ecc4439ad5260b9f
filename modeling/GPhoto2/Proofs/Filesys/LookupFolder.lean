import GPhoto2.Abstract.FolderTree
import GPhoto2.Filesys.GetFolder
import GPhoto2.Proofs.Filesys.Total

/-!
# `GPhoto2.Proofs.Filesys.LookupFolder`: the strings of `lookup_folder`

The theorems:

* `lookupFolder_strings`: `lookupFolder` is the loop of the source over the position `curpt`, with
  `gp_filesystem_list_folders` called on the part of the path before it.
* `components_eq`: the components are what the slashes separate, without the empty parts.
* `pathSteps_split`: the part of the path before a component has the components before it.
-/

set_option autoImplicit false

namespace GPhoto2

open Lib
open List (append_assoc append_nil length_append length_cons length_pos_iff length_take
  takeWhile_append_dropWhile)

variable {σ : Type}

/-! ### Components -/

theorem takeWhile_idxOf (curpt : CString) :
    curpt.takeWhile (· != '/') = (curpt.idxOf? '/').elim curpt fun n => curpt.take n := by
  induction curpt with
  | nil => rfl
  | cons c curpt ih =>
    by_cases hc : c = '/'
    · subst hc
      rfl
    · have hne : (c == '/') = false := by simpa using hc
      rw [List.takeWhile_cons, List.idxOf?_cons, ih]
      simp only [hne, bne, Bool.not_false, if_true, Bool.false_eq_true, if_false]
      cases curpt.idxOf? '/' <;> rfl

/-- `strchr` cuts a component off, and the comparison is an equality. -/
theorem matchesComponent_eq (curpt name : CString) :
    matchesComponent (curpt.idxOf? '/') curpt name = (name == curpt.takeWhile (· != '/')) := by
  rw [takeWhile_idxOf]
  cases hs : curpt.idxOf? '/' with
  | none => rfl
  | some n =>
    have hn : n ≤ curpt.length := Nat.le_of_lt (List.idxOf?_eq_some_iff.mp hs).1
    show (strncmpEq name curpt n && name.length == n) = (name == curpt.take n)
    rw [Bool.eq_iff_iff, Bool.and_eq_true, strncmpEq, beq_iff_eq, beq_iff_eq, beq_iff_eq]
    constructor
    · intro h
      rw [← h.1, List.take_of_length_le (Nat.le_of_eq h.2)]
    · intro h
      rw [h, length_take, Nat.min_eq_left hn, List.take_take, Nat.min_self]
      exact ⟨rfl, rfl⟩

theorem find_matchesComponent (fs : CameraFilesystem) (chain : List FolderAddr)
    (curpt : CString) :
    (chain.find? fun f => (fs.folderName f).any (matchesComponent (curpt.idxOf? '/') curpt)) =
      fs.findFolder chain (curpt.takeWhile (· != '/')) := by
  refine List.find?_congr fun f _ => ?_
  cases hname : fs.folderName f with
  | none => rfl
  | some name =>
    rw [Option.any_some, matchesComponent_eq]
    rfl

variable {curpt : CString}

theorem dropWhile_idxOf_none (h : curpt.idxOf? '/' = none) :
    curpt.dropWhile (· != '/') = [] := by
  have htake := takeWhile_idxOf curpt
  have hall := takeWhile_append_dropWhile (p := (· != '/')) (l := curpt)
  rw [h, Option.elim_none] at htake
  rw [htake] at hall
  exact List.append_right_eq_self.mp hall

theorem pos_of_idxOf {rest : CString} {len : Nat}
    (hrest : curpt.dropWhile (· == '/') = rest) (h : rest.idxOf? '/' = some len) : 0 < len := by
  refine Nat.pos_of_ne_zero fun hzero => ?_
  obtain ⟨hlt, hget, -⟩ := List.idxOf?_eq_some_iff.mp h
  subst hzero
  have hne : curpt.dropWhile (· == '/') ≠ [] := by
    rw [hrest]
    exact length_pos_iff.mp hlt
  have hhead := List.head_dropWhile_not (· == '/') hne
  simp only [hrest, List.head_eq_getElem] at hhead
  rw [hget] at hhead
  cases hhead

/-! ### Splitting at the slashes -/

/-- What the slashes separate, without the empty parts. -/
def splitSlashes (path : CString) : List CString := (path.splitOn '/').filter (· ≠ [])

variable (path : CString) (n : Nat)

theorem splitSlashes_append (rest : CString) :
    splitSlashes (path ++ '/' :: rest) = splitSlashes path ++ splitSlashes rest := by
  unfold splitSlashes
  rw [List.splitOn_append_cons_self, List.filter_append]

theorem splitSlashes_cons : splitSlashes ('/' :: path) = splitSlashes path :=
  splitSlashes_append [] path

theorem splitSlashes_slashes {slashes : CString} (h : ∀ c ∈ slashes, c = '/')
    (path : CString) : splitSlashes (slashes ++ path) = splitSlashes path := by
  induction slashes with
  | nil => rfl
  | cons c slashes ih =>
    rw [h c List.mem_cons_self, List.cons_append, splitSlashes_cons]
    exact ih fun d hd => h d (List.mem_cons_of_mem c hd)

variable {name : CString}

theorem splitSlashes_name (h : ∀ c ∈ name, c ≠ '/') (hne : name ≠ []) :
    splitSlashes name = [name] := by
  unfold splitSlashes
  rw [List.splitOn, List.splitOnP_eq_singleton fun c hc => by simpa using h c hc]
  simp [hne]

theorem splitSlashes_name_append {rest : CString} (h : ∀ c ∈ name, c ≠ '/')
    (hne : name ≠ []) (hrest : rest = [] ∨ ∃ t, rest = '/' :: t) :
    splitSlashes (name ++ rest) = name :: splitSlashes rest := by
  obtain rfl | ⟨t, rfl⟩ := hrest
  · rw [append_nil, splitSlashes_name h hne]
    rfl
  · rw [splitSlashes_append, splitSlashes_name h hne, splitSlashes_cons]
    rfl

theorem eq_slash_of_mem_takeWhile :
    ∀ c ∈ curpt.takeWhile (· == '/'), c = '/' := fun c hc => by
  simpa using List.all_eq_true.mp List.all_takeWhile c hc

theorem splitSlashes_takeWhile (curpt path : CString) :
    splitSlashes (curpt.takeWhile (· == '/') ++ path) = splitSlashes path :=
  splitSlashes_slashes eq_slash_of_mem_takeWhile path

theorem ne_slash_of_mem_takeWhile :
    ∀ c ∈ curpt.takeWhile (· != '/'), c ≠ '/' := fun c hc => by
  simpa using List.all_eq_true.mp List.all_takeWhile c hc

theorem dropWhile_name (curpt : CString) :
    curpt.dropWhile (· != '/') = [] ∨ ∃ t, curpt.dropWhile (· != '/') = '/' :: t := by
  induction curpt with
  | nil => exact Or.inl rfl
  | cons c curpt ih =>
    by_cases hc : c = '/'
    · subst hc
      exact Or.inr ⟨curpt, rfl⟩
    · rw [List.dropWhile_cons_of_pos (by simpa using hc)]
      exact ih

theorem takeWhile_name_ne_nil (h : curpt.dropWhile (· == '/') ≠ []) :
    (curpt.dropWhile (· == '/')).takeWhile (· != '/') ≠ [] := by
  have hhead := List.head_dropWhile_not (· == '/') h
  generalize curpt.dropWhile (· == '/') = rest at h hhead
  cases rest with
  | nil => exact absurd rfl h
  | cons c rest =>
    rw [List.takeWhile_cons_of_pos (by simpa using hhead)]
    exact List.cons_ne_nil _ _

theorem componentsAux_eq (done curpt : CString) (hn : curpt.length ≤ n) :
    (pathStepsAux n done curpt).map Prod.snd = splitSlashes curpt := by
  induction n generalizing done curpt with
  | zero =>
    rw [List.length_eq_zero_iff.mp (Nat.le_zero.mp hn)]
    rfl
  | succ n ih =>
    have hslashes := takeWhile_append_dropWhile (p := (· == '/')) (l := curpt)
    have hsplit : splitSlashes curpt = splitSlashes (curpt.dropWhile (· == '/')) := by
      have hall := splitSlashes_takeWhile curpt (curpt.dropWhile (· == '/'))
      rwa [hslashes] at hall
    have hlen := congrArg List.length hslashes
    rw [length_append] at hlen
    rw [hsplit, pathStepsAux]
    by_cases hnil : curpt.dropWhile (· == '/') = []
    · rw [if_pos hnil, hnil]
      rfl
    · have hne := takeWhile_name_ne_nil hnil
      have hname := takeWhile_append_dropWhile (p := (· != '/'))
        (l := curpt.dropWhile (· == '/'))
      have hlen' := congrArg List.length hname
      have hpos := length_pos_iff.mpr hne
      rw [length_append] at hlen'
      rw [if_neg hnil, List.map_cons, ih _ _ (by omega),
        ← splitSlashes_name_append ne_slash_of_mem_takeWhile hne (dropWhile_name _), hname]

/-- The components are what the slashes separate, without the empty parts. -/
theorem components_eq : components path = splitSlashes path :=
  componentsAux_eq path.length [] path (Nat.le_refl _)

/-- The part of the path before a component has the components before it. -/
theorem pathStepsAux_split {done copy : CString}
    {s₁ s₂ : List (CString × CString)}
    (h : pathStepsAux n done curpt = s₁ ++ (copy, name) :: s₂) :
    ∃ used rest, curpt = used ++ rest ∧ copy = done ++ used ∧
      curpt.takeWhile (· == '/') <+: used ∧ splitSlashes used = s₁.map Prod.snd := by
  induction n generalizing done curpt s₁ with
  | zero => simp [pathStepsAux] at h
  | succ n ih =>
    have hslashes := takeWhile_append_dropWhile (p := (· == '/')) (l := curpt)
    rw [pathStepsAux] at h
    by_cases hnil : curpt.dropWhile (· == '/') = []
    · rw [if_pos hnil] at h
      simp at h
    rw [if_neg hnil] at h
    cases s₁ with
    | nil =>
      obtain ⟨hstep, -⟩ := List.cons.inj h
      rw [Prod.mk.injEq] at hstep
      refine ⟨_, _, hslashes.symm, hstep.1.symm, List.prefix_refl _, ?_⟩
      have hall := splitSlashes_takeWhile curpt []
      rw [append_nil] at hall
      rw [hall]
      rfl
    | cons step s₁ =>
      obtain ⟨rfl, htail⟩ := List.cons.inj h
      obtain ⟨used, rest, hrest, hcopy, -, hused⟩ := ih htail
      have hname := takeWhile_append_dropWhile (p := (· != '/'))
        (l := curpt.dropWhile (· == '/'))
      refine ⟨curpt.takeWhile (· == '/') ++ ((curpt.dropWhile (· == '/')).takeWhile (· != '/') ++
        used), rest, ?_, by simp [hcopy], List.prefix_append _ _, ?_⟩
      · rw [append_assoc, append_assoc, ← hrest, hname, hslashes]
      · rw [splitSlashes_slashes eq_slash_of_mem_takeWhile, splitSlashes_name_append
          ne_slash_of_mem_takeWhile (takeWhile_name_ne_nil hnil) ?_, hused]
        · rfl
        · -- The rest starts with a slash, so what is used of it does, too.
          cases used with
          | nil => exact Or.inl rfl
          | cons c used =>
            rcases dropWhile_name (curpt.dropWhile (· == '/')) with he | ⟨t, he⟩
            · rw [he] at hrest
              cases hrest
            · rw [he] at hrest
              exact Or.inr ⟨used, by rw [(List.cons.inj hrest).1]⟩

/-- The string a folder is listed under leads to this folder, and is absolute if the path is. -/
theorem pathSteps_split {path copy : CString} {s₁ s₂ : List (CString × CString)}
    (h : pathSteps path = s₁ ++ (copy, name) :: s₂) :
    components copy = s₁.map Prod.snd ∧ (isAbsolute path = true → isAbsolute copy = true) := by
  obtain ⟨used, rest, hpath, rfl, hslashes, hused⟩ := pathStepsAux_split _ h
  refine ⟨(components_eq _).trans hused, fun habsolute => ?_⟩
  cases path with
  | nil => cases habsolute
  | cons c path =>
    have hc : c = '/' := by simpa [isAbsolute] using habsolute
    subst hc
    obtain ⟨t, ht⟩ := hslashes
    rw [← ht]
    rfl

/-! ### The loop -/

theorem lookupFolderAt_eq (listFolders : CString → Fs σ (List CString)) (n m : Nat)
    (folder : FolderAddr) (done curpt : CString) (hn : curpt.length < n) (hm : curpt.length ≤ m) :
    lookupFolderAt listFolders (done ++ curpt) n folder done.length =
      lookupFolderLoop listFolders folder (pathStepsAux m done curpt) := by
  induction n generalizing m folder done curpt with
  | zero => exact absurd hn (Nat.not_lt_zero _)
  | succ n ih =>
    have hslashes := takeWhile_append_dropWhile (p := (· == '/')) (l := curpt)
    generalize hs : curpt.takeWhile (· == '/') = slashes at hslashes
    generalize hc : curpt.dropWhile (· == '/') = rest at hslashes
    have hsplit : done ++ curpt = (done ++ slashes) ++ rest := by
      rw [← hslashes, append_assoc]
    have hpos : (done ++ slashes).length = done.length + slashes.length := length_append
    have hdrop : (done ++ curpt).drop (done.length + slashes.length) = rest := by
      rw [hsplit, ← hpos, List.drop_left]
    have htake : (done ++ curpt).take (done.length + slashes.length) = done ++ slashes := by
      rw [hsplit, ← hpos, List.take_left]
    unfold lookupFolderAt
    simp only [List.drop_left, hs, hdrop, htake]
    by_cases hnil : rest = []
    · rw [if_pos hnil]
      cases m with
      | zero => rfl
      | succ m => simp [pathStepsAux, hc, hnil, lookupFolderLoop]
    · rw [if_neg hnil]
      have hlen := congrArg List.length hslashes
      rw [length_append] at hlen
      have hrest : 0 < rest.length := length_pos_iff.mpr hnil
      cases m with
      | zero => omega
      | succ m =>
        simp only [pathStepsAux, hs, hc, if_neg hnil, lookupFolderLoop, find_matchesComponent]
        cases hslash : rest.idxOf? '/' with
        | none =>
          -- The last component: the loop would end at once.
          have hend : ∀ f, lookupFolderLoop listFolders f (pathStepsAux m
              (done ++ slashes ++ rest.takeWhile (· != '/')) (rest.dropWhile (· != '/'))) =
              pure (some f) := by
            intro f
            rw [dropWhile_idxOf_none hslash]
            cases m <;> rfl
          simp only [hend] <;> rfl
        | some len =>
          have hname : rest.takeWhile (· != '/') = rest.take len := by
            rw [takeWhile_idxOf, hslash]
            rfl
          have hlt : len < rest.length := (List.idxOf?_eq_some_iff.mp hslash).1
          have hpos' : 0 < len := pos_of_idxOf hc hslash
          have hnext : rest.dropWhile (· != '/') = rest.drop len := by
            have hall := takeWhile_append_dropWhile (p := (· != '/')) (l := rest)
            rw [hname] at hall
            exact List.append_cancel_left (hall.trans (List.take_append_drop len rest).symm)
          have hrec : ∀ f, lookupFolderAt listFolders (done ++ curpt) n f
              (done.length + slashes.length + len) = lookupFolderLoop listFolders f
                (pathStepsAux m (done ++ slashes ++ rest.take len) (rest.drop len)) := by
            intro f
            have hlen' := List.length_drop (l := rest) (i := len)
            have hstep := ih m f (done ++ slashes ++ rest.take len) (rest.drop len)
              (by omega) (by omega)
            rw [append_assoc, List.take_append_drop, ← hsplit] at hstep
            rw [← hstep]
            congr 1
            rw [length_append, length_append, length_take,
              Nat.min_eq_left (Nat.le_of_lt hlt)]
          simp only [hrec, hname, hnext] <;> rfl

variable (funcs : CameraFilesystemFuncs σ)

/-- `lookup_folder` is the loop of the source. -/
theorem lookupFolder_strings (context : GPContext) :
    lookupFolder funcs path context =
      lookupFolderAt (fun copy => gpFilesystemListFolders funcs copy context) path
        (path.length + 1) rootfolder 0 := by
  rw [lookupFolder_eq]
  exact (lookupFolderAt_eq _ _ _ rootfolder [] path (Nat.lt_succ_self _) (Nat.le_refl _)).symm

/-! ## The paths that `gp_filesystem_scan` makes

Splitting a path string at its slashes gives the names back (`splitSlashes_pathString`), and no
string for a folder is shorter than its path string (`length_pathString_le`). So an array of 128
characters holds the path of a folder if the path string has 127 characters at most
(`scanPath_pathString`), and what it holds otherwise is the path of another folder.
-/

section
variable {path : List CString}

/-- The names of a path are not empty, and have no slash. -/
def PathNames (path : List CString) : Prop := ∀ name ∈ path, name ≠ [] ∧ ∀ c ∈ name, c ≠ '/'

theorem isAbsolute_pathTail (h : path ≠ []) : isAbsolute (pathTail path) = true := by
  cases path with
  | nil => exact absurd rfl h
  | cons name path => rfl

theorem isAbsolute_pathString (path : List CString) : isAbsolute (pathString path) = true := by
  by_cases h : path = []
  · rw [h]
    rfl
  · rw [pathString_of_ne_nil h, isAbsolute_pathTail h]

theorem splitSlashes_pathTail (h : PathNames path) : splitSlashes (pathTail path) = path := by
  induction path with
  | nil => rfl
  | cons name path ih =>
    obtain ⟨hne, hslash⟩ := h name List.mem_cons_self
    have hrest : pathTail path = [] ∨ ∃ t, pathTail path = '/' :: t := by
      cases path with
      | nil => exact Or.inl rfl
      | cons n path => exact Or.inr ⟨_, rfl⟩
    rw [pathTail_cons, splitSlashes_cons, splitSlashes_name_append hslash hne hrest,
      ih fun n hn => h n (List.mem_cons_of_mem name hn)]

theorem splitSlashes_pathString (h : PathNames path) : splitSlashes (pathString path) = path := by
  by_cases hnil : path = []
  · rw [hnil]
    rfl
  · rw [pathString_of_ne_nil hnil, splitSlashes_pathTail h]

theorem length_pathTail_le (n : Nat) (s : CString) (hn : s.length ≤ n) :
    (pathTail (splitSlashes s)).length ≤ s.length + 1 ∧
      (isAbsolute s = true → (pathTail (splitSlashes s)).length ≤ s.length) := by
  induction n generalizing s with
  | zero =>
    rw [List.length_eq_zero_iff.mp (Nat.le_zero.mp hn)]
    exact ⟨Nat.zero_le _, fun h => by cases h⟩
  | succ n ih =>
    cases s with
    | nil => exact ⟨Nat.zero_le _, fun h => by cases h⟩
    | cons c s =>
      have hs : s.length ≤ n := Nat.le_of_succ_le_succ hn
      by_cases hc : c = '/'
      · subst hc
        rw [splitSlashes_cons]
        exact ⟨Nat.le_succ_of_le (ih s hs).1, fun _ => (ih s hs).1⟩
      · refine ⟨?_, fun h => absurd h (by simpa [isAbsolute] using hc)⟩
        -- A name, and a slash behind it or nothing.
        have hall := List.takeWhile_append_dropWhile (p := (· != '/')) (l := c :: s)
        have hne : (c :: s).takeWhile (· != '/') ≠ [] := by simp [hc]
        have hslash : ∀ d ∈ (c :: s).takeWhile (· != '/'), d ≠ '/' := ne_slash_of_mem_takeWhile
        have hrest := dropWhile_name (c :: s)
        generalize (c :: s).takeWhile (· != '/') = name at hall hne hslash
        generalize (c :: s).dropWhile (· != '/') = rest at hall hrest
        have hlen := congrArg List.length hall
        have hpos : 0 < name.length := length_pos_iff.mpr hne
        rw [List.length_append] at hlen
        rw [← hall, splitSlashes_name_append hslash hne hrest, pathTail_cons, length_cons,
          List.length_append, List.length_append]
        obtain rfl | ⟨t, rfl⟩ := hrest
        · exact Nat.le_refl _
        · simp only [length_cons] at hlen hn ⊢
          have htail := (ih t (by omega)).1
          rw [splitSlashes_cons]
          omega

theorem length_pathString_le {s : CString} (h : isAbsolute s = true) :
    (pathString (splitSlashes s)).length ≤ s.length := by
  by_cases hnil : splitSlashes s = []
  · cases s with
    | nil => cases h
    | cons c s =>
      rw [hnil]
      exact Nat.succ_le_succ (Nat.zero_le _)
  · rw [pathString_of_ne_nil hnil]
    exact (length_pathTail_le s.length s (Nat.le_refl _)).2 h

/-! ### The array of `gp_filesystem_scan` -/

theorem length_scanStrncat_le {path s : CString} (h : path.length < scanPathSize) :
    (scanStrncat path s).length < scanPathSize := by
  unfold scanStrncat
  rw [List.length_append, length_take]
  omega

theorem scanStrncat_eq {path s : CString} (h : path.length + s.length < scanPathSize) :
    scanStrncat path s = path ++ s := by
  unfold scanStrncat
  rw [List.take_of_length_le (by omega)]

theorem isAbsolute_append {path : CString} (h : isAbsolute path = true) (s : CString) :
    isAbsolute (path ++ s) = true := by
  cases path with
  | nil => cases h
  | cons c path => exact h

theorem scanPath_cases {folder : CString} (name : CString) (h : folder.length < scanPathSize)
    (habsolute : isAbsolute folder = true) : ∃ path, scanPath folder name = some path ∧
      path.length < scanPathSize ∧ isAbsolute path = true := by
  unfold scanPath
  rw [if_neg (Nat.not_le.mpr h)]
  by_cases hlast : folder.getLast? ≠ some '/'
  · rw [if_pos hlast]
    exact ⟨_, rfl, length_scanStrncat_le (length_scanStrncat_le h),
      isAbsolute_append (isAbsolute_append habsolute _) _⟩
  · rw [if_neg hlast]
    exact ⟨_, rfl, length_scanStrncat_le h, isAbsolute_append habsolute _⟩

theorem getLast_pathTail {name : CString} (h : PathNames (path ++ [name])) :
    (pathTail (path ++ [name])).getLast? ≠ some '/' := by
  obtain ⟨hne, hslash⟩ := h name (by simp)
  have hlast : (pathTail (path ++ [name])).getLast? = some (name.getLast hne) := by
    rw [pathTail_concat, List.getLast?_append, List.getLast?_cons,
      List.getLast?_eq_some_getLast hne]
    rfl
  rw [hlast, Ne, Option.some.injEq]
  exact hslash _ (List.getLast_mem hne)

theorem scanPath_pathString {name : CString} (h : PathNames path)
    (hfits : (pathString (path ++ [name])).length < scanPathSize) :
    scanPath (pathString path) name = some (pathString (path ++ [name])) := by
  have hne : path ++ [name] ≠ [] := by simp
  rw [pathString_of_ne_nil hne, pathTail_concat] at hfits ⊢
  rw [List.length_append, length_cons] at hfits
  unfold scanPath
  obtain rfl | ⟨path, last, rfl⟩ := List.eq_nil_or_concat path
  · -- The top folder ends in a slash.
    have hroot : pathString [] = ['/'] := rfl
    rw [hroot, if_neg (by decide), if_neg (by decide), scanStrncat_eq]
    · rfl
    · rw [pathTail_nil, List.length_nil] at hfits
      rw [List.length_singleton]
      omega
  · rw [List.concat_eq_append] at h hfits ⊢
    have hslash : scanStrncat (pathTail (path ++ [last])) ['/'] =
        pathTail (path ++ [last]) ++ ['/'] :=
      scanStrncat_eq (by rw [List.length_singleton]; omega)
    rw [pathString_of_ne_nil (by simp), if_neg (by omega), if_pos (getLast_pathTail h), hslash,
      scanStrncat_eq, List.append_assoc]
    · rfl
    · rw [List.length_append, List.length_singleton]
      omega

end

end GPhoto2
