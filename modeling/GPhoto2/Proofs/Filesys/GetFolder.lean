import GPhoto2.Lib.Outcome
import GPhoto2.Proofs.Filesys.Mirror

/-!
# `GPhoto2.Proofs.Filesys.GetFolder`: which files `gp_filesystem_get_folder` finds

`gp_filesystem_scan` goes down the folders of the camera, and stops at a folder that has the file.
`World.Explored` is what it leaves of the tree below a folder. If the path of every folder that it
comes to fits its array, the scan explores the top folder (`scan_ends`), and
`recursive_folder_scan` finds a file if there is one (`recursiveFolderScan_ends`).

A path that does not fit is cut, and is the path of another folder then, or of none. So a file in a
folder with a long path is never cached, and not found: `getsFolder_iff`.
-/

set_option autoImplicit false

namespace GPhoto2

open Lib
open Lib.Comp (attempt_eq_some bind_run_ok get_bind_run)
open Option (bind_some ne_none_iff_exists')
open NameTree (at_of_walk fileIn_eq_some walk_concat)

variable {σ : Type}

/-- The scan has been through the folder: the file is cached there, or it is not and the subfolders
have been explored, too. -/
inductive World.Explored (w : World σ) (filename : CString) : FolderAddr → Prop
  | found {p : FolderAddr} {fo : CameraFilesystemFolder} (hp : w.fs.folders p = some fo)
      (hfiles : fo.filesDirty = false) (hfound : filename ∈ w.fs.fileNames fo.files) :
      Explored w filename p
  | through {p : FolderAddr} {fo : CameraFilesystemFolder} (hp : w.fs.folders p = some fo)
      (hfiles : fo.filesDirty = false) (hnot : filename ∉ w.fs.fileNames fo.files)
      (hfolders : fo.foldersDirty = false)
      (hsub : ∀ c ∈ fo.folders, Explored w filename c) : Explored w filename p

section
variable {w w' : World σ} {cam : CameraTree} {p : FolderAddr} {path : List CString}
  {filename : CString} {fo : CameraFilesystemFolder}

/-! ### What has been explored stays explored -/

theorem Grown.fileNames {fo' : CameraFilesystemFolder} (h : Grown w w') (hwf : w.tree.Wf)
    (hwf' : w'.tree.Wf) (hp : w.fs.folders p = some fo) (hp' : w'.fs.folders p = some fo')
    (hsame : fo'.files = fo.files) : w'.fs.fileNames fo'.files = w.fs.fileNames fo.files := by
  rw [hsame]
  refine List.filterMap_congr fun a ha => ?_
  have ha₀ : a ∈ w.tree.files p := by rwa [tree_files hp]
  have ha' : a ∈ w'.tree.files p := by rwa [tree_files hp', hsame]
  exact h.stable.fileName (hwf.file_lt (hwf.file_alive ha₀)) (hwf'.file_alive ha')

theorem Grown.folderNames {fo' : CameraFilesystemFolder} (h : Grown w w') (hwf : w.tree.Wf)
    (hwf' : w'.tree.Wf) (hp : w.fs.folders p = some fo) (hp' : w'.fs.folders p = some fo')
    (hsame : fo'.folders = fo.folders) :
    w'.fs.folderNames fo'.folders = w.fs.folderNames fo.folders := by
  rw [hsame]
  refine List.filterMap_congr fun c hc => ?_
  have hc₀ : c ∈ w.tree.folders p := by rwa [tree_folders hp]
  have hc' : c ∈ w'.tree.folders p := by rwa [tree_folders hp', hsame]
  exact h.stable.folderName (hwf.folder_lt (hwf.child_alive hc₀)) (hwf'.child_alive hc')

theorem Explored.grown (h : w.Explored filename p) (hw : w.Reflects cam) (hw' : w'.Reflects cam)
    (hgrown : Grown w w') (hwalk : w.tree.walk rootfolder path = some p)
    (hclean : w.AllClean rootfolder path) : w'.Explored filename p := by
  induction h generalizing path with
  | found hp hfiles hfound =>
    obtain ⟨fo', hp', -, hkept⟩ := hgrown.folder hwalk hclean hp
    obtain ⟨hfiles', hsame⟩ := hkept hfiles
    refine .found hp' hfiles' ?_
    rwa [Grown.fileNames hgrown hw.sound.wf hw'.sound.wf hp hp' hsame]
  | @through p fo hp hfiles hnot hfolders _ ih =>
    obtain ⟨fo', hp', hkept, hkept'⟩ := hgrown.folder hwalk hclean hp
    obtain ⟨hfolders', hsub⟩ := hkept hfolders
    obtain ⟨hfiles', hsame⟩ := hkept' hfiles
    refine .through hp' hfiles' ?_ hfolders' fun c hc => ?_
    · rwa [Grown.fileNames hgrown hw.sound.wf hw'.sound.wf hp hp' hsame]
    · rw [hsub] at hc
      have hmem : c ∈ w.tree.folders p := by rwa [tree_folders hp]
      obtain ⟨name, hname⟩ := ne_none_iff_exists'.mp (hw.sound.wf.child_alive hmem)
      have hchild := hw.mirrors.distinct.child_of_mem hmem hname
      refine @ih c hc (path ++ [name]) ?_ ?_
      · rw [walk_concat, hwalk, bind_some, hchild]
      · exact allClean_concat hclean hwalk (not_dirtyAt hp (by rw [hfolders]; simp))

/-! ### The scan -/

/-- The scan comes to the folder: no folder above it has the file. -/
def CameraTree.ScanComesTo (cam : CameraTree) (filename : CString) (path : List CString) : Prop :=
  cam.Has path ∧ ∀ pre, pre <+: path → pre ≠ path → filename ∉ cam.files pre

/-- The array of the scan holds the path of every folder that it comes to. -/
def CameraTree.ScanFits (cam : CameraTree) (filename : CString) : Prop :=
  ∀ path, cam.ScanComesTo filename path → (pathString path).length < scanPathSize

theorem scanComesTo_sub {name : CString} (h : cam.ScanComesTo filename path)
    (hnot : filename ∉ cam.files path) (hhas : cam.Has (path ++ [name])) :
    cam.ScanComesTo filename (path ++ [name]) := by
  refine ⟨hhas, fun pre hpre hne => ?_⟩
  rcases List.prefix_concat_iff.mp hpre with rfl | hpre
  · exact absurd rfl hne
  · by_cases hpath : pre = path
    · rwa [hpath]
    · exact h.2 pre hpre hpath

/-- The folder has been explored, and lies on a clean path. -/
structure World.ExploredAt (w : World σ) (filename : CString) (path : List CString) : Prop where
  folder : ∃ p, w.tree.walk rootfolder path = some p ∧ w.Explored filename p
  clean : w.AllClean rootfolder path

theorem ExploredAt.grown (h : w.ExploredAt filename path) (hw : w.Reflects cam)
    (hw' : w'.Reflects cam) (hgrown : Grown w w') : w'.ExploredAt filename path := by
  obtain ⟨p, hwalk, hex⟩ := h.folder
  obtain ⟨hwalk', hclean'⟩ := hgrown.walk hw.sound.wf hw'.sound.wf hwalk h.clean
  exact ⟨⟨p, hwalk', Explored.grown hex hw hw' hgrown hwalk h.clean⟩, hclean'⟩

/-- A folder with clean listings has been explored when its subfolders have. -/
theorem exploredAt_of_subfolders {s : CString} (hw : w.Reflects cam) (hleads : w.LeadsTo s p fo)
    (hfiles : fo.filesDirty = false) (hfolders : fo.foldersDirty = false)
    (hnot : filename ∉ w.fs.fileNames fo.files)
    (hsub : ∀ name ∈ w.fs.folderNames fo.folders,
      w.ExploredAt filename (splitSlashes s ++ [name])) :
    w.ExploredAt filename (splitSlashes s) := by
  have hwalk := hleads.walk
  have hclean := hleads.clean
  rw [components_eq] at hwalk hclean
  refine ⟨⟨p, hwalk, .through hleads.folder hfiles hnot hfolders fun c hc => ?_⟩, hclean⟩
  have hmem : c ∈ w.tree.folders p := by rwa [tree_folders hleads.folder]
  obtain ⟨name, hname⟩ := ne_none_iff_exists'.mp (hw.sound.wf.child_alive hmem)
  obtain ⟨c', hwalk', hex⟩ := (hsub name (List.mem_filterMap.mpr ⟨c, hc, hname⟩)).folder
  rw [walk_concat, hwalk, bind_some, hw.mirrors.distinct.child_of_mem hmem hname,
    Option.some.injEq] at hwalk'
  exact hwalk' ▸ hex

variable {funcs : CameraFilesystemFuncs σ} {context : GPContext}

theorem scan_below (n : Nat) (folder filename : CString) (context : GPContext) :
    Comp.Below (gpFilesystemScan funcs n folder filename context)
      (gpFilesystemScan funcs (n + 1) folder filename context) := by
  induction n generalizing folder with
  | zero => exact .stuck _
  | succ n ih =>
    unfold gpFilesystemScan
    refine .bind (.refl _) fun _ => .bind (.refl _) fun _ => .bind (.refl _) fun files => ?_
    refine .ite (.refl _) (.bind (.refl _) fun folders => .forM fun name => ?_)
    unfold scanSubfolder
    cases scanPath folder name with
    | none => exact .refl _
    | some path => exact ih path

/-- The loop over the subfolders, with a scan that explores each of them. -/
theorem scanSubfolders_ends {scan : CString → Fs σ Unit} {names : List CString}
    (hscan : ∀ name ∈ names, ∀ w : World σ, w.Reflects cam →
      ∃ w', scanSubfolder scan (pathString path) name w = some (.ok (), w') ∧ w'.Reflects cam ∧
        Grown w w' ∧ w'.ExploredAt filename (path ++ [name])) (hw : w.Reflects cam) :
    ∃ w', names.forM (scanSubfolder scan (pathString path)) w = some (.ok (), w') ∧
      w'.Reflects cam ∧ Grown w w' ∧
      ∀ name ∈ names, w'.ExploredAt filename (path ++ [name]) := by
  induction names generalizing w with
  | nil => exact ⟨w, rfl, hw, .refl w, fun _ hmem => by cases hmem⟩
  | cons name names ih =>
    obtain ⟨w₁, hfirst, hw₁, hgrown₁, hex⟩ := hscan name List.mem_cons_self w hw
    obtain ⟨w', hrest, hw', hgrown', hall⟩ :=
      ih (fun n hn => hscan n (List.mem_cons_of_mem name hn)) hw₁
    refine ⟨w', (bind_run_ok hfirst).trans hrest, hw',
      hgrown₁.trans hw.sound.wf hw₁.sound.wf hgrown', fun n hn => ?_⟩
    rcases List.mem_cons.mp hn with rfl | hn
    · exact ExploredAt.grown hex hw₁ hw' hgrown'
    · exact hall n hn

/-- Where no path is cut, the scan explores the folder that it is given. The induction is on the
number of calls, which is larger than the number of folders below each other. -/
theorem scan_ends (hshows : Shows funcs context cam) (hfits : cam.ScanFits filename) {height : Nat}
    (hheight : ∀ path, cam.Has path → path.length ≤ height) (n : Nat)
    (hcomes : cam.ScanComesTo filename path) (hn : height < n + path.length) (hw : w.Reflects cam) :
    ∃ w', gpFilesystemScan funcs n (pathString path) filename context w = some (.ok (), w') ∧
      w'.Reflects cam ∧ Grown w w' ∧ w'.ExploredAt filename path := by
  induction n generalizing path w with
  | zero => exact absurd (hheight path hcomes.1) (by omega)
  | succ n ih =>
    have hnames : PathNames path := hcomes.1.names
    have hsplit : splitSlashes (pathString path) = path := splitSlashes_pathString hnames
    -- The folder is on the camera, so its files are listed.
    obtain ⟨w₀, hcancel, hw₀, hgrown₀⟩ := checkCancel_shown hshows.uncancelled hw
    obtain ⟨w₁, hw₁, hgrown₁, ⟨hhas, -⟩ | ⟨p, fo, hleads, hfiles, hlist⟩⟩ :=
      listFiles_shown hshows.toShowsFolders (hshows.files _) hw₀ (isAbsolute_pathString path)
    · exact absurd (hsplit.symm ▸ hcomes.1) hhas
    replace hgrown₁ := hgrown₀.trans hw.sound.wf hw₀.sound.wf hgrown₁
    unfold gpFilesystemScan
    rw [bind_run_ok hcancel, bind_run_ok (checkAbsolute_run (isAbsolute_pathString path)),
      bind_run_ok hlist]
    by_cases hfound : filename ∈ w₁.fs.fileNames fo.files
    · rw [if_pos hfound]
      have hwalk := hleads.walk
      have hclean := hleads.clean
      rw [components_eq, hsplit] at hwalk hclean
      exact ⟨w₁, rfl, hw₁, hgrown₁, ⟨p, hwalk, .found hleads.folder hfiles hfound⟩, hclean⟩
    · rw [if_neg hfound]
      obtain ⟨w₂, fo₂, hfolders, hleads₂, hclean₂, hw₂, hgrown₂⟩ :=
        listFolders_shown hshows.toShowsFolders hw₁ hleads
      rw [bind_run_ok hfolders]
      obtain ⟨fo₂', hp₂, -, hkept⟩ := hgrown₂.folder hleads.walk hleads.clean hleads.folder
      rw [hleads₂.folder, Option.some.injEq] at hp₂
      subst hp₂
      obtain ⟨hfiles₂, hsame₂⟩ := hkept hfiles
      rw [← Grown.fileNames hgrown₂ hw₁.sound.wf hw₂.sound.wf hleads.folder hleads₂.folder hsame₂]
        at hfound
      -- The camera has the file in another folder, so the scan comes to the subfolders.
      have hnot : filename ∉ cam.files path := fun hmem => by
        obtain ⟨a, ha, han⟩ := hw₂.mirrors.files (hsplit ▸ LeadsTo.at hleads₂) hleads₂.folder
          hfiles₂ filename hmem
        exact hfound (List.mem_filterMap.mpr ⟨a, ha, han⟩)
      have hscan : ∀ name ∈ w₂.fs.folderNames fo₂.folders, ∀ w : World σ, w.Reflects cam →
          ∃ w', scanSubfolder (fun path => gpFilesystemScan funcs n path filename context)
              (pathString path) name w = some (.ok (), w') ∧ w'.Reflects cam ∧ Grown w w' ∧
            w'.ExploredAt filename (path ++ [name]) := by
        intro name hmem w hw
        obtain ⟨c, hc, hname⟩ := List.mem_filterMap.mp hmem
        rw [← tree_folders hleads₂.folder] at hc
        have hhas := hw₂.mirrors.folder ((hsplit ▸ LeadsTo.at hleads₂).child hc hname)
        have hcomes' := scanComesTo_sub hcomes hnot hhas
        rw [scanSubfolder, scanPath_pathString hnames (hfits _ hcomes')]
        refine ih hcomes' ?_ hw
        rw [List.length_append, List.length_singleton]
        omega
      obtain ⟨w₃, hloop, hw₃, hgrown₃, hall⟩ := scanSubfolders_ends hscan hw₂
      obtain ⟨fo₃, hp₃, hkept₃, hkept₃'⟩ :=
        hgrown₃.folder hleads₂.walk hleads₂.clean hleads₂.folder
      obtain ⟨hclean₃, hsub₃⟩ := hkept₃ hclean₂
      obtain ⟨hfiles₃, hsame₃⟩ := hkept₃' hfiles₂
      have hleads₃ := LeadsTo.grown hleads₂ hgrown₃ hw₂.sound.wf hw₃.sound.wf hp₃
      refine ⟨w₃, hloop, hw₃, (hgrown₁.trans hw.sound.wf hw₁.sound.wf hgrown₂).trans
        hw.sound.wf hw₂.sound.wf hgrown₃, ?_⟩
      have hex : w₃.ExploredAt filename _ :=
        exploredAt_of_subfolders hw₃ hleads₃ hfiles₃ hclean₃ ?_ ?_
      · rwa [hsplit] at hex
      · rwa [Grown.fileNames hgrown₃ hw₂.sound.wf hw₃.sound.wf hleads₂.folder hp₃ hsame₃]
      · intro name hmem
        rw [hsplit]
        rw [Grown.folderNames hgrown₃ hw₂.sound.wf hw₃.sound.wf hleads₂.folder hp₃ hsub₃] at hmem
        exact hall name hmem

/-! ### The search in the cache -/

/-- What `recursive_folder_scan` returns from the folder at `p`: a path from there to a folder that
has the file, or an error, where all the folders below `p` are loaded and have no such file. -/
inductive World.Searched (w : World σ) (filename : CString) (p : FolderAddr) :
    Except Int CString → Prop
  | found {fo : CameraFilesystemFolder} {path : List CString} {q : FolderAddr}
      (hp : w.fs.folders p = some fo) (hwalk : w.tree.walk p path = some q)
      (hclean : w.AllClean p path) (hfile : w.tree.fileIn q filename ≠ none) :
      Searched w filename p (.ok (fo.name ++ pathTail path))
  | missing (e : Int) (hall : ∀ path q, w.tree.walk p path = some q →
      ∃ qo, w.fs.folders q = some qo ∧ qo.filesDirty = false ∧ qo.foldersDirty = false ∧
        filename ∉ w.fs.fileNames qo.files) : Searched w filename p (.error e)

theorem firstSubfolder_ends {scan : FolderAddr → Fs σ CString} {l : List FolderAddr}
    (hscan : ∀ c ∈ l, ∃ r, scan c w = some (r, w) ∧ w.Searched filename c r) :
    ∃ r, firstSubfolder scan l w = some (r, w) ∧
      ((∃ c ∈ l, ∃ x, r = .ok x ∧ w.Searched filename c (.ok x)) ∨
        (∃ e, r = .error e) ∧ ∀ c ∈ l, ∃ e, w.Searched filename c (.error e)) := by
  induction l with
  | nil => exact ⟨_, rfl, Or.inr ⟨⟨_, rfl⟩, fun c hc => by cases hc⟩⟩
  | cons c l ih =>
    obtain ⟨r, hrun, hsearched⟩ := hscan c List.mem_cons_self
    have hattempt : Comp.attempt (scan c) w = some (.ok r, w) :=
      attempt_eq_some.mpr ⟨r, hrun, rfl⟩
    rw [firstSubfolder, bind_run_ok hattempt]
    cases r with
    | ok x => exact ⟨.ok x, rfl, Or.inl ⟨c, List.mem_cons_self, x, rfl, hsearched⟩⟩
    | error e =>
      obtain ⟨r, hrest, hcase⟩ := ih fun d hd => hscan d (List.mem_cons_of_mem c hd)
      refine ⟨r, hrest, ?_⟩
      rcases hcase with ⟨d, hd, hx⟩ | ⟨hr, hall⟩
      · exact Or.inl ⟨d, List.mem_cons_of_mem c hd, hx⟩
      · refine Or.inr ⟨hr, fun d hd => ?_⟩
        rcases List.mem_cons.mp hd with rfl | hd
        · exact ⟨e, hsearched⟩
        · exact hall d hd

theorem fileIn_eq_none_iff (hp : w.fs.folders p = some fo) :
    w.tree.fileIn p filename = none ↔ filename ∉ w.fs.fileNames fo.files := by
  rw [NameTree.fileIn_eq_none, tree_files hp]
  constructor
  · intro h hmem
    obtain ⟨a, ha, hname⟩ := List.mem_filterMap.mp hmem
    exact h a ha hname
  · intro h a ha hname
    exact h (List.mem_filterMap.mpr ⟨a, ha, hname⟩)

/-- Where the scan has been, the search ends, and it finds a file if there is one. -/
theorem recursiveFolderScan_ends (hw : w.Reflects cam) (hex : w.Explored filename p) (n : Nat)
    (hn : w.brk ≤ n + p) : ∃ r, recursiveFolderScan n p filename w = some (r, w) ∧
      w.Searched filename p r := by
  have hwf := hw.sound.wf
  induction hex generalizing n with
  | @found p fo hp hfiles hfound =>
    have hfile : w.tree.fileIn p filename ≠ none := fun hnone =>
      (fileIn_eq_none_iff hp).mp hnone hfound
    obtain ⟨a, ha⟩ := ne_none_iff_exists'.mp hfile
    cases n with
    | zero => exact absurd (hwf.folder_lt (folderName_ne_none.mpr ⟨fo, hp⟩)) (by simpa using hn)
    | succ n =>
      rw [recursiveFolderScan, bind_run_ok (derefFolder_run hp), get_bind_run,
        findFile_eq_fileIn hp, ha]
      refine ⟨.ok fo.name, rfl, ?_⟩
      have hhere := @World.Searched.found _ _ _ _ _ [] _ hp rfl
        (fun _ _ hpass => absurd hpass not_passes_nil) hfile
      rwa [pathTail_nil, List.append_nil] at hhere
  | @through p fo hp hfiles hnot hfolders hsub ih =>
    have hdirty : ¬ w.DirtyAt p := not_dirtyAt hp (by rw [hfolders]; simp)
    cases n with
    | zero => exact absurd (hwf.folder_lt (folderName_ne_none.mpr ⟨fo, hp⟩)) (by simpa using hn)
    | succ n =>
      rw [recursiveFolderScan, bind_run_ok (derefFolder_run hp), get_bind_run,
        findFile_eq_fileIn hp, (fileIn_eq_none_iff hp).mpr hnot]
      have hscan : ∀ c ∈ fo.folders, ∃ r, recursiveFolderScan n c filename w = some (r, w) ∧
          w.Searched filename c r := by
        intro c hc
        rw [← tree_folders hp] at hc
        have hlt : p < c := hwf.child_gt hc
        refine ih c (tree_folders hp ▸ hc) n (Nat.le_trans hn ?_)
        rw [Nat.add_assoc, Nat.add_comm 1 p]
        exact Nat.add_le_add_left hlt n
      obtain ⟨r, hrun, ⟨c, hc, x, rfl, hx⟩ | ⟨⟨e, rfl⟩, hall⟩⟩ := firstSubfolder_ends hscan
      · -- The path goes on from the subfolder.
        refine ⟨.ok (fo.name ++ '/' :: x), bind_run_ok hrun, ?_⟩
        generalize hr : Except.ok x = r at hx
        cases hx with
        | missing => cases hr
        | @found co path q hco hwalk hclean hfile =>
          obtain rfl := Except.ok.inj hr
          have hmem : c ∈ w.tree.folders p := by rwa [tree_folders hp]
          have hchild := hw.mirrors.distinct.child_of_mem hmem (tree_folderName hco)
          have hwalk' : w.tree.walk p (co.name :: path) = some q := by
            rw [NameTree.walk, hchild, bind_some, hwalk]
          have hclean' : w.AllClean p (co.name :: path) := by
            refine allClean_cons hdirty fun d hd => ?_
            rw [hchild, Option.some.injEq] at hd
            exact hd ▸ hclean
          exact .found hp hwalk' hclean' hfile
      · refine ⟨.error e, Comp.bind_run_error hrun, .missing e fun path q hwalk => ?_⟩
        cases path with
        | nil =>
          obtain rfl := Option.some.inj hwalk
          exact ⟨fo, hp, hfiles, hfolders, hnot⟩
        | cons name path =>
          obtain ⟨c, hc, hwalk⟩ := Option.bind_eq_some_iff.mp hwalk
          have hmem := (NameTree.child_eq_some hc).1
          rw [tree_folders hp] at hmem
          obtain ⟨e', he'⟩ := hall c hmem
          generalize hr : Except.error e' = r at he'
          cases he' with
          | found => cases hr
          | missing _ hmissing => exact hmissing path q hwalk

/-! ### Paths that fit -/

/-- The search for a file ends, and finds a folder that has it if there is one: whatever the driver
and the frontend are, as long as it lists what is on the camera and the frontend does not cancel,
and whatever is cached. The path that is returned leads to the folder without another listing. -/
def CameraTree.GetsFolder (cam : CameraTree) (filename : CString) : Prop :=
  ∀ (τ : Type) (funcs : CameraFilesystemFuncs τ) (context : GPContext) (w : World τ),
    Shows funcs context cam → w.Reflects cam →
    ∃ n r w', (∀ m, n ≤ m → gpFilesystemGetFolder funcs m filename context w = some (r, w')) ∧
      ((∃ folder, r = .ok folder) ↔ ∃ path, cam.Has path ∧ filename ∈ cam.files path) ∧
      ∀ folder, r = .ok folder → filename ∈ cam.files (splitSlashes folder) ∧
        ∃ p, lookupFolder funcs folder context w' = some (.ok (some p), w') ∧
          w'.tree.fileIn p filename ≠ none

/-- All folders of the camera have been loaded, and the file is in none of them. -/
theorem not_mem_of_missing (hw : w.Reflects cam) {e : Int}
    (h : w.Searched filename rootfolder (.error e)) (hhas : cam.Has path) :
    filename ∉ cam.files path := by
  generalize hr : Except.error e = r at h
  cases h with
  | found => cases hr
  | missing _ hall =>
    have hloaded : ∃ q, w.tree.walk rootfolder path = some q := by
      induction hhas with
      | root => exact ⟨rootfolder, rfl⟩
      | @sub path name _ hname ih =>
        obtain ⟨q, hq⟩ := ih
        obtain ⟨qo, hqo, -, hclean, -⟩ := hall path q hq
        obtain ⟨c, hc, hcn⟩ := hw.mirrors.subfolders (at_of_walk hq) hqo hclean name hname
        rw [← tree_folders hqo] at hc
        refine ⟨c, ?_⟩
        rw [walk_concat, hq, bind_some, hw.mirrors.distinct.child_of_mem hc hcn]
    obtain ⟨q, hq⟩ := hloaded
    obtain ⟨qo, hqo, hfiles, -, hnot⟩ := hall path q hq
    intro hmem
    obtain ⟨a, ha, han⟩ := hw.mirrors.files (at_of_walk hq) hqo hfiles filename hmem
    exact hnot (List.mem_filterMap.mpr ⟨a, ha, han⟩)

theorem getsFolder_of_fits (hfits : cam.ScanFits filename) : cam.GetsFolder filename := by
  intro τ funcs context w hshows hw
  obtain ⟨height, hheight⟩ := cam.finite
  obtain ⟨w₀, hcancel, hw₀, -⟩ := checkCancel_shown hshows.uncancelled hw
  have hcomes : cam.ScanComesTo filename [] :=
    ⟨.root, fun pre hpre hne => absurd (List.prefix_nil.mp hpre) hne⟩
  obtain ⟨w₁, hscan, hw₁, -, hex⟩ := scan_ends hshows hfits hheight (height + 1) hcomes
    (by rw [List.length_nil]; omega) hw₀
  obtain ⟨p, hp, hex⟩ := hex.folder
  obtain rfl := Option.some.inj hp
  obtain ⟨r, hsearch, hsearched⟩ :=
    recursiveFolderScan_ends hw₁ hex w₁.brk (Nat.le_add_right _ _)
  have hattempt : Comp.attempt (recursiveFolderScan w₁.brk rootfolder filename) w₁ =
      some (.ok r, w₁) := attempt_eq_some.mpr ⟨r, hsearch, rfl⟩
  have hscans : ∀ m, height + 1 ≤ m →
      gpFilesystemScan funcs m ['/'] filename context w₀ = some (.ok (), w₁) := fun m hm =>
    Comp.Below.of_le (fun n => scan_below n ['/'] filename context) hm _ _ hscan
  cases hsearched with
  | missing e hall =>
    refine ⟨height + 1, .error gpErrorFileNotFound, w₁, fun m hm => ?_, ?_, fun _ h => by cases h⟩
    · unfold gpFilesystemGetFolder
      rw [bind_run_ok hcancel, bind_run_ok (hscans m hm), get_bind_run,
        bind_run_ok hattempt]
      rfl
    · constructor
      · intro h
        obtain ⟨folder, h⟩ := h
        cases h
      · intro h
        obtain ⟨path, hhas, hmem⟩ := h
        exact absurd hmem (not_mem_of_missing hw₁ (.missing e hall) hhas)
  | @found fo path q hroot hwalk hclean hfile =>
    have hat := at_of_walk hwalk
    have hhas := hw₁.mirrors.folder hat
    have hmem : filename ∈ cam.files path := by
      obtain ⟨a, ha⟩ := ne_none_iff_exists'.mp hfile
      obtain ⟨ha, hname⟩ := fileIn_eq_some ha
      exact hw₁.mirrors.file hat ha hname
    -- The path that is returned has a second slash at the top.
    have hname : fo.name = ['/'] := by
      have hname := tree_folderName hroot
      rw [hw₁.sound.wf.root, Option.some.injEq] at hname
      exact hname.symm
    have hsplit : splitSlashes (fo.name ++ pathTail path) = path := by
      rw [hname, List.singleton_append, splitSlashes_cons, splitSlashes_pathTail hhas.names]
    refine ⟨height + 1, .ok (fo.name ++ pathTail path), w₁, fun m hm => ?_, ?_,
      fun folder h => ?_⟩
    · unfold gpFilesystemGetFolder
      rw [bind_run_ok hcancel, bind_run_ok (hscans m hm), get_bind_run,
        bind_run_ok hattempt]
      rfl
    · exact ⟨fun _ => ⟨path, hhas, hmem⟩, fun _ => ⟨_, rfl⟩⟩
    · obtain rfl := Except.ok.inj h
      rw [hsplit]
      refine ⟨hmem, q, ?_, hfile⟩
      rw [lookupFolder_allClean funcs hw₁.sound.wf, components_eq, hsplit, hwalk]
      rwa [components_eq, hsplit]

end

/-! ### Paths that do not fit -/

section
variable {w w' : World σ} {cam : CameraTree} {funcs : CameraFilesystemFuncs σ}
  {context : GPContext} {filename : CString}

theorem firstSubfolder_frame {scan : FolderAddr → Fs σ CString}
    (hscan : ∀ (c : FolderAddr) (w : World σ) r w', scan c w = some (r, w') → w' = w)
    {l : List FolderAddr} {r : Except Int CString}
    (h : firstSubfolder scan l w = some (r, w')) : w' = w := by
  induction l generalizing w with
  | nil =>
    cases h
    rfl
  | cons c l ih =>
    rcases Comp.bind_eq_some.mp h with ⟨e, he, -⟩ | ⟨ret, w₁, hret, h⟩
    · obtain ⟨_, -, he⟩ := attempt_eq_some.mp he
      cases he
    · obtain ⟨r₁, hrun, hr₁⟩ := attempt_eq_some.mp hret
      obtain rfl := Except.ok.inj hr₁
      have hsame := hscan c w ret w₁ hrun
      subst hsame
      cases ret with
      | ok x =>
        cases h
        rfl
      | error e => exact ih h

theorem recursiveFolderScan_frame (n : Nat) (p : FolderAddr) (w : World σ)
    (r : Except Int CString) (w' : World σ)
    (h : recursiveFolderScan n p filename w = some (r, w')) : w' = w := by
  induction n generalizing p w r w' with
  | zero => cases h
  | succ n ih =>
    obtain ⟨fo, -, h⟩ := derefFolder_bind_eq_some.mp h
    rw [get_bind_run] at h
    cases hfile : w.fs.findFile fo.files filename with
    | some a =>
      rw [hfile] at h
      cases h
      rfl
    | none =>
      rw [hfile] at h
      rcases Comp.bind_eq_some.mp h with ⟨e, h, -⟩ | ⟨x, w₁, h, hend⟩
      · exact firstSubfolder_frame ih h
      · cases hend
        exact firstSubfolder_frame ih h

/-- The scan caches what the driver shows when it is asked with the paths in the array. -/
theorem scan_keeps (hshows : ShowsFolders funcs context cam.toFolderTree)
    (hfiles : ∀ s : CString, isAbsolute s = true → s.length < scanPathSize →
      ShowsFiles funcs cam s) (n : Nat) {s : CString} (habsolute : isAbsolute s = true)
    (hshort : s.length < scanPathSize) :
    Comp.Keeps (fun w : World σ => w.Reflects cam) (fun _ _ => True)
      (gpFilesystemScan funcs n s filename context) := by
  induction n generalizing s with
  | zero => exact .stuck
  | succ n ih =>
    intro w r w' hw h
    obtain ⟨w₀, hcancel, hw₀, -⟩ := checkCancel_shown hshows.uncancelled hw
    unfold gpFilesystemScan at h
    rw [bind_run_ok hcancel, bind_run_ok (checkAbsolute_run habsolute)] at h
    obtain ⟨w₁, hw₁, -, ⟨-, hlist⟩ | ⟨p, fo, hleads, -, hlist⟩⟩ :=
      listFiles_shown hshows (hfiles s habsolute hshort) hw₀ habsolute
    · rw [Comp.bind_run_error hlist] at h
      cases h
      exact ⟨hw₁, trivial⟩
    rw [bind_run_ok hlist] at h
    by_cases hfound : filename ∈ w₁.fs.fileNames fo.files
    · rw [if_pos hfound] at h
      cases h
      exact ⟨hw₁, trivial⟩
    · rw [if_neg hfound] at h
      obtain ⟨w₂, fo₂, hfolders, -, -, hw₂, -⟩ := listFolders_shown hshows hw₁ hleads
      rw [bind_run_ok hfolders] at h
      have hloop : Comp.Keeps (fun w : World σ => w.Reflects cam) (fun _ _ => True)
          ((w₂.fs.folderNames fo₂.folders).forM (scanSubfolder
            (fun path => gpFilesystemScan funcs n path filename context) s)) := by
        refine .forM fun name _ => ?_
        -- Each round calls the scan with what the array holds.
        obtain ⟨path, hpath, hshort', habsolute'⟩ := scanPath_cases name hshort habsolute
        rw [scanSubfolder, hpath]
        exact ih habsolute' hshort'
      exact hloop w₂ r w' hw₂ h

end

/-- A camera with one file. -/
def FolderTree.withFile (t : FolderTree) (path : List CString) (filename : CString) :
    CameraTree where
  toFolderTree := t
  files pathq := if pathq = path then [filename] else []
  files_nodup pathq := by
    by_cases h : pathq = path
    · rw [if_pos h]
      exact List.nodup_singleton _
    · rw [if_neg h]
      exact List.nodup_nil

/-- A camera without files. -/
def FolderTree.withoutFiles (t : FolderTree) : CameraTree where
  toFolderTree := t
  files _ := []
  files_nodup _ := List.nodup_nil

/-- A driver for a camera. -/
def CameraTree.funcs (cam : CameraTree) : CameraFilesystemFuncs Unit :=
  { CameraFilesystemFuncs.none with
    fileListFunc := some fun path env => (.ok (cam.files (splitSlashes path)), env)
    folderListFunc := some fun path env => (.ok (cam.folders (splitSlashes path)), env) }

theorem CameraTree.funcs_shows (cam : CameraTree) : Shows cam.funcs .null cam where
  folders := ⟨_, rfl, fun _ _ _ => rfl⟩
  files _ := ⟨_, rfl, fun _ _ => rfl⟩
  uncancelled := Or.inl rfl

theorem new_reflects (env : σ) (cam : CameraTree) : (World.new env).Reflects cam := by
  have htree := (World.new_isNew env).tree
  have hroot : ∀ {p path}, (World.new env).tree.At p path → p = rootfolder ∧ path = [] := by
    intro p path h
    cases h with
    | root => exact ⟨rfl, rfl⟩
    | child _ hc _ =>
      rw [htree] at hc
      cases hc
  have hfo : ∀ {p path fo}, (World.new env).tree.At p path →
      (World.new env).fs.folders p = some fo → fo = .new ['/'] := by
    intro p path fo h hp
    obtain ⟨rfl, -⟩ := hroot h
    exact (Option.some.inj hp).symm
  refine ⟨World.new_sound env, ?_, ?_, ?_, ?_, ?_⟩
  · rw [htree]
    exact NameTree.new_distinct _
  · intro p path h
    obtain ⟨-, rfl⟩ := hroot h
    exact .root
  · intro p path fo h hp hclean
    rw [hfo h hp] at hclean
    cases hclean
  · intro p path a name _ ha _
    rw [htree] at ha
    cases ha
  · intro p path fo h hp hclean
    rw [hfo h hp] at hclean
    cases hclean

/-- A file in a folder whose path does not fit the array is not found: the driver is never asked
for its files. -/
theorem not_getsFolder (t : FolderTree) {path : List CString} (hhas : t.Has path)
    (hlong : scanPathSize ≤ (pathString path).length) (filename : CString) :
    ¬ (t.withFile path filename).GetsFolder filename := by
  intro hgets
  obtain ⟨n, r, w', hrun, hiff, hfound⟩ := hgets Unit _ .null (World.new ())
    (CameraTree.funcs_shows _) (new_reflects () _)
  have hmem : filename ∈ (t.withFile path filename).files path := by
    show filename ∈ if path = path then [filename] else []
    rw [if_pos rfl]
    exact List.mem_singleton_self _
  obtain ⟨folder, rfl⟩ := hiff.mpr ⟨path, hhas, hmem⟩
  obtain ⟨-, p, hlookup, hfile⟩ := hfound folder rfl
  -- For the paths in the array, the camera seems to have no files.
  have hshows : ∀ s : CString, isAbsolute s = true → s.length < scanPathSize →
      ShowsFiles (t.withFile path filename).funcs t.withoutFiles s := by
    intro s habsolute hshort
    refine ⟨_, rfl, fun _ _ => ?_⟩
    show Except.ok (if splitSlashes s = path then [filename] else []) = Except.ok []
    rw [if_neg]
    rintro rfl
    have hle := length_pathString_le habsolute
    omega
  have hw' : w'.Reflects t.withoutFiles := by
    have hfolders : ShowsFolders (t.withFile path filename).funcs .null t :=
      (CameraTree.funcs_shows _).toShowsFolders
    have hend := hrun n (Nat.le_refl n)
    obtain ⟨w₀, hcancel, hw₀, -⟩ := checkCancel_shown hfolders.uncancelled
      (new_reflects () t.withoutFiles)
    unfold gpFilesystemGetFolder at hend
    rw [bind_run_ok hcancel] at hend
    obtain ⟨_, w₁, hscan, hend⟩ := Comp.bind_eq_ok.mp hend
    rw [get_bind_run] at hend
    obtain ⟨ret, w₂, hret, hend⟩ := Comp.bind_eq_ok.mp hend
    obtain ⟨_, hsearch, -⟩ := attempt_eq_some.mp hret
    obtain rfl := recursiveFolderScan_frame _ _ _ _ _ hsearch
    have hsame : w' = w₂ := by
      cases ret with
      | ok x =>
        cases hend
        rfl
      | error e => cases hend
    rw [hsame]
    have hkeeps := @scan_keeps Unit t.withoutFiles _ .null filename hfolders hshows n ['/'] rfl
      (by decide)
    exact (hkeeps w₀ _ w₂ hw₀ hscan).1
  -- But the folder that was found has a file.
  have hwalk := (lookupFolder_run _ _ _ _ _ _ hw'.sound.wf hlookup).2
  obtain ⟨a, ha⟩ := ne_none_iff_exists'.mp hfile
  obtain ⟨ha, hname⟩ := fileIn_eq_some ha
  have hnone : filename ∈ [] :=
    hw'.mirrors.file (at_of_walk (Except.ok.inj hwalk).symm) ha hname
  cases hnone

/-- With paths of at most 127 characters, every file is found: it is enough that the paths are as
short in the folders that the scan comes to. A longer path is enough for a file that is not. -/
theorem getsFolder_iff (t : FolderTree) :
    (∀ cam : CameraTree, cam.toFolderTree = t → ∀ filename, cam.ScanFits filename →
      cam.GetsFolder filename) ∧
    ((∀ cam : CameraTree, cam.toFolderTree = t → ∀ filename, cam.GetsFolder filename) ↔
      ∀ path, t.Has path → (pathString path).length < scanPathSize) := by
  refine ⟨fun cam _ filename => getsFolder_of_fits, fun h path hhas => ?_, fun h => ?_⟩
  · by_contra hlong
    exact not_getsFolder t hhas (Nat.le_of_not_lt hlong) [] (h (t.withFile path []) rfl [])
  · rintro cam rfl filename
    exact getsFolder_of_fits fun path hcomes => h path hcomes.1

/-- A folder with a long name at the top. -/
def longFolder : FolderTree where
  folders path := if path = [] then [List.replicate 130 'a'] else []
  folders_nodup path := by
    by_cases h : path = []
    · rw [if_pos h]
      exact List.nodup_singleton _
    · rw [if_neg h]
      exact List.nodup_nil
  folder_name path name hname := by
    by_cases h : path = []
    · rw [if_pos h] at hname
      rw [List.mem_singleton.mp hname]
      exact ⟨by simp, fun c hc => by rw [List.eq_of_mem_replicate hc]; decide⟩
    · rw [if_neg h] at hname
      cases hname
  finite := by
    refine ⟨1, fun path h => ?_⟩
    cases h with
    | root => exact Nat.zero_le _
    | @sub path name _ hname =>
      by_cases h : path = []
      · rw [h]
        exact Nat.le_refl _
      · rw [if_neg h] at hname
        cases hname

/-- The file in it is not found. -/
theorem long_folder_not_found :
    ¬ ∀ (cam : CameraTree) (filename : CString), cam.GetsFolder filename := by
  intro h
  have hhas : longFolder.Has [List.replicate 130 'a'] :=
    @FolderPath.sub _ [] _ .root (by simp [longFolder])
  refine not_getsFolder longFolder hhas ?_ ['x'] (h _ ['x'])
  rw [pathString_of_ne_nil (by simp), pathTail_cons, List.length_cons, List.length_append,
    List.length_replicate]
  decide

end GPhoto2
