import GPhoto2.Proofs.Filesys.LookupEnds
import GPhoto2.Proofs.Filesys.Views

/-!
# `GPhoto2.Proofs.Filesys.Mirror`: a filesystem that caches a camera

`World.Mirrors` compares the cached tree with the folders and files of a camera: what is cached is
there, and where a listing is marked clean, all of it is cached. With a driver that shows the
camera (`Shows`), every listing passes, so every lookup ends.

The theorems:

* `withFolder_shown`: the functions that look a folder up find it if the camera has it.
* `listFiles_shown`, `listFolders_shown`: the listings return what is on the camera.

All three keep what is cached along clean paths (`Grown`).
-/

set_option autoImplicit false

namespace GPhoto2

open Lib

variable {σ : Type}

/-- The driver lists the folders of the camera, and the frontend does not cancel. -/
structure ShowsFolders (funcs : CameraFilesystemFuncs σ) (context : GPContext) (t : FolderTree) :
    Prop where
  folders : ∃ g, funcs.folderListFunc = some g ∧ ∀ path env, t.Has (splitSlashes path) →
    (g path env).1 = .ok (t.folders (splitSlashes path))
  uncancelled : Uncancelled funcs context

/-- Asked for this path, the driver lists the files that are on the camera. -/
def ShowsFiles (funcs : CameraFilesystemFuncs σ) (cam : CameraTree) (path : CString) : Prop :=
  ∃ g, funcs.fileListFunc = some g ∧ ∀ env, cam.Has (splitSlashes path) →
    (g path env).1 = .ok (cam.files (splitSlashes path))

/-- The driver lists what is on the camera, and the frontend does not cancel. -/
structure Shows (funcs : CameraFilesystemFuncs σ) (context : GPContext) (cam : CameraTree) : Prop
    extends ShowsFolders funcs context cam.toFolderTree where
  files : ∀ path, ShowsFiles funcs cam path

/-- What is cached is on the camera, and what is marked clean is cached. -/
structure World.Mirrors (w : World σ) (cam : CameraTree) : Prop where
  distinct : w.tree.Distinct
  folder : ∀ {p path}, w.tree.At p path → cam.Has path
  subfolders : ∀ {p path fo}, w.tree.At p path → w.fs.folders p = some fo →
    fo.foldersDirty = false → ∀ name ∈ cam.folders path, ∃ c ∈ fo.folders,
      w.tree.folderName c = some name
  file : ∀ {p path a name}, w.tree.At p path → a ∈ w.tree.files p →
    w.tree.fileName a = some name → name ∈ cam.files path
  files : ∀ {p path fo}, w.tree.At p path → w.fs.folders p = some fo → fo.filesDirty = false →
    ∀ name ∈ cam.files path, ∃ a ∈ fo.files, w.tree.fileName a = some name

/-- Folders on clean paths stay, and so do their clean listings. -/
structure Grown (w w' : World σ) : Prop where
  stable : w.tree.Stable w'.tree
  folder : ∀ {path p fo}, w.tree.walk rootfolder path = some p → w.AllClean rootfolder path →
    w.fs.folders p = some fo → ∃ fo', w'.fs.folders p = some fo' ∧
      (fo.foldersDirty = false → fo'.foldersDirty = false ∧ fo'.folders = fo.folders) ∧
      (fo.filesDirty = false → fo'.filesDirty = false ∧ fo'.files = fo.files)

section
variable {w w' w'' : World σ} {cam : CameraTree} {p q : FolderAddr} {path pre rest : List CString}
  {fo : CameraFilesystemFolder}

/-! ### Growth -/

theorem AllClean.left (h : w.AllClean p (pre ++ rest)) : w.AllClean p pre := by
  intro pre' q hpass
  refine h pre' q ⟨hpass.isPrefix.trans (List.prefix_append pre rest), fun he => ?_, hpass.leads⟩
  have hlen := hpass.isPrefix.length_le
  rw [he, List.length_append] at hlen
  have hrest : rest = [] := List.length_eq_zero_iff.mp (by omega)
  rw [hrest, List.append_nil] at he
  exact hpass.proper he

theorem Grown.refl (w : World σ) : Grown w w where
  stable := .refl _
  folder _ _ hp := ⟨_, hp, fun h => ⟨h, rfl⟩, fun h => ⟨h, rfl⟩⟩

theorem Grown.of_same (hfs : w'.fs = w.fs) (hbrk : w'.brk = w.brk) : Grown w w' where
  stable := by
    rw [tree_of_fs hfs hbrk]
    exact .refl _
  folder _ _ hp := ⟨_, by rw [hfs, hp], fun h => ⟨h, rfl⟩, fun h => ⟨h, rfl⟩⟩

theorem Grown.walk (h : Grown w w') (hwf : w.tree.Wf) (hwf' : w'.tree.Wf)
    (hwalk : w.tree.walk rootfolder path = some p) (hclean : w.AllClean rootfolder path) :
    w'.tree.walk rootfolder path = some p ∧ w'.AllClean rootfolder path := by
  -- The folders on the way, and the last one.
  have hkept : ∀ {pre q}, w.tree.walk rootfolder pre = some q → w.AllClean rootfolder pre →
      w'.tree.walk rootfolder pre = some q := by
    intro pre q hq hpre
    obtain ⟨ro, hro⟩ := walk_root_alive hwf hq
    obtain ⟨ro', hro', -⟩ := h.folder hq hpre hro
    exact (h.stable.walk hwf' hq (folderName_ne_none.mpr ⟨ro', hro'⟩)).1
  refine ⟨hkept hwalk hclean, fun pre q hpass hdirty => ?_⟩
  obtain ⟨rest, rfl⟩ := hpass.isPrefix
  rw [NameTree.walk_append] at hwalk
  obtain ⟨q₀, hq₀, -⟩ := Option.bind_eq_some_iff.mp hwalk
  have hq := hkept hq₀ (AllClean.left hclean)
  rw [hpass.leads, Option.some.injEq] at hq
  subst hq
  obtain ⟨ro, hro⟩ := walk_root_alive hwf hq₀
  have hnot := hclean pre q ⟨hpass.isPrefix, hpass.proper, hq₀⟩
  have hro_clean : ro.foldersDirty = false := by
    cases hd : ro.foldersDirty with
    | false => rfl
    | true => exact absurd ⟨ro, hro, hd⟩ hnot
  obtain ⟨ro', hro', hstill, -⟩ := h.folder hq₀ (AllClean.left hclean) hro
  exact not_dirtyAt hro' (by rw [(hstill hro_clean).1]; simp) hdirty

theorem Grown.trans (hwf : w.tree.Wf) (hwf' : w'.tree.Wf) (h : Grown w w')
    (h' : Grown w' w'') : Grown w w'' where
  stable := h.stable.trans hwf h'.stable
  folder := by
    intro path p fo hwalk hclean hp
    obtain ⟨fo', hp', hfolders, hfiles⟩ := h.folder hwalk hclean hp
    obtain ⟨hwalk', hclean'⟩ := h.walk hwf hwf' hwalk hclean
    obtain ⟨fo'', hp'', hfolders', hfiles'⟩ := h'.folder hwalk' hclean' hp'
    refine ⟨fo'', hp'', fun hd => ?_, fun hd => ?_⟩
    · obtain ⟨hd', hsame⟩ := hfolders hd
      rw [← hsame]
      exact hfolders' hd'
    · obtain ⟨hd', hsame⟩ := hfiles hd
      rw [← hsame]
      exact hfiles' hd'

theorem setFolder_self (hp : w.fs.folders p = some fo) : (w.setFolder p (some fo)).fs = w.fs := by
  have hsame : Function.update w.fs.folders p (some fo) = w.fs.folders := by
    rw [← hp, Function.update_eq_self]
  show { w.fs with folders := Function.update w.fs.folders p (some fo) } = w.fs
  rw [hsame]

theorem Mirrors.of_same (h : w.Mirrors cam) (hfs : w'.fs = w.fs) (hbrk : w'.brk = w.brk) :
    w'.Mirrors cam := by
  have htree := tree_of_fs hfs hbrk
  constructor
  · rw [htree]
    exact h.distinct
  · rw [htree]
    exact h.folder
  · rw [htree, hfs]
    exact h.subfolders
  · rw [htree]
    exact h.file
  · rw [htree, hfs]
    exact h.files

/-! ### A new listing of the subfolders -/

section
variable {answer : List CString} {chain : List FolderAddr} {pathq : List CString}

variable (hrel : Relisted p answer chain w w')
include hrel

/-- After a new listing a folder is an old one, with the files it had, or one of the new ones. -/
theorem Relisted.at_cases (hwf : w.tree.Wf)
    (heffect : LookupEffect w w') (hat : w.tree.At p path) (hp : w.fs.folders p = some fo)
    (hp' : w'.fs.folders p = some { fo with folders := chain, foldersDirty := false })
    (hq : w'.tree.At q pathq) :
    (w.tree.At q pathq ∧ ∃ ro ro', w.fs.folders q = some ro ∧ w'.fs.folders q = some ro' ∧
      ro'.files = ro.files ∧ ro'.filesDirty = ro.filesDirty ∧ (q ≠ p → ro' = ro)) ∨
    ∃ name ∈ answer, pathq = path ++ [name] ∧ w'.fs.folders q = some (.new name) := by
  have hwf' := heffect.wf hwf
  -- An old folder that is still there.
  have hold : ∀ {q pathq}, w.tree.At q pathq → w.tree.folderName q ≠ none →
      w'.tree.folderName q ≠ none →
      w.tree.At q pathq ∧ ∃ ro ro', w.fs.folders q = some ro ∧ w'.fs.folders q = some ro' ∧
        ro'.files = ro.files ∧ ro'.filesDirty = ro.filesDirty ∧ (q ≠ p → ro' = ro) := by
    intro q pathq hatq halive halive'
    obtain ⟨ro', hro'⟩ := folderName_ne_none.mp halive'
    by_cases hqp : q = p
    · subst hqp
      exact ⟨hatq, fo, _, hp, hp', rfl, rfl, fun hne => absurd rfl hne⟩
    · have hsame := (hrel.old q hqp (hwf.folder_lt halive)).resolve_right (by rw [hro']; simp)
      exact ⟨hatq, ro', ro', hsame ▸ hro', hro', rfl, rfl, fun _ => rfl⟩
  induction hq with
  | root => exact Or.inl (hold .root (by rw [hwf.root]; simp) (by rw [hwf'.root]; simp))
  | @child r c pathr name _ hc hn ih =>
    rcases ih with ⟨hatr, ro, ro', hro, hro', -, -, hsame⟩ | ⟨n, -, -, hr⟩
    · by_cases hrp : r = p
      · -- A subfolder of the folder that was listed.
        subst hrp
        obtain rfl := hwf.path_unique hatr hat
        obtain ⟨t, -, -, hnil, -, htree⟩ := hrel.tree
        have hmem : c ∈ chain := by rwa [tree_folders hp'] at hc
        rw [htree] at hc hn
        rcases NameTree.mem_consFolders_name answer hc with hc' | ⟨n, hn', hname⟩
        · rw [hnil] at hc'
          cases hc'
        · rw [hn, Option.some.injEq] at hname
          subst hname
          rw [← htree] at hn
          obtain ⟨co, hco⟩ := folderName_ne_none.mp (by rw [hn]; simp)
          obtain ⟨n, rfl⟩ := hrel.fresh c co (hrel.empty c hmem).1 hco
          have hname := tree_folderName hco
          rw [hn, Option.some.injEq] at hname
          exact Or.inr ⟨name, hn', rfl, by rw [hco, hname]; rfl⟩
      · obtain rfl := hsame hrp
        have hmem : c ∈ w.tree.folders r := by
          rwa [tree_folders hro, ← tree_folders hro']
        have halive := hwf.child_alive hmem
        have hname := (heffect.stable hwf).folderName (hwf.folder_lt halive) (by rw [hn]; simp)
        exact Or.inl (hold (hatr.child hmem (hname ▸ hn)) halive (by rw [hn]; simp))
    · -- A new folder has no subfolders.
      rw [tree_folders hr] at hc
      cases hc

theorem Relisted.mirrors (hm : w.Mirrors cam)
    (hwf : w.tree.Wf) (heffect : LookupEffect w w') (hat : w.tree.At p path)
    (hp : w.fs.folders p = some fo)
    (hp' : w'.fs.folders p = some { fo with folders := chain, foldersDirty := false })
    (hanswer : answer = cam.folders path) : w'.Mirrors cam := by
  have hwf' := heffect.wf hwf
  have hstable := heffect.stable hwf
  have hcases : ∀ {q pathq}, w'.tree.At q pathq → _ := fun hq =>
    Relisted.at_cases hrel hwf heffect hat hp hp' hq
  have hfile : ∀ {q a}, a ∈ w.tree.files q → a ∈ w'.tree.files q →
      w'.tree.fileName a = w.tree.fileName a := fun ha ha' =>
    hstable.fileName (hwf.file_lt (hwf.file_alive ha)) (hwf'.file_alive ha')
  obtain ⟨t, htwf, htp, hnil, hsub, htree⟩ := hrel.tree
  constructor
  · have ht : t.Distinct := by
      intro q a b ha hb hn
      obtain ⟨ha, hna⟩ := hsub q a ha
      obtain ⟨hb, hnb⟩ := hsub q b hb
      exact hm.distinct q a b ha hb (by rw [← hna, ← hnb, hn])
    rw [htree]
    refine ht.consFolders htwf htp (hanswer ▸ cam.folders_nodup path) fun name _ => ?_
    exact NameTree.child_eq_none.mpr fun c hc => by rw [hnil] at hc; cases hc
  · intro q pathq hq
    obtain ⟨hatq, -⟩ | ⟨name, hname, rfl, -⟩ := hcases hq
    · exact hm.folder hatq
    · exact (hm.folder hat).sub (hanswer ▸ hname)
  · intro q pathq fo' hq hfo' hclean name hname
    obtain ⟨hatq, ro, ro', hro, hro', -, -, hsame⟩ | ⟨n, -, -, hnew⟩ := hcases hq
    · by_cases hqp : q = p
      · subst hqp
        obtain rfl := hwf.path_unique hatq hat
        rw [hp', Option.some.injEq] at hfo'
        subst hfo'
        obtain ⟨c, hc, hcn⟩ := NameTree.exists_consFolders_name (t := t) answer q name
          (hanswer ▸ hname)
        rw [← htree] at hc hcn
        rw [tree_folders hp'] at hc
        exact ⟨c, hc, hcn⟩
      · obtain rfl := hsame hqp
        rw [hro', Option.some.injEq] at hfo'
        subst hfo'
        obtain ⟨c, hc, hcn⟩ := hm.subfolders hatq hro hclean name hname
        have hmem : c ∈ w.tree.folders q := by rwa [tree_folders hro]
        have hmem' : c ∈ w'.tree.folders q := by rwa [tree_folders hro']
        refine ⟨c, hc, ?_⟩
        rw [hstable.folderName (hwf.folder_lt (hwf.child_alive hmem)) (hwf'.child_alive hmem'),
          hcn]
    · rw [hnew, Option.some.injEq] at hfo'
      subst hfo'
      cases hclean
  · intro q pathq a name hq ha hn
    obtain ⟨hatq, ro, ro', hro, hro', hfiles, -, -⟩ | ⟨n, -, -, hnew⟩ := hcases hq
    · have ha₀ : a ∈ w.tree.files q := by
        rwa [tree_files hro, ← hfiles, ← tree_files hro']
      exact hm.file hatq ha₀ (hfile ha₀ ha ▸ hn)
    · rw [tree_files hnew] at ha
      cases ha
  · intro q pathq fo' hq hfo' hclean name hname
    obtain ⟨hatq, ro, ro', hro, hro', hfiles, hdirty, -⟩ | ⟨n, -, -, hnew⟩ := hcases hq
    · rw [hro', Option.some.injEq] at hfo'
      subst hfo'
      obtain ⟨a, ha, han⟩ := hm.files hatq hro (hdirty ▸ hclean) name hname
      rw [← hfiles] at ha
      refine ⟨a, ha, ?_⟩
      rw [hfile (by rwa [tree_files hro, ← hfiles]) (by rwa [tree_files hro']), han]
    · rw [hnew, Option.some.injEq] at hfo'
      subst hfo'
      cases hclean

theorem Relisted.grown (hwf : w.tree.Wf)
    (heffect : LookupEffect w w') (hp : w.fs.folders p = some fo)
    (hp' : w'.fs.folders p = some { fo with folders := chain, foldersDirty := false })
    (hdirty : fo.foldersDirty = true) : Grown w w' := by
  have hwf' := heffect.wf hwf
  -- A folder on a clean path is still there, since the one above it is clean.
  have halive : ∀ pathq q, w.tree.walk rootfolder pathq = some q →
      w.AllClean rootfolder pathq → w'.tree.folderName q ≠ none := by
    intro pathq
    induction pathq using List.reverseRecOn with
    | nil =>
      intro q hq _
      obtain rfl := Option.some.inj hq
      rw [hwf'.root]
      simp
    | append_singleton pathq name ih =>
      intro q hq hclean
      rw [NameTree.walk_concat] at hq
      obtain ⟨r, hr, hchild⟩ := Option.bind_eq_some_iff.mp hq
      have hmem := (NameTree.child_eq_some hchild).1
      obtain ⟨ro', hro'⟩ := folderName_ne_none.mp (ih r hr (AllClean.left hclean))
      have hrp : r ≠ p := by
        rintro rfl
        exact hclean pathq r ⟨List.prefix_append _ _, by simp, hr⟩ ⟨fo, hp, hdirty⟩
      have hsame := (hrel.old r hrp (hwf.folder_lt (hwf.parent_alive hmem))).resolve_right
        (by rw [hro']; simp)
      refine hwf'.child_alive (p := r) ?_
      rwa [tree_folders hro', ← tree_folders (hsame ▸ hro')]
  refine ⟨heffect.stable hwf, fun {pathq q qo} hwalk hclean hq => ?_⟩
  by_cases hqp : q = p
  · subst hqp
    rw [hp, Option.some.injEq] at hq
    subst hq
    refine ⟨_, hp', fun hclean => ?_, fun hclean => ⟨hclean, rfl⟩⟩
    rw [hdirty] at hclean
    cases hclean
  · obtain ⟨qo', hqo'⟩ := folderName_ne_none.mp (halive pathq q hwalk hclean)
    have hsame := (hrel.old q hqp (hwf.folder_lt (folderName_ne_none.mpr ⟨qo, hq⟩))).resolve_right
      (by rw [hqo']; simp)
    exact ⟨qo, hsame.trans hq, fun h => ⟨h, rfl⟩, fun h => ⟨h, rfl⟩⟩

end

/-! ### A new listing of the files -/

section
variable {files : List FileAddr}

theorem mirrors_of_files (hm : w.Mirrors cam) (hwf : w.tree.Wf) (hsteps : TreeSteps w w')
    (hat : w.tree.At p path) (hp : w.fs.folders p = some fo)
    (hp' : w'.fs.folders p = some { fo with filesDirty := false, files := files })
    (hother : ∀ q, q ≠ p → w'.fs.folders q = w.fs.folders q)
    (hnames : w'.fs.fileNames files = cam.files path) : w'.Mirrors cam := by
  obtain ⟨hwf', hstable⟩ := TreeSteps.stable hsteps hwf
  have hfolders : ∀ q, w'.tree.folders q = w.tree.folders q := by
    intro q
    by_cases hqp : q = p
    · rw [hqp, tree_folders hp', tree_folders hp]
    · show (w'.fs.folders q).elim [] _ = (w.fs.folders q).elim [] _
      rw [hother q hqp]
  have hname : ∀ {q c}, c ∈ w'.tree.folders q → w'.tree.folderName c = w.tree.folderName c := by
    intro q c hc
    have halive := hwf'.child_alive hc
    rw [hfolders q] at hc
    exact hstable.folderName (hwf.folder_lt (hwf.child_alive hc)) halive
  have hold : ∀ {q pathq}, w'.tree.At q pathq → w.tree.At q pathq := fun hq =>
    hq.mono fun hc hn => ⟨hfolders _ ▸ hc, by rw [← hname hc, hn]⟩
  constructor
  · intro q a b ha hb hn
    rw [hname ha, hname hb] at hn
    rw [hfolders q] at ha hb
    exact hm.distinct q a b ha hb hn
  · exact fun hq => hm.folder (hold hq)
  · intro q pathq fo' hq hfo' hclean name hmem
    obtain ⟨ro, hro, hfoldersDirty, hsame⟩ : ∃ ro, w.fs.folders q = some ro ∧
        ro.foldersDirty = fo'.foldersDirty ∧ ro.folders = fo'.folders := by
      by_cases hqp : q = p
      · subst hqp
        rw [hp', Option.some.injEq] at hfo'
        subst hfo'
        exact ⟨fo, hp, rfl, rfl⟩
      · exact ⟨fo', hother q hqp ▸ hfo', rfl, rfl⟩
    obtain ⟨c, hc, hcn⟩ := hm.subfolders (hold hq) hro (hfoldersDirty.trans hclean) name hmem
    rw [hsame] at hc
    exact ⟨c, hc, by rw [hname (by rwa [tree_folders hfo']), hcn]⟩
  · intro q pathq a name hq ha hn
    by_cases hqp : q = p
    · subst hqp
      obtain rfl := hwf.path_unique (hold hq) hat
      rw [tree_files hp'] at ha
      rw [← hnames]
      exact List.mem_filterMap.mpr ⟨a, ha, hn⟩
    · have ha₀ : a ∈ w.tree.files q := by
        show a ∈ (w.fs.folders q).elim [] _
        rw [← hother q hqp]
        exact ha
      rw [hstable.fileName (hwf.file_lt (hwf.file_alive ha₀)) (hwf'.file_alive ha)] at hn
      exact hm.file (hold hq) ha₀ hn
  · intro q pathq fo' hq hfo' hclean name hmem
    by_cases hqp : q = p
    · subst hqp
      obtain rfl := hwf.path_unique (hold hq) hat
      rw [hp', Option.some.injEq] at hfo'
      subst hfo'
      rw [← hnames] at hmem
      obtain ⟨a, ha, hn⟩ := List.mem_filterMap.mp hmem
      exact ⟨a, ha, hn⟩
    · have hro := hother q hqp ▸ hfo'
      obtain ⟨a, ha, hn⟩ := hm.files (hold hq) hro hclean name hmem
      refine ⟨a, ha, ?_⟩
      rw [hstable.fileName (hwf.file_lt (hwf.file_alive (by rwa [tree_files hro])))
        (hwf'.file_alive (by rwa [tree_files hfo'])), hn]

theorem grown_of_files (hwf : w.tree.Wf) (hsteps : TreeSteps w w')
    (hp : w.fs.folders p = some fo) (hdirty : fo.filesDirty = true)
    (hp' : w'.fs.folders p = some { fo with filesDirty := false, files := files })
    (hother : ∀ q, q ≠ p → w'.fs.folders q = w.fs.folders q) : Grown w w' where
  stable := (TreeSteps.stable hsteps hwf).2
  folder := by
    intro path q qo _ _ hq
    by_cases hqp : q = p
    · subst hqp
      rw [hp, Option.some.injEq] at hq
      subst hq
      refine ⟨_, hp', fun h => ⟨h, rfl⟩, fun h => ?_⟩
      rw [hdirty] at h
      cases h
    · exact ⟨qo, (hother q hqp).trans hq, fun h => ⟨h, rfl⟩, fun h => ⟨h, rfl⟩⟩

end

/-! ### Where the camera is shown -/

section
variable {funcs : CameraFilesystemFuncs σ} {context : GPContext} {s : CString}

theorem LeadsTo.at (h : w.LeadsTo s p fo) : w.tree.At p (splitSlashes s) := by
  rw [← components_eq]
  exact NameTree.at_of_walk h.walk

theorem ShowsFolders.relisted (hshows : ShowsFolders funcs context cam.toFolderTree)
    (hm : w.Mirrors cam)
    (hleads : w.LeadsTo s p fo) (hdirty : fo.foldersDirty = true)
    (hlisted : Listed funcs s context p fo w w') : ∃ chain,
      w'.fs.folders p = some { fo with folders := chain, foldersDirty := false } ∧
      Relisted p (cam.folders (splitSlashes s)) chain w w' := by
  obtain ⟨g, hg, hshown⟩ := hshows.folders
  have hhas := hm.folder (LeadsTo.at hleads)
  cases hlisted with
  | refused hfs hbrk hwhy =>
    obtain ⟨g', e, env, hg', he, -⟩ := hwhy hshows.uncancelled
    rw [hg, Option.some.injEq] at hg'
    subst hg'
    have hok := hshown s env hhas
    rw [he] at hok
    cases hok
  | clean hfs hbrk hwhy =>
    rcases hwhy with hclean | hnone
    · rw [hdirty] at hclean
      cases hclean
    · rw [hg] at hnone
      cases hnone
  | relisted g' env answer chain _ hg' hanswer _ hp' hrel =>
    rw [hg, Option.some.injEq] at hg'
    subst hg'
    rw [hshown s env hhas, Except.ok.injEq] at hanswer
    subst hanswer
    exact ⟨chain, hp', hrel⟩

theorem ShowsFolders.listed (hshows : ShowsFolders funcs context cam.toFolderTree)
    (hm : w.Mirrors cam) (hwf : w.tree.Wf)
    (hleads : w.LeadsTo s p fo) (heffect : LookupEffect w w')
    (hlisted : Listed funcs s context p fo w w') : w'.Mirrors cam ∧ Grown w w' := by
  cases hdirty : fo.foldersDirty with
  | true =>
    obtain ⟨chain, hp', hrel⟩ := hshows.relisted hm hleads hdirty hlisted
    exact ⟨Relisted.mirrors hrel hm hwf heffect (LeadsTo.at hleads) hleads.folder hp' rfl,
      Relisted.grown hrel hwf heffect hleads.folder hp' hdirty⟩
  | false =>
    -- It was clean, and is left alone.
    have hsame : w'.fs = w.fs ∧ w'.brk = w.brk := by
      cases hlisted with
      | refused hfs hbrk hwhy => exact ⟨hfs, hbrk⟩
      | clean hfs hbrk hwhy =>
        refine ⟨hfs.trans ?_, hbrk⟩
        have hfo : ({ fo with foldersDirty := false } : CameraFilesystemFolder) = fo := by
          rw [← hdirty]
        rw [hfo]
        exact setFolder_self hleads.folder
      | relisted _ _ _ _ hdirty' =>
        rw [hdirty] at hdirty'
        cases hdirty'
    exact ⟨Mirrors.of_same hm hsame.1 hsame.2, Grown.of_same hsame.1 hsame.2⟩

/-- A sound filesystem that caches the camera. -/
structure World.Reflects (w : World σ) (cam : CameraTree) : Prop where
  sound : w.Sound
  mirrors : w.Mirrors cam

theorem Reflects.walk (h : w.Reflects cam) (hhas : cam.Has path)
    (hclean : w.AllClean rootfolder path) : ∃ p, w.tree.walk rootfolder path = some p := by
  induction hhas with
  | root => exact ⟨rootfolder, rfl⟩
  | @sub path name _ hname ih =>
    obtain ⟨p, hp⟩ := ih (AllClean.left hclean)
    obtain ⟨fo, hfo⟩ := walk_root_alive h.sound.wf hp
    have hfo_clean : fo.foldersDirty = false := by
      cases hd : fo.foldersDirty with
      | false => rfl
      | true =>
        exact absurd ⟨fo, hfo, hd⟩ (hclean path p ⟨List.prefix_append _ _, by simp, hp⟩)
    obtain ⟨c, hc, hcn⟩ := h.mirrors.subfolders (NameTree.at_of_walk hp) hfo hfo_clean name hname
    rw [← tree_folders hfo] at hc
    refine ⟨c, ?_⟩
    rw [NameTree.walk_concat, hp, Option.bind_some, h.mirrors.distinct.child_of_mem hc hcn]

theorem checkCancel_shown (hun : Uncancelled funcs context) (h : w.Reflects cam) :
    ∃ w₀, checkCancel funcs context w = some (.ok (), w₀) ∧ w₀.Reflects cam ∧ Grown w w₀ := by
  obtain ⟨env, ⟨hcancel, -⟩ | ⟨-, hnot⟩⟩ := checkCancel_ends funcs context w
  · exact ⟨_, hcancel, ⟨⟨h.sound.wf, h.sound.chain⟩, Mirrors.of_same h.mirrors rfl rfl⟩,
      .of_same rfl rfl⟩
  · exact absurd hun hnot

/-- A function that looks a folder up comes to the folder, and all is cached on the way. -/
theorem withFolder_shown {α : Type} (hshows : ShowsFolders funcs context cam.toFolderTree)
    (h : w.Reflects cam) (habsolute : isAbsolute s = true) (k : FolderAddr → Fs σ α) :
    ∃ w₁, w₁.Reflects cam ∧ Grown w w₁ ∧ w₁.AllClean rootfolder (splitSlashes s) ∧
      ((w₁.tree.walk rootfolder (splitSlashes s) = none ∧
          withFolder funcs s context k w = some (.error gpErrorDirectoryNotFound, w₁)) ∨
        ∃ p fo, w₁.LeadsTo s p fo ∧ withFolder funcs s context k w = k p w₁) := by
  obtain ⟨w₀, hcancel, hw₀, hgrown₀⟩ := checkCancel_shown hshows.uncancelled h
  have hkept : KeptByListing funcs context fun w' => w'.Reflects cam ∧ Grown w₀ w' :=
    fun copy p fo w₁ w₂ hinv hw₁ hleads heffect hlisted => by
      obtain ⟨hm₂, hgrown⟩ := hshows.listed hinv.1.mirrors hw₁.wf hleads heffect hlisted
      exact ⟨⟨heffect.sound hw₁, hm₂⟩, hinv.2.trans hw₀.sound.wf hw₁.wf hgrown⟩
  have hrelists : Relists funcs context fun w' => w'.Reflects cam ∧ Grown w₀ w' :=
    fun copy p fo w₁ w₂ hinv hw₁ hleads hdirty hlisted => by
      obtain ⟨chain, hp', hrel⟩ := hshows.relisted hinv.1.mirrors hleads hdirty hlisted
      exact ⟨_, chain, hp', hrel⟩
  obtain ⟨w₁, hlookup, -, hclean, hw₁, hgrown⟩ := lookupFolder_ends funcs hkept
    ⟨hw₀, .refl _⟩ hw₀.sound habsolute (Or.inr hrelists)
  replace hclean := hclean (Or.inr hrelists)
  refine ⟨w₁, hw₁, hgrown₀.trans h.sound.wf hw₀.sound.wf hgrown, components_eq s ▸ hclean, ?_⟩
  unfold withFolder
  rw [Comp.bind_run_ok hcancel, Comp.bind_run_ok (checkAbsolute_run habsolute),
    Comp.bind_run_ok hlookup]
  cases hwalk : w₁.tree.walk rootfolder (components s) with
  | none => exact Or.inl ⟨components_eq s ▸ hwalk, rfl⟩
  | some p =>
    obtain ⟨fo, hfo⟩ := walk_root_alive hw₁.sound.wf hwalk
    exact Or.inr ⟨p, fo, ⟨habsolute, hwalk, hclean, hfo⟩, rfl⟩

theorem listFilesFound_shown (hfiles : ShowsFiles funcs cam s) (h : w.Reflects cam)
    (hleads : w.LeadsTo s p fo) : ∃ w' fo',
      listFilesFound funcs s p w = some (.ok (w'.fs.fileNames fo'.files), w') ∧
      w'.fs.folders p = some fo' ∧ fo'.filesDirty = false ∧ w'.Reflects cam ∧ Grown w w' := by
  have hwf := h.sound.wf
  obtain ⟨fileList, hfunc, hshown⟩ := hfiles
  have hanswer := hshown w.env (h.mirrors.folder (LeadsTo.at hleads))
  have hends : ∃ names w', listFilesFound funcs s p w = some (.ok names, w') := by
    cases hdirty : fo.filesDirty with
    | true =>
      exact listFilesFound_ends funcs h.sound hleads.folder hdirty hfunc hanswer
        (cam.files_nodup _)
    | false =>
      unfold listFilesFound
      rw [Comp.bind_run_ok (derefFolder_run hleads.folder)]
      simp only [hdirty]
      exact listFilesClean_ends hleads.folder
  obtain ⟨names, w', hrun⟩ := hends
  rcases listFilesFound_cases funcs hwf hleads.folder hrun with ⟨hclean, hr, rfl⟩ |
      ⟨g, hg, hdirty, hsteps, -, files, hp', hother, ⟨e, he⟩ | ⟨hr, hlisted⟩⟩
  · -- The files were cached.
    have hdirty : fo.filesDirty = false := hclean.resolve_right (by rw [hfunc]; simp)
    have hfo : ({ fo with filesDirty := false } : CameraFilesystemFolder) = fo := by
      rw [← hdirty]
    have hfs := setFolder_self hleads.folder
    rw [hfo] at hrun
    refine ⟨_, fo, ?_, by rw [hfs, hleads.folder], hdirty, ⟨⟨?_, ?_⟩, ?_⟩, ?_⟩
    · rw [hrun, hfs, hr]
    · rw [tree_of_fs hfs rfl]
      exact hwf
    · rw [hfs]
      exact h.sound.chain
    · exact Mirrors.of_same h.mirrors hfs rfl
    · exact Grown.of_same hfs rfl
  · cases he
  · rw [hfunc, Option.some.injEq] at hg
    subst hg
    rw [hanswer, Except.ok.injEq] at hlisted
    exact ⟨w', _, by rw [hrun, hr], hp', rfl, ⟨TreeSteps.sound hsteps h.sound,
      mirrors_of_files h.mirrors hwf hsteps (LeadsTo.at hleads) hleads.folder hp' hother
        hlisted.symm⟩,
      grown_of_files hwf hsteps hleads.folder hdirty hp' hother⟩

theorem LeadsTo.grown {fo' : CameraFilesystemFolder} (h : w.LeadsTo s p fo) (hgrown : Grown w w')
    (hwf : w.tree.Wf) (hwf' : w'.tree.Wf) (hp' : w'.fs.folders p = some fo') :
    w'.LeadsTo s p fo' := by
  obtain ⟨hwalk, hclean⟩ := hgrown.walk hwf hwf' h.walk h.clean
  exact ⟨h.absolute, hwalk, hclean, hp'⟩

variable (hshows : ShowsFolders funcs context cam.toFolderTree)
include hshows

/-- `gp_filesystem_list_files` fails for a folder that the camera does not have. For any other one
it returns the files, and they are cached then. -/
theorem listFiles_shown
    (hfiles : ShowsFiles funcs cam s) (h : w.Reflects cam) (habsolute : isAbsolute s = true) :
    ∃ w', w'.Reflects cam ∧ Grown w w' ∧
      ((¬ cam.Has (splitSlashes s) ∧
          gpFilesystemListFiles funcs s context w = some (.error gpErrorDirectoryNotFound, w')) ∨
        ∃ p fo, w'.LeadsTo s p fo ∧ fo.filesDirty = false ∧
          gpFilesystemListFiles funcs s context w = some (.ok (w'.fs.fileNames fo.files), w')) := by
  show ∃ w', _ ∧ _ ∧ ((_ ∧ withFolder funcs s context (listFilesFound funcs s) w = _) ∨
    ∃ p fo, _ ∧ _ ∧ withFolder funcs s context (listFilesFound funcs s) w = _)
  obtain ⟨w₁, hw₁, hgrown, hclean, ⟨hwalk, hrun⟩ | ⟨p, fo, hleads, hrun⟩⟩ :=
    withFolder_shown hshows h habsolute (listFilesFound funcs s)
  · refine ⟨w₁, hw₁, hgrown, Or.inl ⟨fun hhas => ?_, hrun⟩⟩
    obtain ⟨p, hp⟩ := Reflects.walk hw₁ hhas hclean
    rw [hwalk] at hp
    cases hp
  · obtain ⟨w', fo', hlist, hp', hdirty, hw', hgrown'⟩ := listFilesFound_shown hfiles hw₁ hleads
    exact ⟨w', hw', hgrown.trans h.sound.wf hw₁.sound.wf hgrown', Or.inr ⟨p, fo',
      LeadsTo.grown hleads hgrown' hw₁.sound.wf hw'.sound.wf hp', hdirty, hrun.trans hlist⟩⟩

/-- The subfolders of a folder that was found before are what is on the camera. -/
theorem listFolders_shown (h : w.Reflects cam) (hleads : w.LeadsTo s p fo) :
    ∃ w' fo', gpFilesystemListFolders funcs s context w =
        some (.ok (w'.fs.folderNames fo'.folders), w') ∧ w'.LeadsTo s p fo' ∧
      fo'.foldersDirty = false ∧ w'.Reflects cam ∧ Grown w w' := by
  obtain ⟨r, w', hrun, hlisted, herror⟩ := listFolders_ends funcs context h.sound hleads
  have heffect : LookupEffect w w' := (listFolders_run funcs h.sound.wf hrun).1
  obtain ⟨hm', hgrown⟩ := hshows.listed h.mirrors h.sound.wf hleads heffect hlisted
  have hw' := heffect.sound h.sound
  obtain ⟨fo', hp', -⟩ := hgrown.folder hleads.walk hleads.clean hleads.folder
  have hleads' := LeadsTo.grown hleads hgrown h.sound.wf hw'.wf hp'
  cases r with
  | error e =>
    -- The driver does not refuse.
    obtain ⟨g, env, hg, he⟩ := herror e rfl hshows.uncancelled
    obtain ⟨g', hg', hshown⟩ := hshows.folders
    rw [hg, Option.some.injEq] at hg'
    subst hg'
    rw [hshown s env (h.mirrors.folder (LeadsTo.at hleads))] at he
    cases he
  | ok names =>
    obtain ⟨q, qo, hwalk, hq, hclean, rfl⟩ := (listFolders_run funcs h.sound.wf hrun).2 names rfl
    rw [hleads'.walk, Option.some.injEq] at hwalk
    subst hwalk
    rw [hp', Option.some.injEq] at hq
    subst hq
    exact ⟨w', fo', hrun, hleads', hclean, ⟨hw', hm'⟩, hgrown⟩

end

end

end GPhoto2
