import GPhoto2.Proofs.Filesys.GetFolder
import Mathlib.Data.List.Forall2

/-!
# `GPhoto2.Proofs.Filesys.Browse`: browsing a camera through the virtual filesystem

A frontend visits folders: it lists the files of each, and then the subfolders. What the
filesystem has cached at earlier visits does not show: `visits_shown`.
-/

set_option autoImplicit false

namespace GPhoto2

open Lib
open Lib.Comp (attempt_eq_some bind_run_ok)

variable {σ : Type}

section
variable {w : World σ} {cam : CameraTree} {funcs : CameraFilesystemFuncs σ} {context : GPContext}

/-- A frontend comes to a folder: it lists the files, and then the subfolders. -/
def visit (funcs : CameraFilesystemFuncs σ) (context : GPContext) (s : CString) :
    Fs σ (List CString × List CString) := do
  let files ← gpFilesystemListFiles funcs s context
  let folders ← gpFilesystemListFolders funcs s context
  pure (files, folders)

/-- What a visit has to find: the names that are on the camera, or that there is no such folder. -/
inductive CameraTree.Visited (cam : CameraTree) (s : CString) :
    Except Int (List CString × List CString) → Prop
  | found {files folders : List CString} (hhas : cam.Has (splitSlashes s))
      (hfiles : files.Perm (cam.files (splitSlashes s)))
      (hfolders : folders.Perm (cam.folders (splitSlashes s))) :
      Visited cam s (.ok (files, folders))
  | missing (hnot : ¬ cam.Has (splitSlashes s)) : Visited cam s (.error gpErrorDirectoryNotFound)

theorem visit_shown (hshows : Shows funcs context cam) (h : w.Reflects cam) {s : CString}
    (habsolute : isAbsolute s = true) : ∃ r w', Comp.attempt (visit funcs context s) w =
      some (.ok r, w') ∧ cam.Visited s r ∧ w'.Reflects cam := by
  obtain ⟨w₁, hw₁, -, ⟨hnot, hfiles⟩ | ⟨p, fo, hleads, hclean, hfiles⟩⟩ :=
    listFiles_shown hshows.toShowsFolders (hshows.files s) h habsolute
  · exact ⟨_, w₁, attempt_eq_some.mpr ⟨_, Comp.bind_run_error hfiles, rfl⟩, .missing hnot, hw₁⟩
  · obtain ⟨w₂, fo₂, hfolders, hleads₂, hclean₂, hw₂, -⟩ :=
      listFolders_shown hshows.toShowsFolders hw₁ hleads
    have hat := LeadsTo.at hleads
    have hat₂ := LeadsTo.at hleads₂
    have hnames := hw₁.sound.wf.namesDistinct hw₁.mirrors.distinct p fo hleads.folder
    have hnames₂ := hw₂.sound.wf.namesDistinct hw₂.mirrors.distinct p fo₂ hleads₂.folder
    refine ⟨_, w₂, attempt_eq_some.mpr ⟨_, (bind_run_ok hfiles).trans (bind_run_ok hfolders), rfl⟩,
      .found (hw₁.mirrors.folder hat) ?_ ?_, hw₂⟩
    · refine (List.perm_ext_iff_of_nodup hnames.2 (cam.files_nodup _)).mpr fun name => ?_
      refine List.mem_filterMap.trans ⟨?_, hw₁.mirrors.files hat hleads.folder hclean name⟩
      rintro ⟨a, ha, hname⟩
      rw [← tree_files hleads.folder] at ha
      exact hw₁.mirrors.file hat ha hname
    · refine (List.perm_ext_iff_of_nodup hnames₂.1 (cam.folders_nodup _)).mpr fun name => ?_
      refine List.mem_filterMap.trans ⟨?_, hw₂.mirrors.subfolders hat₂ hleads₂.folder hclean₂ name⟩
      rintro ⟨c, hc, hname⟩
      rw [← tree_folders hleads₂.folder] at hc
      have hhas := hw₂.mirrors.folder (.child hat₂ hc hname)
      generalize hq : splitSlashes s ++ [name] = q at hhas
      cases hhas with
      | root => simp at hq
      | sub _ hsub =>
        obtain ⟨hpath, hlast⟩ := List.append_inj' hq rfl
        rwa [hpath, List.singleton_inj.mp hlast]

end

/-- In whatever order folders are visited, and however often: each visit finds what is on the
camera. -/
theorem visits_shown {cam : CameraTree} {funcs : CameraFilesystemFuncs σ} {context : GPContext}
    (hshows : Shows funcs context cam) (env : σ) (paths : List CString)
    (habsolute : ∀ s ∈ paths, isAbsolute s = true) : ∃ answers w',
      (paths.mapM' fun s => Comp.attempt (visit funcs context s)) (World.new env) =
        some (.ok answers, w') ∧ List.Forall₂ cam.Visited paths answers := by
  have h := new_reflects env cam
  generalize World.new env = w at h
  induction paths generalizing w with
  | nil => exact ⟨[], w, rfl, .nil⟩
  | cons s paths ih =>
    obtain ⟨r, w₁, hvisit, hr, hw₁⟩ := visit_shown hshows h (habsolute s List.mem_cons_self)
    obtain ⟨rs, w', hrest, hrs⟩ := ih (fun s hs => habsolute s (List.mem_cons_of_mem _ hs)) w₁ hw₁
    exact ⟨_, w', (bind_run_ok hvisit).trans (bind_run_ok hrest), .cons hr hrs⟩

theorem visits_shown_again : ∃ answers w', ([['/'], ['/', 'x'], ['/']].mapM' fun s => Comp.attempt
    (visit (longFolder.withFile [] ['a']).funcs .null s)) (World.new ()) = some (.ok answers, w') ∧
    List.Forall₂ (longFolder.withFile [] ['a']).Visited [['/'], ['/', 'x'], ['/']] answers :=
  visits_shown (CameraTree.funcs_shows _) () _ (by decide)

end GPhoto2
