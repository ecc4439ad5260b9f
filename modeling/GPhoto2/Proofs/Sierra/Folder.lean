import GPhoto2.Sierra.Folder

/-!
# `GPhoto2.Proofs.Sierra.Folder`: when the driver knows where the camera is

`changeFolder_ends` is one call of `sierra_change_folder`, with packets that may fail. Where the
call meets `Fine`, the driver knows afterwards where the camera is (`Coherent`), and the camera is
in the requested folder if the call has succeeded. `runs_coherent` is the same for whole runs.

The defects are what `Fine` leaves out: a packet that fails after others have moved the camera, a
component of one character, and a path that does not fit.
-/

set_option autoImplicit false

namespace GPhoto2.Sierra

open Lib
open Lib.Comp (Ends bind_run)

/-! ### Names and folders -/

/-- The components of a path behind the characters of one. -/
def namesFrom : CString → CString → List CString
  | name, [] => if name = [] then [] else [name]
  | name, c :: folder =>
    if c = '/' then
      if name = [] then namesFrom [] folder else name :: namesFrom [] folder
    else
      namesFrom (name ++ [c]) folder

/-- The folder that a path names. -/
def folderOf (folder : CString) : List CString := namesFrom [] folder

/-- The driver knows where the camera is, or that it does not know. -/
def Coherent (camera : Camera) : Prop :=
  camera.folder = [] ∨ folderOf camera.folder = camera.path

example : folderOf ['/', 'D', 'C', '/', '/', 'X', '/'] = [['D', 'C'], ['X']] := by decide +kernel

theorem namesFrom_slash (name folder : CString) :
    namesFrom name (folder ++ ['/']) = namesFrom name folder := by
  induction folder generalizing name with
  | nil =>
    by_cases hname : name = []
    · simp [namesFrom, hname]
    · simp [namesFrom, hname]
  | cons c folder ih =>
    simp only [List.cons_append, namesFrom, ih]

/-! ### The packets -/

/-- The first of the next `n` packets that fails is number `k`, with the error `e`. -/
def FailsAt (answers : List (Option Int)) (k : Nat) (e : Int) : Prop :=
  (∀ j < k, answers[j]?.join = none) ∧ answers[k]? = some (some e)

theorem FailsAt.succ {answers : List (Option Int)} {k : Nat} {e : Int}
    (h : FailsAt answers.tail k e) (hfirst : answers.head?.join = none) :
    FailsAt answers (k + 1) e := by
  cases answers with
  | nil => cases h.2
  | cons a answers =>
    refine ⟨fun j hj => ?_, h.2⟩
    cases j with
    | zero => exact hfirst
    | succ j => exact h.1 j (by omega)

theorem setStringRegister_ends (reg : Nat) {s : CString} (hne : s ≠ [])
    (hshort : s.length ≤ maxDataFieldLength - 2) (camera : Camera) :
    Ends
      (fun _ camera' => camera.answers.head?.join = none ∧
        camera' = { camera with answers := camera.answers.tail }.take (.command reg s))
      (fun e camera' => FailsAt camera.answers 0 e ∧
        camera' = { camera with answers := camera.answers.tail })
      (setStringRegister reg s camera) := by
  rw [setStringRegister, if_neg hne, List.take_of_length_le hshort, List.drop_of_length_le hshort]
  have hrest : ∀ fuel, setStringRest fuel 0 [] = pure () := by
    intro fuel
    cases fuel with
    | zero => rfl
    | succ fuel => rw [setStringRest, if_pos rfl]
  rw [hrest]
  refine Ends.bind (R := fun _ camera' => camera.answers.head?.join = none ∧
    camera' = { camera with answers := camera.answers.tail }.take (.command reg s)) ?_
    fun _ _ h => Ends.pure h
  cases hanswers : camera.answers with
  | nil => simp [transmitAck, hanswers, Ends, bind_run]
  | cons a answers =>
    cases a with
    | none => simp [transmitAck, hanswers, Ends]
    | some e =>
      simp [transmitAck, hanswers, Ends, bind_run, FailsAt]

theorem take_name (camera : Camera) {s : CString} (h : s.length ≠ 1) :
    camera.take (.command 84 s) = { camera with path := camera.path ++ [s] } := by
  cases s with
  | nil => rfl
  | cons c s =>
    cases s with
    | nil => exact absurd rfl h
    | cons d s => simp [Camera.take]

/-- The driver has moved the camera to `path`, and noted nothing yet. -/
structure Moved (camera camera' : Camera) (path : List CString) : Prop where
  path : camera'.path = path
  folder : camera'.folder = camera.folder
  folders : camera'.folders = camera.folders

theorem sendNames_ends (name target : CString)
    (hend : target.getLast? = some '/' ∨ (target = [] ∧ name = []))
    (hlong : ∀ n ∈ namesFrom name target, n.length ≠ 1) (hshort : name.length + target.length ≤ 128)
    (camera : Camera) :
    Ends
      (fun _ camera' => Moved camera camera' (camera.path ++ namesFrom name target))
      (fun e camera' => ∃ k < (namesFrom name target).length, FailsAt camera.answers k e ∧
        Moved camera camera' (camera.path ++ (namesFrom name target).take k))
      (sendNames name target camera) := by
  induction target generalizing name camera with
  | nil =>
    obtain ⟨-, rfl⟩ : ([] : CString) = [] ∧ name = [] := by simpa using hend
    exact Ends.pure ⟨by simp [namesFrom], rfl, rfl⟩
  | cons c target ih =>
    have hend' : ∀ name' : CString, (target = [] → name' = []) →
        target.getLast? = some '/' ∨ (target = [] ∧ name' = []) := by
      intro name' hname'
      cases target with
      | nil => exact Or.inr ⟨rfl, hname' rfl⟩
      | cons d target =>
        refine Or.inl ?_
        simpa using hend
    rw [List.length_cons] at hshort
    by_cases hc : c = '/'
    · by_cases hname : name = []
      · -- two slashes in a row: nothing is sent
        subst hname
        have hnames : namesFrom [] (c :: target) = namesFrom [] target := by
          rw [namesFrom, if_pos hc, if_pos rfl]
        rw [sendNames, if_pos hc, if_neg (by simp), setStringRegister, if_pos rfl]
        rw [hnames] at hlong ⊢
        exact ih [] (hend' [] fun _ => rfl) hlong (by simp at hshort ⊢; omega) camera
      · have hnames : namesFrom name (c :: target) = name :: namesFrom [] target := by
          rw [namesFrom, if_pos hc, if_neg hname]
        rw [hnames] at hlong ⊢
        have hone : name.length ≠ 1 := hlong name (by simp)
        have hmax : maxDataFieldLength = 2048 := rfl
        rw [sendNames, if_pos hc, if_neg hone]
        refine Ends.bind ((setStringRegister_ends 84 hname (by omega) camera).mono
          (fun _ _ h => h) ?_) ?_
        · rintro e camera' ⟨hfails, rfl⟩
          exact ⟨0, by simp, hfails, by simp, rfl, rfl⟩
        rintro _ camera' ⟨hfirst, hcamera'⟩
        rw [take_name _ hone] at hcamera'
        subst hcamera'
        refine (ih [] (hend' [] fun _ => rfl) (fun n hn => hlong n (by simp [hn]))
          (by simp; omega) _).mono ?_ ?_
        · intro _ camera' h
          refine ⟨?_, h.folder, h.folders⟩
          rw [h.path, List.append_assoc]
          rfl
        · rintro e camera' ⟨k, hk, hfails, hmoved⟩
          refine ⟨k + 1, by rw [List.length_cons]; omega, hfails.succ hfirst, ?_, hmoved.folder,
            hmoved.folders⟩
          rw [hmoved.path, List.append_assoc]
          rfl
    · have hnames : namesFrom name (c :: target) = namesFrom (name ++ [c]) target := by
        rw [namesFrom, if_neg hc]
      rw [sendNames, if_neg hc]
      rw [hnames] at hlong ⊢
      refine ih (name ++ [c]) (hend' _ ?_) hlong (by simp; omega) camera
      rintro rfl
      simp [hc] at hend

/-! ### One call -/

/-- An absolute path, as the callers pass. -/
def Absolute (folder : CString) : Prop := folder.head? = some '/'

/-- The path fits into the buffer, with a slash at its end. -/
def Fits (folder : CString) : Prop :=
  folder.length ≤ 126 ∨ (folder.length = 127 ∧ folder.getLast? = some '/')

/-- The call does not reach a defect: no component has one character, and where a packet fails
behind the first, the folder that the camera is in by then is the one that the driver has noted. -/
structure Fine (camera : Camera) (folder : CString) : Prop where
  fits : Fits folder
  long : ∀ name ∈ folderOf folder, name.length ≠ 1
  whole : ∀ k < (folderOf folder).length, ∀ e, FailsAt camera.answers (k + 1) e →
    camera.folder = [] ∨ folderOf camera.folder = (folderOf folder).take k

/-- An absolute path: the camera goes to its root, and into one folder after the other. -/
theorem sendPath_ends (t : CString) (hend : t.getLast? = some '/' ∨ t = [])
    (hlong : ∀ n ∈ namesFrom [] t, n.length ≠ 1) (hshort : t.length ≤ 128) (camera : Camera) :
    Ends
      (fun _ camera' => Moved camera camera' (namesFrom [] t))
      (fun e camera' => Moved camera camera' camera.path ∨
        ∃ k < (namesFrom [] t).length, FailsAt camera.answers (k + 1) e ∧
          Moved camera camera' ((namesFrom [] t).take k))
      (sendPath ('/' :: t) camera) := by
  rw [sendPath, if_pos (show ('/' :: t).head? = some '/' from rfl)]
  refine Ends.bind ((setStringRegister_ends 84 (by simp) (by decide) camera).mono
    (fun _ _ h => h) ?_) ?_
  · rintro e camera' ⟨-, rfl⟩
    exact Or.inl ⟨rfl, rfl, rfl⟩
  · rintro _ camera' ⟨hfirst, rfl⟩
    refine (sendNames_ends [] t (hend.imp_right fun h => ⟨h, rfl⟩) hlong (by simpa using hshort)
      { camera with path := [], answers := camera.answers.tail }).mono ?_ ?_
    · intro _ camera' h
      exact ⟨h.path, h.folder, h.folders⟩
    · rintro e camera' ⟨k, hk, hfails, hmoved⟩
      exact Or.inr ⟨k, hk, hfails.succ hfirst, hmoved.path, hmoved.folder, hmoved.folders⟩

/-- What is sent of a path: it ends with a slash, and names the same folder. -/
theorem target_cases (t : CString) (hfits : Fits ('/' :: t)) :
    ∃ t' : CString, (if ('/' :: t).getLast? ≠ some '/' then '/' :: t ++ ['/'] else '/' :: t) =
        '/' :: t' ∧ (t'.getLast? = some '/' ∨ t' = []) ∧
      namesFrom [] t' = folderOf ('/' :: t) ∧ t'.length ≤ 127 := by
  have hlength : t.length + 1 ≤ 126 ∨ (t.length + 1 = 127 ∧ ('/' :: t).getLast? = some '/') := hfits
  by_cases hlast : ('/' :: t).getLast? ≠ some '/'
  · refine ⟨t ++ ['/'], by rw [if_pos hlast]; rfl, Or.inl (by simp), namesFrom_slash [] t, ?_⟩
    rw [List.length_append, List.length_singleton]
    omega
  · refine ⟨t, if_neg hlast, ?_, rfl, by omega⟩
    cases t with
    | nil => exact Or.inr rfl
    | cons c t =>
      refine Or.inl ?_
      simpa using hlast

/-- One call: afterwards the driver knows where the camera is, which is in the requested folder if
the call has succeeded. -/
theorem changeFolder_ends {camera : Camera} (hfolders : camera.folders = true)
    (hcoherent : Coherent camera) {folder : CString} (habsolute : Absolute folder)
    (hfine : camera.folder = folder ∨ Fine camera folder) :
    Ends
      (fun _ camera' => camera'.folders = true ∧ Coherent camera' ∧
        camera'.path = folderOf folder)
      (fun _ camera' => camera'.folders = true ∧ Coherent camera')
      (changeFolder folder camera) := by
  obtain ⟨t, rfl⟩ : ∃ t, folder = '/' :: t := by
    cases folder with
    | nil => cases habsolute
    | cons c t =>
      obtain rfl : c = '/' := by simpa [Absolute] using habsolute
      exact ⟨t, rfl⟩
  refine Ends.get_bind ?_
  by_cases hsame : camera.folder = '/' :: t
  · rw [if_pos (Or.inr hsame)]
    refine Ends.pure ⟨hfolders, hcoherent, ?_⟩
    rcases hcoherent with hunknown | hknown
    · rw [hsame] at hunknown
      cases hunknown
    · rw [← hknown, hsame]
  · have hcall := hfine.resolve_left hsame
    have hlength : ('/' :: t).length ≤ 127 := by
      rcases hcall.fits with h | h
      · omega
      · omega
    have htake : ('/' :: t).take (targetSize - 1) = '/' :: t := List.take_of_length_le hlength
    have hroom : ¬ (('/' :: t).getLast? ≠ some '/' ∧ ('/' :: t).length + 1 ≥ targetSize) := by
      rintro ⟨hlast, hlong⟩
      have hsize : targetSize = 128 := rfl
      rcases hcall.fits with h | h
      · omega
      · exact hlast h.2
    obtain ⟨t', htarget, hend, hnames, hshort⟩ := target_cases t hcall.fits
    rw [if_neg (by simp [hfolders, hsame]), htake, if_neg (by simp), if_neg hroom, htarget]
    have hlong : ∀ n ∈ namesFrom [] t', n.length ≠ 1 := by
      rw [hnames]
      exact hcall.long
    refine Ends.bind ((sendPath_ends t' hend hlong (by omega) camera).mono
      (fun _ _ h => h) ?_) ?_
    · rintro e camera' (hmoved | ⟨k, hk, hfails, hmoved⟩)
      · -- nothing was sent
        refine ⟨hmoved.folders.trans hfolders, ?_⟩
        rw [Coherent, hmoved.folder, hmoved.path]
        exact hcoherent
      · refine ⟨hmoved.folders.trans hfolders, ?_⟩
        rw [Coherent, hmoved.folder, hmoved.path]
        rw [hnames] at hk ⊢
        exact hcall.whole k hk e hfails
    · intro _ camera' hmoved
      refine Ends.ite (fun hlong => ?_) fun _ => ?_
      · have hsize : targetSize = 128 := rfl
        omega
      · refine Ends.modify ⟨hmoved.folders.trans hfolders, Or.inr ?_, ?_⟩
        · show folderOf ('/' :: t) = camera'.path
          rw [hmoved.path, hnames]
        · show camera'.path = folderOf ('/' :: t)
          rw [hmoved.path, hnames]

/-! ### Runs -/

/-- A call that does not reach a defect, with any packets failing. -/
def Step (camera camera' : Camera) : Prop :=
  ∃ folder answers r, Absolute folder ∧
    (camera.folder = folder ∨ Fine { camera with answers := answers } folder) ∧
    changeFolder folder { camera with answers := answers } = some (r, camera')

theorem Step.coherent {camera camera' : Camera} (hstep : Step camera camera')
    (h : camera.folders = true ∧ Coherent camera) : camera'.folders = true ∧ Coherent camera' := by
  obtain ⟨folder, answers, r, habsolute, hfine, hrun⟩ := hstep
  have hends := @changeFolder_ends { camera with answers := answers } h.1 h.2 folder habsolute hfine
  cases r with
  | error e => exact hends.of_error hrun
  | ok u =>
    obtain ⟨hfolders, hcoherent, -⟩ := hends.of_ok hrun
    exact ⟨hfolders, hcoherent⟩

/-- In every run of such calls from the start the driver knows where the camera is, or that it does
not know. So every further such call returns, and one that succeeds leaves the camera in the
requested folder. -/
theorem runs_coherent {start camera : Camera} (hfolders : start.folders = true)
    (hstart : start.folder = []) (hrun : Relation.ReflTransGen Step start camera) :
    Coherent camera ∧ ∀ folder answers, Absolute folder →
      (camera.folder = folder ∨ Fine { camera with answers := answers } folder) →
      Ends (fun _ camera' => camera'.path = folderOf folder) (fun _ _ => True)
        (changeFolder folder { camera with answers := answers }) := by
  have hstep : ∀ a b : Camera, a.folders = true ∧ Coherent a → Step a b →
      b.folders = true ∧ Coherent b := fun a b h hstep => hstep.coherent h
  have hinv := invariant_of_steps hstep hrun ⟨hfolders, Or.inl hstart⟩
  refine ⟨hinv.2, fun folder answers habsolute hfine => ?_⟩
  have hends := @changeFolder_ends { camera with answers := answers } hinv.1 hinv.2 folder habsolute
    hfine
  exact hends.mono (fun _ _ h => h.2.2) fun _ _ _ => trivial

/-- A camera behind `camera_init`, as it is in the examples. -/
def started : Camera := ⟨true, [], [], []⟩

/-- It has gone to a folder, and the first packet for another one has failed. -/
theorem runs_coherent_started :
    Coherent ⟨true, ['/', 'D', 'C', 'I', 'M'], [['D', 'C', 'I', 'M']], []⟩ ∧
      ∀ folder answers, Absolute folder →
        (['/', 'D', 'C', 'I', 'M'] = folder ∨
          Fine ⟨true, ['/', 'D', 'C', 'I', 'M'], [['D', 'C', 'I', 'M']], answers⟩ folder) →
        Ends (fun _ camera' => camera'.path = folderOf folder) (fun _ _ => True)
          (changeFolder folder
            ⟨true, ['/', 'D', 'C', 'I', 'M'], [['D', 'C', 'I', 'M']], answers⟩) := by
  have hfits : ∀ folder : CString, folder.length = 5 → Fits folder := fun _ h => Or.inl (by omega)
  refine @runs_coherent started ⟨true, _, _, []⟩ rfl rfl
    ((Relation.ReflTransGen.single (b := ⟨true, ['/', 'D', 'C', 'I', 'M'],
      [['D', 'C', 'I', 'M']], []⟩)
      ⟨['/', 'D', 'C', 'I', 'M'], [], .ok (), rfl, Or.inr ?_, rfl⟩).tail
      ⟨['/', 'M', 'I', 'S', 'C'], [some gpErrorTimeout], .error gpErrorTimeout, rfl,
        Or.inr ?_, rfl⟩)
  · exact ⟨hfits _ rfl, by decide +kernel, fun _ _ _ h => by cases h.2⟩
  · exact ⟨hfits _ rfl, by decide +kernel, fun _ _ _ h => by cases h.2⟩

/-- A packet fails in the middle, and the driver believes the camera to be where it was: the next
call for that folder succeeds without sending anything, and the camera is in its root. -/
theorem failed_change_believed :
    ∃ a b c, changeFolder ['/', 'D', 'C', 'I', 'M'] started = some (.ok (), a) ∧
      changeFolder ['/', 'M', 'I', 'S', 'C'] { a with answers := [none, some gpErrorTimeout] } =
        some (.error gpErrorTimeout, b) ∧
      changeFolder ['/', 'D', 'C', 'I', 'M'] b = some (.ok (), c) ∧
      c.path ≠ folderOf ['/', 'D', 'C', 'I', 'M'] := by
  refine ⟨⟨true, ['/', 'D', 'C', 'I', 'M'], [['D', 'C', 'I', 'M']], []⟩,
    ⟨true, ['/', 'D', 'C', 'I', 'M'], [], []⟩, ⟨true, ['/', 'D', 'C', 'I', 'M'], [], []⟩, rfl, rfl,
    rfl, by decide +kernel⟩

end GPhoto2.Sierra
