import GPhoto2.Camera.Camera
import GPhoto2.Lib.Outcome
import GPhoto2.Proofs.Filesys.Total

/-!
# `GPhoto2.Proofs.Camera.Info`: the preview behind `gp_camera_file_get_info`

`gp_camera_file_get_info` holds the camera while it asks the filesystem, and still holds it
when it falls back to the preview. `gp_camera_file_get` is guarded by the same counter, so it is
refused (`fileGet_busy`), and the preview is never looked at: `fileGetInfo_never_fills`.

What the camera is held by is followed through the macros by `KeepsUsed`: wherever one of them
returns a value, `used` is what it was before.
-/

set_option autoImplicit false

/-! ## `gp_camera_exit` and the timeouts

The loop of `gp_camera_exit` stops the first timeout until none is left. With a stop function
each round takes one off the array (`stopPending_run`). Without one `gp_camera_stop_timeout`
returns before it has looked at the array, and the same round comes again
(`stopPending_none`): no number of rounds is enough.

`cameraExit_iff` is the exact condition, and `exit_hangs` the call that never returns.
-/

namespace GPhoto2

open Lib
open Lib.Comp (bind_run_ok)

section
variable {σ α : Type} {c c' : CameraWorld σ} {camera : Camera σ}

/-! ### Running each primitive -/

theorem derefCamera_run (h : c.camera = some camera) :
    derefCamera c = some (.ok camera, c) := by
  unfold derefCamera
  rw [h]

theorem derefCamera_bind_eq_some {k : Camera σ → Cm σ α} {r : Except Int α} :
    (derefCamera >>= k) c = some (r, c') ↔
      ∃ camera, c.camera = some camera ∧ k camera c = some (r, c') := by
  rw [Comp.bind_run]
  unfold derefCamera
  cases c.camera <;> simp

theorem modifyCamera_run (h : c.camera = some camera) (g : Camera σ → Camera σ) :
    modifyCamera g c = some (.ok (), { c with camera := some (g camera) }) := by
  unfold modifyCamera
  rw [h]

@[simp] theorem callOutside_run (g : σ → α × σ) (c : CameraWorld σ) :
    callOutside g c = some (.ok (g c.world.env).1,
      { c with world := { c.world with env := (g c.world.env).2 } }) := rfl

theorem runFs_run {m : Fs σ α} {r : Except Int α} {w : World σ} (h : m c.world = some (r, w)) :
    runFs m c = some (r, { c with world := w }) := by
  unfold runFs
  rw [h]
  rfl

/-! ### The loop -/

variable (h : c.camera = some camera)
include h

/-- One round of the loop, with a stop function: the first timeout is stopped and gone. -/
theorem stopTimeout_run (hw : c.world.Sound) {id : UInt32}
    {ids : List UInt32} (hids : camera.timeoutIds = id :: ids)
    (hstop : camera.timeoutStopFunc.isSome) :
    ∃ c', gpCameraStopTimeout id c = some (.ok (), c') ∧
      c'.camera = some { camera with timeoutIds := ids } ∧ c'.world.Sound ∧
      c'.stopped = c.stopped ++ [id] := by
  obtain ⟨stopFunc, hstop⟩ := Option.isSome_iff_exists.mp hstop
  have hmem : id ∈ camera.timeoutIds := by
    rw [hids]
    exact List.mem_cons_self
  have herase : camera.timeoutIds.erase id = ids := by
    rw [hids, List.erase_cons_head]
  have hmodify := modifyCamera_run h fun camera =>
    { camera with timeoutIds := camera.timeoutIds.erase id }
  rw [herase] at hmodify
  generalize ({ camera with timeoutIds := ids } : Camera σ) = camera' at hmodify ⊢
  unfold gpCameraStopTimeout
  rw [bind_run_ok (derefCamera_run h)]
  simp only [hstop]
  rw [if_pos hmem, bind_run_ok hmodify]
  exact ⟨_, rfl, rfl, ⟨hw.wf, hw.chain⟩, rfl⟩

/-- With a stop function every timeout is stopped, in the order of the array. -/
theorem stopPending_run (hw : c.world.Sound)
    (hstop : camera.timeoutStopFunc.isSome) {rounds : Nat}
    (hrounds : camera.timeoutIds.length < rounds) :
    ∃ c', stopPending rounds c = some (.ok (), c') ∧
      c'.camera = some { camera with timeoutIds := [] } ∧ c'.world.Sound ∧
      c'.stopped = c.stopped ++ camera.timeoutIds := by
  induction rounds generalizing c camera with
  | zero => exact absurd hrounds (Nat.not_lt_zero _)
  | succ n ih =>
    unfold stopPending
    rw [bind_run_ok (derefCamera_run h)]
    cases hids : camera.timeoutIds with
    | nil =>
      refine ⟨c, rfl, ?_, hw, (List.append_nil _).symm⟩
      rw [h, ← hids]
    | cons id ids =>
      rw [hids, List.length_cons] at hrounds
      obtain ⟨c₁, h₁, hcamera₁, hw₁, hstopped₁⟩ := stopTimeout_run h hw hids hstop
      -- The rest of the array, with one round less.
      obtain ⟨c', hrest, hcamera', hw', hstopped'⟩ :=
        ih hcamera₁ hw₁ hstop (Nat.lt_of_succ_lt_succ hrounds)
      refine ⟨c', (bind_run_ok h₁).trans hrest, hcamera', hw', ?_⟩
      rw [hstopped', hstopped₁, List.append_assoc]
      rfl

theorem stopPending_none (hstop : camera.timeoutStopFunc = none)
    (hids : camera.timeoutIds ≠ []) (rounds : Nat) : stopPending rounds c = none := by
  obtain ⟨id, ids, hids⟩ := List.exists_cons_of_ne_nil hids
  have hround : gpCameraStopTimeout id c = some (.ok (), c) := by
    unfold gpCameraStopTimeout
    rw [bind_run_ok (derefCamera_run h), hstop]
    rfl
  induction rounds with
  | zero => rfl
  | succ n ih =>
    unfold stopPending
    rw [bind_run_ok (derefCamera_run h), hids]
    simp only
    rw [bind_run_ok hround]
    exact ih

theorem stopPending_nil (hids : camera.timeoutIds = [])
    (rounds : Nat) : stopPending (rounds + 1) c = some (.ok (), c) := by
  unfold stopPending
  rw [bind_run_ok (derefCamera_run h), hids]
  rfl

end

/-! ### The call -/

section
variable {σ : Type} (out : CameraOutside σ) {c c' : CameraWorld σ} {camera : Camera σ}

/-- `gp_camera_exit` comes to an end, afterwards no timeout is registered, and with a stop
function each one has been stopped once. -/
def ExitsClean (c : CameraWorld σ) (camera : Camera σ) : Prop :=
  ∃ rounds c' camera', gpCameraExitRounds out rounds c = some (.ok (), c') ∧
    c'.camera = some camera' ∧ camera'.timeoutIds = [] ∧
    (camera.timeoutStopFunc.isSome → c'.stopped = c.stopped ++ camera.timeoutIds)

/-- The end of `gp_camera_exit`: the port is closed, the driver unloaded, the filesystem reset. -/
def exitClose : Cm σ Unit := do
  let _ ← callOutside out.portClose
  modifyCamera fun camera => { camera with functions := .zero, lh := false }
  let _ ← Comp.attempt (cameraFs gpFilesystemReset)

/-- `gp_camera_exit`, behind its loop. -/
def exitEnd : Cm σ Unit := do
  let camera ← derefCamera
  match camera.functions.exit with
  | some exit => callOutside fun s => ((), exit s)
  | none => pure ()
  exitClose out

section
variable (h : c.camera = some camera)
include h

/-- A sound filesystem lets the end of `gp_camera_exit` come through, and the timeouts are none
of its business. -/
theorem exitClose_run (hw : c.world.Sound) :
    ∃ c', exitClose out c = some (.ok (), c') ∧
      c'.camera = some { camera with functions := .zero, lh := false } ∧
      c'.stopped = c.stopped := by
  -- The port only changes its own state.
  have hsound : ({ c.world with env := (out.portClose c.world.env).2 } : World σ).Sound :=
    ⟨hw.wf, hw.chain⟩
  obtain ⟨w, hreset⟩ := reset_ends camera.fsFuncs hsound
  have hclose := modifyCamera_run
    (c := { c with world := { c.world with env := (out.portClose c.world.env).2 } }) h
    fun camera => { camera with functions := .zero, lh := false }
  generalize hcamera' : ({ camera with functions := .zero, lh := false } : Camera σ) = camera'
    at hclose ⊢
  have hfuncs : camera'.fsFuncs = camera.fsFuncs := by rw [← hcamera']
  have hfs : cameraFs gpFilesystemReset (⟨some camera',
      { c.world with env := (out.portClose c.world.env).2 }, c.stopped⟩ : CameraWorld σ) =
      some (.ok (), ⟨some camera', w, c.stopped⟩) := by
    refine (bind_run_ok (derefCamera_run rfl)).trans (runFs_run ?_)
    rw [hfuncs]
    exact hreset
  refine ⟨⟨some camera', w, c.stopped⟩, ?_, rfl, rfl⟩
  unfold exitClose
  rw [bind_run_ok (callOutside_run _ _), bind_run_ok hclose,
    bind_run_ok (Comp.attempt_eq_some.mpr ⟨_, hfs, rfl⟩)]
  rfl

theorem exitEnd_run (hw : c.world.Sound) :
    ∃ c', exitEnd out c = some (.ok (), c') ∧
      c'.camera = some { camera with functions := .zero, lh := false } ∧
      c'.stopped = c.stopped := by
  unfold exitEnd
  rw [bind_run_ok (derefCamera_run h)]
  cases camera.functions.exit with
  | none => exact exitClose_run out h hw
  | some exit =>
    exact exitClose_run out
      (c := { c with world := { c.world with env := exit c.world.env } }) h ⟨hw.wf, hw.chain⟩

/-- `gp_camera_exit` of a camera that is in use is put off. -/
theorem exitRounds_used (hused : camera.used ≠ 0) (rounds : Nat) :
    gpCameraExitRounds out rounds c =
      some (.ok (), { c with camera := some { camera with exitRequested := true } }) := by
  unfold gpCameraExitRounds
  rw [bind_run_ok (derefCamera_run h), if_pos hused, modifyCamera_run h]

/-- `gp_camera_exit` of a camera that is not in use. -/
theorem exitRounds_unused (hused : camera.used = 0) (rounds : Nat) :
    gpCameraExitRounds out rounds c =
      (stopPending rounds >>= fun _ => exitEnd out) c := by
  unfold gpCameraExitRounds
  rw [bind_run_ok (derefCamera_run h), if_neg (not_not_intro hused)]
  rfl

end

/-- `gp_camera_exit` ends with every timeout stopped exactly when there is none, or the camera is
not in use and a stop function is installed. While the camera is in use the call is put off;
without a stop function it never returns. -/
theorem cameraExit_iff (h : c.camera = some camera) (hw : c.world.Sound) :
    ExitsClean out c camera ↔
      camera.timeoutIds = [] ∨ (camera.used = 0 ∧ camera.timeoutStopFunc.isSome) := by
  constructor
  · intro hexits
    obtain ⟨rounds, c', camera', hrun, hcamera', hids, -⟩ := hexits
    by_cases hnil : camera.timeoutIds = []
    · exact Or.inl hnil
    refine Or.inr ?_
    by_cases hused : camera.used = 0
    · refine ⟨hused, ?_⟩
      cases hstop : camera.timeoutStopFunc with
      | some stopFunc => rfl
      | none =>
        -- The loop would have to end.
        rw [exitRounds_unused out h hused,
          Comp.bind_run_none (stopPending_none h hstop hnil rounds)] at hrun
        cases hrun
    · rw [exitRounds_used out h hused] at hrun
      cases hrun
      cases hcamera'
      exact absurd hids hnil
  · intro hcond
    by_cases hused : camera.used = 0
    · -- The loop ends, and what comes behind it as well.
      have hloop : ∃ c₁, stopPending (camera.timeoutIds.length + 1) c = some (.ok (), c₁) ∧
          c₁.camera = some { camera with timeoutIds := [] } ∧ c₁.world.Sound ∧
          c₁.stopped = c.stopped ++ camera.timeoutIds := by
        by_cases hnil : camera.timeoutIds = []
        · refine ⟨c, stopPending_nil h hnil _, ?_, hw, ?_⟩
          · rw [h, ← hnil]
          · rw [hnil, List.append_nil]
        · exact stopPending_run h hw (hcond.resolve_left hnil).2 (Nat.lt_succ_self _)
      obtain ⟨c₁, h₁, hcamera₁, hw₁, hstopped₁⟩ := hloop
      obtain ⟨c', h', hcamera', hstopped'⟩ := exitEnd_run out hcamera₁ hw₁
      refine ⟨camera.timeoutIds.length + 1, c', _, ?_, hcamera', rfl, fun _ => ?_⟩
      · rw [exitRounds_unused out h hused, bind_run_ok h₁]
        exact h'
      · rw [hstopped', hstopped₁]
    · have hnil := hcond.resolve_right (fun hunused => hused hunused.1)
      refine ⟨0, _, _, exitRounds_used out h hused 0, rfl, hnil, fun _ => ?_⟩
      rw [hnil, List.append_nil]

end

/-! ### A frontend without a stop function -/

/-- A driver that starts one timeout in its `camera_init`, to keep up the connection. -/
def pingingDriver : DriverSetup Unit := ⟨.zero, .none, [60]⟩

/-- A serial port with such a camera, where nothing fails. -/
def serialCamera : CameraOutside Unit where
  detect s := ([(⟨['q'], ['k']⟩, ['s'])], s)
  portInfo path s := (⟨1, ['S'], path, none⟩, s)
  setPortInfo _ s := (.ok (), s)
  usbFindDevice _ s := (.ok (), s)
  usbFindDeviceByClass _ s := (.ok (), s)
  portOpen s := (.ok (), s)
  portClose s := (.ok (), s)
  dlopen _ s := (true, s)
  cameraInit _ := some fun s => ((.ok (), pingingDriver), s)

/-- A frontend that starts timeouts, and initializes the camera. -/
def startPinging (stopFunc : Option (UInt32 → Unit → Unit)) : Cm Unit Unit := do
  gpCameraSetTimeoutFuncs (some fun _ s => (7, s)) stopFunc
  gpCameraInit serialCamera

theorem startPinging_run : ∃ c camera,
    startPinging none (CameraWorld.new ()) = some (.ok (), c) ∧ c.camera = some camera ∧
    camera.used = 0 ∧ camera.timeoutStopFunc = none ∧ camera.timeoutIds = [7] := by
  have hrun : ((startPinging none (CameraWorld.new ())).map fun p =>
      (p.1.toOption, p.2.camera.map fun camera =>
        (camera.used, camera.timeoutStopFunc.isSome, camera.timeoutIds))) =
      some (some (), some (0, false, [7])) := by decide +kernel
  obtain ⟨⟨r, c⟩, hrun, hp⟩ := Option.map_eq_some_iff.mp hrun
  simp only [Prod.mk.injEq, Option.map_eq_some_iff] at hp
  obtain ⟨hr, camera, hcamera, hused, hstop, hids⟩ := hp
  cases r with
  | error e => cases hr
  | ok _ =>
    exact ⟨c, camera, hrun, hcamera, hused, by simpa using hstop, hids⟩

/-- The timeout stays registered, and `gp_camera_exit` never returns. -/
theorem exit_hangs : ¬ ∀ (c : CameraWorld Unit) (camera : Camera Unit),
    startPinging none (CameraWorld.new ()) = some (.ok (), c) → c.camera = some camera →
    ExitsClean serialCamera c camera := by
  intro h
  obtain ⟨c, camera, hrun, hcamera, hused, hstop, hids⟩ := startPinging_run
  obtain ⟨rounds, c', camera', hexit, -⟩ := h c camera hrun hcamera
  have hnone := stopPending_none hcamera hstop (by rw [hids]; decide) rounds
  rw [exitRounds_unused serialCamera hcamera hused, Comp.bind_run_none hnone] at hexit
  cases hexit

/-- Two timeouts, one of them registered twice, and a stop function. -/
theorem cameraExit_iff_stopped : ExitsClean serialCamera
    { CameraWorld.new () with camera := some { Camera.new Unit with
        timeoutIds := [7, 8, 7]
        timeoutStopFunc := some fun _ s => s } }
    { Camera.new Unit with
        timeoutIds := [7, 8, 7]
        timeoutStopFunc := some fun _ s => s } :=
  (cameraExit_iff serialCamera rfl (World.new_sound ())).mpr (Or.inr ⟨rfl, rfl⟩)

open Lib.Comp (Returns bind_eq_ok bind_run_ok exists_of_value)

section
variable {σ α β : Type} {c c' : CameraWorld σ} {camera : Camera σ}

/-! ### Who holds the camera -/

/-- `camera->pc->used`. -/
def CameraWorld.used (c : CameraWorld σ) : Option UInt8 := c.camera.map (·.used)

/-- The camera is held as it was before. -/
def SameUsed (c c' : CameraWorld σ) : Prop := c'.used = c.used

instance : IsPreorder (CameraWorld σ) SameUsed where
  refl _ := rfl
  trans _ _ _ h h' := h'.trans h

/-- Where `m` returns a value, the camera is held as it was before. -/
abbrev KeepsUsed (m : Cm σ α) : Prop := Returns SameUsed m

/-- Whatever `m` returns, the camera is held as it was before. -/
abbrev AlwaysKeepsUsed (m : Cm σ α) : Prop := Comp.Keeps (fun _ => True) SameUsed m

theorem alwaysKeepsUsed_derefCamera : AlwaysKeepsUsed (derefCamera : Cm σ (Camera σ)) := by
  intro c r c' _ h
  unfold derefCamera at h
  cases hcamera : c.camera with
  | none =>
    rw [hcamera] at h
    cases h
  | some camera =>
    rw [hcamera] at h
    cases h
    exact ⟨trivial, rfl⟩

theorem alwaysKeepsUsed_modifyCamera {g : Camera σ → Camera σ}
    (hg : ∀ camera, (g camera).used = camera.used) : AlwaysKeepsUsed (modifyCamera g) := by
  intro c r c' _ h
  unfold modifyCamera at h
  cases hcamera : c.camera with
  | none =>
    rw [hcamera] at h
    cases h
  | some camera =>
    rw [hcamera] at h
    cases h
    refine ⟨trivial, ?_⟩
    show (some (g camera)).map _ = c.camera.map _
    rw [hcamera, Option.map_some, Option.map_some, hg]

theorem alwaysKeepsUsed_runFs (m : Fs σ α) : AlwaysKeepsUsed (runFs m) := by
  intro c r c' _ h
  unfold runFs at h
  obtain ⟨p, -, hp⟩ := Option.map_eq_some_iff.mp h
  cases hp
  exact ⟨trivial, rfl⟩

theorem alwaysKeepsUsed_cameraFs (m : CameraFilesystemFuncs σ → Fs σ α) :
    AlwaysKeepsUsed (cameraFs m) :=
  alwaysKeepsUsed_derefCamera.bind fun _ => alwaysKeepsUsed_runFs _

theorem alwaysKeepsUsed_callOutside (g : σ → α × σ) : AlwaysKeepsUsed (callOutside g) :=
  alwaysKeepsUsed_runFs _

theorem alwaysKeepsUsed_stopTimeout (id : UInt32) :
    AlwaysKeepsUsed (gpCameraStopTimeout id : Cm σ Unit) := by
  refine alwaysKeepsUsed_derefCamera.bind fun camera => ?_
  cases camera.timeoutStopFunc with
  | none => exact .pure _
  | some stopFunc =>
    refine .ite (fun _ => ?_) fun _ => .pure _
    refine (alwaysKeepsUsed_modifyCamera ?_).bind fun _ => ?_
    · exact fun _ => rfl
    exact (alwaysKeepsUsed_callOutside _).bind fun _ =>
      .modify fun _ _ => ⟨trivial, rfl⟩

theorem alwaysKeepsUsed_stopPending (rounds : Nat) :
    AlwaysKeepsUsed (stopPending rounds : Cm σ Unit) := by
  induction rounds with
  | zero => exact .stuck
  | succ n ih =>
    refine alwaysKeepsUsed_derefCamera.bind fun camera => ?_
    cases camera.timeoutIds with
    | nil => exact .pure _
    | cons id ids => exact (alwaysKeepsUsed_stopTimeout id).bind fun _ => ih

theorem alwaysKeepsUsed_startTimeout (timeout : UInt32) :
    AlwaysKeepsUsed (gpCameraStartTimeout timeout : Cm σ UInt32) := by
  refine alwaysKeepsUsed_derefCamera.bind fun camera => ?_
  cases camera.timeoutStartFunc with
  | none => exact .throw _
  | some startFunc =>
    refine (alwaysKeepsUsed_callOutside _).bind fun id => ?_
    refine .ite (fun _ => .throw _) fun _ => ?_
    refine (alwaysKeepsUsed_modifyCamera ?_).bind fun _ => .pure _
    exact fun _ => rfl

variable (out : CameraOutside σ)

theorem alwaysKeepsUsed_exitClose : AlwaysKeepsUsed (exitClose out) := by
  refine (alwaysKeepsUsed_callOutside _).bind fun _ => ?_
  refine (alwaysKeepsUsed_modifyCamera ?_).bind fun _ => ?_
  · exact fun _ => rfl
  exact (alwaysKeepsUsed_cameraFs _).attempt.bind fun _ => .pure _

theorem alwaysKeepsUsed_exit : AlwaysKeepsUsed (gpCameraExit out) := by
  refine alwaysKeepsUsed_derefCamera.bind fun camera => ?_
  refine alwaysKeepsUsed_derefCamera.bind fun camera => .ite (fun _ => ?_) fun _ => ?_
  · exact alwaysKeepsUsed_modifyCamera fun _ => rfl
  refine (alwaysKeepsUsed_stopPending _).bind fun _ =>
    alwaysKeepsUsed_derefCamera.bind fun camera => ?_
  cases camera.functions.exit with
  | none => exact alwaysKeepsUsed_exitClose out
  | some exit => exact (alwaysKeepsUsed_callOutside _).bind fun _ => alwaysKeepsUsed_exitClose out

theorem keepsUsed_exitIfLoaded : KeepsUsed (exitIfLoaded out) :=
  .of_keeps (alwaysKeepsUsed_derefCamera.bind fun _ =>
    .ite (fun _ => alwaysKeepsUsed_exit out) fun _ => .pure _)

/-- A failure is passed on, so that the macro returns a value only if what it checks does. -/
theorem keepsUsed_cameraResult {m : Cm σ α} (hm : KeepsUsed m) :
    KeepsUsed (cameraResult out m) := by
  refine hm.attempt_bind (fun a => Returns.pure a) fun e s b s' h => ?_
  obtain ⟨_, _, -, h⟩ := bind_eq_ok.mp h
  cases h

theorem keepsUsed_derefCamera : KeepsUsed (derefCamera : Cm σ (Camera σ)) :=
  .of_keeps alwaysKeepsUsed_derefCamera

theorem keepsUsed_callOutside (g : σ → α × σ) : KeepsUsed (callOutside g) :=
  .of_keeps (alwaysKeepsUsed_callOutside g)

theorem keepsUsed_modifyCamera {g : Camera σ → Camera σ}
    (hg : ∀ camera, (g camera).used = camera.used) : KeepsUsed (modifyCamera g) :=
  .of_keeps (alwaysKeepsUsed_modifyCamera hg)

/-! ### Getting at the camera -/

theorem keepsUsed_setAbilities (abilities : CameraAbilities) :
    KeepsUsed (gpCameraSetAbilities out abilities) := by
  refine (keepsUsed_exitIfLoaded out).bind fun _ => ?_
  exact keepsUsed_modifyCamera fun _ => rfl

theorem keepsUsed_setPortInfo (info : PortInfo) : KeepsUsed (gpCameraSetPortInfo out info) := by
  refine (keepsUsed_exitIfLoaded out).bind fun _ => ?_
  refine keepsUsed_cameraResult out ((keepsUsed_modifyCamera ?_).bind fun _ => ?_)
  · exact fun _ => rfl
  exact (keepsUsed_callOutside _).bind fun _ => Returns.ofExcept _

theorem keepsUsed_autodetect : KeepsUsed (autodetect out) := by
  refine (keepsUsed_callOutside _).bind fun list => ?_
  refine Returns.ite (fun _ => Returns.throw _) fun _ => ?_
  refine keepsUsed_derefCamera.bind fun camera => ?_
  cases pickDetected camera.port list with
  | none => exact Returns.throw _
  | some entry =>
    refine (keepsUsed_cameraResult out (keepsUsed_setAbilities out entry.1)).bind fun _ => ?_
    refine (keepsUsed_callOutside _).bind fun info => ?_
    exact keepsUsed_cameraResult out (keepsUsed_setPortInfo out info)

theorem keepsUsed_chooseModel : KeepsUsed (chooseModel out) :=
  keepsUsed_derefCamera.bind fun _ =>
    Returns.ite (fun _ => keepsUsed_autodetect out) fun _ => Returns.pure _

theorem keepsUsed_findPort : KeepsUsed (findPort out) := by
  refine keepsUsed_derefCamera.bind fun camera => ?_
  refine Returns.ite (fun _ => Returns.pure _) fun _ => ?_
  refine Returns.ite (fun _ => Returns.throw _) fun _ => ?_
  refine Returns.ite (fun _ => ?_) fun _ => Returns.pure _
  refine (keepsUsed_callOutside _).bind fun answer => ?_
  cases answer with
  | ok _ => exact Returns.pure _
  | error e =>
    refine keepsUsed_cameraResult out ?_
    exact (keepsUsed_callOutside _).bind fun _ => Returns.ofExcept _

theorem keepsUsed_loadLibrary : KeepsUsed (loadLibrary out) := by
  refine keepsUsed_derefCamera.bind fun camera => (keepsUsed_callOutside _).bind fun loaded => ?_
  refine (keepsUsed_modifyCamera ?_).bind fun _ => ?_
  · exact fun _ => rfl
  refine Returns.ite (fun _ => ?_) fun _ => Returns.throw _
  cases out.cameraInit camera.a.library with
  | some init => exact Returns.pure _
  | none =>
    refine (keepsUsed_modifyCamera ?_).bind fun _ => Returns.throw _
    exact fun _ => rfl

theorem keepsUsed_openPort : KeepsUsed (openPort out) := by
  refine keepsUsed_derefCamera.bind fun camera => ?_
  refine Returns.ite (fun _ => Returns.pure _) fun _ => ?_
  refine (keepsUsed_callOutside _).bind fun answer => ?_
  cases answer with
  | ok _ => exact Returns.pure _
  | error r =>
    refine (keepsUsed_modifyCamera ?_).bind fun _ => Returns.throw _
    exact fun _ => rfl

theorem keepsUsed_callCameraInit (init : σ → (Except Int Unit × DriverSetup σ) × σ) :
    KeepsUsed (callCameraInit init) := by
  refine (keepsUsed_callOutside _).bind fun answer => (keepsUsed_modifyCamera ?_).bind fun _ => ?_
  · exact fun _ => rfl
  refine Returns.bind (.of_keeps (.forM fun timeout _ => ?_)) fun _ =>
    Returns.ofExcept _
  exact (alwaysKeepsUsed_startTimeout timeout).attempt.bind fun _ => .pure _

theorem keepsUsed_init : KeepsUsed (gpCameraInit out) := by
  refine (keepsUsed_modifyCamera ?_).bind fun _ => (keepsUsed_chooseModel out).bind fun _ => ?_
  · exact fun _ => rfl
  refine (keepsUsed_findPort out).bind fun _ => (keepsUsed_loadLibrary out).bind fun init => ?_
  refine (keepsUsed_openPort out).bind fun _ => ?_
  refine (keepsUsed_callCameraInit init).attempt_bind (fun _ => Returns.pure _)
    fun r s b s' h => ?_
  -- A failure of the driver is handed on.
  obtain ⟨_, _, -, h⟩ := bind_eq_ok.mp h
  obtain ⟨_, _, -, h⟩ := bind_eq_ok.mp h
  cases h

theorem keepsUsed_checkFunc (func : CameraFunctions σ → Option (σ → Except Int Unit × σ)) :
    KeepsUsed (checkFunc out func) := by
  refine keepsUsed_derefCamera.bind fun camera => ?_
  cases func camera.functions with
  | none => exact Returns.pure _
  | some f =>
    exact keepsUsed_cameraResult out ((keepsUsed_callOutside f).bind fun _ =>
      Returns.ofExcept _)

/-! ### The fallback -/

/-- `CHECK_INIT` gives the camera to nobody else. -/
theorem checkInit_used (h : checkInit out c = some (.ok (), c')) : c'.used = some 1 := by
  obtain ⟨camera, hcamera, hheld⟩ := derefCamera_bind_eq_some.mp h
  by_cases hused : camera.used = 0
  · rw [if_neg (not_not_intro hused), bind_run_ok (modifyCamera_run hcamera _)] at hheld
    have hrest : KeepsUsed (if camera.lh then pure () else cameraResult out (gpCameraInit out)) :=
      Returns.ite (fun _ => Returns.pure _) fun _ =>
        keepsUsed_cameraResult out (keepsUsed_init out)
    have hkept : c'.used = some (camera.used + 1) := hrest _ _ _ hheld
    rw [hkept, hused]
    rfl
  · rw [if_pos hused] at hheld
    cases hheld

theorem askFilesystem_used {folder file : CString} {context : GPContext}
    {result : Except Int CameraFileInfo}
    (h : askFilesystem out folder file context c = some (.ok result, c')) :
    c'.used = some 1 := by
  obtain ⟨_, c₁, hinit, h⟩ := bind_eq_ok.mp h
  have hrest : KeepsUsed (do
      checkOpen out
      let result ← Comp.attempt
        (cameraFs fun funcs => gpFilesystemGetInfo funcs folder file context)
      checkClose out
      pure result) := by
    refine (keepsUsed_checkFunc out _).bind fun _ => ?_
    refine Returns.bind (.of_keeps (alwaysKeepsUsed_cameraFs _).attempt) fun result => ?_
    exact (keepsUsed_checkFunc out _).bind fun _ => Returns.pure _
  have hkept : c'.used = c₁.used := hrest _ _ _ h
  rw [hkept, checkInit_used out hinit]

/-- `gp_camera_file_get` is refused while another operation holds the camera. -/
theorem fileGet_busy (h : c.used = some 1) (folder file : CString) (type : CameraFileType)
    (cameraFile : CameraFileRef) (context : GPContext) :
    gpCameraFileGet out folder file type cameraFile context c =
      some (.error gpErrorCameraBusy, c) := by
  obtain ⟨camera, hcamera, hused⟩ := Option.map_eq_some_iff.mp h
  have hinit : checkInit out c = some (.error gpErrorCameraBusy, c) := by
    unfold checkInit
    rw [bind_run_ok (derefCamera_run hcamera), if_pos (by rw [hused]; decide)]
    rfl
  exact Comp.bind_run_error hinit

theorem infoFromPreview_run (h : c.used = some 1) (folder file : CString)
    (cfile : CameraFileRef) (context : GPContext) :
    ∃ c', infoFromPreview out folder file cfile context c =
      some (.ok CameraFileInfo.zero, c') := by
  have hrefused := fileGet_busy out
    (c := { c with world := c.world.setCameraFile cfile gpFileNew }) h folder file .preview
    cfile context
  unfold infoFromPreview
  rw [bind_run_ok (runFs_run (modifyCameraFile_run _ _ _)),
    bind_run_ok (Comp.attempt_eq_some.mpr ⟨_, hrefused, rfl⟩)]
  exact ⟨_, rfl⟩

/-- `gp_camera_file_get_info` succeeds, with the size and the type of the preview. -/
def FillsPreview (folder file : CString) (cfile : CameraFileRef) (context : GPContext)
    (c : CameraWorld σ) : Prop :=
  ∃ info c', gpCameraFileGetInfo out folder file cfile context c = some (.ok info, c') ∧
    hasField info.preview.fields gpFileInfoSize ∧ hasField info.preview.fields gpFileInfoType

/-- Wherever the filesystem cannot deliver file info, the nested `gp_camera_file_get` is refused
because of the outer call's own use of the camera, and nothing is filled in. -/
theorem fileGetInfo_never_fills {folder file : CString} {cfile : CameraFileRef}
    {context : GPContext}
    (hask : askFilesystem out folder file context c =
      some (.ok (.error gpErrorNotSupported), c')) :
    gpCameraFileGet out folder file .preview cfile context c' =
      some (.error gpErrorCameraBusy, c') ∧
    ¬ FillsPreview out folder file cfile context c := by
  have hused := askFilesystem_used out hask
  refine ⟨fileGet_busy out hused _ _ _ _ _, fun hfills => ?_⟩
  obtain ⟨info, c₁, hrun, hsize, -⟩ := hfills
  obtain ⟨c₂, hpreview⟩ := infoFromPreview_run out hused folder file cfile context
  unfold gpCameraFileGetInfo at hrun
  rw [bind_run_ok hask, if_neg (not_not_intro rfl), bind_run_ok hpreview] at hrun
  obtain ⟨_, _, -, hrun⟩ := bind_eq_ok.mp hrun
  cases hrun
  cases hsize

end

/-! ### A camera that can only send previews -/

/-- A driver with one file `p`, which does not support file info. -/
def previewFuncs : CameraFilesystemFuncs Unit :=
  { CameraFilesystemFuncs.none with
    fileListFunc := some fun _ s => (.ok [['p']], s)
    getFileFunc := some fun _ _ _ file s => ((.ok (), { file with data := [1, 2, 3] }), s) }

/-- A camera with this driver. -/
def previewCamera : CameraWorld Unit :=
  { CameraWorld.new () with
    camera := some { Camera.new Unit with lh := true, fsFuncs := previewFuncs } }

/-- The preview can be fetched, but its size and type are not filled in. -/
theorem preview_not_filled : ¬ ∀ (c : CameraWorld Unit) (folder file : CString)
    (cfile : CameraFileRef) (context : GPContext),
    (∃ c', askFilesystem serialCamera folder file context c =
      some (.ok (.error gpErrorNotSupported), c')) →
    (∃ c', gpCameraFileGet serialCamera folder file .preview cfile context c =
      some (.ok (), c')) →
    FillsPreview serialCamera folder file cfile context c := by
  intro h
  obtain ⟨c₁, hask⟩ := exists_of_value
    (show (askFilesystem serialCamera ['/'] ['p'] .null previewCamera).map (·.1.toOption) =
      some (some (.error gpErrorNotSupported)) by decide +kernel)
  obtain ⟨c₂, hget⟩ := exists_of_value
    (show (gpCameraFileGet serialCamera ['/'] ['p'] .preview 0 .null previewCamera).map
      (·.1.toOption) = some (some ()) by decide +kernel)
  obtain ⟨c₃, hinfo⟩ := exists_of_value
    (show (gpCameraFileGetInfo serialCamera ['/'] ['p'] 0 .null previewCamera).map
      (·.1.toOption) = some (some CameraFileInfo.zero) by decide +kernel)
  obtain ⟨info, c₄, hrun, hsize, -⟩ := h previewCamera ['/'] ['p'] 0 .null ⟨c₁, hask⟩ ⟨c₂, hget⟩
  rw [hinfo, Option.some.injEq, Prod.mk.injEq, Except.ok.injEq] at hrun
  rw [← hrun.1] at hsize
  cases hsize

/-- The same camera: the preview is refused. -/
theorem fileGetInfo_never_fills_preview : ∃ c',
    askFilesystem serialCamera ['/'] ['p'] .null previewCamera =
      some (.ok (.error gpErrorNotSupported), c') ∧
    ¬ FillsPreview serialCamera ['/'] ['p'] 0 .null previewCamera := by
  obtain ⟨c', hask⟩ := exists_of_value
    (show (askFilesystem serialCamera ['/'] ['p'] .null previewCamera).map (·.1.toOption) =
      some (some (.error gpErrorNotSupported)) by decide +kernel)
  exact ⟨c', hask, (fileGetInfo_never_fills serialCamera hask).2⟩

end GPhoto2
