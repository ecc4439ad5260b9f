import GPhoto2.Proofs.Filesys.LookupFolder

/-!
# `GPhoto2.Proofs.Filesys.LookupEnds`: when `lookup_folder` comes to an end

`lookup_folder` lists a dirty folder on its way, and the listing looks the folder up again, from
the root. If another folder above is dirty as well, because its own listing failed, it is listed
once more then. When that succeeds, all its subfolders are freed, and with them the folder that
the first lookup still points to.

`looksUp_iff`: whatever the driver and the frontend answer, the lookup returns what the path leads
to, if and only if at most one of the folders that the path goes through is marked dirty.
-/

set_option autoImplicit false

namespace GPhoto2

open Lib Relation
open Option (bind_eq_some_iff bind_some)
open Lib.Comp (bind_run_ok)
open NameTree (child_eq_some walk_append walk_concat)

variable {σ : Type}

/-- The folder is marked dirty. -/
def World.DirtyAt (w : World σ) (q : FolderAddr) : Prop :=
  ∃ fo, w.fs.folders q = some fo ∧ fo.foldersDirty = true

/-- From `p`, the path goes through the folder `q`, where its part `pre` leads. -/
structure World.Passes (w : World σ) (p : FolderAddr) (names pre : List CString)
    (q : FolderAddr) : Prop where
  isPrefix : pre <+: names
  proper : pre ≠ names
  leads : w.tree.walk p pre = some q

/-- No folder that the path goes through is dirty. -/
def World.AllClean (w : World σ) (p : FolderAddr) (names : List CString) : Prop :=
  ∀ pre q, w.Passes p names pre q → ¬ w.DirtyAt q

/-- At most one folder that the path goes through is dirty. -/
def World.OneDirty (w : World σ) (p : FolderAddr) (names : List CString) : Prop :=
  ∀ pre pre' q q', w.Passes p names pre q → w.Passes p names pre' q' →
    w.DirtyAt q → w.DirtyAt q' → pre = pre'

section
variable {w w' : World σ} {p q c : FolderAddr} {name : CString} {names pre : List CString}

/-! ### The folders on the way -/

theorem not_passes_nil : ¬ w.Passes p [] pre q := fun h =>
  h.proper (List.prefix_nil.mp h.isPrefix)

theorem passes_start : w.Passes p (name :: names) [] p where
  isPrefix := List.nil_prefix
  proper h := by cases h
  leads := rfl

theorem Passes.cons (h : w.Passes c names pre q) (hc : w.tree.child p name = some c) :
    w.Passes p (name :: names) (name :: pre) q where
  isPrefix := (List.prefix_cons_inj name).mpr h.isPrefix
  proper he := h.proper (List.cons.inj he).2
  leads := by
    rw [NameTree.walk, hc, bind_some, h.leads]

theorem passes_cons (h : w.Passes p (name :: names) pre q) : pre = [] ∧ q = p ∨
    ∃ c pre', pre = name :: pre' ∧ w.tree.child p name = some c ∧ w.Passes c names pre' q := by
  cases pre with
  | nil => exact Or.inl ⟨rfl, (Option.some.inj h.leads).symm⟩
  | cons n pre =>
    obtain ⟨rfl, hpre⟩ := List.cons_prefix_cons.mp h.isPrefix
    obtain ⟨c, hc, hwalk⟩ := bind_eq_some_iff.mp h.leads
    exact Or.inr ⟨c, pre, rfl, hc, hpre, fun he => h.proper (by rw [he]), hwalk⟩

theorem AllClean.start (h : w.AllClean p (name :: names)) : ¬ w.DirtyAt p :=
  h [] p passes_start

theorem AllClean.tail (h : w.AllClean p (name :: names)) (hc : w.tree.child p name = some c) :
    w.AllClean c names := fun _ _ hpass => h _ _ (Passes.cons hpass hc)

theorem allClean_cons (hp : ¬ w.DirtyAt p)
    (h : ∀ c, w.tree.child p name = some c → w.AllClean c names) :
    w.AllClean p (name :: names) := by
  intro pre q hpass
  obtain ⟨-, rfl⟩ | ⟨c, pre', -, hc, hpass'⟩ := passes_cons hpass
  · exact hp
  · exact h c hc pre' q hpass'

theorem allClean_concat (h : w.AllClean p names) (hwalk : w.tree.walk p names = some q)
    (hq : ¬ w.DirtyAt q) : w.AllClean p (names ++ [name]) := by
  induction names generalizing p with
  | nil =>
    obtain rfl := Option.some.inj hwalk
    exact allClean_cons hq fun _ _ _ _ hpass => absurd hpass not_passes_nil
  | cons n names ih =>
    obtain ⟨c, hc, hwalk⟩ := bind_eq_some_iff.mp hwalk
    refine allClean_cons (AllClean.start h) fun c' hc' => ?_
    rw [hc, Option.some.injEq] at hc'
    exact ih (hc' ▸ AllClean.tail h hc) (hc' ▸ hwalk)

theorem OneDirty.tail (h : w.OneDirty p (name :: names)) (hc : w.tree.child p name = some c) :
    w.OneDirty c names := by
  intro pre pre' q q' hpass hpass' hq hq'
  exact (List.cons.inj (h _ _ q q' (Passes.cons hpass hc) (Passes.cons hpass' hc) hq hq')).2

theorem OneDirty.allClean (h : w.OneDirty p (name :: names)) (hp : w.DirtyAt p)
    (hc : w.tree.child p name = some c) : w.AllClean c names := by
  intro pre q hpass hq
  cases h _ _ p q passes_start (Passes.cons hpass hc) hp hq

theorem oneDirty_of_empty (hempty : w.tree.folders c = []) : w.OneDirty c names := by
  have hnil : ∀ pre q, w.Passes c names pre q → pre = [] := by
    intro pre q hpass
    cases pre with
    | nil => rfl
    | cons n pre =>
      obtain ⟨d, hd, -⟩ := bind_eq_some_iff.mp hpass.leads
      have hmem := (child_eq_some hd).1
      rw [hempty] at hmem
      cases hmem
  intro pre pre' q q' hpass hpass' _ _
  rw [hnil pre q hpass, hnil pre' q' hpass']

theorem exists_first_dirty (h : ¬ w.AllClean p names) : ∃ n₁ name n₂ q,
    names = n₁ ++ name :: n₂ ∧ w.tree.walk p n₁ = some q ∧ w.DirtyAt q ∧ w.AllClean p n₁ := by
  induction names generalizing p with
  | nil => exact absurd (fun _ _ hpass => absurd hpass not_passes_nil) h
  | cons name names ih =>
    by_cases hp : w.DirtyAt p
    · exact ⟨[], name, names, p, rfl, rfl, hp, fun _ _ hpass => absurd hpass not_passes_nil⟩
    · obtain ⟨c, hc, hnot⟩ : ∃ c, w.tree.child p name = some c ∧ ¬ w.AllClean c names := by
        by_contra hall
        refine h (allClean_cons hp fun c hc => ?_)
        by_contra hnot
        exact hall ⟨c, hc, hnot⟩
      obtain ⟨n₁, n, n₂, q, rfl, hwalk, hq, hclean⟩ := ih hnot
      refine ⟨name :: n₁, n, n₂, q, rfl, ?_, hq, allClean_cons hp fun c' hc' => ?_⟩
      · rw [NameTree.walk, hc, bind_some, hwalk]
      · rw [hc, Option.some.injEq] at hc'
        exact hc' ▸ hclean

theorem exists_two_dirty (h : ¬ w.OneDirty p names) : ∃ n₁ name n₂ q c,
    names = n₁ ++ name :: n₂ ∧ w.tree.walk p n₁ = some q ∧ w.DirtyAt q ∧ w.AllClean p n₁ ∧
      w.tree.child q name = some c ∧ ¬ w.AllClean c n₂ := by
  induction names generalizing p with
  | nil => exact absurd (fun _ _ _ _ hpass => absurd hpass not_passes_nil) h
  | cons name names ih =>
    cases hchild : w.tree.child p name with
    | none =>
      have hstart : ∀ pre q, w.Passes p (name :: names) pre q → pre = [] := by
        intro pre q hpass
        obtain ⟨hnil, -⟩ | ⟨c, -, -, hc, -⟩ := passes_cons hpass
        · exact hnil
        · rw [hchild] at hc
          cases hc
      refine absurd (fun pre pre' q q' hpass hpass' _ _ => ?_) h
      rw [hstart pre q hpass, hstart pre' q' hpass']
    | some c =>
      by_cases hp : w.DirtyAt p
      · refine ⟨[], name, names, p, c, rfl, rfl, hp,
          fun _ _ hpass => absurd hpass not_passes_nil, hchild, fun hclean => h ?_⟩
        -- Were all clean behind it, it would be the only one.
        have hstart : ∀ pre q, w.Passes p (name :: names) pre q → w.DirtyAt q → pre = [] := by
          intro pre q hpass hq
          obtain ⟨hnil, -⟩ | ⟨c', pre', -, hc, hpass'⟩ := passes_cons hpass
          · exact hnil
          · rw [hchild, Option.some.injEq] at hc
            exact absurd hq (hclean pre' q (hc ▸ hpass'))
        intro pre pre' q q' hpass hpass' hq hq'
        rw [hstart pre q hpass hq, hstart pre' q' hpass' hq']
      · have hnot : ¬ w.OneDirty c names := by
          refine fun hone => h fun pre pre' q q' hpass hpass' hq hq' => ?_
          obtain ⟨-, rfl⟩ | ⟨d, t, rfl, hd, ht⟩ := passes_cons hpass
          · exact absurd hq hp
          obtain ⟨-, rfl⟩ | ⟨d', t', rfl, hd', ht'⟩ := passes_cons hpass'
          · exact absurd hq' hp
          rw [hchild, Option.some.injEq] at hd hd'
          rw [hone t t' q q' (hd ▸ ht) (hd' ▸ ht') hq hq']
        obtain ⟨n₁, n, n₂, q, c', rfl, hwalk, hq, hclean, hc', hrest⟩ := ih hnot
        refine ⟨name :: n₁, n, n₂, q, c', rfl, ?_, hq, allClean_cons hp fun d hd => ?_, hc', hrest⟩
        · rw [NameTree.walk, hchild, bind_some, hwalk]
        · rw [hchild, Option.some.injEq] at hd
          exact hd ▸ hclean

theorem Passes.of_tree (h : w'.Passes p names pre q) (htree : w'.tree = w.tree) :
    w.Passes p names pre q where
  isPrefix := h.isPrefix
  proper := h.proper
  leads := by rw [← htree, h.leads]

theorem tree_of_fs (hfs : w'.fs = w.fs) (hbrk : w'.brk = w.brk) : w'.tree = w.tree := by
  unfold World.tree
  rw [hfs, hbrk]

theorem AllClean.of_tree (h : w.AllClean p names) (htree : w'.tree = w.tree)
    (hdirty : ∀ q, w'.DirtyAt q → w.DirtyAt q) : w'.AllClean p names :=
  fun pre q hpass hq => h pre q (Passes.of_tree hpass htree) (hdirty q hq)

theorem le_of_walk (hwf : w.tree.Wf) (h : w.tree.walk p pre = some q) : p ≤ q := by
  induction pre generalizing p with
  | nil => exact Nat.le_of_eq (Option.some.inj h)
  | cons n pre ih =>
    obtain ⟨c, hc, h⟩ := bind_eq_some_iff.mp h
    exact Nat.le_trans (Nat.le_of_lt (hwf.child_gt (child_eq_some hc).1)) (ih h)

theorem lt_of_walk (hwf : w.tree.Wf) (h : w.tree.walk p pre = some q) (hpre : pre ≠ []) :
    p < q := by
  cases pre with
  | nil => exact absurd rfl hpre
  | cons n pre =>
    obtain ⟨c, hc, h⟩ := bind_eq_some_iff.mp h
    exact Nat.lt_of_lt_of_le (hwf.child_gt (child_eq_some hc).1) (le_of_walk hwf h)

theorem not_dirtyAt {fo : CameraFilesystemFolder} (hp : w.fs.folders p = some fo)
    (hclean : fo.foldersDirty ≠ true) : ¬ w.DirtyAt p := by
  intro hd
  obtain ⟨fo', hfo', hd⟩ := hd
  rw [hp, Option.some.injEq] at hfo'
  exact hclean (hfo' ▸ hd)

/-- What a listing of the folder at `p` leaves of the folders above it. -/
theorem allClean_above (hwf : w.tree.Wf) (heffect : LookupEffect w w')
    (hwalk : w.tree.walk rootfolder names = some p)
    (hsmall : ∀ q, q < p → w'.fs.folders q = w.fs.folders q)
    (h : w.AllClean rootfolder names) : w'.AllClean rootfolder names := by
  intro pre q hpass hdirty
  obtain ⟨rest, rfl⟩ := hpass.isPrefix
  have hrest : rest ≠ [] := fun he => hpass.proper (by rw [he, List.append_nil])
  rw [walk_append] at hwalk
  obtain ⟨q₀, hq₀, hwalk⟩ := bind_eq_some_iff.mp hwalk
  obtain ⟨fo, hfo⟩ := walk_root_alive hwf hq₀
  have hsame := hsmall q₀ (lt_of_walk hwf hwalk hrest)
  have hq : w'.tree.walk rootfolder pre = some q₀ :=
    heffect.walk hwf hq₀ (hsame.trans hfo)
  rw [hpass.leads, Option.some.injEq] at hq
  subst hq
  obtain ⟨fo', hfo', hd⟩ := hdirty
  exact h pre q ⟨List.prefix_append pre rest, hpass.proper, hq₀⟩ ⟨fo', by rwa [← hsame], hd⟩

theorem allClean_after {fo : CameraFilesystemFolder} (hwf : w.tree.Wf)
    (heffect : LookupEffect w w') (hp : w.fs.folders p = some fo)
    (hclean : fo.foldersDirty ≠ true) (hp' : w'.fs.folders p = some fo)
    (hc : w.tree.child p name = some c) (h : w'.AllClean c names) :
    w'.AllClean p (name :: names) := by
  refine allClean_cons (not_dirtyAt hp' hclean) fun c' hc' => ?_
  -- The subfolder is still there, so it is found again.
  have hmem : c ∈ w'.tree.folders p := by
    rw [tree_folders hp', ← tree_folders hp]
    exact (child_eq_some hc).1
  obtain ⟨co, hco⟩ := folderName_ne_none.mp ((heffect.wf hwf).child_alive hmem)
  have hwalk : w.tree.walk p [name] = some c := by
    rw [NameTree.walk, hc]
    rfl
  obtain ⟨d, hd, hlast⟩ := bind_eq_some_iff.mp (heffect.walk hwf hwalk hco)
  rw [hd, Option.some.injEq] at hc'
  cases hlast
  exact hc' ▸ h

/-! ### Looking up a path without a dirty folder -/

section
variable {listFolders : CString → Fs σ (List CString)} {copy : CString}
  {fo : CameraFilesystemFolder} {rest : List (CString × CString)}

section
variable (hp : w.fs.folders p = some fo)
include hp

theorem lookupFolderEnd_run :
    lookupFolderEnd listFolders p name rest w =
      (w.tree.child p name).elim (some (.ok none, w)) fun c =>
        lookupFolderLoop listFolders c rest w := by
  unfold lookupFolderEnd
  rw [bind_run_ok (derefFolder_run hp), Comp.get_bind_run, findFolder_eq_child hp]
  cases w.tree.child p name <;> rfl

theorem lookupFolderLoop_cons_clean (hclean : fo.foldersDirty ≠ true) :
    lookupFolderLoop listFolders p ((copy, name) :: rest) w =
      (w.tree.child p name).elim (some (.ok none, w)) fun c =>
        lookupFolderLoop listFolders c rest w := by
  rw [← lookupFolderEnd_run hp, lookupFolderLoop, bind_run_ok (derefFolder_run hp)]
  simp only [if_neg hclean]
  rfl

theorem lookupFolderLoop_cons_dirty {r : Except Int (List CString)}
    (hdirty : fo.foldersDirty = true)
    (hlist : listFolders copy w = some (r, w')) :
    lookupFolderLoop listFolders p ((copy, name) :: rest) w =
      lookupFolderEnd listFolders p name rest w' := by
  have hattempt : Comp.attempt (listFolders copy) w = some (.ok r, w') :=
    Comp.attempt_eq_some.mpr ⟨r, hlist, rfl⟩
  rw [lookupFolderLoop, bind_run_ok (derefFolder_run hp)]
  simp only [if_pos hdirty]
  rw [bind_run_ok hattempt]
  rfl

end

theorem lookupFolderLoop_allClean (listFolders : CString → Fs σ (List CString))
    {s₁ : List (CString × CString)} (s₂ : List (CString × CString)) (hwf : w.tree.Wf)
    (hp : ∃ fo, w.fs.folders p = some fo) (hclean : w.AllClean p (s₁.map Prod.snd)) :
    lookupFolderLoop listFolders p (s₁ ++ s₂) w =
      (w.tree.walk p (s₁.map Prod.snd)).elim (some (.ok none, w)) fun q =>
        lookupFolderLoop listFolders q s₂ w := by
  induction s₁ generalizing p with
  | nil => rfl
  | cons step s₁ ih =>
    obtain ⟨copy, name⟩ := step
    obtain ⟨fo, hfo⟩ := hp
    have hdirty : fo.foldersDirty ≠ true := fun hd => AllClean.start hclean ⟨fo, hfo, hd⟩
    rw [List.cons_append, List.map_cons, NameTree.walk, lookupFolderLoop_cons_clean hfo hdirty]
    cases hchild : w.tree.child p name with
    | none => rfl
    | some c =>
      have hc := folderName_ne_none.mp (hwf.child_alive (child_eq_some hchild).1)
      exact ih hc (AllClean.tail hclean hchild)

theorem lookupFolderEnd_clean (hwf : w.tree.Wf) (hp : w.fs.folders p = some fo)
    (h : ∀ c, w.tree.child p name = some c → w.AllClean c (rest.map Prod.snd)) :
    ∃ r, lookupFolderEnd listFolders p name rest w = some (r, w) := by
  rw [lookupFolderEnd_run hp]
  cases hchild : w.tree.child p name with
  | none => exact ⟨_, rfl⟩
  | some c =>
    have hc := folderName_ne_none.mp (hwf.child_alive (child_eq_some hchild).1)
    have hrun := lookupFolderLoop_allClean listFolders [] hwf hc (h c hchild)
    rw [List.append_nil] at hrun
    show ∃ r, lookupFolderLoop listFolders c rest w = some (r, w)
    rw [hrun]
    cases w.tree.walk c (rest.map Prod.snd) with
    | none => exact ⟨_, rfl⟩
    | some q => exact ⟨.ok (some q), rfl⟩

end

end

section
variable (funcs : CameraFilesystemFuncs σ) {w w' : World σ} {p : FolderAddr}
  {path : CString} {context : GPContext}

theorem lookupFolder_allClean (hwf : w.tree.Wf) (hclean : w.AllClean rootfolder (components path)) :
    lookupFolder funcs path context w =
      some (.ok (w.tree.walk rootfolder (components path)), w) := by
  rw [lookupFolder_eq, ← List.append_nil (pathSteps path),
    lookupFolderLoop_allClean _ [] hwf (root_alive hwf) hclean]
  show (w.tree.walk rootfolder (components path)).elim _ _ = _
  cases w.tree.walk rootfolder (components path) <;> rfl

/-! ### Listing a folder on a clean path -/

/-- There is no frontend, or it never cancels. -/
def Uncancelled (context : GPContext) : Prop :=
  context = .null ∨ ∀ cancel, funcs.cancelFunc = some cancel → ∀ s, (cancel s).1 = false

theorem checkCancel_ends (context : GPContext) (w : World σ) :
    ∃ s, (checkCancel funcs context w = some (.ok (), { w with env := s }) ∧
        (context = .null → s = w.env)) ∨
      (checkCancel funcs context w = some (.error gpErrorCancel, { w with env := s }) ∧
        ¬ Uncancelled funcs context) := by
  cases context with
  | null => exact ⟨w.env, Or.inl ⟨rfl, fun _ => rfl⟩⟩
  | frontend =>
    unfold checkCancel
    cases hcancel : funcs.cancelFunc with
    | none => exact ⟨w.env, Or.inl ⟨rfl, fun _ => rfl⟩⟩
    | some cancel =>
      refine ⟨(cancel w.env).2, ?_⟩
      simp only [callEnv_bind_run]
      by_cases hc : (cancel w.env).1 = true
      · rw [if_pos hc]
        refine Or.inr ⟨rfl, fun hun => ?_⟩
        rcases hun with hnull | hnever
        · cases hnull
        · rw [hnever cancel hcancel] at hc
          cases hc
      · rw [if_neg hc]
        exact Or.inl ⟨rfl, by simp⟩

/-- The path is absolute, leads to a folder, and goes through clean folders only. -/
structure World.LeadsTo (w : World σ) (path : CString) (p : FolderAddr)
    (fo : CameraFilesystemFolder) : Prop where
  absolute : isAbsolute path = true
  walk : w.tree.walk rootfolder (components path) = some p
  clean : w.AllClean rootfolder (components path)
  folder : w.fs.folders p = some fo

variable {fo : CameraFilesystemFolder}

theorem LeadsTo.env (h : w.LeadsTo path p fo) (s : σ)
    (log : List Event) : ({ w with env := s, log := log } : World σ).LeadsTo path p fo where
  absolute := h.absolute
  walk := h.walk
  clean := AllClean.of_tree h.clean rfl fun _ hq => hq
  folder := h.folder

theorem LeadsTo.lookup (h : w.LeadsTo path p fo)
    (hwf : w.tree.Wf) (context : GPContext) :
    lookupFolder funcs path context w = some (.ok (some p), w) := by
  rw [lookupFolder_allClean funcs hwf h.clean, h.walk]

theorem checkAbsolute_run {w : World σ} (h : isAbsolute path = true) :
    checkAbsolute path w = some (.ok (), w) := by
  rw [checkAbsolute, if_pos h]
  rfl

theorem withFolder_ends {α : Type} (context : GPContext)
    (k : FolderAddr → Fs σ α) (hwf : w.tree.Wf) (h : w.LeadsTo path p fo) :
    ∃ s, (withFolder funcs path context k w = k p { w with env := s } ∧
        (context = .null → s = w.env)) ∨
      (withFolder funcs path context k w = some (.error gpErrorCancel, { w with env := s }) ∧
        ¬ Uncancelled funcs context) := by
  obtain ⟨s, ⟨hcancel, hs⟩ | ⟨hcancel, hs⟩⟩ := checkCancel_ends funcs context w
  · refine ⟨s, Or.inl ⟨?_, hs⟩⟩
    have hlookup := LeadsTo.lookup funcs (LeadsTo.env h s w.log) hwf context
    unfold withFolder
    rw [bind_run_ok hcancel, bind_run_ok (checkAbsolute_run h.absolute),
      bind_run_ok hlookup]
  · refine ⟨s, Or.inr ⟨?_, hs⟩⟩
    unfold withFolder
    rw [Comp.bind_run_error hcancel]

theorem deleteAllFolders_ends (context : GPContext)
    (hw : w.Sound) (h : w.LeadsTo path p fo) :
    ∃ r w', deleteAllFolders funcs path context w = some (r, w') ∧
      ((∃ e, r = .error e ∧ w'.fs = w.fs ∧ w'.brk = w.brk ∧ ¬ Uncancelled funcs context) ∨
      (r = .ok () ∧ w'.Sound ∧ w'.brk = w.brk ∧
        w'.fs.folders p = some { fo with folders := [] } ∧
        (∀ q, q < p → w'.fs.folders q = w.fs.folders q) ∧
        ∀ q, q ≠ p → w'.fs.folders q = w.fs.folders q ∨ w'.fs.folders q = none)) := by
  obtain ⟨s, ⟨hcancel, -⟩ | ⟨hcancel, hs⟩⟩ := checkCancel_ends funcs context w
  · have hw₀ : ({ w with env := s } : World σ).Sound := ⟨hw.wf, hw.chain⟩
    have hlookup := LeadsTo.lookup funcs (LeadsTo.env h s w.log) hw.wf context
    obtain ⟨w', hrun, hbrk⟩ := recurseDeleteFolder_ends w.brk hw₀ h.folder
      (Nat.le_add_right _ _)
    obtain ⟨-, hsteps, hfo', hsmall, hother⟩ :=
      recurseDeleteFolder_run w.brk hw₀.wf h.folder hrun
    refine ⟨.ok (), w', ?_, Or.inr ⟨rfl, LookupSteps.sound hsteps hw₀, hbrk, hfo', hsmall,
      hother⟩⟩
    unfold deleteAllFolders deleteAllFoldersWith
    rw [bind_run_ok hcancel, bind_run_ok (checkAbsolute_run h.absolute),
      bind_run_ok hlookup]
    exact hrun
  · refine ⟨.error gpErrorCancel, { w with env := s }, ?_, Or.inl ⟨_, rfl, rfl, rfl, hs⟩⟩
    unfold deleteAllFolders deleteAllFoldersWith
    rw [Comp.bind_run_error hcancel]

theorem appendFolders_ends (names : List CString)
    (hwf : w.tree.Wf) (hp : w.fs.folders p = some fo) :
    ∃ w', appendFolders p names w = some (.ok (), w') := by
  induction names generalizing w fo with
  | nil => exact ⟨w, rfl⟩
  | cons name names ih =>
    have hlt : p < w.brk := hwf.folder_lt (folderName_ne_none.mpr ⟨fo, hp⟩)
    have hone : appendFolderOne p name w = some (.ok w.brk, w.consFolder p fo name) := by
      obtain ⟨w₁, halloc, hw₁⟩ : ∃ w₁, allocFolder (.new name) w = some (.ok w.brk, w₁) ∧
        w₁ = { w.setFolder w.brk (some (.new name)) with brk := w.brk + 1 } := ⟨_, rfl, rfl⟩
      have hp₁ : w₁.fs.folders p = some fo := by
        simp [hw₁, Nat.ne_of_lt hlt, hp]
      unfold appendFolderOne
      rw [bind_run_ok (derefFolder_run hp), bind_run_ok halloc,
        bind_run_ok (modifyFolder_run hp₁ _), hw₁]
      rfl
    have hwf' : (w.consFolder p fo name).tree.Wf := by
      rw [consFolder_tree hwf hp]
      exact hwf.consFolder (folderName_ne_none.mpr ⟨fo, hp⟩) name
    obtain ⟨w', h⟩ := ih hwf' (show (w.consFolder p fo name).fs.folders p =
      some { fo with folders := w.brk :: fo.folders } by simp [World.consFolder])
    refine ⟨w', ?_⟩
    show ((do let _ ← appendFolderOne p name) >>= fun _ => appendFolders p names) w = _
    rw [bind_run_ok ((bind_run_ok hone).trans rfl)]
    exact h

/-- The end of `gp_filesystem_list_folders`. -/
theorem listFoldersClean_run (hp : w.fs.folders p = some fo) :
    listFoldersClean p w = some (.ok (w.fs.folderNames fo.folders),
      w.setFolder p (some { fo with foldersDirty := false })) := by
  unfold listFoldersClean
  rw [bind_run_ok (derefFolder_run hp), Comp.get_bind_run,
    bind_run_ok (modifyFolder_run hp _)]
  rfl

/-- What a new listing of the folder at `p` does to the other folders: its subfolders are new, with
the names that the driver has answered, the old ones are gone, and the folders above are as they
were. -/
structure Relisted (p : FolderAddr) (answer : List CString) (chain : List FolderAddr)
    (w w' : World σ) : Prop where
  small : ∀ q, q < p → w'.fs.folders q = w.fs.folders q
  old : ∀ q, q ≠ p → q < w.brk → w'.fs.folders q = w.fs.folders q ∨ w'.fs.folders q = none
  fresh : ∀ q fo, w.brk ≤ q → w'.fs.folders q = some fo → ∃ name, fo = .new name
  empty : ∀ c ∈ chain, w.brk ≤ c ∧ w'.tree.folders c = []
  nil : answer = [] → chain = []
  tree : ∃ t : NameTree, t.Wf ∧ t.folderName p ≠ none ∧ t.folders p = [] ∧
    (∀ q c, c ∈ t.folders q → c ∈ w.tree.folders q ∧ t.folderName c = w.tree.folderName c) ∧
    w'.tree = t.consFolders p answer

/-- What a listing of the folder at `p` comes to: it is refused, or the folder is marked clean, or
the folder has new subfolders, and nothing above it has changed. -/
inductive Listed (path : CString) (context : GPContext) (p : FolderAddr)
    (fo : CameraFilesystemFolder) (w w' : World σ) : Prop
  | refused (hfs : w'.fs = w.fs) (hbrk : w'.brk = w.brk)
      (hwhy : Uncancelled funcs context → ∃ g e s, funcs.folderListFunc = some g ∧
        g path s = (.error e, w'.env) ∧ (context = .null → s = w.env))
  | clean (hfs : w'.fs = (w.setFolder p (some { fo with foldersDirty := false })).fs)
      (hbrk : w'.brk = w.brk)
      (hwhy : fo.foldersDirty = false ∨ funcs.folderListFunc = none)
  | relisted (g : CString → σ → Except Int (List CString) × σ) (s : σ)
      (answer : List CString) (chain : List FolderAddr)
      (hdirty : fo.foldersDirty = true)
      (hfunc : funcs.folderListFunc = some g) (hanswer : (g path s).1 = .ok answer)
      (henv : context = .null → s = w.env)
      (hp : w'.fs.folders p = some { fo with folders := chain, foldersDirty := false })
      (hother : Relisted p answer chain w w')

theorem relisted_of_append {w₁ w₂ : World σ}
    {answer : List CString} (hwf : w.tree.Wf) (hw₁ : w₁.Sound) (hsteps : w.tree.Stable w₁.tree)
    (hbrk : w₁.brk = w.brk) (hp : w₁.fs.folders p = some { fo with folders := [] })
    (hsmall : ∀ q, q < p → w₁.fs.folders q = w.fs.folders q)
    (hold : ∀ q, q ≠ p → w₁.fs.folders q = w.fs.folders q ∨ w₁.fs.folders q = none)
    (h : appendFolders p answer w₁ = some (.ok (), w₂)) :
    ∃ chain, w₂.fs.folders p = some { fo with folders := chain } ∧
      Relisted p answer chain w (w₂.setFolder p
        (some { fo with folders := chain, foldersDirty := false })) := by
  obtain ⟨-, htree, -, ⟨chain, hchain⟩, hother, hnew⟩ := appendFolders_run hw₁.wf hp h
  have hlt : p < w₁.brk := hw₁.wf.folder_lt (folderName_ne_none.mpr ⟨_, hp⟩)
  have htree' := tree_setFolder_of_same hchain
    { fo with folders := chain, foldersDirty := false } rfl rfl rfl
  have hwf₂ : w₂.tree.Wf := by
    rw [htree]
    exact hw₁.wf.consFolders (folderName_ne_none.mpr ⟨_, hp⟩) answer
  refine ⟨chain, hchain, fun q hq => ?_, fun q hq hlt => ?_, fun q fo' hge hfo' => ?_,
    fun c hc => ?_, fun hnil => ?_, w₁.tree, hw₁.wf, folderName_ne_none.mpr ⟨_, hp⟩,
    tree_folders hp, fun q c hc => ?_, htree'.trans htree⟩
  · rw [World.setFolder_fs_folders, Function.update_of_ne (Nat.ne_of_lt hq),
      hother q (Nat.ne_of_lt hq) (Nat.lt_trans hq hlt), hsmall q hq]
  · rw [World.setFolder_fs_folders, Function.update_of_ne hq, hother q hq (hbrk ▸ hlt)]
    exact hold q hq
  · have hqp : q ≠ p := by
      rintro rfl
      exact absurd (hbrk ▸ hlt) (Nat.not_lt.mpr hge)
    rw [World.setFolder_fs_folders, Function.update_of_ne hqp] at hfo'
    exact hnew q fo' (hbrk ▸ hge) hfo'
  · have hmem : c ∈ w₂.tree.folders p := by rwa [tree_folders hchain]
    have hge : w₁.brk ≤ c := by
      by_contra hlt'
      rw [htree] at hmem
      have hold' := NameTree.mem_consFolders_old answer hmem (Nat.lt_of_not_le hlt')
      rw [tree_folders hp] at hold'
      cases hold'
    obtain ⟨co, hco⟩ := folderName_ne_none.mp (hwf₂.child_alive hmem)
    obtain ⟨name, rfl⟩ := hnew c co hge hco
    refine ⟨hbrk ▸ hge, ?_⟩
    rw [htree']
    exact tree_folders hco
  · subst hnil
    cases h
    rw [hp, Option.some.injEq, CameraFilesystemFolder.mk.injEq] at hchain
    exact hchain.2.2.2.1.symm
  · -- The folders that are left have their old subfolders.
    by_cases hqp : q = p
    · subst hqp
      rw [tree_folders hp] at hc
      cases hc
    · obtain ⟨qo, hqo⟩ := folderName_ne_none.mp (hw₁.wf.parent_alive hc)
      have hsame := (hold q hqp).resolve_right (by rw [hqo]; simp)
      have hmem : c ∈ w.tree.folders q := by
        rw [tree_folders hqo] at hc
        rwa [tree_folders (hsame ▸ hqo)]
      exact ⟨hmem, hsteps.folderName (hwf.folder_lt (hwf.child_alive hmem))
        (hw₁.wf.child_alive hc)⟩

theorem listFolders_eq :
    gpFilesystemListFolders funcs path context =
      withFolder funcs path context (listFoldersFound funcs path context) := by
  funext w
  unfold gpFilesystemListFolders listFoldersWith withFolder
  rfl

/-- A folder on a clean path is listed without a detour. If the frontend does not cancel, an error
is the answer of the driver. -/
theorem listFolders_ends (context : GPContext) (hw : w.Sound)
    (h : w.LeadsTo path p fo) :
    ∃ r w', gpFilesystemListFolders funcs path context w = some (r, w') ∧
      Listed funcs path context p fo w w' ∧
      ∀ e, r = .error e → Uncancelled funcs context →
        ∃ g s, funcs.folderListFunc = some g ∧ (g path s).1 = .error e := by
  rw [listFolders_eq]
  obtain ⟨s, ⟨hrun, hs⟩ | ⟨hrun, hs⟩⟩ := withFolder_ends funcs context
    (listFoldersFound funcs path context) hw.wf h
  · rw [hrun]
    unfold listFoldersFound
    rw [bind_run_ok (derefFolder_run (w := { w with env := s }) h.folder)]
    have hclean := listFoldersClean_run (w := { w with env := s }) h.folder
    cases hdirty : fo.foldersDirty with
    | false => exact ⟨_, _, hclean, .clean rfl rfl (Or.inl hdirty), fun e he => by cases he⟩
    | true =>
      cases hfunc : funcs.folderListFunc with
      | none => exact ⟨_, _, hclean, .clean rfl rfl (Or.inr hfunc), fun e he => by cases he⟩
      | some g =>
        simp only [callEnv_bind_run, trace_bind_run]
        cases hanswer : (g path s).1 with
        | error e =>
          refine ⟨.error e, _, rfl, .refused rfl rfl fun _ => ⟨g, e, s, hfunc, ?_, hs⟩,
            fun e' he _ => ⟨g, s, rfl, ?_⟩⟩
          · rw [← hanswer]
          · rw [hanswer, Except.error.inj he]
        | ok answer =>
          show ∃ r w', (deleteAllFolders funcs path context >>= fun _ =>
            appendFolders p answer >>= fun _ => listFoldersClean p) _ = some (r, w') ∧ _
          generalize hw₁ : ({ w with env := (g path s).2, log := w.log ++
            [.folderListFunc path (.ok answer)] } : World σ) = w₁
          have h₁ : w₁.LeadsTo path p fo := hw₁ ▸ LeadsTo.env h _ _
          have hs₁ : w₁.Sound := hw₁ ▸ ⟨hw.wf, hw.chain⟩
          have hfs₁ : w₁.fs = w.fs := by rw [← hw₁]
          have hbrk₁ : w₁.brk = w.brk := by rw [← hw₁]
          obtain ⟨r, w₂, hdelete, ⟨e, rfl, hfs₂, hbrk₂, hnot⟩ |
              ⟨rfl, hs₂, hbrk₂, hp₂, hsmall₂, hold₂⟩⟩ :=
            deleteAllFolders_ends funcs context hs₁ h₁
          · exact ⟨.error e, w₂, Comp.bind_run_error hdelete,
              .refused (hfs₂.trans hfs₁) (hbrk₂.trans hbrk₁) fun hun => absurd hun hnot,
              fun _ _ hun => absurd hun hnot⟩
          · have htree₁ : w₁.tree = w.tree := tree_of_fs hfs₁ hbrk₁
            have hstable : w.tree.Stable w₂.tree :=
              htree₁ ▸ (deleteAllFoldersWith_run funcs (lookupFolder_run funcs) hs₁.wf
                hdelete).1.stable hs₁.wf
            obtain ⟨w₃, happend⟩ := appendFolders_ends answer hs₂.wf hp₂
            obtain ⟨chain, hp₃, hrelisted⟩ := relisted_of_append hw.wf hs₂ hstable
              (hbrk₂.trans hbrk₁) hp₂ (fun q hq => by rw [hsmall₂ q hq, hfs₁])
              (fun q hq => by rw [← hfs₁]; exact hold₂ q hq) happend
            exact ⟨_, _, (bind_run_ok hdelete).trans ((bind_run_ok happend).trans
              (listFoldersClean_run hp₃)), .relisted g s answer chain hdirty hfunc hanswer hs
                (by simp) hrelisted, fun e he => by cases he⟩
  · exact ⟨_, _, hrun, .refused rfl rfl fun hun => absurd hun hs, fun _ _ hun => absurd hun hs⟩

/-! ### The lookup comes to an end -/

/-- The driver and the frontend let every listing pass. -/
def Answers (context : GPContext) : Prop :=
  Uncancelled funcs context ∧ ∀ g, funcs.folderListFunc = some g →
    ∀ path s, ∃ names, (g path s).1 = .ok names

/-- In the worlds in question every dirty folder is listed anew. -/
def Relists (context : GPContext) (Inv : World σ → Prop) : Prop :=
  ∀ copy p fo w w', Inv w → w.Sound → w.LeadsTo copy p fo → fo.foldersDirty = true →
    Listed funcs copy context p fo w w' → ∃ answer chain,
      w'.fs.folders p = some { fo with folders := chain, foldersDirty := false } ∧
      Relisted p answer chain w w'

/-- Listing a folder on a clean path keeps `Inv`. -/
def KeptByListing (context : GPContext) (Inv : World σ → Prop) : Prop :=
  ∀ copy p fo w w', Inv w → w.Sound → w.LeadsTo copy p fo → LookupEffect w w' →
    Listed funcs copy context p fo w w' → Inv w'

/-- With one dirty folder at most on the way, or listings that all pass, the lookup ends. If every
listing passes, all the folders on the way are clean then. -/
theorem lookupFolderLoop_ends {Inv : World σ → Prop} (hkept : KeptByListing funcs context Inv)
    (hinv : Inv w) (hw : w.Sound) (habsolute : isAbsolute path = true)
    (s₁ : List (CString × CString)) {s₂ : List (CString × CString)}
    (hsteps : pathSteps path = s₁ ++ s₂)
    (hwalk : w.tree.walk rootfolder (s₁.map Prod.snd) = some p)
    (hclean : w.AllClean rootfolder (s₁.map Prod.snd))
    (hone : w.OneDirty p (s₂.map Prod.snd) ∨ Relists funcs context Inv) :
    ∃ r w', lookupFolderLoop (fun copy => gpFilesystemListFolders funcs copy context) p s₂ w =
        some (r, w') ∧ (∀ q, q < p → w'.fs.folders q = w.fs.folders q) ∧
      (Answers funcs context ∨ Relists funcs context Inv → w'.AllClean p (s₂.map Prod.snd)) ∧
      Inv w' := by
  induction s₂ generalizing s₁ p w with
  | nil =>
    exact ⟨_, w, rfl, fun _ _ => rfl, fun _ _ _ hpass => absurd hpass not_passes_nil, hinv⟩
  | cons step s₂ ih =>
    obtain ⟨copy, name⟩ := step
    obtain ⟨fo, hfo⟩ := walk_root_alive hw.wf hwalk
    have hsplit := pathSteps_split hsteps
    have hsteps' : pathSteps path = (s₁ ++ [(copy, name)]) ++ s₂ := by
      rw [hsteps, List.append_assoc]
      rfl
    have hmap : (s₁ ++ [(copy, name)]).map Prod.snd = s₁.map Prod.snd ++ [name] := by simp
    by_cases hdirty : fo.foldersDirty = true
    · have hleads : w.LeadsTo copy p fo :=
        ⟨hsplit.2 habsolute, by rwa [hsplit.1], by rwa [hsplit.1], hfo⟩
      obtain ⟨r₁, w₁, hlist, hlisted, -⟩ := listFolders_ends funcs context hw hleads
      have heffect₁ : LookupEffect w w₁ := (listFolders_run funcs hw.wf hlist).1
      have hw₁ := heffect₁.sound hw
      have hinv₁ := hkept copy p fo w w₁ hinv hw hleads heffect₁ hlisted
      rw [lookupFolderLoop_cons_dirty hfo hdirty hlist]
      -- After a new listing, the subfolders are new and have no subfolders.
      have hrelisted : ∀ answer chain,
          w₁.fs.folders p = some { fo with folders := chain, foldersDirty := false } →
          Relisted p answer chain w w₁ → ∃ r w', lookupFolderEnd (fun copy =>
              gpFilesystemListFolders funcs copy context) p name s₂ w₁ = some (r, w') ∧
            (∀ q, q < p → w'.fs.folders q = w.fs.folders q) ∧
            (Answers funcs context ∨ Relists funcs context Inv →
              w'.AllClean p (((copy, name) :: s₂).map Prod.snd)) ∧ Inv w' := by
        intro answer chain hp hrel
        rw [lookupFolderEnd_run hp]
        have hwalk₁ := heffect₁.walk hw.wf hwalk hp
        have hclean₁ := allClean_above hw.wf heffect₁ hwalk hrel.small hclean
        have hnot : ¬ w₁.DirtyAt p := not_dirtyAt hp (by simp)
        cases hchild : w₁.tree.child p name with
        | none =>
          refine ⟨.ok none, w₁, rfl, hrel.small, fun _ => allClean_cons hnot fun c hc => ?_, hinv₁⟩
          rw [hchild] at hc
          cases hc
        | some c =>
          have hmem : c ∈ chain := by
            have hmem := (child_eq_some hchild).1
            rwa [tree_folders hp] at hmem
          have hgt := hw₁.wf.child_gt (child_eq_some hchild).1
          have hwalk' : w₁.tree.walk rootfolder ((s₁ ++ [(copy, name)]).map Prod.snd) =
              some c := by
            rw [hmap, walk_concat, hwalk₁, bind_some, hchild]
          obtain ⟨r, w', hrun, hframe, hall, hinv'⟩ := ih hinv₁ hw₁ _ hsteps' hwalk'
            (hmap ▸ allClean_concat hclean₁ hwalk₁ hnot)
            (Or.inl (oneDirty_of_empty (hrel.empty c hmem).2))
          have heffect' : LookupEffect w₁ w' := (lookupFolderLoop_run
            (fun copy w r w' hwf h => (listFolders_run funcs hwf h).1) _ hw₁.wf hwalk' hrun).1
          refine ⟨r, w', hrun, fun q hq => ?_, fun ha => ?_, hinv'⟩
          · rw [hframe q (Nat.lt_trans hq hgt), hrel.small q hq]
          · exact allClean_after hw₁.wf heffect' hp (by simp) ((hframe p hgt).trans hp) hchild
              (hall ha)
      rcases hone with hone | hrelists
      · cases hlisted with
        | refused hfs hbrk hwhy =>
          have htree : w₁.tree = w.tree := tree_of_fs hfs hbrk
          have hbehind : ∀ c, w₁.tree.child p name = some c →
              w₁.AllClean c (s₂.map Prod.snd) := fun c hc =>
            AllClean.of_tree (OneDirty.allClean hone ⟨fo, hfo, hdirty⟩ (htree ▸ hc)) htree
              fun q hq => by rwa [World.DirtyAt, hfs] at hq
          obtain ⟨r, hrun⟩ := lookupFolderEnd_clean hw₁.wf ((congrFun
            (congrArg (·.folders) hfs) p).trans hfo) hbehind
          refine ⟨r, w₁, hrun, fun q _ => by rw [hfs], fun ha => ?_, hinv₁⟩
          -- The driver was not to refuse.
          rcases ha with ha | hrelists
          · obtain ⟨g, e, s, hfunc, hrefused, -⟩ := hwhy ha.1
            obtain ⟨names, hnames⟩ := ha.2 g hfunc copy s
            rw [hrefused] at hnames
            cases hnames
          · obtain ⟨answer, chain, hp, -⟩ := hrelists copy p fo w w₁ hinv hw hleads hdirty
              (.refused hfs hbrk hwhy)
            rw [hfs, hfo, Option.some.injEq] at hp
            rw [hp] at hdirty
            cases hdirty
        | clean hfs hbrk hwhy =>
          have htree : w₁.tree = w.tree :=
            (tree_of_fs (w := w.setFolder p _) hfs hbrk).trans
              (tree_setFolder_of_same hfo _ rfl rfl rfl)
          have hp₁ : w₁.fs.folders p = some { fo with foldersDirty := false } := by
            rw [hfs]
            simp
          have hother : ∀ q, q ≠ p → w₁.fs.folders q = w.fs.folders q := by
            intro q hq
            rw [hfs]
            simp [hq]
          have hnot : ¬ w₁.DirtyAt p := not_dirtyAt hp₁ (by simp)
          have hbehind : ∀ c, w₁.tree.child p name = some c →
              w₁.AllClean c (s₂.map Prod.snd) := fun c hc =>
            AllClean.of_tree (OneDirty.allClean hone ⟨fo, hfo, hdirty⟩ (htree ▸ hc)) htree
              fun q hq => by
                have hqp : q ≠ p := fun he => hnot (he ▸ hq)
                rwa [World.DirtyAt, hother q hqp] at hq
          obtain ⟨r, hrun⟩ := lookupFolderEnd_clean hw₁.wf hp₁ hbehind
          exact ⟨r, w₁, hrun, fun q hq => hother q (Nat.ne_of_lt hq),
            fun _ => allClean_cons hnot hbehind, hinv₁⟩
        | relisted g s answer chain hdirty' hfunc hanswer henv hp hrel =>
          exact hrelisted answer chain hp hrel
      · obtain ⟨answer, chain, hp, hrel⟩ := hrelists copy p fo w w₁ hinv hw hleads hdirty hlisted
        exact hrelisted answer chain hp hrel
    · rw [lookupFolderLoop_cons_clean hfo hdirty]
      cases hchild : w.tree.child p name with
      | none =>
        refine ⟨.ok none, w, rfl, fun _ _ => rfl, fun _ => ?_, hinv⟩
        refine allClean_cons (not_dirtyAt hfo hdirty) fun c hc => ?_
        rw [hchild] at hc
        cases hc
      | some c =>
        have hgt := hw.wf.child_gt (child_eq_some hchild).1
        have hwalk' : w.tree.walk rootfolder ((s₁ ++ [(copy, name)]).map Prod.snd) = some c := by
          rw [hmap, walk_concat, hwalk, bind_some, hchild]
        obtain ⟨r, w', hrun, hframe, hall, hinv'⟩ := ih hinv hw _ hsteps' hwalk'
          (hmap ▸ allClean_concat hclean hwalk (not_dirtyAt hfo hdirty))
          (hone.imp_left fun h => OneDirty.tail h hchild)
        have heffect' : LookupEffect w w' := (lookupFolderLoop_run
          (fun copy w r w' hwf h => (listFolders_run funcs hwf h).1) _ hw.wf hwalk' hrun).1
        refine ⟨r, w', hrun, fun q hq => hframe q (Nat.lt_trans hq hgt), fun ha => ?_, hinv'⟩
        exact allClean_after hw.wf heffect' hfo hdirty ((hframe p hgt).trans hfo) hchild (hall ha)

/-- The lookup of a path with one dirty folder at most on the way, or with listings that all
pass. -/
theorem lookupFolder_ends {Inv : World σ → Prop} (hkept : KeptByListing funcs context Inv)
    (hinv : Inv w) (hw : w.Sound) (habsolute : isAbsolute path = true)
    (hone : w.OneDirty rootfolder (components path) ∨ Relists funcs context Inv) :
    ∃ w', lookupFolder funcs path context w =
        some (.ok (w'.tree.walk rootfolder (components path)), w') ∧ LookupEffect w w' ∧
      (Answers funcs context ∨ Relists funcs context Inv →
        w'.AllClean rootfolder (components path)) ∧ Inv w' := by
  obtain ⟨r, w', hrun, -, hall, hinv'⟩ := lookupFolderLoop_ends funcs hkept
    hinv hw habsolute [] rfl rfl (fun _ _ hpass => absurd hpass not_passes_nil) hone
  have hlookup : lookupFolder funcs path context w = some (r, w') := by
    rw [lookupFolder_eq]
    exact hrun
  obtain ⟨heffect, rfl⟩ := lookupFolder_run funcs path context w r w' hw.wf hlookup
  exact ⟨w', hlookup, heffect, hall, hinv'⟩

end

/-! ### Two dirty folders -/

/-- A driver that refuses its first listing, and has no folders to list from then on. -/
def refusesOnce : CameraFilesystemFuncs Nat :=
  { CameraFilesystemFuncs.none with
    folderListFunc := some fun _ n => if n = 0 then (.error gpErrorIo, 1) else (.ok [], n) }

section
variable {w : World Nat} {p : FolderAddr} {path copy name : CString}
  {fo : CameraFilesystemFolder}

theorem refusesOnce_lists (hw : w.Sound) (h : w.LeadsTo copy p fo)
    (hdirty : fo.foldersDirty = true) : ∃ r w',
      gpFilesystemListFolders refusesOnce copy .null w = some (r, w') ∧
      (w.env = 0 → w'.fs = w.fs ∧ w'.brk = w.brk ∧ w'.env = 1) ∧
      (w.env = 1 → w'.fs.folders p = some { fo with folders := [], foldersDirty := false }) := by
  obtain ⟨r, w', hrun, hlisted, -⟩ := listFolders_ends refusesOnce .null hw h
  refine ⟨r, w', hrun, ?_⟩
  cases hlisted with
  | refused hfs hbrk hwhy =>
    obtain ⟨g, e, s, hfunc, hg, hs⟩ := hwhy (Or.inl rfl)
    cases hfunc
    rw [hs rfl] at hg
    refine ⟨fun henv => ?_, fun henv => ?_⟩ <;> rw [henv] at hg
    · exact ⟨hfs, hbrk, (Prod.mk.inj hg).2.symm⟩
    · cases hg
  | clean hfs hbrk hwhy =>
    rw [hdirty] at hwhy
    rcases hwhy with hwhy | hwhy <;> cases hwhy
  | relisted g s answer chain hdirty' hfunc hanswer hs hp hrel =>
    cases hfunc
    rw [hs rfl] at hanswer
    refine ⟨fun henv => ?_, fun henv => ?_⟩ <;> rw [henv] at hanswer <;> cases hanswer
    rw [hp, hrel.nil rfl]

theorem exists_steps {n₁ n₂ : List CString} (h : components path = n₁ ++ name :: n₂) :
    ∃ s₁ copy s₂, pathSteps path = s₁ ++ (copy, name) :: s₂ ∧ s₁.map Prod.snd = n₁ ∧
      s₂.map Prod.snd = n₂ := by
  obtain ⟨s₁, rest, hsteps, hs₁, hrest⟩ := List.map_eq_append_iff.mp h
  obtain ⟨step, s₂, rfl, rfl, hs₂⟩ := List.map_eq_cons_iff.mp hrest
  exact ⟨s₁, step.1, s₂, hsteps, hs₁, hs₂⟩

theorem refusesOnce_lookup {n₁ n₂ : List CString} (hw : w.Sound) (henv : w.env = 1)
    (habsolute : isAbsolute path = true) (hnames : components path = n₁ ++ name :: n₂)
    (hwalk : w.tree.walk rootfolder n₁ = some p) (hclean : w.AllClean rootfolder n₁)
    (hp : w.fs.folders p = some fo) (hdirty : fo.foldersDirty = true) :
    ∃ w', lookupFolder refusesOnce path .null w = some (.ok none, w') ∧
      w'.fs.folders p = some { fo with folders := [], foldersDirty := false } := by
  obtain ⟨s₁, copy, s₂, hsteps, rfl, rfl⟩ := exists_steps hnames
  obtain ⟨hcopy, habsolute'⟩ := pathSteps_split hsteps
  have hleads : w.LeadsTo copy p fo :=
    ⟨habsolute' habsolute, by rwa [hcopy], by rwa [hcopy], hp⟩
  obtain ⟨r, w', hlist, -, hcleaned⟩ := refusesOnce_lists hw hleads hdirty
  have hp' := hcleaned henv
  have hchild : w'.tree.child p name = none := by
    rw [NameTree.child, tree_folders hp']
    rfl
  refine ⟨w', ?_, hp'⟩
  rw [lookupFolder_eq, hsteps,
    lookupFolderLoop_allClean _ _ hw.wf (root_alive hw.wf) hclean, hwalk]
  show lookupFolderLoop _ p ((copy, name) :: s₂) w = _
  rw [lookupFolderLoop_cons_dirty hp hdirty hlist, lookupFolderEnd_run hp', hchild]
  rfl

/-- With two dirty folders on the way, the lookup goes on with a folder that has been freed. -/
theorem lookupFolder_stuck (hw : w.Sound) (henv : w.env = 0) (habsolute : isAbsolute path = true)
    (h : ¬ w.OneDirty rootfolder (components path)) :
    lookupFolder refusesOnce path .null w = none := by
  obtain ⟨n₁, name, n₂, q, c, hnames, hwalk, ⟨fo, hq, hdirty⟩, hclean, hchild, hrest⟩ :=
    exists_two_dirty h
  obtain ⟨m₁, name', m₂, q', rfl, hwalk', ⟨fo', hq', hdirty'⟩, hclean'⟩ := exists_first_dirty hrest
  obtain ⟨s₁, copy, s₂, hsteps, rfl, hs₂⟩ := exists_steps hnames
  obtain ⟨t₁, rest, rfl, rfl, hrest'⟩ := List.map_eq_append_iff.mp hs₂
  obtain ⟨⟨copy', last⟩, t₂, rfl, rfl, rfl⟩ := List.map_eq_cons_iff.mp hrest'
  obtain ⟨hcopy, habsolute₁⟩ := pathSteps_split hsteps
  have hsteps' : pathSteps path = (s₁ ++ (copy, name) :: t₁) ++ (copy', last) :: t₂ := by
    rw [hsteps, List.append_assoc]
    rfl
  obtain ⟨hcopy', habsolute₂⟩ := pathSteps_split hsteps'
  rw [List.map_append, List.map_cons] at hcopy'
  -- The first dirty folder cannot be listed, and stays as it is.
  obtain ⟨r₁, w₁, hlist₁, hrefused, -⟩ := refusesOnce_lists hw (show w.LeadsTo copy q fo from
    ⟨habsolute₁ habsolute, by rwa [hcopy], by rwa [hcopy], hq⟩) hdirty
  obtain ⟨hfs₁, hbrk₁, henv₁⟩ := hrefused henv
  have htree₁ : w₁.tree = w.tree := tree_of_fs hfs₁ hbrk₁
  have hdirty₁ : ∀ a, w₁.DirtyAt a → w.DirtyAt a := fun a ha => by
    rwa [World.DirtyAt, hfs₁] at ha
  have hw₁ : w₁.Sound := ((listFolders_run refusesOnce hw.wf hlist₁).1).sound hw
  have hq₁ : w₁.fs.folders q = some fo := by rw [hfs₁, hq]
  have hq₁' : w₁.fs.folders q' = some fo' := by rw [hfs₁, hq']
  -- The listing of the second one looks it up through the first one.
  obtain ⟨w₂, hlookup, hq₂⟩ := refusesOnce_lookup hw₁ henv₁
    (habsolute₂ habsolute) hcopy' (by rwa [htree₁]) (AllClean.of_tree hclean htree₁ hdirty₁) hq₁
    hdirty
  have hlist₂ : gpFilesystemListFolders refusesOnce copy' .null w₁ =
      some (.error gpErrorDirectoryNotFound, w₂) := by
    rw [listFolders_eq]
    unfold withFolder
    rw [bind_run_ok (show checkCancel refusesOnce .null w₁ = some (.ok (), w₁) from rfl),
      bind_run_ok (checkAbsolute_run (habsolute₂ habsolute)), bind_run_ok hlookup]
    rfl
  -- Then it is gone.
  have hgone : w₂.fs.folders q' = none := by
    by_contra halive
    obtain ⟨fo₂, hfo₂⟩ := Option.ne_none_iff_exists'.mp halive
    have heffect := (lookupFolder_run refusesOnce copy' .null _ _ _ hw₁.wf hlookup).1
    have hlong : w₁.tree.walk rootfolder (s₁.map Prod.snd ++ name :: t₁.map Prod.snd) =
        some q' := by
      rw [htree₁, walk_append, hwalk, bind_some, NameTree.walk, hchild,
        bind_some, hwalk']
    have hshort := heffect.walk hw₁.wf (show w₁.tree.walk rootfolder (s₁.map Prod.snd) = some q by
      rw [htree₁, hwalk]) hq₂
    have hfound := heffect.walk hw₁.wf hlong hfo₂
    rw [walk_append, hshort, bind_some, NameTree.walk, NameTree.child,
      tree_folders hq₂] at hfound
    cases hfound
  have halive := folderName_ne_none.mp
    (hw₁.wf.child_alive (child_eq_some (htree₁ ▸ hchild)).1)
  rw [lookupFolder_eq, hsteps,
    lookupFolderLoop_allClean _ _ hw.wf (root_alive hw.wf) hclean, hwalk]
  show lookupFolderLoop _ q ((copy, name) :: (t₁ ++ (copy', last) :: t₂)) w = none
  rw [lookupFolderLoop_cons_dirty hq hdirty hlist₁, lookupFolderEnd_run hq₁, htree₁, hchild]
  show lookupFolderLoop _ c (t₁ ++ (copy', last) :: t₂) w₁ = none
  rw [lookupFolderLoop_allClean _ _ hw₁.wf halive (AllClean.of_tree hclean' htree₁ hdirty₁), htree₁,
    hwalk']
  show lookupFolderLoop _ q' ((copy', last) :: t₂) w₁ = none
  rw [lookupFolderLoop_cons_dirty hq₁' hdirty' hlist₂]
  exact Comp.bind_run_none (by rw [derefFolder, hgone])

end

/-! ### Which paths can be looked up -/

/-- The same filesystem, with another driver and frontend. -/
def World.withEnv {τ : Type} (w : World σ) (env : τ) : World τ where
  fs := w.fs
  cameraFile := w.cameraFile
  picturesToKeep := w.picturesToKeep
  cachedImages := w.cachedImages
  brk := w.brk
  env := env
  log := w.log

/-- Whatever driver and frontend there are, the lookup of the path returns. It returns the folder
that the non-empty components of the path lead to, in the tree that is left after dirty folders
have been listed. If no listing is refused, all the folders on the way are clean then. -/
def World.LooksUp (w : World σ) (path : CString) : Prop :=
  ∀ (τ : Type) (funcs : CameraFilesystemFuncs τ) (env : τ) (context : GPContext),
    ∃ w', lookupFolder funcs path context (w.withEnv env) =
        some (.ok (w'.tree.walk rootfolder (splitSlashes path)), w') ∧
      LookupSteps (w.withEnv env) w' ∧
      (Answers funcs context → w'.AllClean rootfolder (splitSlashes path))

section
variable {w : World σ} {names : List CString}

theorem Passes.withEnv {τ : Type} {env : τ} {pre : List CString} {q : FolderAddr} :
    (w.withEnv env).Passes rootfolder names pre q ↔ w.Passes rootfolder names pre q :=
  ⟨fun h => ⟨h.isPrefix, h.proper, h.leads⟩, fun h => ⟨h.isPrefix, h.proper, h.leads⟩⟩

theorem OneDirty.withEnv {τ : Type} {env : τ} :
    (w.withEnv env).OneDirty rootfolder names ↔ w.OneDirty rootfolder names := by
  unfold World.OneDirty
  simp only [Passes.withEnv]
  rfl

/-- A path can be looked up in a sound filesystem, whatever the driver and the frontend answer, if
and only if one folder at most that it goes through is marked dirty. -/
theorem looksUp_iff (hw : w.Sound) {path : CString} (habsolute : isAbsolute path = true) :
    w.LooksUp path ↔ w.OneDirty rootfolder (splitSlashes path) := by
  rw [← components_eq]
  constructor
  · intro h
    by_contra hnot
    obtain ⟨w', hrun, -⟩ := h Nat refusesOnce 0 .null
    rw [lookupFolder_stuck ⟨hw.wf, hw.chain⟩ rfl habsolute
      (fun hone => hnot (OneDirty.withEnv.mp hone))] at hrun
    cases hrun
  · intro hone τ funcs env context
    rw [← components_eq]
    obtain ⟨w', hrun, heffect, hall, -⟩ := lookupFolder_ends funcs
      (show KeptByListing funcs context fun _ => True from fun _ _ _ _ _ _ _ _ _ _ => trivial)
      trivial ⟨hw.wf, hw.chain⟩ habsolute (Or.inl (OneDirty.withEnv.mpr hone))
    exact ⟨w', hrun, heffect.steps, fun ha => hall (Or.inl ha)⟩

end

/-- In a new filesystem only the root folder is dirty. -/
theorem looksUp_iff_new : (World.new ()).LooksUp ['/', 'a', '/', '/', 'b', '/'] := by
  exact (looksUp_iff (World.new_sound ()) rfl).mpr (oneDirty_of_empty rfl)

/-- A driver whose first three listings are refused. -/
def refusesThrice : CameraFilesystemFuncs Nat :=
  { CameraFilesystemFuncs.none with
    folderListFunc := some fun path n =>
      if n < 3 then (.error gpErrorIo, n + 1)
      else (.ok (if path = ['/'] then [['a']] else []), n) }

/-- A file is appended to `/a` while the top folder cannot be listed, so both folders are dirty.
When the listing of the top folder is refused once more, and then passes, the lookup of `/a/b`
goes on with a folder that has been freed. -/
theorem lookup_of_freed_folder : ¬ ∀ (w : World Nat) (path : CString) (context : GPContext),
    Reachable refusesThrice w → isAbsolute path = true →
    ∃ w', lookupFolder refusesThrice path context w =
      some (.ok (w'.tree.walk rootfolder (splitSlashes path)), w') := by
  intro h
  have heval : ((runOps refusesThrice [.append ['/', 'a'] ['x'] .null] (World.new 0)).map fun p =>
      (lookupFolder refusesThrice ['/', 'a', '/', 'b'] .null p.2).isNone) = some true := by
    decide +kernel
  obtain ⟨⟨rs, w⟩, hrun, hnone⟩ := Option.map_eq_some_iff.mp heval
  obtain ⟨w', hlookup⟩ := h w ['/', 'a', '/', 'b'] .null
    ⟨_, _, rs, World.new_isNew 0, hrun⟩ rfl
  simp only [hlookup, Option.isNone_some] at hnone
  cases hnone

end GPhoto2
