import GPhoto2.Topfield.Names

/-!
# `GPhoto2.Proofs.Topfield.Names`: when a displayed name leads back to its file

A session reports names of the recorder and picks files by the names that were handed out for them.
`Fits` says that the map holds what has been handed out, with different displayed names for
different files, and every step that is safe keeps it.
`names_faithful_iff` says that the names are unambiguous and lead back just as long as every step
is safe: a new name can be converted and to one that is not taken, and no name is looked at again
that `get_path` has freed.
-/

set_option autoImplicit false

namespace GPhoto2.Topfield

open Lib

/-! ### Sessions -/

/-- What happens in a session: the recorder reports a name, or the user picks a displayed one for a
download or to delete it. -/
inductive Step
  | report (tfname : Name)
  | pick (folder filename : Name)

/-- The displayed names that have been handed out, each behind the name it was made from. -/
abbrev Handed := List (Name × Name)

/-- In each step of a session a displayed name is given to one name only, and a picked one
addresses the file that it was made from. -/
def Faithful (locale : Locale) : Names → Handed → List Step → Prop
  | _, _, [] => True
  | names, handed, .report tfname :: steps => ∃ lgname names',
      convertAndLogname locale tfname names = some (.ok lgname, names') ∧
        (∀ p ∈ handed, p.1 = tfname ↔ p.2 = lgname) ∧
          Faithful locale names' ((tfname, lgname) :: handed) steps
  | names, handed, .pick folder filename :: steps => ∃ outcome names',
      getPath locale folder filename names = some (outcome, names') ∧
        (∀ tfname xfolder, (tfname, filename) ∈ handed → locale.toLatin1 folder = some xfolder →
          outcome = .ok (backslash (xfolder ++ [0x2f]) ++ tfname)) ∧
            Faithful locale names' handed steps

/-- No name that a search for `tfname` comes to has been freed. -/
def Readable (tfname : Name) : Names → Prop
  | [] => True
  | m :: names => m.freed = false ∧ (tfname = m.tfname ∨ Readable tfname names)

/-- A step at which nothing goes wrong. -/
def SafeStep (locale : Locale) (names : Names) : Step → Prop
  | .report tfname => Readable tfname names ∧
      ((∀ m ∈ names, m.tfname ≠ tfname) →
        ∃ lgname, strdupToLocale locale tfname = some lgname ∧ ∀ m ∈ names, m.lgname ≠ lgname)
  | .pick folder filename => (locale.toLatin1 folder).isSome = true →
      ∀ m, convertForDevice filename names = some m → m.freed = false

/-- The map behind a step. -/
def namesBehind (locale : Locale) (names : Names) : Step → Names
  | .report tfname => ((convertAndLogname locale tfname names).map Prod.snd).getD names
  | .pick folder filename => ((getPath locale folder filename names).map Prod.snd).getD names

/-- A session whose steps are all safe. -/
def SafeSession (locale : Locale) : Names → List Step → Prop
  | _, [] => True
  | names, step :: steps =>
      SafeStep locale names step ∧ SafeSession locale (namesBehind locale names step) steps

/-! ### The map -/

/-- The pairs of names in the map. -/
def pairs (names : Names) : Handed := names.map fun m => (m.tfname, m.lgname)

/-- The map holds what has been handed out, and no displayed name for two names. -/
structure Fits (locale : Locale) (names : Names) (handed : Handed) : Prop where
  converted : ∀ p ∈ pairs names, strdupToLocale locale p.1 = some p.2
  handed    : ∀ p, p ∈ handed ↔ p ∈ pairs names
  unique    : ∀ p ∈ pairs names, ∀ q ∈ pairs names, p.2 = q.2 → p.1 = q.1

variable {locale : Locale} {names : Names} {handed : Handed}

theorem mem_pairs {p : Name × Name} :
    p ∈ pairs names ↔ ∃ m ∈ names, m.tfname = p.1 ∧ m.lgname = p.2 := by
  rw [pairs, List.mem_map]
  constructor
  · intro hp
    obtain ⟨m, hm, heq⟩ := hp
    exact ⟨m, hm, congrArg Prod.fst heq, congrArg Prod.snd heq⟩
  · intro hp
    obtain ⟨m, hm, htf, hlg⟩ := hp
    exact ⟨m, hm, Prod.ext htf hlg⟩

theorem pair_mem {m : Mapname} (hm : m ∈ names) : (m.tfname, m.lgname) ∈ pairs names :=
  mem_pairs.mpr ⟨m, hm, rfl, rfl⟩

theorem Fits.empty : Fits locale [] [] where
  converted := fun _ hp => absurd hp List.not_mem_nil
  handed    := fun _ => Iff.rfl
  unique    := fun _ hp => absurd hp List.not_mem_nil

/-! ### Reports -/

variable {tfname : Name}

theorem findTfname_of_readable (h : Readable tfname names) :
    findTfname tfname names =
      some ((names.find? fun m => tfname = m.tfname).map Mapname.lgname) := by
  induction names with
  | nil => rfl
  | cons m names ih =>
    obtain ⟨hm, hrest⟩ := h
    rw [findTfname, hm, if_neg Bool.false_ne_true]
    by_cases hfound : tfname = m.tfname
    · rw [if_pos hfound, List.find?_cons_of_pos (by simpa using hfound)]
      rfl
    · rw [if_neg hfound, List.find?_cons_of_neg (by simpa using hfound)]
      exact ih (hrest.resolve_left hfound)

theorem findTfname_of_freed (h : ¬ Readable tfname names) :
    findTfname tfname names = none := by
  induction names with
  | nil => exact absurd trivial h
  | cons m names ih =>
    rw [findTfname]
    by_cases hm : m.freed = true
    · rw [if_pos hm]
    · have hlive : m.freed = false := Bool.eq_false_iff.mpr hm
      have hnot : ¬ tfname = m.tfname := fun heq => h ⟨hlive, Or.inl heq⟩
      rw [if_neg hm, if_neg hnot]
      exact ih fun hrest => h ⟨hlive, Or.inr hrest⟩

theorem convertAndLogname_known {m : Mapname} (hreadable : Readable m.tfname names)
    (hfind : (names.find? fun m' => m.tfname = m'.tfname) = some m) :
    convertAndLogname locale m.tfname names = some (.ok m.lgname, names) := by
  rw [convertAndLogname, findTfname_of_readable hreadable, hfind]
  rfl

theorem convertAndLogname_new {lgname : Name} (hreadable : Readable tfname names)
    (hfind : (names.find? fun m => tfname = m.tfname) = none)
    (hconverted : strdupToLocale locale tfname = some lgname) :
    convertAndLogname locale tfname names =
      some (.ok lgname, names ++ [⟨tfname, lgname, false⟩]) := by
  rw [convertAndLogname, findTfname_of_readable hreadable, hfind]
  show logname locale tfname names = _
  rw [logname, hconverted]

theorem Fits.report (h : Fits locale names handed)
    (hsafe : SafeStep locale names (.report tfname)) :
    ∃ lgname names', convertAndLogname locale tfname names = some (.ok lgname, names') ∧
      (∀ p ∈ handed, p.1 = tfname ↔ p.2 = lgname) ∧
        Fits locale names' ((tfname, lgname) :: handed) := by
  obtain ⟨hreadable, hnew⟩ := hsafe
  cases hfind : names.find? fun m => tfname = m.tfname with
  | some m =>
    have hm := List.mem_of_find?_eq_some hfind
    obtain rfl : tfname = m.tfname := by simpa using List.find?_some hfind
    have hpair := pair_mem hm
    refine ⟨m.lgname, names, convertAndLogname_known hreadable hfind, ?_, h.converted, ?_, h.unique⟩
    · intro p hp
      have hp' := (h.handed p).mp hp
      constructor
      · intro heq
        have hconverted := h.converted p hp'
        rw [heq, h.converted _ hpair] at hconverted
        exact (Option.some.inj hconverted).symm
      · intro heq
        exact h.unique p hp' _ hpair heq
    · intro p
      rw [List.mem_cons, h.handed p]
      constructor
      · intro hp
        rcases hp with rfl | hp
        · exact hpair
        · exact hp
      · exact Or.inr
  | none =>
    have hnone : ∀ m ∈ names, m.tfname ≠ tfname := by
      intro m hm heq
      have hne := List.find?_eq_none.mp hfind m hm
      simp [heq] at hne
    obtain ⟨lgname, hconverted, hfree⟩ := hnew hnone
    have hold : ∀ p ∈ pairs names, p.1 ≠ tfname ∧ p.2 ≠ lgname := by
      intro p hp
      obtain ⟨m, hm, htf, hlg⟩ := mem_pairs.mp hp
      exact ⟨fun heq => hnone m hm (htf.trans heq), fun heq => hfree m hm (hlg.trans heq)⟩
    have hpairs : pairs (names ++ [⟨tfname, lgname, false⟩]) =
        pairs names ++ [(tfname, lgname)] := List.map_append
    refine ⟨lgname, _, convertAndLogname_new hreadable hfind hconverted, ?_, ?_, ?_, ?_⟩
    · intro p hp
      have hp' := hold p ((h.handed p).mp hp)
      exact ⟨fun heq => absurd heq hp'.1, fun heq => absurd heq hp'.2⟩
    · intro p hp
      rw [hpairs, List.mem_append, List.mem_singleton] at hp
      rcases hp with hp | rfl
      · exact h.converted p hp
      · exact hconverted
    · intro p
      rw [hpairs, List.mem_append, List.mem_cons, List.mem_singleton, h.handed p, or_comm]
    · intro p hp q hq heq
      rw [hpairs, List.mem_append, List.mem_singleton] at hp hq
      rcases hp with hp | rfl
      · rcases hq with hq | rfl
        · exact h.unique p hp q hq heq
        · exact absurd heq (hold p hp).2
      · rcases hq with hq | rfl
        · exact absurd heq.symm (hold q hq).2
        · rfl

theorem Fits.safe_report (h : Fits locale names handed) {lgname : Name} {names' : Names}
    (hrun : convertAndLogname locale tfname names = some (.ok lgname, names'))
    (hunique : ∀ p ∈ handed, p.1 = tfname ↔ p.2 = lgname) :
    SafeStep locale names (.report tfname) := by
  have hreadable : Readable tfname names := by
    by_contra hfreed
    rw [convertAndLogname, findTfname_of_freed hfreed] at hrun
    cases hrun
  refine ⟨hreadable, fun hnone => ?_⟩
  have hfind : (names.find? fun m => tfname = m.tfname) = none := by
    rw [List.find?_eq_none]
    intro m hm heq
    exact hnone m hm (of_decide_eq_true heq).symm
  rw [convertAndLogname, findTfname_of_readable hreadable, hfind] at hrun
  replace hrun : logname locale tfname names = some (.ok lgname, names') := hrun
  cases hconverted : strdupToLocale locale tfname with
  | none =>
    rw [logname, hconverted] at hrun
    cases hrun
  | some lgname' =>
    rw [logname, hconverted] at hrun
    cases hrun
    refine ⟨lgname, rfl, fun m hm heq => ?_⟩
    have hp := (h.handed _).mpr (pair_mem hm)
    exact hnone m hm ((hunique _ hp).mpr heq)

/-! ### Picks -/

theorem pairs_freeTfname (lgname : Name) (names : Names) :
    pairs (freeTfname lgname names) = pairs names := by
  induction names with
  | nil => rfl
  | cons m names ih =>
    rw [freeTfname]
    by_cases hfound : lgname = m.lgname
    · rw [if_pos hfound]
      rfl
    · rw [if_neg hfound]
      show (m.tfname, m.lgname) :: pairs (freeTfname lgname names) = _ :: pairs names
      rw [ih]

variable {folder filename : Name}

theorem getPath_found {xfolder : Name} {m : Mapname}
    (hfolder : locale.toLatin1 folder = some xfolder)
    (hfind : convertForDevice filename names = some m) :
    getPath locale folder filename names = pathTo xfolder filename m names := by
  simp only [getPath, hfolder, Comp.get_bind_run, hfind]

theorem getPath_unknown {xfolder : Name}
    (hfolder : locale.toLatin1 folder = some xfolder)
    (hfind : convertForDevice filename names = none) :
    getPath locale folder filename names = some (.error gpError, names) := by
  simp only [getPath, hfolder, Comp.get_bind_run, hfind, Comp.throw_run]

theorem Fits.pick (h : Fits locale names handed)
    (hsafe : SafeStep locale names (.pick folder filename)) :
    ∃ outcome names', getPath locale folder filename names = some (outcome, names') ∧
      (∀ tfname xfolder, (tfname, filename) ∈ handed → locale.toLatin1 folder = some xfolder →
        outcome = .ok (backslash (xfolder ++ [0x2f]) ++ tfname)) ∧
          Fits locale names' handed := by
  cases hfolder : locale.toLatin1 folder with
  | none =>
    rw [getPath, hfolder]
    refine ⟨_, _, rfl, ?_, h⟩
    intro tfname xfolder hhanded heq
    cases heq
  | some xfolder =>
    cases hfind : convertForDevice filename names with
    | none =>
      refine ⟨_, _, getPath_unknown hfolder hfind, fun tfname _ hhanded _ => ?_, h⟩
      -- what was handed out is in the map
      obtain ⟨m, hm, -, hlg⟩ := mem_pairs.mp ((h.handed _).mp hhanded)
      have hne := List.find?_eq_none.mp hfind m hm
      simp [hlg] at hne
    | some m =>
      have hm := List.mem_of_find?_eq_some hfind
      have hlg : filename = m.lgname := by simpa using List.find?_some hfind
      have hlive : ¬ m.freed = true := by
        rw [hsafe (by rw [hfolder]; rfl) m hfind]
        exact Bool.false_ne_true
      rw [getPath_found hfolder hfind, pathTo, if_neg hlive]
      refine ⟨_, freeTfname filename names, rfl, fun tfname xfolder' hhanded heq => ?_, ?_⟩
      · cases heq
        have hpair := (h.handed _).mp hhanded
        have hsame : tfname = m.tfname := h.unique _ hpair _ (pair_mem hm) hlg
        rw [hsame]
      · have hpairs := pairs_freeTfname filename names
        exact ⟨hpairs ▸ h.converted, hpairs ▸ h.handed, hpairs ▸ h.unique⟩

theorem safe_pick {outcome : Except Int Name} {names' : Names}
    (hrun : getPath locale folder filename names = some (outcome, names')) :
    SafeStep locale names (.pick folder filename) := by
  intro hfolder m hfind
  obtain ⟨xfolder, hxfolder⟩ := Option.isSome_iff_exists.mp hfolder
  rw [getPath_found hxfolder hfind] at hrun
  by_contra hfreed
  rw [pathTo, if_pos (Bool.not_eq_false _ |>.mp hfreed)] at hrun
  cases hrun

/-! ### Sessions -/

/-- From a map that fits, the displayed names are unambiguous and lead back just as long as every
step is safe. -/
theorem Fits.stays_faithful (h : Fits locale names handed) (steps : List Step) :
    Faithful locale names handed steps ↔ SafeSession locale names steps := by
  induction steps generalizing names handed with
  | nil => exact Iff.rfl
  | cons step steps ih =>
    cases step with
    | report tfname =>
      constructor
      · intro hfaithful
        obtain ⟨lgname, names', hrun, hunique, hrest⟩ := hfaithful
        have hsafe := h.safe_report hrun hunique
        obtain ⟨_, _, hrun', -, hfits⟩ := h.report hsafe
        rw [hrun] at hrun'
        cases hrun'
        have hbehind : namesBehind locale names (.report tfname) = names' := by
          rw [namesBehind, hrun]
          rfl
        exact ⟨hsafe, hbehind ▸ (ih hfits).mp hrest⟩
      · intro hsession
        obtain ⟨hsafe, hrest⟩ := hsession
        obtain ⟨lgname, names', hrun, hunique, hfits⟩ := h.report hsafe
        have hbehind : namesBehind locale names (.report tfname) = names' := by
          rw [namesBehind, hrun]
          rfl
        rw [hbehind] at hrest
        exact ⟨lgname, names', hrun, hunique, (ih hfits).mpr hrest⟩
    | pick folder filename =>
      constructor
      · intro hfaithful
        obtain ⟨outcome, names', hrun, hright, hrest⟩ := hfaithful
        have hsafe := safe_pick hrun
        obtain ⟨_, _, hrun', -, hfits⟩ := h.pick hsafe
        rw [hrun] at hrun'
        cases hrun'
        have hbehind : namesBehind locale names (.pick folder filename) = names' := by
          rw [namesBehind, hrun]
          rfl
        exact ⟨hsafe, hbehind ▸ (ih hfits).mp hrest⟩
      · intro hsession
        obtain ⟨hsafe, hrest⟩ := hsession
        obtain ⟨outcome, names', hrun, hright, hfits⟩ := h.pick hsafe
        have hbehind : namesBehind locale names (.pick folder filename) = names' := by
          rw [namesBehind, hrun]
          rfl
        rw [hbehind] at hrest
        exact ⟨outcome, names', hrun, hright, (ih hfits).mpr hrest⟩

/-- **A displayed name leads back to its file as long as every step is safe.** -/
theorem names_faithful_iff (locale : Locale) (steps : List Step) :
    Faithful locale [] [] steps ↔ SafeSession locale [] steps :=
  Fits.empty.stays_faithful steps

/-- A locale with the characters of Latin-1. -/
def latin1 : Locale where
  fromLatin1 := some
  toLatin1   := some

/-- The names `a/b` and `a-b` are both displayed as `a-b`, and a pick of it addresses the first. -/
theorem slash_and_hyphen :
    ((convertAndLogname latin1 [0x61, 0x2f, 0x62] >>= fun first =>
        convertAndLogname latin1 [0x61, 0x2d, 0x62] >>= fun second =>
          getPath latin1 [] second >>= fun path => pure (first, second, path)) []).map
        (fun outcome => outcome.1.toOption) =
      some (some ([0x61, 0x2d, 0x62], [0x61, 0x2d, 0x62], [0x5c, 0x61, 0x2f, 0x62])) ∧
    ¬ Faithful latin1 [] []
      [.report [0x61, 0x2f, 0x62], .report [0x61, 0x2d, 0x62], .pick [] [0x61, 0x2d, 0x62]] := by
  refine ⟨by decide +kernel, fun hfaithful => ?_⟩
  obtain ⟨lgname, names, hrun, -, lgname', names', hrun', hunique, -⟩ := hfaithful
  cases hrun
  cases hrun'
  have hsame := (hunique _ List.mem_cons_self).mpr rfl
  revert hsame
  decide

end GPhoto2.Topfield
