import GPhoto2.Proofs.Tp6801.Flash

/-!
# `GPhoto2.Proofs.Tp6801.Retry`: committing again what failed

`commit_retry`: commits to a device may fail at any read, at any erase, and at a program command as
long as all that is left to program in its block is dirty (`SafeCommit`). A commit that succeeds
afterwards makes up for it. Otherwise it does not: `commit_retry_loses` is a commit that fails at a
page that was not dirty, in a block that was erased. The page stays erased, and no later commit
knows of it.
-/

set_option autoImplicit false

namespace GPhoto2.Tp6801

open Lib
open Lib.Comp (Ends)
open Camera (HasData IsDirty)

theorem Intact.weaken {s : Camera} (h : Intact True s) : Intact False s := by
  have hcoherent := h.coherent
  refine ⟨h.patValid,
    ⟨hcoherent.inside, hcoherent.dirty, hcoherent.copy, ?_, fun hfalse => hfalse.elim⟩,
    h.flags, h.patPage⟩
  intro b hb
  have hsettled := (hcoherent.blocks b hb).resolve_right fun hpending => hpending.1 trivial
  refine Or.inl fun p hp => ?_
  have hpage := hsettled p hp
  refine ⟨hpage.needs, hpage.kept, hpage.erased, ?_⟩
  intro herase hdirty a ha
  exact ⟨(hpage.room herase hdirty a ha).1, fun hfalse => hfalse.elim⟩

/-- A commit, in which some commands may fail, or a picture is read. -/
def RetryStep (s s' : Camera) : Prop :=
  ∃ call faults r, (call = .commit ∧ SafeCommit { s with faults := faults } ∨
    ∃ idx, call = .read idx) ∧ Call.run call faults s = some (r, s')

theorem SteadyStep.device {s s' : Camera} (h : Intact True s ∧ s.memDump = false)
    (hstep : SteadyStep s s') : Intact True s' ∧ s'.memDump = false := by
  refine ⟨SteadyStep.intact h.1 hstep, ?_⟩
  obtain ⟨call, faults, hallowed, hrun⟩ := hstep
  have hends := call_patValid (h.1.patValid.faults faults) (hallowed.faults faults)
  obtain ⟨_, hdump, _⟩ := hends.of_ok hrun
  exact hdump.trans h.2

theorem RetryStep.device {s s' : Camera} (h : Intact False s ∧ s.memDump = false)
    (hstep : RetryStep s s') : Intact False s' ∧ s'.memDump = false := by
  obtain ⟨call, faults, r, hcall, hrun⟩ := hstep
  have hintact := h.1.faults faults
  have hquiet : s.memDump = true → Quiet { s with faults := faults } := by
    intro hd
    rw [h.2] at hd
    cases hd
  obtain ⟨hcommit, hsafe⟩ | ⟨idx, hread⟩ := hcall
  · rw [hcommit] at hrun
    have hends := (commit_intact hintact hquiet).and (commit_ends hintact.patValid hquiet)
    cases r with
    | error e =>
      obtain ⟨hintact', _, hdump, _⟩ := hends.of_error hrun
      exact ⟨hintact' not_false h.2 hsafe, hdump.trans h.2⟩
    | ok u =>
      obtain ⟨⟨hintact', _⟩, _, hdump, _⟩ := hends.of_ok hrun
      exact ⟨hintact', hdump.trans h.2⟩
  · rw [hread] at hrun
    have hfetched : Ends (fun _ s' => Fetched { s with faults := faults } s')
        (fun _ s' => Fetched { s with faults := faults } s')
        (Call.body (.read idx) { s with faults := faults }) := by
      refine Ends.bind ((readRawFile_ends _ idx).mono (fun _ _ hok => hok) fun _ _ he => he) ?_
      intro _ s1 hok
      exact Ends.pure hok.1
    have hboth : Fetched { s with faults := faults } s' := by
      cases r with
      | error e => exact hfetched.of_error hrun
      | ok u => exact hfetched.of_ok hrun
    have hdump : s'.memDump = s.memDump := (congrArg Camera.memDump hboth.frame :)
    exact ⟨hboth.intact hintact, hdump.trans h.2⟩

/-- On a device, behind any number of commits that fail safely no page is left erased because its
flags say that it is clean, and when a commit succeeds the memory has what is to be kept. -/
theorem commit_retry {start s0 s s1 : Camera} (hfresh : Fresh start)
    (hdevice : start.memDump = false) (hopen : openDevice start = some (.ok (), s0))
    (htrue : TruePreErased s0) (hrun : Relation.ReflTransGen SteadyStep s0 s)
    (hretry : Relation.ReflTransGen RetryStep s s1) :
    (∀ a, Preserved s1 (a / pageSize) → ¬ s1.IsDirty (a / pageSize) → s1.store a = s1.logical a ∨
      s1.blockNeedsErase (a / pageSize / blockPageSize * blockPageSize) = true) ∧
    ∀ faults s', Call.run .commit faults s1 = some (.ok (), s') →
      ∀ a, Preserved s' (a / pageSize) → s'.store a = s'.logical a := by
  obtain ⟨hopened, _, hdump, _⟩ := (openDevice_ends hfresh).of_ok hopen
  obtain ⟨hintact, hdevice'⟩ :=
    invariant_of_steps (fun _ _ h hstep => SteadyStep.device h hstep) hrun
      ⟨hopened.intact htrue, hdump.trans hdevice⟩
  obtain ⟨hintact1, hdevice1⟩ :=
    invariant_of_steps (fun _ _ h hstep => RetryStep.device h hstep) hretry
      ⟨hintact.weaken, hdevice'⟩
  refine ⟨fun a ha hclean => hintact1.clean_page (hintact1.hasData ha) hclean, ?_⟩
  intro faults s' hcommit a ha
  have hquiet : s1.memDump = true → Quiet { s1 with faults := faults } := by
    intro hd
    rw [hdevice1] at hd
    cases hd
  obtain ⟨hintact', hclean⟩ := (commit_intact (hintact1.faults faults) hquiet).of_ok hcommit
  exact hintact'.store_eq hclean ha

/-- One command fails, and leaves zeros behind. -/
def onlyFails (command : Command) (other : Command) : Option Fault :=
  if other = command then some ⟨-1, fun _ => 0⟩ else none

theorem onlyFails_ne_none {command other : Command} :
    onlyFails command other ≠ none ↔ other = command := by
  unfold onlyFails
  by_cases h : other = command
  · rw [if_pos h]
    exact ⟨fun _ => h, fun _ => Option.some_ne_none _⟩
  · rw [if_neg h]
    exact ⟨fun hne => absurd rfl hne, fun heq => absurd heq h⟩

/-- A device on which the first block cannot be erased, and then can. -/
theorem commit_retry_erase : ∃ s0 r s1 s', openDevice (frame false [2]) = some (.ok (), s0) ∧
    Call.run .commit (onlyFails (.eraseBlock 0)) s0 = some (r, s1) ∧
    Call.run .commit (fun _ => none) s1 = some (.ok (), s') ∧
    ∀ a, Preserved s' (a / pageSize) → s'.store a = s'.logical a := by
  have hx : 1 ≤ (2 : UInt8).toNat ∧ (2 : UInt8).toNat ≤ 14 := by decide
  obtain ⟨s0, hopen, hopened, hmax, hdump, hstore, _⟩ :=
    frame_opens false fun i _ => one_entry 2 hx i
  have htrue := frame_truePreErased hopened hmax hstore
  have hnotDump : ∀ {s : Camera}, s.memDump = false → s.memDump = true → Quiet s := by
    intro s h h'
    rw [h] at h'
    cases h'
  have hfailing :=
    commit_ends (hopened.patValid.faults (onlyFails (.eraseBlock 0))) (hnotDump hdump)
  obtain ⟨⟨r, s1⟩, hrun⟩ := Option.ne_none_iff_exists'.mp hfailing.ne_none
  have hsafe : SafeCommit { s0 with faults := onlyFails (.eraseBlock 0) } := by
    have hsent : ∀ p, ¬ onlyFails (.eraseBlock 0) (.programPage p) ≠ none := by
      intro p hfault
      have heq := onlyFails_ne_none.mp hfault
      cases heq
    refine ⟨?_, fun p _ => not_not.mp (hsent (p * pageSize))⟩
    intro b _ _ _ p _ _ hfault
    exact absurd hfault (hsent (p * pageSize))
  have hstep : RetryStep s0 s1 := ⟨_, _, r, Or.inl ⟨rfl, hsafe⟩, hrun⟩
  obtain ⟨_, hcommit⟩ := commit_retry (frame_fresh false [2]) rfl hopen htrue
    Relation.ReflTransGen.refl (Relation.ReflTransGen.single hstep)
  have hends1 : Ends (fun _ s' => PatValid s' ∧ s'.memDump = s0.memDump)
      (fun _ s' => PatValid s' ∧ s'.memDump = s0.memDump)
      (commit { s0 with faults := onlyFails (.eraseBlock 0) }) :=
    hfailing.mono (fun _ _ h => ⟨h.1, h.2.1⟩) fun _ _ h => ⟨h.1, h.2.1⟩
  obtain ⟨hv1, hdump1⟩ : PatValid s1 ∧ s1.memDump = s0.memDump := by
    cases r with
    | error e => exact hends1.of_error hrun
    | ok u => exact hends1.of_ok hrun
  obtain ⟨_, s', hrun', _⟩ :=
    (commit_ends (hv1.faults fun _ => none) (hnotDump (hdump1.trans hdump))).exists_ok
      fun _ _ h => h.2.2.2.elim fun _ hfault => hfault rfl
  exact ⟨s0, r, s1, s', hopen, hrun, hrun', hcommit _ s' hrun'⟩

/-! ### A page that is lost -/

section

variable {s : Camera}

theorem blockDirty_eq_false {bsp : Nat} (h : ∀ p, InBlock bsp p → ¬ s.IsDirty p) :
    s.blockDirty bsp = false := by
  rw [← Bool.not_eq_true, blockDirty_iff]
  rintro ⟨p, hp, hdirty⟩
  exact h p hp hdirty

/-- With nothing dirty behind the first block, and nothing to change in the PAT, a commit is one of
the first block. -/
theorem commit_first {Q : Unit → Camera → Prop} {E : Int → Camera → Prop} (hv : PatValid s)
    (hclean : ∀ p, blockPageSize ≤ p → ¬ s.IsDirty p)
    (hmark : ∀ i < s.maxFilecount, entryDeleted (s.pat i) = true → ¬ s.slotErased i = true)
    (hgap : ∀ n, 1 ≤ n → n ≤ s.pictureCount → s.numberExists n = true)
    (h : Ends Q E (commitBlock 0 s)) : Ends Q E (commit s) := by
  have hblock : ∀ b, 1 ≤ b → s.blockDirty (b * blockPageSize) = false := by
    intro b hb
    refine blockDirty_eq_false fun p hp => hclean p ?_
    have hle := Nat.mul_le_mul_right blockPageSize hb
    unfold InBlock at hp
    omega
  have hno : NoErase s := by
    intro b hb _
    rw [← Bool.not_eq_true, blockNeedsErase_iff]
    rintro ⟨p, hp, hdirty, _⟩
    have hnone := hblock b hb
    rw [← Bool.not_eq_true, blockDirty_iff] at hnone
    exact hnone ⟨p, hp, hdirty⟩
  have hblocks : Ends (fun _ s1 => s1 = s) E (commitBlocks s) := by
    refine Ends.get_bind (@Ends.forM_range' _ _ _ (fun _ t => t = s)
      (fun b => commitBlock (b * blockPageSize)) _ _ _ rfl ?_)
    intro b t hb _ ht
    rw [ht]
    refine Ends.get_bind (Ends.ite ?_ ?_)
    · intro _
      exact Ends.pure rfl
    · intro hdirty
      rw [hblock b hb] at hdirty
      exact absurd rfl hdirty
  refine commit_rule hv (fun _ => hno) hblocks ?_
  intro s1 s3 hs1 _ hrenumbered
  rw [hs1] at hrenumbered
  rw [hrenumbered.same hmark hgap]
  exact h

/-- A commit of the first block in which page 254 cannot be programmed: page 255 was erased, and is
clean as before. -/
theorem commitBlock_lost (h : Intact True s) (hdevice : s.memDump = false)
    (hdirty : ∀ p, s.IsDirty p ↔ p = patPage)
    (hfaults : s.faults = onlyFails (.programPage (254 * pageSize))) :
    Ends (fun _ _ => False)
      (fun _ s' => SamePat s s' ∧ s'.logical = s.logical ∧ (∀ p, ¬ s'.IsDirty p) ∧
        ∀ a, a / pageSize = 255 → s'.store a = erasedByte) (commitBlock 0 s) := by
  have hfirst : InBlock 0 patPage := ⟨by decide, by decide⟩
  have hneeds : s.blockNeedsErase 0 = true :=
    (blockNeedsErase_iff s 0).mpr ⟨patPage, hfirst, (hdirty _).mpr rfl, h.patPage.erase⟩
  have hnotClean : ¬ (!s.blockDirty 0) = true := by
    rw [(blockDirty_iff s 0).mpr ⟨patPage, hfirst, (hdirty _).mpr rfl⟩]
    exact Bool.false_ne_true
  have hdata : ∀ p, InBlock 0 p → s.HasData p := by
    intro p hp
    unfold InBlock at hp
    refine h.flags.outside p (Or.inl (by omega)) ?_
    rw [blockPageSize_eq] at hp
    unfold pageSize
    obtain hsize | hsize | hsize := h.patValid.geometry.memSize <;> omega
  have honly : ∀ {command}, s.faults command ≠ none → command = .programPage (254 * pageSize) := by
    intro command hfault
    rw [hfaults] at hfault
    exact onlyFails_ne_none.mp hfault
  have hlost : s.faults (.programPage (254 * pageSize)) ≠ none := by
    rw [hfaults]
    exact onlyFails_ne_none.mpr rfl
  refine Ends.get_bind ?_
  rw [if_neg hnotClean, if_pos hneeds]
  refine (readEraseProgramBlock_ends s 0).mono ?_ ?_
  · rintro _ s' ⟨s1, s2, hfetched, _, herased, hprog⟩
    have hin : InBlock 0 254 := ⟨by decide, by decide⟩
    have hsel : s2.Selected true 254 := by
      refine Or.inr ⟨rfl, ?_⟩
      rw [HasData, herased.inside _ hin]
      show s1.HasData 254
      rw [HasData, hfetched.containsData]
      exact hdata _ hin
    have hsent := hprog.sent 254 hin.1 hin.2 hsel
    rw [herased.faults, hfetched.faults] at hsent
    exact hlost hsent
  · intro _ s' hfailed
    cases hfailed with
    | read _ hwhy =>
      rcases hwhy with ⟨offset, hfault⟩ | hbeyond
      · have heq := honly hfault
        cases heq
      · have hmem := h.patValid.geometry.memSize
        rw [blockPageSize_eq] at hbeyond
        unfold pageSize at hbeyond
        omega
    | erase s1 hfetched _ hfailed =>
      have hfault := hfailed.fault
      rw [hfetched.faults] at hfault
      have heq := honly hfault
      cases heq
    | program s1 s2 n hfetched _ herased hspoilt =>
      have hfault := hspoilt.fault
      rw [herased.faults, hfetched.faults] at hfault
      have hn : n = 254 := by
        have heq := honly hfault
        injection heq with heq
        unfold pageSize at heq
        omega
      have hdevice1 : s1.memDump = false := by
        have hsame : s1.memDump = s.memDump := (congrArg Camera.memDump hfetched.frame :)
        rw [hsame, hdevice]
      have hkept := (hfetched.kept.trans (herased.kept hdevice1)).trans
        (hspoilt.kept fun p hlow hhigh => ⟨hlow, hhigh⟩)
      obtain ⟨s3, hprog, hframe, garbage, hstore⟩ := hspoilt.before
      rw [hn] at hprog hstore
      refine ⟨hkept.samePat h.patValid.patRead, (congrArg Camera.logical hkept.frame :), ?_, ?_⟩
      · intro p hp
        have hpage := (hdirty p).mp (hkept.dirty p hp)
        -- the page with the PAT has been programmed
        have hflags : s'.pageState = s3.pageState := (congrArg Camera.pageState hframe :)
        have hdirty2 : s2.IsDirty patPage := by
          rw [IsDirty, herased.inside _ hfirst]
          show s1.IsDirty patPage
          rw [IsDirty, hfetched.dirty]
          exact (hdirty _).mpr rfl
        rw [hpage, IsDirty, hflags,
          hprog.flags patPage (by decide) (by decide) (Or.inl hdirty2)] at hp
        cases hp
      · intro a ha
        have hout : ¬ ((0 + 254) * pageSize ≤ a ∧ a < (0 + 254) * pageSize + pageSize) := by
          unfold pageSize at ha ⊢
          omega
        rw [hstore, within_outside hout, hprog.sameStore a (by omega), herased.store]
        refine within_inside (mem_block_iff.mpr ?_)
        rw [ha]
        exact ⟨by decide, by decide⟩

end

/-- All pictures of a frame were deleted, and it has no dirty page but the one with the PAT. -/
theorem Cleared.all_deleted {s t : Camera} (hcleared : Cleared (clearedBlocks s) s t)
    (h : Intact True s) (hclean : ∀ p, ¬ s.IsDirty p) {s' : Camera}
    (hs' : s' = (t.setPages (pictureOffset 0 0 / pageSize)
      ((s.memSize - constDataSize) / pageSize - pictureOffset 0 0 / pageSize)
        fun _ => {}).clearPat) :
    Intact True s' ∧ (∀ i < s'.maxFilecount, s'.pat i = entryPreErased) ∧ s'.pictureCount = 0 ∧
      (∀ p, s'.IsDirty p ↔ p = patPage) ∧ s'.memDump = s.memDump ∧
      s'.maxFilecount = s.maxFilecount ∧ ∀ a, ¬ InPat s a → s'.logical a = s.logical a := by
  have hpat := hcleared.samePat.clearPages (pictureOffset 0 0 / pageSize)
    ((s.memSize - constDataSize) / pageSize - pictureOffset 0 0 / pageSize) (by decide)
  have he := hcleared.emptied h.patValid.geometry
  have hintact := h.deleteAll trivial hcleared
  rw [← hs'] at hintact
  refine ⟨hintact, ?_⟩
  revert hs' hpat he
  generalize t.setPages (pictureOffset 0 0 / pageSize)
    ((s.memSize - constDataSize) / pageSize - pictureOffset 0 0 / pageSize) (fun _ => {}) = t'
  intro hs' hpat he
  rw [hs']
  have hmax : t'.clearPat.maxFilecount = t'.maxFilecount := rfl
  refine ⟨fun i hi => pat_clearPat hi, rfl, ?_, hpat.memDump, hmax.trans hpat.maxFilecount, ?_⟩
  · intro p
    have hnot : ¬ t'.IsDirty p := by
      by_cases hin : InArea s p
      · rw [IsDirty, he.inside p hin]
        exact Bool.false_ne_true
      · rw [IsDirty, he.outside p hin]
        exact hclean p
    refine (Camera.isDirty_patDirty _ p).trans ⟨fun hp => hp.resolve_right hnot, Or.inl⟩
  · intro a ha
    have hlogical : t'.logical = s.logical := (congrArg Camera.logical he.frame :)
    rcases (PatEdited.clearPat t').bytes a with ⟨-, hsame⟩ | ⟨hin, -⟩
    · rw [hsame, hlogical]
    · rw [InPat, hpat.maxFilecount] at hin
      exact absurd hin ha

/-- All pictures of an empty frame are deleted. The first commit fails at a page of the first block,
the second one succeeds: the page behind it is lost. -/
theorem commit_retry_loses : ∃ s0 s1 e s2 s3, openDevice (frame false []) = some (.ok (), s0) ∧
    TruePreErased s0 ∧ Call.run .deleteAll (fun _ => none) s0 = some (.ok (), s1) ∧
    Call.run .commit (onlyFails (.programPage (254 * pageSize))) s1 = some (.error e, s2) ∧
    Call.run .commit (fun _ => none) s2 = some (.ok (), s3) ∧
    Preserved s3 (65535 / pageSize) ∧ s3.store 65535 ≠ s3.logical 65535 := by
  obtain ⟨s0, hopen, hopened, hmax, hdump, hstore, _⟩ :=
    @frame_opens false [] fun i _ => Or.inl (Or.inr rfl)
  have htrue := frame_truePreErased hopened hmax hstore
  have hintact := hopened.intact htrue
  have hintact0 := hintact.faults fun _ => none
  obtain ⟨_, s1, hdelete, t, hcleared, hs1⟩ :=
    (deleteAll_ends { s0 with faults := fun _ => none }).exists_ok
      fun _ _ h => h.2.2.elim fun _ hfault => hfault rfl
  obtain ⟨hintact1, hpat1, hcount1, hdirty1, hdump1, hmax1, hlogical1⟩ :=
    hcleared.all_deleted hintact0 hopened.clean hs1
  have hmax14 : s1.maxFilecount = 14 := hmax1.trans hmax
  have hg1 := hintact1.patValid.geometry
  -- neither commit has anything to do behind the first block or with the PAT
  have hnoMark : ∀ i < s1.maxFilecount, ¬ entryDeleted (s1.pat i) = true := by
    intro i hi
    rw [hpat1 i hi]
    decide
  have hclean1 : ∀ p, blockPageSize ≤ p → ¬ s1.IsDirty p := by
    intro p hp hd
    rw [(hdirty1 p).mp hd] at hp
    exact absurd hp (by decide)
  have hfirst := @commit_first { s1 with faults := onlyFails (.programPage (254 * pageSize)) } _ _
    (hintact1.patValid.faults _) hclean1 (fun i hi hdeleted => absurd hdeleted (hnoMark i hi))
    (fun n hn hle => absurd (Nat.le_trans hn (Nat.le_trans hle (Nat.le_of_eq hcount1))) (by decide))
    (commitBlock_lost (hintact1.faults _) (hdump1.trans hdump) hdirty1 rfl)
  obtain ⟨e, s2, hcommit, hsame2, hlogical2, hclean2, hstore2⟩ := hfirst.exists_error fun _ _ h => h
  have hmax2 : s2.maxFilecount = s1.maxFilecount := hsame2.maxFilecount
  have hv2 : PatValid s2 := hsame2.patValid (hintact1.patValid.faults _)
  have hcount2 : s2.pictureCount = 0 := hsame2.pictureCount.trans hcount1
  have hsecond := @commit_first { s2 with faults := fun _ => none }
    (fun _ s' => s' = { s2 with faults := fun _ => none }) (fun _ _ => False) (hv2.faults _)
    (fun p _ => hclean2 p) ?_ ?_ ?_
  · obtain ⟨_, s3, hcommit', hs3⟩ := hsecond.exists_ok fun _ _ h => h
    refine ⟨s0, s1, e, s2, s3, hopen, htrue, hdelete, hcommit, hcommit', ?_, ?_⟩
    · refine Or.inr (Or.inl ⟨?_, fun hin => absurd hin.1 (by decide)⟩)
      have hmem := hv2.geometry.memSize
      rw [hs3]
      show 65535 / pageSize < s2.memSize / pageSize
      unfold pageSize
      obtain hsize | hsize | hsize := hmem <;> omega
    · have hout : ¬ InPat { s0 with faults := fun _ => none } 65535 := by
        intro hin
        have hhigh := hin.2
        have hmax0 : ({ s0 with faults := fun _ => none } : Camera).maxFilecount = 14 := hmax
        rw [hmax0] at hhigh
        exact absurd hhigh (by decide)
      have hstore3 : s3.store 65535 = erasedByte := by
        rw [hs3]
        exact hstore2 65535 (by decide)
      have hlogical3 : s3.logical 65535 = 0 := by
        rw [hs3]
        show s2.logical 65535 = 0
        rw [hlogical2]
        show s1.logical 65535 = 0
        rw [hlogical1 _ hout]
        show s0.logical 65535 = 0
        rw [hopened.logical, hstore]
        decide +kernel
      rw [hstore3, hlogical3]
      decide
  · intro i hi hdeleted
    have hi1 : i < s1.maxFilecount := by
      rw [← hmax2]
      exact hi
    have hpat2 : s2.pat i = s1.pat i := hsame2.pat (by omega)
    have hdeleted2 : entryDeleted (s2.pat i) = true := hdeleted
    rw [hpat2] at hdeleted2
    exact absurd hdeleted2 (hnoMark i hi1)
  · intro n hn hle
    have hle2 : n ≤ s2.pictureCount := hle
    omega
  · refine Ends.get_bind (Ends.ite ?_ ?_)
    · intro _
      exact Ends.pure rfl
    · intro hdirty
      exact absurd (congrArg not (blockDirty_eq_false fun p _ => hclean2 p)) hdirty

end GPhoto2.Tp6801
