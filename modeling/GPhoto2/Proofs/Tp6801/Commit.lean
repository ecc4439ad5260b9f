import GPhoto2.Proofs.Tp6801.Pat

/-!
# `GPhoto2.Proofs.Tp6801.Commit`: committing the changes to a tp6801 frame

`tp6801_commit` writes the blocks behind the first one (`commitBlocks_ends`), looks which deleted
slots have become erased (`markPreErased_ends`), renumbers the pictures and writes the block with
the PAT. `commit_ends` puts its parts together, as far as the PAT is concerned, and `call_patValid`
does it for each call.
-/

set_option autoImplicit false

namespace GPhoto2.Tp6801

open Lib
open Lib.Comp (Ends)
open Camera (Present)

/-! ### The blocks -/

/-- A commit that neither erases a block nor changes the PAT. -/
structure Quiet (s : Camera) : Prop where
  noErase : ∀ b < s.memSize / blockSize, s.blockNeedsErase (b * blockPageSize) = false
  noMark : ∀ i < s.maxFilecount, entryDeleted (s.pat i) = true →
    ∃ p, InSlot s i p ∧ (s.NeedsErase p ∨ s.IsDirty p)
  noGap : ∀ n, 1 ≤ n → n ≤ s.pictureCount → s.numberExists n = true

/-- The pages between the first block and block `j`. -/
def BlocksBelow (j p : Nat) : Prop := blockPageSize ≤ p ∧ p < j * blockPageSize

theorem not_blocksBelow_one (p : Nat) : ¬ BlocksBelow 1 p := by
  rintro ⟨hlow, hhigh⟩
  omega

theorem blocksBelow_succ_iff {j p : Nat} (hj : 1 ≤ j) :
    BlocksBelow (j + 1) p ↔ BlocksBelow j p ∨ InBlock (j * blockPageSize) p := by
  unfold BlocksBelow InBlock
  rw [Nat.succ_mul]
  have := Nat.mul_le_mul_right blockPageSize hj
  omega

theorem BlocksBelow.mono {j k p : Nat} (h : BlocksBelow j p) (hle : j ≤ k) : BlocksBelow k p :=
  ⟨h.1, Nat.lt_of_lt_of_le h.2 (Nat.mul_le_mul_right _ hle)⟩

/-- No block behind the first one must be erased. -/
def NoErase (s : Camera) : Prop :=
  ∀ b, 1 ≤ b → b < s.memSize / blockSize → s.blockNeedsErase (b * blockPageSize) = false

variable {s : Camera}

theorem Quiet.noErase_blocks (h : Quiet s) : NoErase s :=
  fun b _ hb => h.noErase b hb

theorem NoErase.block {s t : Camera} (h : NoErase s) {b : Nat} (hlow : 1 ≤ b)
    (hb : b < s.memSize / blockSize) (hkept : Kept (BlocksBelow b) s t) :
    t.blockNeedsErase (b * blockPageSize) = false := by
  rw [← Bool.not_eq_true, blockNeedsErase_iff]
  rintro ⟨p, hp, hdirty, herase⟩
  have hout : ¬ BlocksBelow b p := fun hin => absurd hin.2 (Nat.not_lt.mpr hp.1)
  have hs := h b hlow hb
  rw [← Bool.not_eq_true, blockNeedsErase_iff] at hs
  exact hs ⟨p, hp, hkept.dirty p hdirty,
    (hkept.erase p herase).resolve_right fun hin => hout hin.1⟩

/-- The blocks behind the first one were committed. -/
structure BlocksCommitted (s s' : Camera) : Prop where
  kept : Kept (BlocksBelow (s.memSize / blockSize)) s s'
  clean : ∀ p, BlocksBelow (s.memSize / blockSize) p → ¬ s'.IsDirty p
  needs : s.memDump = true → ∀ p, s.NeedsErase p ∨
    BlocksBelow (s.memSize / blockSize) p ∧ s.IsDirty p → s'.NeedsErase p

theorem commitBlocks_ends (s : Camera) (hsize : blockSize ≤ s.memSize)
    (hnoErase : s.memDump = true → NoErase s) :
    Ends (fun _ s' => BlocksCommitted s s')
      (fun _ s' => Kept (BlocksBelow (s.memSize / blockSize)) s s' ∧ s.Fails)
      (commitBlocks s) := by
  have hblocks : 1 + (s.memSize / blockSize - 1) = s.memSize / blockSize := by
    have hpos : 0 < s.memSize / blockSize := Nat.div_pos hsize (by decide)
    omega
  refine Ends.get_bind ?_
  have hloop := @Ends.forM_range' _ _ (fun _ s' =>
      Kept (BlocksBelow (s.memSize / blockSize)) s s' ∧ s.Fails)
    (fun j t => Kept (BlocksBelow j) s t ∧ (∀ p, BlocksBelow j p → ¬ t.IsDirty p) ∧
      (s.memDump = true → ∀ p, s.NeedsErase p ∨ BlocksBelow j p ∧ s.IsDirty p → t.NeedsErase p))
    (fun b => commitBlock (b * blockPageSize)) 1 (s.memSize / blockSize - 1) s ?_ ?_
  · rw [hblocks] at hloop
    exact hloop.mono (fun _ _ h => ⟨h.1, h.2.1, h.2.2⟩) fun _ _ h => h
  · exact ⟨Kept.refl _ s, fun p hp => absurd hp (not_blocksBelow_one p),
      fun _ p hp => hp.resolve_right fun h => not_blocksBelow_one p h.1⟩
  · rintro b t hlow hhigh ⟨hkept, hclean, hneeds⟩
    have hdump : t.memDump = s.memDump := (congrArg Camera.memDump hkept.frame :)
    have hmemSize : t.memSize = s.memSize := (congrArg Camera.memSize hkept.frame :)
    have hfaults : t.faults = s.faults := (congrArg Camera.faults hkept.frame :)
    have hnoErase' : s.memDump = true → t.blockNeedsErase (b * blockPageSize) = false :=
      fun h => (hnoErase h).block hlow (by omega) hkept
    refine (commitBlock_kept t (b * blockPageSize) (by rwa [hdump])).mono ?_ ?_
    · rintro _ s' ⟨hkept', hclean', hneeds'⟩
      have hbelow : Kept (BlocksBelow (b + 1)) t s' :=
        hkept'.mono fun p hp => (blocksBelow_succ_iff hlow).mpr (Or.inr hp)
      refine ⟨(hkept.mono fun p hp => hp.mono (Nat.le_succ b)).trans hbelow, ?_, ?_⟩
      · intro p hp hdirty
        rcases (blocksBelow_succ_iff hlow).mp hp with hbefore | hhere
        · exact hclean p hbefore (hbelow.dirty p hdirty)
        · exact hclean' p hhere hdirty
      · intro h p hp
        apply hneeds' (hnoErase' h)
        by_cases hhere : InBlock (b * blockPageSize) p ∧ s.IsDirty p
        · have hout : ¬ BlocksBelow b p := fun hin => absurd hin.2 (Nat.not_lt.mpr hhere.1.1)
          exact Or.inr ⟨hhere.1, hkept.elsewhere p hout hhere.2⟩
        · refine Or.inl (hneeds h p (hp.imp_right fun hin => ⟨?_, hin.2⟩))
          exact ((blocksBelow_succ_iff hlow).mp hin.1).resolve_right
            fun hblock => hhere ⟨hblock, hin.2⟩
    · rintro _ s' ⟨hkept', hwhy⟩
      have hfails : s.Fails := by
        rw [Camera.Fails, hfaults, hmemSize] at hwhy
        refine hwhy.resolve_right fun hbeyond => ?_
        have hle : (b + 1) * blockSize ≤ s.memSize / blockSize * blockSize :=
          Nat.mul_le_mul_right _ (by omega)
        have hsame : (b * blockPageSize + blockPageSize) * pageSize = (b + 1) * blockSize := by
          unfold blockPageSize blockSize pageSize
          omega
        have := Nat.div_mul_le_self s.memSize blockSize
        omega
      refine ⟨(hkept.mono fun p hp => hp.mono (by omega)).trans (hkept'.mono ?_), hfails⟩
      intro p hp
      exact ((blocksBelow_succ_iff hlow).mpr (Or.inr hp)).mono (by omega)

/-! ### Marking the erased slots -/

/-- Some deleted slots that are erased became pre-erased. -/
structure Marked (s s' : Camera) : Prop where
  edited : PatEdited s s'
  pictureCount : s'.pictureCount = s.pictureCount
  patValid : PatValid s'
  pat : ∀ i < s.maxFilecount, s'.pat i = s.pat i ∨
    entryDeleted (s.pat i) = true ∧ s.slotErased i = true ∧ s'.pat i = entryPreErased
  unmarked : (∀ i < s.maxFilecount, entryDeleted (s.pat i) = true → ¬ s.slotErased i = true) →
    s' = s

/-- The second loop of `tp6801_commit` changes no entry of a picture. -/
theorem markPreErased_ends (hv : PatValid s) :
    Ends (fun _ s' => Marked s s') (fun _ _ => False) (markPreErased s) := by
  refine Ends.get_bind ?_
  refine @Ends.forM_range _ _ _ (fun _ t => Marked s t) _ _ _ ?_ ?_
  · exact ⟨PatEdited.refl s, rfl, hv, fun _ _ => Or.inl rfl, fun _ => rfl⟩
  intro i t hi hmarked
  have hmax := hv.geometry.maxFilecount_le
  have hpat : ∀ x j, (t.setPat i x).patDirty.pat j = if j = i then x else t.pat j :=
    fun x j => t.pat_setPat i x j
  refine Ends.modify ?_
  show Marked s (if _ then _ else _)
  by_cases hmark : (entryDeleted (t.pat i) && t.slotErased i) = true
  · rw [if_pos hmark]
    rw [Bool.and_eq_true] at hmark
    have hold : t.pat i = s.pat i := by
      rcases hmarked.pat i hi with hsame | ⟨-, -, hnew⟩
      · exact hsame
      · rw [hnew] at hmark
        exact absurd hmark.1 (by decide)
    have hdeleted : entryDeleted (s.pat i) = true := by
      rw [← hold]
      exact hmark.1
    have herased : s.slotErased i = true := by
      rw [← hmarked.edited.slotErased]
      exact hmark.2
    have hi' : i < t.maxFilecount := by
      rw [hmarked.edited.maxFilecount]
      exact hi
    refine ⟨hmarked.edited.trans (PatEdited.setPat hi' _), hmarked.pictureCount,
      hmarked.patValid.setSpecial i (Or.inr rfl), ?_, ?_⟩
    · intro j hj
      rw [hpat]
      by_cases hji : j = i
      · rw [if_pos hji, hji]
        exact Or.inr ⟨hdeleted, herased, rfl⟩
      · rw [if_neg hji]
        exact hmarked.pat j hj
    · intro hnone
      exact absurd herased (hnone i hi hdeleted)
  · rw [if_neg hmark]
    exact hmarked

section

variable {s s' : Camera}

variable (h : Marked s s')
include h

theorem Marked.pat_eq {i : Nat} (hi : i < s.maxFilecount)
    (hspecial : ¬ Special (s'.pat i) ∨ ¬ Special (s.pat i)) : s'.pat i = s.pat i := by
  rcases h.pat i hi with hsame | ⟨hdeleted, -, hnew⟩
  · exact hsame
  · rcases hspecial with hnot | hnot
    · exact absurd (Or.inr hnew) hnot
    · exact absurd (Or.inl hdeleted) hnot

theorem Marked.present_iff (hv : PatValid s) {i : Nat}
    (hi : i < s.maxFilecount) : s'.Present i ↔ s.Present i := by
  unfold Present
  rw [h.pictureCount]
  constructor
  · intro hp
    have hnot := h.patValid.not_special (i := i) (by rwa [Present, h.pictureCount])
    rwa [← h.pat_eq hi (Or.inl hnot)]
  · intro hp
    rwa [h.pat_eq hi (Or.inr (hv.not_special hp))]

theorem Marked.samePictures (hv : PatValid s) : SamePictures s s' := by
  refine ⟨h.edited.maxFilecount, h.edited.filesize, fun i hi => h.present_iff hv hi, ?_⟩
  intro i hi j hj hpi hpj
  rw [h.pat_eq hi (Or.inr (hv.not_special hpi)), h.pat_eq hj (Or.inr (hv.not_special hpj))]

theorem Marked.distinct (hv : PatValid s) (hd : Distinct s) : Distinct s' := by
  intro i hi j hj hp heq
  rw [h.edited.maxFilecount] at hi hj
  have hpi := (h.present_iff hv hi).mp hp
  have hpj : s'.Present j := by
    rw [Present, ← heq]
    exact hp
  have hi' := h.pat_eq hi (Or.inl (h.patValid.not_special hp))
  have hj' := h.pat_eq hj (Or.inl (h.patValid.not_special hpj))
  rw [hi', hj'] at heq
  exact hd i hi j hj hpi heq

theorem Marked.numberExists_iff (hv : PatValid s) {n : Nat} (hn : 1 ≤ n)
    (hle : n ≤ s.pictureCount) : s'.numberExists n = true ↔ s.numberExists n = true := by
  rw [Camera.numberExists_iff, Camera.numberExists_iff, h.edited.maxFilecount]
  apply exists_congr
  intro i
  apply and_congr_right
  intro hi
  have hfew := hv.few
  constructor
  · intro heq
    have hnot : ¬ Special (s'.pat i) := by
      intro hspecial
      have := special_toNat hspecial
      omega
    rwa [← h.pat_eq hi (Or.inl hnot)]
  · intro heq
    have hnot : ¬ Special (s.pat i) := by
      intro hspecial
      have := special_toNat hspecial
      omega
    rwa [h.pat_eq hi (Or.inr hnot)]

end

/-! ### The whole commit -/

theorem SamePat.numberExists {s' : Camera} (h : SamePat s s') (hg : Geometry s) (n : Nat) :
    s'.numberExists n = true ↔ s.numberExists n = true := by
  have hmax := hg.maxFilecount_le
  rw [Camera.numberExists_iff, Camera.numberExists_iff, h.maxFilecount]
  apply exists_congr
  intro i
  apply and_congr_right
  intro hi
  rw [h.pat (by omega)]

theorem Geometry.blocksBelow (h : Geometry s) {i p : Nat} (hi : i < s.maxFilecount)
    (hp : InSlot s i p) : BlocksBelow (s.memSize / blockSize) p := by
  have hroom := h.slot_lt hi
  unfold InSlot pictureOffset at hp
  unfold BlocksBelow
  rw [h.filesize] at hp hroom
  unfold pictureOffset constDataSize at hroom
  unfold pageSize at hp
  rw [blockPageSize_eq]
  unfold blockSize
  obtain hsize | hsize | hsize := h.memSize <;> omega

variable {s1 : Camera}

theorem Quiet.not_slotErased (hg : Geometry s) (hquiet : Quiet s)
    (hpat : SamePat s s1)
    (hneeds : ∀ p, s.NeedsErase p ∨
      BlocksBelow (s.memSize / blockSize) p ∧ s.IsDirty p → s1.NeedsErase p)
    {i : Nat} (hi : i < s1.maxFilecount) (hdeleted : entryDeleted (s1.pat i) = true) :
    ¬ s1.slotErased i = true := by
  have hmax := hg.maxFilecount_le
  rw [hpat.maxFilecount] at hi
  rw [hpat.pat (by omega)] at hdeleted
  obtain ⟨p, hp, hpage⟩ := hquiet.noMark i hi hdeleted
  have hbelow := hg.blocksBelow hi hp
  have hp' : InSlot s1 i p := by
    rwa [InSlot, hpat.filesize]
  intro herased
  exact (slotErased_iff s1 i).mp herased p hp' (hneeds p (hpage.imp_right fun h => ⟨hbelow, h⟩))

theorem Quiet.first_block (hg : Geometry s) (hquiet : Quiet s)
    (hkept : Kept (BlocksBelow (s.memSize / blockSize)) s s1) :
    s1.blockNeedsErase 0 = false := by
  rw [← Bool.not_eq_true, blockNeedsErase_iff]
  rintro ⟨p, hp, hdirty, herase⟩
  have hsize : 0 < s.memSize / blockSize := by
    unfold blockSize
    obtain hsize | hsize | hsize := hg.memSize <;> omega
  have hno := hquiet.noErase 0 hsize
  rw [Nat.zero_mul, ← Bool.not_eq_true, blockNeedsErase_iff] at hno
  apply hno
  refine ⟨p, hp, hkept.dirty p hdirty, ?_⟩
  rcases hkept.erase p herase with hneeds | ⟨hin, -⟩
  · exact hneeds
  · unfold InBlock at hp
    unfold BlocksBelow at hin
    omega

/-- A number is missing. -/
def Gap (s : Camera) : Prop := ∃ n, 1 ≤ n ∧ n ≤ s.pictureCount ∧ ¬ s.numberExists n = true

/-- Two numbers in a row are missing. -/
def DoubleGap (s : Camera) : Prop :=
  ∃ n, 1 ≤ n ∧ n < s.pictureCount ∧ ¬ s.numberExists n = true ∧ ¬ s.numberExists (n + 1) = true

/-- What `tp6801_commit` has done of a commit when only the first block is left: `s1` is the frame
after the other blocks. -/
structure Renumbered (s s1 s3 : Camera) : Prop where
  edited : PatEdited s1 s3
  patValid : PatValid s3
  pictures : SamePictures s s3
  distinct : Distinct s → Distinct s3
  closed : NoDoubleGap s 1 → NumbersBelow s3 (s3.pictureCount + 1)
  gap : DoubleGap s → Gap s3
  preErased : ∀ i < s1.maxFilecount, s3.pat i = entryPreErased → s1.pat i = entryPreErased ∨
    entryDeleted (s1.pat i) = true ∧ s1.slotErased i = true
  same : (∀ i < s1.maxFilecount, entryDeleted (s1.pat i) = true → ¬ s1.slotErased i = true) →
    (∀ n, 1 ≤ n → n ≤ s1.pictureCount → s1.numberExists n = true) → s3 = s1

/-- What the second and the third loop of `tp6801_commit` do to the PAT. -/
theorem Marked.renumbered {s2 s3 : Camera} (hv : PatValid s) (hpat : SamePat s s1)
    (hmarked : Marked s1 s2) (hrun : renumber s2.pictureCount 1 s2 = some (.ok (), s3)) :
    Renumbered s s1 s3 := by
  have hg := hv.geometry
  have hv1 := hpat.patValid hv
  have hv2 := hmarked.patValid
  have hsame2 := (hpat.samePictures hg).trans (hmarked.samePictures hv1)
  obtain ⟨hedited, hv3, hsame3, hdistinct3, hspecial3⟩ :=
    (renumber_edited (Nat.le_refl 1) hv2).of_ok hrun
  have hcount : s2.pictureCount = s.pictureCount := by
    rw [hmarked.pictureCount, hpat.pictureCount]
  have hexists : ∀ n, 1 ≤ n → n ≤ s.pictureCount →
      (s2.numberExists n = true ↔ s.numberExists n = true) := by
    intro n hn hle
    rw [← hpat.pictureCount] at hle
    exact (hmarked.numberExists_iff hv1 hn hle).trans (hpat.numberExists hg n)
  have hrounds : s2.pictureCount + 1 ≤ 1 + s2.pictureCount := Nat.le_of_eq (Nat.add_comm _ _)
  refine ⟨hmarked.edited.trans hedited, hv3, hsame2.trans hsame3, ?_, ?_, ?_, ?_, ?_⟩
  · intro hd
    exact hdistinct3 (hmarked.distinct hv1 (hpat.distinct hg hd))
  · intro hgap
    refine (renumber_ends (Nat.le_refl 1) ?_ ?_ hrounds).of_ok hrun
    · intro n hlow hhigh _
      omega
    · intro n hn hle
      rw [hcount] at hle
      rw [hexists n hn (by omega), hexists (n + 1) (by omega) hle]
      exact hgap n hn hle
  · rintro ⟨n, hn, hlt, hmissing, hnext⟩
    refine (renumber_doubleGap (Nat.le_refl 1) ?_ hrounds).of_ok hrun
    refine Or.inl ⟨n, hn, by omega, ?_, ?_⟩
    · rwa [hexists n hn (by omega)]
    · rwa [hexists (n + 1) (by omega) hlt]
  · intro i hi heq
    have hi2 : i < s2.maxFilecount := by rwa [hmarked.edited.maxFilecount]
    have hi3 : i < s3.maxFilecount := by rwa [hsame3.maxFilecount]
    have hnot : ¬ s2.Present i := by
      intro hp
      refine hv3.not_special ((hsame3.present i hi2).mpr hp) ?_
      rw [heq]
      exact Or.inr rfl
    have hspecial := (hv2.entries i hi2).resolve_right hnot
    have hsame := hspecial3 i hi2 hspecial
    rw [heq] at hsame
    rcases hmarked.pat i hi with hold | ⟨hdeleted, herased, -⟩
    · exact Or.inl (hold.symm.trans hsame.symm)
    · exact Or.inr ⟨hdeleted, herased⟩
  · intro hunmarked hnoGap
    have hsame := hmarked.unmarked hunmarked
    rw [hsame, @renumber_noGap s1.pictureCount 1 s1 hnoGap] at hrun
    injection hrun with hpair
    injection hpair with _ hstate
    exact hstate.symm

/-- The outcome of `tp6801_commit` from those of its parts that write blocks. -/
theorem commit_rule {R : Camera → Prop} {Q : Unit → Camera → Prop}
    {E : Int → Camera → Prop} (hv : PatValid s) (hnoErase : s.memDump = true → NoErase s)
    (hblocks : Ends (fun _ s1 => R s1) E (commitBlocks s))
    (hlast : ∀ s1 s3, R s1 → BlocksCommitted s s1 → Renumbered s s1 s3 →
      Ends Q E (commitBlock 0 s3)) : Ends Q E (commit s) := by
  have hg := hv.geometry
  have hsize : blockSize ≤ s.memSize := by
    unfold blockSize
    obtain hsize | hsize | hsize := hg.memSize <;> omega
  refine Ends.bind
    ((hblocks.and (commitBlocks_ends s hsize hnoErase)).mono (fun _ _ h => h) fun _ _ h => h.1) ?_
  rintro _ s1 ⟨hR, hcommitted⟩
  have hpat := hcommitted.kept.samePat hv.patRead
  have hv1 := hpat.patValid hv
  refine Ends.bind ((markPreErased_ends hv1).mono (fun _ _ h => h) fun _ _ h => h.elim) ?_
  intro _ s2 hmarked
  refine Ends.get_bind ?_
  obtain ⟨_, s3, hrun, _⟩ :=
    (@renumber_edited s2.pictureCount 1 s2 (Nat.le_refl 1) hmarked.patValid).exists_ok
      fun _ _ hfalse => hfalse
  rw [Comp.bind_run_ok hrun]
  exact hlast s1 s3 hR hcommitted (hmarked.renumbered hv hpat hrun)

/-- With a dump, nothing has changed up to the last step of a quiet commit. -/
theorem Renumbered.quiet {s3 : Camera} (h : Renumbered s s1 s3) (hv : PatValid s)
    (hcommitted : BlocksCommitted s s1) (hquiet : s.memDump = true → Quiet s)
    (hdump3 : s3.memDump = true) : s3.blockNeedsErase 0 = false := by
  have hg := hv.geometry
  have hpat := hcommitted.kept.samePat hv.patRead
  have hdump : s.memDump = true := by
    have h3 : s3.memDump = s1.memDump := (congrArg Camera.memDump h.edited.frame :)
    rwa [h3, hpat.memDump] at hdump3
  have hq := hquiet hdump
  have hsame : s3 = s1 := by
    apply h.same
    · intro i hi hdeleted
      exact hq.not_slotErased hg hpat (hcommitted.needs hdump) hi hdeleted
    · intro n hn hle
      rw [hpat.pictureCount] at hle
      exact (hpat.numberExists hg n).mpr (hq.noGap n hn hle)
  rw [hsame]
  exact hq.first_block hg hcommitted.kept

theorem Renumbered.last_ends {s3 : Camera} (h : Renumbered s s1 s3)
    (hquiet : s3.memDump = true → s3.blockNeedsErase 0 = false) :
    Ends (fun _ s' => SamePat s3 s' ∧ ∀ p, InBlock 0 p → ¬ s'.IsDirty p)
      (fun _ s' => SamePat s3 s' ∧ s1.Fails) (commitBlock 0 s3) := by
  have hfaults : s3.faults = s1.faults := (congrArg Camera.faults h.edited.frame :)
  refine (commitBlock_kept s3 0 hquiet).mono ?_ ?_
  · rintro _ s' ⟨hkept, hclean, _⟩
    exact ⟨hkept.samePat h.patValid.patRead, hclean⟩
  · rintro _ s' ⟨hkept, hwhy⟩
    refine ⟨hkept.samePat h.patValid.patRead, ?_⟩
    rcases hwhy with hfails | hbeyond
    · rwa [Camera.Fails, hfaults] at hfails
    · have hmem := h.patValid.geometry.memSize
      rw [blockPageSize_eq] at hbeyond
      unfold pageSize at hbeyond
      omega

/-- What `tp6801_commit` makes of the numbers. -/
theorem commit_ends (hv : PatValid s) (hquiet : s.memDump = true → Quiet s) :
    Ends
      (fun _ s' => PatValid s' ∧ s'.memDump = s.memDump ∧ SamePictures s s' ∧
        (Distinct s → Distinct s') ∧ (NoDoubleGap s 1 → NumbersBelow s' (s'.pictureCount + 1)) ∧
        (DoubleGap s → Gap s'))
      (fun _ s' => PatValid s' ∧ s'.memDump = s.memDump ∧ (Distinct s → Distinct s') ∧ s.Fails)
      (commit s) := by
  have hg := hv.geometry
  have hsize : blockSize ≤ s.memSize := by
    unfold blockSize
    obtain hsize | hsize | hsize := hg.memSize <;> omega
  have hnoErase : s.memDump = true → NoErase s := fun hdump => (hquiet hdump).noErase_blocks
  refine commit_rule (R := fun _ => True) hv hnoErase
    ((commitBlocks_ends s hsize hnoErase).mono ?_ ?_) ?_
  · intro _ _ _
    trivial
  · rintro _ s1 ⟨hkept, hfails⟩
    have hpat := hkept.samePat hv.patRead
    exact ⟨hpat.patValid hv, hpat.memDump, hpat.distinct hg, hfails⟩
  · intro s1 s3 _ hcommitted hrenumbered
    have hg3 := hrenumbered.patValid.geometry
    have hdump3 : s3.memDump = s.memDump := by
      have h3 : s3.memDump = s1.memDump := (congrArg Camera.memDump hrenumbered.edited.frame :)
      have h1 : s1.memDump = s.memDump := (congrArg Camera.memDump hcommitted.kept.frame :)
      rw [h3, h1]
    refine (hrenumbered.last_ends (hrenumbered.quiet hv hcommitted hquiet)).mono ?_ ?_
    · rintro _ s' ⟨hpat, _⟩
      refine ⟨hpat.patValid hrenumbered.patValid, hpat.memDump.trans hdump3,
        hrenumbered.pictures.trans (hpat.samePictures hg3),
        fun hd => hpat.distinct hg3 (hrenumbered.distinct hd), ?_, ?_⟩
      · intro hgap n hlow _ hle
        rw [hpat.pictureCount] at hle
        exact (hpat.numberExists hg3 n).mpr (hrenumbered.closed hgap n hlow (by omega) hle)
      · intro hgap
        obtain ⟨n, hlow, hle, hmissing⟩ := hrenumbered.gap hgap
        refine ⟨n, hlow, ?_, ?_⟩
        · rwa [hpat.pictureCount]
        · rwa [hpat.numberExists hg3]
    · rintro _ s' ⟨hpat, hfails⟩
      have hfaults : s1.faults = s.faults :=
        (congrArg Camera.faults hcommitted.kept.frame :)
      rw [Camera.Fails, hfaults] at hfails
      exact ⟨hpat.patValid hrenumbered.patValid, hpat.memDump.trans hdump3,
        fun hd => hpat.distinct hg3 (hrenumbered.distinct hd), hfails⟩

/-! ## The calls that work on the pictures of a tp6801 frame

One lemma for each call, with what it changes whether it succeeds or fails: `readRawFile_ends`,
`writeFile_ends`, `deleteFile_ends` and `deleteAll_ends`. `call_patValid` is what they all keep.
-/

theorem filePresent_cases (s : Camera) (idx : Nat) :
    s.filePresent idx = .ok true ∧ idx < s.maxFilecount ∧ s.Present idx ∨
      ¬ (idx < s.maxFilecount ∧ s.Present idx) ∧
        (s.filePresent idx = .ok false ∨ ∃ e, s.filePresent idx = .error e) := by
  unfold Camera.filePresent
  by_cases hbeyond : idx ≥ s.maxFilecount
  · rw [if_pos hbeyond]
    exact Or.inr ⟨fun h => absurd h.1 (Nat.not_lt.mpr hbeyond), Or.inr ⟨_, rfl⟩⟩
  · rw [if_neg hbeyond]
    by_cases hpresent : 1 ≤ (s.pat idx).toNat ∧ (s.pat idx).toNat ≤ s.pictureCount
    · rw [if_pos hpresent]
      exact Or.inl ⟨rfl, Nat.lt_of_not_le hbeyond, hpresent⟩
    · rw [if_neg hpresent]
      refine Or.inr ⟨fun h => hpresent h.2, ?_⟩
      by_cases hspecial : entryDeleted (s.pat idx) = true ∨ s.pat idx = entryPreErased
      · rw [if_pos hspecial]
        exact Or.inl rfl
      · rw [if_neg hspecial]
        exact Or.inr ⟨_, rfl⟩

theorem checkFilePresent_ends (s : Camera) (idx : Nat) :
    Ends (fun _ s' => s' = s ∧ idx < s.maxFilecount ∧ s.Present idx)
      (fun _ s' => s' = s ∧ ¬ (idx < s.maxFilecount ∧ s.Present idx)) (checkFilePresent idx s) := by
  refine Ends.get_bind ?_
  rcases filePresent_cases s idx with ⟨hrun, hidx, hpresent⟩ | ⟨hnot, hrun | ⟨e, hrun⟩⟩
  · rw [hrun]
    exact Ends.pure ⟨rfl, hidx, hpresent⟩
  · rw [hrun]
    exact Ends.throw ⟨rfl, hnot⟩
  · rw [hrun]
    exact Ends.throw ⟨rfl, hnot⟩

theorem readRawFile_ends (s : Camera) (idx : Nat) :
    Ends
      (fun bytes s' => Fetched s s' ∧ idx < s.maxFilecount ∧ s.Present idx ∧
        (∀ p, pictureOffset idx s.filesize / pageSize ≤ p →
          p < pictureOffset idx s.filesize / pageSize +
            pagesOf (pictureOffset idx s.filesize) s.filesize → s'.IsRead p) ∧
        bytes = (List.range s.filesize).map fun k => s'.mem (pictureOffset idx s.filesize + k))
      (fun _ s' => Fetched s s') (readRawFile idx s) := by
  refine Ends.get_bind ?_
  refine Ends.bind ((checkFilePresent_ends s idx).mono (fun _ _ h => h) ?_) ?_
  · rintro _ s' ⟨hs', _⟩
    rw [hs']
    exact Fetched.refl s
  rintro _ s' ⟨hs', hidx, hpresent⟩
  rw [hs']
  refine Ends.bind ((readMem_ends s _ _).mono (fun _ _ h => h) fun _ _ h => h.1) ?_
  rintro _ s1 ⟨hfetched, hread⟩
  exact Ends.get_bind (Ends.pure ⟨hfetched, hidx, hpresent, hread, rfl⟩)

variable {s : Camera}

theorem findSlot_spec {i : Nat} (h : findSlot s = some i) :
    i < s.maxFilecount ∧ Special (s.pat i) := by
  unfold findSlot at h
  rw [Option.or_eq_some_iff] at h
  rcases h with hfirst | ⟨-, hsecond⟩
  · have hpat := List.find?_some hfirst
    exact ⟨List.mem_range.mp (List.mem_of_find?_eq_some hfirst), Or.inr (of_decide_eq_true hpat)⟩
  · have hpat := List.find?_some hsecond
    exact ⟨List.mem_range.mp (List.mem_of_find?_eq_some hsecond), Or.inl hpat⟩

theorem writeFile_ends (s : Camera) (picture : Nat → UInt8) :
    Ends
      (fun _ s' => ∃ i s1, i < s.maxFilecount ∧ Special (s.pat i) ∧ Fetched s s1 ∧
        s' = (s1.put (pictureOffset i s.filesize)
          ((List.range s.filesize).map picture)).addPicture i)
      (fun _ s' => Fetched s s') (writeFile picture s) := by
  refine Ends.get_bind ?_
  cases hslot : findSlot s with
  | none => exact Ends.throw (Fetched.refl s)
  | some i =>
    obtain ⟨hi, hspecial⟩ := findSlot_spec hslot
    refine Ends.bind ((writeMem_ends s _ _).mono (fun _ _ h => h) fun _ _ h => h.1) ?_
    rintro _ s' ⟨s1, hfetched, hs', _⟩
    rw [hs']
    exact Ends.modify ⟨i, s1, hi, hspecial, hfetched, rfl⟩

theorem deleteFile_ends (s : Camera) (idx : Nat) :
    Ends
      (fun _ s' => idx < s.maxFilecount ∧ s.Present idx ∧
        s' = (s.setPat idx entryDeletedWin).patDirty)
      (fun _ s' => s' = s ∧ ¬ (idx < s.maxFilecount ∧ s.Present idx)) (deleteFile idx s) := by
  refine Ends.bind (checkFilePresent_ends s idx) ?_
  rintro _ s' ⟨hs', hidx, hpresent⟩
  rw [hs']
  exact Ends.modify ⟨hidx, hpresent, rfl⟩

/-! ### Deleting all -/

/-- The first `n` blocks behind the first one were erased, and no flag says so yet. -/
structure Cleared (n : Nat) (s s' : Camera) : Prop where
  frame : { s' with store := s.store, mem := s.mem } = s
  store : s'.store = within blockSize (n * blockSize) (fun _ => erasedByte) s.store
  mem : s'.mem = if s.memDump then within blockSize (n * blockSize) (fun _ => erasedByte) s.mem
    else s.mem

theorem within_within {offset n m : Nat} {new old : Nat → UInt8} :
    within (offset + n) m new (within offset n new old) = within offset (n + m) new old := by
  funext a
  unfold within
  by_cases hfirst : offset ≤ a ∧ a < offset + n
  · rw [if_neg (by omega), if_pos hfirst, if_pos (by omega)]
  · by_cases hsecond : offset + n ≤ a ∧ a < offset + n + m
    · rw [if_pos hsecond, if_pos (by omega)]
    · rw [if_neg hsecond, if_neg hfirst, if_neg (by omega)]

/-- The number of blocks that `tp6801_delete_all` erases. -/
def clearedBlocks (s : Camera) : Nat :=
  (s.memSize - constDataSize - pictureOffset 0 0 + (blockSize - 1)) / blockSize

/-- `tp6801_delete_all` erases the blocks with pictures, and clears their flags and the PAT. -/
theorem deleteAll_ends (s : Camera) :
    Ends
      (fun _ s' => ∃ s1, Cleared (clearedBlocks s) s s1 ∧
        s' = (s1.setPages (pictureOffset 0 0 / pageSize)
          ((s.memSize - constDataSize) / pageSize - pictureOffset 0 0 / pageSize)
          fun _ => {}).clearPat)
      (fun _ s' => { s' with store := s.store, mem := s.mem } = s ∧
        (∀ a < blockSize, s'.mem a = s.mem a ∧ s'.store a = s.store a) ∧ s.Fails)
      (deleteAll s) := by
  refine Ends.get_bind ?_
  refine @Ends.bind _ _ _ _ _ _ (fun _ s1 => Cleared (clearedBlocks s) s s1) _ _ _ ?_ ?_
  · refine @Ends.forM_range _ _ _ (fun n s1 => Cleared n s s1) _ _ _ ?_ ?_
    · refine ⟨rfl, ?_, ?_⟩
      · rw [Nat.zero_mul]
        funext a
        exact (within_outside (by omega)).symm
      · have hnone : within blockSize (0 * blockSize) (fun _ => erasedByte) s.mem = s.mem := by
          rw [Nat.zero_mul]
          funext a
          exact within_outside (by omega)
        rw [hnone, ite_self]
    · intro n s1 hn hcleared
      have hdump : s1.memDump = s.memDump := (congrArg Camera.memDump hcleared.frame :)
      have hfaults : s1.faults = s.faults := (congrArg Camera.faults hcleared.frame :)
      have hoffset : pictureOffset 0 0 + n * blockSize = blockSize + n * blockSize := rfl
      refine Ends.modify_bind ?_
      rw [hoffset, hdump]
      have hnext : within (blockSize + n * blockSize) blockSize (fun _ => erasedByte) s1.store =
          within blockSize ((n + 1) * blockSize) (fun _ => erasedByte) s.store := by
        rw [hcleared.store, within_within, Nat.succ_mul]
      by_cases h : s.memDump = true
      · rw [if_pos h]
        have hmem := hcleared.mem
        rw [if_pos h] at hmem
        have hnextMem : within (blockSize + n * blockSize) blockSize (fun _ => erasedByte) s1.mem =
            within blockSize ((n + 1) * blockSize) (fun _ => erasedByte) s.mem := by
          rw [hmem, within_within, Nat.succ_mul]
        refine (sendCmd_ends _ _ _ _ _).mono ?_ ?_
        · rintro _ s' ⟨hs', _⟩
          rw [hs']
          refine ⟨hcleared.frame, hnext, ?_⟩
          rw [if_pos h]
          exact hnextMem
        · rintro _ s' ⟨hfault, garbage, hs'⟩
          rw [hs']
          refine ⟨hcleared.frame, ?_, _, hfaults ▸ hfault⟩
          intro a ha
          constructor
          · show within (blockSize + n * blockSize) blockSize (fun _ => erasedByte) s1.mem a = _
            rw [hnextMem]
            exact within_outside (by omega)
          · show within _ _ _ s1.store a = _
            rw [within_outside (by omega), hcleared.store]
            exact within_outside (by omega)
      · rw [if_neg h]
        have hmem := hcleared.mem
        rw [if_neg h] at hmem
        refine (sendCmd_ends _ _ _ _ _).mono ?_ ?_
        · rintro _ s' ⟨hs', _⟩
          rw [hs']
          refine ⟨hcleared.frame, hnext, ?_⟩
          rw [if_neg h]
          exact hmem
        · rintro _ s' ⟨hfault, garbage, hs'⟩
          rw [hs']
          refine ⟨hcleared.frame, ?_, _, hfaults ▸ hfault⟩
          intro a ha
          constructor
          · show s1.mem a = _
            rw [hmem]
          · show within _ _ _ s1.store a = _
            rw [within_outside (by omega), hcleared.store]
            exact within_outside (by omega)
  · intro _ s1 hcleared
    exact Ends.modify_bind (Ends.modify ⟨s1, hcleared, rfl⟩)

/-! ### The PAT under the calls -/

section

variable {s s' : Camera}

theorem patPage_block {a : Nat} (ha : a / pageSize = patPage) : a < blockSize := by
  unfold patPage patOffset pageSize at ha
  unfold blockSize
  omega

theorem Fetched.samePat (h : Fetched s s') (hread : s.IsRead patPage) : SamePat s s' :=
  have hkept : Kept (fun _ => False) s s' := h.kept
  hkept.samePat hread

theorem SamePat.put {offset : Nat} (buf : List UInt8) (hoffset : blockSize ≤ offset) :
    SamePat s (s.put offset buf) := by
  refine ⟨rfl, rfl, rfl, rfl, rfl, ?_, ?_⟩
  · intro a ha
    have hlow := patPage_block ha
    rw [put_mem]
    exact within_outside (by omega)
  · intro hread
    have hpage : patPage < offset / pageSize := by
      unfold blockSize at hoffset
      unfold patPage patOffset pageSize
      omega
    rw [Camera.IsRead, Camera.put, Camera.setPages_outside _ _ (by omega)]
    exact hread

theorem SamePat.clearPages (h : SamePat s s') (page n : Nat) (hpage : patPage < page) :
    SamePat s (s'.setPages page n fun _ => {}) := by
  refine ⟨h.width, h.height, h.memSize, h.memDump, h.pictureCount, h.bytes, ?_⟩
  intro hread
  rw [Camera.IsRead, Camera.setPages_outside _ _ (by omega)]
  exact h.read hread

theorem SamePat.of_frame (hframe : { s' with store := s.store, mem := s.mem } = s)
    (hmem : ∀ a < blockSize, s'.mem a = s.mem a) : SamePat s s' := by
  refine ⟨(congrArg Camera.width hframe :), (congrArg Camera.height hframe :),
    (congrArg Camera.memSize hframe :), (congrArg Camera.memDump hframe :),
    (congrArg Camera.pictureCount hframe :), fun a ha => hmem a (patPage_block ha), ?_⟩
  intro hread
  have hflags : s'.pageState = s.pageState := (congrArg Camera.pageState hframe :)
  rwa [Camera.IsRead, hflags]

theorem Cleared.samePat {n : Nat} (h : Cleared n s s') : SamePat s s' := by
  refine SamePat.of_frame h.frame ?_
  intro a ha
  rw [h.mem]
  by_cases hdump : s.memDump = true
  · rw [if_pos hdump]
    exact within_outside (by omega)
  · rw [if_neg hdump]

end

/-- When a call keeps the PAT valid: there is a number left for a picture that is written, and a
commit to a dump has nothing to do. -/
def Call.Allowed (s : Camera) : Call → Prop
  | .write _ => s.pictureCount < 253
  | .commit => s.memDump = true → Quiet s
  | _ => True

theorem call_patValid {call : Call} (hv : PatValid s) (hallowed : call.Allowed s) :
    Ends (fun _ s' => PatValid s' ∧ s'.memDump = s.memDump ∧ (Distinct s → Distinct s'))
      (fun _ s' => PatValid s' ∧ s'.memDump = s.memDump ∧ (Distinct s → Distinct s'))
      (call.body s) := by
  have hg := hv.geometry
  have hfetched : ∀ s', Fetched s s' →
      PatValid s' ∧ s'.memDump = s.memDump ∧ (Distinct s → Distinct s') := by
    intro s' h
    have hpat := h.samePat hv.patRead
    exact ⟨hpat.patValid hv, hpat.memDump, hpat.distinct hg⟩
  cases call with
  | read idx =>
    refine Ends.bind ((readRawFile_ends s idx).mono (fun _ _ h => h) ?_) ?_
    · intro _ s' h
      exact hfetched s' h
    · rintro _ s' ⟨h, _⟩
      exact Ends.pure (hfetched s' h)
  | write picture =>
    refine (writeFile_ends s picture).mono ?_ ?_
    · rintro _ s' ⟨i, s1, hi, _, h, hs'⟩
      have hcount : s1.pictureCount = s.pictureCount := (congrArg Camera.pictureCount h.frame :)
      have hoffset : blockSize ≤ pictureOffset i s.filesize := Nat.le_add_right _ _
      have hput := (h.samePat hv.patRead).trans
        (SamePat.put ((List.range s.filesize).map picture) hoffset)
      have hfew : (s1.put (pictureOffset i s.filesize)
          ((List.range s.filesize).map picture)).pictureCount < 253 := by
        show s1.pictureCount < 253
        rw [hcount]
        exact hallowed
      have hv' := hput.patValid hv
      rw [hs']
      exact ⟨hv'.addPicture i hfew, hput.memDump,
        fun hd => (hput.distinct hg hd).addPicture hv' i hfew⟩
    · intro _ s' h
      exact hfetched s' h
  | delete idx =>
    refine (deleteFile_ends s idx).mono ?_ ?_
    · rintro _ s' ⟨_, _, hs'⟩
      rw [hs']
      exact ⟨hv.setSpecial idx (Or.inl rfl), rfl, fun hd => hd.setSpecial hv idx (Or.inl rfl)⟩
    · rintro _ s' ⟨hs', _⟩
      rw [hs']
      exact ⟨hv, rfl, id⟩
  | deleteAll =>
    refine (deleteAll_ends s).mono ?_ ?_
    · rintro _ s' ⟨s1, hcleared, hs'⟩
      have hpat := hcleared.samePat.clearPages (pictureOffset 0 0 / pageSize)
        ((s.memSize - constDataSize) / pageSize - pictureOffset 0 0 / pageSize) (by decide)
      rw [hs']
      exact ⟨(hpat.patValid hv).clearPat, hpat.memDump, fun _ => Distinct.clearPat _⟩
    · rintro _ s' ⟨hframe, hmem, _⟩
      have hpat := SamePat.of_frame hframe fun a ha => (hmem a ha).1
      exact ⟨hpat.patValid hv, hpat.memDump, hpat.distinct hg⟩
  | commit =>
    refine (commit_ends hv hallowed).mono ?_ ?_
    · rintro _ s' ⟨hv', hdump, _, hd, _⟩
      exact ⟨hv', hdump, hd⟩
    · rintro _ s' ⟨hv', hdump, hd, _⟩
      exact ⟨hv', hdump, hd⟩

theorem PatValid.faults (hv : PatValid s) (faults : Command → Option Fault) :
    PatValid { s with faults := faults } :=
  ⟨⟨hv.geometry.width, hv.geometry.height, hv.geometry.memSize⟩, hv.patRead, hv.entries, hv.few⟩

theorem Quiet.faults (h : Quiet s) (faults : Command → Option Fault) :
    Quiet { s with faults := faults } := ⟨h.noErase, h.noMark, h.noGap⟩

theorem Call.Allowed.faults {call : Call} (h : call.Allowed s)
    (faults : Command → Option Fault) : call.Allowed { s with faults := faults } := by
  cases call with
  | commit => exact fun hdump => (h hdump).faults faults
  | write picture => exact h
  | read idx => trivial
  | delete idx => trivial
  | deleteAll => trivial

end GPhoto2.Tp6801
