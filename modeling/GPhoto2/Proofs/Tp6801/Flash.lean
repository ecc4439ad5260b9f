import GPhoto2.Proofs.Tp6801.Coherent

/-!
# `GPhoto2.Proofs.Tp6801.Flash`: the memory of a tp6801 frame along runs of calls

Every call that succeeds keeps a frame `Intact`: its memory coherent, and its flags in agreement
with the PAT. After a commit the memory has what the driver was told to keep (`commit_flash`). A
commit to a dump is different: what it erases is lost in the driver's copy too
(`commit_dump_loses`).
-/

set_option autoImplicit false

namespace GPhoto2.Tp6801

open Lib
open Lib.Comp (Ends)
open Camera (HasData IsDirty IsRead NeedsErase Present)

/-- What holds of a frame between calls. -/
structure Intact (strict : Prop) (s : Camera) : Prop where
  patValid : PatValid s
  coherent : Coherent strict s
  flags : FlagsAgree s
  patPage : PatPage s

/-! ### Committing -/

/-- What may fail in a commit: no program command for the first block, and none for a block that had
to be erased unless all pages with data that come with it and behind it are dirty. -/
structure SafeCommit (s : Camera) : Prop where
  blocks : ∀ b, 1 ≤ b → b < s.memSize / blockSize → SafeBlock s (b * blockPageSize)
  first : ∀ p, InBlock 0 p → s.faults (.programPage (p * pageSize)) = none

section

variable {strict : Prop} {s s' : Camera}

theorem SafeBlock.untouched {bsp : Nat} (h : SafeBlock s bsp) (hsame : Untouched s s' bsp)
    (hfaults : s'.faults = s.faults) : SafeBlock s' bsp := by
  intro herase p hp hdata hfault q hq hle hqdata
  obtain ⟨r, hr, hrdirty, hrerase⟩ := (blockNeedsErase_iff s' bsp).mp herase
  have herase0 := (blockNeedsErase_iff s bsp).mpr
    ⟨r, hr, (hsame.isDirty hr).mp hrdirty, (hsame.needsErase hr).mp hrerase⟩
  rw [hfaults] at hfault
  exact (hsame.isDirty hq).mpr (h herase0 p hp ((hsame.hasData hp).mp hdata) hfault q hq hle
    ((hsame.hasData hq).mp hqdata))

theorem patPage_first : InBlock (0 * blockPageSize) patPage := by
  rw [Nat.zero_mul]
  exact ⟨by decide, by decide⟩

theorem Untouched.patPage (h : Untouched s s' (0 * blockPageSize)) (hpat : PatPage s) :
    PatPage s' :=
  ⟨h.read _ hpat.read, (h.hasData patPage_first).mpr hpat.data,
    (h.needsErase patPage_first).mpr hpat.erase⟩

/-- The first loop of `tp6801_commit`. -/
theorem commitBlocks_coherent (h : Intact strict s) (hnoErase : s.memDump = true → NoErase s) :
    Ends
      (fun _ s' => Coherent strict s' ∧ Untouched s s' (0 * blockPageSize))
      (fun _ s' => ¬ strict → s.memDump = false → SafeCommit s → Intact strict s')
      (commitBlocks s) := by
  have hsize : 1 + (s.memSize / blockSize - 1) = s.memSize / blockSize := by
    unfold blockSize
    obtain hsize | hsize | hsize := h.patValid.geometry.memSize <;> omega
  refine Ends.get_bind ?_
  have hloop := @Ends.forM_range' _ _ (fun (_ : Int) s' =>
      ¬ strict → s.memDump = false → SafeCommit s → Intact strict s')
    (fun j t => Kept (BlocksBelow j) s t ∧ Coherent strict t ∧
      ∀ c, c < 1 ∨ j ≤ c → Untouched s t (c * blockPageSize))
    (fun b => commitBlock (b * blockPageSize)) 1 (s.memSize / blockSize - 1) s ?_ ?_
  · exact hloop.mono (fun _ _ hok => ⟨hok.2.1, hok.2.2 0 (Or.inl (by decide))⟩) fun _ _ he => he
  · exact ⟨Kept.refl _ s, h.coherent, fun c _ => Untouched.refl s _⟩
  · rintro b t hlow hhigh ⟨hkept, hcoherent, hsame⟩
    have hdump : t.memDump = s.memDump := (congrArg Camera.memDump hkept.frame :)
    have hmemSize : t.memSize = s.memSize := (congrArg Camera.memSize hkept.frame :)
    have hfaults : t.faults = s.faults := (congrArg Camera.faults hkept.frame :)
    have hb : b < t.memSize / blockSize := by
      rw [hmemSize]
      omega
    have hno : t.memDump = true → t.blockNeedsErase (b * blockPageSize) = false := by
      intro hd
      rw [hdump] at hd
      exact (hnoErase hd).block hlow (by omega) hkept
    refine (((commitBlock_kept t (b * blockPageSize) hno).and
      (commitBlock_coherent hcoherent hb hno)).and (commitBlock_untouched hno)).mono ?_ ?_
    · rintro _ t' ⟨⟨⟨hkept', _, _⟩, hcoherent'⟩, hsame'⟩
      refine ⟨(hkept.mono fun p hp => hp.mono (Nat.le_succ b)).trans
        (hkept'.mono fun p hp => (blocksBelow_succ_iff hlow).mpr (Or.inr hp)), hcoherent', ?_⟩
      intro c hc
      exact (hsame c (by omega)).trans (hsame' c (by omega))
    · rintro _ t' ⟨⟨⟨hkept', _⟩, hcoherent'⟩, hsame', _⟩ hstrict hdevice hsafe
      have hall : Kept (fun p => BlocksBelow b p ∨ InBlock (b * blockPageSize) p) s t' :=
        (hkept.mono fun p hp => Or.inl hp).trans (hkept'.mono fun p hp => Or.inr hp)
      have hthis :=
        (hsafe.blocks b hlow (by omega)).untouched (hsame b (Or.inr (Nat.le_refl b))) hfaults
      exact ⟨(hall.samePat h.patValid.patRead).patValid h.patValid,
        hcoherent' hstrict (by rw [hdump, hdevice]) hthis, hall.flagsAgree h.patValid h.flags,
        ((hsame 0 (Or.inl (by decide))).trans (hsame' 0 (by omega))).patPage h.patPage⟩

/-- The flags of a page with data that is not dirty say that it must be erased. -/
theorem Coherent.needs (h : Coherent strict s) {p : Nat} (hdata : s.HasData p) :
    s.IsDirty p ∨ s.NeedsErase p := by
  have hb : p / blockPageSize < s.memSize / blockSize :=
    Nat.div_lt_of_lt_mul (by rw [Nat.mul_comm]; exact h.inside p hdata)
  have hp : InBlock (p / blockPageSize * blockPageSize) p := by
    unfold InBlock
    rw [blockPageSize_eq]
    omega
  rcases h.blocks _ hb with hsettled | ⟨-, hpending⟩
  · exact (hsettled p hp).needs hdata
  · exact hpending.needs p hp hdata

/-- The second and the third loop of `tp6801_commit` keep the flags in agreement with the PAT. -/
theorem Renumbered.flagsAgree {s1 s3 : Camera} (h : Renumbered s s1 s3) (hv : PatValid s)
    (hcommitted : BlocksCommitted s s1) (hcoherent : Coherent strict s1) (hflags : FlagsAgree s1) :
    FlagsAgree s3 := by
  have hclean := hcommitted.clean
  have hpat := hcommitted.kept.samePat hv.patRead
  have hg1 := (hpat.patValid hv).geometry
  have hmax := h.edited.maxFilecount
  have hmemSize : s3.memSize = s1.memSize := (congrArg Camera.memSize h.edited.frame :)
  have hslot : ∀ i p, InSlot s3 i p ↔ InSlot s1 i p := by
    intro i p
    rw [InSlot, h.edited.filesize, InSlot]
  have hdata : ∀ p, s3.HasData p ↔ s1.HasData p := by
    intro p
    rw [HasData, h.edited.pageState, HasData]
  have hpresent : ∀ i < s1.maxFilecount, s3.Present i ↔ s1.Present i := by
    intro i hi
    rw [hpat.maxFilecount] at hi
    rw [h.pictures.present i hi, hpat.present_iff]
    have := hv.geometry.maxFilecount_le
    omega
  refine ⟨?_, ?_, ?_⟩
  · intro i hi heq p hp
    rw [hmax] at hi
    rw [hslot] at hp
    have hbelow := hg1.blocksBelow hi hp
    rw [hpat.memSize] at hbelow
    have hclean3 : ¬ s3.IsDirty p := by
      intro hd
      rcases h.edited.flags p with hsame | ⟨hpage, -⟩
      · rw [IsDirty, hsame] at hd
        exact hclean p hbelow hd
      · rw [hpage] at hbelow
        exact absurd hbelow.1 (by decide)
    rw [hdata, h.edited.needsErase]
    rcases h.preErased i hi heq with hold | ⟨-, herased⟩
    · obtain ⟨hd, -, he⟩ := hflags.preErased i hi hold p hp
      exact ⟨hd, hclean3, he⟩
    · -- nothing in the slot needs to be erased, so it holds no data
      have he := (slotErased_iff s1 i).mp herased p hp
      refine ⟨fun hd => ?_, hclean3, he⟩
      rcases hcoherent.needs hd with hdirty | hneeds
      · exact hclean p hbelow hdirty
      · exact he hneeds
  · intro i hi hp p hin
    rw [hmax] at hi
    rw [hdata]
    exact hflags.present i hi ((hpresent i hi).mp hp) p ((hslot i p).mp hin)
  · intro p hp hlt
    rw [hmemSize] at hp hlt
    rw [hdata]
    exact hflags.outside p hp hlt

/-- What `tp6801_commit` keeps, and that no page is dirty when it succeeds. -/
theorem commit_intact (h : Intact strict s) (hquiet : s.memDump = true → Quiet s) :
    Ends (fun _ s' => Intact strict s' ∧ ∀ p, ¬ s'.IsDirty p)
      (fun _ s' => ¬ strict → s.memDump = false → SafeCommit s → Intact strict s')
      (commit s) := by
  have hnoErase : s.memDump = true → NoErase s := fun hdump => (hquiet hdump).noErase_blocks
  refine commit_rule h.patValid hnoErase (commitBlocks_coherent h hnoErase) ?_
  rintro s1 s3 ⟨hcoherent1, hsame1⟩ hcommitted hrenumbered
  have hkept := hcommitted.kept
  have hclean := hcommitted.clean
  have hquiet3 := hrenumbered.quiet h.patValid hcommitted hquiet
  have hv1 := (hkept.samePat h.patValid.patRead).patValid h.patValid
  have hmax1 := hv1.geometry.maxFilecount_le
  have hpage1 := hsame1.patPage h.patPage
  have hcoherent3 := hrenumbered.edited.coherent hcoherent1 (by omega) hpage1
  have hpage3 := hrenumbered.edited.patPage hpage1
  have hflags3 := hrenumbered.flagsAgree h.patValid hcommitted hcoherent1
    (hkept.flagsAgree h.patValid h.flags)
  have hv3 := hrenumbered.patValid
  have hb : 0 < s3.memSize / blockSize := by
    unfold blockSize
    obtain hsize | hsize | hsize := hv3.geometry.memSize <;> omega
  have hblock : (0 : Nat) * blockPageSize = 0 := Nat.zero_mul _
  have hparts := (@commitBlock_coherent _ s3 0 hcoherent3 hb (by rw [hblock]; exact hquiet3)).and
    (@commitBlock_untouched s3 0 (by rw [hblock]; exact hquiet3))
  rw [hblock] at hparts
  refine ((commitBlock_kept s3 0 hquiet3).and hparts).mono ?_ ?_
  · rintro _ s' ⟨⟨hkept', hclean', _⟩, hcoherent', _⟩
    have hnone : ∀ p, ¬ s'.IsDirty p := by
      intro p hd
      have hdata := (hcoherent'.dirty p hd).2
      by_cases hfirst : InBlock 0 p
      · exact hclean' p hfirst hd
      · have hd3 := hkept'.dirty p hd
        have hlow : blockPageSize ≤ p := by
          unfold InBlock at hfirst
          omega
        rcases hrenumbered.edited.flags p with hsame | ⟨hpage, -⟩
        · rw [IsDirty, hsame] at hd3
          have hmemSize : s1.memSize = s.memSize := (congrArg Camera.memSize hkept.frame :)
          have hin := hcoherent1.inside p (hcoherent1.dirty p hd3).2
          rw [hmemSize] at hin
          exact hclean p ⟨hlow, hin⟩ hd3
        · rw [hpage] at hlow
          exact absurd hlow (by decide)
    have hdata' := (hkept'.data patPage).mpr hpage3.data
    refine ⟨⟨(hkept'.samePat hv3.patRead).patValid hv3, hcoherent', hkept'.flagsAgree hv3 hflags3,
      hkept'.read _ hpage3.read, hdata', ?_⟩, hnone⟩
    exact (hcoherent'.needs hdata').resolve_left (hnone patPage)
  · rintro _ s' ⟨⟨hkept', _⟩, hcoherent', _, herase'⟩ hstrict hdevice hsafe
    have hfaults : s3.faults = s.faults := by
      have h3 : s3.faults = s1.faults := (congrArg Camera.faults hrenumbered.edited.frame :)
      have h1 : s1.faults = s.faults := (congrArg Camera.faults hkept.frame :)
      rw [h3, h1]
    have hdump3 : s3.memDump = false := by
      have h3 : s3.memDump = s1.memDump := (congrArg Camera.memDump hrenumbered.edited.frame :)
      have h1 : s1.memDump = s.memDump := (congrArg Camera.memDump hkept.frame :)
      rw [h3, h1, hdevice]
    have hnone : ∀ p, InBlock 0 p → s3.faults (.programPage (p * pageSize)) = none := by
      rw [hfaults]
      exact hsafe.first
    refine ⟨(hkept'.samePat hv3.patRead).patValid hv3, hcoherent' hstrict hdump3 ?_,
      hkept'.flagsAgree hv3 hflags3, hkept'.read _ hpage3.read,
      (hkept'.data patPage).mpr hpage3.data, herase' hnone _ hpage3.erase⟩
    intro _ p hp _ hfault
    exact absurd (hnone p hp) hfault

/-! ### The other calls -/

theorem Fetched.intact (hf : Fetched s s') (h : Intact strict s) : Intact strict s' := by
  have hkept : Kept (fun _ => False) s s' := hf.kept
  refine ⟨(hf.samePat h.patValid.patRead).patValid h.patValid, h.coherent.fetched hf,
    hkept.flagsAgree h.patValid h.flags, hf.read _ h.patPage.read, ?_, ?_⟩
  · rw [HasData, hf.containsData]
    exact h.patPage.data
  · rw [NeedsErase, hf.needsErase]
    exact h.patPage.erase

/-- The state with a picture in slot `i`, before the PAT has it. -/
def Camera.putPicture (s : Camera) (i : Nat) (picture : Nat → UInt8) : Camera :=
  s.put (pictureOffset i s.filesize) ((List.range s.filesize).map picture)

section

variable {i : Nat} (picture : Nat → UInt8)

section
variable (hg : Geometry s)
include hg

theorem putPages_iff (p : Nat) :
    (pictureOffset i s.filesize / pageSize ≤ p ∧ p < pictureOffset i s.filesize / pageSize +
      ((pictureOffset i s.filesize + ((List.range s.filesize).map picture).length - 1) / pageSize +
        1 - pictureOffset i s.filesize / pageSize)) ↔ InSlot s i p := by
  rw [List.length_map, List.length_range, InSlot, hg.filesize]
  unfold pictureOffset pageSize
  omega

theorem putPicture_inside {p : Nat} (hp : InSlot s i p) :
    (s.putPicture i picture).pageState p =
      { s.pageState p with dirty := true, containsData := true, read := true } := by
  rw [Camera.putPicture, Camera.put]
  exact Camera.setPages_inside _ _ ((putPages_iff picture hg p).mpr hp)

theorem putPicture_outside {p : Nat} (hp : ¬ InSlot s i p) :
    (s.putPicture i picture).pageState p = s.pageState p := by
  rw [Camera.putPicture, Camera.put]
  exact Camera.setPages_outside _ _ fun hin => hp ((putPages_iff picture hg p).mp hin)

theorem putBytes_iff (a : Nat) :
    (pictureOffset i s.filesize ≤ a ∧
      a < pictureOffset i s.filesize + ((List.range s.filesize).map picture).length) ↔
      InSlot s i (a / pageSize) := by
  rw [List.length_map, List.length_range, InSlot, hg.filesize]
  unfold pictureOffset pageSize
  omega

theorem putPicture_mem_inside {a : Nat} (ha : InSlot s i (a / pageSize)) :
    (s.putPicture i picture).mem a = (s.putPicture i picture).logical a := by
  have hin := (putBytes_iff picture hg a).mpr ha
  rw [Camera.putPicture, put_mem, put_logical, within_inside hin, within_inside hin]

theorem putPicture_mem_outside {a : Nat} (ha : ¬ InSlot s i (a / pageSize)) :
    (s.putPicture i picture).mem a = s.mem a ∧
      (s.putPicture i picture).logical a = s.logical a := by
  have hout := fun hin => ha ((putBytes_iff picture hg a).mp hin)
  rw [Camera.putPicture, put_mem, put_logical, within_outside hout, within_outside hout]
  exact ⟨rfl, rfl⟩

end

/-- Writing a picture keeps the memory coherent, as long as nothing has failed. -/
theorem Coherent.putPicture (h : Coherent strict s) (hstrict : strict) (hg : Geometry s)
    (hi : i < s.maxFilecount) : Coherent strict (s.putPicture i picture) := by
  have hflags : ∀ p, (InSlot s i p ∧ (s.putPicture i picture).pageState p =
      { s.pageState p with dirty := true, containsData := true, read := true }) ∨
      ¬ InSlot s i p ∧ (s.putPicture i picture).pageState p = s.pageState p := by
    intro p
    by_cases hp : InSlot s i p
    · exact Or.inl ⟨hp, putPicture_inside picture hg hp⟩
    · exact Or.inr ⟨hp, putPicture_outside picture hg hp⟩
  have hstore : (s.putPicture i picture).store = s.store := rfl
  have hsettled : ∀ b < s.memSize / blockSize, Settled strict s (b * blockPageSize) := by
    intro b hb
    exact (h.blocks b hb).resolve_right fun hpending => hpending.1 hstrict
  refine ⟨?_, ?_, ?_, ?_, h.unerased⟩
  · intro p hdata
    show p < s.memSize / blockSize * blockPageSize
    rcases hflags p with ⟨hp, -⟩ | ⟨-, hsame⟩
    · exact (hg.blocksBelow hi hp).2
    · rw [HasData, hsame] at hdata
      exact h.inside p hdata
  · intro p hdirty
    rcases hflags p with ⟨-, hnew⟩ | ⟨-, hsame⟩
    · rw [IsRead, HasData, hnew]
      exact ⟨rfl, rfl⟩
    · rw [IsDirty, hsame] at hdirty
      rw [IsRead, HasData, hsame]
      exact h.dirty p hdirty
  · intro a hread hdata
    rcases hflags (a / pageSize) with ⟨hp, -⟩ | ⟨hp, hsame⟩
    · exact putPicture_mem_inside picture hg hp
    · rw [IsRead, hsame] at hread
      rw [HasData, hsame] at hdata
      obtain ⟨hmem, hlogical⟩ := putPicture_mem_outside picture hg hp
      rw [hmem, hlogical]
      exact h.copy a hread hdata
  · intro b hb
    refine Or.inl fun p hpb => ?_
    have hpage := hsettled b hb p hpb
    rcases hflags p with ⟨hp, hnew⟩ | ⟨hp, hsame⟩
    · have hdirty : (s.putPicture i picture).IsDirty p := by
        rw [IsDirty, hnew]
      refine ⟨fun _ => Or.inl hdirty, fun _ hclean => absurd hdirty hclean,
        fun _ hclean => absurd hdirty hclean, ?_⟩
      intro herase _ a ha
      -- the page is erased, whether it was dirty before or not
      have hold : ¬ s.NeedsErase p := by
        rw [NeedsErase, hnew] at herase
        exact herase
      have hbyte : s.store a = erasedByte := by
        by_cases hd : s.IsDirty p
        · exact (hpage.room hold hd a ha).2 hstrict
        · exact hpage.erased hold hd a ha
      rw [hstore, hbyte]
      exact ⟨UInt8.neg_one_and, fun _ => rfl⟩
    · refine hpage.congr hsame fun a ha => ⟨rfl, ?_⟩
      exact putPicture_mem_outside picture hg (by rwa [ha])

end

theorem InSlot.unique (hg : Geometry s) {i j p : Nat} (hi : InSlot s i p) (hj : InSlot s j p) :
    i = j := by
  unfold InSlot pictureOffset pageSize at hi hj
  rw [hg.filesize] at hi hj
  omega

theorem patPage_not_inSlot (i : Nat) : ¬ InSlot s i patPage := by
  rintro ⟨hlow, _⟩
  have hpage : patPage < pictureOffset i s.filesize / pageSize := by
    unfold patPage patOffset pictureOffset pageSize
    omega
  omega

/-- `tp6801_write_file` keeps a frame intact, as long as nothing has failed. -/
theorem Intact.addPicture (h : Intact strict s) (hstrict : strict) {i : Nat}
    (hi : i < s.maxFilecount) (hfew : s.pictureCount < 253) (picture : Nat → UInt8) :
    Intact strict ((s.putPicture i picture).addPicture i) := by
  have hg := h.patValid.geometry
  have hmax := hg.maxFilecount_le
  have hoffset : blockSize ≤ pictureOffset i s.filesize := Nat.le_add_right _ _
  have hpat := SamePat.put (s := s) ((List.range s.filesize).map picture) hoffset
  have hvPut : PatValid (s.putPicture i picture) := hpat.patValid h.patValid
  have hfewPut : (s.putPicture i picture).pictureCount < 253 := hfew
  have hpage : PatPage (s.putPicture i picture) := by
    have hflags := putPicture_outside picture hg (patPage_not_inSlot (s := s) i)
    refine ⟨?_, ?_, ?_⟩
    · rw [IsRead, hflags]
      exact h.patPage.read
    · rw [HasData, hflags]
      exact h.patPage.data
    · rw [NeedsErase, hflags]
      exact h.patPage.erase
  have hedited : PatEdited (s.putPicture i picture) ((s.putPicture i picture).addPicture i) :=
    PatEdited.addPicture hi
  have hcoherent := h.coherent.putPicture picture hstrict hg hi
  have hpatEq : ∀ j < s.maxFilecount, (s.putPicture i picture).pat j = s.pat j :=
    fun j hj => hpat.pat (by omega)
  have hdirtyEq : ∀ j < s.maxFilecount, ∀ p, InSlot s j p →
      (((s.putPicture i picture).addPicture i).IsDirty p ↔ (s.putPicture i picture).IsDirty p) := by
    intro j _ p hp
    rcases hedited.flags p with hsame | ⟨hpatPage, -⟩
    · rw [IsDirty, hsame, IsDirty]
    · rw [hpatPage] at hp
      exact absurd hp (patPage_not_inSlot j)
  have hdataEq : ∀ p, ((s.putPicture i picture).addPicture i).HasData p ↔
      (s.putPicture i picture).HasData p := by
    intro p
    rw [HasData, hedited.pageState, HasData]
  have hkeep : ∀ p, s.HasData p → (s.putPicture i picture).HasData p := by
    intro p hp
    by_cases hin : InSlot s i p
    · rw [HasData, putPicture_inside picture hg hin]
    · rwa [HasData, putPicture_outside picture hg hin]
  refine ⟨hvPut.addPicture i hfewPut,
    hedited.coherent hcoherent (by show s.maxFilecount ≤ 256; omega) hpage,
    ⟨?_, ?_, ?_⟩, hedited.patPage hpage⟩
  · intro j hj heq p hp
    have hp' : InSlot s j p := hp
    have hj' : j < s.maxFilecount := hj
    rw [pat_addPicture] at heq
    by_cases hji : j = i
    · rw [if_pos hji] at heq
      have hvalue := toNat_next hfewPut
      rw [heq] at hvalue
      have hff : entryPreErased.toNat = 255 := rfl
      omega
    · rw [if_neg hji, hpatEq j hj'] at heq
      have hnot : ¬ InSlot s i p := fun hin => hji (hp'.unique hg hin)
      obtain ⟨hd, hdirty, he⟩ := h.flags.preErased j hj' heq p hp'
      rw [hdataEq, hdirtyEq j hj' p hp', hedited.needsErase, HasData, IsDirty,
        NeedsErase, putPicture_outside picture hg hnot]
      exact ⟨hd, hdirty, he⟩
  · intro j hj hp p hin
    have hj' : j < s.maxFilecount := hj
    rw [hdataEq]
    rw [present_addPicture hvPut hfewPut hj] at hp
    rcases hp with hji | hpresent
    · rw [HasData, putPicture_inside picture hg (hji ▸ hin)]
    · refine hkeep p (h.flags.present j hj' ?_ p hin)
      rwa [Present, hpatEq j hj'] at hpresent
  · intro p hp hlt
    rw [hdataEq]
    exact hkeep p (h.flags.outside p hp hlt)

/-- `tp6801_delete_file` keeps a frame intact. -/
theorem Intact.deleteFile (h : Intact strict s) {i : Nat} (hi : i < s.maxFilecount) :
    Intact strict (s.setPat i entryDeletedWin).patDirty := by
  have hmax := h.patValid.geometry.maxFilecount_le
  have hedited : PatEdited s (s.setPat i entryDeletedWin).patDirty := PatEdited.setPat hi _
  have hdataEq : ∀ p, (s.setPat i entryDeletedWin).patDirty.HasData p ↔ s.HasData p := by
    intro p
    rw [HasData, hedited.pageState, HasData]
  refine ⟨h.patValid.setSpecial i (Or.inl rfl), hedited.coherent h.coherent (by omega) h.patPage,
    ⟨?_, ?_, ?_⟩, hedited.patPage h.patPage⟩
  · intro j hj heq p hp
    rw [pat_setPat_patDirty] at heq
    by_cases hji : j = i
    · rw [if_pos hji] at heq
      exact absurd heq (by decide)
    · rw [if_neg hji] at heq
      obtain ⟨hd, hdirty, he⟩ := h.flags.preErased j hj heq p hp
      rw [hdataEq, hedited.needsErase]
      refine ⟨hd, ?_, he⟩
      rcases hedited.flags p with hsame | ⟨hpatPage, -⟩
      · rwa [IsDirty, hsame]
      · rw [hpatPage] at hp
        exact absurd hp (patPage_not_inSlot j)
  · intro j hj hp p hin
    rw [hdataEq]
    exact h.flags.present j hj (present_setSpecial h.patValid (Or.inl rfl) hp).2 p hin
  · intro p hp hlt
    rw [hdataEq]
    exact h.flags.outside p hp hlt

/-- The pages where the slots are, and those behind the last slot. -/
def InArea (s : Camera) (p : Nat) : Prop :=
  blockPageSize ≤ p ∧ p < (s.memSize - constDataSize) / pageSize

theorem areaPages_iff (hg : Geometry s) (p : Nat) :
    (pictureOffset 0 0 / pageSize ≤ p ∧ p < pictureOffset 0 0 / pageSize +
      ((s.memSize - constDataSize) / pageSize - pictureOffset 0 0 / pageSize)) ↔ InArea s p := by
  unfold InArea pictureOffset constDataSize pageSize
  rw [blockPageSize_eq]
  obtain hsize | hsize | hsize := hg.memSize <;> omega

theorem areaBytes_iff (hg : Geometry s) (a : Nat) :
    (blockSize ≤ a ∧ a < blockSize + clearedBlocks s * blockSize) ↔ InArea s (a / pageSize) := by
  unfold InArea clearedBlocks pictureOffset constDataSize pageSize blockSize
  rw [blockPageSize_eq]
  obtain hsize | hsize | hsize := hg.memSize <;> omega

theorem InSlot.inArea (hg : Geometry s) {i p : Nat} (hi : i < s.maxFilecount) (hp : InSlot s i p) :
    InArea s p := by
  have hroom := hg.slot_lt hi
  unfold InSlot pictureOffset pageSize at hp
  unfold pictureOffset constDataSize at hroom
  unfold InArea constDataSize pageSize
  rw [hg.filesize] at hp hroom
  rw [blockPageSize_eq]
  omega

/-- The pages with pictures were erased, and their flags cleared. -/
structure Emptied (s t : Camera) : Prop where
  frame : { t with store := s.store, mem := s.mem, pageState := s.pageState } = s
  inside : ∀ p, InArea s p → t.pageState p = {}
  outside : ∀ p, ¬ InArea s p → t.pageState p = s.pageState p
  erased : ∀ a, InArea s (a / pageSize) → t.store a = erasedByte
  same : ∀ a, ¬ InArea s (a / pageSize) → t.store a = s.store a ∧ t.mem a = s.mem a

theorem Cleared.emptied {s1 : Camera} (h : Cleared (clearedBlocks s) s s1) (hg : Geometry s) :
    Emptied s (s1.setPages (pictureOffset 0 0 / pageSize)
      ((s.memSize - constDataSize) / pageSize - pictureOffset 0 0 / pageSize) fun _ => {}) := by
  have hflags : s1.pageState = s.pageState := (congrArg Camera.pageState h.frame :)
  refine ⟨?_, ?_, ?_, ?_, ?_⟩
  · have hframe := h.frame
    conv_rhs => rw [← hframe]
    rw [← hflags]
    rfl
  · intro p hp
    exact Camera.setPages_inside _ _ ((areaPages_iff hg p).mpr hp)
  · intro p hp
    rw [Camera.setPages_outside _ _ fun hin => hp ((areaPages_iff hg p).mp hin), hflags]
  · intro a ha
    show s1.store a = erasedByte
    rw [h.store]
    exact within_inside ((areaBytes_iff hg a).mpr ha)
  · intro a ha
    have hout : ¬ (blockSize ≤ a ∧ a < blockSize + clearedBlocks s * blockSize) :=
      fun hin => ha ((areaBytes_iff hg a).mp hin)
    refine ⟨?_, ?_⟩
    · show s1.store a = _
      rw [h.store]
      exact within_outside hout
    · show s1.mem a = _
      rw [h.mem]
      by_cases hdump : s.memDump = true
      · rw [if_pos hdump]
        exact within_outside hout
      · rw [if_neg hdump]

/-- Where the pictures were nothing is dirty and no data is left, and elsewhere nothing changed. -/
theorem Emptied.coherent {t : Camera} (he : Emptied s t) (h : Coherent strict s)
    (hstrict : strict) : Coherent strict t := by
  have hmemSize : t.memSize = s.memSize := (congrArg Camera.memSize he.frame :)
  have hlogical : t.logical = s.logical := (congrArg Camera.logical he.frame :)
  have hunerased : t.unerased = s.unerased := (congrArg Camera.unerased he.frame :)
  have hdata : ∀ p, t.HasData p → ¬ InArea s p := by
    intro p hp hin
    rw [HasData, he.inside p hin] at hp
    cases hp
  have hdirty : ∀ p, t.IsDirty p → ¬ InArea s p := by
    intro p hp hin
    rw [IsDirty, he.inside p hin] at hp
    cases hp
  refine ⟨?_, ?_, ?_, ?_, ?_⟩
  · intro p hp
    have hout := hdata p hp
    rw [HasData, he.outside p hout] at hp
    rw [hmemSize]
    exact h.inside p hp
  · intro p hp
    have hflags := he.outside p (hdirty p hp)
    rw [IsDirty, hflags] at hp
    rw [IsRead, HasData, hflags]
    exact h.dirty p hp
  · intro a hr hd
    have hout := hdata _ hd
    have hflags := he.outside _ hout
    rw [IsRead, hflags] at hr
    rw [HasData, hflags] at hd
    rw [(he.same a hout).2, hlogical]
    exact h.copy a hr hd
  · intro b hb
    rw [hmemSize] at hb
    refine Or.inl fun p hp => ?_
    by_cases hin : InArea s p
    · have hflags := he.inside p hin
      refine ⟨?_, ?_, fun _ _ a ha => he.erased a (by rwa [ha]), ?_⟩
      · intro hd
        exact absurd hin (hdata p hd)
      · intro hd
        exact absurd hin (hdata p hd)
      · intro _ hd
        exact absurd hin (hdirty p hd)
    · have hsettled := (h.blocks b hb).resolve_right fun hpending => hpending.1 hstrict
      refine (hsettled p hp).congr (he.outside p hin) fun a ha => ?_
      obtain ⟨hstore, hmem⟩ := he.same a (by rwa [ha])
      rw [hlogical]
      exact ⟨hstore, hmem, rfl⟩
  · rw [hunerased]
    exact h.unerased

/-- `tp6801_delete_all` keeps a frame intact, as long as nothing has failed. -/
theorem Intact.deleteAll (h : Intact strict s) (hstrict : strict) {s1 : Camera}
    (hcleared : Cleared (clearedBlocks s) s s1) :
    Intact strict (s1.setPages (pictureOffset 0 0 / pageSize)
      ((s.memSize - constDataSize) / pageSize - pictureOffset 0 0 / pageSize) fun _ =>
        {}).clearPat := by
  have hg := h.patValid.geometry
  have hmax := hg.maxFilecount_le
  have he := hcleared.emptied hg
  have hpat := hcleared.samePat.clearPages (pictureOffset 0 0 / pageSize)
    ((s.memSize - constDataSize) / pageSize - pictureOffset 0 0 / pageSize) (by decide)
  have hpageOut : ¬ InArea s Tp6801.patPage := fun hin => absurd hin.1 (by decide)
  revert he hpat
  generalize s1.setPages (pictureOffset 0 0 / pageSize)
    ((s.memSize - constDataSize) / pageSize - pictureOffset 0 0 / pageSize) (fun _ => {}) = t
  intro he hpat
  have hedited := PatEdited.clearPat t
  have hmemSize : t.memSize = s.memSize := hpat.memSize
  have hdata : ∀ p, t.clearPat.HasData p ↔ t.HasData p := by
    intro p
    rw [HasData, hedited.pageState, HasData]
  have hpage : PatPage t := by
    have hflags := he.outside _ hpageOut
    refine ⟨?_, ?_, ?_⟩
    · rw [IsRead, hflags]
      exact h.patPage.read
    · rw [HasData, hflags]
      exact h.patPage.data
    · rw [NeedsErase, hflags]
      exact h.patPage.erase
  refine ⟨(hpat.patValid h.patValid).clearPat, hedited.coherent (he.coherent h.coherent hstrict)
    (by rw [hpat.maxFilecount]; omega) hpage, ⟨?_, ?_, ?_⟩, hedited.patPage hpage⟩
  · intro i hi _ p hp
    rw [hedited.maxFilecount, hpat.maxFilecount] at hi
    rw [InSlot, hedited.filesize, hpat.filesize] at hp
    have hin : InArea s p := InSlot.inArea hg hi hp
    have hflags := he.inside p hin
    rw [hdata, hedited.needsErase]
    refine ⟨?_, ?_, ?_⟩
    · rw [HasData, hflags]
      exact Bool.false_ne_true
    · rcases hedited.flags p with hsame | ⟨hpatPage, -⟩
      · rw [IsDirty, hsame, hflags]
        exact Bool.false_ne_true
      · exact absurd (hpatPage ▸ hin) hpageOut
    · rw [NeedsErase, hflags]
      exact Bool.false_ne_true
  · intro i _ hp
    exact absurd hp (not_present_clearPat t i)
  · intro p hp hlt
    have hp' : p < blockPageSize ∨ (s.memSize - constDataSize) / pageSize ≤ p := by
      rw [← hmemSize]
      exact hp
    have hlt' : p < s.memSize / pageSize := by
      rw [← hmemSize]
      exact hlt
    have hout : ¬ InArea s p := by
      intro hin
      unfold InArea at hin
      omega
    rw [hdata, HasData, he.outside p hout]
    exact h.flags.outside p hp' hlt'

end

/-! ### Runs -/

/-- What is to be kept: pages with data, and at least the pages of the pictures and those outside
the area of the pictures. -/
def Preserved (s : Camera) (p : Nat) : Prop :=
  s.HasData p ∨ (p < s.memSize / pageSize ∧ ¬ InArea s p) ∨
    ∃ i < s.maxFilecount, s.Present i ∧ InSlot s i p

/-- The memory is as it should be between commits: each page is erased that need not be, in
particular those of the slots that are marked pre-erased, and no page was programmed that was not
erased. -/
structure FlashRight (s : Camera) : Prop where
  erased : ∀ a < s.memSize, ¬ s.NeedsErase (a / pageSize) → s.store a = erasedByte
  preErased : ∀ i < s.maxFilecount, s.pat i = entryPreErased → ∀ a, InSlot s i (a / pageSize) →
    s.store a = erasedByte
  unerased : s.unerased = []

section

variable {strict : Prop} {s s' : Camera}

theorem Intact.hasData (h : Intact strict s) {p : Nat} (hp : Preserved s p) : s.HasData p := by
  rcases hp with hdata | ⟨hlt, hout⟩ | ⟨i, hi, hpresent, hslot⟩
  · exact hdata
  · refine h.flags.outside p ?_ hlt
    unfold InArea at hout
    omega
  · exact h.flags.present i hi hpresent p hslot

theorem Geometry.block_of (hg : Geometry s) {a : Nat} (ha : a < s.memSize) :
    a / blockSize < s.memSize / blockSize ∧
      InBlock (a / blockSize * blockPageSize) (a / pageSize) := by
  unfold InBlock blockSize pageSize
  rw [blockPageSize_eq]
  obtain hsize | hsize | hsize := hg.memSize <;> omega

theorem Intact.flashRight (h : Intact strict s) (hstrict : strict) : FlashRight s := by
  have hg := h.patValid.geometry
  have herased : ∀ a < s.memSize, ¬ s.NeedsErase (a / pageSize) → s.store a = erasedByte := by
    intro a ha hno
    obtain ⟨hb, hin⟩ := hg.block_of ha
    have hpage := (h.coherent.blocks _ hb).resolve_right (fun hpending => hpending.1 hstrict) _ hin
    by_cases hdirty : s.IsDirty (a / pageSize)
    · exact (hpage.room hno hdirty a rfl).2 hstrict
    · exact hpage.erased hno hdirty a rfl
  refine ⟨herased, ?_, h.coherent.unerased hstrict⟩
  intro i hi heq a ha
  refine herased a ?_ (h.flags.preErased i hi heq _ ha).2.2
  have hin := InSlot.inArea hg hi ha
  unfold InArea constDataSize pageSize at hin
  obtain hsize | hsize | hsize := hg.memSize <;> omega

/-- No page is erased that its flags say is clean and holds data, unless its block is going to be
erased and programmed again. -/
theorem Intact.clean_page (h : Intact strict s) {a : Nat}
    (hdata : s.HasData (a / pageSize)) (hclean : ¬ s.IsDirty (a / pageSize)) :
    s.store a = s.logical a ∨
      s.blockNeedsErase (a / pageSize / blockPageSize * blockPageSize) = true := by
  have hb : a / pageSize / blockPageSize < s.memSize / blockSize :=
    Nat.div_lt_of_lt_mul (by rw [Nat.mul_comm]; exact h.coherent.inside _ hdata)
  have hin : InBlock (a / pageSize / blockPageSize * blockPageSize) (a / pageSize) := by
    unfold InBlock
    rw [blockPageSize_eq]
    omega
  rcases h.coherent.blocks _ hb with hsettled | ⟨-, hpending⟩
  · exact Or.inl ((hsettled _ hin).kept hdata hclean a rfl)
  · exact Or.inr ((blockNeedsErase_iff s _).mpr hpending.dirty)

theorem Intact.store_eq (h : Intact strict s) (hclean : ∀ p, ¬ s.IsDirty p) {a : Nat}
    (ha : Preserved s (a / pageSize)) : s.store a = s.logical a := by
  refine (h.clean_page (h.hasData ha) (hclean _)).resolve_right fun herase => ?_
  obtain ⟨p, -, hdirty, -⟩ := (blockNeedsErase_iff s _).mp herase
  exact hclean p hdirty

theorem Intact.faults (h : Intact strict s) (faults : Command → Option Fault) :
    Intact strict { s with faults := faults } := by
  have hcoherent := h.coherent
  refine ⟨h.patValid.faults faults, ⟨hcoherent.inside, hcoherent.dirty, hcoherent.copy, ?_,
    hcoherent.unerased⟩, ⟨h.flags.preErased, h.flags.present, h.flags.outside⟩,
    h.patPage.read, h.patPage.data, h.patPage.erase⟩
  intro b hb
  refine (hcoherent.blocks b hb).imp ?_ ?_
  · intro hsettled p hp
    have hpage := hsettled p hp
    exact ⟨hpage.needs, hpage.kept, hpage.erased, hpage.room⟩
  · rintro ⟨hstrict, hpending⟩
    exact ⟨hstrict, hpending.needs, hpending.dirty, hpending.read⟩

theorem call_intact {call : Call} (h : Intact True s) (hallowed : call.Allowed s) :
    Ends (fun _ s' => Intact True s') (fun _ _ => True) (call.body s) := by
  cases call with
  | read idx =>
    refine Ends.bind ((readRawFile_ends s idx).mono (fun _ _ hok => hok) fun _ _ _ => trivial) ?_
    rintro _ s' ⟨hfetched, _⟩
    exact Ends.pure (hfetched.intact h)
  | write picture =>
    refine (writeFile_ends s picture).mono ?_ fun _ _ _ => trivial
    rintro _ s' ⟨i, s1, hi, _, hfetched, hs'⟩
    have hpat := hfetched.samePat h.patValid.patRead
    have hfew : s1.pictureCount < 253 := by
      rw [hpat.pictureCount]
      exact hallowed
    have hintact := (hfetched.intact h).addPicture trivial (i := i)
      (by rwa [hpat.maxFilecount]) hfew picture
    rw [hs', ← hpat.filesize]
    exact hintact
  | delete idx =>
    refine (deleteFile_ends s idx).mono ?_ fun _ _ _ => trivial
    rintro _ s' ⟨hidx, _, hs'⟩
    rw [hs']
    exact h.deleteFile hidx
  | deleteAll =>
    refine (deleteAll_ends s).mono ?_ fun _ _ _ => trivial
    rintro _ s' ⟨s1, hcleared, hs'⟩
    rw [hs']
    exact h.deleteAll trivial hcleared
  | commit => exact (commit_intact h hallowed).mono (fun _ _ hok => hok.1) fun _ _ _ => trivial

/-- The slots that the PAT of an opened frame says are erased are erased. -/
def TruePreErased (s : Camera) : Prop :=
  ∀ i < s.maxFilecount, s.pat i = entryPreErased → ∀ a, InSlot s i (a / pageSize) →
    s.store a = erasedByte

theorem Opened.intact (h : Opened s) (htrue : TruePreErased s) : Intact True s := by
  have hg := h.geometry
  have hv := h.patValid
  have hsizes : s.memSize / blockSize * blockPageSize = s.memSize / pageSize := by
    unfold blockSize pageSize
    rw [blockPageSize_eq]
    obtain hsize | hsize | hsize := hg.memSize <;> omega
  have houtside : ∀ p, p < s.memSize / pageSize → ¬ InArea s p → s.HasData p ∧ s.NeedsErase p := by
    intro p hlt hout
    have hnone : ∀ P : Nat → Prop, ¬ ∃ i < s.maxFilecount, InSlot s i p ∧ P i := by
      rintro P ⟨i, hi, hin, _⟩
      exact hout (InSlot.inArea hg hi hin)
    rw [h.data, h.erase]
    exact ⟨⟨hlt, hnone _⟩, hlt, hnone _⟩
  have hpage := houtside patPage
    (by
      unfold patPage patOffset pageSize
      obtain hsize | hsize | hsize := hg.memSize <;> omega)
    fun hin => absurd hin.1 (by decide)
  refine ⟨hv, ⟨?_, fun p hp => absurd hp (h.clean p), ?_, ?_, fun _ => h.unerased⟩, ⟨?_, ?_, ?_⟩,
    h.patRead, hpage.1, hpage.2⟩
  · intro p hp
    rw [hsizes]
    exact ((h.data p).mp hp).1
  · intro a hread _
    rw [h.same a hread, h.logical]
  · intro b hb
    refine Or.inl fun p hp => ⟨?_, ?_, ?_, fun _ hdirty => absurd hdirty (h.clean p)⟩
    · intro hdata
      obtain ⟨hlt, hnone⟩ := (h.data p).mp hdata
      refine Or.inr ((h.erase p).mpr ⟨hlt, ?_⟩)
      rintro ⟨i, hi, hin, heq⟩
      exact hnone ⟨i, hi, hin, Or.inr heq⟩
    · intro _ _ a _
      rw [h.logical]
    · intro hno _ a ha
      have hlt : p < s.memSize / pageSize := by
        rw [← hsizes]
        have := Nat.mul_le_mul_right blockPageSize hb
        rw [Nat.succ_mul] at this
        unfold InBlock at hp
        omega
      rw [h.erase] at hno
      by_contra hbyte
      apply hno
      refine ⟨hlt, ?_⟩
      rintro ⟨i, hi, hin, heq⟩
      exact hbyte (htrue i hi heq a (by rwa [ha]))
  · intro i hi heq p hp
    refine ⟨?_, h.clean p, ?_⟩
    · intro hdata
      exact ((h.data p).mp hdata).2 ⟨i, hi, hp, Or.inr heq⟩
    · intro herase
      exact ((h.erase p).mp herase).2 ⟨i, hi, hp, heq⟩
  · intro i hi hpresent p hp
    rw [h.data]
    have hin := InSlot.inArea hg hi hp
    refine ⟨?_, ?_⟩
    · unfold InArea at hin
      have := Nat.div_le_div_right (c := pageSize) (Nat.sub_le s.memSize constDataSize)
      omega
    · rintro ⟨j, hj, hpj, hspecial⟩
      have hji := hpj.unique hg hp
      rw [hji] at hspecial
      exact hv.not_special hpresent hspecial
  · intro p hp hlt
    refine (houtside p hlt ?_).1
    unfold InArea
    omega

end

/-- A call that succeeds and may be made. -/
def SteadyStep (s s' : Camera) : Prop :=
  ∃ call faults, Call.Allowed s call ∧ Call.run call faults s = some (.ok (), s')

theorem SteadyStep.intact {s s' : Camera} (h : Intact True s) (hstep : SteadyStep s s') :
    Intact True s' := by
  obtain ⟨call, faults, hallowed, hrun⟩ := hstep
  exact (call_intact (h.faults faults) (hallowed.faults faults)).of_ok hrun

/-- In every run of calls on a frame that was opened the memory is right between commits, and after
every commit it has what is to be kept. -/
theorem commit_flash {start s0 s : Camera} (hfresh : Fresh start)
    (hopen : openDevice start = some (.ok (), s0)) (htrue : TruePreErased s0)
    (hrun : Relation.ReflTransGen SteadyStep s0 s) :
    FlashRight s ∧ ∀ faults s', Call.Allowed s .commit →
      Call.run .commit faults s = some (.ok (), s') →
        ∀ a, Preserved s' (a / pageSize) → s'.store a = s'.logical a := by
  have hopened := ((openDevice_ends hfresh).of_ok hopen).1
  have hintact := invariant_of_steps (fun _ _ h hstep => SteadyStep.intact h hstep) hrun
    (hopened.intact htrue)
  refine ⟨hintact.flashRight trivial, ?_⟩
  intro faults s' hallowed hcommit a ha
  obtain ⟨hintact', hclean⟩ :=
    (commit_intact (hintact.faults faults) (hallowed.faults faults)).of_ok hcommit
  exact hintact'.store_eq hclean ha

theorem frame_truePreErased {s : Camera} {pat : List UInt8} (hopened : Opened s)
    (hmax : s.maxFilecount = 14) (hstore : s.store = frameByte pat) : TruePreErased s := by
  intro i hi _ a ha
  rw [hmax] at hi
  rw [hstore]
  unfold InSlot pictureOffset pageSize at ha
  rw [hopened.geometry.filesize] at ha
  exact frameByte_slots pat (by omega) (by omega)

/-- A frame with one picture, that is committed. -/
theorem commit_flash_two : ∃ s0 s', openDevice (frame false [2]) = some (.ok (), s0) ∧
    Call.run .commit (fun _ => none) s0 = some (.ok (), s') ∧ FlashRight s0 ∧
    ∀ a, Preserved s' (a / pageSize) → s'.store a = s'.logical a := by
  have hx : 1 ≤ (2 : UInt8).toNat ∧ (2 : UInt8).toNat ≤ 14 := by decide
  obtain ⟨s0, hopen, hopened, hmax, hdump, hstore, _⟩ :=
    frame_opens false fun i _ => one_entry 2 hx i
  have htrue := frame_truePreErased hopened hmax hstore
  have hallowed : Call.Allowed s0 .commit := by
    intro h
    rw [hdump] at h
    cases h
  obtain ⟨hright, hcommit⟩ := commit_flash (frame_fresh false [2]) hopen htrue
    Relation.ReflTransGen.refl
  obtain ⟨_, s', hrun, _⟩ :=
    (commit_ends (hopened.patValid.faults fun _ => none) (hallowed.faults fun _ => none)).exists_ok
      fun _ _ h => h.2.2.2.elim fun _ hfault => hfault rfl
  exact ⟨s0, s', hopen, hrun, hright, hcommit _ s' hallowed hrun⟩

/-! ### Dumps -/

/-- A commit to a dump that has to write the PAT loses everything in the first block. -/
theorem commit_dump {s : Camera} (hv : PatValid s) (hdump : s.memDump = true) (hno : NoErase s)
    (hdirty : s.IsDirty patPage) (herase : s.NeedsErase patPage) :
    Ends
      (fun _ s' => s'.memSize = s.memSize ∧ (∀ a, ¬ InPat s a → s'.logical a = s.logical a) ∧
        ∀ a < blockSize, s'.store a = erasedByte)
      (fun _ _ => s.Fails) (commit s) := by
  have hsize : blockSize ≤ s.memSize := by
    unfold blockSize
    obtain hsize | hsize | hsize := hv.geometry.memSize <;> omega
  refine commit_rule (R := fun _ => True) hv (fun _ => hno)
    ((commitBlocks_ends s hsize fun _ => hno).mono (fun _ _ _ => trivial) fun _ _ h => h.2) ?_
  intro s1 s3 _ hcommitted hrenumbered
  have hkept := hcommitted.kept
  have hpat := hkept.samePat hv.patRead
  have hedited := hrenumbered.edited
  have hdump1 : s1.memDump = s.memDump := (congrArg Camera.memDump hkept.frame :)
  have hdump3 : s3.memDump = s1.memDump := (congrArg Camera.memDump hedited.frame :)
  have hmemSize3 : s3.memSize = s1.memSize := (congrArg Camera.memSize hedited.frame :)
  have hfaults1 : s1.faults = s.faults := (congrArg Camera.faults hkept.frame :)
  have hfaults3 : s3.faults = s1.faults := (congrArg Camera.faults hedited.frame :)
  have hlogical1 : s1.logical = s.logical := (congrArg Camera.logical hkept.frame :)
  have hout : ¬ BlocksBelow (s.memSize / blockSize) patPage := fun h => absurd h.1 (by decide)
  have hfirst : InBlock 0 patPage := ⟨by decide, by decide⟩
  have hneeds3 : s3.blockNeedsErase 0 = true := by
    rw [blockNeedsErase_iff]
    refine ⟨patPage, hfirst, hedited.isDirty (hkept.elsewhere _ hout hdirty), ?_⟩
    exact (hedited.needsErase _).mpr (hcommitted.needs hdump _ (Or.inl herase))
  refine (commitBlock_dump s3 0 (by rw [hdump3, hdump1, hdump]) hneeds3).mono ?_ ?_
  · rintro _ s' ⟨hframe, _, hstore⟩
    have hmemSize : s'.memSize = s3.memSize := (congrArg Camera.memSize hframe :)
    have hlogical : s'.logical = s3.logical := (congrArg Camera.logical hframe :)
    refine ⟨by rw [hmemSize, hmemSize3, hpat.memSize], ?_, ?_⟩
    · intro a ha
      rw [hlogical]
      rcases hedited.bytes a with ⟨-, hsame⟩ | ⟨hin, -⟩
      · rw [hsame, hlogical1]
      · rw [InPat, hpat.maxFilecount] at hin
        exact absurd hin ha
    · intro a ha
      apply hstore
      unfold InBlock
      rw [blockPageSize_eq]
      unfold blockSize at ha
      unfold pageSize
      omega
  · intro _ _ hwhy
    rcases hwhy with hfails | hbeyond
    · rwa [Camera.Fails, hfaults3, hfaults1] at hfails
    · have hmem := hrenumbered.patValid.geometry.memSize
      rw [blockPageSize_eq] at hbeyond
      unfold pageSize at hbeyond
      omega

/-- The only picture of a dump is deleted, and the change is committed: the signature behind the PAT
is gone. -/
theorem commit_dump_loses : ∃ s0 s1 s2, openDevice (frame true [1]) = some (.ok (), s0) ∧
    Call.run (.delete 0) (fun _ => none) s0 = some (.ok (), s1) ∧
    Call.run .commit (fun _ => none) s1 = some (.ok (), s2) ∧ TruePreErased s0 ∧
    Preserved s2 (patMagicOffset / pageSize) ∧
    s2.store patMagicOffset ≠ s2.logical patMagicOffset := by
  have hx : 1 ≤ (1 : UInt8).toNat ∧ (1 : UInt8).toNat ≤ 14 := by decide
  obtain ⟨s0, hopen, hopened, hmax, hdump, hstore, hpat⟩ :=
    frame_opens true fun i _ => one_entry 1 hx i
  obtain ⟨hv, _, hcount, _⟩ := opened_one hopened hmax hpat hx
  have htrue := frame_truePreErased hopened hmax hstore
  have hintact := hopened.intact htrue
  have hpresent : 0 < s0.maxFilecount ∧ s0.Present 0 := by
    have hfirst : s0.pat 0 = 1 := hpat 0 (by decide)
    have hone : (1 : UInt8).toNat = 1 := rfl
    rw [hmax, Present, hfirst, hcount]
    exact ⟨by decide, by decide⟩
  obtain ⟨_, s1, hdelete, _, _, hs1⟩ :=
    (deleteFile_ends { s0 with faults := fun _ => none } 0).exists_ok fun _ _ h => h.2 hpresent
  have hs1' : s1 = ({ s0 with faults := fun _ => none }.setPat 0 entryDeletedWin).patDirty := hs1
  have hintact1 : Intact True s1 := by
    rw [hs1']
    exact (hintact.faults _).deleteFile hpresent.1
  have hedited1 : PatEdited { s0 with faults := fun _ => none } s1 := by
    rw [hs1']
    exact PatEdited.setPat (s := { s0 with faults := fun _ => none }) hpresent.1 _
  have hdirty1 : ∀ p, s1.IsDirty p ↔ p = patPage := by
    intro p
    by_cases hp : p = patPage
    · have hnew : s1.IsDirty patPage := by
        rw [hs1']
        exact congrArg PageState.dirty (Camera.setPage_same _ _ _)
      rw [hp]
      exact ⟨fun _ => rfl, fun _ => hnew⟩
    · rcases hedited1.flags p with hsame | ⟨hpage, -⟩
      · rw [IsDirty, hsame]
        exact ⟨fun h => absurd h (hopened.clean p), fun h => absurd h hp⟩
      · exact absurd hpage hp
  have hdump1 : s1.memDump = true := by
    have hsame : s1.memDump = s0.memDump := (congrArg Camera.memDump hedited1.frame :)
    rw [hsame, hdump]
  have hno1 : NoErase s1 := by
    intro b hb _
    rw [← Bool.not_eq_true, blockNeedsErase_iff]
    rintro ⟨p, hp, hdirty, _⟩
    rw [(hdirty1 p).mp hdirty] at hp
    unfold InBlock at hp
    have hle := Nat.mul_le_mul_right blockPageSize hb
    rw [blockPageSize_eq] at hp hle
    have hpage : patPage = 30 := by decide
    omega
  obtain ⟨_, s2, hcommit, hmemSize2, hlogical2, hstore2⟩ :=
    (@commit_dump { s1 with faults := fun _ => none } (hintact1.patValid.faults _) hdump1 hno1
      ((hdirty1 _).mpr rfl) hintact1.patPage.erase).exists_ok
      fun _ _ h => h.elim fun _ hfault => hfault rfl
  refine ⟨s0, s1, s2, hopen, hdelete, hcommit, htrue, ?_, ?_⟩
  · refine Or.inr (Or.inl ⟨?_, fun hin => absurd hin.1 (by decide)⟩)
    have hsize : s2.memSize = s1.memSize := hmemSize2
    have hg := hintact1.patValid.geometry
    rw [hsize]
    unfold patMagicOffset pageSize
    obtain hsize | hsize | hsize := hg.memSize <;> omega
  · have hmax1 : s1.maxFilecount = 14 := by
      rw [hedited1.maxFilecount]
      exact hmax
    have hout : ∀ n ≤ 14, ¬ (patOffset ≤ patMagicOffset ∧ patMagicOffset < patOffset + n) := by
      intro n hn
      unfold patOffset patMagicOffset
      omega
    have hlogical1 : s1.logical patMagicOffset = s0.logical patMagicOffset := by
      rcases hedited1.bytes patMagicOffset with ⟨-, hsame⟩ | ⟨hin, -⟩
      · exact hsame
      · exact absurd hin (hout _ (Nat.le_of_eq hmax))
    have hmagic : frameByte [1] patMagicOffset ≠ erasedByte := by decide +kernel
    have hlogical : s2.logical patMagicOffset = s1.logical patMagicOffset :=
      hlogical2 _ fun hin => hout _ (Nat.le_of_eq hmax1) hin
    rw [hstore2 _ (by decide), hlogical, hlogical1, hopened.logical, hstore]
    exact fun heq => hmagic heq.symm

end GPhoto2.Tp6801
