import GPhoto2.Proofs.Tp6801.Open

/-!
# `GPhoto2.Proofs.Tp6801.Coherent`: the memory of a tp6801 frame and what it is to hold

`Coherent` is the invariant that ties the flags of the pages, the driver's copy, the memory and what
the driver was told to keep. It comes in two strengths. The strict one holds as long as nothing
fails: a page that need not be erased is erased. The other one holds behind failures too: there a
page may be programmed in part, and an erase that failed may have left anything in its block, as
long as the block is going to be erased again (`Pending`).
-/

set_option autoImplicit false

namespace GPhoto2.Tp6801

open Lib
open Camera (HasData IsDirty IsRead NeedsErase)
open Lib.Comp (Ends)

/-! ### The invariant -/

/-- The flags of the page are right about the memory. -/
structure SettledPage (strict : Prop) (s : Camera) (p : Nat) : Prop where
  needs : s.HasData p → s.IsDirty p ∨ s.NeedsErase p
  kept : s.HasData p → ¬ s.IsDirty p → ∀ a, a / pageSize = p → s.store a = s.logical a
  erased : ¬ s.NeedsErase p → ¬ s.IsDirty p → ∀ a, a / pageSize = p → s.store a = erasedByte
  room : ¬ s.NeedsErase p → s.IsDirty p → ∀ a, a / pageSize = p →
    s.store a &&& s.mem a = s.mem a ∧ (strict → s.store a = erasedByte)

/-- The flags of the pages of a block are. -/
def Settled (strict : Prop) (s : Camera) (bsp : Nat) : Prop :=
  ∀ p, InBlock bsp p → SettledPage strict s p

/-- The block is going to be erased, and everything in it that is to be kept was read. -/
structure Pending (s : Camera) (bsp : Nat) : Prop where
  needs : ∀ p, InBlock bsp p → s.HasData p → s.IsDirty p ∨ s.NeedsErase p
  dirty : ∃ p, InBlock bsp p ∧ s.IsDirty p ∧ s.NeedsErase p
  read : ∀ p, InBlock bsp p → s.HasData p → s.IsRead p

/-- The copy and the memory have what the driver was told to keep, as the flags say. -/
structure Coherent (strict : Prop) (s : Camera) : Prop where
  inside : ∀ p, s.HasData p → p < s.memSize / blockSize * blockPageSize
  dirty : ∀ p, s.IsDirty p → s.IsRead p ∧ s.HasData p
  copy : ∀ a, s.IsRead (a / pageSize) → s.HasData (a / pageSize) → s.mem a = s.logical a
  blocks : ∀ b < s.memSize / blockSize, Settled strict s (b * blockPageSize) ∨
    ¬ strict ∧ Pending s (b * blockPageSize)
  unerased : strict → s.unerased = []

/-- The flags of the pages of the slots agree with the PAT, and so do those of the others. -/
structure FlagsAgree (s : Camera) : Prop where
  preErased : ∀ i < s.maxFilecount, s.pat i = entryPreErased → ∀ p, InSlot s i p →
    ¬ s.HasData p ∧ ¬ s.IsDirty p ∧ ¬ s.NeedsErase p
  present : ∀ i < s.maxFilecount, s.Present i → ∀ p, InSlot s i p → s.HasData p
  outside : ∀ p, p < blockPageSize ∨ (s.memSize - constDataSize) / pageSize ≤ p →
    p < s.memSize / pageSize → s.HasData p

variable {s s' : Camera}

theorem Kept.flagsAgree {here : Nat → Prop} (h : Kept here s s') (hv : PatValid s)
    (hflags : FlagsAgree s) : FlagsAgree s' := by
  have hpat := h.samePat hv.patRead
  have hmax := hv.geometry.maxFilecount_le
  have hslot : ∀ i p, InSlot s' i p ↔ InSlot s i p := by
    intro i p
    rw [InSlot, hpat.filesize, InSlot]
  refine ⟨?_, ?_, ?_⟩
  · intro i hi heq p hp
    rw [hpat.maxFilecount] at hi
    rw [hpat.pat (by omega)] at heq
    obtain ⟨hdata, hdirty, herase⟩ := hflags.preErased i hi heq p ((hslot i p).mp hp)
    refine ⟨fun h' => hdata ((h.data p).mp h'), fun h' => hdirty (h.dirty p h'), fun h' => ?_⟩
    rcases h.erase p h' with hneeds | ⟨-, hd | hd⟩
    · exact herase hneeds
    · exact hdirty hd
    · exact hdata hd
  · intro i hi hp p hslot'
    rw [hpat.maxFilecount] at hi
    rw [hpat.present_iff (by omega)] at hp
    exact (h.data p).mpr (hflags.present i hi hp p ((hslot i p).mp hslot'))
  · intro p hp hlt
    rw [hpat.memSize] at hp hlt
    exact (h.data p).mpr (hflags.outside p hp hlt)

/-! ### Blocks that nothing happens to -/

/-- The block is as it was, but for pages that were fetched. -/
structure Untouched (s s' : Camera) (bsp : Nat) : Prop where
  flags : ∀ p, InBlock bsp p → s'.pageState p = { s.pageState p with read := (s'.pageState p).read }
  read : ∀ p, s.IsRead p → s'.IsRead p
  store : ∀ a, InBlock bsp (a / pageSize) → s'.store a = s.store a
  logical : s'.logical = s.logical
  same : ∀ a, s.IsRead (a / pageSize) → s'.mem a = s.mem a

namespace Untouched

variable {s s' s'' : Camera} {bsp p : Nat}

theorem refl (s : Camera) (bsp : Nat) : Untouched s s bsp :=
  ⟨fun _ _ => rfl, fun _ h => h, fun _ _ => rfl, rfl, fun _ _ => rfl⟩

variable (h : Untouched s s' bsp)
include h

theorem trans (h' : Untouched s' s'' bsp) : Untouched s s'' bsp where
  flags p hp := by rw [h'.flags p hp, h.flags p hp]
  read p hp := h'.read p (h.read p hp)
  store a ha := (h'.store a ha).trans (h.store a ha)
  logical := h'.logical.trans h.logical
  same a ha := (h'.same a (h.read _ ha)).trans (h.same a ha)

theorem hasData (hp : InBlock bsp p) : s'.HasData p ↔ s.HasData p := by
  rw [HasData, h.flags p hp, HasData]

theorem isDirty (hp : InBlock bsp p) : s'.IsDirty p ↔ s.IsDirty p := by
  rw [IsDirty, h.flags p hp, IsDirty]

theorem needsErase (hp : InBlock bsp p) :
    s'.NeedsErase p ↔ s.NeedsErase p := by
  rw [NeedsErase, h.flags p hp, NeedsErase]

theorem settled {strict : Prop}
    (hread : ∀ p, s.IsDirty p → s.IsRead p) (hs : Settled strict s bsp) :
    Settled strict s' bsp := by
  intro p hp
  have hpage := hs p hp
  have hbytes : ∀ a, a / pageSize = p → s'.store a = s.store a :=
    fun a ha => h.store a (by rwa [ha])
  refine ⟨?_, ?_, ?_, ?_⟩
  · rw [h.hasData hp, h.isDirty hp, h.needsErase hp]
    exact hpage.needs
  · rw [h.hasData hp, h.isDirty hp]
    intro hdata hclean a ha
    rw [hbytes a ha, h.logical]
    exact hpage.kept hdata hclean a ha
  · rw [h.isDirty hp, h.needsErase hp]
    intro herase hclean a ha
    rw [hbytes a ha]
    exact hpage.erased herase hclean a ha
  · rw [h.isDirty hp, h.needsErase hp]
    intro herase hdirty a ha
    rw [hbytes a ha, h.same a (by rw [ha]; exact hread p hdirty)]
    exact hpage.room herase hdirty a ha

theorem pending (hs : Pending s bsp) : Pending s' bsp where
  needs p hp hdata := by
    rw [h.isDirty hp, h.needsErase hp]
    exact hs.needs p hp ((h.hasData hp).mp hdata)
  dirty := by
    obtain ⟨p, hp, hdirty, herase⟩ := hs.dirty
    exact ⟨p, hp, (h.isDirty hp).mpr hdirty, (h.needsErase hp).mpr herase⟩
  read p hp hdata := h.read p (hs.read p hp ((h.hasData hp).mp hdata))

end Untouched

theorem Fetched.untouched (h : Fetched s s') (bsp : Nat) : Untouched s s' bsp where
  flags p _ := h.flags p
  read := h.read
  store a _ := by rw [h.store]
  logical := h.logical
  same := h.same

theorem InBlock.unique {b c p : Nat} (hb : InBlock (b * blockPageSize) p)
    (hc : InBlock (c * blockPageSize) p) : b = c := by
  unfold InBlock at hb hc
  rw [blockPageSize_eq] at hb hc
  omega

variable {strict : Prop}

theorem Coherent.fetched (h : Coherent strict s)
    (hf : Fetched s s') : Coherent strict s' := by
  have hdata : ∀ p, s'.HasData p ↔ s.HasData p := by
    intro p
    rw [HasData, hf.containsData, HasData]
  have hdirty : ∀ p, s'.IsDirty p ↔ s.IsDirty p := by
    intro p
    rw [IsDirty, hf.dirty, IsDirty]
  refine ⟨?_, ?_, ?_, ?_, ?_⟩
  · intro p hp
    rw [hf.memSize]
    exact h.inside p ((hdata p).mp hp)
  · intro p hp
    obtain ⟨hread, hd⟩ := h.dirty p ((hdirty p).mp hp)
    exact ⟨hf.read p hread, (hdata p).mpr hd⟩
  · intro a hread hd
    rw [hdata] at hd
    by_cases hold : s.IsRead (a / pageSize)
    · rw [hf.same a hold, hf.logical]
      exact h.copy a hold hd
    · -- the page was fetched just now, so its block is settled and it is not dirty
      rw [hf.fetched a hold hread, hf.logical]
      have hpage := h.inside _ hd
      have hblock : InBlock (a / pageSize / blockPageSize * blockPageSize) (a / pageSize) := by
        unfold InBlock
        rw [blockPageSize_eq]
        omega
      have hb : a / pageSize / blockPageSize < s.memSize / blockSize :=
        Nat.div_lt_of_lt_mul (by rwa [Nat.mul_comm])
      rcases h.blocks _ hb with hsettled | ⟨-, hpending⟩
      · exact (hsettled _ hblock).kept hd (fun hdirt => hold (h.dirty _ hdirt).1) a rfl
      · exact absurd (hpending.read _ hblock hd) hold
  · intro b hb
    rw [hf.memSize] at hb
    refine (h.blocks b hb).imp ?_ ?_
    · exact (hf.untouched _).settled fun p hp => (h.dirty p hp).1
    · rintro ⟨hstrict, hpending⟩
      exact ⟨hstrict, (hf.untouched _).pending hpending⟩
  · intro hstrict
    have hsame : s'.unerased = s.unerased := (congrArg Camera.unerased hf.frame :)
    rw [hsame, h.unerased hstrict]

/-! ### Programming a block -/

/-- The page can be programmed: if it is selected it is erased, or in part programmed with what it
is to hold, and otherwise its flags are right. -/
structure ReadyPage (strict : Prop) (withData : Bool) (s : Camera) (p : Nat) : Prop where
  selected : s.Selected withData p → s.IsRead p ∧ s.HasData p ∧ ¬ s.NeedsErase p
  room : s.Selected withData p → ∀ a, a / pageSize = p →
    s.store a &&& s.mem a = s.mem a ∧ (strict → s.store a = erasedByte)
  others : ¬ s.Selected withData p → SettledPage strict s p

theorem ReadyPage.settled_dirty {withData : Bool} {p : Nat}
    (h : ReadyPage strict withData s p) (hdirty : s.IsDirty p) : SettledPage strict s p := by
  refine ⟨fun _ => Or.inl hdirty, ?_, ?_, fun _ _ => h.room (Or.inl hdirty)⟩
  · intro _ hclean
    exact absurd hdirty hclean
  · intro _ hclean
    exact absurd hdirty hclean

theorem SettledPage.congr {p : Nat} (h : SettledPage strict s p)
    (hflags : s'.pageState p = s.pageState p)
    (hbytes : ∀ a, a / pageSize = p →
      s'.store a = s.store a ∧ s'.mem a = s.mem a ∧ s'.logical a = s.logical a) :
    SettledPage strict s' p := by
  have hdata : s'.HasData p ↔ s.HasData p := by rw [HasData, hflags, HasData]
  have hdirty : s'.IsDirty p ↔ s.IsDirty p := by rw [IsDirty, hflags, IsDirty]
  have herase : s'.NeedsErase p ↔ s.NeedsErase p := by
    rw [NeedsErase, hflags, NeedsErase]
  refine ⟨?_, ?_, ?_, ?_⟩
  · rw [hdata, hdirty, herase]
    exact h.needs
  · rw [hdata, hdirty]
    intro hd hclean a ha
    rw [(hbytes a ha).1, (hbytes a ha).2.2]
    exact h.kept hd hclean a ha
  · rw [hdirty, herase]
    intro he hclean a ha
    rw [(hbytes a ha).1]
    exact h.erased he hclean a ha
  · rw [hdirty, herase]
    intro he hd a ha
    rw [(hbytes a ha).1, (hbytes a ha).2.1]
    exact h.room he hd a ha

theorem programmedByte_eq {a : Nat} (hroom : s.store a &&& s.mem a = s.mem a) :
    s.programmedByte a = s.mem a := by
  unfold Camera.programmedByte
  by_cases hdump : s.memDump = true
  · rw [if_pos hdump]
  · rw [if_neg hdump, hroom]

theorem spoiltByte_room {a : Nat} (hdevice : s.memDump = false)
    (hroom : s.store a &&& s.mem a = s.mem a) (garbage : Nat → UInt8) :
    s.spoiltByte garbage a &&& s.mem a = s.mem a := by
  unfold Camera.spoiltByte
  rw [hdevice, if_neg Bool.false_ne_true, UInt8.and_assoc]
  have habsorb : (s.mem a ||| garbage a) &&& s.mem a = s.mem a := by
    apply UInt8.toBitVec_inj.mp
    ext i hi
    simp only [UInt8.toBitVec_and, UInt8.toBitVec_or, BitVec.getElem_and, BitVec.getElem_or]
    cases (s.mem a).toBitVec[i] <;> simp
  rw [habsorb, hroom]

section

variable {strict : Prop} {withData : Bool} {s s' : Camera} {bsp : Nat}

theorem Programmed.logical {n : Nat} (h : Programmed withData bsp n s s') :
    s'.logical = s.logical := (congrArg Camera.logical h.frame :)

theorem Programmed.settled_selected {n p : Nat} (h : Programmed withData bsp n s s')
    (hready : ReadyPage strict withData s p)
    (hcopy : ∀ a, s.IsRead (a / pageSize) → s.HasData (a / pageSize) → s.mem a = s.logical a)
    (hlow : bsp ≤ p) (hhigh : p < bsp + n) (hsel : s.Selected withData p) :
    SettledPage strict s' p := by
  have hflags := h.flags p hlow hhigh hsel
  have hclean : ¬ s'.IsDirty p := by
    rw [IsDirty, hflags]
    exact Bool.false_ne_true
  have herase : s'.NeedsErase p := by
    rw [NeedsErase, hflags]
  refine ⟨fun _ => Or.inr herase, ?_, fun hnot => absurd herase hnot,
    fun hnot => absurd herase hnot⟩
  intro _ _ a ha
  obtain ⟨hread, hdata, -⟩ := hready.selected hsel
  rw [← ha] at hlow hhigh hsel hread hdata
  rw [h.store a hlow hhigh hsel, programmedByte_eq (hready.room (ha ▸ hsel) a ha).1, h.logical,
    hcopy a hread hdata]

theorem Programmed.settled (h : Programmed withData bsp blockPageSize s s')
    (hready : ∀ p, InBlock bsp p → ReadyPage strict withData s p)
    (hcopy : ∀ a, s.IsRead (a / pageSize) → s.HasData (a / pageSize) → s.mem a = s.logical a) :
    Settled strict s' bsp := by
  intro p hp
  by_cases hsel : s.Selected withData p
  · exact h.settled_selected (hready p hp) hcopy hp.1 hp.2 hsel
  · refine ((hready p hp).others hsel).congr (h.sameFlags p fun hin => hsel hin.2.2) ?_
    intro a ha
    rw [h.mem, h.logical]
    exact ⟨h.sameStore a fun hin => hsel (ha ▸ hin.2.2), rfl, rfl⟩

theorem Programmed.unerased_eq (h : Programmed withData bsp blockPageSize s s')
    (hready : ∀ p, InBlock bsp p → ReadyPage strict withData s p) (hstrict : strict) :
    s'.unerased = s.unerased := by
  apply h.erased
  intro p hlow hhigh hsel
  rw [Camera.pageErased_iff]
  intro a ha
  exact ((hready p ⟨hlow, hhigh⟩).room hsel a ha).2 hstrict

/-- A block is settled behind a program command that failed, when the pages that should have been
programmed are all dirty: they will be. -/
theorem Spoilt.settled {n : Nat} (h : Spoilt withData bsp n s s') (hstrict : ¬ strict)
    (hdevice : s.memDump = false) (hready : ∀ p, InBlock bsp p → ReadyPage strict withData s p)
    (hcopy : ∀ a, s.IsRead (a / pageSize) → s.HasData (a / pageSize) → s.mem a = s.logical a)
    (hrest : ∀ p, InBlock bsp p → bsp + n ≤ p → s.Selected withData p → s.IsDirty p) :
    Settled strict s' bsp := by
  obtain ⟨s1, hprog, hframe, garbage, hstore⟩ := h.before
  have hflags : s'.pageState = s1.pageState := (congrArg Camera.pageState hframe :)
  have hmem : s'.mem = s1.mem := (congrArg Camera.mem hframe :)
  have hlogical : s'.logical = s1.logical := (congrArg Camera.logical hframe :)
  have hdump : s1.memDump = false := by rw [hprog.memDump, hdevice]
  have houtside : ∀ a, a / pageSize ≠ bsp + n → s'.store a = s1.store a := by
    intro a ha
    rw [hstore]
    exact within_outside fun hin => ha (mem_page_iff.mp hin)
  intro p hp
  by_cases hsel : s.Selected withData p
  · by_cases hlast : p = bsp + n
    · -- the page whose command failed
      have hdirty := hrest p hp (by omega) hsel
      have hflags1 : s1.pageState p = s.pageState p := by
        rw [hlast]
        exact hprog.flags_next
      have hdirty' : s'.IsDirty p := by
        rwa [IsDirty, hflags, hflags1]
      refine ⟨fun _ => Or.inl hdirty', fun _ hclean => absurd hdirty' hclean,
        fun _ hclean => absurd hdirty' hclean, ?_⟩
      intro _ _ a ha
      refine ⟨?_, fun h' => absurd h' hstrict⟩
      have hroom := ((hready p hp).room hsel a ha).1
      rw [hmem, hstore, within_inside (mem_page_iff.mpr (ha.trans hlast))]
      refine spoiltByte_room hdump ?_ garbage
      rw [hprog.mem, hprog.store_next (ha.trans hlast)]
      exact hroom
    · have hpage : SettledPage strict s1 p := by
        by_cases hbefore : p < bsp + n
        · exact hprog.settled_selected (hready p hp) hcopy hp.1 hbefore hsel
        · refine ((hready p hp).settled_dirty (hrest p hp (by omega) hsel)).congr
            (hprog.sameFlags p fun hin => hbefore hin.2.1) ?_
          intro a ha
          rw [hprog.mem, hprog.logical]
          exact ⟨hprog.sameStore a fun hin => hbefore (ha ▸ hin.2.1), rfl, rfl⟩
      refine hpage.congr (by rw [hflags]) ?_
      intro a ha
      rw [hmem, hlogical]
      exact ⟨houtside a (by rwa [ha]), rfl, rfl⟩
  · have hlast : p ≠ bsp + n := fun hp' => hsel (hp' ▸ h.selected)
    refine ((hready p hp).others hsel).congr ?_ ?_
    · rw [hflags]
      exact hprog.sameFlags p fun hin => hsel hin.2.2
    · intro a ha
      rw [houtside a (by rwa [ha]), hmem, hprog.mem, hlogical, hprog.logical]
      exact ⟨hprog.sameStore a fun hin => hsel (ha ▸ hin.2.2), rfl, rfl⟩

end

/-! ### Committing a block -/

section

variable {s s' : Camera} {bsp other : Nat}

theorem Programmed.untouched {withData : Bool} {n : Nat} (h : Programmed withData bsp n s s')
    (hn : n ≤ blockPageSize) (hother : ∀ p, InBlock other p → ¬ InBlock bsp p) :
    Untouched s s' other := by
  have hread : ∀ p, (s'.pageState p).read = (s.pageState p).read := by
    intro p
    by_cases hin : bsp ≤ p ∧ p < bsp + n ∧ s.Selected withData p
    · rw [h.flags p hin.1 hin.2.1 hin.2.2]
    · rw [h.sameFlags p hin]
  have hout : ∀ p, InBlock other p → ¬ (bsp ≤ p ∧ p < bsp + n ∧ s.Selected withData p) :=
    fun p hp hin => hother p hp ⟨hin.1, by omega⟩
  refine ⟨?_, ?_, ?_, h.logical, ?_⟩
  · intro p hp
    rw [h.sameFlags p (hout p hp)]
  · intro p hp
    rwa [IsRead, hread]
  · intro a ha
    exact h.sameStore a (hout _ ha)
  · intro a _
    rw [h.mem]

theorem Spoilt.untouched {withData : Bool} {n : Nat} (h : Spoilt withData bsp n s s')
    (hother : ∀ p, InBlock other p → ¬ InBlock bsp p) : Untouched s s' other := by
  obtain ⟨s1, hprog, hframe, garbage, hstore⟩ := h.before
  have hn := h.inBlock
  have hflags : s'.pageState = s1.pageState := (congrArg Camera.pageState hframe :)
  have hmem : s'.mem = s1.mem := (congrArg Camera.mem hframe :)
  refine (hprog.untouched (by omega) hother).trans ⟨?_, ?_, ?_, ?_, ?_⟩
  · intro p _
    rw [hflags]
  · intro p hp
    rwa [IsRead, hflags]
  · intro a ha
    rw [hstore]
    apply within_outside
    intro hin
    refine hother _ ha ?_
    rw [mem_page_iff.mp hin]
    exact ⟨by omega, by omega⟩
  · exact (congrArg Camera.logical hframe :)
  · intro a _
    rw [hmem]

theorem BlockErased.untouched (h : BlockErased bsp s s') (hdevice : s.memDump = false)
    (hother : ∀ p, InBlock other p → ¬ InBlock bsp p) : Untouched s s' other := by
  refine ⟨?_, ?_, ?_, (congrArg Camera.logical h.frame :), ?_⟩
  · intro p hp
    rw [h.outside p (hother p hp)]
  · intro p hp
    by_cases hin : InBlock bsp p
    · rwa [IsRead, h.inside p hin]
    · rwa [IsRead, h.outside p hin]
  · intro a ha
    rw [h.store]
    exact within_outside fun hin => hother _ ha (mem_block_iff.mp hin)
  · intro a _
    rw [h.mem hdevice]

theorem EraseFailed.untouched (h : EraseFailed bsp s s') (hdevice : s.memDump = false)
    (hother : ∀ p, InBlock other p → ¬ InBlock bsp p) : Untouched s s' other := by
  have hflags : s'.pageState = s.pageState := (congrArg Camera.pageState h.frame :)
  obtain ⟨garbage, hstore⟩ := h.store
  refine ⟨?_, ?_, ?_, (congrArg Camera.logical h.frame :), ?_⟩
  · intro p _
    rw [hflags]
  · intro p hp
    rwa [IsRead, hflags]
  · intro a ha
    rw [hstore]
    exact within_outside fun hin => hother _ ha (mem_block_iff.mp hin)
  · intro a _
    rw [h.mem hdevice]

end

/-- What happens to one block keeps everything coherent, if it does so in the block. -/
theorem Coherent.of_block {b : Nat} (h : Coherent strict s)
    (hkept : Kept (InBlock (b * blockPageSize)) s s') (hread : ∀ p, s'.IsRead p → s.IsRead p)
    (hother : ∀ c, c ≠ b → Untouched s s' (c * blockPageSize))
    (hthis : Settled strict s' (b * blockPageSize) ∨ ¬ strict ∧ Pending s' (b * blockPageSize))
    (hunerased : strict → s'.unerased = s.unerased) : Coherent strict s' := by
  have hmemSize : s'.memSize = s.memSize := (congrArg Camera.memSize hkept.frame :)
  have hlogical : s'.logical = s.logical := (congrArg Camera.logical hkept.frame :)
  refine ⟨?_, ?_, ?_, ?_, ?_⟩
  · intro p hp
    rw [hmemSize]
    exact h.inside p ((hkept.data p).mp hp)
  · intro p hp
    obtain ⟨hr, hd⟩ := h.dirty p (hkept.dirty p hp)
    exact ⟨hkept.read p hr, (hkept.data p).mpr hd⟩
  · intro a hr hd
    rw [hkept.same a (hread _ hr), hlogical]
    exact h.copy a (hread _ hr) ((hkept.data _).mp hd)
  · intro c hc
    rw [hmemSize] at hc
    by_cases hcb : c = b
    · rw [hcb]
      exact hthis
    · refine (h.blocks c hc).imp ?_ ?_
      · exact (hother c hcb).settled fun p hp => (h.dirty p hp).1
      · rintro ⟨hstrict, hpending⟩
        exact ⟨hstrict, (hother c hcb).pending hpending⟩
  · intro hstrict
    rw [hunerased hstrict, h.unerased hstrict]

/-- If a program command fails in a block that had to be erased, all pages with data that come with
it and behind it are dirty. -/
def SafeBlock (s : Camera) (bsp : Nat) : Prop :=
  s.blockNeedsErase bsp = true → ∀ p, InBlock bsp p → s.HasData p →
    s.faults (.programPage (p * pageSize)) ≠ none →
      ∀ q, InBlock bsp q → p ≤ q → s.HasData q → s.IsDirty q

section

variable {strict : Prop} {s : Camera} {b : Nat}

theorem Coherent.ready (h : Coherent strict s) (hb : b < s.memSize / blockSize)
    (hno : ¬ s.blockNeedsErase (b * blockPageSize) = true) :
    ∀ p, InBlock (b * blockPageSize) p → ReadyPage strict false s p := by
  intro p hp
  have hsettled : Settled strict s (b * blockPageSize) := by
    refine (h.blocks b hb).resolve_right fun hpending => hno ?_
    exact (blockNeedsErase_iff s _).mpr hpending.2.dirty
  have hdirty : s.Selected false p → s.IsDirty p :=
    fun hsel => hsel.resolve_right fun hdata => Bool.false_ne_true hdata.1
  have herase : s.Selected false p → ¬ s.NeedsErase p :=
    fun hsel he => hno ((blockNeedsErase_iff s _).mpr ⟨p, hp, hdirty hsel, he⟩)
  refine ⟨?_, ?_, fun _ => hsettled p hp⟩
  · intro hsel
    obtain ⟨hread, hdata⟩ := h.dirty p (hdirty hsel)
    exact ⟨hread, hdata, herase hsel⟩
  · intro hsel
    exact (hsettled p hp).room (herase hsel) (hdirty hsel)

/-- A block that was erased is ready, if its pages with data have been read. -/
theorem BlockErased.ready {s1 s2 : Camera} (herased : BlockErased (b * blockPageSize) s1 s2)
    (h : Coherent strict s1)
    (hread : ∀ p, InBlock (b * blockPageSize) p → s1.HasData p → s1.IsRead p) :
    ∀ p, InBlock (b * blockPageSize) p → ReadyPage strict true s2 p := by
  intro p hp
  have hflags := herased.inside p hp
  have hdata : s2.HasData p ↔ s1.HasData p := by rw [HasData, hflags, HasData]
  have hdirty : s2.IsDirty p ↔ s1.IsDirty p := by rw [IsDirty, hflags, IsDirty]
  have hisRead : s2.IsRead p ↔ s1.IsRead p := by rw [IsRead, hflags, IsRead]
  have hno : ¬ s2.NeedsErase p := by
    rw [NeedsErase, hflags]
    exact Bool.false_ne_true
  have hstore : ∀ a, a / pageSize = p → s2.store a = erasedByte := by
    intro a ha
    rw [herased.store]
    exact within_inside (mem_block_iff.mpr (by rw [ha]; exact hp))
  have hroom : ∀ a, a / pageSize = p →
      s2.store a &&& s2.mem a = s2.mem a ∧ (strict → s2.store a = erasedByte) := by
    intro a ha
    rw [hstore a ha]
    exact ⟨UInt8.neg_one_and, fun _ => rfl⟩
  have hselected : s2.Selected true p → s1.HasData p := by
    intro hsel
    rcases hsel with hd | hd
    · exact (h.dirty p (hdirty.mp hd)).2
    · exact hdata.mp hd.2
  refine ⟨?_, fun _ => hroom, ?_⟩
  · intro hsel
    exact ⟨hisRead.mpr (hread p hp (hselected hsel)), hdata.mpr (hselected hsel), hno⟩
  · intro hnot
    refine ⟨fun hd => absurd (Or.inr ⟨rfl, hd⟩) hnot, fun hd => absurd (Or.inr ⟨rfl, hd⟩) hnot, ?_,
      fun _ _ => hroom⟩
    intro _ _
    exact hstore

theorem other_block {b c : Nat} (hcb : c ≠ b) (p : Nat) (hp : InBlock (c * blockPageSize) p) :
    ¬ InBlock (b * blockPageSize) p := fun hin => hcb (hp.unique hin)

variable {s' : Camera}

theorem Programmed.read_eq {withData : Bool} {bsp n : Nat} {s : Camera}
    (h : Programmed withData bsp n s s') (p : Nat) : s'.IsRead p ↔ s.IsRead p := by
  by_cases hin : bsp ≤ p ∧ p < bsp + n ∧ s.Selected withData p
  · rw [IsRead, h.flags p hin.1 hin.2.1 hin.2.2, IsRead]
  · rw [IsRead, h.sameFlags p hin, IsRead]

theorem Spoilt.read_eq {withData : Bool} {bsp n : Nat} {s : Camera}
    (h : Spoilt withData bsp n s s') (p : Nat) : s'.IsRead p ↔ s.IsRead p := by
  obtain ⟨s1, hprog, hframe, -⟩ := h.before
  have hflags : s'.pageState = s1.pageState := (congrArg Camera.pageState hframe :)
  rw [IsRead, hflags]
  exact hprog.read_eq p

theorem BlockErased.read_eq {bsp : Nat} {s : Camera} (h : BlockErased bsp s s') (p : Nat) :
    s'.IsRead p ↔ s.IsRead p := by
  by_cases hin : InBlock bsp p
  · rw [IsRead, h.inside p hin, IsRead]
  · rw [IsRead, h.outside p hin, IsRead]

/-- The whole of `tp6801_read_erase_program_block` behind its reads keeps everything coherent. -/
theorem BlockErased.coherent {s1 s2 : Camera}
    (herased : BlockErased (b * blockPageSize) s1 s2) (h : Coherent strict s1)
    (hdevice : s1.memDump = false) (hkept : Kept (InBlock (b * blockPageSize)) s2 s')
    (hread : ∀ p, s'.IsRead p ↔ s2.IsRead p)
    (hother : ∀ c, c ≠ b → Untouched s2 s' (c * blockPageSize))
    (hthis : Settled strict s' (b * blockPageSize))
    (hunerased : strict → s'.unerased = s2.unerased) :
    Coherent strict s' := by
  have hsame : s2.unerased = s1.unerased := (congrArg Camera.unerased herased.frame :)
  refine h.of_block ((herased.kept hdevice).trans hkept) ?_ ?_ (Or.inl hthis) ?_
  · intro p hp
    exact (herased.read_eq p).mp ((hread p).mp hp)
  · intro c hcb
    exact (herased.untouched hdevice (other_block hcb)).trans (hother c hcb)
  · intro hstrict
    rw [hunerased hstrict, hsame]

theorem BlockErased.copy {s1 s2 : Camera} (herased : BlockErased (b * blockPageSize) s1 s2)
    (h : Coherent strict s1) (hdevice : s1.memDump = false) (a : Nat)
    (hread : s2.IsRead (a / pageSize)) (hdata : s2.HasData (a / pageSize)) :
    s2.mem a = s2.logical a := by
  have hlogical : s2.logical = s1.logical := (congrArg Camera.logical herased.frame :)
  rw [herased.mem hdevice, hlogical]
  exact h.copy a ((herased.read_eq _).mp hread) (((herased.kept hdevice).data _).mp hdata)

/-- `tp6801_commit_block` keeps everything coherent. When it fails it does so in the weaker sense,
if it fails safely. -/
theorem commitBlock_coherent (h : Coherent strict s) (hb : b < s.memSize / blockSize)
    (hdump : s.memDump = true → s.blockNeedsErase (b * blockPageSize) = false) :
    Ends (fun _ s' => Coherent strict s')
      (fun _ s' => ¬ strict → s.memDump = false → SafeBlock s (b * blockPageSize) →
        Coherent strict s') (commitBlock (b * blockPageSize) s) := by
  refine Ends.get_bind (Ends.ite ?_ ?_)
  · intro _
    exact Ends.pure h
  intro _
  refine Ends.ite ?_ ?_
  · intro herase
    have hdevice : s.memDump = false := by
      cases hd : s.memDump with
      | false => rfl
      | true =>
        rw [hdump hd] at herase
        cases herase
    refine (readEraseProgramBlock_ends s (b * blockPageSize)).mono ?_ ?_
    · rintro _ s' ⟨s1, s2, hfetched, hread, herased, hprog⟩
      have h1 := h.fetched hfetched
      have hdevice1 : s1.memDump = false := by
        have hsame : s1.memDump = s.memDump := (congrArg Camera.memDump hfetched.frame :)
        rw [hsame, hdevice]
      have hready := herased.ready h1 fun p hp hdata =>
        hread p hp (by rwa [HasData, hfetched.containsData] at hdata)
      exact herased.coherent h1 hdevice1 (hprog.kept fun p hlow hhigh => ⟨hlow, hhigh⟩)
        hprog.read_eq (fun c hcb => hprog.untouched (Nat.le_refl _) (other_block hcb))
        (hprog.settled hready (herased.copy h1 hdevice1)) (hprog.unerased_eq hready)
    · intro _ s' hfailed hstrict _ hsafe
      have hdevice1 : ∀ {s1}, Fetched s s1 → s1.memDump = false := by
        intro s1 hfetched
        have hsame : s1.memDump = s.memDump := (congrArg Camera.memDump hfetched.frame :)
        rw [hsame, hdevice]
      have hread1 : ∀ {s1}, Fetched s s1 →
          (∀ p, InBlock (b * blockPageSize) p → s.HasData p → s1.IsRead p) →
            ∀ p, InBlock (b * blockPageSize) p → s1.HasData p → s1.IsRead p :=
        fun hfetched hread p hp hdata =>
          hread p hp (by rwa [HasData, hfetched.containsData] at hdata)
      cases hfailed with
      | read hfetched => exact h.fetched hfetched
      | erase s1 hfetched hread hfailed =>
        -- the block may hold anything, and will be erased again
        have h1 := h.fetched hfetched
        have hflags : s'.pageState = s1.pageState := (congrArg Camera.pageState hfailed.frame :)
        have hneeds1 : ∀ p, InBlock (b * blockPageSize) p → s1.HasData p →
            s1.IsDirty p ∨ s1.NeedsErase p := by
          intro p hp hdata
          have hb1 : b < s1.memSize / blockSize := by rwa [hfetched.memSize]
          rcases h1.blocks b hb1 with hsettled | ⟨-, hpending⟩
          · exact (hsettled p hp).needs hdata
          · exact hpending.needs p hp hdata
        refine h1.of_block (hfailed.kept (hdevice1 hfetched)) ?_ ?_ (Or.inr ⟨hstrict, ?_⟩)
          fun h => absurd h hstrict
        · intro p hp
          rwa [IsRead, hflags] at hp
        · intro c hcb
          exact hfailed.untouched (hdevice1 hfetched) (other_block hcb)
        · refine ⟨?_, ?_, ?_⟩
          · intro p hp hdata
            rw [HasData, hflags] at hdata
            rw [IsDirty, NeedsErase, hflags]
            exact hneeds1 p hp hdata
          · obtain ⟨p, hp, hd, he⟩ := (blockNeedsErase_iff s _).mp herase
            refine ⟨p, hp, ?_, ?_⟩
            · rwa [IsDirty, hflags, hfetched.dirty]
            · rwa [NeedsErase, hflags, hfetched.needsErase]
          · intro p hp hdata
            rw [HasData, hflags] at hdata
            rw [IsRead, hflags]
            exact hread1 hfetched hread p hp hdata
      | program s1 s2 n hfetched hread herased hspoilt =>
        have h1 := h.fetched hfetched
        have hready := herased.ready h1 (hread1 hfetched hread)
        have hdevice2 : s2.memDump = false := by
          have hsame : s2.memDump = s1.memDump := (congrArg Camera.memDump herased.frame :)
          rw [hsame, hdevice1 hfetched]
        have hfaults2 : s2.faults = s.faults := by rw [herased.faults, hfetched.faults]
        have hdata2 : ∀ p, InBlock (b * blockPageSize) p → (s2.HasData p ↔ s.HasData p) := by
          intro p hp
          rw [HasData, herased.inside p hp]
          show s1.HasData p ↔ _
          rw [HasData, hfetched.containsData, HasData]
        have hrest : ∀ p, InBlock (b * blockPageSize) p → b * blockPageSize + n ≤ p →
            s2.Selected true p → s2.IsDirty p := by
          intro p hp hlow hsel
          have hspoiltIn : InBlock (b * blockPageSize) (b * blockPageSize + n) :=
            ⟨Nat.le_add_right _ _, Nat.add_lt_add_left hspoilt.inBlock _⟩
          have hfault := hspoilt.fault
          rw [hfaults2] at hfault
          have hall := hsafe herase _ hspoiltIn
            ((hdata2 _ hspoiltIn).mp ((hready _ hspoiltIn).selected hspoilt.selected).2.1) hfault p
            hp hlow ((hdata2 p hp).mp ((hready p hp).selected hsel).2.1)
          rw [IsDirty, herased.inside p hp]
          show s1.IsDirty p
          rwa [IsDirty, hfetched.dirty]
        exact herased.coherent h1 (hdevice1 hfetched)
          (hspoilt.kept fun p hlow hhigh => ⟨hlow, hhigh⟩) hspoilt.read_eq
          (fun c hcb => hspoilt.untouched (other_block hcb))
          (hspoilt.settled hstrict hdevice2 hready (herased.copy h1 (hdevice1 hfetched)) hrest)
          fun h => absurd h hstrict
  · intro hno
    have hready := h.ready hb hno
    refine (programBlock_ends s (b * blockPageSize) false).mono ?_ ?_
    · intro _ s' hprog
      exact h.of_block (hprog.kept fun p hlow hhigh => ⟨hlow, hhigh⟩)
        (fun p hp => (hprog.read_eq p).mp hp)
        (fun c hcb => hprog.untouched (Nat.le_refl _) (other_block hcb))
        (Or.inl (hprog.settled hready h.copy)) (hprog.unerased_eq hready)
    · rintro _ s' ⟨n, hspoilt⟩ hstrict hdevice _
      refine h.of_block (hspoilt.kept fun p hlow hhigh => ⟨hlow, hhigh⟩)
        (fun p hp => (hspoilt.read_eq p).mp hp)
        (fun c hcb => hspoilt.untouched (other_block hcb))
        (Or.inl (hspoilt.settled hstrict hdevice hready h.copy ?_)) fun h => absurd h hstrict
      intro p _ _ hsel
      exact hsel.resolve_right fun hdata => Bool.false_ne_true hdata.1

/-- A commit of a block does nothing to the other blocks. If it fails at no program command, it
takes no flag away. -/
theorem commitBlock_untouched
    (hdump : s.memDump = true → s.blockNeedsErase (b * blockPageSize) = false) :
    Ends (fun _ s' => ∀ c, c ≠ b → Untouched s s' (c * blockPageSize))
      (fun _ s' => (∀ c, c ≠ b → Untouched s s' (c * blockPageSize)) ∧
        ((∀ p, InBlock (b * blockPageSize) p → s.faults (.programPage (p * pageSize)) = none) →
          ∀ p, s.NeedsErase p → s'.NeedsErase p)) (commitBlock (b * blockPageSize) s) := by
  refine Ends.get_bind (Ends.ite ?_ ?_)
  · intro _
    exact Ends.pure fun c _ => Untouched.refl s _
  intro _
  refine Ends.ite ?_ ?_
  · intro herase
    have hdevice : ∀ {s1}, Fetched s s1 → s1.memDump = false := by
      intro s1 hfetched
      have hsame : s1.memDump = s.memDump := (congrArg Camera.memDump hfetched.frame :)
      rw [hsame]
      cases hd : s.memDump with
      | false => rfl
      | true =>
        rw [hdump hd] at herase
        cases herase
    refine (readEraseProgramBlock_ends s (b * blockPageSize)).mono ?_ ?_
    · rintro _ s' ⟨s1, s2, hfetched, _, herased, hprog⟩ c hcb
      exact ((hfetched.untouched _).trans
        (herased.untouched (hdevice hfetched) (other_block hcb))).trans
        (hprog.untouched (Nat.le_refl _) (other_block hcb))
    · intro _ s' hfailed
      cases hfailed with
      | read hfetched =>
        refine ⟨fun c _ => hfetched.untouched _, fun _ p hp => ?_⟩
        rwa [NeedsErase, hfetched.needsErase]
      | erase s1 hfetched _ hfailed =>
        have hflags : s'.pageState = s1.pageState := (congrArg Camera.pageState hfailed.frame :)
        refine ⟨fun c hcb => (hfetched.untouched _).trans
          (hfailed.untouched (hdevice hfetched) (other_block hcb)), fun _ p hp => ?_⟩
        rwa [NeedsErase, hflags, hfetched.needsErase]
      | program s1 s2 n hfetched _ herased hspoilt =>
        refine ⟨fun c hcb => ((hfetched.untouched _).trans
          (herased.untouched (hdevice hfetched) (other_block hcb))).trans
          (hspoilt.untouched (other_block hcb)), fun hnone => ?_⟩
        have hfault := hspoilt.fault
        rw [herased.faults, hfetched.faults] at hfault
        exact absurd (hnone _ ⟨Nat.le_add_right _ _, Nat.add_lt_add_left hspoilt.inBlock _⟩) hfault
  · intro _
    refine (programBlock_ends s (b * blockPageSize) false).mono ?_ ?_
    · intro _ s' hprog c hcb
      exact hprog.untouched (Nat.le_refl _) (other_block hcb)
    · rintro _ s' ⟨n, hspoilt⟩
      refine ⟨fun c hcb => hspoilt.untouched (other_block hcb), fun hnone => ?_⟩
      exact absurd (hnone _ ⟨Nat.le_add_right _ _, Nat.add_lt_add_left hspoilt.inBlock _⟩)
        hspoilt.fault

end

/-! ### Editing the PAT -/

/-- The page with the PAT is a page like any other with data, and is erased before it is written. -/
structure PatPage (s : Camera) : Prop where
  read : s.IsRead patPage
  data : s.HasData patPage
  erase : s.NeedsErase patPage

theorem PatEdited.coherent (hedited : PatEdited s s')
    (h : Coherent strict s) (hmax : s.maxFilecount ≤ 256) (hpat : PatPage s) :
    Coherent strict s' := by
  have hmemSize : s'.memSize = s.memSize := (congrArg Camera.memSize hedited.frame :)
  have hstore : s'.store = s.store := (congrArg Camera.store hedited.frame :)
  have hunerased : s'.unerased = s.unerased := (congrArg Camera.unerased hedited.frame :)
  have hread : ∀ p, s'.IsRead p ↔ s.IsRead p := by
    intro p
    rw [IsRead, hedited.pageState p, IsRead]
  have hdata : ∀ p, s'.HasData p ↔ s.HasData p := by
    intro p
    rw [HasData, hedited.pageState p, HasData]
  have hdirty : ∀ p, s'.IsDirty p → s.IsDirty p ∨ p = patPage := by
    intro p hp
    rcases hedited.flags p with hsame | ⟨hpage, -⟩
    · rw [IsDirty, hsame] at hp
      exact Or.inl hp
    · exact Or.inr hpage
  refine ⟨?_, ?_, ?_, ?_, ?_⟩
  · intro p hp
    rw [hmemSize]
    exact h.inside p ((hdata p).mp hp)
  · intro p hp
    rw [hread, hdata]
    rcases hdirty p hp with hd | hpage
    · exact h.dirty p hd
    · rw [hpage]
      exact ⟨hpat.read, hpat.data⟩
  · intro a hr hd
    rw [hread] at hr
    rw [hdata] at hd
    rcases hedited.bytes a with ⟨hmem, hlogical⟩ | ⟨-, -, hboth⟩
    · rw [hmem, hlogical]
      exact h.copy a hr hd
    · exact hboth (h.copy a hr hd)
  · intro b hb
    rw [hmemSize] at hb
    refine (h.blocks b hb).imp ?_ ?_
    · intro hsettled p hp
      by_cases hpage : p = patPage ∧ s'.IsDirty patPage
      · -- the page with the PAT is dirty, and needs to be erased
        rw [hpage.1]
        have herase := (hedited.needsErase patPage).mpr hpat.erase
        exact ⟨fun _ => Or.inr herase, fun _ hclean => absurd hpage.2 hclean,
          fun hno => absurd herase hno, fun hno => absurd herase hno⟩
      · refine (hsettled p hp).congr ?_ ?_
        · rcases hedited.flags p with hsame | ⟨hp', hflags⟩
          · exact hsame
          · refine absurd ⟨hp', ?_⟩ hpage
            rw [← hp', IsDirty, hflags]
        · intro a ha
          rw [hstore]
          rcases hedited.bytes a with ⟨hmem, hlogical⟩ | ⟨hin, hd, -⟩
          · exact ⟨rfl, hmem, hlogical⟩
          · exact absurd ⟨ha.symm.trans (hin.page hmax), hd⟩ hpage
    · rintro ⟨hstrict, hpending⟩
      refine ⟨hstrict, ?_, ?_, ?_⟩
      · intro p hp hd
        rw [hedited.needsErase]
        exact (hpending.needs p hp ((hdata p).mp hd)).imp_left hedited.isDirty
      · obtain ⟨p, hp, hd, he⟩ := hpending.dirty
        exact ⟨p, hp, hedited.isDirty hd, (hedited.needsErase p).mpr he⟩
      · intro p hp hd
        exact (hread p).mpr (hpending.read p hp ((hdata p).mp hd))
  · intro hstrict
    rw [hunerased, h.unerased hstrict]

theorem PatEdited.patPage (hedited : PatEdited s s') (h : PatPage s) :
    PatPage s' := by
  refine ⟨?_, ?_, (hedited.needsErase _).mpr h.erase⟩
  · rw [IsRead, hedited.pageState]
    exact h.read
  · rw [HasData, hedited.pageState]
    exact h.data

end GPhoto2.Tp6801
