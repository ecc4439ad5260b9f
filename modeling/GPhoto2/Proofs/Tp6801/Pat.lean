import GPhoto2.Proofs.Tp6801.Memory
import GPhoto2.Tp6801.Pictures
import Mathlib.Order.Interval.Finset.Nat

/-!
# `GPhoto2.Proofs.Tp6801.Pat`: the PAT of a tp6801 frame

The PAT gives each picture a number. `PatValid` says that the entries mean something, and `Distinct`
that no two pictures have one number; the changes that the calls make to the PAT keep both. What
they leave alone is `PatEdited`, and `SamePat` is what the other functions leave alone.
-/

set_option autoImplicit false

namespace GPhoto2.Tp6801

open Lib

/-! ### The geometry -/

/-- What `tp6801_open_device` finds out about the frame. -/
structure Geometry (s : Camera) : Prop where
  width : s.width = 160
  height : s.height = 128
  memSize : s.memSize = 1048576 ∨ s.memSize = 2097152 ∨ s.memSize = 4194304

namespace Geometry

variable {s : Camera} (h : Geometry s)

include h

theorem filesize : s.filesize = 40960 := by
  rw [Camera.filesize, h.width, h.height]

theorem maxFilecount : s.maxFilecount = (s.memSize - 458752) / 40960 := by
  rw [Camera.maxFilecount, h.filesize, pictureOffset, constDataSize]
  omega

theorem maxFilecount_le : s.maxFilecount ≤ 91 := by
  rw [h.maxFilecount]
  obtain hsize | hsize | hsize := h.memSize <;> omega

theorem room : pictureOffset s.maxFilecount s.filesize + constDataSize ≤ s.memSize := by
  rw [h.filesize, h.maxFilecount, pictureOffset, constDataSize]
  obtain hsize | hsize | hsize := h.memSize <;> omega

theorem slot_lt {i : Nat} (hi : i < s.maxFilecount) :
    pictureOffset i s.filesize + s.filesize + constDataSize ≤ s.memSize := by
  have hroom := h.room
  rw [h.filesize, pictureOffset] at hroom ⊢
  omega

end Geometry

/-! ### The PAT -/

/-- The entry is none of a picture. -/
def Special (x : UInt8) : Prop := entryDeleted x = true ∨ x = entryPreErased

theorem special_toNat {x : UInt8} (h : Special x) :
    x.toNat = 0 ∨ x.toNat = 254 ∨ x.toNat = 255 := by
  rcases h with hdeleted | rfl
  · rw [entryDeleted, Bool.or_eq_true] at hdeleted
    rcases hdeleted with hwin | hframe
    · rw [of_decide_eq_true hwin]
      exact Or.inr (Or.inl rfl)
    · rw [of_decide_eq_true hframe]
      exact Or.inl rfl
  · exact Or.inr (Or.inr rfl)

namespace Camera

variable (s : Camera)

/-- The slot has a picture. -/
def Present (i : Nat) : Prop := 1 ≤ (s.pat i).toNat ∧ (s.pat i).toNat ≤ s.pictureCount

instance (i : Nat) : Decidable (s.Present i) := inferInstanceAs (Decidable (_ ∧ _))

theorem numberExists_iff (n : Nat) :
    s.numberExists n = true ↔ ∃ i < s.maxFilecount, (s.pat i).toNat = n := by
  unfold numberExists
  rw [List.any_eq_true]
  constructor
  · rintro ⟨i, hi, h⟩
    exact ⟨i, List.mem_range.mp hi, of_decide_eq_true h⟩
  · rintro ⟨i, hi, h⟩
    exact ⟨i, List.mem_range.mpr hi, decide_eq_true h⟩

end Camera

/-- The PAT says for each slot what is in it. -/
structure PatValid (s : Camera) : Prop where
  geometry : Geometry s
  patRead : s.IsRead patPage
  entries : ∀ i < s.maxFilecount, Special (s.pat i) ∨ s.Present i
  few : s.pictureCount ≤ 253

/-- No two pictures have one number. -/
def Distinct (s : Camera) : Prop :=
  ∀ i < s.maxFilecount, ∀ j < s.maxFilecount, s.Present i → s.pat i = s.pat j → i = j

theorem PatValid.not_special {s : Camera} (h : PatValid s) {i : Nat} (hpresent : s.Present i) :
    ¬ Special (s.pat i) := by
  intro hspecial
  have hvalue := special_toNat hspecial
  have hfew := h.few
  have hrange := hpresent
  unfold Camera.Present at hrange
  omega

/-- Nothing has changed in the PAT. -/
structure SamePat (s s' : Camera) : Prop where
  width : s'.width = s.width
  height : s'.height = s.height
  memSize : s'.memSize = s.memSize
  memDump : s'.memDump = s.memDump
  pictureCount : s'.pictureCount = s.pictureCount
  bytes : ∀ a, a / pageSize = patPage → s'.mem a = s.mem a
  read : s.IsRead patPage → s'.IsRead patPage

namespace SamePat

variable {s s' s'' : Camera}

variable (h : SamePat s s')
include h

theorem trans (h' : SamePat s' s'') : SamePat s s'' where
  width := h'.width.trans h.width
  height := h'.height.trans h.height
  memSize := h'.memSize.trans h.memSize
  memDump := h'.memDump.trans h.memDump
  pictureCount := h'.pictureCount.trans h.pictureCount
  bytes a ha := (h'.bytes a ha).trans (h.bytes a ha)
  read hp := h'.read (h.read hp)

theorem pat {i : Nat} (hi : i < 256) : s'.pat i = s.pat i := by
  apply h.bytes
  unfold patOffset patPage patOffset pageSize
  omega

theorem filesize : s'.filesize = s.filesize := by
  rw [Camera.filesize, h.width, h.height, Camera.filesize]

theorem maxFilecount : s'.maxFilecount = s.maxFilecount := by
  rw [Camera.maxFilecount, h.filesize, h.memSize, Camera.maxFilecount]

theorem geometry (hg : Geometry s) : Geometry s' :=
  ⟨h.width.trans hg.width, h.height.trans hg.height, by rw [h.memSize]; exact hg.memSize⟩

theorem present_iff {i : Nat} (hi : i < 256) : s'.Present i ↔ s.Present i := by
  rw [Camera.Present, h.pat hi, h.pictureCount, Camera.Present]

theorem patValid (hv : PatValid s) : PatValid s' := by
  have hcount := hv.geometry.maxFilecount_le
  refine ⟨h.geometry hv.geometry, h.read hv.patRead, ?_, ?_⟩
  · intro i hi
    rw [h.maxFilecount] at hi
    rw [h.pat (by omega), h.present_iff (by omega)]
    exact hv.entries i hi
  · rw [h.pictureCount]
    exact hv.few

theorem distinct (hg : Geometry s) (hd : Distinct s) : Distinct s' := by
  have hcount := hg.maxFilecount_le
  intro i hi j hj
  rw [h.maxFilecount] at hi hj
  rw [h.pat (by omega), h.pat (by omega), h.present_iff (by omega)]
  exact hd i hi j hj

end SamePat

theorem Kept.samePat {here : Nat → Prop} {s s' : Camera} (h : Kept here s s')
    (hread : s.IsRead patPage) : SamePat s s' where
  width := (congrArg Camera.width h.frame :)
  height := (congrArg Camera.height h.frame :)
  memSize := (congrArg Camera.memSize h.frame :)
  memDump := (congrArg Camera.memDump h.frame :)
  pictureCount := (congrArg Camera.pictureCount h.frame :)
  bytes a ha := h.same a (by rwa [ha])
  read := h.read patPage

/-! ### Changing the PAT -/

namespace Camera

variable (s : Camera)

theorem pat_setPat (i : Nat) (x : UInt8) (j : Nat) :
    (s.setPat i x).pat j = if j = i then x else s.pat j := by
  show within (patOffset + i) 1 (fun _ => x) s.mem (patOffset + j) = _
  by_cases hij : j = i
  · rw [if_pos hij, hij]
    exact within_inside ⟨Nat.le_refl _, by omega⟩
  · rw [if_neg hij]
    rw [within_outside (by omega)]
    rfl

theorem pat_mapPat (n : Nat) (f : Nat → UInt8 → UInt8) (j : Nat) :
    (s.mapPat n f).pat j = if j < n then f j (s.pat j) else s.pat j := by
  show within patOffset n (fun a => f (a - patOffset) (s.mem a)) s.mem (patOffset + j) = _
  by_cases hj : j < n
  · rw [if_pos hj, within_inside (by omega), Nat.add_sub_cancel_left]
    rfl
  · rw [if_neg hj, within_outside (by omega)]
    rfl

theorem isDirty_patDirty (p : Nat) : s.patDirty.IsDirty p ↔ p = patPage ∨ s.IsDirty p := by
  unfold IsDirty patDirty
  by_cases hp : p = patPage
  · rw [hp, setPage_same]
    exact ⟨fun _ => Or.inl rfl, fun _ => rfl⟩
  · rw [setPage_other _ _ hp]
    exact ⟨Or.inr, fun h => h.resolve_left hp⟩

theorem isRead_patDirty (p : Nat) : s.patDirty.IsRead p ↔ s.IsRead p := by
  unfold IsRead patDirty
  by_cases hp : p = patPage
  · rw [hp, setPage_same]
  · rw [setPage_other _ _ hp]

end Camera

section

variable {s : Camera} {i : Nat} {x : UInt8}

theorem pat_setPat_patDirty (s : Camera) (i : Nat) (x : UInt8) (j : Nat) :
    (s.setPat i x).patDirty.pat j = if j = i then x else s.pat j := s.pat_setPat i x j

/-- With a special value in one slot, the pictures in the others are as they were. -/
theorem present_setSpecial (h : PatValid s) (hx : Special x) {j : Nat}
    (hj : (s.setPat i x).patDirty.Present j) : j ≠ i ∧ s.Present j := by
  unfold Camera.Present at hj
  rw [pat_setPat_patDirty] at hj
  by_cases hij : j = i
  · rw [if_pos hij] at hj
    have hvalue := special_toNat hx
    have hfew : s.pictureCount ≤ 253 := h.few
    have hcount : (s.setPat i x).patDirty.pictureCount = s.pictureCount := rfl
    omega
  · rw [if_neg hij] at hj
    exact ⟨hij, hj⟩

/-- The entry of a slot is changed to a special value: the picture in it, if any, is gone. -/
theorem PatValid.setSpecial (h : PatValid s) (i : Nat) (hx : Special x) :
    PatValid (s.setPat i x).patDirty := by
  refine ⟨⟨h.geometry.width, h.geometry.height, h.geometry.memSize⟩,
    (Camera.isRead_patDirty _ _).mpr h.patRead, ?_, h.few⟩
  intro j hj
  rw [pat_setPat_patDirty]
  by_cases hij : j = i
  · rw [if_pos hij]
    exact Or.inl hx
  · rw [if_neg hij, Camera.Present, pat_setPat_patDirty, if_neg hij]
    exact h.entries j hj

theorem Distinct.setSpecial (hd : Distinct s) (h : PatValid s) (i : Nat) (hx : Special x) :
    Distinct (s.setPat i x).patDirty := by
  intro j hj k hk hpj heq
  obtain ⟨hji, hpj⟩ := present_setSpecial h hx hpj
  rw [pat_setPat_patDirty, pat_setPat_patDirty, if_neg hji] at heq
  by_cases hki : k = i
  · rw [if_pos hki] at heq
    exact absurd (heq ▸ hx) (h.not_special hpj)
  · rw [if_neg hki] at heq
    exact hd j hj k hk hpj heq

theorem pat_addPicture (s : Camera) (i j : Nat) :
    (s.addPicture i).pat j =
      if j = i then UInt8.ofNat (s.pictureCount + 1) else s.pat j :=
  { s with pictureCount := s.pictureCount + 1 }.pat_setPat i _ j

theorem toNat_next (hfew : s.pictureCount < 253) :
    (UInt8.ofNat (s.pictureCount + 1)).toNat = s.pictureCount + 1 := by
  rw [UInt8.toNat_ofNat']
  omega

/-- With a new picture in one slot, those in the others are as they were. -/
theorem present_addPicture (h : PatValid s) (hfew : s.pictureCount < 253) {j : Nat}
    (hj : j < s.maxFilecount) : (s.addPicture i).Present j ↔ j = i ∨ s.Present j := by
  have hnew := toNat_next hfew
  have hcount : (s.addPicture i).pictureCount = s.pictureCount + 1 := rfl
  rw [Camera.Present, pat_addPicture, hcount]
  by_cases hij : j = i
  · rw [if_pos hij]
    exact ⟨fun _ => Or.inl hij, fun _ => by omega⟩
  · rw [if_neg hij]
    constructor
    · intro hp
      rcases h.entries j hj with hspecial | hpresent
      · have hvalue := special_toNat hspecial
        omega
      · exact Or.inr hpresent
    · intro hp
      have hrange := hp.resolve_left hij
      exact ⟨hrange.1, Nat.le_succ_of_le hrange.2⟩

theorem PatValid.addPicture (h : PatValid s) (i : Nat) (hfew : s.pictureCount < 253) :
    PatValid (s.addPicture i) := by
  have hcount : (s.addPicture i).pictureCount = s.pictureCount + 1 := rfl
  have hmax : (s.addPicture i).maxFilecount = s.maxFilecount := rfl
  refine ⟨⟨h.geometry.width, h.geometry.height, h.geometry.memSize⟩,
    (Camera.isRead_patDirty _ _).mpr h.patRead, ?_, ?_⟩
  · intro j hj
    rw [hmax] at hj
    rw [present_addPicture h hfew hj, pat_addPicture]
    by_cases hij : j = i
    · exact Or.inr (Or.inl hij)
    · rw [if_neg hij]
      exact (h.entries j hj).imp_right Or.inr
  · rw [hcount]
    omega

theorem Distinct.addPicture (hd : Distinct s) (h : PatValid s) (i : Nat)
    (hfew : s.pictureCount < 253) : Distinct (s.addPicture i) := by
  have hnew := toNat_next hfew
  intro j hj k hk hpj heq
  have hmax : (s.addPicture i).maxFilecount = s.maxFilecount := rfl
  rw [hmax] at hj hk
  rw [pat_addPicture, pat_addPicture] at heq
  have hpk : (s.addPicture i).Present k := by
    rw [Camera.Present, pat_addPicture, ← heq, ← pat_addPicture]
    exact hpj
  rw [present_addPicture h hfew hj] at hpj
  rw [present_addPicture h hfew hk] at hpk
  -- the new number is above all that there are
  by_cases hji : j = i <;> by_cases hki : k = i
  · rw [hji, hki]
  · rw [if_pos hji, if_neg hki] at heq
    have hle := (hpk.resolve_left hki).2
    rw [← heq] at hle
    omega
  · rw [if_neg hji, if_pos hki] at heq
    have hle := (hpj.resolve_left hji).2
    rw [heq] at hle
    omega
  · rw [if_neg hji, if_neg hki] at heq
    exact hd j hj k hk (hpj.resolve_left hji) heq

theorem pat_clearPat {j : Nat} (hj : j < s.maxFilecount) : s.clearPat.pat j = entryPreErased :=
  (s.pat_mapPat s.maxFilecount (fun _ _ => entryPreErased) j).trans (if_pos hj)

theorem not_present_clearPat (s : Camera) (j : Nat) : ¬ s.clearPat.Present j := by
  rintro ⟨hlow, hhigh⟩
  have hcount : s.clearPat.pictureCount = 0 := rfl
  omega

theorem PatValid.clearPat (h : PatValid s) : PatValid s.clearPat := by
  refine ⟨⟨h.geometry.width, h.geometry.height, h.geometry.memSize⟩,
    (Camera.isRead_patDirty _ _).mpr h.patRead, ?_, Nat.zero_le _⟩
  intro j hj
  rw [@pat_clearPat s j hj]
  exact Or.inl (Or.inr rfl)

theorem Distinct.clearPat (s : Camera) : Distinct s.clearPat :=
  fun j _ _ _ hp => absurd hp (not_present_clearPat s j)

end

/-! ### Slots -/

/-- The pages of the slot of a picture. -/
def InSlot (s : Camera) (i p : Nat) : Prop :=
  pictureOffset i s.filesize / pageSize ≤ p ∧ p < pictureOffset (i + 1) s.filesize / pageSize

variable (s : Camera)

theorem slotErased_iff (i : Nat) :
    s.slotErased i = true ↔ ∀ p, InSlot s i p → ¬ s.NeedsErase p := by
  unfold Camera.slotErased InSlot Camera.NeedsErase
  simp only [List.all_eq_true, List.mem_range, Bool.not_eq_true']
  constructor
  · intro h p hp
    have hpage := h (p - pictureOffset i s.filesize / pageSize) (by omega)
    rw [Nat.add_sub_cancel' hp.1] at hpage
    rw [hpage]
    exact Bool.false_ne_true
  · intro h k hk
    have hpage := h (pictureOffset i s.filesize / pageSize + k) ⟨by omega, by omega⟩
    rwa [Bool.not_eq_true] at hpage

/-! ### Editing the PAT -/

/-- The bytes of the entries of the PAT. -/
def InPat (s : Camera) (a : Nat) : Prop := patOffset ≤ a ∧ a < patOffset + s.maxFilecount

/-- Some entries of the PAT were changed, in what the driver was told to keep as in its copy, and
the PAT is to be written. -/
structure PatEdited (s s' : Camera) : Prop where
  frame : { s' with
    mem := s.mem, logical := s.logical, pageState := s.pageState,
    pictureCount := s.pictureCount } = s
  flags : ∀ p, s'.pageState p = s.pageState p ∨
    p = patPage ∧ s'.pageState p = { s.pageState p with dirty := true }
  bytes : ∀ a, s'.mem a = s.mem a ∧ s'.logical a = s.logical a ∨
    InPat s a ∧ s'.IsDirty patPage ∧ (s.mem a = s.logical a → s'.mem a = s'.logical a)

namespace PatEdited

variable {s s' s'' : Camera}

theorem refl (s : Camera) : PatEdited s s := ⟨rfl, fun _ => Or.inl rfl, fun _ => Or.inl ⟨rfl, rfl⟩⟩

section
variable (h : PatEdited s s')
include h

/-- The flags stay, but for the one that says that the PAT is to be written. -/
theorem pageState (p : Nat) :
    s'.pageState p = { s.pageState p with dirty := (s'.pageState p).dirty } := by
  rcases h.flags p with hsame | ⟨-, hdirty⟩
  · rw [hsame]
  · rw [hdirty]

theorem isDirty {p : Nat} (hp : s.IsDirty p) : s'.IsDirty p := by
  rcases h.flags p with hsame | ⟨-, hdirty⟩
  · rwa [Camera.IsDirty, hsame]
  · rw [Camera.IsDirty, hdirty]

theorem needsErase (p : Nat) : s'.NeedsErase p ↔ s.NeedsErase p := by
  rw [Camera.NeedsErase, h.pageState p, Camera.NeedsErase]

theorem filesize : s'.filesize = s.filesize := by
  have hwidth : s'.width = s.width := (congrArg Camera.width h.frame :)
  have hheight : s'.height = s.height := (congrArg Camera.height h.frame :)
  rw [Camera.filesize, hwidth, hheight, Camera.filesize]

theorem maxFilecount : s'.maxFilecount = s.maxFilecount := by
  have hmemSize : s'.memSize = s.memSize := (congrArg Camera.memSize h.frame :)
  rw [Camera.maxFilecount, h.filesize, hmemSize, Camera.maxFilecount]

theorem slotErased (i : Nat) : s'.slotErased i = s.slotErased i := by
  rw [Bool.eq_iff_iff, slotErased_iff, slotErased_iff]
  apply forall_congr'
  intro p
  rw [InSlot, h.filesize, h.needsErase, InSlot]

theorem inPat (a : Nat) : InPat s' a ↔ InPat s a := by
  rw [InPat, h.maxFilecount, InPat]

theorem trans (h' : PatEdited s' s'') : PatEdited s s'' where
  frame := by
    have h1 := h.frame
    have h2 := h'.frame
    rw [← h1, ← h2]
  flags p := by
    rcases h'.flags p with hsame' | ⟨hp, hdirty'⟩
    · rw [hsame']
      exact h.flags p
    · rw [hdirty', h.pageState p]
      exact Or.inr ⟨hp, rfl⟩
  bytes a := by
    rcases h.bytes a with ⟨hmem, hlogical⟩ | ⟨hp, hdirty, hboth⟩
    · rw [← hmem, ← hlogical]
      refine (h'.bytes a).imp_right ?_
      rintro ⟨hp', hdirty', hboth'⟩
      exact ⟨(h.inPat a).mp hp', hdirty', hboth'⟩
    · right
      rcases h'.bytes a with ⟨hmem', hlogical'⟩ | ⟨_, hdirty', hboth'⟩
      · rw [hmem', hlogical']
        exact ⟨hp, h'.isDirty hdirty, hboth⟩
      · exact ⟨hp, hdirty', fun heq => hboth' (hboth heq)⟩

end

theorem trans_count {n : Nat} (h : PatEdited { s with pictureCount := n } s') : PatEdited s s' :=
  ⟨(congrArg (fun t : Camera => { t with pictureCount := s.pictureCount }) h.frame :), h.flags,
    h.bytes⟩

end PatEdited

theorem InPat.page {s : Camera} (hmax : s.maxFilecount ≤ 256) {a : Nat} (h : InPat s a) :
    a / pageSize = patPage := by
  unfold InPat at h
  unfold patPage patOffset pageSize at *
  omega

/-- Any entries are changed. -/
theorem PatEdited.within {s : Camera} {offset n : Nat} {bytes bytes' : Nat → UInt8}
    (hin : ∀ a, offset ≤ a ∧ a < offset + n → InPat s a)
    (hboth : ∀ a, s.mem a = s.logical a → bytes a = bytes' a) :
    PatEdited s { s with
      mem := within offset n bytes s.mem
      logical := within offset n bytes' s.logical }.patDirty where
  frame := rfl
  flags p := by
    by_cases hp : p = patPage
    · rw [hp]
      exact Or.inr ⟨rfl, Camera.setPage_same _ _ _⟩
    · exact Or.inl (Camera.setPage_other _ _ hp)
  bytes a := by
    show Tp6801.within offset n bytes s.mem a = _ ∧ Tp6801.within offset n bytes' s.logical a = _ ∨
      _ ∧ _ ∧ (_ → Tp6801.within offset n bytes s.mem a = Tp6801.within offset n bytes' s.logical a)
    by_cases ha : offset ≤ a ∧ a < offset + n
    · rw [within_inside ha, within_inside ha]
      refine Or.inr ⟨hin a ha, ?_, hboth a⟩
      exact congrArg PageState.dirty (Camera.setPage_same _ _ _)
    · rw [within_outside ha, within_outside ha]
      exact Or.inl ⟨rfl, rfl⟩

theorem PatEdited.setPat {s : Camera} {i : Nat} (hi : i < s.maxFilecount) (x : UInt8) :
    PatEdited s (s.setPat i x).patDirty :=
  PatEdited.within (fun _ ha => ⟨by omega, by omega⟩) fun _ _ => rfl

theorem PatEdited.addPicture {s : Camera} {i : Nat} (hi : i < s.maxFilecount) :
    PatEdited s (s.addPicture i) :=
  @PatEdited.trans_count s _ (s.pictureCount + 1)
    (@PatEdited.setPat { s with pictureCount := s.pictureCount + 1 } i hi _)

theorem PatEdited.mapPat (f : Nat → UInt8 → UInt8) (count : Nat) :
    PatEdited s { s.mapPat s.maxFilecount f with pictureCount := count }.patDirty :=
  @PatEdited.trans_count s _ count (PatEdited.within (fun _ ha => ha) fun _ _ => rfl)

theorem PatEdited.clearPat : PatEdited s s.clearPat := PatEdited.mapPat s _ _

theorem PatEdited.closeGap (n : Nat) : PatEdited s (s.closeGap n) :=
  PatEdited.mapPat s _ _

/-! ## The renumbering of the pictures of a tp6801 frame

`tp6801_commit` is to close the gaps that deleted pictures have left in the numbers. It keeps the
pictures and their order (`renumber_edited`), and closes the gaps when no two numbers in a row are
missing (`renumber_ends`). A gap of two numbers it does not close (`renumber_doubleGap`).
-/

open Lib.Comp (Ends)

/-! ### Closing gaps -/

/-- The same slots have pictures, and their numbers are in the same order. -/
structure SamePictures (s s' : Camera) : Prop where
  maxFilecount : s'.maxFilecount = s.maxFilecount
  filesize : s'.filesize = s.filesize
  present : ∀ i < s.maxFilecount, s'.Present i ↔ s.Present i
  order : ∀ i < s.maxFilecount, ∀ j < s.maxFilecount, s.Present i → s.Present j →
    ((s'.pat i).toNat < (s'.pat j).toNat ↔ (s.pat i).toNat < (s.pat j).toNat)

namespace SamePictures

variable {s s' s'' : Camera}

theorem refl (s : Camera) : SamePictures s s :=
  ⟨rfl, rfl, fun _ _ => Iff.rfl, fun _ _ _ _ _ _ => Iff.rfl⟩

theorem trans (h : SamePictures s s') (h' : SamePictures s' s'') : SamePictures s s'' where
  maxFilecount := h'.maxFilecount.trans h.maxFilecount
  filesize := h'.filesize.trans h.filesize
  present i hi := (h'.present i (by rwa [h.maxFilecount])).trans (h.present i hi)
  order i hi j hj hpi hpj := by
    have hi' : i < s'.maxFilecount := by rwa [h.maxFilecount]
    have hj' : j < s'.maxFilecount := by rwa [h.maxFilecount]
    exact (h'.order i hi' j hj' ((h.present i hi).mpr hpi) ((h.present j hj).mpr hpj)).trans
      (h.order i hi j hj hpi hpj)

end SamePictures

theorem SamePat.samePictures {s s' : Camera} (h : SamePat s s') (hg : Geometry s) :
    SamePictures s s' := by
  have hcount := hg.maxFilecount_le
  refine ⟨h.maxFilecount, h.filesize, fun i hi => h.present_iff (by omega), ?_⟩
  intro i hi j hj _ _
  rw [h.pat (by omega), h.pat (by omega)]

section

variable {s : Camera} {n : Nat}

theorem closeGap_pat {i : Nat} (hi : i < s.maxFilecount) :
    ((s.closeGap n).pat i).toNat =
      if s.Present i ∧ n < (s.pat i).toNat then (s.pat i).toNat - 1 else (s.pat i).toNat := by
  have hpat : (s.closeGap n).pat i =
      if 1 ≤ (s.pat i).toNat ∧ (s.pat i).toNat ≤ s.pictureCount ∧ (s.pat i).toNat > n then
        s.pat i - 1
      else
        s.pat i :=
    (s.pat_mapPat s.maxFilecount (fun _ x =>
      if 1 ≤ x.toNat ∧ x.toNat ≤ s.pictureCount ∧ x.toNat > n then x - 1 else x) i).trans
      (if_pos hi)
  rw [hpat]
  by_cases habove : s.Present i ∧ n < (s.pat i).toNat
  · rw [if_pos habove, if_pos ⟨habove.1.1, habove.1.2, habove.2⟩]
    have hone : (1 : UInt8) ≤ s.pat i := by
      rw [UInt8.le_iff_toNat_le]
      exact habove.1.1
    rw [UInt8.toNat_sub_of_le _ _ hone]
    rfl
  · rw [if_neg habove, if_neg fun h => habove ⟨⟨h.1, h.2.1⟩, h.2.2⟩]

theorem ne_of_missing (hmissing : ¬ s.numberExists n = true) {i : Nat} (hi : i < s.maxFilecount) :
    (s.pat i).toNat ≠ n := by
  intro heq
  exact hmissing ((s.numberExists_iff n).mpr ⟨i, hi, heq⟩)

theorem closeGap_pat_present {i : Nat} (hi : i < s.maxFilecount) (hp : s.Present i) :
    ((s.closeGap n).pat i).toNat =
      if n < (s.pat i).toNat then (s.pat i).toNat - 1 else (s.pat i).toNat := by
  rw [closeGap_pat hi]
  by_cases habove : n < (s.pat i).toNat
  · rw [if_pos ⟨hp, habove⟩, if_pos habove]
  · rw [if_neg fun h => habove h.2, if_neg habove]

theorem closeGap_present_iff (hn : 1 ≤ n) (hle : n ≤ s.pictureCount)
    (hmissing : ¬ s.numberExists n = true) {i : Nat} (hi : i < s.maxFilecount) :
    (s.closeGap n).Present i ↔ s.Present i := by
  have hcount : (s.closeGap n).pictureCount = s.pictureCount - 1 := rfl
  have hnot := ne_of_missing hmissing hi
  unfold Camera.Present
  rw [closeGap_pat hi, hcount]
  by_cases habove : s.Present i ∧ n < (s.pat i).toNat
  · rw [if_pos habove]
    have hrange := habove.1
    unfold Camera.Present at hrange
    omega
  · rw [if_neg habove]
    constructor
    · rintro ⟨hlow, hhigh⟩
      exact ⟨hlow, by omega⟩
    · intro hp
      have hbelow : ¬ n < (s.pat i).toNat := fun h => habove ⟨hp, h⟩
      exact ⟨hp.1, by omega⟩

theorem closeGap_special (hv : PatValid s) {i : Nat} (hi : i < s.maxFilecount)
    (hspecial : Special (s.pat i)) : (s.closeGap n).pat i = s.pat i := by
  have hnot : ¬ s.Present i := fun hp => hv.not_special hp hspecial
  apply UInt8.toNat_inj.mp
  rw [closeGap_pat hi, if_neg fun h => hnot h.1]

theorem PatValid.closeGap (hv : PatValid s) (hn : 1 ≤ n) (hle : n ≤ s.pictureCount)
    (hmissing : ¬ s.numberExists n = true) : PatValid (s.closeGap n) := by
  have hmax : (s.closeGap n).maxFilecount = s.maxFilecount := rfl
  have hcount : (s.closeGap n).pictureCount = s.pictureCount - 1 := rfl
  have hfew := hv.few
  refine ⟨⟨hv.geometry.width, hv.geometry.height, hv.geometry.memSize⟩,
    (Camera.isRead_patDirty _ _).mpr hv.patRead, ?_, ?_⟩
  · intro i hi
    rw [hmax] at hi
    rcases hv.entries i hi with hspecial | hp
    · rw [closeGap_special hv hi hspecial]
      exact Or.inl hspecial
    · exact Or.inr ((closeGap_present_iff hn hle hmissing hi).mpr hp)
  · rw [hcount]
    omega

theorem closeGap_samePictures (hn : 1 ≤ n) (hle : n ≤ s.pictureCount)
    (hmissing : ¬ s.numberExists n = true) : SamePictures s (s.closeGap n) := by
  refine ⟨rfl, rfl, fun i hi => closeGap_present_iff hn hle hmissing hi, ?_⟩
  intro i hi j hj hpi hpj
  rw [closeGap_pat_present hi hpi, closeGap_pat_present hj hpj]
  have hni := ne_of_missing hmissing hi
  have hnj := ne_of_missing hmissing hj
  by_cases hai : n < (s.pat i).toNat <;> by_cases haj : n < (s.pat j).toNat
  · rw [if_pos hai, if_pos haj]
    omega
  · rw [if_pos hai, if_neg haj]
    omega
  · rw [if_neg hai, if_pos haj]
    omega
  · rw [if_neg hai, if_neg haj]

theorem Distinct.closeGap (hd : Distinct s) (hn : 1 ≤ n) (hle : n ≤ s.pictureCount)
    (hmissing : ¬ s.numberExists n = true) : Distinct (s.closeGap n) := by
  have hmax : (s.closeGap n).maxFilecount = s.maxFilecount := rfl
  intro i hi j hj hp heq
  rw [hmax] at hi hj
  have hpi := (closeGap_present_iff hn hle hmissing hi).mp hp
  have hpj : s.Present j := by
    rw [← closeGap_present_iff hn hle hmissing hj, Camera.Present, ← heq]
    exact hp
  have horder := (closeGap_samePictures hn hle hmissing).order
  have hij := horder i hi j hj hpi hpj
  have hji := horder j hj i hi hpj hpi
  rw [heq] at hij hji
  apply hd i hi j hj hpi
  apply UInt8.toNat_inj.mp
  omega

theorem closeGap_exists_iff (hmissing : ¬ s.numberExists n = true) {m : Nat} (hm : 1 ≤ m)
    (hlt : m < s.pictureCount) :
    (s.closeGap n).numberExists m = true ↔
      s.numberExists (if m < n then m else m + 1) = true := by
  rw [Camera.numberExists_iff, Camera.numberExists_iff]
  have hmax : (s.closeGap n).maxFilecount = s.maxFilecount := rfl
  rw [hmax]
  apply exists_congr
  intro i
  apply and_congr_right
  intro hi
  have hne := ne_of_missing hmissing hi
  rw [closeGap_pat hi]
  by_cases habove : s.Present i ∧ n < (s.pat i).toNat
  · rw [if_pos habove]
    by_cases hmn : m < n
    · rw [if_pos hmn]
      omega
    · rw [if_neg hmn]
      omega
  · rw [if_neg habove]
    unfold Camera.Present at habove
    by_cases hmn : m < n
    · rw [if_pos hmn]
    · rw [if_neg hmn]
      omega

end

/-- No two numbers in a row are missing, from `i` on. -/
def NoDoubleGap (s : Camera) (i : Nat) : Prop :=
  ∀ n, i ≤ n → n + 1 ≤ s.pictureCount →
    s.numberExists n = true ∨ s.numberExists (n + 1) = true

/-- All numbers below `i` are there. -/
def NumbersBelow (s : Camera) (i : Nat) : Prop :=
  ∀ n, 1 ≤ n → n < i → n ≤ s.pictureCount → s.numberExists n = true

/-- The renumbering only edits the PAT, and the pictures are as before. -/
theorem renumber_edited {rounds i : Nat} {s : Camera} (hi : 1 ≤ i) (hv : PatValid s) :
    Ends
      (fun _ s' => PatEdited s s' ∧ PatValid s' ∧ SamePictures s s' ∧ (Distinct s → Distinct s') ∧
        ∀ j < s.maxFilecount, Special (s.pat j) → s'.pat j = s.pat j)
      (fun _ _ => False) (renumber rounds i s) := by
  induction rounds generalizing i s with
  | zero =>
    exact Ends.pure
      ⟨PatEdited.refl s, hv, SamePictures.refl s, fun hd => hd, fun _ _ _ => rfl⟩
  | succ rounds ih =>
    rw [renumber]
    refine Ends.get_bind (Ends.ite ?_ ?_)
    · intro hle
      by_cases hexists : s.numberExists i = true
      · rw [if_pos hexists]
        exact ih (by omega) hv
      · rw [if_neg hexists]
        refine Ends.modify_bind
          ((ih (by omega) (hv.closeGap hi hle hexists)).mono ?_ fun _ _ hfalse => hfalse)
        rintro _ s' ⟨hedited, hv', hsame, hd, hspecial⟩
        refine ⟨(PatEdited.closeGap s i).trans hedited, hv',
          (closeGap_samePictures hi hle hexists).trans hsame,
          fun h => hd (h.closeGap hi hle hexists), ?_⟩
        intro j hj h
        have hclosed := @closeGap_special s i hv j hj h
        rw [hspecial j hj (by rwa [hclosed]), hclosed]
    · intro _
      exact Ends.pure
        ⟨PatEdited.refl s, hv, SamePictures.refl s, fun hd => hd, fun _ _ _ => rfl⟩

theorem renumber_ends {rounds i : Nat} {s : Camera} (hi : 1 ≤ i)
    (hbelow : NumbersBelow s i) (hgap : NoDoubleGap s i)
    (hrounds : s.pictureCount + 1 ≤ i + rounds) :
    Ends (fun _ s' => NumbersBelow s' (s'.pictureCount + 1)) (fun _ _ => False)
      (renumber rounds i s) := by
  induction rounds generalizing i s with
  | zero =>
    intro n hlow _ hle
    exact hbelow n hlow (by omega) hle
  | succ rounds ih =>
    rw [renumber]
    refine Ends.get_bind (Ends.ite ?_ ?_)
    swap
    · intro hbehind
      refine Ends.pure ?_
      intro n hlow _ hle
      exact hbelow n hlow (by omega) hle
    intro hle
    by_cases hexists : s.numberExists i = true
    · rw [if_pos hexists]
      refine ih (by omega) ?_ (fun n hn => hgap n (by omega)) (by omega)
      intro n hlow hlt hcount
      by_cases hlast : n = i
      · rw [hlast]
        exact hexists
      · exact hbelow n hlow (by omega) hcount
    · rw [if_neg hexists]
      have hcount : (s.closeGap i).pictureCount = s.pictureCount - 1 := rfl
      refine Ends.modify_bind (ih (by omega) ?_ ?_ ?_)
      · intro n hlow hlt hcount'
        rw [closeGap_exists_iff hexists hlow (by omega)]
        by_cases hlast : n = i
        · -- the number behind the gap moves here
          rw [if_neg (by omega), hlast]
          exact (hgap i (Nat.le_refl i) (by omega)).resolve_left hexists
        · rw [if_pos (by omega)]
          exact hbelow n hlow (by omega) (by omega)
      · intro n hn hcount'
        rw [closeGap_exists_iff hexists (by omega) (by omega),
          closeGap_exists_iff hexists (by omega) (by omega), if_neg (by omega),
          if_neg (by omega)]
        exact hgap (n + 1) (by omega) (by omega)
      · omega

theorem renumber_noGap {rounds i : Nat} {s : Camera}
    (hall : ∀ n, i ≤ n → n ≤ s.pictureCount → s.numberExists n = true) :
    renumber rounds i s = some (.ok (), s) := by
  induction rounds generalizing i with
  | zero => rfl
  | succ rounds ih =>
    rw [renumber]
    show (if i ≤ s.pictureCount then _ else _ : Comp Camera Int Unit) s = _
    by_cases hle : i ≤ s.pictureCount
    · rw [if_pos hle, if_pos (hall i (Nat.le_refl i) hle)]
      exact ih fun n hn => hall n (by omega)
    · rw [if_neg hle]
      rfl

/-- The renumbering does not close a gap of two numbers: it goes on behind the first. -/
theorem renumber_doubleGap {rounds i : Nat} {s : Camera} (hi : 1 ≤ i)
    (hgap : (∃ n, i ≤ n ∧ n < s.pictureCount ∧ ¬ s.numberExists n = true ∧
        ¬ s.numberExists (n + 1) = true) ∨
      ∃ n, 1 ≤ n ∧ n < i ∧ n ≤ s.pictureCount ∧ ¬ s.numberExists n = true)
    (hrounds : s.pictureCount + 1 ≤ i + rounds) :
    Ends (fun _ s' => ∃ n, 1 ≤ n ∧ n ≤ s'.pictureCount ∧ ¬ s'.numberExists n = true)
      (fun _ _ => False) (renumber rounds i s) := by
  induction rounds generalizing i s with
  | zero =>
    obtain ⟨n, hin, hlt, -, -⟩ | ⟨n, hlow, -, hle, hmissing⟩ := hgap
    · omega
    · exact ⟨n, hlow, hle, hmissing⟩
  | succ rounds ih =>
    rw [renumber]
    refine Ends.get_bind (Ends.ite ?_ ?_)
    swap
    · intro hbehind
      obtain ⟨n, hin, hlt, -, -⟩ | ⟨n, hlow, -, hle, hmissing⟩ := hgap
      · omega
      · exact Ends.pure ⟨n, hlow, hle, hmissing⟩
    intro hle
    by_cases hexists : s.numberExists i = true
    · rw [if_pos hexists]
      refine ih (by omega) ?_ (by omega)
      obtain ⟨n, hin, hlt, hmissing, hnext⟩ | ⟨n, hlow, hlt, hcount, hmissing⟩ := hgap
      · have hne : n ≠ i := fun h => hmissing (h ▸ hexists)
        exact Or.inl ⟨n, by omega, hlt, hmissing, hnext⟩
      · exact Or.inr ⟨n, hlow, by omega, hcount, hmissing⟩
    · rw [if_neg hexists]
      have hcount : (s.closeGap i).pictureCount = s.pictureCount - 1 := rfl
      refine Ends.modify_bind (ih (by omega) ?_ (by omega))
      obtain ⟨n, hin, hlt, hmissing, hnext⟩ | ⟨n, hlow, hlt, hle', hmissing⟩ := hgap
      · have hstays : ¬ (s.closeGap i).numberExists n = true := by
          rw [closeGap_exists_iff hexists (by omega) hlt, if_neg (by omega)]
          exact hnext
        by_cases hnear : n ≤ i + 1
        · by_cases hfirst : n = i
          · exact Or.inr ⟨n, by omega, by omega, by omega, hstays⟩
          · refine Or.inr ⟨i, hi, by omega, by omega, ?_⟩
            rw [closeGap_exists_iff hexists hi (by omega), if_neg (by omega)]
            have hni : n = i + 1 := by omega
            rwa [← hni]
        · refine Or.inl ⟨n - 1, by omega, by omega, ?_, ?_⟩
          · rw [closeGap_exists_iff hexists (by omega) (by omega), if_neg (by omega),
              Nat.sub_add_cancel (by omega)]
            exact hmissing
          · rw [Nat.sub_add_cancel (by omega)]
            exact hstays
      · refine Or.inr ⟨n, hlow, by omega, by omega, ?_⟩
        rw [closeGap_exists_iff hexists hlow (by omega), if_pos (by omega)]
        exact hmissing

end GPhoto2.Tp6801
