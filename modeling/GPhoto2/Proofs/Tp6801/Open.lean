import GPhoto2.Proofs.Tp6801.Commit

/-!
# `GPhoto2.Proofs.Tp6801.Open`: what is known of a tp6801 frame that was opened

`openDevice_ends` says what `tp6801_open_device` has found out when it succeeds (`Opened`): the
geometry, the entries of the PAT, and the flags of the pages that follow from them. It cannot fail
with a frame of the smallest size that has everything it looks for (`Plain`), unless a command
fails.
-/

set_option autoImplicit false

namespace GPhoto2.Tp6801

open Lib
open Camera (FailsRead HasData IsRead NeedsErase setPages_inside setPages_outside)
open Lib.Comp (Ends)
open Lib.Comp.Ends (get_bind modify_bind)

/-- A frame before it is opened. -/
structure Fresh (s : Camera) : Prop where
  pageState : ∀ p, s.pageState p = {}
  pictureCount : s.pictureCount = 0
  logical : s.logical = s.store
  unerased : s.unerased = []

/-- The driver has looked at some pages of the frame. -/
structure Looked (start s : Camera) : Prop where
  frame : { s with
    mem := start.mem, pageState := start.pageState, memSize := start.memSize,
    width := start.width, height := start.height } = start
  flags : ∀ p, s.pageState p = { read := (s.pageState p).read }
  same : ∀ a, s.IsRead (a / pageSize) → s.mem a = start.store a

namespace Looked

variable {start s s' : Camera}

theorem refl (h : Fresh start) : Looked start start where
  frame := rfl
  flags p := by rw [h.pageState]
  same a ha := by
    rw [IsRead, h.pageState] at ha
    cases ha

variable (h : Looked start s)
include h

theorem store : s.store = start.store := (congrArg Camera.store h.frame :)

theorem faults : s.faults = start.faults :=
  (congrArg Camera.faults h.frame :)

/-- What the driver believes about the sizes has nothing to do with the pages. -/
theorem resize (memSize width height : Nat) :
    Looked start { s with memSize := memSize, width := width, height := height } :=
  ⟨h.frame, h.flags, h.same⟩

theorem fetched (hf : Fetched s s') : Looked start s' where
  frame := by
    have h1 := h.frame
    have h2 := hf.frame
    rw [← h2] at h1
    exact h1
  flags p := by
    rw [hf.flags p, h.flags p]
  same a ha := by
    by_cases hread : s.IsRead (a / pageSize)
    · rw [hf.same a hread, h.same a hread]
    · rw [hf.fetched a hread ha, h.store]

theorem readMem_ends {offset len : Nat} (hroom : offset + len ≤ s.memSize) :
    Ends
      (fun _ s' => Looked start s' ∧ s'.memSize = s.memSize ∧ s'.width = s.width ∧
        s'.height = s.height ∧ (∀ p, s.IsRead p → s'.IsRead p) ∧
        ∀ a, offset ≤ a → a < offset + len → s'.IsRead (a / pageSize) ∧ s'.mem a = start.store a)
      (fun _ _ => start.FailsRead) (readMem offset len s) := by
  refine (Tp6801.readMem_ends s offset len).mono ?_ ?_
  · rintro _ s' ⟨hf, hread⟩
    have hlooked := h.fetched hf
    refine ⟨hlooked, hf.memSize, (congrArg Camera.width hf.frame :),
      (congrArg Camera.height hf.frame :), hf.read, ?_⟩
    intro a hlow hhigh
    have hpage : s'.IsRead (a / pageSize) := by
      apply hread
      · exact Nat.div_le_div_right hlow
      · unfold pagesOf pageSize
        omega
    exact ⟨hpage, hlooked.same a hpage⟩
  · rintro _ s' ⟨_, hwhy⟩
    have hfails := hwhy.resolve_right (by omega)
    rwa [FailsRead, h.faults] at hfails

end Looked

/-! ### What the driver looks for -/

/-- The memory in place of the copy. -/
def Camera.device (s : Camera) : Camera := { s with mem := s.store }

/-- The memory of a frame of 1 MiB with everything the driver looks for. -/
structure Plain (s : Camera) : Prop where
  repeated : ∀ k < patSize, s.store (patOffset + k) = s.store (1048576 <<< 0 + patOffset + k)
  marker : s.device.memEq (655360 + 256) [1, 0x43, 0x44, 0x30, 0x30, 0x31] = true
  ids : s.device.memEq 655360 [0x30, 0x11, 0x01, 0x68] = true
  model : s.device.modelAt (655360 + 32) ∈ models
  magic : s.device.memEq patMagicOffset (patMagic.map Char.toNat) = true
  entries : ∀ i < 14, Special (s.device.pat i) ∨
    1 ≤ (s.device.pat i).toNat ∧ (s.device.pat i).toNat ≤ 14

variable {s : Camera}

theorem memEq_congr {t : Camera} {offset : Nat} {bytes : List Nat}
    (h : ∀ a, offset ≤ a → a < offset + bytes.length → s.mem a = t.mem a) :
    s.memEq offset bytes = t.memEq offset bytes := by
  unfold Camera.memEq
  congr 2
  apply List.map_congr_left
  intro i hi
  rw [h _ (Nat.le_add_right _ _) (Nat.add_lt_add_left (List.mem_range.mp hi) _)]

theorem modelAt_congr {t : Camera} {offset : Nat}
    (h : ∀ a, offset ≤ a → a < offset + 32 → s.mem a = t.mem a) :
    s.modelAt offset = t.modelAt offset := by
  unfold Camera.modelAt
  congr 2
  apply List.map_congr_left
  intro i hi
  rw [h _ (Nat.le_add_right _ _) (Nat.add_lt_add_left (List.mem_range.mp hi) _)]

variable {start : Camera}

/-- `tp6801_detect_mem` finds one of three sizes. -/
theorem detectMem_ends (h : Fresh start) :
    Ends
      (fun _ s' => Looked start s' ∧
        (s'.memSize = 1048576 ∨ s'.memSize = 2097152 ∨ s'.memSize = 4194304) ∧
        (Plain start → s'.memSize = 1048576))
      (fun _ _ => start.FailsRead) (detectMem start) := by
  refine modify_bind ?_
  have hlooked := (Looked.refl h).resize 4194304 start.width start.height
  have hfirst : patOffset + patSize ≤ 4194304 := by decide
  refine Ends.bind (hlooked.readMem_ends hfirst) ?_
  rintro _ s1 ⟨h1, hsize1, _, _, _, hpat1⟩
  have hpatRead : ∀ {s2}, Looked start s2 → s2.IsRead patPage → ∀ k < patSize,
      s2.mem (patOffset + k) = start.store (patOffset + k) := by
    intro s2 h2 hread k hk
    apply h2.same
    have hpage : (patOffset + k) / pageSize = patPage := by
      unfold patSize at hk
      unfold patPage patOffset pageSize
      omega
    rwa [hpage]
  have hread1 : s1.IsRead patPage := (hpat1 patOffset (Nat.le_refl _) (by decide)).1
  -- the loop reads the place where the PAT would be found again
  have hloop : ∀ rounds i s2, Looked start s2 → s2.memSize = 4194304 → s2.IsRead patPage →
      i + rounds = 2 → Ends
        (fun n s' => Looked start s' ∧ n ≤ 2 ∧ (i = 0 → Plain start → n = 0))
        (fun _ _ => start.FailsRead) (detectMemLoop rounds i s2) := by
    intro rounds
    induction rounds with
    | zero =>
      intro i s2 h2 _ _ hi
      exact Ends.pure ⟨h2, by omega, fun h0 => absurd h0 (by omega)⟩
    | succ rounds ih =>
      intro i s2 h2 hsize2 hread2 hi
      have hroom : 1048576 <<< i + patOffset + patSize ≤ s2.memSize := by
        have hcases : i = 0 ∨ i = 1 := by omega
        rw [hsize2]
        rcases hcases with rfl | rfl <;> decide
      refine Ends.bind ((readMem_ends s2 _ _).mono (fun _ _ hok => hok) ?_) ?_
      · rintro _ s3 ⟨_, hwhy⟩
        have hfails := hwhy.resolve_right (by omega)
        rwa [FailsRead, h2.faults] at hfails
      · rintro _ s3 ⟨hf, hpages⟩
        have h3 := h2.fetched hf
        have hread3 := hf.read _ hread2
        refine get_bind (Ends.ite ?_ ?_)
        · intro _
          exact Ends.pure ⟨h3, by omega, fun h0 _ => h0⟩
        · intro hnot
          refine (ih (i + 1) s3 h3 (hf.memSize.trans hsize2) hread3 (by omega)).mono ?_
            fun _ _ he => he
          rintro n s' ⟨h', hn, _⟩
          refine ⟨h', hn, ?_⟩
          intro h0 hplain
          exfalso
          apply hnot
          rw [List.all_eq_true]
          intro k hk
          rw [List.mem_range] at hk
          apply decide_eq_true
          rw [hpatRead h3 hread3 k hk, hplain.repeated k hk]
          symm
          have hpage : s3.IsRead ((1048576 <<< i + patOffset + k) / pageSize) := by
            apply hpages
            · exact Nat.div_le_div_right (Nat.le_add_right _ _)
            · unfold patSize at hk
              unfold pagesOf patSize pageSize
              omega
          rw [h3.same _ hpage, h0]
  refine Ends.bind (hloop 2 0 s1 h1 hsize1 hread1 rfl) ?_
  rintro n s2 ⟨h2, hn, hplain⟩
  refine Ends.modify ⟨h2.resize _ s2.width s2.height, ?_, ?_⟩
  · show 1048576 <<< n = _ ∨ 1048576 <<< n = _ ∨ 1048576 <<< n = _
    have hcases : n = 0 ∨ n = 1 ∨ n = 2 := by omega
    rcases hcases with rfl | rfl | rfl
    · exact Or.inl rfl
    · exact Or.inr (Or.inl rfl)
    · exact Or.inr (Or.inr rfl)
  · intro hp
    show 1048576 <<< n = _
    rw [hplain rfl hp]
    rfl

/-! ### The entries of the PAT -/

/-- The first `n` entries of the PAT were looked at. -/
structure Parsed (n : Nat) (s s' : Camera) : Prop where
  frame : { s' with pageState := s.pageState, pictureCount := s.pictureCount } = s
  entries : ∀ i < n, Special (s.pat i) ∨ s'.Present i
  count : s'.pictureCount ≤ s.maxFilecount
  attained : s'.pictureCount = 0 ∨ ∃ i < n, (s.pat i).toNat = s'.pictureCount
  flags : ∀ p, (s'.pageState p).read = (s.pageState p).read ∧
    (s'.pageState p).dirty = (s.pageState p).dirty
  data : ∀ p, s'.HasData p ↔ s.HasData p ∧ ¬ ∃ i < n, InSlot s i p ∧ Special (s.pat i)
  erase : ∀ p, s'.NeedsErase p ↔
    s.NeedsErase p ∧ ¬ ∃ i < n, InSlot s i p ∧ s.pat i = entryPreErased

theorem Parsed.refl (h : s.pictureCount = 0) : Parsed 0 s s where
  frame := rfl
  entries i hi := absurd hi (Nat.not_lt_zero i)
  count := by
    rw [h]
    exact Nat.zero_le _
  attained := Or.inl h
  flags _ := ⟨rfl, rfl⟩
  data p := ⟨fun hp => ⟨hp, fun hex => Nat.not_lt_zero _ hex.choose_spec.1⟩, fun hp => hp.1⟩
  erase p := ⟨fun hp => ⟨hp, fun hex => Nat.not_lt_zero _ hex.choose_spec.1⟩, fun hp => hp.1⟩

section

variable {s s' : Camera} {n : Nat}

theorem Parsed.pat (h : Parsed n s s') (i : Nat) : s'.pat i = s.pat i :=
  congrFun (congrArg Camera.mem h.frame :) (patOffset + i)

theorem Parsed.filesize (h : Parsed n s s') : s'.filesize = s.filesize := by
  have hwidth : s'.width = s.width := (congrArg Camera.width h.frame :)
  have hheight : s'.height = s.height := (congrArg Camera.height h.frame :)
  rw [Camera.filesize, hwidth, hheight, Camera.filesize]

theorem Parsed.maxFilecount (h : Parsed n s s') : s'.maxFilecount = s.maxFilecount := by
  have hmemSize : s'.memSize = s.memSize := (congrArg Camera.memSize h.frame :)
  rw [Camera.maxFilecount, h.filesize, hmemSize, Camera.maxFilecount]

theorem not_exists_succ {P : Nat → Prop} (hlast : ¬ P n) :
    (¬ ∃ i < n + 1, P i) ↔ ¬ ∃ i < n, P i := by
  apply not_congr
  constructor
  · rintro ⟨i, hi, hp⟩
    have hne : i ≠ n := fun heq => hlast (heq ▸ hp)
    exact ⟨i, by omega, hp⟩
  · rintro ⟨i, hi, hp⟩
    exact ⟨i, by omega, hp⟩

theorem not_exists_last {P : Nat → Prop} :
    (¬ ∃ i < n + 1, P i) ↔ (¬ ∃ i < n, P i) ∧ ¬ P n := by
  constructor
  · intro h
    constructor
    · rintro ⟨i, hi, hp⟩
      exact h ⟨i, by omega, hp⟩
    · intro hp
      exact h ⟨n, by omega, hp⟩
  · rintro ⟨hrest, hlast⟩ ⟨i, hi, hp⟩
    by_cases heq : i = n
    · exact hlast (heq ▸ hp)
    · exact hrest ⟨i, by omega, hp⟩

theorem Parsed.picture (h : Parsed n s s') (hlow : 1 ≤ (s.pat n).toNat)
    (hhigh : (s.pat n).toNat ≤ s.maxFilecount) (hnot : ¬ Special (s.pat n)) :
    Parsed (n + 1) s { s' with pictureCount := max s'.pictureCount (s.pat n).toNat } where
  frame := h.frame
  entries i hi := by
    by_cases hlast : i = n
    · right
      refine ⟨?_, ?_⟩
      · show 1 ≤ (s'.pat i).toNat
        rw [h.pat, hlast]
        exact hlow
      · show (s'.pat i).toNat ≤ max s'.pictureCount (s.pat n).toNat
        rw [h.pat, hlast]
        exact Nat.le_max_right _ _
    · refine (h.entries i (by omega)).imp_right ?_
      rintro ⟨hl, hh⟩
      exact ⟨hl, Nat.le_trans hh (Nat.le_max_left _ _)⟩
  count := Nat.max_le.mpr ⟨h.count, hhigh⟩
  attained := by
    show max _ _ = 0 ∨ ∃ i < n + 1, _ = max _ _
    by_cases hmax : s'.pictureCount ≤ (s.pat n).toNat
    · rw [Nat.max_eq_right hmax]
      exact Or.inr ⟨n, Nat.lt_succ_self n, rfl⟩
    · rw [Nat.max_eq_left (by omega)]
      refine h.attained.imp_right ?_
      rintro ⟨i, hi, heq⟩
      exact ⟨i, by omega, heq⟩
  flags := h.flags
  data p := by
    rw [not_exists_succ fun hin => hnot hin.2]
    exact h.data p
  erase p := by
    rw [not_exists_succ fun hin => hnot (Or.inr hin.2)]
    exact h.erase p

/-- The entry is a special one: the pages of the slot hold no data, and may be erased. -/
theorem Parsed.special {f : PageState → PageState} (h : Parsed n s s') (hsize : s.filesize = 40960)
    (hspecial : Special (s.pat n))
    (hread : ∀ x, (f x).read = x.read ∧ (f x).dirty = x.dirty ∧ (f x).containsData = false)
    (herase : ∀ x, (f x).needsErase = (x.needsErase && decide (s.pat n ≠ entryPreErased))) :
    Parsed (n + 1) s (s'.setPages (pictureOffset n s'.filesize / pageSize)
      (pictureOffset (n + 1) s'.filesize / pageSize -
        pictureOffset n s'.filesize / pageSize) f) := by
  have hin : ∀ p, (pictureOffset n s'.filesize / pageSize ≤ p ∧
      p < pictureOffset n s'.filesize / pageSize + (pictureOffset (n + 1) s'.filesize / pageSize -
        pictureOffset n s'.filesize / pageSize)) ↔ InSlot s n p := by
    intro p
    rw [InSlot, h.filesize, hsize]
    unfold pictureOffset pageSize
    omega
  refine ⟨h.frame, ?_, h.count, ?_, ?_, ?_, ?_⟩
  · intro i hi
    by_cases hlast : i = n
    · rw [hlast]
      exact Or.inl hspecial
    · exact h.entries i (by omega)
  · refine h.attained.imp_right ?_
    rintro ⟨i, hi, heq⟩
    exact ⟨i, by omega, heq⟩
  · intro p
    by_cases hp : InSlot s n p
    · rw [setPages_inside _ _ ((hin p).mpr hp), (hread _).1, (hread _).2.1]
      exact h.flags p
    · rw [setPages_outside _ _ fun hslot => hp ((hin p).mp hslot)]
      exact h.flags p
  · intro p
    rw [not_exists_last]
    by_cases hp : InSlot s n p
    · rw [HasData, setPages_inside _ _ ((hin p).mpr hp), (hread _).2.2]
      constructor
      · intro hfalse
        cases hfalse
      · rintro ⟨_, _, hlast⟩
        exact absurd ⟨hp, hspecial⟩ hlast
    · rw [HasData, setPages_outside _ _ fun hslot => hp ((hin p).mp hslot)]
      have hlast : ¬ (InSlot s n p ∧ Special (s.pat n)) := fun h => hp h.1
      rw [and_iff_left hlast]
      exact h.data p
  · intro p
    rw [not_exists_last]
    by_cases hp : InSlot s n p
    · rw [NeedsErase, setPages_inside _ _ ((hin p).mpr hp), herase, Bool.and_eq_true,
        decide_eq_true_iff]
      have holds := h.erase p
      rw [NeedsErase] at holds
      rw [holds, and_assoc]
      apply and_congr_right
      intro _
      apply and_congr_right
      intro _
      exact ⟨fun hne hboth => hne hboth.2, fun hnot heq => hnot ⟨hp, heq⟩⟩
    · rw [NeedsErase, setPages_outside _ _ fun hslot => hp ((hin p).mp hslot)]
      have hlast : ¬ (InSlot s n p ∧ s.pat n = entryPreErased) := fun h => hp h.1
      rw [and_iff_left hlast]
      exact h.erase p

/-- What `tp6801_open_device` makes of an entry. -/
theorem parseEntry_ends (h : Parsed n s s') (hg : Geometry s) :
    Ends (fun _ t => Parsed (n + 1) s t)
      (fun _ _ => ¬ (Special (s.pat n) ∨
        1 ≤ (s.pat n).toNat ∧ (s.pat n).toNat ≤ s.maxFilecount)) (parseEntry n s') := by
  have hmax := hg.maxFilecount_le
  refine get_bind ?_
  show Ends _ _ ((if _ then _ else _ : Comp Camera Int Unit) s')
  rw [h.pat, h.maxFilecount]
  refine Ends.ite ?_ ?_
  · rintro ⟨hlow, hhigh⟩
    refine Ends.modify ?_
    show Parsed (n + 1) s { s' with pictureCount := max s'.pictureCount (s'.pat n).toNat }
    rw [h.pat]
    refine h.picture hlow hhigh ?_
    intro hspecial
    have hvalue := special_toNat hspecial
    omega
  · intro hnumber
    refine Ends.ite ?_ ?_
    · intro herased
      refine Ends.modify (h.special hg.filesize (Or.inr herased)
        (fun _ => ⟨rfl, rfl, rfl⟩) ?_)
      intro x
      rw [herased]
      exact (Bool.and_false _).symm
    · intro hnotErased
      refine Ends.ite ?_ ?_
      · intro hdeleted
        refine Ends.modify (h.special hg.filesize (Or.inl hdeleted)
          (fun _ => ⟨rfl, rfl, rfl⟩) ?_)
        intro x
        rw [decide_eq_true hnotErased, Bool.and_true]
      · intro hnotDeleted
        refine Ends.throw ?_
        intro hentry
        rcases hentry with (hdeleted | herased) | hrange
        · exact hnotDeleted hdeleted
        · exact hnotErased herased
        · exact hnumber hrange

end

/-! ### Opening -/

/-- What is known of a frame that was opened. -/
structure Opened (s : Camera) : Prop where
  geometry : Geometry s
  patRead : s.IsRead patPage
  entries : ∀ i < s.maxFilecount, Special (s.pat i) ∨ s.Present i
  count : s.pictureCount ≤ s.maxFilecount
  attained : s.pictureCount = 0 ∨ ∃ i < s.maxFilecount, (s.pat i).toNat = s.pictureCount
  clean : ∀ p, ¬ s.IsDirty p
  same : ∀ a, s.IsRead (a / pageSize) → s.mem a = s.store a
  logical : s.logical = s.store
  unerased : s.unerased = []
  data : ∀ p, s.HasData p ↔ p < s.memSize / pageSize ∧
    ¬ ∃ i < s.maxFilecount, InSlot s i p ∧ Special (s.pat i)
  erase : ∀ p, s.NeedsErase p ↔ p < s.memSize / pageSize ∧
    ¬ ∃ i < s.maxFilecount, InSlot s i p ∧ s.pat i = entryPreErased

/-- The pages up to the end of the memory count as holding data. -/
def Camera.allData (s : Camera) : Camera :=
  s.setPages 0 (s.memSize / pageSize) fun f => { f with containsData := true, needsErase := true }

theorem Looked.allData_flags (h : Looked start s) (p : Nat) :
    s.allData.pageState p =
      { read := (s.pageState p).read
        containsData := decide (p < s.memSize / pageSize)
        needsErase := decide (p < s.memSize / pageSize) } := by
  by_cases hp : p < s.memSize / pageSize
  · rw [Camera.allData, setPages_inside _ _ (by omega), h.flags p, decide_eq_true hp]
  · rw [Camera.allData, setPages_outside _ _ (by omega), h.flags p, decide_eq_false hp]

theorem Looked.allData_hasData (h : Looked start s) (p : Nat) :
    s.allData.HasData p ↔ p < s.memSize / pageSize := by
  rw [HasData, h.allData_flags]
  exact decide_eq_true_iff

theorem Looked.allData_needsErase (h : Looked start s) (p : Nat) :
    s.allData.NeedsErase p ↔ p < s.memSize / pageSize := by
  rw [NeedsErase, h.allData_flags]
  exact decide_eq_true_iff

theorem Parsed.opened {s' : Camera} (hfresh : Fresh start) (h : Looked start s)
    (hg : Geometry s) (hread : s.IsRead patPage)
    (hparsed : Parsed s.allData.maxFilecount s.allData s') : Opened s' := by
  have hmax : s'.maxFilecount = s.maxFilecount := hparsed.maxFilecount
  have hsize : s'.filesize = s.filesize := hparsed.filesize
  have hmemSize : s'.memSize = s.memSize := (congrArg Camera.memSize hparsed.frame :)
  have hmem : s'.mem = s.mem := (congrArg Camera.mem hparsed.frame :)
  have hstore : s'.store = s.store := (congrArg Camera.store hparsed.frame :)
  have hlogical : s'.logical = s.logical := (congrArg Camera.logical hparsed.frame :)
  have hunerased : s'.unerased = s.unerased := (congrArg Camera.unerased hparsed.frame :)
  have hstart : s.logical = start.logical := (congrArg Camera.logical h.frame :)
  have hstart' : s.unerased = start.unerased := (congrArg Camera.unerased h.frame :)
  have hpat : ∀ i, s'.pat i = s.pat i := fun i => hparsed.pat i
  have hisRead : ∀ p, s'.IsRead p ↔ s.IsRead p := by
    intro p
    rw [IsRead, (hparsed.flags p).1, h.allData_flags, IsRead]
  have hslot : ∀ i p, InSlot s' i p ↔ InSlot s i p := by
    intro i p
    rw [InSlot, hsize, InSlot]
  have hslots : ∀ (P : UInt8 → Prop) p,
      (∃ i < s.allData.maxFilecount, InSlot s.allData i p ∧ P (s.allData.pat i)) ↔
        ∃ i < s'.maxFilecount, InSlot s' i p ∧ P (s'.pat i) := by
    intro P p
    rw [hmax]
    apply exists_congr
    intro i
    apply and_congr_right
    intro _
    rw [hslot, hpat]
    rfl
  refine ⟨⟨?_, ?_, ?_⟩, ?_, ?_, ?_, ?_, ?_, ?_, ?_, ?_, ?_, ?_⟩
  · exact (congrArg Camera.width hparsed.frame :).trans hg.width
  · exact (congrArg Camera.height hparsed.frame :).trans hg.height
  · rw [hmemSize]
    exact hg.memSize
  · exact (hisRead patPage).mpr hread
  · intro i hi
    rw [hmax] at hi
    rw [hpat]
    exact hparsed.entries i hi
  · rw [hmax]
    exact hparsed.count
  · rw [hmax]
    refine hparsed.attained.imp_right ?_
    rintro ⟨i, hi, heq⟩
    refine ⟨i, hi, ?_⟩
    rw [hpat]
    exact heq
  · intro p
    rw [Camera.IsDirty, (hparsed.flags p).2, h.allData_flags]
    exact Bool.false_ne_true
  · intro a ha
    rw [hmem, hstore, h.store]
    exact h.same a ((hisRead _).mp ha)
  · rw [hlogical, hstore, hstart, hfresh.logical, h.store]
  · rw [hunerased, hstart', hfresh.unerased]
  · intro p
    rw [hparsed.data, hslots Special, h.allData_hasData, hmemSize]
  · intro p
    rw [hparsed.erase, hslots (· = entryPreErased), h.allData_needsErase, hmemSize]

/-- `tp6801_open_device`. -/
theorem openDevice_ends (h : Fresh start) :
    Ends
      (fun _ s' => Opened s' ∧ s'.store = start.store ∧ s'.memDump = start.memDump ∧
        (Plain start → s'.memSize = 1048576))
      (fun _ _ => Plain start → start.FailsRead) (openDevice start) := by
  refine Ends.bind ((detectMem_ends h).mono (fun _ _ hok => hok) fun _ _ he _ => he) ?_
  rintro _ s1 ⟨h1, hsizes, hplain⟩
  refine get_bind ?_
  have hroom : s1.memSize - constDataSize + 512 ≤ s1.memSize := by
    unfold constDataSize
    omega
  refine Ends.bind ((h1.readMem_ends hroom).mono (fun _ _ hok => hok) fun _ _ he _ => he) ?_
  rintro _ s2 ⟨h2, hsize2, _, _, _, hbytes2⟩
  have hdevice2 : ∀ a, s1.memSize - constDataSize ≤ a → a < s1.memSize - constDataSize + 512 →
      s2.mem a = start.device.mem a := fun a hlow hhigh => (hbytes2 a hlow hhigh).2
  have hoffset : Plain start → s1.memSize - constDataSize = 655360 := by
    intro hp
    rw [hplain hp]
    rfl
  refine get_bind (Ends.ite ?_ ?_)
  · intro hmarker
    refine Ends.throw ?_
    intro hp
    rw [memEq_congr fun a hlow hhigh => hdevice2 a (by omega) (by simp at hhigh; omega), hoffset hp,
      hp.marker] at hmarker
    cases hmarker
  intro _
  have hroom3 : s1.memSize - constDataSize + 32 + 32 ≤ s2.memSize := by omega
  refine Ends.bind ((h2.readMem_ends hroom3).mono (fun _ _ hok => hok) fun _ _ he _ => he) ?_
  rintro _ s3 ⟨h3, hsize3, _, _, hread3, _⟩
  have hdevice3 : ∀ a, s1.memSize - constDataSize ≤ a → a < s1.memSize - constDataSize + 512 →
      s3.mem a = start.device.mem a :=
    fun a hlow hhigh => h3.same a (hread3 _ (hbytes2 a hlow hhigh).1)
  refine get_bind (Ends.ite ?_ ?_)
  · intro hmodel
    refine Ends.throw ?_
    intro hp
    rw [memEq_congr fun a hlow hhigh => hdevice3 a (by omega) (by simp at hhigh; omega),
      modelAt_congr fun a hlow hhigh => hdevice3 a (by omega) (by omega), hoffset hp, hp.ids,
      decide_eq_true hp.model] at hmodel
    cases hmodel
  intro _
  refine modify_bind (get_bind (Ends.ite ?_ ?_))
  · intro hsize
    have hzero : 160 * 128 * 2 % pageSize = 0 := by decide
    exact absurd hzero hsize
  intro _
  have h4 := h3.resize s3.memSize 160 128
  have hroom4 : patOffset + patSize ≤ s3.memSize := by
    unfold patOffset patSize
    omega
  refine Ends.bind ((h4.readMem_ends hroom4).mono (fun _ _ hok => hok) fun _ _ he _ => he) ?_
  rintro _ s5 ⟨h5, hsize5, hwidth5, hheight5, _, hbytes5⟩
  refine get_bind (Ends.ite ?_ ?_)
  · intro hmagic
    refine Ends.throw ?_
    intro hp
    have hmem : ∀ a, patMagicOffset ≤ a → a < patMagicOffset + (patMagic.map Char.toNat).length →
        s5.mem a = start.device.mem a := by
      intro a hlow hhigh
      have hlength : (patMagic.map Char.toNat).length ≤ 128 := by decide
      unfold patMagicOffset at hlow hhigh
      apply (hbytes5 a (by unfold patOffset; omega) (by unfold patOffset patSize; omega)).2
    rw [memEq_congr hmem, hp.magic] at hmagic
    cases hmagic
  intro _
  refine modify_bind ?_
  have hg : Geometry s5 := by
    refine ⟨hwidth5, hheight5, ?_⟩
    rw [hsize5]
    show s3.memSize = _ ∨ s3.memSize = _ ∨ s3.memSize = _
    rw [hsize3, hsize2]
    exact hsizes
  have hread5 : s5.IsRead patPage := (hbytes5 patOffset (Nat.le_refl _) (by decide)).1
  have hpat5 : ∀ i < 256, s5.pat i = start.device.pat i :=
    fun i hi => (hbytes5 _ (Nat.le_add_right _ _) (Nat.add_lt_add_left hi _)).2
  have hcount5 : s5.pictureCount = 0 := by
    have hsame : s5.pictureCount = start.pictureCount := (congrArg Camera.pictureCount h5.frame :)
    rw [hsame, h.pictureCount]
  have hall : Geometry s5.allData := ⟨hg.width, hg.height, hg.memSize⟩
  have hmax := hg.maxFilecount_le
  have hplain5 : Plain start → s5.memSize = 1048576 := by
    intro hp
    rw [hsize5]
    show s3.memSize = _
    rw [hsize3, hsize2, hplain hp]
  show Ends _ _ ((List.range s5.allData.maxFilecount).forM parseEntry s5.allData)
  have hloop := @Ends.forM_range _ _ (fun _ _ => Plain start → start.FailsRead)
    (fun n t => Parsed n s5.allData t) parseEntry s5.allData.maxFilecount _ (Parsed.refl hcount5) ?_
  refine hloop.mono ?_ fun _ _ he => he
  swap
  · intro i t hi hparsed
    refine (parseEntry_ends hparsed hall).mono (fun _ _ hok => hok) ?_
    intro _ _ hbad hp
    have hmax5 : s5.allData.maxFilecount = 14 := by
      rw [hall.maxFilecount]
      show (s5.memSize - _) / _ = _
      rw [hplain5 hp]
    have hpat : s5.allData.pat i = start.device.pat i := hpat5 i (by omega)
    rw [hpat, hmax5] at hbad
    exact absurd (hp.entries i (by omega)) hbad
  · intro _ s' hparsed
    have hstore : s'.store = s5.store := (congrArg Camera.store hparsed.frame :)
    have hdump : s'.memDump = s5.memDump := (congrArg Camera.memDump hparsed.frame :)
    have hdump5 : s5.memDump = start.memDump := (congrArg Camera.memDump h5.frame :)
    have hsize : s'.memSize = s5.memSize := (congrArg Camera.memSize hparsed.frame :)
    refine ⟨hparsed.opened h h5 hg hread5, ?_, ?_, ?_⟩
    · rw [hstore, h5.store]
    · rw [hdump, hdump5]
    · intro hp
      rw [hsize, hplain5 hp]

/-! ### A frame -/

/-- The memory of a frame of 1 MiB: the PAT, what the driver looks for, and one other byte at the
end of the first block. -/
def frameByte (pat : List UInt8) (a : Nat) : UInt8 :=
  let offset := a % 1048576
  if patOffset ≤ offset ∧ offset < patOffset + 14 then
    pat.getD (offset - patOffset) 0xff
  else if patMagicOffset ≤ offset ∧ offset < patMagicOffset + 39 then
    UInt8.ofNat (patMagic.getD (offset - patMagicOffset) ' ').toNat
  else if 655360 ≤ offset ∧ offset < 655364 then
    [0x30, 0x11, 0x01, 0x68].getD (offset - 655360) 0
  else if 655392 ≤ offset ∧ offset < 655410 then
    UInt8.ofNat ("InsigniaNS-KEYXX09".toList.getD (offset - 655392) ' ').toNat
  else if 655410 ≤ offset ∧ offset < 655424 then
    0
  else if 655616 ≤ offset ∧ offset < 655622 then
    [0x01, 0x43, 0x44, 0x30, 0x30, 0x31].getD (offset - 655616) 0
  else if offset = 65535 then
    0
  else
    0xff

/-- A frame with these entries in the PAT, and pre-erased slots behind them. No command fails. -/
def frame (memDump : Bool) (pat : List UInt8) : Camera where
  memDump := memDump
  mem _ := 0
  pageState _ := {}
  pictureCount := 0
  width := 0
  height := 0
  memSize := 0
  store := frameByte pat
  faults _ := none
  logical := frameByte pat
  unerased := []

variable (memDump : Bool)

theorem frame_fresh (pat : List UInt8) : Fresh (frame memDump pat) :=
  ⟨fun _ => rfl, rfl, rfl, rfl⟩

theorem frame_not_failsRead (pat : List UInt8) :
    ¬ (frame memDump pat).FailsRead := by
  rintro ⟨_, hfault⟩
  exact hfault rfl

theorem frame_pat (pat : List UInt8) {i : Nat} (hi : i < 14) :
    (frame memDump pat).device.pat i = pat.getD i 0xff := by
  show frameByte pat (patOffset + i) = _
  have hoffset : (patOffset + i) % 1048576 = patOffset + i :=
    Nat.mod_eq_of_lt (by unfold patOffset; omega)
  unfold frameByte
  simp only [hoffset]
  rw [if_pos (by omega), Nat.add_sub_cancel_left]

theorem frame_plain {pat : List UInt8}
    (h : ∀ i < 14, Special (pat.getD i 0xff) ∨
      1 ≤ (pat.getD i 0xff).toNat ∧ (pat.getD i 0xff).toNat ≤ 14) :
    Plain (frame memDump pat) where
  repeated k _ := by
    have hsame : (1048576 <<< 0 + patOffset + k) % 1048576 = (patOffset + k) % 1048576 := by omega
    show frameByte pat _ = frameByte pat _
    unfold frameByte
    rw [hsame]
  marker := rfl
  ids := rfl
  model := List.mem_cons_self
  magic := rfl
  entries i hi := by
    rw [frame_pat memDump pat hi]
    exact h i hi

theorem frameByte_slots (pat : List UInt8) {a : Nat} (hlow : 65536 ≤ a) (hhigh : a < 638976) :
    frameByte pat a = erasedByte := by
  have hoffset : a % 1048576 = a := Nat.mod_eq_of_lt (by omega)
  unfold frameByte patOffset patMagicOffset
  simp only [hoffset]
  rw [if_neg (by omega), if_neg (by omega), if_neg (by omega), if_neg (by omega), if_neg (by omega),
    if_neg (by omega), if_neg (by omega)]
  rfl

theorem frame_opens (memDump : Bool) {pat : List UInt8}
    (h : ∀ i < 14, Special (pat.getD i 0xff) ∨
      1 ≤ (pat.getD i 0xff).toNat ∧ (pat.getD i 0xff).toNat ≤ 14) :
    ∃ s, openDevice (frame memDump pat) = some (.ok (), s) ∧ Opened s ∧ s.maxFilecount = 14 ∧
      s.memDump = memDump ∧ s.store = frameByte pat ∧ ∀ i < 14, s.pat i = pat.getD i 0xff := by
  have hplain := frame_plain memDump h
  obtain ⟨_, s, hrun, hopened, hstore, hdump, hsize⟩ :=
    (openDevice_ends (frame_fresh memDump pat)).exists_ok
      fun _ _ hfails => frame_not_failsRead memDump pat (hfails hplain)
  refine ⟨s, hrun, hopened, ?_, hdump, hstore, ?_⟩
  · rw [hopened.geometry.maxFilecount, hsize hplain]
  · intro i hi
    have hpage : (patOffset + i) / pageSize = patPage := by
      unfold patPage patOffset pageSize
      omega
    have hread : s.IsRead ((patOffset + i) / pageSize) := by
      rw [hpage]
      exact hopened.patRead
    rw [← frame_pat memDump pat hi]
    show s.mem (patOffset + i) = (frame memDump pat).store (patOffset + i)
    rw [hopened.same _ hread, hstore]

/-! ## Runs of calls, and the numbers after each commit

`commit_numbers`: as long as the calls are orderly, every commit leaves the pictures numbered from 1
on without a gap, in the order they had. `commit_leaves_gap` is a commit that is not orderly: of two
numbers in a row that are missing only one gap is closed.
-/

open Finset (Icc mem_Icc mem_filter mem_range)

/-- The slots with a picture. -/
def Camera.presentSlots (s : Camera) : Finset Nat :=
  (Finset.range s.maxFilecount).filter s.Present

/-- The slots without one. -/
def Camera.freeSlots (s : Camera) : Finset Nat :=
  (Finset.range s.maxFilecount).filter fun i => ¬ s.Present i

/-- The pictures are numbered from 1 to their count, each number stands once, and none is one of
the special values. -/
structure Numbered (s : Camera) : Prop where
  once : ∀ n, 1 ≤ n → n ≤ s.pictureCount → ∃! i, i < s.maxFilecount ∧ (s.pat i).toNat = n
  present : ∀ i ∈ s.presentSlots, 1 ≤ (s.pat i).toNat ∧ (s.pat i).toNat ≤ s.pictureCount ∧
    ¬ Special (s.pat i)
  free : ∀ i ∈ s.freeSlots, Special (s.pat i)
  count : s.pictureCount = s.presentSlots.card
  room : s.getFreeMemSize = s.freeSlots.card * s.filesize

theorem PatValid.numbered {s : Camera} (hv : PatValid s) (hd : Distinct s)
    (hall : NumbersBelow s (s.pictureCount + 1)) : Numbered s := by
  have hfew := hv.few
  have hpresent : ∀ i < s.maxFilecount, ∀ n, 1 ≤ n → n ≤ s.pictureCount → (s.pat i).toNat = n →
      s.Present i := by
    intro i hi n hlow hhigh heq
    rw [Camera.Present, heq]
    exact ⟨hlow, hhigh⟩
  have hcount : s.presentSlots.card = s.pictureCount := by
    have hbij : s.presentSlots.card = (Icc 1 s.pictureCount).card := by
      refine Finset.card_bij (fun i _ => (s.pat i).toNat) ?_ ?_ ?_
      · intro i hi
        rw [Camera.presentSlots, mem_filter] at hi
        exact mem_Icc.mpr hi.2
      · intro i hi j hj heq
        rw [Camera.presentSlots, mem_filter, mem_range] at hi hj
        exact hd i hi.1 j hj.1 hi.2 (UInt8.toNat_inj.mp heq)
      · intro n hn
        rw [mem_Icc] at hn
        obtain ⟨i, hi, heq⟩ :=
          (s.numberExists_iff n).mp (hall n hn.1 (by omega) hn.2)
        refine ⟨i, ?_, heq⟩
        rw [Camera.presentSlots, mem_filter, mem_range]
        exact ⟨hi, hpresent i hi n hn.1 hn.2 heq⟩
    rw [hbij, Nat.card_Icc]
    omega
  refine ⟨?_, ?_, ?_, hcount.symm, ?_⟩
  · intro n hlow hhigh
    obtain ⟨i, hi, heq⟩ := (s.numberExists_iff n).mp (hall n hlow (by omega) hhigh)
    refine ⟨i, ⟨hi, heq⟩, ?_⟩
    rintro j ⟨hj, heq'⟩
    apply hd j hj i hi (hpresent j hj n hlow hhigh heq')
    exact UInt8.toNat_inj.mp (heq'.trans heq.symm)
  · intro i hi
    rw [Camera.presentSlots, mem_filter] at hi
    exact ⟨hi.2.1, hi.2.2, hv.not_special hi.2⟩
  · intro i hi
    rw [Camera.freeSlots, mem_filter, mem_range] at hi
    exact (hv.entries i hi.1).resolve_right hi.2
  · have hsplit :=
      Finset.card_filter_add_card_filter_not (s := Finset.range s.maxFilecount) s.Present
    rw [Finset.card_range] at hsplit
    have hfree : (s.freeSlots.card : Int) = s.maxFilecount - s.pictureCount := by
      rw [← hcount]
      unfold Camera.freeSlots Camera.presentSlots
      omega
    rw [Camera.getFreeMemSize, hfree]

/-! ### Runs -/

/-- When a call keeps the numbers in order: it may be made, and a commit finds no two numbers in a
row missing. -/
def Call.Orderly (s : Camera) (call : Call) : Prop :=
  call.Allowed s ∧ (call = .commit → NoDoubleGap s 1)

/-- A call that keeps the numbers in order. Any of its commands may fail. -/
def OrderlyStep (s s' : Camera) : Prop :=
  ∃ call faults r, Call.Orderly s call ∧ Call.run call faults s = some (r, s')

theorem OrderlyStep.patValid {s s' : Camera} (h : PatValid s ∧ Distinct s)
    (hstep : OrderlyStep s s') : PatValid s' ∧ Distinct s' := by
  obtain ⟨hv, hd⟩ := h
  obtain ⟨call, faults, r, ⟨hallowed, _⟩, hrun⟩ := hstep
  have hends := call_patValid (hv.faults faults) (hallowed.faults faults)
  cases r with
  | error e =>
    obtain ⟨hv', _, hd'⟩ := hends.of_error hrun
    exact ⟨hv', hd' hd⟩
  | ok u =>
    obtain ⟨hv', _, hd'⟩ := hends.of_ok hrun
    exact ⟨hv', hd' hd⟩

theorem Opened.patValid {s : Camera} (h : Opened s) : PatValid s := by
  have hmax := h.geometry.maxFilecount_le
  have hcount := h.count
  exact ⟨h.geometry, h.patRead, h.entries, by omega⟩

/-- In every run of orderly calls on a frame that was opened, every commit that succeeds leaves the
same pictures in the same order, numbered from 1 to their count. -/
theorem commit_numbers {start s0 s s' : Camera} (hfresh : Fresh start)
    (hopen : openDevice start = some (.ok (), s0)) (hdistinct : Distinct s0)
    (hrun : Relation.ReflTransGen OrderlyStep s0 s) (horderly : Call.Orderly s .commit)
    (faults : Command → Option Fault) (hcommit : Call.run .commit faults s = some (.ok (), s')) :
    Numbered s' ∧ SamePictures s s' := by
  have hopened := ((openDevice_ends hfresh).of_ok hopen).1
  obtain ⟨hv, hd⟩ := invariant_of_steps (fun _ _ h hstep => OrderlyStep.patValid h hstep) hrun
    ⟨hopened.patValid, hdistinct⟩
  obtain ⟨hv', _, hsame, hd', hall, _⟩ :=
    (commit_ends (hv.faults faults) (horderly.1.faults faults)).of_ok hcommit
  refine ⟨hv'.numbered (hd' hd) (hall (horderly.2 rfl)), ?_⟩
  exact ⟨hsame.maxFilecount, hsame.filesize, hsame.present, hsame.order⟩

theorem one_entry (x : UInt8) (hx : 1 ≤ x.toNat ∧ x.toNat ≤ 14) (i : Nat) :
    Special ([x].getD i 0xff) ∨ 1 ≤ ([x].getD i 0xff).toNat ∧ ([x].getD i 0xff).toNat ≤ 14 := by
  cases i with
  | zero => exact Or.inr hx
  | succ i => exact Or.inl (Or.inr rfl)

theorem opened_one {s : Camera} {x : UInt8} (hopened : Opened s) (hmax : s.maxFilecount = 14)
    (hpat : ∀ i < 14, s.pat i = [x].getD i 0xff) (hx : 1 ≤ x.toNat ∧ x.toNat ≤ 14) :
    PatValid s ∧ Distinct s ∧ s.pictureCount = x.toNat ∧
      ∀ n, 1 ≤ n → n ≤ 14 → (s.numberExists n = true ↔ n = x.toNat) := by
  have hfirst : s.pat 0 = x := hpat 0 (by decide)
  have hother : ∀ i < 14, i ≠ 0 → s.pat i = entryPreErased := by
    intro i hi hne
    obtain ⟨j, rfl⟩ := Nat.exists_eq_succ_of_ne_zero hne
    exact hpat _ hi
  have hspecial : ∀ i < 14, i ≠ 0 → (s.pat i).toNat = 255 := by
    intro i hi hne
    rw [hother i hi hne]
    rfl
  have hcount := hopened.count
  have hpresent : ∀ i < 14, s.Present i → i = 0 := by
    intro i hi hp
    by_contra hne
    have hvalue := hspecial i hi hne
    have hle := hp.2
    omega
  refine ⟨hopened.patValid, ?_, ?_, ?_⟩
  · intro i hi j hj hp heq
    rw [hmax] at hi hj
    have hi0 := hpresent i hi hp
    have hj0 := hpresent j hj (by rwa [Camera.Present, ← heq])
    rw [hi0, hj0]
  · have hmember : s.Present 0 := by
      refine (hopened.entries 0 (by omega)).resolve_left ?_
      intro hs
      have hvalue := special_toNat hs
      rw [hfirst] at hvalue
      omega
    have hle : x.toNat ≤ s.pictureCount := by
      rw [← hfirst]
      exact hmember.2
    obtain hzero | ⟨i, hi, heq⟩ := hopened.attained
    · omega
    · by_cases hi0 : i = 0
      · rw [hi0, hfirst] at heq
        exact heq.symm
      · have hvalue := hspecial i (by omega) hi0
        omega
  · intro n hlow hhigh
    rw [Camera.numberExists_iff, hmax]
    constructor
    · rintro ⟨i, hi, heq⟩
      by_cases hi0 : i = 0
      · rw [hi0, hfirst] at heq
        exact heq.symm
      · have hvalue := hspecial i hi hi0
        omega
    · intro heq
      exact ⟨0, by decide, by rw [hfirst, heq]⟩

/-- A frame whose only picture has the number 2: the commit makes it 1. -/
theorem commit_numbers_two : ∃ s0 s', openDevice (frame false [2]) = some (.ok (), s0) ∧
    Call.run .commit (fun _ => none) s0 = some (.ok (), s') ∧ Numbered s' ∧ SamePictures s0 s' := by
  have hx : 1 ≤ (2 : UInt8).toNat ∧ (2 : UInt8).toNat ≤ 14 := by decide
  obtain ⟨s0, hopen, hopened, hmax, hdump, _, hpat⟩ :=
    frame_opens false fun i _ => one_entry 2 hx i
  obtain ⟨hv, hd, hcount, hexists⟩ := opened_one hopened hmax hpat hx
  have horderly : Call.Orderly s0 .commit := by
    refine ⟨?_, fun _ => ?_⟩
    · intro h
      rw [hdump] at h
      cases h
    · intro n hn hle
      rw [hcount] at hle
      have hone : n = 1 := by
        have htwo : (2 : UInt8).toNat = 2 := rfl
        omega
      rw [hone]
      exact Or.inr ((hexists 2 (by decide) (by decide)).mpr rfl)
  obtain ⟨_, s', hcommit, _⟩ :=
    (commit_ends (hv.faults fun _ => none) (horderly.1.faults fun _ => none)).exists_ok
      fun _ _ h => h.2.2.2.elim fun _ hfault => hfault rfl
  exact ⟨s0, s', hopen, hcommit, commit_numbers (frame_fresh false [2]) hopen hd
    Relation.ReflTransGen.refl horderly _ hcommit⟩

/-- A frame whose only picture has the number 3: after the commit it has the number 2, and there is
no picture with the number 1. -/
theorem commit_leaves_gap : ∃ s0 s', openDevice (frame false [3]) = some (.ok (), s0) ∧
    Call.run .commit (fun _ => none) s0 = some (.ok (), s') ∧ ¬ Numbered s' := by
  have hx : 1 ≤ (3 : UInt8).toNat ∧ (3 : UInt8).toNat ≤ 14 := by decide
  have hthree : (3 : UInt8).toNat = 3 := rfl
  obtain ⟨s0, hopen, hopened, hmax, hdump, _, hpat⟩ :=
    frame_opens false fun i _ => one_entry 3 hx i
  obtain ⟨hv, _, hcount, hexists⟩ := opened_one hopened hmax hpat hx
  have hone : ¬ s0.numberExists 1 = true := by
    rw [hexists 1 (by decide) (by decide), hthree]
    decide
  have htwo : ¬ s0.numberExists 2 = true := by
    rw [hexists 2 (by decide) (by decide), hthree]
    decide
  have hnotDump : s0.memDump = true → Quiet s0 := by
    intro h
    rw [hdump] at h
    cases h
  obtain ⟨_, s', hcommit, _, _, _, _, _, hgap⟩ :=
    (commit_ends (hv.faults fun _ => none) fun h => (hnotDump h).faults _).exists_ok
      fun _ _ h => h.2.2.2.elim fun _ hfault => hfault rfl
  have hcount1 : 1 < s0.pictureCount := by omega
  obtain ⟨n, hlow, hhigh, hmissing⟩ := hgap ⟨1, by decide, hcount1, hone, htwo⟩
  refine ⟨s0, s', hopen, hcommit, ?_⟩
  intro hnumbered
  obtain ⟨i, ⟨hi, heq⟩, _⟩ := hnumbered.once n hlow hhigh
  exact hmissing ((s'.numberExists_iff n).mpr ⟨i, hi, heq⟩)

end GPhoto2.Tp6801
