import GPhoto2.Tp6801.Memory
import Mathlib.Algebra.Order.Ring.Nat

/-!
# `GPhoto2.Proofs.Tp6801.Memory`: what the tp6801 driver does to the memory

One lemma for each function of the lower half, with what it changes whether it succeeds or fails:
`readMem_ends` (it only fetches pages, `Fetched`), `programBlock_ends` (`Programmed`) and
`eraseBlock_ends`. None gets stuck.
-/

set_option autoImplicit false

namespace GPhoto2.Tp6801

open Lib
open Lib.Comp (Ends)
open Lib.Comp.Ends (get_bind modify_bind)

theorem pageSize_pos : 0 < pageSize := by decide

theorem blockPageSize_eq : blockPageSize = 256 := by decide

theorem within_inside {offset n a : Nat} {new old : Nat → UInt8}
    (h : offset ≤ a ∧ a < offset + n) : within offset n new old a = new a := if_pos h

theorem within_outside {offset n a : Nat} {new old : Nat → UInt8}
    (h : ¬ (offset ≤ a ∧ a < offset + n)) : within offset n new old a = old a := if_neg h

theorem mem_page_iff {a p : Nat} :
    (p * pageSize ≤ a ∧ a < p * pageSize + pageSize) ↔ a / pageSize = p := by
  unfold pageSize
  omega

theorem mem_pages_iff {a p n : Nat} :
    (p * pageSize ≤ a ∧ a < p * pageSize + n * pageSize) ↔
      p ≤ a / pageSize ∧ a / pageSize < p + n := by
  unfold pageSize
  omega

namespace Camera

variable (s : Camera)

@[simp] theorem setPage_same (page : Nat) (f : PageState → PageState) :
    (s.setPage page f).pageState page = f (s.pageState page) := if_pos rfl

variable (f : PageState → PageState)

theorem setPage_other {page p : Nat} (h : p ≠ page) :
    (s.setPage page f).pageState p = s.pageState p := if_neg h

theorem setPages_inside {page n p : Nat}
    (h : page ≤ p ∧ p < page + n) :
    (s.setPages page n f).pageState p = f (s.pageState p) := if_pos h

theorem setPages_outside {page n p : Nat}
    (h : ¬ (page ≤ p ∧ p < page + n)) :
    (s.setPages page n f).pageState p = s.pageState p := if_neg h

/-- The page was read from the device, or written. -/
def IsRead (p : Nat) : Prop := (s.pageState p).read = true

/-- The page must be programmed. -/
def IsDirty (p : Nat) : Prop := (s.pageState p).dirty = true

/-- The page holds data. -/
def HasData (p : Nat) : Prop := (s.pageState p).containsData = true

/-- The page must be erased before it is programmed. -/
def NeedsErase (p : Nat) : Prop := (s.pageState p).needsErase = true

/-- Some command fails. -/
def Fails : Prop := ∃ command, s.faults command ≠ none

/-- Some read fails. -/
def FailsRead : Prop := ∃ offset, s.faults (.read offset) ≠ none

theorem FailsRead.fails (h : s.FailsRead) : s.Fails := h.elim fun _ hfault => ⟨_, hfault⟩

theorem pageErased_iff (p : Nat) :
    s.pageErased p = true ↔ ∀ a, a / pageSize = p → s.store a = erasedByte := by
  unfold pageErased
  rw [List.all_eq_true]
  constructor
  · intro h a ha
    have hbyte := h (a % pageSize) (List.mem_range.mpr (Nat.mod_lt _ pageSize_pos))
    rw [← ha, Nat.mul_comm, Nat.div_add_mod] at hbyte
    exact of_decide_eq_true hbyte
  · intro h i hi
    rw [List.mem_range] at hi
    apply decide_eq_true
    apply h
    rw [Nat.add_comm, Nat.add_mul_div_right _ _ pageSize_pos, Nat.div_eq_of_lt hi, Nat.zero_add]

end Camera

/-! ### Reading -/

/-- Some pages were fetched: they count as read, and their bytes are those of the memory. -/
structure Fetched (s s' : Camera) : Prop where
  frame : { s' with mem := s.mem, pageState := s.pageState } = s
  flags : ∀ p, s'.pageState p = { s.pageState p with read := (s'.pageState p).read }
  read : ∀ p, s.IsRead p → s'.IsRead p
  same : ∀ a, s.IsRead (a / pageSize) → s'.mem a = s.mem a
  fetched : ∀ a, ¬ s.IsRead (a / pageSize) → s'.IsRead (a / pageSize) → s'.mem a = s.store a

variable (s : Camera) (page offset bsp : Nat) (buf : List UInt8) (withData : Bool)

theorem Fetched.refl : Fetched s s where
  frame := rfl
  flags _ := rfl
  read _ h := h
  same _ _ := rfl
  fetched _ h h' := absurd h' h

section

variable {s s' s'' : Camera}

variable (h : Fetched s s')
include h

theorem Fetched.store : s'.store = s.store :=
  (congrArg Camera.store h.frame :)

theorem Fetched.faults : s'.faults = s.faults :=
  (congrArg Camera.faults h.frame :)

theorem Fetched.memSize : s'.memSize = s.memSize :=
  (congrArg Camera.memSize h.frame :)

theorem Fetched.logical : s'.logical = s.logical :=
  (congrArg Camera.logical h.frame :)

theorem Fetched.dirty (p : Nat) :
    (s'.pageState p).dirty = (s.pageState p).dirty :=
  (congrArg PageState.dirty (h.flags p) :)

theorem Fetched.containsData (p : Nat) :
    (s'.pageState p).containsData = (s.pageState p).containsData :=
  (congrArg PageState.containsData (h.flags p) :)

theorem Fetched.needsErase (p : Nat) :
    (s'.pageState p).needsErase = (s.pageState p).needsErase :=
  (congrArg PageState.needsErase (h.flags p) :)

theorem Fetched.trans (h' : Fetched s' s'') : Fetched s s'' where
  frame := by
    have h1 := h.frame
    have h2 := h'.frame
    rw [← h1, ← h2]
  flags p := by
    rw [h'.flags p, h.flags p]
  read p hp := h'.read p (h.read p hp)
  same a ha := (h'.same a (h.read _ ha)).trans (h.same a ha)
  fetched a hnot hread := by
    by_cases hmid : s'.IsRead (a / pageSize)
    · rw [h'.same a hmid, h.fetched a hnot hmid]
    · rw [h'.fetched a hmid hread, h.store]

end

theorem Fetched.garbage {s : Camera} {page n : Nat}
    (hunread : ∀ p, page ≤ p → p < page + n → ¬ s.IsRead p) (bytes : Nat → UInt8) :
    Fetched s (s.setMem (page * pageSize) (n * pageSize) bytes) where
  frame := rfl
  flags _ := rfl
  read _ h := h
  same a ha := by
    apply within_outside
    intro hin
    obtain ⟨hlow, hhigh⟩ := mem_pages_iff.mp hin
    exact hunread _ hlow hhigh ha
  fetched _ h h' := absurd h' h

theorem Fetched.of_read {s : Camera} {page n : Nat}
    (hunread : ∀ p, page ≤ p → p < page + n → ¬ s.IsRead p) :
    Fetched s ((s.setMem (page * pageSize) (n * pageSize) s.store).setPages page n
      fun f => { f with read := true }) where
  frame := rfl
  flags p := by
    by_cases hin : page ≤ p ∧ p < page + n
    · rw [Camera.setPages_inside _ _ hin]
      rfl
    · rw [Camera.setPages_outside _ _ hin]
      rfl
  read p hp := by
    by_cases hin : page ≤ p ∧ p < page + n
    · exact absurd hp (hunread p hin.1 hin.2)
    · rw [Camera.IsRead, Camera.setPages_outside _ _ hin]
      exact hp
  same a ha := by
    apply within_outside
    intro hin
    obtain ⟨hlow, hhigh⟩ := mem_pages_iff.mp hin
    exact hunread _ hlow hhigh ha
  fetched a hnot hread := by
    by_cases hin : page ≤ a / pageSize ∧ a / pageSize < page + n
    · exact within_inside (mem_pages_iff.mpr hin)
    · rw [Camera.IsRead, Camera.setPages_outside _ _ hin] at hread
      exact absurd hread hnot

theorem sendCmd_ends (command : Command) (dumpError : Int) (done : Camera → Camera)
    (failed : (Nat → UInt8) → Camera → Camera) :
    Ends (fun _ s' => s' = done s ∧ s.faults command = none)
      (fun _ s' => s.faults command ≠ none ∧ ∃ garbage, s' = failed garbage s)
      (sendCmd command dumpError done failed s) := by
  refine get_bind ?_
  cases hfault : s.faults command with
  | none => exact Ends.modify ⟨rfl, rfl⟩
  | some fault =>
    exact modify_bind
      (Ends.throw ⟨Option.some_ne_none fault, fault.garbage, rfl⟩)

theorem toRead_unread {s : Camera} {page n p : Nat} (hlow : page ≤ p)
    (hhigh : p < page + toRead s page n) : ¬ s.IsRead p := by
  intro hread
  have hmem := List.takeWhile_prefix
    (l := List.range (min n maxRead)) fun i => !(s.pageState (page + i)).read
  have hk : p - page < ((List.range (min n maxRead)).takeWhile
      fun i => !(s.pageState (page + i)).read).length := by
    unfold toRead at hhigh
    omega
  have hget := hmem.getElem hk
  rw [List.getElem_range] at hget
  have hall := List.all_takeWhile (p := fun i => !(s.pageState (page + i)).read)
    (l := List.range (min n maxRead))
  rw [List.all_eq_true] at hall
  have hbyte := hall _ (List.getElem_mem hk)
  rw [hget, Nat.add_sub_cancel' hlow] at hbyte
  rw [Camera.IsRead] at hread
  rw [hread] at hbyte
  cases hbyte

theorem toRead_pos {s : Camera} {page n : Nat} (hunread : ¬ s.IsRead page) :
    0 < toRead s page (n + 1) := by
  have hmin : min (n + 1) maxRead = min n (maxRead - 1) + 1 := by
    have hmax : 0 < maxRead := by decide
    omega
  rw [Camera.IsRead, Bool.not_eq_true] at hunread
  unfold toRead
  rw [hmin, List.range_succ_eq_map, List.takeWhile_cons, Nat.add_zero, hunread]
  exact Nat.succ_pos _

theorem toRead_le (n : Nat) : toRead s page n ≤ n := by
  have hlen := (List.takeWhile_prefix (l := List.range (min n maxRead))
    fun i => !(s.pageState (page + i)).read).length_le
  rw [List.length_range] at hlen
  exact Nat.le_trans hlen (Nat.min_le_left _ _)

/-- The loop of `tp6801_read_mem` fetches the pages that have not been read. -/
theorem readMemLoop_ends {rounds n : Nat} (hrounds : n ≤ rounds) (s : Camera) (page : Nat) :
    Ends (fun _ s' => Fetched s s' ∧ ∀ p, page ≤ p → p < page + n → s'.IsRead p)
      (fun _ s' => Fetched s s' ∧ s.FailsRead) (readMemLoop rounds page n s) := by
  induction rounds generalizing n page s with
  | zero =>
    rw [Nat.le_zero.mp hrounds, readMemLoop]
    exact ⟨Fetched.refl s, fun p hlow hhigh => absurd hlow (by omega)⟩
  | succ rounds ih =>
    cases n with
    | zero =>
      rw [readMemLoop]
      exact ⟨Fetched.refl s, fun p hlow hhigh => absurd hlow (by omega)⟩
    | succ n =>
      rw [readMemLoop]
      refine get_bind (Ends.ite ?_ ?_)
      · intro hread
        refine (ih (by omega) s (page + 1)).mono ?_ fun _ _ h => h
        rintro _ s' ⟨hfetched, hrest⟩
        refine ⟨hfetched, ?_⟩
        intro p hlow hhigh
        by_cases hfirst : p = page
        · rw [hfirst]
          exact hfetched.read page hread
        · exact hrest p (by omega) (by omega)
      · intro hunread
        have hpos := @toRead_pos s page n hunread
        have hle := toRead_le s page (n + 1)
        have hnone : ∀ p, page ≤ p → p < page + toRead s page (n + 1) → ¬ s.IsRead p :=
          fun p hlow hhigh => toRead_unread hlow hhigh
        refine Ends.bind ((sendCmd_ends s _ _ _ _).mono (fun _ _ h => h) ?_) ?_
        · rintro _ s' ⟨hfault, bytes, hs'⟩
          rw [hs']
          exact ⟨Fetched.garbage hnone bytes, _, hfault⟩
        · rintro _ s1 ⟨hs1, _⟩
          rw [hs1]
          refine modify_bind ?_
          have hfirst := Fetched.of_read hnone
          refine (ih (by omega) _ _).mono ?_ fun _ _ h => ⟨hfirst.trans h.1, h.2⟩
          rintro _ s' ⟨hfetched, hrest⟩
          refine ⟨hfirst.trans hfetched, ?_⟩
          intro p hlow hhigh
          by_cases hin : p < page + toRead s page (n + 1)
          · apply hfetched.read
            rw [Camera.IsRead, Camera.setPages_inside _ _ ⟨hlow, hin⟩]
          · exact hrest p (by omega) (by omega)

/-- `tp6801_read_mem` only fetches pages. -/
theorem readMem_ends (len : Nat) :
    Ends (fun _ s' => Fetched s s' ∧
        ∀ p, offset / pageSize ≤ p → p < offset / pageSize + pagesOf offset len → s'.IsRead p)
      (fun _ s' => Fetched s s' ∧ (s.FailsRead ∨ s.memSize < offset + len))
      (readMem offset len s) := by
  refine @Ends.bind _ _ _ _ _ _ (fun _ s' => s' = s) _ _ _ ?_ ?_
  · refine get_bind (Ends.ite ?_ ?_)
    · intro hbeyond
      exact Ends.throw ⟨Fetched.refl s, Or.inr hbeyond⟩
    · intro _
      exact Ends.pure rfl
  · intro _ s' hs'
    rw [hs']
    exact (readMemLoop_ends (Nat.le_refl _) s _).mono (fun _ _ h => h)
      fun _ _ h => ⟨h.1, Or.inl h.2⟩

/-! ### Writing -/

theorem setPages_one (f : PageState → PageState) :
    s.setPages page 1 f = s.setPage page f := by
  show ({ s with pageState := _ } : Camera) = { s with pageState := _ }
  congr 1
  funext p
  by_cases hp : p = page
  · rw [if_pos (by omega), if_pos hp]
  · rw [if_neg (by omega), if_neg hp]

/-- A page that is written in part is fetched before, if it holds data. -/
theorem readForWrite_ends (partly : Bool) :
    Ends (fun _ s' => Fetched s s' ∧ (partly = true → s.HasData page → s'.IsRead page))
      (fun _ s' => Fetched s s' ∧ s.FailsRead) (readForWrite page partly s) := by
  refine get_bind (Ends.ite ?_ ?_)
  · intro hread
    simp only [Bool.and_eq_true, Bool.not_eq_true'] at hread
    have hnone : ∀ p, page ≤ p → p < page + 1 → ¬ s.IsRead p := by
      intro p hlow hhigh
      have hp : p = page := by omega
      rw [hp, Camera.IsRead, hread.2]
      exact Bool.false_ne_true
    have hbytes : page * pageSize + pageSize = page * pageSize + 1 * pageSize := by
      rw [Nat.one_mul]
    refine Ends.bind ((sendCmd_ends s _ _ _ _).mono (fun _ _ h => h) ?_) ?_
    · rintro _ s' ⟨hfault, bytes, hs'⟩
      have hgarbage := Fetched.garbage hnone bytes
      rw [Nat.one_mul] at hgarbage
      rw [hs']
      exact ⟨hgarbage, _, hfault⟩
    · rintro _ s1 ⟨hs1, _⟩
      have hfetched := Fetched.of_read hnone
      rw [Nat.one_mul, setPages_one] at hfetched
      rw [hs1]
      exact Ends.modify ⟨hfetched, fun _ _ => congrArg PageState.read (Camera.setPage_same _ _ _)⟩
  · intro hskip
    refine Ends.pure ⟨Fetched.refl s, ?_⟩
    intro hpartly hdata
    rw [Camera.HasData] at hdata
    cases hread : (s.pageState page).read with
    | true => exact hread
    | false =>
      rw [hpartly, hdata, hread] at hskip
      exact absurd rfl hskip

/-- The bytes of `buf` are written from `offset` on. -/
def Camera.put (s : Camera) (offset : Nat) (buf : List UInt8) : Camera :=
  { s with
    mem := within offset buf.length (fun a => buf.getD (a - offset) 0) s.mem
    logical := within offset buf.length (fun a => buf.getD (a - offset) 0) s.logical }.setPages
    (offset / pageSize) ((offset + buf.length - 1) / pageSize + 1 - offset / pageSize)
    fun f => { f with dirty := true, containsData := true, read := true }

@[simp] theorem put_mem :
    (s.put offset buf).mem =
      within offset buf.length (fun a => buf.getD (a - offset) 0) s.mem := rfl

@[simp] theorem put_logical :
    (s.put offset buf).logical =
      within offset buf.length (fun a => buf.getD (a - offset) 0) s.logical := rfl

/-- `tp6801_write_mem` fetches what it overwrites in part, and then writes. -/
theorem writeMem_ends :
    Ends
      (fun _ s' => ∃ s1, Fetched s s1 ∧ s' = s1.put offset buf ∧
        ((offset % pageSize != 0 || decide (buf.length < pageSize)) = true →
          s.HasData (offset / pageSize) → s1.IsRead (offset / pageSize)) ∧
        (((offset + buf.length) % pageSize != 0) = true →
          s.HasData ((offset + buf.length - 1) / pageSize) →
            s1.IsRead ((offset + buf.length - 1) / pageSize)))
      (fun _ s' => Fetched s s' ∧ (s.FailsRead ∨ s.memSize < offset + buf.length))
      (writeMem offset buf s) := by
  refine @Ends.bind _ _ _ _ _ _ (fun _ s' => s' = s) _ _ _ ?_ ?_
  · refine get_bind (Ends.ite ?_ ?_)
    · intro hbeyond
      exact Ends.throw ⟨Fetched.refl s, Or.inr hbeyond⟩
    · intro _
      exact Ends.pure rfl
  intro _ s' hs'
  rw [hs']
  refine Ends.bind ((readForWrite_ends s _ _).mono (fun _ _ h => h)
    fun _ _ h => ⟨h.1, Or.inl h.2⟩) ?_
  rintro _ s1 ⟨hfetched1, hfirst⟩
  refine Ends.bind ((readForWrite_ends s1 _ _).mono (fun _ _ h => h) ?_) ?_
  · rintro _ s2 ⟨hfetched2, hfails⟩
    rw [Camera.FailsRead, hfetched1.faults] at hfails
    exact ⟨hfetched1.trans hfetched2, Or.inl hfails⟩
  rintro _ s2 ⟨hfetched2, hlast⟩
  refine modify_bind (Ends.modify ⟨s2, hfetched1.trans hfetched2, rfl, ?_, ?_⟩)
  · intro hpartly hdata
    exact hfetched2.read _ (hfirst hpartly hdata)
  · intro hpartly hdata
    rw [Camera.HasData, hfetched1.containsData] at hlast
    exact hlast hpartly hdata

/-! ### Programming -/

/-- The page is programmed by `tp6801_program_block`. -/
def Camera.Selected (s : Camera) (withData : Bool) (p : Nat) : Prop :=
  s.IsDirty p ∨ withData = true ∧ s.HasData p

/-- The selected pages among the first `n` of a block were programmed. -/
structure Programmed (withData : Bool) (bsp n : Nat) (s s' : Camera) : Prop where
  frame : { s' with store := s.store, pageState := s.pageState, unerased := s.unerased } = s
  flags : ∀ p, bsp ≤ p → p < bsp + n → s.Selected withData p →
    s'.pageState p = { s.pageState p with dirty := false, needsErase := true }
  store : ∀ a, bsp ≤ a / pageSize → a / pageSize < bsp + n →
    s.Selected withData (a / pageSize) → s'.store a = s.programmedByte a
  sameFlags : ∀ p, ¬ (bsp ≤ p ∧ p < bsp + n ∧ s.Selected withData p) →
    s'.pageState p = s.pageState p
  sameStore : ∀ a, ¬ (bsp ≤ a / pageSize ∧ a / pageSize < bsp + n ∧
    s.Selected withData (a / pageSize)) → s'.store a = s.store a
  erased : (∀ p, bsp ≤ p → p < bsp + n → s.Selected withData p → s.pageErased p = true) →
    s'.unerased = s.unerased
  sent : ∀ p, bsp ≤ p → p < bsp + n → s.Selected withData p →
    s.faults (.programPage (p * pageSize)) = none

theorem Programmed.refl (bsp : Nat) (s : Camera) :
    Programmed withData bsp 0 s s where
  frame := rfl
  flags p hlow hhigh := absurd hlow (by omega)
  store a hlow hhigh := absurd hlow (by omega)
  sameFlags _ _ := rfl
  sameStore _ _ := rfl
  erased _ := rfl
  sent p hlow hhigh := absurd hlow (by omega)

theorem programPage_ends :
    Ends
      (fun _ s' => { s' with store := s.store, unerased := s.unerased } = s ∧
        s'.store = within (page * pageSize) pageSize s.programmedByte s.store ∧
        (s.pageErased page = true → s'.unerased = s.unerased) ∧
        s.faults (.programPage (page * pageSize)) = none)
      (fun _ s' => { s' with store := s.store, unerased := s.unerased } = s ∧
        (∃ garbage, s'.store =
          within (page * pageSize) pageSize (s.spoiltByte garbage) s.store) ∧
        s.faults (.programPage (page * pageSize)) ≠ none)
      (programPage (page * pageSize) s) := by
  have hpage : page * pageSize / pageSize = page := Nat.mul_div_cancel _ pageSize_pos
  refine modify_bind ?_
  rw [hpage]
  by_cases herased : s.pageErased page = true
  · rw [if_pos herased]
    refine (sendCmd_ends s _ _ _ _).mono ?_ ?_
    · rintro _ s' ⟨hs', hsent⟩
      rw [hs']
      exact ⟨rfl, rfl, fun _ => rfl, hsent⟩
    · rintro _ s' ⟨hfault, garbage, hs'⟩
      rw [hs']
      exact ⟨rfl, ⟨garbage, rfl⟩, hfault⟩
  · rw [if_neg herased]
    refine (sendCmd_ends _ _ _ _ _).mono ?_ ?_
    · rintro _ s' ⟨hs', hsent⟩
      rw [hs']
      exact ⟨rfl, rfl, fun h => absurd h herased, hsent⟩
    · rintro _ s' ⟨hfault, garbage, hs'⟩
      rw [hs']
      exact ⟨rfl, ⟨garbage, rfl⟩, hfault⟩

section

variable {withData : Bool} {bsp n : Nat} {s s1 s2 : Camera}

variable (h : Programmed withData bsp n s s1)
include h

theorem Programmed.mem : s1.mem = s.mem :=
  (congrArg Camera.mem h.frame :)

theorem Programmed.memDump : s1.memDump = s.memDump :=
  (congrArg Camera.memDump h.frame :)

theorem Programmed.faults : s1.faults = s.faults :=
  (congrArg Camera.faults h.frame :)

theorem Programmed.flags_next :
    s1.pageState (bsp + n) = s.pageState (bsp + n) :=
  h.sameFlags _ fun hin => absurd hin.2.1 (Nat.lt_irrefl _)

theorem Programmed.store_next {a : Nat}
    (ha : a / pageSize = bsp + n) : s1.store a = s.store a :=
  h.sameStore a fun hin => absurd (ha ▸ hin.2.1) (Nat.lt_irrefl _)

theorem Programmed.programmedByte_next {a : Nat}
    (ha : a / pageSize = bsp + n) : s1.programmedByte a = s.programmedByte a := by
  unfold Camera.programmedByte
  rw [h.memDump, h.mem, h.store_next ha]

theorem Programmed.skip
    (hskip : ¬ s.Selected withData (bsp + n)) : Programmed withData bsp (n + 1) s s1 where
  frame := h.frame
  flags p hlow hhigh hsel := by
    by_cases hlast : p = bsp + n
    · exact absurd (hlast ▸ hsel) hskip
    · exact h.flags p hlow (by omega) hsel
  store a hlow hhigh hsel := by
    by_cases hlast : a / pageSize = bsp + n
    · exact absurd (hlast ▸ hsel) hskip
    · exact h.store a hlow (by omega) hsel
  sameFlags p hout := h.sameFlags p fun hin => hout ⟨hin.1, by omega, hin.2.2⟩
  sameStore a hout := h.sameStore a fun hin => hout ⟨hin.1, by omega, hin.2.2⟩
  erased hall := h.erased fun p hlow hhigh => hall p hlow (by omega)
  sent p hlow hhigh hsel := by
    by_cases hlast : p = bsp + n
    · exact absurd (hlast ▸ hsel) hskip
    · exact h.sent p hlow (by omega) hsel

theorem Programmed.done (hsel : s.Selected withData (bsp + n))
    (hframe : { s2 with store := s1.store, unerased := s1.unerased } = s1)
    (hstore : s2.store = within ((bsp + n) * pageSize) pageSize s1.programmedByte s1.store)
    (herased : s1.pageErased (bsp + n) = true → s2.unerased = s1.unerased)
    (hsent : s1.faults (.programPage ((bsp + n) * pageSize)) = none) :
    Programmed withData bsp (n + 1) s
      (s2.setPage (bsp + n) fun f => { f with dirty := false, needsErase := true }) := by
  have hflags : s2.pageState = s1.pageState := (congrArg Camera.pageState hframe :)
  refine ⟨?_, ?_, ?_, ?_, ?_, ?_, ?_⟩
  · have h1 := h.frame
    have h2 := hframe
    rw [← h1, ← h2]
    rfl
  · intro p hlow hhigh hp
    by_cases hlast : p = bsp + n
    · rw [hlast, Camera.setPage_same, hflags, h.flags_next]
    · rw [Camera.setPage_other _ _ hlast, hflags]
      exact h.flags p hlow (by omega) hp
  · intro a hlow hhigh ha
    show s2.store a = _
    rw [hstore]
    by_cases hlast : a / pageSize = bsp + n
    · rw [within_inside (mem_page_iff.mpr hlast), h.programmedByte_next hlast]
    · rw [within_outside fun hin => hlast (mem_page_iff.mp hin)]
      exact h.store a hlow (by omega) ha
  · intro p hout
    have hlast : p ≠ bsp + n := fun hp => hout ⟨by omega, by omega, hp ▸ hsel⟩
    rw [Camera.setPage_other _ _ hlast, hflags]
    exact h.sameFlags p fun hin => hout ⟨hin.1, by omega, hin.2.2⟩
  · intro a hout
    have hlast : a / pageSize ≠ bsp + n := fun ha => hout ⟨by omega, by omega, ha ▸ hsel⟩
    show s2.store a = _
    rw [hstore, within_outside fun hin => hlast (mem_page_iff.mp hin)]
    exact h.sameStore a fun hin => hout ⟨hin.1, by omega, hin.2.2⟩
  · intro hall
    have hnext : s1.pageErased (bsp + n) = true := by
      rw [Camera.pageErased_iff]
      intro a ha
      rw [h.store_next ha]
      exact (Camera.pageErased_iff s _).mp (hall _ (by omega) (by omega) hsel) a ha
    exact (herased hnext).trans (h.erased fun p hlow hhigh => hall p hlow (by omega))
  · intro p hlow hhigh hp
    by_cases hlast : p = bsp + n
    · rw [hlast, ← h.faults]
      exact hsent
    · exact h.sent p hlow (by omega) hp

end

/-- The program command for a selected page of the block failed, behind those for the `n` pages
before it. -/
structure Spoilt (withData : Bool) (bsp n : Nat) (s s' : Camera) : Prop where
  inBlock : n < blockPageSize
  selected : s.Selected withData (bsp + n)
  fault : s.faults (.programPage ((bsp + n) * pageSize)) ≠ none
  before : ∃ s1, Programmed withData bsp n s s1 ∧
    { s' with store := s1.store, unerased := s1.unerased } = s1 ∧
    ∃ garbage, s'.store = within ((bsp + n) * pageSize) pageSize (s1.spoiltByte garbage) s1.store

/-- `tp6801_program_block` programs the selected pages one by one. -/
theorem programBlock_ends :
    Ends (fun _ s' => Programmed withData bsp blockPageSize s s')
      (fun _ s' => ∃ n, Spoilt withData bsp n s s') (programBlock bsp withData s) := by
  refine @Ends.forM_range _ _ _ (fun n s1 => Programmed withData bsp n s s1) _ _ _
    (Programmed.refl withData bsp s) ?_
  intro n s1 hn hprog
  refine get_bind (Ends.ite ?_ ?_)
  · intro hsel1
    have hsel : s.Selected withData (bsp + n) := by
      rw [hprog.flags_next, Bool.or_eq_true, Bool.and_eq_true] at hsel1
      exact hsel1
    refine Ends.bind ((programPage_ends s1 (bsp + n)).mono (fun _ _ h => h) ?_) ?_
    · rintro _ s' ⟨hframe, hstore, hfault⟩
      rw [hprog.faults] at hfault
      exact ⟨n, hn, hsel, hfault, s1, hprog, hframe, hstore⟩
    · rintro _ s2 ⟨hframe, hstore, herased, hsent⟩
      exact Ends.modify (hprog.done hsel hframe hstore herased hsent)
  · intro hsel1
    refine Ends.pure (hprog.skip ?_)
    intro hsel
    apply hsel1
    rw [hprog.flags_next, Bool.or_eq_true, Bool.and_eq_true]
    exact hsel

/-! ### Erasing -/

theorem eraseBlock_ends :
    Ends
      (fun _ s' => { s' with store := s.store, mem := s.mem } = s ∧
        s'.store = within (bsp * pageSize) blockSize (fun _ => erasedByte) s.store ∧
        s'.mem = if s.memDump then within (bsp * pageSize) blockSize (fun _ => erasedByte) s.mem
          else s.mem)
      (fun _ s' => { s' with store := s.store, mem := s.mem } = s ∧
        (∃ garbage, s'.store = within (bsp * pageSize) blockSize garbage s.store) ∧
        (s.memDump = false → s'.mem = s.mem) ∧
        s.faults (.eraseBlock (bsp * pageSize)) ≠ none)
      (eraseBlock (bsp * pageSize) s) := by
  refine modify_bind ?_
  by_cases hdump : s.memDump = true
  · rw [if_pos hdump, if_pos hdump]
    have hdevice : s.memDump = false → ∀ m : Nat → UInt8, m = s.mem := by
      intro h
      rw [hdump] at h
      cases h
    refine (sendCmd_ends _ _ _ _ _).mono ?_ ?_
    · rintro _ s' ⟨hs', _⟩
      rw [hs']
      exact ⟨rfl, rfl, rfl⟩
    · rintro _ s' ⟨hfault, garbage, hs'⟩
      rw [hs']
      exact ⟨rfl, ⟨garbage, rfl⟩, fun h => hdevice h _, hfault⟩
  · rw [if_neg hdump, if_neg hdump]
    refine (sendCmd_ends _ _ _ _ _).mono ?_ ?_
    · rintro _ s' ⟨hs', _⟩
      rw [hs']
      exact ⟨rfl, rfl, rfl⟩
    · rintro _ s' ⟨hfault, garbage, hs'⟩
      rw [hs']
      exact ⟨rfl, ⟨garbage, rfl⟩, fun _ => rfl, hfault⟩

theorem mem_block_iff {a bsp : Nat} :
    (bsp * pageSize ≤ a ∧ a < bsp * pageSize + blockSize) ↔
      bsp ≤ a / pageSize ∧ a / pageSize < bsp + blockPageSize :=
  @mem_pages_iff a bsp blockPageSize

/-- Step 1 of `tp6801_read_erase_program_block` fetches the pages of the block with data. -/
theorem readDataPages_ends {rounds i : Nat} (hrounds : blockPageSize ≤ i + rounds) (s : Camera)
    (bsp : Nat) :
    Ends (fun _ s' => Fetched s s' ∧
        ∀ p, bsp + i ≤ p → p < bsp + blockPageSize → s.HasData p → s'.IsRead p)
      (fun _ s' => Fetched s s' ∧ (s.FailsRead ∨ s.memSize < (bsp + blockPageSize) * pageSize))
      (readDataPages rounds bsp i s) := by
  induction rounds generalizing i s with
  | zero =>
    rw [readDataPages]
    exact ⟨Fetched.refl s, fun p hlow hhigh => absurd hlow (by omega)⟩
  | succ rounds ih =>
    rw [readDataPages]
    refine Ends.ite ?_ ?_
    swap
    · intro hbehind
      exact ⟨Fetched.refl s, fun p hlow hhigh => absurd hlow (by omega)⟩
    intro hin
    refine get_bind (Ends.ite ?_ ?_)
    · intro hdata
      have hpos : 0 < dataPages s bsp i := by
        obtain ⟨m, hm⟩ : ∃ m, blockPageSize - i = m + 1 := ⟨blockPageSize - i - 1, by omega⟩
        unfold dataPages
        rw [hm, List.range_succ_eq_map, List.takeWhile_cons, Nat.add_zero, hdata]
        exact Nat.succ_pos _
      have hle : dataPages s bsp i ≤ blockPageSize - i := by
        have hlen := (List.takeWhile_prefix (l := List.range (blockPageSize - i))
          fun k => (s.pageState (bsp + i + k)).containsData).length_le
        rwa [List.length_range] at hlen
      refine Ends.bind ((readMem_ends s _ _).mono (fun _ _ h => h) ?_) ?_
      · rintro _ s' ⟨hfetched, hwhy⟩
        refine ⟨hfetched, hwhy.imp_right fun hbeyond => ?_⟩
        rw [← Nat.add_mul] at hbeyond
        exact Nat.lt_of_lt_of_le hbeyond (Nat.mul_le_mul_right _ (by omega))
      rintro _ s1 ⟨hfetched, hread⟩
      have hpage : (bsp + i) * pageSize / pageSize = bsp + i := Nat.mul_div_cancel _ pageSize_pos
      have hcount : pagesOf ((bsp + i) * pageSize) (dataPages s bsp i * pageSize) =
          dataPages s bsp i := by
        unfold pagesOf pageSize
        omega
      rw [hpage, hcount] at hread
      refine (ih (by omega) s1).mono ?_ ?_
      swap
      · rintro _ s' ⟨hfetched', hwhy⟩
        rw [Camera.FailsRead, hfetched.faults, hfetched.memSize] at hwhy
        exact ⟨hfetched.trans hfetched', hwhy⟩
      rintro _ s' ⟨hfetched', hrest⟩
      refine ⟨hfetched.trans hfetched', ?_⟩
      intro p hlow hhigh hp
      by_cases hrun : p < bsp + i + dataPages s bsp i
      · exact hfetched'.read p (hread p hlow hrun)
      · apply hrest p (by omega) hhigh
        rw [Camera.HasData, hfetched.containsData]
        exact hp
    · intro hnone
      refine (ih (by omega) s).mono ?_ fun _ _ h => h
      rintro _ s' ⟨hfetched, hrest⟩
      refine ⟨hfetched, ?_⟩
      intro p hlow hhigh hp
      by_cases hfirst : p = bsp + i
      · exact absurd (hfirst ▸ hp) hnone
      · exact hrest p (by omega) hhigh hp

/-! ### Committing a block -/

/-- What committing the pages of `here` keeps: the copies of the pages that have been read, and
which pages hold data. No page becomes dirty, and those elsewhere stay dirty. -/
structure Kept (here : Nat → Prop) (s s' : Camera) : Prop where
  frame : { s' with
    mem := s.mem, pageState := s.pageState, store := s.store, unerased := s.unerased } = s
  read : ∀ p, s.IsRead p → s'.IsRead p
  same : ∀ a, s.IsRead (a / pageSize) → s'.mem a = s.mem a
  data : ∀ p, s'.HasData p ↔ s.HasData p
  dirty : ∀ p, s'.IsDirty p → s.IsDirty p
  elsewhere : ∀ p, ¬ here p → s.IsDirty p → s'.IsDirty p
  erase : ∀ p, s'.NeedsErase p → s.NeedsErase p ∨ here p ∧ (s.IsDirty p ∨ s.HasData p)

section

variable {here : Nat → Prop} {s s' s'' : Camera}

theorem Kept.refl (here : Nat → Prop) (s : Camera) : Kept here s s where
  frame := rfl
  read _ h := h
  same _ _ := rfl
  data _ := Iff.rfl
  dirty _ h := h
  elsewhere _ _ h := h
  erase _ h := Or.inl h

theorem Kept.trans (h : Kept here s s') (h' : Kept here s' s'') : Kept here s s'' where
  frame := by
    have h1 := h.frame
    have h2 := h'.frame
    rw [← h1, ← h2]
  read p hp := h'.read p (h.read p hp)
  same a ha := (h'.same a (h.read _ ha)).trans (h.same a ha)
  data p := (h'.data p).trans (h.data p)
  dirty p hp := h.dirty p (h'.dirty p hp)
  elsewhere p hout hp := h'.elsewhere p hout (h.elsewhere p hout hp)
  erase p hp := by
    rcases h'.erase p hp with hneeds | ⟨hin, hdirty | hdata⟩
    · exact h.erase p hneeds
    · exact Or.inr ⟨hin, Or.inl (h.dirty p hdirty)⟩
    · exact Or.inr ⟨hin, Or.inr ((h.data p).mp hdata)⟩

theorem Kept.mono {there : Nat → Prop} (h : Kept here s s') (hsub : ∀ p, here p → there p) :
    Kept there s s' :=
  { h with
    elsewhere := fun p hout => h.elsewhere p fun hp => hout (hsub p hp)
    erase := fun p hp => (h.erase p hp).imp_right fun hin => ⟨hsub p hin.1, hin.2⟩ }

theorem Fetched.kept (h : Fetched s s') : Kept here s s' where
  frame := by
    have h1 := h.frame
    conv_rhs => rw [← h1]
    rw [← h.store]
    have hunerased : s'.unerased = s.unerased := (congrArg Camera.unerased h1 :)
    rw [← hunerased]
  read := h.read
  same := h.same
  data p := by rw [Camera.HasData, h.containsData, Camera.HasData]
  dirty p hp := by rwa [Camera.IsDirty, h.dirty] at hp
  elsewhere p _ hp := by rwa [Camera.IsDirty, h.dirty]
  erase p hp := by
    rw [Camera.NeedsErase, h.needsErase] at hp
    exact Or.inl hp

/-- A command that keeps the copy, and of the flags of a page at most withdraws the need to erase
it, or marks it as programmed. -/
theorem Kept.of_flags
    (hframe : { s' with pageState := s.pageState, store := s.store, unerased := s.unerased } = s)
    (hflags : ∀ p, s'.pageState p = s.pageState p ∨
      s'.pageState p = { s.pageState p with needsErase := false } ∨
      here p ∧ (s.IsDirty p ∨ s.HasData p) ∧
        s'.pageState p = { s.pageState p with dirty := false, needsErase := true }) :
    Kept here s s' := by
  have hmem : s'.mem = s.mem := (congrArg Camera.mem hframe :)
  refine ⟨?_, ?_, fun a _ => by rw [hmem], ?_, ?_, ?_, ?_⟩
  · conv_rhs => rw [← hframe]
    rw [← hmem]
  · intro p hp
    rcases hflags p with hsame | hsame | ⟨-, -, hsame⟩ <;> rwa [Camera.IsRead, hsame]
  · intro p
    rcases hflags p with hsame | hsame | ⟨-, -, hsame⟩ <;>
      rw [Camera.HasData, hsame, Camera.HasData]
  · intro p hp
    rcases hflags p with hsame | hsame | ⟨-, -, hnew⟩
    · rwa [Camera.IsDirty, hsame] at hp
    · rwa [Camera.IsDirty, hsame] at hp
    · rw [Camera.IsDirty, hnew] at hp
      cases hp
  · intro p hout hp
    rcases hflags p with hsame | hsame | ⟨hin, -, -⟩
    · rwa [Camera.IsDirty, hsame]
    · rwa [Camera.IsDirty, hsame]
    · exact absurd hin hout
  · intro p hp
    rcases hflags p with hsame | hnew | ⟨hin, hwhy, -⟩
    · rw [Camera.NeedsErase, hsame] at hp
      exact Or.inl hp
    · rw [Camera.NeedsErase, hnew] at hp
      cases hp
    · exact Or.inr ⟨hin, hwhy⟩

theorem Programmed.kept {withData : Bool} {bsp n : Nat} (h : Programmed withData bsp n s s')
    (hhere : ∀ p, bsp ≤ p → p < bsp + n → here p) : Kept here s s' := by
  refine Kept.of_flags ?_ fun p => ?_
  · have h1 := h.frame
    conv_rhs => rw [← h1]
  · by_cases hin : bsp ≤ p ∧ p < bsp + n ∧ s.Selected withData p
    · exact Or.inr (Or.inr ⟨hhere p hin.1 hin.2.1, hin.2.2.imp_right And.right,
        h.flags p hin.1 hin.2.1 hin.2.2⟩)
    · exact Or.inl (h.sameFlags p hin)

theorem Spoilt.kept {withData : Bool} {bsp n : Nat} (h : Spoilt withData bsp n s s')
    (hhere : ∀ p, bsp ≤ p → p < bsp + blockPageSize → here p) : Kept here s s' := by
  obtain ⟨s1, hprog, hframe, -⟩ := h.before
  have hinBlock := h.inBlock
  have hflags : s'.pageState = s1.pageState := (congrArg Camera.pageState hframe :)
  refine (hprog.kept fun p hlow hhigh => hhere p hlow (by omega)).trans
    (Kept.of_flags ?_ fun p => Or.inl (congrFun hflags p))
  conv_rhs => rw [← hframe]
  rw [← hflags]

end

/-- The pages of a block. -/
def InBlock (bsp p : Nat) : Prop := bsp ≤ p ∧ p < bsp + blockPageSize

/-- The block was erased, and the flags of its pages say so. -/
structure BlockErased (bsp : Nat) (s s' : Camera) : Prop where
  frame : { s' with store := s.store, mem := s.mem, pageState := s.pageState } = s
  store : s'.store = within (bsp * pageSize) blockSize (fun _ => erasedByte) s.store
  mem_eq : s'.mem = if s.memDump then within (bsp * pageSize) blockSize (fun _ => erasedByte) s.mem
    else s.mem
  inside : ∀ p, InBlock bsp p → s'.pageState p = { s.pageState p with needsErase := false }
  outside : ∀ p, ¬ InBlock bsp p → s'.pageState p = s.pageState p

/-- The erase command for the block failed: there may be anything in it. -/
structure EraseFailed (bsp : Nat) (s s' : Camera) : Prop where
  frame : { s' with store := s.store, mem := s.mem } = s
  store : ∃ garbage, s'.store = within (bsp * pageSize) blockSize garbage s.store
  mem : s.memDump = false → s'.mem = s.mem
  fault : s.faults (.eraseBlock (bsp * pageSize)) ≠ none

section

variable {bsp : Nat} {s s' : Camera}

theorem BlockErased.mem (h : BlockErased bsp s s') (hdevice : s.memDump = false) :
    s'.mem = s.mem := by
  rw [h.mem_eq, hdevice, if_neg Bool.false_ne_true]

theorem BlockErased.kept (h : BlockErased bsp s s') (hdevice : s.memDump = false) :
    Kept (InBlock bsp) s s' := by
  have hframe := h.frame
  have hunerased : s'.unerased = s.unerased := (congrArg Camera.unerased hframe :)
  refine Kept.of_flags ?_ fun p => ?_
  · conv_rhs => rw [← hframe]
    rw [← hunerased, ← h.mem hdevice]
  · by_cases hin : InBlock bsp p
    · exact Or.inr (Or.inl (h.inside p hin))
    · exact Or.inl (h.outside p hin)

theorem EraseFailed.kept (h : EraseFailed bsp s s') (hdevice : s.memDump = false) :
    Kept (InBlock bsp) s s' := by
  have hframe := h.frame
  have hflags : s'.pageState = s.pageState := (congrArg Camera.pageState hframe :)
  have hunerased : s'.unerased = s.unerased := (congrArg Camera.unerased hframe :)
  refine Kept.of_flags ?_ fun p => Or.inl (congrFun hflags p)
  conv_rhs => rw [← hframe]
  rw [← hunerased, ← hflags, ← h.mem hdevice]

end

/-- Where `tp6801_read_erase_program_block` may fail. -/
inductive BlockFailed (bsp : Nat) (s s' : Camera) : Prop
  | read (fetched : Fetched s s')
      (why : s.FailsRead ∨ s.memSize < (bsp + blockPageSize) * pageSize)
  | erase (s1 : Camera) (fetched : Fetched s s1)
      (read : ∀ p, InBlock bsp p → s.HasData p → s1.IsRead p) (failed : EraseFailed bsp s1 s')
  | program (s1 s2 : Camera) (n : Nat) (fetched : Fetched s s1)
      (read : ∀ p, InBlock bsp p → s.HasData p → s1.IsRead p) (erased : BlockErased bsp s1 s2)
      (spoilt : Spoilt true bsp n s2 s')

theorem BlockErased.faults {bsp : Nat} {s s' : Camera} (h : BlockErased bsp s s') :
    s'.faults = s.faults := (congrArg Camera.faults h.frame :)

theorem BlockFailed.fails {bsp : Nat} {s s' : Camera} (h : BlockFailed bsp s s') :
    s.Fails ∨ s.memSize < (bsp + blockPageSize) * pageSize := by
  cases h with
  | read _ why => exact why.imp_left fun h => h.fails
  | erase s1 fetched _ failed =>
    have hfault := failed.fault
    rw [fetched.faults] at hfault
    exact Or.inl ⟨_, hfault⟩
  | program s1 s2 n fetched _ erased spoilt =>
    have hfault := spoilt.fault
    rw [erased.faults, fetched.faults] at hfault
    exact Or.inl ⟨_, hfault⟩

/-- The three steps of `tp6801_read_erase_program_block`. -/
theorem readEraseProgramBlock_ends :
    Ends
      (fun _ s' => ∃ s1 s2, Fetched s s1 ∧ (∀ p, InBlock bsp p → s.HasData p → s1.IsRead p) ∧
        BlockErased bsp s1 s2 ∧ Programmed true bsp blockPageSize s2 s')
      (fun _ s' => BlockFailed bsp s s') (readEraseProgramBlock bsp s) := by
  refine Ends.bind ((@readDataPages_ends blockPageSize 0 (by omega) s bsp).mono
    (fun _ _ h => h) fun _ _ h => .read h.1 h.2) ?_
  rintro _ s1 ⟨hfetched, hread⟩
  have hall : ∀ p, InBlock bsp p → s.HasData p → s1.IsRead p :=
    fun p hp => hread p hp.1 hp.2
  refine Ends.bind ((eraseBlock_ends s1 bsp).mono (fun _ _ h => h) ?_) ?_
  · rintro _ s' ⟨hframe, hstore, hmem, hfault⟩
    exact .erase s1 hfetched hall ⟨hframe, hstore, hmem, hfault⟩
  · rintro _ s2 ⟨hframe, hstore, hmem⟩
    refine modify_bind ?_
    have hflags : s2.pageState = s1.pageState := (congrArg Camera.pageState hframe :)
    have herased : BlockErased bsp s1
        (s2.setPages bsp blockPageSize fun f => { f with needsErase := false }) := by
      refine ⟨?_, hstore, hmem, ?_, ?_⟩
      · conv_rhs => rw [← hframe]
        rw [← hflags]
        rfl
      · intro p hp
        rw [Camera.setPages_inside _ _ hp, hflags]
      · intro p hp
        rw [Camera.setPages_outside _ _ hp, hflags]
    refine (programBlock_ends _ bsp true).mono ?_ ?_
    · intro _ s' hprog
      exact ⟨s1, _, hfetched, hall, herased, hprog⟩
    · rintro _ s' ⟨n, hspoilt⟩
      exact .program s1 _ n hfetched hall herased hspoilt

theorem blockNeedsErase_iff :
    s.blockNeedsErase bsp = true ↔ ∃ p, InBlock bsp p ∧ s.IsDirty p ∧ s.NeedsErase p := by
  unfold Camera.blockNeedsErase InBlock
  rw [List.any_eq_true]
  constructor
  · rintro ⟨i, hi, h⟩
    rw [List.mem_range] at hi
    rw [Bool.and_eq_true] at h
    exact ⟨bsp + i, ⟨by omega, by omega⟩, h⟩
  · rintro ⟨p, ⟨hlow, hhigh⟩, h⟩
    refine ⟨p - bsp, List.mem_range.mpr (by omega), ?_⟩
    rw [Nat.add_sub_cancel' hlow, Bool.and_eq_true]
    exact h

theorem blockDirty_iff :
    s.blockDirty bsp = true ↔ ∃ p, InBlock bsp p ∧ s.IsDirty p := by
  unfold Camera.blockDirty InBlock
  rw [List.any_eq_true]
  constructor
  · rintro ⟨i, hi, h⟩
    rw [List.mem_range] at hi
    exact ⟨bsp + i, ⟨by omega, by omega⟩, h⟩
  · rintro ⟨p, ⟨hlow, hhigh⟩, h⟩
    refine ⟨p - bsp, List.mem_range.mpr (by omega), ?_⟩
    rw [Nat.add_sub_cancel' hlow]
    exact h

/-- What is erased of a dump is erased of the copy too: there is nothing left to program. -/
theorem commitBlock_dump (hdump : s.memDump = true)
    (herase : s.blockNeedsErase bsp = true) :
    Ends
      (fun _ s' => { s' with
          mem := s.mem, pageState := s.pageState, store := s.store, unerased := s.unerased } = s ∧
        (∀ p, s'.HasData p ↔ s.HasData p) ∧
        ∀ a, InBlock bsp (a / pageSize) → s'.store a = erasedByte)
      (fun _ _ => s.Fails ∨ s.memSize < (bsp + blockPageSize) * pageSize) (commitBlock bsp s) := by
  have hdirty : ¬ (!s.blockDirty bsp) = true := by
    obtain ⟨p, hp, hd, _⟩ := (blockNeedsErase_iff s bsp).mp herase
    rw [(blockDirty_iff s bsp).mpr ⟨p, hp, hd⟩]
    exact Bool.false_ne_true
  refine get_bind ?_
  rw [if_neg hdirty, if_pos herase]
  refine (readEraseProgramBlock_ends s bsp).mono ?_ fun _ _ h => h.fails
  rintro _ s' ⟨s1, s2, hfetched, _, herased, hprog⟩
  have hdump1 : s1.memDump = true := by
    have hsame : s1.memDump = s.memDump := (congrArg Camera.memDump hfetched.frame :)
    rw [hsame, hdump]
  have hdump2 : s2.memDump = true := by
    have hsame : s2.memDump = s1.memDump := (congrArg Camera.memDump herased.frame :)
    rw [hsame, hdump1]
  have hkept1 : Kept (fun _ => False) s s1 := hfetched.kept
  have hkept3 : Kept (fun _ => True) s2 s' := hprog.kept fun _ _ _ => trivial
  refine ⟨?_, ?_, ?_⟩
  · rw [← hkept1.frame, ← herased.frame, ← hkept3.frame]
  · intro p
    have h2 : s2.HasData p ↔ s1.HasData p := by
      by_cases hp : InBlock bsp p
      · rw [Camera.HasData, herased.inside p hp, Camera.HasData]
      · rw [Camera.HasData, herased.outside p hp, Camera.HasData]
    rw [hkept3.data, h2, Camera.HasData, hfetched.containsData, Camera.HasData]
  · intro a ha
    have hin := mem_block_iff.mpr ha
    by_cases hsel : s2.Selected true (a / pageSize)
    · rw [hprog.store a ha.1 ha.2 hsel, Camera.programmedByte, if_pos hdump2, herased.mem_eq,
        if_pos hdump1]
      exact within_inside hin
    · rw [hprog.sameStore a fun h => hsel h.2.2, herased.store]
      exact within_inside hin

/-- Programming a block with its dirty pages leaves none of them dirty. -/
theorem Programmed.not_dirty {withData : Bool} {bsp : Nat} {s s' : Camera}
    (h : Programmed withData bsp blockPageSize s s') {p : Nat} (hp : InBlock bsp p) :
    ¬ s'.IsDirty p := by
  by_cases hsel : s.Selected withData p
  · rw [Camera.IsDirty, h.flags p hp.1 hp.2 hsel]
    exact Bool.false_ne_true
  · rw [Camera.IsDirty, h.sameFlags p fun hin => hsel hin.2.2]
    exact fun hdirty => hsel (Or.inl hdirty)

/-- What `tp6801_commit_block` keeps, with a device or where it need not erase. -/
theorem commitBlock_kept (hdevice : s.memDump = true → s.blockNeedsErase bsp = false) :
    Ends
      (fun _ s' => Kept (InBlock bsp) s s' ∧ (∀ p, InBlock bsp p → ¬ s'.IsDirty p) ∧
        (s.blockNeedsErase bsp = false →
          ∀ p, s.NeedsErase p ∨ InBlock bsp p ∧ s.IsDirty p → s'.NeedsErase p))
      (fun _ s' => Kept (InBlock bsp) s s' ∧
        (s.Fails ∨ s.memSize < (bsp + blockPageSize) * pageSize)) (commitBlock bsp s) := by
  refine get_bind (Ends.ite ?_ ?_)
  · intro hclean
    have hnone : ∀ p, InBlock bsp p → ¬ s.IsDirty p := by
      intro p hp hdirty
      rw [(blockDirty_iff s bsp).mpr ⟨p, hp, hdirty⟩] at hclean
      cases hclean
    refine Ends.pure ⟨Kept.refl _ s, hnone, ?_⟩
    intro _ p hp
    exact hp.resolve_right fun h => hnone p h.1 h.2
  · intro _
    refine Ends.ite ?_ ?_
    · intro herase
      have hnotDump : s.memDump = false := by
        cases hdump : s.memDump with
        | false => rfl
        | true =>
          rw [hdevice hdump] at herase
          cases herase
      have hnext : ∀ {s1}, Fetched s s1 → s1.memDump = false := by
        intro s1 hfetched
        have h : s1.memDump = s.memDump := (congrArg Camera.memDump hfetched.frame :)
        rw [h, hnotDump]
      refine (readEraseProgramBlock_ends s bsp).mono ?_ ?_
      · rintro _ s' ⟨s1, s2, hfetched, _, herased, hprog⟩
        refine ⟨(hfetched.kept.trans (herased.kept (hnext hfetched))).trans
          (hprog.kept fun p hlow hhigh => ⟨hlow, hhigh⟩), fun p hp => hprog.not_dirty hp, ?_⟩
        intro hno
        rw [hno] at herase
        cases herase
      · intro _ s' hfailed
        refine ⟨?_, hfailed.fails⟩
        cases hfailed with
        | read hfetched => exact hfetched.kept
        | erase s1 hfetched _ hfailed =>
          exact hfetched.kept.trans (hfailed.kept (hnext hfetched))
        | program s1 s2 n hfetched _ herased hspoilt =>
          exact (hfetched.kept.trans (herased.kept (hnext hfetched))).trans
            (hspoilt.kept fun p hlow hhigh => ⟨hlow, hhigh⟩)
    · intro _
      refine (programBlock_ends s bsp false).mono ?_ ?_
      · intro _ s' hprog
        refine ⟨hprog.kept fun p hlow hhigh => ⟨hlow, hhigh⟩,
          fun p hp => hprog.not_dirty hp, ?_⟩
        intro _ p hp
        by_cases hsel : InBlock bsp p ∧ s.Selected false p
        · rw [Camera.NeedsErase, hprog.flags p hsel.1.1 hsel.1.2 hsel.2]
        · rw [Camera.NeedsErase, hprog.sameFlags p fun hin => hsel ⟨⟨hin.1, hin.2.1⟩, hin.2.2⟩]
          exact hp.resolve_right fun hdirty => hsel ⟨hdirty.1, Or.inl hdirty.2⟩
      · rintro _ s' ⟨n, hspoilt⟩
        exact ⟨hspoilt.kept fun p hlow hhigh => ⟨hlow, hhigh⟩, Or.inl ⟨_, hspoilt.fault⟩⟩

end GPhoto2.Tp6801
