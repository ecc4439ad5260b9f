import GPhoto2.Lib.Outcome
import Mathlib.Data.List.GetD

/-!
# `GPhoto2.Lib.BlockCache`: a copy of a memory that is read block by block

A driver works on a copy of a device's memory. A block of the copy is read when it is first needed,
and what is written into the copy is marked as dirty. `BlockLayout.contents` is what the memory
should hold: the copy where the block is there, and the device elsewhere. Reading changes the copy
but not the contents (`Fetched.contents`), and what is read is the contents (`readMem_ends`);
writing lays the bytes over the contents (`writeMem_ends`). A block whose reading fails changes
nothing, whatever the failed command left in the copy. What is not dirty is on the device
(`BlockLayout.Backed`), and writing a block back makes it clean (`writeBack_ends`).
-/

set_option autoImplicit false

namespace GPhoto2.Lib

open Lib.Comp (Ends)

variable {ε K β : Type}

/-! ### Bytes over bytes -/

/-- `bytes` from `offset` on, and `old` elsewhere. -/
def overlay (offset : Nat) (bytes : List β) (old : Nat → β) (a : Nat) : β :=
  if offset ≤ a then bytes.getD (a - offset) (old a) else old a

@[simp] theorem overlay_nil (offset : Nat) (old : Nat → β) : overlay offset [] old = old := by
  funext a
  simp [overlay]

variable {offset : Nat}

theorem overlay_before {a : Nat} (bytes : List β) (old : Nat → β) (h : a < offset) :
    overlay offset bytes old a = old a := if_neg (by omega)

variable {bytes : List β} (old f : Nat → β) (d : β)

theorem overlay_behind {a : Nat}
    (h : offset + bytes.length ≤ a) : overlay offset bytes old a = old a := by
  rw [overlay, if_pos (by omega), List.getD_eq_default _ _ (by omega)]

theorem overlay_outside {a : Nat}
    (h : ¬ (offset ≤ a ∧ a < offset + bytes.length)) : overlay offset bytes old a = old a := by
  by_cases hlow : offset ≤ a
  · exact overlay_behind old (by omega)
  · exact overlay_before bytes old (by omega)

theorem overlay_inside {a : Nat} (hlow : offset ≤ a)
    (hhigh : a < offset + bytes.length) :
    overlay offset bytes old a = bytes.getD (a - offset) d := by
  have hlt : a - offset < bytes.length := by omega
  rw [overlay, if_pos hlow, List.getD_eq_getElem _ _ hlt, List.getD_eq_getElem _ _ hlt]

/-- Bytes can be laid over in two parts. -/
theorem overlay_append (offset : Nat) (bytes more : List β) (old : Nat → β) :
    overlay (offset + bytes.length) more (overlay offset bytes old) =
      overlay offset (bytes ++ more) old := by
  funext a
  by_cases hmore : offset + bytes.length ≤ a
  · rw [overlay, if_pos hmore, overlay_behind old hmore, overlay, if_pos (by omega),
      List.getD_append_right _ _ _ _ (by omega), Nat.sub_sub]
  · rw [overlay_before _ _ (by omega)]
    by_cases hlow : offset ≤ a
    · rw [overlay, if_pos hlow, overlay, if_pos hlow, List.getD_append _ _ _ _ (by omega)]
    · rw [overlay_before _ _ (by omega), overlay_before _ _ (by omega)]

/-- The `len` bytes from `offset` on. -/
def bytesFrom (f : Nat → β) (offset len : Nat) : List β :=
  (List.range len).map fun i => f (offset + i)

@[simp] theorem length_bytesFrom (offset len : Nat) :
    (bytesFrom f offset len).length = len := by
  simp [bytesFrom]

@[simp] theorem bytesFrom_zero (offset : Nat) : bytesFrom f offset 0 = [] := rfl

theorem bytesFrom_add (offset m n : Nat) :
    bytesFrom f offset (m + n) = bytesFrom f offset m ++ bytesFrom f (offset + m) n := by
  simp [bytesFrom, List.range_add, Nat.add_assoc]

theorem getD_bytesFrom {len i : Nat} (h : i < len) :
    (bytesFrom f offset len).getD i d = f (offset + i) := by
  simp [bytesFrom, h]

theorem bytesFrom_congr {f g : Nat → β} {len : Nat}
    (h : ∀ a, offset ≤ a → a < offset + len → f a = g a) :
    bytesFrom f offset len = bytesFrom g offset len := by
  refine List.map_congr_left ?_
  intro i hi
  rw [List.mem_range] at hi
  exact h _ (by omega) (by omega)

theorem bytesFrom_overlay (offset : Nat) {n : Nat} (h : n ≤ bytes.length)
    (old : Nat → β) : bytesFrom (overlay offset bytes old) offset n = bytes.take n := by
  refine List.ext_getElem (by simp [h]) ?_
  intro i h1 h2
  rw [length_bytesFrom] at h1
  have hlt : i < bytes.length := by omega
  have hget : (bytesFrom (overlay offset bytes old) offset n)[i] =
      overlay offset bytes old (offset + i) := by
    simp [bytesFrom]
  rw [List.getElem_take]
  refine hget.trans ?_
  rw [overlay, if_pos (by omega), Nat.add_sub_cancel_left, List.getD_eq_getElem _ _ hlt]

-- the elaborator must not evaluate bytes whose number is a literal
attribute [irreducible] bytesFrom

/-! ### The copy -/

/-- How a command fails: the error, and what it leaves behind. -/
structure BlockFault (ε β : Type) where
  code : ε
  garbage : Nat → β

/-- The copy, a table of flags for its blocks, and the memory behind it. The commands that fail are
those that have a fault. -/
structure BlockCache (ε K β : Type) where
  mem : Nat → β
  present : Nat → Bool
  dirty : Nat → Bool
  store : Nat → β
  faults : K → Option (BlockFault ε β)

/-- Mark a block as being there. -/
def BlockCache.markPresent (s : BlockCache ε K β) (block : Nat) : BlockCache ε K β :=
  { s with present := fun b => if b = block then true else s.present b }

/-- Lay bytes of a block over the copy, and mark the block as dirty. -/
def BlockCache.put (s : BlockCache ε K β) (block offset : Nat) (bytes : List β) :
    BlockCache ε K β :=
  { s with
    mem := overlay offset bytes s.mem
    dirty := fun b => if b = block then true else s.dirty b }

/-- What stays the same: the size of the blocks, of the tables of flags and of the memory, the error
for what is beyond its end, and the command that reads a block. -/
structure BlockLayout (ε K : Type) where
  blockSize : Nat
  blockSize_pos : 0 < blockSize
  slots : Nat
  memSize : Nat
  beyond : ε
  readCmd : Nat → K

namespace BlockLayout

variable (L : BlockLayout ε K)

/-- What the memory should hold. -/
def contents (s : BlockCache ε K β) (a : Nat) : β :=
  if s.present (a / L.blockSize) then s.mem a else s.store a

/-- Put the bytes of a block into the copy. -/
def fill (s : BlockCache ε K β) (block : Nat) (bytes : Nat → β) : BlockCache ε K β :=
  { s with mem := fun a => if a / L.blockSize = block then bytes a else s.mem a }

/-- Read a block from the device. -/
def readBlock (block : Nat) : Comp (BlockCache ε K β) ε Unit := do
  let s ← Comp.get
  match s.faults (L.readCmd block) with
  | none => Comp.modify fun s => L.fill s block s.store
  | some fault =>
    Comp.modify fun s => L.fill s block fault.garbage
    Comp.throw fault.code

/-- Make sure that a block is in the copy. A block without a place in the tables is no block. -/
def checkPresent (block : Nat) : Comp (BlockCache ε K β) ε Unit := do
  if (block + 1) * L.blockSize > L.memSize then
    Comp.throw L.beyond
  else if L.slots ≤ block then
    Comp.stuck
  else do
    let s ← Comp.get
    if s.present block then
      pure ()
    else do
      L.readBlock block
      Comp.modify fun s => s.markPresent block

/-- How many of `len` bytes are in the block of the first one. -/
def toCopy (offset len : Nat) : Nat := min (L.blockSize - offset % L.blockSize) len

/-- Read `len` bytes, block by block. The first argument bounds the rounds. -/
def readLoop : Nat → Nat → Nat → Nat → Comp (BlockCache ε K β) ε (List β)
  | _, _, _, 0 => pure []
  | 0, _, _, _ + 1 => Comp.stuck
  | rounds + 1, block, offset, len + 1 => do
    L.checkPresent block
    let s ← Comp.get
    let rest ← readLoop rounds (block + 1) (offset + L.toCopy offset (len + 1))
      (len + 1 - L.toCopy offset (len + 1))
    pure (bytesFrom s.mem offset (L.toCopy offset (len + 1)) ++ rest)

/-- Read `len` bytes. -/
def readMem (offset len : Nat) : Comp (BlockCache ε K β) ε (List β) :=
  L.readLoop len (offset / L.blockSize) offset len

/-- Write bytes, block by block. The first argument bounds the rounds. -/
def writeLoop : Nat → Nat → Nat → List β → Comp (BlockCache ε K β) ε Unit
  | _, _, _, [] => pure ()
  | 0, _, _, _ :: _ => Comp.stuck
  | rounds + 1, block, offset, b :: bytes => do
    L.checkPresent block
    Comp.modify fun s =>
      s.put block offset ((b :: bytes).take (L.toCopy offset (bytes.length + 1)))
    writeLoop rounds (block + 1) (offset + L.toCopy offset (bytes.length + 1))
      ((b :: bytes).drop (L.toCopy offset (bytes.length + 1)))

/-- Write bytes. -/
def writeMem (offset : Nat) (bytes : List β) : Comp (BlockCache ε K β) ε Unit :=
  L.writeLoop bytes.length (offset / L.blockSize) offset bytes

theorem toCopy_pos (offset len : Nat) : 0 < L.toCopy offset (len + 1) := by
  have hlt := Nat.mod_lt offset L.blockSize_pos
  unfold toCopy
  omega

theorem toCopy_le (offset len : Nat) : L.toCopy offset len ≤ len := Nat.min_le_right _ _

/-- The bytes that are copied in one round are in one block. -/
theorem block_of_toCopy {offset len a : Nat} (hlow : offset ≤ a)
    (hhigh : a < offset + L.toCopy offset len) : a / L.blockSize = offset / L.blockSize := by
  have hle : L.toCopy offset len ≤ L.blockSize - offset % L.blockSize := Nat.min_le_left _ _
  have hlt := Nat.mod_lt offset L.blockSize_pos
  have hdiv := Nat.div_add_mod offset L.blockSize
  refine Nat.div_eq_of_lt_le ?_ ?_
  · rw [Nat.mul_comm]
    omega
  · rw [Nat.add_one_mul, Nat.mul_comm]
    omega

/-- What is left begins with the next block. -/
theorem block_behind {offset len : Nat} (h : L.toCopy offset len < len) :
    (offset + L.toCopy offset len) / L.blockSize = offset / L.blockSize + 1 := by
  have heq : L.toCopy offset len = L.blockSize - offset % L.blockSize := by
    unfold toCopy at h ⊢
    omega
  have hlt := Nat.mod_lt offset L.blockSize_pos
  have hdiv := Nat.div_add_mod offset L.blockSize
  have hsum : offset + L.toCopy offset len = L.blockSize * (offset / L.blockSize + 1) := by
    rw [heq, Nat.mul_add_one]
    omega
  rw [hsum, Nat.mul_div_cancel_left _ L.blockSize_pos]

end BlockLayout

/-! ### Reading -/

/-- Blocks were read into the copy, and nothing else has changed. -/
structure Fetched (L : BlockLayout ε K) (s s' : BlockCache ε K β) : Prop where
  frame : { s' with mem := s.mem, present := s.present } = s
  present : ∀ b, s.present b = true → s'.present b = true
  contents : L.contents s' = L.contents s

/-- The byte at `a` cannot be had: its block is beyond the end, or it is missing and the command
that reads it fails. -/
def Refused (L : BlockLayout ε K) (s : BlockCache ε K β) (a : Nat) : Prop :=
  L.memSize < (a / L.blockSize + 1) * L.blockSize ∨
    s.present (a / L.blockSize) = false ∧ s.faults (L.readCmd (a / L.blockSize)) ≠ none

section

variable {L : BlockLayout ε K} {s s' s'' : BlockCache ε K β}

theorem Refused.of_present (hmore : ∀ b, s.present b = true → s'.present b = true)
    (hfaults : s'.faults = s.faults) {a : Nat} (hrefused : Refused L s' a) : Refused L s a := by
  rcases hrefused with hend | ⟨hmissing, hfault⟩
  · exact Or.inl hend
  · rw [hfaults] at hfault
    refine Or.inr ⟨?_, hfault⟩
    cases hpresent : s.present (a / L.blockSize) with
    | false => rfl
    | true => exact absurd (hmore _ hpresent) (by simp [hmissing])

theorem Fetched.refl (L : BlockLayout ε K) (s : BlockCache ε K β) : Fetched L s s :=
  ⟨rfl, fun _ h => h, rfl⟩

section
variable (h : Fetched L s s')
include h

theorem Fetched.dirty : s'.dirty = s.dirty :=
  (congrArg BlockCache.dirty h.frame :)

theorem Fetched.store : s'.store = s.store :=
  (congrArg BlockCache.store h.frame :)

theorem Fetched.faults : s'.faults = s.faults :=
  (congrArg BlockCache.faults h.frame :)

theorem Fetched.trans (h' : Fetched L s' s'') : Fetched L s s'' := by
  refine ⟨?_, fun b hb => h'.present b (h.present b hb), h'.contents.trans h.contents⟩
  have h1 := h.frame
  have h2 := h'.frame
  rw [← h1, ← h2]

theorem Fetched.refused {a : Nat} (hrefused : Refused L s' a) :
    Refused L s a :=
  hrefused.of_present h.present h.faults

end

/-- A missing block is filled with anything. -/
theorem Fetched.fill {block : Nat} (bytes : Nat → β) (hmissing : s.present block = false) :
    Fetched L s (L.fill s block bytes) := by
  refine ⟨rfl, fun _ h => h, ?_⟩
  funext a
  show (if s.present (a / L.blockSize) then (if a / L.blockSize = block then bytes a else s.mem a)
    else s.store a) = L.contents s a
  by_cases ha : a / L.blockSize = block
  · rw [ha, hmissing, BlockLayout.contents, ha, hmissing]
    rfl
  · rw [if_neg ha, BlockLayout.contents]

/-- A missing block is filled from the device. -/
theorem Fetched.load (L : BlockLayout ε K) {block : Nat} (hmissing : s.present block = false) :
    Fetched L s ((L.fill s block s.store).markPresent block) := by
  refine ⟨rfl, ?_, ?_⟩
  · intro b hb
    show (if b = block then true else s.present b) = true
    rw [hb, ite_self]
  · funext a
    show (if (if a / L.blockSize = block then true else s.present (a / L.blockSize)) = true then
      (if a / L.blockSize = block then s.store a else s.mem a) else s.store a) = L.contents s a
    by_cases ha : a / L.blockSize = block
    · rw [if_pos ha, if_pos ha, BlockLayout.contents, ha, hmissing]
      rfl
    · rw [if_neg ha, if_neg ha, BlockLayout.contents]

end

namespace BlockLayout

variable (L : BlockLayout ε K)

theorem checkPresent_ends (hslots : L.memSize < (L.slots + 1) * L.blockSize) (s : BlockCache ε K β)
    (a : Nat) :
    Ends
      (fun _ s' => Fetched L s s' ∧ s'.present (a / L.blockSize) = true ∧ ¬ Refused L s a)
      (fun _ s' => Fetched L s s' ∧ Refused L s a) (L.checkPresent (a / L.blockSize) s) := by
  refine Ends.ite ?_ ?_
  · intro hend
    exact Ends.throw ⟨Fetched.refl L s, Or.inl hend⟩
  intro hend
  refine Ends.ite ?_ ?_
  · intro hslot
    have hmul := Nat.mul_le_mul_right L.blockSize hslot
    rw [Nat.add_one_mul] at hend hslots
    omega
  intro _
  refine Ends.get_bind (Ends.ite ?_ ?_)
  · intro hpresent
    refine Ends.pure ⟨Fetched.refl L s, hpresent, ?_⟩
    rintro (hbeyond | ⟨hmissing, -⟩)
    · exact hend hbeyond
    · rw [hpresent] at hmissing
      cases hmissing
  intro hpresent
  have hmissing : s.present (a / L.blockSize) = false := by simpa using hpresent
  cases hfault : s.faults (L.readCmd (a / L.blockSize)) with
  | none =>
    have hrun : L.readBlock (a / L.blockSize) s =
        some (.ok (), L.fill s (a / L.blockSize) s.store) := by
      simp only [readBlock, Comp.get_bind_run, hfault, Comp.modify_run]
    rw [Comp.bind_run_ok hrun]
    refine Ends.modify ⟨Fetched.load L hmissing, if_pos rfl, ?_⟩
    rintro (hbeyond | ⟨-, hrefused⟩)
    · exact hend hbeyond
    · exact hrefused hfault
  | some fault =>
    have hrun : L.readBlock (a / L.blockSize) s =
        some (.error fault.code, L.fill s (a / L.blockSize) fault.garbage) := by
      simp only [readBlock, Comp.get_bind_run, hfault, Comp.modify_bind_run, Comp.throw_run]
    rw [Comp.bind_run_error hrun]
    refine ⟨Fetched.fill fault.garbage hmissing, Or.inr ⟨hmissing, ?_⟩⟩
    rw [hfault]
    simp

theorem contents_of_present {s : BlockCache ε K β} {a : Nat}
    (h : s.present (a / L.blockSize) = true) : s.mem a = L.contents s a := by
  rw [contents, if_pos h]

variable (hslots : L.memSize < (L.slots + 1) * L.blockSize)
include hslots

theorem readLoop_ends (rounds : Nat) :
    ∀ (s : BlockCache ε K β) (block offset len : Nat), len ≤ rounds →
      (len ≠ 0 → block = offset / L.blockSize) →
      Ends
        (fun bytes s' => Fetched L s s' ∧ bytes = bytesFrom (L.contents s) offset len ∧
          ∀ a, offset ≤ a → a < offset + len → s'.present (a / L.blockSize) = true)
        (fun _ s' => Fetched L s s' ∧ ∃ a, offset ≤ a ∧ a < offset + len ∧ Refused L s a)
        (L.readLoop rounds block offset len s) := by
  induction rounds with
  | zero =>
    intro s block offset len hlen _
    obtain rfl : len = 0 := by omega
    exact Ends.pure ⟨Fetched.refl L s, (bytesFrom_zero _ _).symm,
      fun a hlow hhigh => absurd hhigh (by omega)⟩
  | succ rounds ih =>
    intro s block offset len hlen hblock
    cases len with
    | zero =>
      exact Ends.pure ⟨Fetched.refl L s, (bytesFrom_zero _ _).symm,
      fun a hlow hhigh => absurd hhigh (by omega)⟩
    | succ len =>
      have hpos := L.toCopy_pos offset len
      have hle := L.toCopy_le offset (len + 1)
      rw [hblock (by omega)]
      refine Ends.bind ((L.checkPresent_ends hslots s offset).mono (fun _ _ h => h) ?_) ?_
      · rintro _ s' ⟨hs', hrefused⟩
        exact ⟨hs', offset, Nat.le_refl _, by omega, hrefused⟩
      rintro _ s1 ⟨hfetched, hpresent, -⟩
      refine Ends.get_bind ?_
      refine Ends.bind ((ih s1 _ _ _ (by omega) ?_).mono (fun _ _ h => h) ?_) ?_
      · intro hmore
        exact (L.block_behind (by omega)).symm
      · rintro _ s' ⟨hs', a, hlow, hhigh, hrefused⟩
        exact ⟨hfetched.trans hs', a, by omega, by omega, hfetched.refused hrefused⟩
      rintro rest s' ⟨hs', hrest, hloaded⟩
      refine Ends.pure ⟨hfetched.trans hs', ?_, ?_⟩
      · have hfirst : bytesFrom s1.mem offset (L.toCopy offset (len + 1)) =
            bytesFrom (L.contents s1) offset (L.toCopy offset (len + 1)) := by
          refine bytesFrom_congr ?_
          intro a hlow hhigh
          refine L.contents_of_present ?_
          rw [L.block_of_toCopy hlow hhigh]
          exact hpresent
        rw [hfirst, hrest, hfetched.contents, ← bytesFrom_add]
        congr 1
        omega
      · intro a hlow hhigh
        by_cases hfirst : a < offset + L.toCopy offset (len + 1)
        · rw [L.block_of_toCopy hlow hfirst]
          exact hs'.present _ hpresent
        · exact hloaded a (by omega) (by omega)

/-- What is read is the contents. -/
theorem readMem_ends (s : BlockCache ε K β)
    (offset len : Nat) :
    Ends
      (fun bytes s' => Fetched L s s' ∧ bytes = bytesFrom (L.contents s) offset len ∧
        ∀ a, offset ≤ a → a < offset + len → s'.present (a / L.blockSize) = true)
      (fun _ s' => Fetched L s s' ∧ ∃ a, offset ≤ a ∧ a < offset + len ∧ Refused L s a)
      (L.readMem offset len s) :=
  L.readLoop_ends hslots len s _ offset len (Nat.le_refl _) fun _ => rfl

end BlockLayout

/-! ### Writing -/

/-- Bytes were laid over the contents. -/
structure Written (L : BlockLayout ε K) (offset : Nat) (bytes : List β) (s s' : BlockCache ε K β) :
    Prop where
  frame : { s' with mem := s.mem, present := s.present, dirty := s.dirty } = s
  contents : L.contents s' = overlay offset bytes (L.contents s)
  present : ∀ b, s.present b = true → s'.present b = true
  loaded : ∀ a, offset ≤ a → a < offset + bytes.length → s'.present (a / L.blockSize) = true
  dirty : ∀ b, s'.dirty b = true ↔ s.dirty b = true ∨
    ∃ a, offset ≤ a ∧ a < offset + bytes.length ∧ a / L.blockSize = b

section

variable {L : BlockLayout ε K} {s s' s'' : BlockCache ε K β} {offset : Nat} {bytes more : List β}

theorem Written.store (h : Written L offset bytes s s') : s'.store = s.store :=
  (congrArg BlockCache.store h.frame :)

theorem Written.faults (h : Written L offset bytes s s') : s'.faults = s.faults :=
  (congrArg BlockCache.faults h.frame :)

theorem Written.of_fetched (offset : Nat) (h : Fetched L s s') : Written L offset [] s s' := by
  refine ⟨?_, ?_, h.present, ?_, ?_⟩
  · have hframe := h.frame
    have hdirty := h.dirty
    conv_rhs => rw [← hframe]
    rw [hdirty]
  · rw [overlay_nil, h.contents]
  · intro a hlow hhigh
    exact absurd hhigh (by simpa using hlow)
  · intro b
    rw [h.dirty]
    constructor
    · exact Or.inl
    · rintro (hd | ⟨a, hlow, hhigh, _⟩)
      · exact hd
      · exact absurd hhigh (by simpa using hlow)

theorem Written.refused {a : Nat} (h : Written L offset bytes s s') (hrefused : Refused L s' a) :
    Refused L s a :=
  hrefused.of_present h.present h.faults

/-- The bytes that come next are written behind them. -/
theorem Written.append (h : Written L offset bytes s s')
    (h' : Written L (offset + bytes.length) more s' s'') :
    Written L offset (bytes ++ more) s s'' := by
  refine ⟨?_, ?_, fun b hb => h'.present b (h.present b hb), ?_, ?_⟩
  · have h1 := h.frame
    have h2 := h'.frame
    rw [← h1, ← h2]
  · rw [h'.contents, h.contents, overlay_append]
  · intro a hlow hhigh
    rw [List.length_append] at hhigh
    by_cases hfirst : a < offset + bytes.length
    · exact h'.present _ (h.loaded a hlow hfirst)
    · exact h'.loaded a (by omega) (by omega)
  · intro b
    rw [h'.dirty, h.dirty, List.length_append]
    constructor
    · rintro ((hd | ⟨a, hlow, hhigh, hb⟩) | ⟨a, hlow, hhigh, hb⟩)
      · exact Or.inl hd
      · exact Or.inr ⟨a, hlow, by omega, hb⟩
      · exact Or.inr ⟨a, by omega, by omega, hb⟩
    · rintro (hd | ⟨a, hlow, hhigh, hb⟩)
      · exact Or.inl (Or.inl hd)
      · by_cases hfirst : a < offset + bytes.length
        · exact Or.inl (Or.inr ⟨a, hlow, hfirst, hb⟩)
        · exact Or.inr ⟨a, by omega, by omega, hb⟩

/-- Bytes of one block, which is in the copy, are laid over it. -/
theorem Written.put (hpos : 0 < bytes.length)
    (hblock : ∀ a, offset ≤ a → a < offset + bytes.length →
      a / L.blockSize = offset / L.blockSize)
    (hpresent : s.present (offset / L.blockSize) = true) :
    Written L offset bytes s (s.put (offset / L.blockSize) offset bytes) := by
  refine ⟨rfl, ?_, fun _ h => h, ?_, ?_⟩
  · funext a
    show (if s.present (a / L.blockSize) then overlay offset bytes s.mem a else s.store a) = _
    by_cases hin : offset ≤ a ∧ a < offset + bytes.length
    · have hlt : a - offset < bytes.length := by omega
      rw [hblock a hin.1 hin.2, if_pos hpresent, overlay, overlay, if_pos hin.1, if_pos hin.1,
        List.getD_eq_getElem _ _ hlt, List.getD_eq_getElem _ _ hlt]
    · rw [overlay_outside _ hin, overlay_outside _ hin, BlockLayout.contents]
  · intro a hlow hhigh
    rw [hblock a hlow hhigh]
    exact hpresent
  · intro b
    show (if b = offset / L.blockSize then true else s.dirty b) = true ↔ _
    by_cases hb : b = offset / L.blockSize
    · rw [if_pos hb]
      exact ⟨fun _ => Or.inr ⟨offset, Nat.le_refl _, by omega, hb.symm⟩, fun _ => rfl⟩
    · rw [if_neg hb]
      constructor
      · exact Or.inl
      · rintro (hd | ⟨a, hlow, hhigh, ha⟩)
        · exact hd
        · exact absurd (ha.symm.trans (hblock a hlow hhigh)) hb

theorem Fetched.written (h : Fetched L s s') (h' : Written L offset bytes s' s'') :
    Written L offset bytes s s'' := by
  have happend := Written.append (Written.of_fetched offset h) h'
  rwa [List.nil_append] at happend

end

namespace BlockLayout

variable (L : BlockLayout ε K)

theorem writeLoop_ends (hslots : L.memSize < (L.slots + 1) * L.blockSize) (rounds : Nat) :
    ∀ (s : BlockCache ε K β) (block offset : Nat) (bytes : List β), bytes.length ≤ rounds →
      (bytes ≠ [] → block = offset / L.blockSize) →
      Ends (fun _ s' => Written L offset bytes s s')
        (fun _ s' => ∃ n < bytes.length, Written L offset (bytes.take n) s s' ∧
          Refused L s (offset + n) ∧ (n = 0 ∨ (offset + n) % L.blockSize = 0))
        (L.writeLoop rounds block offset bytes s) := by
  induction rounds with
  | zero =>
    intro s block offset bytes hlen _
    obtain rfl : bytes = [] := List.eq_nil_of_length_eq_zero (by omega)
    exact Ends.pure (Written.of_fetched offset (Fetched.refl L s))
  | succ rounds ih =>
    intro s block offset bytes hlen hblock
    cases bytes with
    | nil => exact Ends.pure (Written.of_fetched offset (Fetched.refl L s))
    | cons b bytes =>
      have hpos := L.toCopy_pos offset bytes.length
      have hle := L.toCopy_le offset (bytes.length + 1)
      have htake : ((b :: bytes).take (L.toCopy offset (bytes.length + 1))).length =
          L.toCopy offset (bytes.length + 1) := by
        rw [List.length_take, List.length_cons]
        omega
      rw [hblock (by simp)]
      refine Ends.bind ((L.checkPresent_ends hslots s offset).mono (fun _ _ h => h) ?_) ?_
      · rintro _ s' ⟨hs', hrefused⟩
        exact ⟨0, by simp, Written.of_fetched offset hs', hrefused, Or.inl rfl⟩
      rintro _ s1 ⟨hfetched, hpresent, -⟩
      refine Ends.modify_bind ?_
      have hput := hfetched.written (Written.put (by omega)
        (fun a hlow hhigh => L.block_of_toCopy hlow (htake ▸ hhigh)) hpresent)
      have hrest := ih (s1.put (offset / L.blockSize) offset
        ((b :: bytes).take (L.toCopy offset (bytes.length + 1)))) (offset / L.blockSize + 1)
        (offset + L.toCopy offset (bytes.length + 1))
        ((b :: bytes).drop (L.toCopy offset (bytes.length + 1)))
        (by
          rw [List.length_drop]
          rw [List.length_cons] at hlen ⊢
          omega)
        (by
          intro hmore
          refine (L.block_behind ?_).symm
          by_contra hnot
          exact hmore (List.drop_eq_nil_of_le (by rw [List.length_cons]; omega)))
      refine hrest.mono ?_ ?_
      · intro _ s' hs'
        rw [← List.take_append_drop (L.toCopy offset (bytes.length + 1)) (b :: bytes)]
        refine hput.append ?_
        rw [htake]
        exact hs'
      · rintro _ s' ⟨n, hn, hs', hrefused, haligned⟩
        rw [List.length_drop, List.length_cons] at hn
        refine ⟨L.toCopy offset (bytes.length + 1) + n, by rw [List.length_cons]; omega, ?_, ?_, ?_⟩
        · rw [List.take_add]
          refine hput.append ?_
          rw [htake]
          exact hs'
        · rw [← Nat.add_assoc]
          exact hput.refused hrefused
        · refine Or.inr ?_
          rw [← Nat.add_assoc]
          rcases haligned with rfl | haligned
          · have heq : L.toCopy offset (bytes.length + 1) = L.blockSize - offset % L.blockSize := by
              unfold toCopy at hn ⊢
              omega
            have hlt := Nat.mod_lt offset L.blockSize_pos
            have hdiv := Nat.div_add_mod offset L.blockSize
            have hsum : offset + L.toCopy offset (bytes.length + 1) + 0 =
                L.blockSize * (offset / L.blockSize + 1) := by
              rw [heq, Nat.mul_add_one]
              omega
            rw [hsum, Nat.mul_mod_right]
          · exact haligned

/-- What is written is laid over the contents, up to the first block that cannot be had. -/
theorem writeMem_ends (hslots : L.memSize < (L.slots + 1) * L.blockSize) (s : BlockCache ε K β)
    (offset : Nat) (bytes : List β) :
    Ends (fun _ s' => Written L offset bytes s s')
      (fun _ s' => ∃ n < bytes.length, Written L offset (bytes.take n) s s' ∧
        Refused L s (offset + n) ∧ (n = 0 ∨ (offset + n) % L.blockSize = 0))
      (L.writeMem offset bytes s) :=
  L.writeLoop_ends hslots bytes.length s _ offset bytes (Nat.le_refl _) fun _ => rfl

/-! ### Writing back -/

/-- Where the copy is not dirty, the device has the same. -/
def Backed (s : BlockCache ε K β) : Prop :=
  ∀ a, s.dirty (a / L.blockSize) = false → L.contents s a = s.store a

/-- Write a block of the copy to the device, unless that fails, and mark it as clean. -/
def writeBack (faults : Nat → Option (BlockFault ε β)) (block : Nat) :
    Comp (BlockCache ε K β) ε Unit := do
  match faults block with
  | none =>
    Comp.modify fun s =>
      { s with store := fun a => if a / L.blockSize = block then s.mem a else s.store a }
    Comp.modify fun s => { s with dirty := fun b => if b = block then false else s.dirty b }
  | some fault =>
    Comp.modify fun s =>
      { s with store := fun a => if a / L.blockSize = block then fault.garbage a else s.store a }
    Comp.throw fault.code

section

variable {L} {s s' : BlockCache ε K β}

theorem Backed.of_fetched (h : L.Backed s) (hs' : Fetched L s s') : L.Backed s' := by
  intro a hclean
  rw [hs'.dirty] at hclean
  rw [hs'.contents, hs'.store]
  exact h a hclean

theorem Backed.of_written {offset : Nat} {bytes : List β} (h : L.Backed s)
    (hs' : Written L offset bytes s s') : L.Backed s' := by
  intro a hclean
  have hnot : ¬ s'.dirty (a / L.blockSize) = true := by
    rw [hclean]
    exact Bool.false_ne_true
  rw [hs'.dirty, not_or] at hnot
  -- what has been written is dirty
  have hout : ¬ (offset ≤ a ∧ a < offset + bytes.length) :=
    fun hin => hnot.2 ⟨a, hin.1, hin.2, rfl⟩
  rw [hs'.contents, overlay_outside _ hout, hs'.store]
  exact h a (by simpa using hnot.1)

/-- A block that is in the copy is written back: the contents stay. -/
theorem writeBack_ends (faults : Nat → Option (BlockFault ε β)) {block : Nat}
    (hpresent : s.present block = true) (h : L.Backed s) :
    Ends
      (fun _ s' => L.contents s' = L.contents s ∧ L.Backed s' ∧
        { s' with store := s.store, dirty := s.dirty } = s ∧
        ∀ b, s'.dirty b = if b = block then false else s.dirty b)
      (fun _ s' => L.contents s' = L.contents s ∧ faults block ≠ none)
      (L.writeBack faults block s) := by
  have hsame : ∀ bytes : Nat → β, L.contents
      { s with store := fun a => if a / L.blockSize = block then bytes a else s.store a } =
        L.contents s := by
    intro bytes
    funext a
    show (if s.present (a / L.blockSize) then s.mem a
      else if a / L.blockSize = block then bytes a else s.store a) = L.contents s a
    by_cases ha : a / L.blockSize = block
    · rw [ha, hpresent, contents, ha, hpresent, if_pos rfl, if_pos rfl]
    · rw [if_neg ha, contents]
  unfold writeBack
  cases hfault : faults block with
  | none =>
    refine Ends.modify_bind (Ends.modify ⟨hsame s.mem, ?_, rfl, fun b => rfl⟩)
    intro a hclean
    change (if a / L.blockSize = block then false else s.dirty (a / L.blockSize)) = false at hclean
    refine (congrFun (hsame s.mem) a).trans ?_
    show L.contents s a = if a / L.blockSize = block then s.mem a else s.store a
    by_cases ha : a / L.blockSize = block
    · rw [if_pos ha, contents, ha, hpresent, if_pos rfl]
    · rw [if_neg ha] at hclean ⊢
      exact h a hclean
  | some fault =>
    refine Ends.modify_bind (Ends.throw ⟨hsame fault.garbage, ?_⟩)
    simp

end

end BlockLayout

end GPhoto2.Lib
