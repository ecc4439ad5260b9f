import Mathlib.Data.List.Basic
import Mathlib.Data.Nat.Bitwise

/-!
# `GPhoto2.Lib.Bits`: a stream of bits that is read through a byte

The bits of a sequence of bytes come with the highest bit of each byte first. `window` is the byte
that starts at any of them, cut out of two neighbours by shifts. `bitsOf_window` says that it holds
the next eight bits, so that a code of up to eight bits can be looked up by it
(`Carries.prefix_window`).
-/

set_option autoImplicit false

namespace GPhoto2.Lib

/-- The `n` low bits of a number, the highest first. -/
def bitsOf (n w : Nat) : List Bool := (List.range n).map fun j => w.testBit (n - 1 - j)

/-- The number with these bits, the highest first. -/
def ofBits (bits : List Bool) : Nat := bits.foldl (fun w b => 2 * w + b.toNat) 0

/-- The bit `i` of a sequence of bytes. -/
def bitAt (bytes : Nat → UInt8) (i : Nat) : Bool := (bytes (i / 8)).toNat.testBit (7 - i % 8)

/-- The byte from the bit `pos` on, out of the two bytes it may lie in. -/
def window (bytes : Nat → UInt8) (pos : Nat) : Nat :=
  ((bytes (pos >>> 3)).toNat <<< (pos &&& 7) |||
    (bytes ((pos >>> 3) + 1)).toNat >>> (8 - (pos &&& 7))) % 256

/-- The sequence has these bits from `pos` on. -/
def Carries (bytes : Nat → UInt8) (pos : Nat) (bits : List Bool) : Prop :=
  (List.range bits.length).map (fun j => bitAt bytes (pos + j)) = bits

instance (bytes : Nat → UInt8) (pos : Nat) (bits : List Bool) :
    Decidable (Carries bytes pos bits) :=
  inferInstanceAs (Decidable (_ = bits))

variable (bytes : Nat → UInt8) (n w pos : Nat)

@[simp] theorem length_bitsOf : (bitsOf n w).length = n := by
  rw [bitsOf, List.length_map, List.length_range]

/-- The bits above the `n` low ones do not count. -/
theorem bitsOf_mod : bitsOf n (w % 2 ^ n) = bitsOf n w := by
  refine List.map_congr_left fun j hj => ?_
  have hj := List.mem_range.mp hj
  rw [Nat.testBit_mod_two_pow, decide_eq_true (by omega), Bool.true_and]

theorem window_lt : window bytes pos < 256 :=
  Nat.mod_lt _ (by decide)

theorem testBit_window {j : Nat} (hj : j < 8) :
    (window bytes pos).testBit (7 - j) = bitAt bytes (pos + j) := by
  have hand : pos &&& 7 = pos % 8 := Nat.and_two_pow_sub_one_eq_mod pos 3
  have hshift : pos >>> 3 = pos / 8 := Nat.shiftRight_eq_div_pow pos 3
  have hmod : window bytes pos = _ % 2 ^ 8 := rfl
  rw [hmod, Nat.testBit_mod_two_pow, Nat.testBit_or, Nat.testBit_shiftLeft, Nat.testBit_shiftRight,
    hand, hshift, decide_eq_true (by omega : 7 - j < 8), Bool.true_and, bitAt]
  by_cases hin : pos % 8 + j < 8
  · -- the bit is in the first byte, and the second one has none so high
    have hsecond : (bytes (pos / 8 + 1)).toNat.testBit (8 - pos % 8 + (7 - j)) = false := by
      refine Nat.testBit_lt_two_pow (Nat.lt_of_lt_of_le (bytes (pos / 8 + 1)).toNat_lt ?_)
      exact Nat.pow_le_pow_right (by omega) (by omega)
    have hbyte : (pos + j) / 8 = pos / 8 := by omega
    have hbit : 7 - (pos + j) % 8 = 7 - j - pos % 8 := by omega
    rw [hsecond, Bool.or_false, decide_eq_true (by omega : 7 - j ≥ pos % 8), Bool.true_and, hbyte,
      hbit]
  · have hbyte : (pos + j) / 8 = pos / 8 + 1 := by omega
    have hbit : 7 - (pos + j) % 8 = 8 - pos % 8 + (7 - j) := by omega
    rw [decide_eq_false (by omega : ¬ 7 - j ≥ pos % 8), Bool.false_and, Bool.false_or, hbyte, hbit]

/-- **The window holds the next eight bits.** -/
theorem bitsOf_window :
    bitsOf 8 (window bytes pos) = (List.range 8).map fun j => bitAt bytes (pos + j) :=
  List.map_congr_left fun _ hj => testBit_window bytes pos (List.mem_range.mp hj)

theorem carries_append {bytes : Nat → UInt8} {pos : Nat} {xs ys : List Bool} :
    Carries bytes pos (xs ++ ys) ↔
      Carries bytes pos xs ∧ Carries bytes (pos + xs.length) ys := by
  rw [Carries, List.length_append, List.range_add, List.map_append, List.map_map]
  constructor
  · intro h
    obtain ⟨hxs, hys⟩ := List.append_inj h (by rw [List.length_map, List.length_range])
    refine ⟨hxs, Eq.trans (List.map_congr_left ?_) hys⟩
    intro j _
    rw [Function.comp, Nat.add_assoc]
  · intro h
    obtain ⟨hxs, hys⟩ := h
    refine congrArg₂ (· ++ ·) hxs (Eq.trans (List.map_congr_left ?_) hys)
    intro j _
    rw [Function.comp, Nat.add_assoc]

/-- A code of at most eight bits is in front of the window. -/
theorem Carries.prefix_window {bytes : Nat → UInt8} {pos : Nat} {bits : List Bool}
    (h : Carries bytes pos bits) (hlength : bits.length ≤ 8) :
    bits <+: bitsOf 8 (window bytes pos) := by
  rw [bitsOf_window, List.prefix_iff_eq_take, ← List.map_take, List.take_range,
    Nat.min_eq_left hlength]
  exact h.symm

/-- A byte is read back from its bits. -/
theorem ofBits_bitsOf {w : Nat} (h : w < 256) : ofBits (bitsOf 8 w) = w := by
  revert w
  decide +kernel

/-- A whole byte that comes next is the window. -/
theorem Carries.window_eq {bytes : Nat → UInt8} {pos w : Nat}
    (h : Carries bytes pos (bitsOf 8 w)) (hw : w < 256) : window bytes pos = w := by
  have hprefix := h.prefix_window (Nat.le_of_eq (length_bitsOf 8 w))
  have hsame := hprefix.eq_of_length (by rw [length_bitsOf, length_bitsOf])
  rw [← ofBits_bitsOf (window_lt bytes pos), ← hsame, ofBits_bitsOf hw]

end GPhoto2.Lib
