import Mathlib.Data.List.Basic

/-!
# `GPhoto2.Lib.Crc`: registers with feedback, and the bursts they detect

A register of `w` bits takes one bit at a time: it moves down by one place, and where the bit that
leaves it differs from the bit that comes in, `poly` is added. That is the serial form of a cyclic
redundancy check, with the low bit first.

The register is linear (`feed_xor`), it takes up a word by adding it (`feed_bits`), which is how a
table serves several bits at once (`feed_bits_table`), and with the top bit of `poly` set a run of
zeros never clears it (`feed_zeros_eq_zero`). Hence two messages that differ within `w` bits in a
row leave different registers (`feed_ne_of_burst`).
-/

set_option autoImplicit false

namespace GPhoto2.Lib.Crc

open BitVec (eq_of_getLsbD_eq getLsbD_setWidth getLsbD_ushiftRight getLsbD_xor getLsbD_zero)

variable {w : Nat}

/-- Take one bit. -/
def step (poly : BitVec w) (r : BitVec w) (b : Bool) : BitVec w :=
  (r >>> 1) ^^^ (if (r.getLsbD 0 ^^ b) = true then poly else 0#w)

/-- Take a list of bits. -/
def feed (poly : BitVec w) (r : BitVec w) (bits : List Bool) : BitVec w :=
  bits.foldl (step poly) r

/-- The bits of a word, the low one first. -/
def bits {n : Nat} (v : BitVec n) : List Bool := (List.range n).map v.getLsbD

/-- What `n` zeros make of a word of `n` bits: the entry for it in a table. -/
def tableWord (poly : BitVec w) {n : Nat} (v : BitVec n) : BitVec w :=
  feed poly (v.setWidth w) (List.replicate n false)

variable (poly : BitVec w)

@[simp] theorem feed_cons (r : BitVec w) (b : Bool) (bs : List Bool) :
    feed poly r (b :: bs) = feed poly (step poly r b) bs := rfl

theorem feed_append (r : BitVec w) (as bs : List Bool) :
    feed poly r (as ++ bs) = feed poly (feed poly r as) bs := List.foldl_append

variable {n : Nat}

@[simp] theorem length_bits (v : BitVec n) : (bits v).length = n := by simp [bits]

theorem getElem?_bits (v : BitVec n) {i : Nat} (hi : i < n) :
    (bits v)[i]? = some (v.getLsbD i) := by
  simp [bits, hi]

/-- The bits of two words one after the other, the low word first. -/
theorem bits_append {m : Nat} (hi : BitVec m) (lo : BitVec n) :
    bits (hi ++ lo) = bits lo ++ bits hi := by
  apply List.ext_getElem?
  intro i
  by_cases hlow : i < n
  · rw [List.getElem?_append_left (by simpa using hlow), getElem?_bits lo hlow,
      getElem?_bits (hi ++ lo) (by omega), BitVec.getLsbD_append, if_pos hlow]
  · rw [List.getElem?_append_right (by simpa using hlow), length_bits]
    by_cases hhigh : i < m + n
    · rw [getElem?_bits hi (by omega), getElem?_bits (hi ++ lo) hhigh, BitVec.getLsbD_append,
        if_neg hlow]
    · rw [List.getElem?_eq_none (by simp; omega), List.getElem?_eq_none (by simp; omega)]

theorem bits_injective {u v : BitVec n} (h : bits u = bits v) : u = v := by
  apply eq_of_getLsbD_eq
  intro i hi
  have hbit := congrArg (fun bs : List Bool => bs[i]?) h
  simpa [getElem?_bits _ hi] using hbit

/-! ### Linearity -/

theorem step_xor (r s : BitVec w) (a b : Bool) :
    step poly (r ^^^ s) (a ^^ b) = step poly r a ^^^ step poly s b := by
  have hcancel : ∀ x y : BitVec w, x ^^^ poly ^^^ (y ^^^ poly) = x ^^^ y := by
    intro x y
    rw [BitVec.xor_assoc, ← BitVec.xor_assoc poly, BitVec.xor_comm poly y, BitVec.xor_assoc,
      BitVec.xor_self, BitVec.xor_zero]
  have hswap : (r.getLsbD 0 ^^ s.getLsbD 0 ^^ (a ^^ b)) =
      ((r.getLsbD 0 ^^ a) ^^ (s.getLsbD 0 ^^ b)) := by
    cases r.getLsbD 0 <;> cases s.getLsbD 0 <;> cases a <;> cases b <;> rfl
  unfold step
  rw [getLsbD_xor, hswap, BitVec.ushiftRight_xor_distrib]
  cases (r.getLsbD 0 ^^ a) <;> cases (s.getLsbD 0 ^^ b)
  · simp
  · simp [BitVec.xor_assoc]
  · simp only [Bool.xor_false, if_true, Bool.false_eq_true, if_false, BitVec.xor_zero]
    rw [BitVec.xor_assoc, BitVec.xor_comm (s >>> 1), BitVec.xor_assoc]
  · simp [hcancel]

/-- The sum of two runs is the run of the sum. -/
theorem feed_xor {as bs : List Bool} (hlen : as.length = bs.length) (r s : BitVec w) :
    feed poly (r ^^^ s) (List.zipWith xor as bs) = feed poly r as ^^^ feed poly s bs := by
  induction as generalizing bs r s with
  | nil =>
    rw [List.length_eq_zero_iff.mp hlen.symm]
    rfl
  | cons a as ih =>
    cases bs with
    | nil => cases hlen
    | cons b bs =>
      rw [List.zipWith_cons_cons, feed_cons, step_xor]
      exact ih (Nat.succ.inj hlen) _ _

theorem step_zero_false : step poly 0#w false = 0#w := by simp [step]

variable {bs : List Bool}

/-- A clear register stays clear over zeros. -/
theorem feed_zero (hzero : ∀ b ∈ bs, b = false) : feed poly 0#w bs = 0#w := by
  induction bs with
  | nil => rfl
  | cons b bs ih =>
    rw [feed_cons, hzero b List.mem_cons_self, step_zero_false]
    exact ih fun c hc => hzero c (List.mem_cons_of_mem _ hc)

/-! ### Zeros never clear the register -/

variable {poly} {r : BitVec w}

theorem step_false_eq_zero (htop : poly.msb = true)
    (h : step poly r false = 0#w) : r = 0#w := by
  unfold step at h
  have hpos : 0 < w := by
    rcases Nat.eq_zero_or_pos w with rfl | hpos
    · simp [BitVec.msb, BitVec.getMsbD] at htop
    · exact hpos
  -- the top bit of the sum is that of `poly`
  have hlow : r.getLsbD 0 = false := by
    by_contra hset
    rw [Bool.not_eq_false] at hset
    have hbit := congrArg (fun v : BitVec w => v.getLsbD (w - 1)) h
    simp only [hset, Bool.xor_false, if_true, getLsbD_xor, getLsbD_ushiftRight,
      getLsbD_zero] at hbit
    rw [BitVec.getLsbD_of_ge r (1 + (w - 1)) (by omega), Bool.false_xor,
      ← BitVec.msb_eq_getLsbD_last,
      htop] at hbit
    cases hbit
  rw [hlow] at h
  simp only [Bool.xor_false, Bool.false_eq_true, if_false, BitVec.xor_zero] at h
  apply eq_of_getLsbD_eq
  intro i hi
  rw [getLsbD_zero]
  cases i with
  | zero => exact hlow
  | succ i =>
    have hbit := congrArg (fun v : BitVec w => v.getLsbD i) h
    rw [getLsbD_zero, getLsbD_ushiftRight, Nat.add_comm] at hbit
    exact hbit

theorem feed_zeros_eq_zero (htop : poly.msb = true)
    (hzero : ∀ b ∈ bs, b = false) (h : feed poly r bs = 0#w) : r = 0#w := by
  induction bs generalizing r with
  | nil => exact h
  | cons b bs ih =>
    rw [feed_cons, hzero b List.mem_cons_self] at h
    exact step_false_eq_zero htop (ih (fun c hc => hzero c (List.mem_cons_of_mem _ hc)) h)

/-- A register that has taken the same bits was the same before. -/
theorem feed_injective (htop : poly.msb = true) {s : BitVec w}
    (h : feed poly r bs = feed poly s bs) : r = s := by
  have hsum := @feed_xor _ poly bs bs rfl r s
  rw [h, BitVec.xor_self] at hsum
  have hzero := feed_zeros_eq_zero htop (fun b hb => by
    obtain ⟨i, hi, rfl⟩ := List.getElem_of_mem hb
    rw [List.getElem_zipWith, Bool.xor_self]) hsum
  exact BitVec.xor_eq_zero_iff.mp hzero

/-! ### Words at a time -/

variable (poly)

theorem zipWith_false_left {bs : List Bool} :
    List.zipWith xor (List.replicate bs.length false) bs = bs := by
  induction bs with
  | nil => rfl
  | cons b bs ih => simp [List.replicate_succ, ih]

/-- A word that meets its own bits leaves nothing but what stood above them. -/
theorem feed_own_bits (r : BitVec w) (k n : Nat) :
    feed poly (r >>> k) ((List.range' k n).map r.getLsbD) = r >>> (k + n) := by
  induction n generalizing k with
  | zero => rfl
  | succ n ih =>
    have hstep : step poly (r >>> k) (r.getLsbD k) = r >>> (k + 1) := by
      simp [step, BitVec.shiftRight_add]
    rw [List.range'_succ, List.map_cons, feed_cons, hstep, ih]
    congr 1
    omega

/-- Bits that come in are added to the low bits of the register. -/
theorem feed_bits (hn : n ≤ w) (r : BitVec w) (v : BitVec n) :
    feed poly r (bits v) = feed poly (r ^^^ v.setWidth w) (List.replicate n false) := by
  have hown : feed poly (v.setWidth w) (bits v) = 0#w := by
    have hbits : bits v = (List.range' 0 n).map (v.setWidth w).getLsbD := by
      rw [← List.range_eq_range']
      apply List.map_congr_left
      intro i hi
      rw [List.mem_range] at hi
      simp only [getLsbD_setWidth, Nat.lt_of_lt_of_le hi hn, decide_true, Bool.true_and]
    have hshift := feed_own_bits poly (v.setWidth w) 0 n
    rw [← hbits, BitVec.ushiftRight_zero, Nat.zero_add] at hshift
    rw [hshift]
    apply eq_of_getLsbD_eq
    intro i _
    rw [getLsbD_ushiftRight, getLsbD_setWidth, BitVec.getLsbD_of_ge v (n + i)
      (Nat.le_add_right n i), Bool.and_false, getLsbD_zero]
  have hlen : (List.replicate n false).length = (bits v).length := by simp
  have hsum := feed_xor poly hlen (r ^^^ v.setWidth w) (v.setWidth w)
  have hzeros : List.zipWith xor (List.replicate n false) (bits v) = bits v := by
    have h := @zipWith_false_left (bits v)
    rwa [length_bits] at h
  rw [BitVec.xor_assoc, BitVec.xor_self, BitVec.xor_zero, hzeros, hown, BitVec.xor_zero] at hsum
  exact hsum

/-- Zeros move a word down unchanged as long as no set bit leaves it. -/
theorem feed_zeros_of_low (hlow : ∀ i < n, r.getLsbD i = false) :
    feed poly r (List.replicate n false) = r >>> n := by
  have hown := feed_own_bits poly r 0 n
  have hzeros : (List.range' 0 n).map r.getLsbD = List.replicate n false := by
    rw [← List.range_eq_range', List.eq_replicate_iff]
    refine ⟨by simp, ?_⟩
    intro b hb
    obtain ⟨i, hi, rfl⟩ := List.mem_map.mp hb
    exact hlow i (List.mem_range.mp hi)
  rw [hzeros, BitVec.ushiftRight_zero, Nat.zero_add] at hown
  exact hown

/-- The table for `n` bits at once. -/
theorem feed_bits_table (hn : n ≤ w) (r : BitVec w) (v : BitVec n) :
    feed poly r (bits v) = tableWord poly (r.setWidth n ^^^ v) ^^^ (r >>> n) := by
  -- the register is its low `n` bits and the rest
  let low := (r.setWidth n ^^^ v).setWidth w
  let high := r ^^^ (r.setWidth n).setWidth w
  have hsplit : r ^^^ v.setWidth w = low ^^^ high := by
    apply eq_of_getLsbD_eq
    intro i hi
    simp only [low, high, getLsbD_xor, getLsbD_setWidth, hi, decide_true,
      Bool.true_and]
    cases r.getLsbD i <;> cases v.getLsbD i <;> cases decide (i < n) <;> rfl
  have hlow : ∀ i < n, high.getLsbD i = false := by
    intro i hi
    simp only [high, getLsbD_xor, getLsbD_setWidth, hi,
      Nat.lt_of_lt_of_le hi hn, decide_true, Bool.true_and, Bool.xor_self]
  have hshift : high >>> n = r >>> n := by
    apply eq_of_getLsbD_eq
    intro i _
    simp only [high, getLsbD_ushiftRight, getLsbD_xor, getLsbD_setWidth,
      Nat.not_lt.mpr (Nat.le_add_right n i), decide_false, Bool.false_and, Bool.and_false,
      Bool.xor_false]
  have hsum := @feed_xor _ poly (List.replicate n false) (List.replicate n false) rfl low high
  have hzeros : List.zipWith xor (List.replicate n false) (List.replicate n false) =
      List.replicate n false := by
    have h := @zipWith_false_left (List.replicate n false)
    rwa [List.length_replicate] at h
  rw [hzeros, ← hsplit, feed_zeros_of_low poly hlow, hshift] at hsum
  rw [feed_bits poly hn, hsum]
  rfl

/-! ### Bursts -/

variable {poly}

/-- A word of bits that is no longer than the register never clears it, unless it is zero. -/
theorem feed_eq_zero_of_length (htop : poly.msb = true) (hlen : bs.length ≤ w)
    (h : feed poly 0#w bs = 0#w) : ∀ b ∈ bs, b = false := by
  let v : BitVec bs.length := BitVec.ofBoolListLE bs
  have hv : ∀ i, v.getLsbD i = bs.getD i false := fun i => BitVec.getLsbD_ofBoolListLE
  have hbits : bits v = bs := by
    apply List.ext_getElem?
    intro i
    by_cases hi : i < bs.length
    · rw [getElem?_bits v hi, hv, List.getD_eq_getElem?_getD, List.getElem?_eq_getElem hi]
      rfl
    · rw [List.getElem?_eq_none (by simp; omega), List.getElem?_eq_none (by omega)]
  rw [← hbits, feed_bits poly hlen, BitVec.zero_xor] at h
  have hclear := feed_zeros_eq_zero htop (fun b hb => (List.mem_replicate.mp hb).2) h
  intro b hb
  obtain ⟨i, hi, rfl⟩ := List.getElem_of_mem hb
  have hbit := congrArg (fun u : BitVec w => u.getLsbD i) hclear
  simp only [getLsbD_setWidth, getLsbD_zero, Nat.lt_of_lt_of_le hi hlen,
    decide_true, Bool.true_and, hv, List.getD_eq_getElem?_getD, List.getElem?_eq_getElem hi,
    Option.getD_some] at hbit
  exact hbit

/-- Neither does a longer one whose set bits all lie within a register's width. -/
theorem feed_eq_zero_of_burst (htop : poly.msb = true) {bs : List Bool} {k : Nat}
    (hburst : ∀ i, bs[i]? = some true → k ≤ i ∧ i < k + w) (h : feed poly 0#w bs = 0#w) :
    ∀ b ∈ bs, b = false := by
  induction k generalizing bs with
  | zero =>
    -- behind the burst there are only zeros, so the register was clear there
    have hrest : ∀ b ∈ bs.drop w, b = false := by
      intro b hb
      obtain ⟨i, hi, rfl⟩ := List.getElem_of_mem hb
      rw [List.getElem_drop]
      by_contra hset
      rw [Bool.not_eq_false] at hset
      have hlt : w + i < bs.length := by
        rw [List.length_drop] at hi
        omega
      have := hburst (w + i) (by rw [List.getElem?_eq_getElem hlt, hset])
      omega
    rw [← List.take_append_drop w bs, feed_append] at h
    have hhead := feed_eq_zero_of_length htop (List.length_take_le w bs)
      (feed_zeros_eq_zero htop hrest h)
    intro b hb
    rw [← List.take_append_drop w bs, List.mem_append] at hb
    rcases hb with hb | hb
    · exact hhead b hb
    · exact hrest b hb
  | succ k ih =>
    cases bs with
    | nil =>
      intro b hb
      cases hb
    | cons c bs =>
      have hc : c = false := by
        by_contra hset
        rw [Bool.not_eq_false] at hset
        have := hburst 0 (by rw [hset]; rfl)
        omega
      rw [feed_cons, hc, step_zero_false] at h
      have htail := ih (fun i hi => by
        have := hburst (i + 1) hi
        omega) h
      intro b hb
      rcases List.mem_cons.mp hb with rfl | hb
      · exact hc
      · exact htail b hb

/-- Two messages of one length that differ, but only within `w` bits in a row, leave different
registers. -/
theorem feed_ne_of_burst (htop : poly.msb = true) {as : List Bool}
    (hlen : as.length = bs.length) (hne : as ≠ bs) {k : Nat}
    (hburst : ∀ i, as[i]? ≠ bs[i]? → k ≤ i ∧ i < k + w) (r : BitVec w) :
    feed poly r as ≠ feed poly r bs := by
  intro heq
  have hsum := feed_xor poly hlen r r
  rw [heq, BitVec.xor_self, BitVec.xor_self] at hsum
  have hzero := @feed_eq_zero_of_burst _ _ htop _ k (fun i hi => by
    apply hburst
    intro hsame
    rw [List.getElem?_zipWith, hsame] at hi
    cases hb : bs[i]? with
    | none => simp [hb] at hi
    | some b => simp [hb] at hi) hsum
  apply hne
  apply List.ext_getElem hlen
  intro i ha hb
  have hi : i < (List.zipWith xor as bs).length := by
    rw [List.length_zipWith]
    omega
  have hbit := hzero _ (List.getElem_mem hi)
  rw [List.getElem_zipWith] at hbit
  simpa using hbit

end GPhoto2.Lib.Crc
