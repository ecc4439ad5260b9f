import GPhoto2.Proofs.Mars.Decompress
import GPhoto2.Sonix.Decode

/-!
# `GPhoto2.Proofs.Sonix.Decode`: every picture is decoded

A compressed picture is a list of rows (`Stream`), and `Stream.image` is the picture they stand for.
The codes are those of the Mars cameras. `Buffered` says where in the source the decoder is: the
bits in its buffer are the next ones. Every refill keeps it, `peekBits_code` reads a code off it,
and `sonixDecode_stream` follows the whole picture.
-/

set_option autoImplicit false

namespace GPhoto2.Sonix

open Lib
open Mars (Delta absoluteCode)
open List (flatMap_cons length_append length_cons)

/-! ### Compressed pictures -/

/-- What stands for a pixel behind the first two of its row. -/
inductive Codeword
  | relative (d : Delta)
  /-- The five high bits of the value. -/
  | absolute (v : Fin 32)

def Codeword.bits : Codeword → List Bool
  | relative d => d.code
  | absolute v => absoluteCode ++ bitsOf 5 v

/-- The value of a pixel, by that of the pixel two columns before it. -/
def Codeword.value (before : Nat) : Codeword → Nat
  | relative d => (max 0 (min 255 (before + d.val))).toNat
  | absolute v => 8 * v

/-- A row: two raw bytes, and the codewords of the other pixels in pairs. -/
structure Row where
  first : UInt8
  second : UInt8
  codes : List (Codeword × Codeword)

def Row.bits (row : Row) : List Bool :=
  bitsOf 8 row.first.toNat ++ bitsOf 8 row.second.toNat ++
    row.codes.flatMap fun c => c.1.bits ++ c.2.bits

/-- A pair of pixels, by the pair before it. -/
def nextPair (before : Nat × Nat) (c : Codeword × Codeword) : Nat × Nat :=
  (c.1.value before.1, c.2.value before.2)

/-- The pixels of a row in pairs. -/
def Row.pixels (row : Row) : List (Nat × Nat) :=
  row.codes.scanl nextPair (row.first.toNat, row.second.toNat)

/-- The rows of a picture. Each holds two raw bytes and a codeword for each other pixel. -/
structure Stream (width height : Nat) where
  rows : List Row
  length_rows : rows.length = height
  width_eq : ∀ row ∈ rows, width = 2 + 2 * row.codes.length

variable {width height : Nat}

def Stream.bits (stream : Stream width height) : List Bool := stream.rows.flatMap Row.bits

/-- A pair of pixels as it is stored: the second one is in the high byte. -/
def pairBytes (order : ByteOrder) (pair : Nat × Nat) : List UInt8 :=
  order.encode 2 (256 * pair.2 + pair.1)

def Row.bytes (order : ByteOrder) (row : Row) : List UInt8 := row.pixels.flatMap (pairBytes order)

/-- The picture. -/
def Stream.image (order : ByteOrder) (stream : Stream width height) : List UInt8 :=
  stream.rows.flatMap (Row.bytes order)

/-! ### The bit buffer -/

/-- The decoder has read the bits in front of `pos`, and its buffer holds the next ones: those of
whole bytes, fewer than 32. -/
structure Buffered (src : Nat → UInt8) (pos : Nat) (s : Decoder) : Prop where
  fetched : 8 * s.src = pos + s.bitBufCount
  count_lt : s.bitBufCount < 32
  bit : ∀ j, j < s.bitBufCount →
    s.bitBuf.testBit (s.bitBufCount - 1 - j) = bitAt src (pos + j)

variable {order : ByteOrder} {src : Nat → UInt8} {pos num w : Nat} {s : Decoder}

theorem Buffered.fetch (h : Buffered src pos s) (hcount : s.bitBufCount < 24) :
    Buffered src pos (fetch src s) := by
  have hfetched := h.fetched
  refine ⟨?_, ?_, ?_⟩
  · show 8 * (s.src + 1) = pos + (s.bitBufCount + 8)
    omega
  · show s.bitBufCount + 8 < 32
    omega
  · intro j hj
    change j < s.bitBufCount + 8 at hj
    show ((s.bitBuf <<< 8 ||| (src s.src).toNat) % 2 ^ 64).testBit (s.bitBufCount + 8 - 1 - j) = _
    rw [Nat.testBit_mod_two_pow, decide_eq_true (by omega), Bool.true_and, Nat.testBit_or,
      Nat.testBit_shiftLeft]
    -- The old bits have moved up by eight, and the byte is below them.
    by_cases hold : j < s.bitBufCount
    · have hbyte : (src s.src).toNat.testBit (s.bitBufCount + 8 - 1 - j) = false := by
        refine Nat.testBit_lt_two_pow (Nat.lt_of_lt_of_le (src s.src).toNat_lt ?_)
        exact Nat.pow_le_pow_right (by omega) (by omega)
      have hindex : s.bitBufCount + 8 - 1 - j - 8 = s.bitBufCount - 1 - j := by omega
      rw [hbyte, Bool.or_false, decide_eq_true (by omega), Bool.true_and, hindex]
      exact h.bit j hold
    · have hbyte : (pos + j) / 8 = s.src := by omega
      have hbit : 7 - (pos + j) % 8 = s.bitBufCount + 8 - 1 - j := by omega
      rw [decide_eq_false (by omega), Bool.false_and, Bool.false_or, bitAt, hbyte, hbit]

/-- What a refill leaves as it is. -/
structure Refilled (s s' : Decoder) : Prop where
  c1val : s'.c1val = s.c1val
  c2val : s'.c2val = s.c2val
  dst : s'.dst = s.dst

theorem Buffered.refill {s : Decoder} (h : Buffered src pos s) (hcount : s.bitBufCount < 24) :
    Buffered src pos (refill src s) ∧ 24 ≤ (refill src s).bitBufCount ∧
      Refilled s (refill src s) := by
  rw [Sonix.refill]
  by_cases hmore : s.bitBufCount + 8 < 24
  · rw [if_pos hmore]
    obtain ⟨hbuffered, hfull, hsame⟩ := (h.fetch hcount).refill hmore
    exact ⟨hbuffered, hfull, hsame.c1val, hsame.c2val, hsame.dst⟩
  · rw [if_neg hmore]
    exact ⟨h.fetch hcount, Nat.not_lt.mp hmore, rfl, rfl, rfl⟩
termination_by 24 - s.bitBufCount
decreasing_by
  show 24 - (s.bitBufCount + 8) < 24 - s.bitBufCount
  omega

section
variable (h : Buffered src pos s)
include h

theorem peekBits_buffered (hnum : num ≤ 24) :
    Buffered src pos (peekBits src num s).2 ∧ num ≤ (peekBits src num s).2.bitBufCount ∧
      Refilled s (peekBits src num s).2 := by
  unfold peekBits
  by_cases hcount : s.bitBufCount < num
  · rw [if_pos hcount]
    obtain ⟨hbuffered, hfull, hsame⟩ := h.refill (by omega)
    exact ⟨hbuffered, Nat.le_trans hnum hfull, hsame⟩
  · rw [if_neg hcount]
    exact ⟨h, Nat.not_lt.mp hcount, rfl, rfl, rfl⟩

theorem bitsOf_peekBits (hnum : num ≤ 16) :
    bitsOf num (peekBits src num s).1 = (List.range num).map fun j => bitAt src (pos + j) := by
  obtain ⟨hbuffered, hcount, _⟩ := peekBits_buffered h (by omega : num ≤ 24)
  refine List.map_congr_left fun j hj => ?_
  have hj := List.mem_range.mp hj
  generalize hpeek : (peekBits src num s).2 = s' at hbuffered hcount
  have hvalue : (peekBits src num s).1 = (s'.bitBuf >>> (s'.bitBufCount - num)) % 2 ^ 16 := by
    rw [← hpeek]
    rfl
  have hindex : s'.bitBufCount - num + (num - 1 - j) = s'.bitBufCount - 1 - j := by omega
  rw [hvalue, Nat.testBit_mod_two_pow, decide_eq_true (by omega), Bool.true_and,
    Nat.testBit_shiftRight, hindex, hbuffered.bit j (by omega)]

theorem peekBits_code (hnum : num ≤ 16) {bits : List Bool}
    (hbits : Carries src pos bits) (hlength : bits.length ≤ num) :
    bits <+: bitsOf num (peekBits src num s).1 := by
  rw [bitsOf_peekBits h hnum, List.prefix_iff_eq_take, ← List.map_take, List.take_range,
    Nat.min_eq_left hlength]
  exact hbits.symm

theorem Buffered.eatBits (hnum : num ≤ s.bitBufCount) :
    Buffered src (pos + num) (eatBits num s) := by
  have hfetched := h.fetched
  have hcount := h.count_lt
  refine ⟨?_, ?_, ?_⟩
  · show 8 * s.src = pos + num + (s.bitBufCount - num)
    omega
  · show s.bitBufCount - num < 32
    omega
  · intro j hj
    change j < s.bitBufCount - num at hj
    have hindex : s.bitBufCount - 1 - (num + j) = s.bitBufCount - num - 1 - j := by omega
    show s.bitBuf.testBit (s.bitBufCount - num - 1 - j) = _
    rw [Nat.add_assoc, ← h.bit (num + j) (by omega), hindex]

end

/-! ### The codes -/

theorem and_mod {m : Nat} (hm : 1023 &&& m = m) (w : Nat) : w % 1024 &&& m = w &&& m := by
  have hmod : w &&& 1023 = w % 1024 := Nat.and_two_pow_sub_one_eq_mod w 10
  rw [← hmod, Nat.and_assoc, hm]

theorem codeOf_mod (w : Nat) : codeOf (w % 1024) = codeOf w := by
  unfold codeOf
  rw [and_mod (by decide), and_mod (by decide), and_mod (by decide), and_mod (by decide)]

variable (d : Delta) (c : Codeword)

theorem codeOf_delta (h : d.code <+: bitsOf 10 w) :
    codeOf w = (d.code.length, some d.val) := by
  -- The masks see ten bits only, and those can be tried.
  have hdecide : ∀ w < 1024, d.code <+: bitsOf 10 w → codeOf w = (d.code.length, some d.val) := by
    cases d <;> decide +kernel
  rw [← codeOf_mod]
  exact hdecide _ (Nat.mod_lt _ (by decide)) (bitsOf_mod 10 w ▸ h)

theorem ofBits_bitsOf_ten : ∀ w < 1024, ofBits (bitsOf 10 w) = w := by
  decide +kernel

theorem codeOf_absolute (v : Fin 32) (h : absoluteCode ++ bitsOf 5 v <+: bitsOf 10 w) :
    codeOf w = (10, none) ∧ w &&& 0x1f = v := by
  have hdecide : ∀ v : Fin 32, codeOf (ofBits (absoluteCode ++ bitsOf 5 v)) = (10, none) ∧
      ofBits (absoluteCode ++ bitsOf 5 v) &&& 0x1f = v := by decide +kernel
  have hmod : bitsOf 10 (w % 1024) = bitsOf 10 w := bitsOf_mod 10 w
  have hall := h.eq_of_length (by rw [length_append, length_bitsOf, length_bitsOf]; rfl)
  have hw : w % 1024 = ofBits (absoluteCode ++ bitsOf 5 v) := by
    rw [hall, ← hmod, ofBits_bitsOf_ten _ (Nat.mod_lt w (by decide))]
  have hmask : w % 1024 &&& 0x1f = w &&& 0x1f := and_mod (by decide) w
  rw [← codeOf_mod, ← hmask, hw]
  exact hdecide v

theorem changed_delta {before : Nat} (h : before < 256) :
    changed d.val before = (Codeword.relative d).value before := by
  show changed d.val before = ((max 0 (min 255 ((before : Int) + d.val))).toNat : Int)
  unfold changed
  split
  · split <;> omega
  · split <;> omega

theorem value_lt (before : Nat) : c.value before < 256 := by
  cases c with
  | relative d =>
    show (max 0 (min 255 ((before : Int) + d.val))).toNat < 256
    omega
  | absolute v =>
    show 8 * v.val < 256
    omega

theorem codeOf_codeword {before : Nat} (h : c.bits <+: bitsOf 10 w)
    (hbefore : before < 256) :
    (codeOf w).1 = c.bits.length ∧ newVal w before (codeOf w).2 = c.value before := by
  cases c with
  | relative d =>
    rw [codeOf_delta d h]
    exact ⟨rfl, changed_delta d hbefore⟩
  | absolute v =>
    obtain ⟨hcode, hvalue⟩ := codeOf_absolute v h
    rw [hcode]
    refine ⟨?_, ?_⟩
    · rw [Codeword.bits, length_append, length_bitsOf]
      rfl
    · show (8 * (w &&& 0x1f : Nat) : Int) = (8 * v.val : Nat)
      rw [hvalue]
      rfl

theorem length_bits_le : c.bits.length ≤ 10 := by
  cases c with
  | relative d => cases d <;> decide
  | absolute v =>
    rw [Codeword.bits, length_append, length_bitsOf]
    decide

/-! ### A pixel -/

theorem parsePixel_run (h : Buffered src pos s) (c : Codeword) (hbits : Carries src pos c.bits)
    {before : Nat} (hbefore : before < 256) :
    (parsePixel src before s).1 = c.value before ∧
      Buffered src (pos + c.bits.length) (parsePixel src before s).2 ∧
      Refilled s (parsePixel src before s).2 := by
  obtain ⟨hbuffered, hcount, hsame⟩ := peekBits_buffered h (by decide : 10 ≤ 24)
  obtain ⟨hnum, hval⟩ := codeOf_codeword c
    (peekBits_code h (by decide) hbits (length_bits_le c)) hbefore
  refine ⟨hval, ?_, hsame.c1val, hsame.c2val, hsame.dst⟩
  show Buffered src _ (eatBits (codeOf (peekBits src 10 s).1).1 (peekBits src 10 s).2)
  rw [hnum]
  exact hbuffered.eatBits (Nat.le_trans (length_bits_le c) hcount)

theorem rawPixel_run (h : Buffered src pos s) {b : UInt8}
    (hbits : Carries src pos (bitsOf 8 b.toNat)) :
    (rawPixel src s).1 = b.toNat ∧ Buffered src (pos + 8) (rawPixel src s).2 ∧
      Refilled s (rawPixel src s).2 := by
  obtain ⟨hbuffered, hcount, hsame⟩ := peekBits_buffered h (by decide : 8 ≤ 24)
  refine ⟨?_, hbuffered.eatBits hcount, hsame.c1val, hsame.c2val, hsame.dst⟩
  have hprefix := peekBits_code h (by decide) hbits (Nat.le_of_eq (length_bitsOf 8 b.toNat))
  have hall := hprefix.eq_of_length (by rw [length_bitsOf, length_bitsOf])
  rw [← bitsOf_mod 8 (peekBits src 8 s).1] at hall
  show (peekBits src 8 s).1 &&& 2 ^ 8 - 1 = _
  rw [Nat.and_two_pow_sub_one_eq_mod, ← ofBits_bitsOf (Nat.mod_lt _ (by decide) : _ % 2 ^ 8 < 256),
    ← hall, ofBits_bitsOf b.toNat_lt]

/-- The decoder has written `out` and then a pair of pixels, and has read the bits in front of
`pos`. -/
structure Wrote (order : ByteOrder) (src : Nat → UInt8) (pos : Nat) (out : List UInt8)
    (pair : Nat × Nat) (s : Decoder) : Prop where
  buffered : Buffered src pos s
  c2val : s.c2val = pair.1
  c1val : s.c1val = pair.2
  lt : pair.1 < 256 ∧ pair.2 < 256
  dst : s.dst = out ++ pairBytes order pair

variable {out : List UInt8} {pair : Nat × Nat}

theorem putPixelPair_run (h : Buffered src pos s) (hc2 : s.c2val = pair.1) (hc1 : s.c1val = pair.2)
    (hlt : pair.1 < 256 ∧ pair.2 < 256) (hdst : s.dst = out) :
    Wrote order src pos out pair (putPixelPair order s) := by
  refine ⟨⟨h.fetched, h.count_lt, h.bit⟩, hc2, hc1, hlt, ?_⟩
  have hpp : (s.c1val * 2 ^ 8 + s.c2val).toNat = 256 * pair.2 + pair.1 := by
    rw [hc1, hc2]
    omega
  show s.dst ++ order.encode 2 _ = _
  rw [hdst, hpp]
  rfl

theorem pixelPair_run (h : Wrote order src pos out pair s) (c : Codeword × Codeword)
    (hbits : Carries src pos (c.1.bits ++ c.2.bits)) :
    Wrote order src (pos + (c.1.bits ++ c.2.bits).length) (out ++ pairBytes order pair)
      (nextPair pair c) (pixelPair order src s) := by
  obtain ⟨hbits₁, hbits₂⟩ := carries_append.mp hbits
  obtain ⟨hc2, hbuffered₁, hsame₁⟩ := parsePixel_run h.buffered c.1 hbits₁ h.lt.1
  rw [← h.c2val] at hc2 hbuffered₁ hsame₁
  let s₁ : Decoder := { (parsePixel src s.c2val s).2 with c2val := (parsePixel src s.c2val s).1 }
  have hbuffered : Buffered src (pos + c.1.bits.length) s₁ :=
    ⟨hbuffered₁.fetched, hbuffered₁.count_lt, hbuffered₁.bit⟩
  -- The second pixel is changed from the one two before it, which the first has left alone.
  obtain ⟨hc1, hbuffered₂, hsame₂⟩ := parsePixel_run hbuffered c.2 hbits₂ h.lt.2
  have hval : s₁.c1val = pair.2 := hsame₁.c1val.trans h.c1val
  rw [← hval] at hc1 hbuffered₂ hsame₂
  rw [length_append, ← Nat.add_assoc]
  exact putPixelPair_run ⟨hbuffered₂.fetched, hbuffered₂.count_lt, hbuffered₂.bit⟩
    (hsame₂.c2val.trans hc2) hc1 ⟨value_lt _ _, value_lt _ _⟩
    (hsame₂.dst.trans (hsame₁.dst.trans h.dst))

/-! ### The rows -/

theorem pixelPairs_run {codes : List (Codeword × Codeword)} (h : Wrote order src pos out pair s)
    (hbits : Carries src pos (codes.flatMap fun c => c.1.bits ++ c.2.bits)) :
    Buffered src (pos + (codes.flatMap fun c => c.1.bits ++ c.2.bits).length)
        ((pixelPair order src)^[codes.length] s) ∧
      ((pixelPair order src)^[codes.length] s).dst =
        out ++ (codes.scanl nextPair pair).flatMap (pairBytes order) := by
  induction codes generalizing pos out pair s with
  | nil => exact ⟨h.buffered, by rw [List.scanl_nil, List.flatMap_singleton]; exact h.dst⟩
  | cons c codes ih =>
    rw [flatMap_cons] at hbits
    obtain ⟨hfirst, hrest⟩ := carries_append.mp hbits
    obtain ⟨hbuffered, hdst⟩ := ih (pixelPair_run h c hfirst) hrest
    rw [length_cons, Function.iterate_succ_apply, flatMap_cons, length_append,
      ← Nat.add_assoc]
    refine ⟨hbuffered, ?_⟩
    rw [hdst, List.scanl_cons, flatMap_cons, List.append_assoc]

theorem decodeRow_run (order : ByteOrder) (h : Buffered src pos s) (row : Row)
    (hwidth : width = 2 + 2 * row.codes.length) (hbits : Carries src pos row.bits) :
    Buffered src (pos + row.bits.length) (decodeRow order src width s) ∧
      (decodeRow order src width s).dst = s.dst ++ row.bytes order := by
  obtain ⟨hraw, hcodes⟩ := carries_append.mp hbits
  obtain ⟨hfirst, hsecond⟩ := carries_append.mp hraw
  rw [length_append, length_bitsOf, length_bitsOf] at hcodes
  rw [length_bitsOf] at hsecond
  obtain ⟨hc2, hbuffered₁, hsame₁⟩ := rawPixel_run h hfirst
  let s₁ : Decoder := { (rawPixel src s).2 with c2val := (rawPixel src s).1 }
  have hbuffered : Buffered src (pos + 8) s₁ :=
    ⟨hbuffered₁.fetched, hbuffered₁.count_lt, hbuffered₁.bit⟩
  obtain ⟨hc1, hbuffered₂, hsame₂⟩ := rawPixel_run hbuffered hsecond
  have hwrote : Wrote order src (pos + 8 + 8) s.dst (row.first.toNat, row.second.toNat)
      (putPixelPair order { (rawPixel src s₁).2 with c1val := (rawPixel src s₁).1 }) :=
    putPixelPair_run ⟨hbuffered₂.fetched, hbuffered₂.count_lt, hbuffered₂.bit⟩
      (hsame₂.c2val.trans (congrArg Nat.cast hc2)) (congrArg Nat.cast hc1)
      ⟨row.first.toNat_lt, row.second.toNat_lt⟩ (hsame₂.dst.trans hsame₁.dst)
  have hrow := pixelPairs_run hwrote hcodes
  -- The loop from column 2 in steps of 2 makes as many rounds as there are pairs of codes.
  have hcount : row.codes.length = (width - 1) / 2 := by omega
  rw [hcount] at hrow
  rw [Row.bits, length_append, length_append, length_bitsOf, length_bitsOf,
    ← Nat.add_assoc, ← Nat.add_assoc]
  exact hrow

theorem decodeRows_run (order : ByteOrder) {rows : List Row}
    (hwidth : ∀ row ∈ rows, width = 2 + 2 * row.codes.length) (h : Buffered src pos s)
    (hbits : Carries src pos (rows.flatMap Row.bits)) :
    Buffered src (pos + (rows.flatMap Row.bits).length)
        ((decodeRow order src width)^[rows.length] s) ∧
      ((decodeRow order src width)^[rows.length] s).dst =
        s.dst ++ rows.flatMap (Row.bytes order) := by
  induction rows generalizing pos s with
  | nil => exact ⟨h, (List.append_nil _).symm⟩
  | cons row rows ih =>
    rw [flatMap_cons] at hbits
    obtain ⟨hfirst, hrest⟩ := carries_append.mp hbits
    obtain ⟨hbuffered, hdst⟩ :=
      decodeRow_run order h row (hwidth row List.mem_cons_self) hfirst
    obtain ⟨hbuffered', hdst'⟩ :=
      ih (fun r hr => hwidth r (List.mem_cons_of_mem _ hr)) hbuffered hrest
    rw [length_cons, Function.iterate_succ_apply, flatMap_cons, length_append,
      ← Nat.add_assoc]
    refine ⟨hbuffered', ?_⟩
    rw [hdst', hdst, flatMap_cons, List.append_assoc]

theorem length_row_bytes (order : ByteOrder) (row : Row) :
    (row.bytes order).length = 2 + 2 * row.codes.length := by
  have hpair : ∀ pair, (pairBytes order pair).length = 2 := fun _ => ByteOrder.length_encode _ _ _
  have hpairs : ∀ pairs : List (Nat × Nat),
      (pairs.flatMap (pairBytes order)).length = 2 * pairs.length := by
    intro pairs
    induction pairs with
    | nil => rfl
    | cons pair pairs ih =>
      rw [flatMap_cons, length_append, hpair, ih, length_cons]
      omega
  rw [Row.bytes, hpairs, Row.pixels, List.length_scanl]
  omega

theorem length_image (order : ByteOrder) (stream : Stream width height) :
    (stream.image order).length = width * height := by
  have hrows : ∀ rows : List Row, (∀ row ∈ rows, width = 2 + 2 * row.codes.length) →
      (rows.flatMap (Row.bytes order)).length = width * rows.length := by
    intro rows hwidth
    induction rows with
    | nil => rfl
    | cons row rows ih =>
      rw [flatMap_cons, length_append, length_row_bytes,
        ← hwidth row List.mem_cons_self, ih fun r hr => hwidth r (List.mem_cons_of_mem _ hr),
        length_cons, Nat.mul_succ, Nat.add_comm]
  rw [Stream.image, hrows stream.rows stream.width_eq, stream.length_rows]

/-! ### Main result -/

/-- **The decoder agrees with the picture of the stream.** It has read the bits of the stream and
holds the next ones, and has fetched three bytes at most behind the last one it needed. -/
theorem sonixDecode_stream (order : ByteOrder) (src : Nat → UInt8) (stream : Stream width height)
    (hbits : Carries src 0 stream.bits) :
    (sonixDecode order src width height).dst = stream.image order ∧
      (sonixDecode order src width height).dst.length = width * height ∧
      Buffered src stream.bits.length (sonixDecode order src width height) ∧
      (sonixDecode order src width height).src ≤ (stream.bits.length + 7) / 8 + 3 := by
  have hstart : Buffered src 0 ⟨0, 0, 0, 0, 0, []⟩ :=
    ⟨rfl, by decide, fun j hj => absurd hj (Nat.not_lt_zero j)⟩
  obtain ⟨hbuffered, hdst⟩ := decodeRows_run order stream.width_eq hstart hbits
  rw [stream.length_rows, Nat.zero_add] at hbuffered
  rw [stream.length_rows, List.nil_append] at hdst
  have himage : (sonixDecode order src width height).dst = stream.image order := hdst
  have hfetched := hbuffered.fetched
  have hcount := hbuffered.count_lt
  refine ⟨himage, by rw [himage, length_image], hbuffered, ?_⟩
  show ((decodeRow order src width)^[height] _).src ≤ _
  change 8 * _ = stream.bits.length + _ at hfetched
  omega

/-- A row of two raw bytes and two codewords: three more, and the value 8. -/
theorem sonixDecode_row :
    (sonixDecode .little (fun i => [7, 9, 0xbd, 0x08].getD i 0) 4 1).dst = [7, 9, 10, 8] := by
  have hdecoded := (@sonixDecode_stream 4 1 .little (fun i => [7, 9, 0xbd, 0x08].getD i 0)
    ⟨[⟨7, 9, [(.relative .plus3, .absolute 1)]⟩], rfl, by simp⟩ (by decide +kernel)).1
  exact hdecoded.trans (by decide +kernel)

end GPhoto2.Sonix
