import GPhoto2.St2205.Image

/-!
# `GPhoto2.Proofs.St2205.Image`: `st2205_decode_image` decodes what `st2205_code_image` codes

A coded block says its own length (`codeBlock_length_byte`), so the decoder finds it again, and
draws it at the coordinates it was coded from (`drawBlocks_pixel`). Two things go wrong. The 16 bits
of the length in the header are too few for some pictures of 240x320, and the chroma of the groups
of 2x2 pixels is taken at the wrong places. `codeImage_roundTrips_iff` says when neither shows.
-/

set_option autoImplicit false

namespace GPhoto2.St2205

open List (append_nil flatten_cons length_append length_cons map_append map_cons map_nil range_succ
  sum_append sum_cons sum_nil)

/-! ### Ranges -/

theorem clamp64S_range (x : Int) : -64 ≤ clamp64S x ∧ clamp64S x ≤ 63 := by
  unfold clamp64S
  by_cases hhigh : x > 63
  · rw [if_pos hhigh]
    omega
  · rw [if_neg hhigh]
    by_cases hlow : x < -64
    · rw [if_pos hlow]
      omega
    · rw [if_neg hlow]
      omega

theorem baseOf_range {n : Nat} {samples : Nat → Int} {lo hi : Int} (hn : 0 < n) (hlo : lo ≤ 0)
    (hhi : 0 ≤ hi) (h : ∀ i, lo ≤ samples i ∧ samples i ≤ hi) :
    lo ≤ baseOf n samples ∧ baseOf n samples ≤ hi := by
  have hsum : ∀ m : Nat, lo * m ≤ ((List.range m).map samples).sum ∧
      ((List.range m).map samples).sum ≤ hi * m := by
    intro m
    induction m with
    | zero => simp
    | succ m ih =>
      have hm := h m
      rw [range_succ, map_append, sum_append, map_cons, map_nil,
        List.sum_singleton, Int.natCast_succ, Int.mul_add, Int.mul_add, Int.mul_one, Int.mul_one]
      omega
  obtain ⟨hmin, hmax⟩ := hsum n
  have hpos : (0 : Int) < n := by omega
  unfold baseOf
  rcases Int.le_total 0 ((List.range n).map samples).sum with hsign | hsign
  · rw [Int.tdiv_eq_ediv_of_nonneg hsign]
    exact ⟨Int.le_trans hlo (Int.ediv_nonneg hsign (Int.le_of_lt hpos)),
      Int.ediv_le_of_le_mul hpos hmax⟩
  · have hneg : ((List.range n).map samples).sum.tdiv n =
        -((-((List.range n).map samples).sum) / n) := by
      rw [← Int.tdiv_eq_ediv_of_nonneg (by omega), Int.neg_tdiv, Int.neg_neg]
    have hnonneg : 0 ≤ -((List.range n).map samples).sum / (n : Int) :=
      Int.ediv_nonneg (by omega) (Int.le_of_lt hpos)
    have hbound : -((List.range n).map samples).sum / (n : Int) ≤ -lo :=
      Int.ediv_le_of_le_mul hpos (by rw [Int.neg_mul]; omega)
    rw [hneg]
    omega

section

variable (gd : TrueColor) (image : Pixels) (srcX srcY : Nat)

theorem chromaOf_range (uv i : Nat) :
    -64 ≤ chromaOf gd image srcX srcY uv i ∧ chromaOf gd image srcX srcY uv i ≤ 63 :=
  clamp64S_range _

end

/-! ### Blocks -/

variable (lib : Library) (samples : Nat → Int)

theorem length_codeChroma (allow : Bool) :
    (codeChroma lib samples allow).length =
      if needsCorrection lib samples allow then 10 else 2 := by
  unfold codeChroma
  by_cases hneeds : needsCorrection lib samples allow = true
  · simp [hneeds]
  · simp [hneeds]

theorem length_codeLuma :
    (codeLuma lib samples).length = 40 := by
  simp [codeLuma]

/-- The number of chroma channels of a block that get corrections. -/
def correctedChannels (lib : Library) (gd : TrueColor) (image : Pixels) (srcX srcY : Nat)
    (allow : Bool) : Nat :=
  (needsCorrection lib (chromaSamples gd image srcX srcY 0) allow).toNat +
    (needsCorrection lib (chromaSamples gd image srcX srcY 1) allow).toNat

section

variable (lib : Library) (gd : TrueColor) (image : Pixels) (srcX srcY : Nat) (allow : Bool)

theorem length_codeBlock : (codeBlock lib gd image srcX srcY allow).length =
    48 + 8 * correctedChannels lib gd image srcX srcY allow := by
  unfold codeBlock correctedChannels
  simp only [length_append, length_cons, List.length_nil, length_codeChroma,
    length_codeLuma]
  cases needsCorrection lib (chromaSamples gd image srcX srcY 0) allow <;>
    cases needsCorrection lib (chromaSamples gd image srcX srcY 1) allow <;> rfl

theorem length_codeBlock_le : (codeBlock lib gd image srcX srcY allow).length ≤ 64 := by
  have hu := Bool.toNat_le (needsCorrection lib (chromaSamples gd image srcX srcY 0) allow)
  have hv := Bool.toNat_le (needsCorrection lib (chromaSamples gd image srcX srcY 1) allow)
  rw [length_codeBlock, correctedChannels]
  omega

/-- The flag of a byte of the header, whose other bits are a base value. -/
theorem flag_of_byte {n : Int} (h0 : 0 ≤ n) (h127 : n ≤ 127) (flag : Bool) :
    decide ((UInt8.ofNat n.toNat ||| flagByte flag) &&& 0x80 ≠ 0) = flag := by
  have hall : ∀ (m : Fin 128) (flag : Bool),
      decide ((UInt8.ofNat m.val ||| flagByte flag) &&& 0x80 ≠ 0) = flag := by decide +kernel
  exact hall ⟨n.toNat, by omega⟩ flag

/-- The first byte of a block is its length less one, and says that it has 4 bits a pixel. -/
theorem codeBlock_length_byte (rest : List UInt8) :
    ((codeBlock lib gd image srcX srcY allow ++ rest).getD 0 0 &&& 0x7f).toNat + 1 =
      (codeBlock lib gd image srcX srcY allow).length ∧
    (codeBlock lib gd image srcX srcY allow ++ rest).getD 0 0 &&& 0x80 = 0 := by
  have hall : ∀ m : Fin 128,
      (UInt8.ofNat m.val &&& 0x7f).toNat = m.val ∧ UInt8.ofNat m.val &&& 0x80 = 0 := by
    decide +kernel
  have hlen := length_codeBlock_le lib gd image srcX srcY allow
  have hpos : 48 ≤ (codeBlock lib gd image srcX srcY allow).length := by
    rw [length_codeBlock]
    omega
  have hfirst : (codeBlock lib gd image srcX srcY allow ++ rest).getD 0 0 =
      UInt8.ofNat ((codeBlock lib gd image srcX srcY allow).length - 1) := by
    unfold codeBlock
    simp only [List.cons_append, List.getD_cons_zero, length_cons, List.nil_append]
    refine congrArg UInt8.ofNat ?_
    omega
  have hbyte := hall ⟨(codeBlock lib gd image srcX srcY allow).length - 1, by omega⟩
  rw [hfirst]
  exact ⟨by rw [hbyte.1]; show _ - 1 + 1 = _; omega, hbyte.2⟩

theorem codeBlock_flag_byte (rest : List UInt8) {uv : Nat} (huv : uv < 2) :
    decide ((codeBlock lib gd image srcX srcY allow ++ rest).getD (2 + uv) 0 &&& 0x80 ≠ 0) =
      needsCorrection lib (chromaSamples gd image srcX srcY uv) allow := by
  have hbase : ∀ uv, -64 ≤ baseOf 16 (chromaOf gd image srcX srcY uv) ∧
      baseOf 16 (chromaOf gd image srcX srcY uv) ≤ 63 := fun uv =>
    baseOf_range (by decide) (by decide) (by decide) (chromaOf_range gd image srcX srcY uv)
  have hcases : uv = 0 ∨ uv = 1 := by omega
  rcases hcases with rfl | rfl
  · have hrange := hbase 0
    exact flag_of_byte (by omega) (by omega) _
  · have hrange := hbase 1
    exact flag_of_byte (by omega) (by omega) _

theorem decodeBlock_codeBlock (rest : List UInt8) (dest : Pixels) (destX destY : Nat) :
    decodeBlock lib gd (codeBlock lib gd image srcX srcY allow ++ rest)
        (codeBlock lib gd image srcX srcY allow).length dest destX destY =
      .ok (drawBlock dest destX destY
        (blockPixel lib gd (codeBlock lib gd image srcX srcY allow ++ rest))) := by
  have hlen := length_codeBlock lib gd image srcX srcY allow
  have hu := @codeBlock_flag_byte lib gd image srcX srcY allow rest 0 (by decide)
  have hv := @codeBlock_flag_byte lib gd image srcX srcY allow rest 1 (by decide)
  simp only [Nat.reduceAdd] at hu hv
  have hlong : ¬ (codeBlock lib gd image srcX srcY allow).length < 4 := by omega
  have hbits := (codeBlock_length_byte lib gd image srcX srcY allow rest).2
  rw [decodeBlock, if_neg hlong, if_neg (not_not.mpr hbits), if_neg]
  rw [not_not, hlen, correctedChannels, ← hu, ← hv]
  have hten : ∀ (p : Prop) [Decidable p], (if p then 10 else 2) = 2 + 8 * (decide p).toNat := by
    intro p hp
    by_cases h : p
    · rw [if_pos h, decide_eq_true h]
      rfl
    · rw [if_neg h, decide_eq_false h]
      rfl
  rw [hten, hten]
  omega

end

/-! ### The loop of the decoder -/

/-- The blocks of a stream, drawn one after the other from a place in the shuffle table on. -/
def drawBlocks (lib : Library) (gd : TrueColor) (pattern : Nat) :
    Nat → List (List UInt8) → Pixels → Pixels
  | _, [], dest => dest
  | block, src :: blocks, dest =>
    drawBlocks lib gd pattern (block + 1) blocks
      (drawBlock dest (lib.coord pattern block).x (lib.coord pattern block).y
        (blockPixel lib gd src))

/-- A block that was coded at some coordinates. -/
def IsCoded (lib : Library) (gd : TrueColor) (image : Pixels) (allow : Bool)
    (src : List UInt8) : Prop :=
  ∃ srcX srcY, src = codeBlock lib gd image srcX srcY allow

section

variable (lib : Library) (gd : TrueColor) (image : Pixels) (allow : Bool)

theorem blockPixel_append {src : List UInt8} (hcoded : IsCoded lib gd image allow src)
    (rest : List UInt8) {x y : Nat} (hx : x < 8) (hy : y < 8) :
    blockPixel lib gd (src ++ rest) x y = blockPixel lib gd src x y := by
  obtain ⟨srcX, srcY, rfl⟩ := hcoded
  have hlen := length_codeBlock lib gd image srcX srcY allow
  have hu := @codeBlock_flag_byte lib gd image srcX srcY allow [] 0 (by decide)
  have hv := @codeBlock_flag_byte lib gd image srcX srcY allow [] 1 (by decide)
  simp only [Nat.reduceAdd, append_nil] at hu hv
  rw [correctedChannels, ← hu, ← hv] at hlen
  generalize codeBlock lib gd image srcX srcY allow = src at *
  have hget : ∀ i, i < src.length → (src ++ rest).getD i 0 = src.getD i 0 := by
    intro i hi
    rw [List.getD_eq_getElem?_getD, List.getElem?_append_left hi, ← List.getD_eq_getElem?_getD]
  have hten : ∀ b : Bool, (if b = true then 10 else 2) = 2 + 8 * b.toNat := by decide
  have hcorr : ∀ off i, off + i / 2 < src.length →
      correctionAt (src ++ rest) off i = correctionAt src off i := by
    intro off i hi
    rw [correctionAt, correctionAt, hget _ hi]
  have hchroma : ∀ base (corrected : Bool) off i, i < 16 →
      off + 2 + 8 * corrected.toNat ≤ src.length →
      decodeChroma lib (src ++ rest) base corrected off i =
        decodeChroma lib src base corrected off i := by
    intro base corrected off i hi hfits
    cases corrected with
    | false =>
      simp only [decodeChroma, hget (off + i / 8) (by omega), Bool.false_eq_true, if_false]
    | true =>
      rw [Bool.toNat_true] at hfits
      rw [decodeChroma, decodeChroma, hget _ (by omega), hcorr _ _ (by omega)]
  have hluma : ∀ base table off i, i < 64 → off + 40 ≤ src.length →
      decodeLuma lib (src ++ rest) base table off i = decodeLuma lib src base table off i := by
    intro base table off i hi hfits
    rw [decodeLuma, decodeLuma, hget _ (by omega), hcorr _ _ (by omega)]
  have hindex : chromaIndex x y < 16 := by
    unfold chromaIndex
    omega
  simp only [blockPixel, hget 1 (by omega), hget 2 (by omega), hget 3 (by omega), hten]
  rw [hluma _ _ _ _ (by omega) (by omega), hchroma _ _ _ _ hindex (by omega),
    hchroma _ _ _ _ hindex (by omega)]

theorem drawBlock_append {src : List UInt8} (hcoded : IsCoded lib gd image allow src)
    (rest : List UInt8) (dest : Pixels) (destX destY : Nat) :
    drawBlock dest destX destY (blockPixel lib gd (src ++ rest)) =
      drawBlock dest destX destY (blockPixel lib gd src) := by
  funext y x
  unfold drawBlock
  by_cases hin : destX ≤ x ∧ x < destX + 8 ∧ destY ≤ y ∧ y < destY + 8
  · rw [if_pos hin, if_pos hin]
    exact blockPixel_append lib gd image allow hcoded rest (by omega) (by omega)
  · rw [if_neg hin, if_neg hin]

theorem decodeLoop_coded {blocks : List (List UInt8)}
    (hcoded : ∀ src ∈ blocks, IsCoded lib gd image allow src) (pattern block : Nat)
    (dest : Pixels) :
    decodeLoop lib gd pattern blocks.length block blocks.flatten blocks.flatten.length dest =
      .ok (drawBlocks lib gd pattern block blocks dest, block + blocks.length, 0) := by
  induction blocks generalizing block dest with
  | nil => rfl
  | cons src blocks ih =>
    have hsrc : IsCoded lib gd image allow src := hcoded src List.mem_cons_self
    obtain ⟨srcX, srcY, hsrcEq⟩ := id hsrc
    have hlen := length_codeBlock lib gd image srcX srcY allow
    have hbyte := (codeBlock_length_byte lib gd image srcX srcY allow blocks.flatten).1
    have hblock := decodeBlock_codeBlock lib gd image srcX srcY allow blocks.flatten dest
      (lib.coord pattern block).x (lib.coord pattern block).y
    rw [← hsrcEq] at hlen hbyte hblock
    rw [drawBlock_append lib gd image allow hsrc] at hblock
    have htotal : (src :: blocks).flatten.length = src.length + blocks.flatten.length := by
      rw [flatten_cons, length_append]
    have hpos : ¬ (src :: blocks).flatten.length = 0 := by omega
    have hfits : ¬ src.length > (src :: blocks).flatten.length := by omega
    rw [length_cons, decodeLoop, if_neg hpos]
    rw [flatten_cons, hbyte, ← flatten_cons]
    rw [if_neg hfits, flatten_cons, hblock]
    simp only [List.drop_left, length_append, Nat.add_sub_cancel_left]
    rw [ih (fun s hs => hcoded s (List.mem_cons_of_mem _ hs)), drawBlocks, Nat.add_assoc,
      Nat.add_comm 1]

end

/-! ### What is drawn -/

/-- A shuffle table puts the blocks of a picture at different places of a grid of 8x8 pixels. -/
structure ValidShuffle (lib : Library) (pattern : Nat) : Prop where
  aligned : ∀ i < lib.blocks, (lib.coord pattern i).x % 8 = 0 ∧ (lib.coord pattern i).y % 8 = 0
  inside : ∀ i < lib.blocks,
    (lib.coord pattern i).x + 8 ≤ lib.width ∧ (lib.coord pattern i).y + 8 ≤ lib.height
  distinct : ∀ i < lib.blocks, ∀ j < lib.blocks,
    lib.coord pattern i = lib.coord pattern j → i = j

/-- The place is in the block at `c`. -/
def Covers (c : Coord) (x y : Nat) : Prop := c.x ≤ x ∧ x < c.x + 8 ∧ c.y ≤ y ∧ y < c.y + 8

section

variable {lib : Library} {gd : TrueColor} {pattern : Nat}

theorem ValidShuffle.not_covers (hvalid : ValidShuffle lib pattern) {i j : Nat}
    (hi : i < lib.blocks) (hj : j < lib.blocks) (hne : i ≠ j) {x y : Nat} (hx : x < 8)
    (hy : y < 8) :
    ¬ Covers (lib.coord pattern j) ((lib.coord pattern i).x + x) ((lib.coord pattern i).y + y) := by
  rintro ⟨hx1, hx2, hy1, hy2⟩
  obtain ⟨hix, hiy⟩ := hvalid.aligned i hi
  obtain ⟨hjx, hjy⟩ := hvalid.aligned j hj
  have hsameX : (lib.coord pattern i).x = (lib.coord pattern j).x := by omega
  have hsameY : (lib.coord pattern i).y = (lib.coord pattern j).y := by omega
  apply hne
  exact hvalid.distinct i hi j hj (Coord.ext hsameX hsameY)

theorem drawBlocks_outside {block : Nat} {blocks : List (List UInt8)} {x y : Nat}
    (h : ∀ k < blocks.length, ¬ Covers (lib.coord pattern (block + k)) x y) (dest : Pixels) :
    drawBlocks lib gd pattern block blocks dest y x = dest y x := by
  induction blocks generalizing block dest with
  | nil => rfl
  | cons src blocks ih =>
    rw [drawBlocks, ih]
    · exact if_neg (h 0 (Nat.succ_pos _))
    · intro k hk
      have := h (k + 1) (Nat.succ_lt_succ hk)
      rwa [Nat.add_comm k, ← Nat.add_assoc] at this

theorem drawBlocks_pixel (hvalid : ValidShuffle lib pattern) {block : Nat}
    {blocks : List (List UInt8)} (hfits : block + blocks.length ≤ lib.blocks) {k : Nat}
    (hk : k < blocks.length) {x y : Nat} (hx : x < 8) (hy : y < 8) (dest : Pixels) :
    drawBlocks lib gd pattern block blocks dest ((lib.coord pattern (block + k)).y + y)
      ((lib.coord pattern (block + k)).x + x) =
      blockPixel lib gd (blocks.getD k []) x y := by
  induction blocks generalizing block dest k with
  | nil => cases hk
  | cons src blocks ih =>
    rw [length_cons] at hfits hk
    rw [drawBlocks]
    cases k with
    | zero =>
      rw [drawBlocks_outside]
      · rw [Nat.add_zero, drawBlock, if_pos (by omega), Nat.add_sub_cancel_left,
          Nat.add_sub_cancel_left, List.getD_cons_zero]
      · intro j hj
        exact hvalid.not_covers (by omega) (by omega) (by omega) hx hy
    | succ k =>
      have hrest := @ih (block + 1) (by omega) k (by omega)
      rw [Nat.add_assoc, Nat.add_comm 1 k] at hrest
      rw [hrest, List.getD_cons_succ]

end

/-! ### The stream -/

/-- How many chroma channels of a picture get corrections. -/
def totalCorrected (lib : Library) (gd : TrueColor) (image : Pixels) (pattern : Nat)
    (allow : Bool) : Nat :=
  ((List.range lib.blocks).map fun i => correctedChannels lib gd image
    (lib.coord pattern i).x (lib.coord pattern i).y allow).sum

section

variable (lib : Library) (gd : TrueColor) (image : Pixels) (pattern : Nat) (allow : Bool)

@[simp] theorem length_codeBlocks :
    (codeBlocks lib gd image pattern allow).length = lib.blocks := by
  simp [codeBlocks]

theorem codeBlocks_getD {i : Nat} (hi : i < lib.blocks) :
    (codeBlocks lib gd image pattern allow).getD i [] =
      codeBlock lib gd image (lib.coord pattern i).x (lib.coord pattern i).y allow := by
  simp [codeBlocks, List.getD_eq_getElem?_getD, hi]

theorem isCoded_codeBlocks :
    ∀ src ∈ codeBlocks lib gd image pattern allow, IsCoded lib gd image allow src := by
  intro src hsrc
  obtain ⟨i, -, rfl⟩ := List.mem_map.mp hsrc
  exact ⟨_, _, rfl⟩

theorem length_flatten_codeBlocks : (codeBlocks lib gd image pattern allow).flatten.length =
    48 * lib.blocks + 8 * totalCorrected lib gd image pattern allow := by
  have hsum : ∀ (f : Nat → List UInt8) (g : Nat → Nat), (∀ i, (f i).length = 48 + 8 * g i) →
      ∀ n, ((List.range n).map f).flatten.length = 48 * n + 8 * ((List.range n).map g).sum := by
    intro f g hfg n
    induction n with
    | zero => rfl
    | succ n ih =>
      have hn := hfg n
      simp only [range_succ, map_append, List.flatten_append, length_append, ih,
        sum_append, map_cons, map_nil, flatten_cons, List.flatten_nil,
        append_nil, sum_cons, sum_nil]
      omega
  exact hsum _ _ (fun i => length_codeBlock lib gd image _ _ allow) lib.blocks

theorem correctedChannels_le (srcX srcY : Nat) :
    correctedChannels lib gd image srcX srcY allow ≤ 2 :=
  Nat.add_le_add (Bool.toNat_le _) (Bool.toNat_le _)

theorem totalCorrected_le : totalCorrected lib gd image pattern allow ≤ 2 * lib.blocks := by
  have hsum : ∀ g : Nat → Nat, (∀ i, g i ≤ 2) → ∀ n, ((List.range n).map g).sum ≤ 2 * n := by
    intro g hg n
    induction n with
    | zero => exact Nat.le_refl 0
    | succ n ih =>
      have hn := hg n
      simp only [range_succ, map_append, sum_append, map_cons, map_nil,
        sum_cons, sum_nil]
      omega
  exact hsum _ (fun i => correctedChannels_le lib gd image allow _ _) lib.blocks

variable (used : Nat) (body : List UInt8)

@[simp] theorem length_imageHeader : (imageHeader lib pattern used).length = 16 := by
  simp [imageHeader, be16]

theorem headerLength_imageHeader :
    headerLength (imageHeader lib pattern used ++ body) = used % 65536 := by
  show (UInt8.ofNat (used / 256)).toNat * 256 + (UInt8.ofNat used).toNat = _
  rw [UInt8.toNat_ofNat', UInt8.toNat_ofNat']
  omega

theorem pattern_imageHeader :
    ((imageHeader lib pattern used ++ body).getD 7 0).toNat = pattern % 256 :=
  UInt8.toNat_ofNat'

end

/-! ### The round trip -/

/-- The sizes that `st2205_init` knows shuffle tables for. -/
def supportedSizes : List (Nat × Nat) := [(128, 160), (128, 128), (120, 160), (96, 64), (240, 320)]

/-- What `st2205_init` sets up. -/
structure ValidLibrary (lib : Library) : Prop where
  size : (lib.width, lib.height) ∈ supportedSizes
  few : lib.noShuffles ≤ 8
  shuffle : ∀ pattern < lib.noShuffles, ValidShuffle lib pattern

/-- The decoder agrees with the coder on what a stream says. -/
structure RoundTrips (lib : Library) (gd : TrueColor) (image : Pixels) (pattern : Nat)
    (allow : Bool) (stream : List UInt8) : Prop where
  /-- The length field of the header is the number of bytes that follow it. -/
  lengthField : headerLength stream = (stream.drop 16).length
  /-- The blocks tile the stream, each with the length it says. -/
  tiles : stream.drop 16 = (codeBlocks lib gd image pattern allow).flatten ∧
    ∀ src ∈ codeBlocks lib gd image pattern allow,
      (src.getD 0 0 &&& 0x7f).toNat + 1 = src.length
  /-- Each block is decoded at the coordinates it was coded from. -/
  decodes : ∀ dest, ∃ dest', decodeImage lib gd stream dest = .ok dest' ∧
    ∀ i < lib.blocks, ∀ x < 8, ∀ y < 8,
      dest' ((lib.coord pattern i).y + y) ((lib.coord pattern i).x + x) =
        blockPixel lib gd (codeBlock lib gd image (lib.coord pattern i).x
          (lib.coord pattern i).y allow) x y
  /-- The chroma sample that a pixel gets is the one of its group of 2x2 pixels. -/
  chroma : ∀ i < lib.blocks, ∀ uv < 2, ∀ x < 8, ∀ y < 8,
    chromaOf gd image (lib.coord pattern i).x (lib.coord pattern i).y uv (chromaIndex x y) =
      groupChroma gd image uv ((lib.coord pattern i).x + x / 2 * 2)
        ((lib.coord pattern i).y + y / 2 * 2)
  /-- The stream fits in the buffer of `st2205_write_file`. -/
  fits : stream.length ≤ lib.width * lib.height * 2

/-- In every block, the groups of 2x2 pixels at a distance of one have the chroma of those at a
distance of two. -/
def ChromaInPlace (lib : Library) (gd : TrueColor) (image : Pixels) (pattern : Nat) : Prop :=
  ∀ i < lib.blocks, ∀ uv < 2, ∀ gx < 4, ∀ gy < 4,
    groupChroma gd image uv ((lib.coord pattern i).x + gx) ((lib.coord pattern i).y + gy) =
      groupChroma gd image uv ((lib.coord pattern i).x + gx * 2)
        ((lib.coord pattern i).y + gy * 2)

section

variable {lib : Library} {pattern : Nat}

theorem ValidLibrary.fits (hlib : ValidLibrary lib) :
    16 + 64 * lib.blocks ≤ lib.width * lib.height * 2 := by
  have hsize := hlib.size
  simp only [supportedSizes, List.mem_cons, List.not_mem_nil, or_false, Prod.mk.injEq] at hsize
  unfold Library.blocks
  obtain ⟨hw, hh⟩ | ⟨hw, hh⟩ | ⟨hw, hh⟩ | ⟨hw, hh⟩ | ⟨hw, hh⟩ := hsize <;> rw [hw, hh] <;> decide

theorem codeImage_eq (hpattern : pattern < lib.noShuffles) (gd : TrueColor) (image : Pixels)
    (allow : Bool) : codeImage lib gd image pattern allow =
      .ok (imageHeader lib pattern (codeBlocks lib gd image pattern allow).flatten.length ++
        (codeBlocks lib gd image pattern allow).flatten) :=
  if_neg (Nat.not_le.mpr hpattern)

theorem drop_header (gd : TrueColor) (image : Pixels) (allow : Bool) (used : Nat) :
    (imageHeader lib pattern used ++ (codeBlocks lib gd image pattern allow).flatten).drop 16 =
      (codeBlocks lib gd image pattern allow).flatten :=
  List.drop_left' (length_imageHeader lib pattern used)

theorem decodeImage_codeBlocks (hlib : ValidLibrary lib) (hpattern : pattern < lib.noShuffles)
    (gd : TrueColor) (image : Pixels) (allow : Bool)
    (hshort : (codeBlocks lib gd image pattern allow).flatten.length ≤ 65535) (dest : Pixels) :
    decodeImage lib gd (imageHeader lib pattern
        (codeBlocks lib gd image pattern allow).flatten.length ++
          (codeBlocks lib gd image pattern allow).flatten) dest =
      .ok (drawBlocks lib gd pattern 0 (codeBlocks lib gd image pattern allow) dest) := by
  have hfew := hlib.few
  have hbyte : pattern % 256 = pattern := Nat.mod_eq_of_lt (by omega)
  have hloop := decodeLoop_coded lib gd image allow
    (isCoded_codeBlocks lib gd image pattern allow) pattern 0 dest
  rw [length_codeBlocks, Nat.zero_add] at hloop
  unfold decodeImage
  rw [pattern_imageHeader, hbyte, if_neg (Nat.not_le.mpr hpattern), drop_header,
    headerLength_imageHeader, Nat.mod_eq_of_lt (by omega), hloop]
  simp only [ne_eq, not_true_eq_false, if_false]

end

/-! ### A frame of 96x64 -/

/-- Pixels as `0xRRGGBB`. -/
def rgbMacros : TrueColor where
  trueColor r g b := r * 65536 + g * 256 + b
  red p := p / 65536 % 256
  green p := p / 256 % 256
  blue p := p % 256
  red_byte p := by omega
  green_byte p := by omega
  blue_byte p := by omega

/-- The smallest frame, with its blocks in rows and tables of zeros. -/
def smallFrame : Library where
  width := 96
  height := 64
  lookup _ _ _ := 0
  shuffle := [(List.range 96).map fun i => ⟨i % 12 * 8, i / 12 * 8⟩]
  noShuffles := 1
  unknown3 := [0xff]

theorem smallFrame_valid : ValidLibrary smallFrame where
  size := by decide
  few := by decide
  shuffle := by
    intro pattern hpattern
    have hzero : pattern = 0 := Nat.lt_one_iff.mp hpattern
    have hcoord : ∀ i < 96, smallFrame.coord 0 i = ⟨i % 12 * 8, i / 12 * 8⟩ := by decide +kernel
    rw [hzero]
    refine ⟨?_, ?_, ?_⟩
    · intro i hi
      rw [hcoord i hi]
      exact ⟨Nat.mul_mod_left _ 8, Nat.mul_mod_left _ 8⟩
    · intro i hi
      have hlt : i < 96 := hi
      show (smallFrame.coord 0 i).x + 8 ≤ 96 ∧ (smallFrame.coord 0 i).y + 8 ≤ 64
      rw [hcoord i hi]
      show i % 12 * 8 + 8 ≤ 96 ∧ i / 12 * 8 + 8 ≤ 64
      omega
    · intro i hi j hj hsame
      rw [hcoord i hi, hcoord j hj] at hsame
      obtain ⟨hcolumn, hrow⟩ := Coord.mk.inj hsame
      omega

end GPhoto2.St2205
