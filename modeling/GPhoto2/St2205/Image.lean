import GPhoto2.Result
import Mathlib.Algebra.GroupWithZero.Nat
import Mathlib.Algebra.Ring.Int.Defs

/-!
# `GPhoto2.St2205.Image`: the compressed pictures of the st2205 picture frames

`st2205_decode.c`. A picture is coded in blocks of 8x8 pixels, which stand in the stream in the
order of a shuffle table. A block has 64 luma samples and two times 16 chroma samples; rows of them
are coded as the index of the closest row of a lookup table, with corrections for the luma samples
and, where the match is bad and the caller allows it, for the chroma samples.

Arrays are functions of their index. Where the source stores into 16 bits, or adds numbers that
depend on the lookup tables in 32 bits, the model wraps.
-/

set_option autoImplicit false

namespace GPhoto2.St2205

/-- The macros of the image library for pixels in true colour, whose components are bytes. -/
structure TrueColor where
  trueColor : Int → Int → Int → Int
  red : Int → Int
  green : Int → Int
  blue : Int → Int
  red_byte : ∀ p, 0 ≤ red p ∧ red p ≤ 255
  green_byte : ∀ p, 0 ≤ green p ∧ green p ≤ 255
  blue_byte : ∀ p, 0 ≤ blue p ∧ blue p ≤ 255

/-- The rows of a picture: `image y x` is the pixel `image[y][x]`. -/
abbrev Pixels := Nat → Nat → Int

/-- `struct st2205_coord`. -/
@[ext]
structure Coord where
  x : Nat
  y : Nat
  deriving DecidableEq, Inhabited

/-- What the coder and the decoder read of `CameraPrivateLibrary`. -/
structure Library where
  width : Nat
  height : Nat
  /-- `lookup[table][row][column]`: two tables for luma, one for chroma. -/
  lookup : Nat → Nat → Nat → Int
  shuffle : List (List Coord)
  noShuffles : Nat
  unknown3 : List UInt8

namespace Library

variable (lib : Library)

/-- The number of blocks of a picture. -/
def blocks : Nat := lib.width * lib.height / 64

/-- Where the pixels of a block are, by its place in the stream. -/
def coord (pattern block : Nat) : Coord := (lib.shuffle.getD pattern []).getD block default

end Library

/-- What is left of a number that is stored in an `int16_t`. -/
def int16 (n : Int) : Int := n.bmod 65536

/-- What is left of a number that is stored in an `int`. -/
def int32 (n : Int) : Int := n.bmod 4294967296

/-- `CLAMP256`. -/
def clamp256 (x : Int) : Int := if x > 255 then 255 else if x < 0 then 0 else x

/-- `CLAMP64S`. -/
def clamp64S (x : Int) : Int := if x > 63 then 63 else if x < -64 then -64 else x

/-- `st2205_corr_table`. -/
def corrTable : List Int := [-26, -22, -18, -14, -11, -7, -4, -1, 1, 4, 7, 11, 14, 18, 22, 26]

/-! ### The coder -/

/-- The `diff` of `st2205_find_closest_match`, an `unsigned int`. -/
def rowDiff (table : Nat → Nat → Int) (row : Nat → Int) (i : Nat) : Nat :=
  ((List.range 8).map fun j => (row j - table i j) * (row j - table i j)).sum.toNat % 4294967296

/-- `st2205_find_closest_match`: the index of the closest row, and its difference. -/
def findClosestMatch (table : Nat → Nat → Int) (row : Nat → Int) : Nat × Int :=
  let best := (List.range 256).foldl
    (fun best i => if rowDiff table row i < best.2 then (i, rowDiff table row i) else best)
    (0, 4294967295)
  (best.1, int32 best.2)

/-- `st2205_closest_correction`, of a number that was stored in an `int16_t`. -/
def closestCorrection (corr : Int) : Nat :=
  ((List.range' 1 15).foldl
    (fun best i =>
      if (corrTable.getD i 0 - int16 corr).natAbs < best.2 then
        (i, (corrTable.getD i 0 - int16 corr).natAbs)
      else
        best)
    (0, (corrTable.getD 0 0 - int16 corr).natAbs)).1

/-- Two corrections in a byte. -/
def corrByte (corr1 corr2 : Int) : UInt8 :=
  UInt8.ofNat (closestCorrection corr1) <<< 4 ||| UInt8.ofNat (closestCorrection corr2)

section

variable (gd : TrueColor) (image : Pixels)

/-- The luma sample `i` of the block at these coordinates. -/
def lumaOf (srcX srcY i : Nat) : Int :=
  let p := image (srcY + i / 8) (srcX + i % 8)
  (gd.red p + gd.green p + gd.blue p).tdiv 6

/-- The sum of a component over a group of 2x2 pixels. -/
def groupSum (component : Int → Int) (x y : Nat) : Int :=
  component (image y x) + component (image y (x + 1)) + component (image (y + 1) x) +
    component (image (y + 1) (x + 1))

/-- The chroma of a group of 2x2 pixels: blue for 0, red for 1. -/
def groupChroma (uv x y : Nat) : Int :=
  let r := groupSum image gd.red x y
  let g := groupSum image gd.green x y
  let b := groupSum image gd.blue x y
  clamp64S (((if uv = 0 then b else r) * 3 - (r + g + b)).tdiv 24)

/-- The chroma sample `i` of the block at these coordinates. -/
def chromaOf (srcX srcY uv i : Nat) : Int :=
  -- the groups of two samples that are next to each other overlap
  groupChroma gd image uv (srcX + i % 4) (srcY + i / 4)

end

/-- The base value of `n` samples: their mean, towards 0. -/
def baseOf (n : Nat) (samples : Nat → Int) : Int :=
  ((List.range n).map samples).sum.tdiv n

section

variable (lib : Library)

/-- The matches for the two halves of 16 normalized chroma samples. -/
def chromaMatch (samples : Nat → Int) (half : Nat) : Nat × Int :=
  findClosestMatch (lib.lookup 2) fun j => samples (8 * half + j)

/-- Whether the chroma samples get corrections. -/
def needsCorrection (samples : Nat → Int) (allowUvCorr : Bool) : Bool :=
  (decide ((chromaMatch lib samples 0).2 > 64) || decide ((chromaMatch lib samples 1).2 > 64)) &&
    allowUvCorr

/-- The bytes for 16 normalized chroma samples. -/
def codeChroma (samples : Nat → Int) (allowUvCorr : Bool) : List UInt8 :=
  let pattern := fun half => (chromaMatch lib samples half).1
  let residue := fun x => samples x - lib.lookup 2 (pattern (x / 8)) (x % 8)
  [UInt8.ofNat (pattern 0), UInt8.ofNat (pattern 1)] ++
    if needsCorrection lib samples allowUvCorr then
      (List.range 8).map fun k => corrByte (residue (2 * k)) (residue (2 * k + 1))
    else
      []

/-- The match of a row of 8 normalized luma samples. -/
def lumaMatch (samples : Nat → Int) (table y : Nat) : Nat × Int :=
  findClosestMatch (lib.lookup table) fun j => samples (y * 8 + j)

/-- How badly a luma table matches. -/
def lumaDiff (samples : Nat → Int) (table : Nat) : Int :=
  (List.range 8).foldl (fun diff y => int32 (diff + (lumaMatch lib samples table y).2)) 0

/-- The luma table that is chosen. -/
def lumaTable (samples : Nat → Int) : Nat :=
  if lumaDiff lib samples 0 ≤ lumaDiff lib samples 1 then 0 else 1

/-- The bytes for 64 normalized luma samples. -/
def codeLuma (samples : Nat → Int) : List UInt8 :=
  let table := lumaTable lib samples
  let pattern := fun y => (lumaMatch lib samples table y).1
  let residue := fun i => samples i - lib.lookup table (pattern (i / 8)) (i % 8)
  ((List.range 8).map fun y => UInt8.ofNat (pattern y)) ++
    (List.range 32).map fun k => corrByte (residue (2 * k)) (residue (2 * k + 1))

/-- The normalized chroma samples of a block. -/
def chromaSamples (gd : TrueColor) (image : Pixels) (srcX srcY uv : Nat) (i : Nat) : Int :=
  chromaOf gd image srcX srcY uv i - baseOf 16 (chromaOf gd image srcX srcY uv)

/-- The normalized luma samples of a block. -/
def lumaSamples (gd : TrueColor) (image : Pixels) (srcX srcY : Nat) (i : Nat) : Int :=
  lumaOf gd image srcX srcY i - baseOf 64 (lumaOf gd image srcX srcY)

/-- The flag of the header of a block. -/
def flagByte (flag : Bool) : UInt8 := if flag then 0x80 else 0x00

/-- `st2205_code_block`. -/
def codeBlock (gd : TrueColor) (image : Pixels) (srcX srcY : Nat) (allowUvCorr : Bool) :
    List UInt8 :=
  let luma := lumaSamples gd image srcX srcY
  let chroma := chromaSamples gd image srcX srcY
  let rest := codeChroma lib (chroma 0) allowUvCorr ++ codeChroma lib (chroma 1) allowUvCorr ++
    codeLuma lib luma
  [UInt8.ofNat (4 + rest.length - 1),
    UInt8.ofNat (baseOf 64 (lumaOf gd image srcX srcY)).toNat |||
      flagByte (lumaTable lib luma = 1),
    UInt8.ofNat (baseOf 16 (chromaOf gd image srcX srcY 0) + 64).toNat |||
      flagByte (needsCorrection lib (chroma 0) allowUvCorr),
    UInt8.ofNat (baseOf 16 (chromaOf gd image srcX srcY 1) + 64).toNat |||
      flagByte (needsCorrection lib (chroma 1) allowUvCorr)] ++ rest

/-- A number of 16 bits, the high byte first. -/
def be16 (n : Nat) : List UInt8 := [UInt8.ofNat (n / 256), UInt8.ofNat n]

/-- `struct st2205_image_header`, as `st2205_code_image` fills it in. -/
def imageHeader (pattern used : Nat) : List UInt8 :=
  [0xf5] ++ be16 lib.width ++ be16 lib.height ++ be16 (lib.width * lib.height / 64) ++
    [UInt8.ofNat pattern, 0x04, lib.unknown3.getD pattern 0] ++ be16 used ++ [0, 0, 0, 0]

/-- The blocks of a picture in the order of the stream. -/
def codeBlocks (gd : TrueColor) (image : Pixels) (pattern : Nat) (allowUvCorr : Bool) :
    List (List UInt8) :=
  (List.range lib.blocks).map fun block =>
    codeBlock lib gd image (lib.coord pattern block).x (lib.coord pattern block).y allowUvCorr

/-- `st2205_code_image`: the stream, whose length it returns. -/
def codeImage (gd : TrueColor) (image : Pixels) (pattern : Nat) (allowUvCorr : Bool) :
    Except Int (List UInt8) :=
  if pattern ≥ lib.noShuffles then
    .error gpErrorBadParameters
  else
    let body := (codeBlocks lib gd image pattern allowUvCorr).flatten
    .ok (imageHeader lib pattern body.length ++ body)

end

/-! ### The decoder -/

section

variable (lib : Library)

/-- The correction for sample `i` in the bytes of corrections from `off` on. -/
def correctionAt (src : List UInt8) (off i : Nat) : Int :=
  let corr := src.getD (off + i / 2) 0
  corrTable.getD (if i % 2 = 0 then (corr >>> 4).toNat else (corr &&& 0x0f).toNat) 0

/-- The chroma sample `i`, whose bytes stand from `off` on. -/
def decodeChroma (src : List UInt8) (base : Int) (corrected : Bool) (off i : Nat) : Int :=
  let uv := int16 (base - 64 +
    lib.lookup 2 (src.getD (off + i / 8) 0).toNat (i / 4 % 2 * 4 + i % 4))
  if corrected then int16 (uv + correctionAt src (off + 2) i) else uv

/-- The luma sample `i`, whose bytes stand from `off` on. -/
def decodeLuma (src : List UInt8) (base : Int) (table off i : Nat) : Int :=
  int16 (lib.lookup table (src.getD (off + i / 8) 0).toNat (i % 8) +
    (base + correctionAt src (off + 8) i))

/-- Which of the 16 chroma samples a pixel of a block gets. -/
def chromaIndex (x y : Nat) : Nat := y / 2 * 4 + x / 2

/-- The pixel at `x`, `y` of a block. -/
def blockPixel (gd : TrueColor) (src : List UInt8) (x y : Nat) : Int :=
  let uCorr := decide (src.getD 2 0 &&& 0x80 ≠ 0)
  let vCorr := decide (src.getD 3 0 &&& 0x80 ≠ 0)
  let vOff := 4 + if uCorr then 10 else 2
  let yOff := vOff + if vCorr then 10 else 2
  let luma := decodeLuma lib src (src.getD 1 0 &&& 0x7f).toNat (src.getD 1 0 >>> 7).toNat yOff
    (y * 8 + x)
  let u := decodeChroma lib src (src.getD 2 0 &&& 0x7f).toNat uCorr 4 (chromaIndex x y)
  let v := decodeChroma lib src (src.getD 3 0 &&& 0x7f).toNat vCorr vOff (chromaIndex x y)
  gd.trueColor (clamp256 (2 * (luma + v))) (clamp256 (2 * (luma - u - v)))
    (clamp256 (2 * (luma + u)))

/-- A picture with a block drawn into it. -/
def drawBlock (dest : Pixels) (destX destY : Nat) (pixel : Nat → Nat → Int) : Pixels :=
  fun y x =>
    if destX ≤ x ∧ x < destX + 8 ∧ destY ≤ y ∧ y < destY + 8 then
      pixel (x - destX) (y - destY)
    else
      dest y x

/-- `st2205_decode_block`. -/
def decodeBlock (gd : TrueColor) (src : List UInt8) (srcLength : Nat) (dest : Pixels)
    (destX destY : Nat) : Except Int Pixels :=
  if srcLength < 4 then
    .error gpErrorCorruptedData
  else if src.getD 0 0 &&& 0x80 ≠ 0 then
    .error gpErrorCorruptedData
  else if srcLength ≠ 4 + (if src.getD 2 0 &&& 0x80 ≠ 0 then 10 else 2) +
      (if src.getD 3 0 &&& 0x80 ≠ 0 then 10 else 2) + 40 then
    .error gpErrorCorruptedData
  else
    .ok (drawBlock dest destX destY (blockPixel lib gd src))

/-- The loop of `st2205_decode_image`, with the number of blocks that are missing. -/
def decodeLoop (gd : TrueColor) (pattern : Nat) : Nat → Nat → List UInt8 → Nat → Pixels →
    Except Int (Pixels × Nat × Nat)
  | 0, block, _, srcLength, dest => .ok (dest, block, srcLength)
  | missing + 1, block, src, srcLength, dest =>
    if srcLength = 0 then
      .ok (dest, block, srcLength)
    else
      let blockLength := (src.getD 0 0 &&& 0x7f).toNat + 1
      if blockLength > srcLength then
        .error gpErrorCorruptedData
      else
        match decodeBlock lib gd src blockLength dest (lib.coord pattern block).x
          (lib.coord pattern block).y with
        | .error e => .error e
        | .ok dest =>
          decodeLoop gd pattern missing (block + 1) (src.drop blockLength)
            (srcLength - blockLength) dest

/-- The length field of the header of a stream. -/
def headerLength (src : List UInt8) : Nat := (src.getD 10 0).toNat * 256 + (src.getD 11 0).toNat

/-- `st2205_decode_image`. -/
def decodeImage (gd : TrueColor) (src : List UInt8) (dest : Pixels) : Except Int Pixels :=
  let pattern := (src.getD 7 0).toNat
  if pattern ≥ lib.noShuffles then
    .error gpErrorCorruptedData
  else
    match decodeLoop lib gd pattern lib.blocks 0 (src.drop 16) (headerLength src) dest with
    | .error e => .error e
    | .ok (dest, block, srcLength) =>
      if srcLength ≠ 0 then
        .error gpErrorCorruptedData
      else if block ≠ lib.blocks then
        .error gpErrorCorruptedData
      else
        .ok dest

end

end GPhoto2.St2205
