import Mathlib.Data.List.Basic
import Mathlib.Data.Nat.Bitwise

/-!
# `GPhoto2.Ax203.YuvDelta`: the pictures of the ax203 frames with firmware 3.4.x

`ax203_decode_yuv_delta.c`. A picture is compressed in blocks of 4x4 pixels. Four component values
make two bytes: the high five bits of the first value, the number of a table of corrections, and
three corrections, each from the value before.

The functions for signed and for unsigned values differ in the type and in the valid values. The
conversions between colours and components are floating point, and come as parameters
(`Conversion`).
-/

set_option autoImplicit false

namespace GPhoto2.Ax203

/-- The components: `int8_t` for U and V, `uint8_t` for Y. -/
inductive Kind
  | signed
  | unsigned
  deriving DecidableEq

/-- The lowest number of the type. -/
def Kind.low : Kind → Int
  | signed => -128
  | unsigned => 0

/-- The lowest valid value. -/
def Kind.min : Kind → Int
  | signed => -112
  | unsigned => 16

/-- The highest valid value. -/
def Kind.max : Kind → Int
  | signed => 111
  | unsigned => 235

/-- The value of a number in the type. -/
def Kind.wrap (kind : Kind) (x : Int) : Int := (x - kind.low) % 256 + kind.low

/-- `corr_tables`. Table 0 depends on wrap around to get negative corrections. -/
def corrTables : List (List Int) := [
  [0, 32, 64, 96, 128, 160, 192, 224],
  [0, 16, 32, 48, -64, -48, -32, -16],
  [0, 8, 16, 24, -32, -24, -16, -8],
  [0, 4, 8, 12, -16, -12, -8, -4]]

/-- `corr_tables[table][i]`. -/
def corrOf (table i : Nat) : Int := (corrTables.getD table []).getD i 0

/-- `x & ~0x07`. -/
def roundDown (x : Int) : Int := x - x % 8

/-! ### Four component values -/

/-- `ax203_decode_component_values`: the value `i` of the two bytes `b0` and `b1`. -/
def decodeComponentValues (kind : Kind) (b0 b1 : Nat) : Nat → Int
  | 0 => kind.wrap (b0 - b0 % 8 : Nat)
  | i + 1 =>
    let table := (b0 >>> 1) &&& 3
    let corr :=
      if i + 1 = 1 then (b1 >>> 5) &&& 7
      else if i + 1 = 2 then (b1 >>> 2) &&& 7
      else ((b1 <<< 1) &&& 6) ||| (b0 &&& 1)
    kind.wrap (decodeComponentValues kind b0 b1 i + corrOf table corr)

/-- A correction that the loop of `ax203_find_closest_correction_*` does not skip. -/
def allowed (kind : Kind) (base : Int) (table i : Nat) : Bool :=
  let sum := base + corrOf table i
  !(table != 0 && (decide (sum > kind.low + 255) || decide (sum < kind.low))) &&
    (decide (kind.min ≤ kind.wrap sum) && decide (kind.wrap sum ≤ kind.max))

/-- A round of that loop, over `closest_delta` and `closest_idx`. -/
def closestStep (kind : Kind) (base val : Int) (table : Nat) (closest : Nat × Nat) (i : Nat) :
    Nat × Nat :=
  if allowed kind base table i then
    let delta := (kind.wrap (base + corrOf table i) - val).natAbs
    if delta < closest.1 then (delta, i) else closest
  else
    closest

/-- `ax203_find_closest_correction_*`. -/
def findClosestCorrection (kind : Kind) (base val : Int) (table : Nat) : Nat :=
  ((List.range 8).foldl (closestStep kind base val table) (256, 0)).2

def findClosestCorrectionSigned : Int → Int → Nat → Nat := findClosestCorrection .signed

def findClosestCorrectionUnsigned : Int → Int → Nat → Nat := findClosestCorrection .unsigned

/-- The value behind `base`, as near to `val` as the corrections of the table allow. -/
def corrected (kind : Kind) (table : Nat) (base val : Int) : Int :=
  kind.wrap (base + corrOf table (findClosestCorrection kind base val table))

/-- A round of the loop that tries a table: `none` where the correction that is needed is too
large. -/
def tryStep (kind : Kind) (table : Nat) (src : Nat → Int) (base : Int) (j : Nat) : Option Int :=
  if base + corrOf table 3 + 4 < src j ∨ base + corrOf table 4 - 4 > src j then
    none
  else
    some (corrected kind table base (src j))

/-- The corrections of a table are large enough for the values. -/
def tableFits (kind : Kind) (src : Nat → Int) (table : Nat) : Bool :=
  ([1, 2, 3].foldlM (tryStep kind table src) (roundDown (src 0))).isSome

/-- The table that is selected. -/
def selectTable (kind : Kind) (src : Nat → Int) : Nat :=
  ([3, 2, 1].find? (tableFits kind src)).getD 0

/-- The running value of the loop that stores the values, and the bytes so far. -/
structure Encoded where
  base : Int
  b0 : Nat
  b1 : Nat

/-- A round of that loop. -/
def storeStep (kind : Kind) (table : Nat) (src : Nat → Int) (i : Nat) (s : Encoded) : Encoded :=
  let corr := findClosestCorrection kind s.base (src i) table
  { base := corrected kind table s.base (src i)
    b0 := if i = 3 then s.b0 ||| (corr &&& 1) else s.b0
    b1 :=
      if i = 1 then s.b1 ||| (corr <<< 5)
      else if i = 2 then s.b1 ||| (corr <<< 2)
      else s.b1 ||| (corr >>> 1) }

/-- The loop behind the first `n` corrections. -/
def storeValues (kind : Kind) (table : Nat) (src : Nat → Int) : Nat → Encoded
  | 0 =>
    { base := roundDown (src 0)
      b0 := (roundDown (src 0) % 256).toNat ||| (table <<< 1)
      b1 := 0 }
  | n + 1 => storeStep kind table src (n + 1) (storeValues kind table src n)

/-- `ax203_encode_*_component_values`: the two bytes. -/
def encodeComponentValues (kind : Kind) (src : Nat → Int) : Nat × Nat :=
  let s := storeValues kind (selectTable kind src) src 3
  (s.b0, s.b1)

def encodeSignedComponentValues : (Nat → Int) → Nat × Nat := encodeComponentValues .signed

def encodeUnsignedComponentValues : (Nat → Int) → Nat × Nat := encodeComponentValues .unsigned

/-! ### Pictures -/

/-- A pixel of a true colour image. -/
structure Colour where
  red : Nat
  green : Nat
  blue : Nat
  deriving DecidableEq

/-- A picture, by row and column. -/
abbrev Picture := Nat → Nat → Colour

/-- The floating point conversions. They take and return the numbers of the three colours, and
what they return is stored in the type of the component. -/
structure Conversion where
  toY : Nat → Nat → Nat → UInt8
  toU : Nat → Nat → Nat → Int8
  toV : Nat → Nat → Nat → Int8
  red : Int → Int → Int → Int
  green : Int → Int → Int → Int
  blue : Int → Int → Int → Int

/-- `CLAMP_U8`. -/
def clampU8 (x : Int) : Nat := if x > 255 then 255 else if x < 0 then 0 else x.toNat

variable (conv : Conversion)

/-- The Y of a pixel. -/
def lumaOf (p : Colour) : Int := ((conv.toY p.red p.green p.blue).toNat : Int)

/-- The mean colour of the four pixels with the top left one in a row and a column. -/
def meanOf (src : Picture) (row col : Nat) (colour : Colour → Nat) : Nat :=
  (colour (src row col) + colour (src row (col + 1)) + colour (src (row + 1) col) +
    colour (src (row + 1) (col + 1))) / 4

/-- A component of this mean. -/
def chromaOf (convert : Nat → Nat → Nat → Int8) (src : Picture) (row col : Nat) : Int :=
  (convert (meanOf src row col Colour.red) (meanOf src row col Colour.green)
    (meanOf src row col Colour.blue)).toInt

/-- The four values of a component that has one for every four pixels of a block. -/
def chromaValues (convert : Nat → Nat → Nat → Int8) (src : Picture) (row col j : Nat) : Int :=
  chromaOf convert src (row + j / 2 * 2) (col + j % 2 * 2)

/-- The four values of Y with the first one in a row and a column. -/
def lumaValues (src : Picture) (row col j : Nat) : Int :=
  lumaOf conv (src (row + j / 2) (col + j % 2))

/-- The bytes of four values. -/
def pairBytes (pair : Nat × Nat) : List Nat := [pair.1, pair.2]

/-- `ax203_encode_block_yuv_delta`: the twelve bytes. -/
def encodeBlockYuvDelta (src : Picture) (srcX srcY : Nat) : List Nat :=
  pairBytes (encodeSignedComponentValues (chromaValues conv.toU src srcY srcX)) ++
    pairBytes (encodeSignedComponentValues (chromaValues conv.toV src srcY srcX)) ++
      [0, 2].flatMap fun y => [0, 2].flatMap fun x =>
        pairBytes (encodeUnsignedComponentValues (lumaValues conv src (srcY + y) (srcX + x)))

/-- The numbers of the rounds of a loop that goes up to `n` in steps of four. -/
def steps (n : Nat) : List Nat := List.range ((n + 3) / 4)

/-- `ax203_encode_yuv_delta`. -/
def encodeYuvDelta (src : Picture) (width height : Nat) : List Nat :=
  (steps height).flatMap fun y => (steps width).flatMap fun x =>
    encodeBlockYuvDelta conv src (4 * x) (4 * y)

/-- The pixel in a row and a column of a block of twelve bytes. -/
def blockPixel (src : List Nat) (y x : Nat) : Colour :=
  let byte := fun i => src.getD i 0
  -- the two bytes with the Y of the pixel
  let quad := 4 + 2 * (y / 2 * 2 + x / 2)
  let Y := decodeComponentValues .unsigned (byte quad) (byte (quad + 1)) (y % 2 * 2 + x % 2)
  let U := decodeComponentValues .signed (byte 0) (byte 1) (y / 2 * 2 + x / 2)
  let V := decodeComponentValues .signed (byte 2) (byte 3) (y / 2 * 2 + x / 2)
  { red := clampU8 (conv.red Y U V)
    green := clampU8 (conv.green Y U V)
    blue := clampU8 (conv.blue Y U V) }

/-- `ax203_decode_block_yuv_delta`. -/
def decodeBlockYuvDelta (src : List Nat) (dest : Picture) (destX destY : Nat) : Picture :=
  fun row col =>
    if destY ≤ row ∧ row < destY + 4 ∧ destX ≤ col ∧ col < destX + 4 then
      blockPixel conv src (row - destY) (col - destX)
    else
      dest row col

/-- A round of `ax203_decode_yuv_delta`, over the bytes that are left and the picture. -/
def decodeStep (y : Nat) (s : List Nat × Picture) (x : Nat) : List Nat × Picture :=
  (s.1.drop 12, decodeBlockYuvDelta conv s.1 s.2 (4 * x) (4 * y))

/-- `ax203_decode_yuv_delta`. -/
def decodeYuvDelta (src : List Nat) (dest : Picture) (width height : Nat) : Picture :=
  ((steps height).foldl (fun s y => (steps width).foldl (decodeStep conv y) s) (src, dest)).2

end GPhoto2.Ax203
