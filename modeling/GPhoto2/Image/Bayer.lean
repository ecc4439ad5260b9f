import GPhoto2.Lib.Scan
import Mathlib.Algebra.Group.Int.Defs
import Mathlib.Algebra.GroupWithZero.Nat
import Mathlib.Algebra.Ring.Int.Defs

/-!
# `GPhoto2.Image.Bayer`: Bayer arrays as RGB images

`bayer.c`. `gp_bayer_expand` puts each sample of a sensor into one of the three bytes of its
pixel, and `gp_bayer_interpolate` fills the other two from the neighbours of the pixel, in the
same buffer.

A read or a write outside a buffer and a division by zero have no defined outcome: `none`. The
images are not so large that an index is beyond an `int`.
-/

set_option autoImplicit false

namespace GPhoto2

open Lib

/-! ### Tiles -/

/-- `BayerTile`. -/
inductive BayerTile
  | rggb
  | grbg
  | bggr
  | gbrg
  | rggbInterlaced
  | grbgInterlaced
  | bggrInterlaced
  | gbrgInterlaced
  deriving DecidableEq

/-- `RED`. -/
def red : Nat := 0

/-- `GREEN`. -/
def green : Nat := 1

/-- `BLUE`. -/
def blue : Nat := 2

/-- `tile_colours`. -/
def tileColours : BayerTile → List Nat
  | .rggb => [0, 1, 1, 2]
  | .grbg => [1, 0, 2, 1]
  | .bggr => [2, 1, 1, 0]
  | .gbrg => [1, 2, 0, 1]
  | .rggbInterlaced => [0, 1, 1, 2]
  | .grbgInterlaced => [1, 0, 2, 1]
  | .bggrInterlaced => [2, 1, 1, 0]
  | .gbrgInterlaced => [1, 2, 0, 1]

/-- The tiles of the second loop of `gp_bayer_expand`. -/
def BayerTile.interlaced : BayerTile → Bool
  | .rggb | .grbg | .bggr | .gbrg => false
  | .rggbInterlaced | .grbgInterlaced | .bggrInterlaced | .gbrgInterlaced => true

/-- The index of a pixel in its tile. -/
def bayerIndex (x y : Nat) : Nat :=
  (if x % 2 = 1 then 0 else 1) + (if y % 2 = 1 then 0 else 2)

/-- The colour of the sample of a pixel. -/
def colourAt (tile : BayerTile) (x y : Nat) : Nat := (tileColours tile).getD (bayerIndex x y) 0

/-- The position codes `p0` to `p3`. -/
def posCodes : BayerTile → Nat × Nat × Nat × Nat
  | .rggb | .rggbInterlaced => (0, 1, 2, 3)
  | .grbg | .grbgInterlaced => (1, 0, 3, 2)
  | .bggr | .bggrInterlaced => (3, 2, 1, 0)
  | .gbrg | .gbrgInterlaced => (2, 3, 0, 1)

/-- `AD`. -/
def ad (x y w : Nat) : Nat := y * w * 3 + 3 * x

/-- An assignment to one byte. -/
def put (buffer : List UInt8) (i : Nat) (value : UInt8) : Option (List UInt8) :=
  if i < buffer.length then some (buffer.set i value) else none

/-! ### `gp_bayer_expand` -/

/-- Where `ptr` finds the sample of a pixel in the input. -/
def sampleIndex (tile : BayerTile) (w x y : Nat) : Nat :=
  if tile.interlaced then y * w + (if x % 2 = 1 then x / 2 else w / 2 + x / 2)
  else y * w + x

/-- One round of the loops of `gp_bayer_expand`. -/
def expandPixel (input : List UInt8) (w : Nat) (tile : BayerTile) (p : Nat × Nat)
    (output : List UInt8) : Option (List UInt8) := do
  let i := (p.2 * w + p.1) * 3
  let output ← put output (i + red) 0
  let output ← put output (i + green) 0
  let output ← put output (i + blue) 0
  let sample ← input[sampleIndex tile w p.1 p.2]?
  put output (i + colourAt tile p.1 p.2) sample

/-- `gp_bayer_expand`. -/
def gpBayerExpand (input : List UInt8) (w h : Nat) (output : List UInt8) (tile : BayerTile) :
    Option (List UInt8) :=
  scan (expandPixel input w tile) (raster w h) output

/-! ### `gp_bayer_accrue` -/

variable (image : List UInt8)

/-- A byte of a pixel. -/
def readColour (w colour : Nat) (p : Nat × Nat) : Option Nat :=
  (image[ad p.1 p.2 w + colour]?).map UInt8.toNat

/-- `value / div`. -/
def quotient (value div : Nat) : Option Nat := if div = 0 then none else some (value / div)

/-- The point is in the image. -/
def insideImage (w h : Nat) (p : Int × Int) : Bool :=
  decide (0 ≤ p.1 ∧ p.1 < w ∧ 0 ≤ p.2 ∧ p.2 < h)

/-- The bytes at those of some points that are in the image. -/
def valuesInside (w h colour : Nat) (points : List (Int × Int)) : Option (List Nat) :=
  (points.filter (insideImage w h)).mapM fun p => readColour image w colour (p.1.toNat, p.2.toNat)

/-- The special treatment for green: the mean of two of four points, the first two of them on a
horizontal line and the others on a vertical one. -/
def greenLine (values : List Nat) : Option Nat :=
  match values with
  | [v0, v1, v2, v3] =>
    let hdiff := ((v1 : Int) - v0) * ((v1 : Int) - v0)
    let vdiff := ((v3 : Int) - v2) * ((v3 : Int) - v2)
    -- We might have a vertical structure here
    if 2 * vdiff < hdiff then some ((v3 + v2) / 2)
    -- we might have a horizontal structure here
    else if 2 * hdiff < vdiff then some ((v1 + v0) / 2)
    else none
  | _ => none

/-- The treatment for blue and red: the average, or that of the three on one side of it. -/
def sideMean (values : List Nat) : Option Nat := do
  let average ← quotient values.sum values.length
  if values.length < 4 then some average
  else
    let above := values.filter fun v => average < v
    if above.length = 2 ∨ above.length = 0 then some average
    else if above.length = 3 then some (above.sum / 3)
    else some ((values.filter fun v => ¬average < v).sum / 3)

/-- What `gp_bayer_accrue` makes of the values of the points. -/
def accrue (colour : Nat) (values : List Nat) : Option Nat :=
  if colour = green then (greenLine values).orElse fun _ => sideMean values
  else sideMean values

/-- `gp_bayer_accrue`. -/
def gpBayerAccrue (w h : Nat) (points : List (Int × Int)) (colour : Nat) : Option Nat := do
  let values ← valuesInside image w h colour points
  accrue colour values

/-! ### `gp_bayer_interpolate` -/

/-- The points to the left and right, above and below. -/
def crossPoints (x y : Nat) : List (Int × Int) :=
  [((x : Int) - 1, y), ((x : Int) + 1, y), (x, (y : Int) - 1), (x, (y : Int) + 1)]

/-- The points on the diagonals. -/
def diagonalPoints (x y : Nat) : List (Int × Int) :=
  [((x : Int) + 1, (y : Int) + 1), ((x : Int) - 1, (y : Int) - 1),
    ((x : Int) - 1, (y : Int) + 1), ((x : Int) + 1, (y : Int) - 1)]

/-- The mean of the bytes of those pixels that are in the image. -/
def meanOf (w colour : Nat) (cells : List (Bool × Nat × Nat)) : Option Nat := do
  let values ← (cells.filter Prod.fst).mapM fun cell => readColour image w colour cell.2
  quotient values.sum values.length

/-- The mean of the neighbours in the row. -/
def rowMean (w colour x y : Nat) : Option Nat :=
  meanOf image w colour [(decide (x + 1 < w), x + 1, y), (decide (x ≠ 0), x - 1, y)]

/-- The mean of the neighbours in the column. -/
def columnMean (w h colour x y : Nat) : Option Nat :=
  meanOf image w colour [(decide (y + 1 < h), x, y + 1), (decide (y ≠ 0), x, y - 1)]

/-- Two assignments to bytes of one pixel, the second after the first. -/
def putBoth (w : Nat) (p : Nat × Nat) (colour₁ : Nat) (value₁ : List UInt8 → Option Nat)
    (colour₂ : Nat) (value₂ : List UInt8 → Option Nat) : Option (List UInt8) := do
  let v ← value₁ image
  let image ← put image (ad p.1 p.2 w + colour₁) (UInt8.ofNat v)
  let v ← value₂ image
  put image (ad p.1 p.2 w + colour₂) (UInt8.ofNat v)

/-- One round of the loops of `gp_bayer_interpolate`. -/
def interpolatePixel (w h : Nat) (tile : BayerTile) (p : Nat × Nat) (image : List UInt8) :
    Option (List UInt8) :=
  let bayer := bayerIndex p.1 p.2
  let codes := posCodes tile
  if bayer = codes.1 then
    -- red. green lrtb, blue diagonals
    putBoth image w p
      green (fun image => gpBayerAccrue image w h (crossPoints p.1 p.2) green)
      blue (fun image => gpBayerAccrue image w h (diagonalPoints p.1 p.2) blue)
  else if bayer = codes.2.1 then
    -- green. red lr, blue tb
    putBoth image w p
      red (fun image => rowMean image w red p.1 p.2)
      blue (fun image => columnMean image w h blue p.1 p.2)
  else if bayer = codes.2.2.1 then
    -- green. blue lr, red tb
    putBoth image w p
      blue (fun image => rowMean image w blue p.1 p.2)
      red (fun image => columnMean image w h red p.1 p.2)
  else
    -- blue. green lrtb, red diagonals
    putBoth image w p
      green (fun image => gpBayerAccrue image w h (crossPoints p.1 p.2) green)
      red (fun image => gpBayerAccrue image w h (diagonalPoints p.1 p.2) red)

/-- `gp_bayer_interpolate`. -/
def gpBayerInterpolate (w h : Nat) (tile : BayerTile) : Option (List UInt8) :=
  scan (interpolatePixel w h tile) (raster w h) image

/-- `gp_bayer_decode`. -/
def gpBayerDecode (input : List UInt8) (w h : Nat) (output : List UInt8) (tile : BayerTile) :
    Option (List UInt8) := do
  let image ← gpBayerExpand input w h output tile
  gpBayerInterpolate image w h tile

/-! ## Adaptive homogeneity-directed demosaicing

`ahd_bayer.c`. `gp_ahd_interpolate` keeps two windows of six rows, one interpolated in the rows of
the image and one in the columns, and writes each row back when the choice between them is made.
A pointer into a window is an offset here.

A read or a write outside a buffer and a division by zero have no defined outcome: `none`. Memory
is never short, and an index is never beyond an `int`.
-/

/-! ### Bytes -/

/-- The byte at an index, which may be negative. -/
def byteAt (buffer : List UInt8) (i : Int) : Option Int :=
  if 0 ≤ i then (buffer[i.toNat]?).map fun b => (b.toNat : Int) else none

/-- `CLAMP`. -/
def clamp (value : Int) : UInt8 := UInt8.ofNat (max (min value 0xff) 0).toNat

/-- A division of `int`s. -/
def divide (value div : Int) : Option Int := if div = 0 then none else some (value.tdiv div)

/-- `memcpy` or `memmove` of `n` bytes, from an offset of `src` to one of `dst`. -/
def copyBytes (dst : List UInt8) (off : Nat) (src : List UInt8) (start n : Nat) :
    Option (List UInt8) :=
  if start + n ≤ src.length ∧ off + n ≤ dst.length then
    some (dst.take off ++ (src.drop start).take n ++ dst.drop (off + n))
  else none

/-- `dRGB`. -/
def dRGB (i1 i2 : Int) (rgb : List UInt8) : Option Int := do
  let dR := (← byteAt rgb (i1 + red)) - (← byteAt rgb (i2 + red))
  let dG := (← byteAt rgb (i1 + green)) - (← byteAt rgb (i2 + green))
  let dB := (← byteAt rgb (i1 + blue)) - (← byteAt rgb (i2 + blue))
  some (dR * dR + dG * dG + dB * dB)

/-! ### `do_rb_ctr_row` -/

/-- The pixels of the three rows of a window whose colour differences give a missing red or blue
of the middle row, with the test each of them stands behind. There is nothing where the colour is
not missing, or its sensor has its own. -/
def rbPoints (p : Nat × Nat × Nat × Nat) (w h y x color : Nat) :
    Option (List (Bool × Nat × Nat)) :=
  let bayer := bayerIndex x y
  if (color = red ∧ bayer = p.2.2.2) ∨ (color = blue ∧ bayer = p.1) then
    some [(decide (0 < x ∧ 0 < y), x - 1, 0), (decide (0 < x ∧ y + 1 < h), x - 1, 2),
      (decide (x + 1 < w ∧ 0 < y), x + 1, 0), (decide (x + 1 < w ∧ y + 1 < h), x + 1, 2)]
  else if (color = red ∧ bayer = p.2.2.1) ∨ (color = blue ∧ bayer = p.2.1) then
    some [(decide (0 < y), x, 0), (decide (y + 1 < h), x, 2)]
  else if (color = red ∧ bayer = p.2.1) ∨ (color = blue ∧ bayer = p.2.2.1) then
    some [(decide (0 < x), x - 1, 1), (decide (x + 1 < w), x + 1, 1)]
  else none

/-- How far a colour is from green in a pixel of a window. -/
def colourDifference (window : List UInt8) (off w color : Nat) (cell : Bool × Nat × Nat) :
    Option Int := do
  let c ← byteAt window (off + ad cell.2.1 cell.2.2 w + color)
  let g ← byteAt window (off + ad cell.2.1 cell.2.2 w + green)
  some (c - g)

/-- One colour of one pixel in the loop of `do_rb_ctr_row`, in one of its windows. -/
def rbPixel (p : Nat × Nat × Nat × Nat) (w h y off x color : Nat) (window : List UInt8) :
    Option (List UInt8) :=
  match rbPoints p w h y x color with
  | none => some window
  | some cells => do
    let values ← (cells.filter Prod.fst).mapM (colourDifference window off w color)
    let mean ← divide values.sum values.length
    let g ← byteAt window (off + ad x 1 w + green)
    put window (off + ad x 1 w + color) (clamp (g + mean))

/-- The loop of `do_rb_ctr_row`, which treats its two windows alike. -/
def rbRow (p : Nat × Nat × Nat × Nat) (w h y off : Nat) (window : List UInt8) :
    Option (List UInt8) :=
  (List.range w).foldlM (fun window x => do
    let window ← rbPixel p w h y off x red window
    rbPixel p w h y off x blue window) window

/-- Two buffers, for the horizontal and the vertical interpolation. -/
structure BothWays where
  horizontal : List UInt8
  vertical : List UInt8
  deriving DecidableEq

/-- `do_rb_ctr_row`. -/
def doRbCtrRow (s : BothWays) (off w h y : Nat) (p : Nat × Nat × Nat × Nat) : Option BothWays := do
  let horizontal ← rbRow p w h y off s.horizontal
  let vertical ← rbRow p w h y off s.vertical
  some ⟨horizontal, vertical⟩

/-! ### `do_green_ctr_row` -/

/-- A weighted mean of bytes of the image, those that stand behind a test that holds. -/
def weightedMean (image : List UInt8) (terms : List (Bool × Int × Nat)) : Option Int := do
  let terms := terms.filter Prod.fst
  let values ← terms.mapM fun term => (byteAt image term.2.2).map (term.2.1 * ·)
  divide values.sum (terms.map fun term => term.2.1).sum

/-- The bytes in the row from which a missing green is estimated. -/
def greenRowTerms (w x y own : Nat) : List (Bool × Int × Nat) :=
  [(true, 2, ad x y w + own), (decide (x + 1 < w), 2, ad (x + 1) y w + green),
    (decide (x + 2 < w), -1, ad (x + 2) y w + own), (decide (0 < x), 2, ad (x - 1) y w + green),
    (decide (1 < x), -1, ad (x - 2) y w + own)]

/-- Those in the column. -/
def greenColumnTerms (w h x y own : Nat) : List (Bool × Int × Nat) :=
  [(true, 2, ad x y w + own), (decide (y + 1 < h), 2, ad x (y + 1) w + green),
    (decide (y + 2 < h), -1, ad x (y + 2) w + own), (decide (0 < y), 2, ad x (y - 1) w + green),
    (decide (1 < y), -1, ad x (y - 2) w + own)]

/-- One pixel in the loop of `do_green_ctr_row`. -/
def greenPixel (image : List UInt8) (p : Nat × Nat × Nat × Nat) (w h y off : Nat) (s : BothWays)
    (x : Nat) : Option BothWays :=
  let bayer := bayerIndex x y
  if bayer = p.1 ∨ bayer = p.2.2.2 then do
    let own := if bayer = p.1 then red else blue
    let value ← weightedMean image (greenRowTerms w x y own)
    let horizontal ← put s.horizontal (off + ad x 1 w + green) (clamp value)
    let value ← weightedMean image (greenColumnTerms w h x y own)
    let vertical ← put s.vertical (off + ad x 1 w + green) (clamp value)
    some ⟨horizontal, vertical⟩
  else some s

/-- `do_green_ctr_row`. -/
def doGreenCtrRow (image : List UInt8) (s : BothWays) (off w h y : Nat)
    (p : Nat × Nat × Nat × Nat) : Option BothWays :=
  (List.range w).foldlM (greenPixel image p w h y off) s

/-! ### `get_diffs_row2` -/

/-- The scores of a pixel: for each neighbour, whether the change to it is within a radius. -/
def score (buffer : List UInt8) (i w eps : Int) : Option UInt8 := do
  let ds ← [i - 3, i + 3, i - 3 * w, i + 3 * w].mapM fun i2 => dRGB i i2 buffer
  some (UInt8.ofNat (ds.filter fun d => d ≤ eps).length)

/-- One pixel in the loop of `get_diffs_row2`. -/
def diffsPixel (s : BothWays) (w : Nat) (homo : BothWays) (j : Nat) : Option BothWays := do
  let i : Int := 3 * j + 9 * w
  let left ← dRGB i (i - 3) s.horizontal
  let right ← dRGB i (i + 3) s.horizontal
  let above ← dRGB i (i - 3 * w) s.vertical
  let below ← dRGB i (i + 3 * w) s.vertical
  let eps := min (max left right) (max above below)
  let usizeH ← score s.horizontal i w eps
  let usizeV ← score s.vertical i w eps
  let horizontal ← put homo.horizontal (j + 2 * w) usizeH
  let vertical ← put homo.vertical (j + 2 * w) usizeV
  some ⟨horizontal, vertical⟩

/-- `get_diffs_row2`. -/
def getDiffsRow2 (homo s : BothWays) (w : Nat) : Option BothWays :=
  ((List.range (w - 2)).map (· + 1)).foldlM (diffsPixel s w) homo

/-! ### `gp_ahd_interpolate` -/

/-- The sum of the scores of a pixel and its eight neighbours. -/
def homoSum (homo : List UInt8) (w x : Nat) : Option UInt8 := do
  let js : List Int := ([-1, 0, 1] : List Int).flatMap fun i =>
    ([0, 1, 2] : List Int).map fun k => i + (x : Int) + (w : Int) * k
  let scores ← js.mapM (byteAt homo)
  some (UInt8.ofNat scores.sum.toNat)

/-- A byte of the row that is chosen. -/
def choose (s : BothWays) (ch cv : UInt8) (i : Nat) : Option UInt8 := do
  let h ← s.horizontal[i]?
  let v ← s.vertical[i]?
  some (if cv < ch then h else if ch < cv then v else UInt8.ofNat ((v.toNat + h.toNat) / 2))

/-- One pixel in the choice algorithm, in row `y` of the image. -/
def choosePixel (s homo : BothWays) (w y : Nat) (image : List UInt8) (x : Nat) :
    Option (List UInt8) := do
  let ch ← homoSum homo.horizontal w x
  let cv ← homoSum homo.vertical w x
  [red, green, blue].foldlM (fun image color => do
    let byte ← choose s ch cv (3 * x + 6 * w + color)
    put image (3 * y * w + 3 * x + color) byte) image

/-- Two buffers from `calloc`. -/
def emptyBuffers (n : Nat) : BothWays := ⟨List.replicate n 0, List.replicate n 0⟩

/-- A copy into both windows. -/
def BothWays.copy (s : BothWays) (off : Nat) (src : List UInt8) (start n : Nat) :
    Option BothWays := do
  let horizontal ← copyBytes s.horizontal off src start n
  let vertical ← copyBytes s.vertical off src start n
  some ⟨horizontal, vertical⟩

/-- The move of the windows, or of the scores, by one row of `row` bytes. -/
def BothWays.shift (s : BothWays) (row n : Nat) : Option BothWays := do
  let horizontal ← copyBytes s.horizontal 0 s.horizontal row n
  let vertical ← copyBytes s.vertical 0 s.vertical row n
  some ⟨horizontal, vertical⟩

/-- What the loop over the rows changes. -/
structure AhdState where
  image : List UInt8
  windows : BothWays
  homo : BothWays
  deriving DecidableEq

/-- The first part of a round of the loop over the rows: the windows and the scores. -/
def ahdPrepare (w h : Nat) (p : Nat × Nat × Nat × Nat) (s : AhdState) (y : Nat) :
    Option AhdState := do
  let windows ←
    (if y + 3 < h then s.windows.copy (15 * w) s.image (3 * y * w + 9 * w) (3 * w)
      else s.windows.copy (15 * w) (List.replicate (3 * w) 0) 0 (3 * w))
  let windows ←
    (if y + 3 < h then doGreenCtrRow s.image windows (12 * w) w h (y + 3) p else some windows)
  let windows ←
    (if y + 2 < h then doRbCtrRow windows (9 * w) w h (y + 2) p else some windows)
  let homo ← getDiffsRow2 s.homo windows w
  some ⟨s.image, windows, homo⟩

/-- One round of the loop over the rows. -/
def ahdRow (w h : Nat) (p : Nat × Nat × Nat × Nat) (s : AhdState) (y : Nat) :
    Option AhdState := do
  let s ← ahdPrepare w h p s y
  let image ← (List.range w).foldlM (choosePixel s.windows s.homo w y) s.image
  -- Move the windows; loop back if not finished.
  let windows ← s.windows.shift (3 * w) (15 * w)
  let homo ← s.homo.shift w (2 * w)
  some ⟨image, windows, homo⟩

/-- What happens before the loop: rows 0 to 2 of the image go into the windows. -/
def ahdStart (image : List UInt8) (w h : Nat) (p : Nat × Nat × Nat × Nat) : Option BothWays := do
  let s ← (emptyBuffers (18 * w)).copy (12 * w) image 0 (6 * w)
  let s ← doGreenCtrRow image s (9 * w) w h 0 p
  let s ← doGreenCtrRow image s (12 * w) w h 1 p
  let s ← doRbCtrRow s (9 * w) w h 0 p
  let s ← s.shift (3 * w) (15 * w)
  let s ← s.copy (15 * w) image (6 * w) (3 * w)
  let s ← doGreenCtrRow image s (12 * w) w h 2 p
  let s ← doRbCtrRow s (9 * w) w h 1 p
  s.shift (3 * w) (15 * w)

/-- `gp_ahd_interpolate`. -/
def gpAhdInterpolate (image : List UInt8) (w h : Nat) (tile : BayerTile) :
    Option (List UInt8) := do
  let p := posCodes tile
  let windows ← ahdStart image w h p
  let s ← (List.range h).foldlM (ahdRow w h p) ⟨image, windows, emptyBuffers (3 * w)⟩
  some s.image

end GPhoto2
