import GPhoto2.Lib.Bits
import GPhoto2.Lib.Outcome

/-!
# `GPhoto2.Mars.Decompress`: the pictures of the Mars cameras

`mars_decompress` of `mars.c`. A byte of the picture is a code for the difference to what its
neighbours let expect, or for the value itself. `inp` is the memory from the compressed bytes on,
and `out` what has been written: `outp` points behind it. The function is stuck where it reads
in front of `out`, and where `bitpos` overflows.
-/

set_option autoImplicit false

namespace GPhoto2.Mars

open Lib

/-- `code_table_t`. -/
structure CodeTable where
  isAbs : Bool
  val : Int
  len : Nat
  deriving DecidableEq

/-- The entry of `precalc_table` for the byte `i`. -/
def precalcTable (i : Nat) : CodeTable :=
  if i &&& 0x80 = 0 then ⟨false, 0, 1⟩
  else if i &&& 0xe0 = 0xc0 then ⟨false, -3, 3⟩
  else if i &&& 0xe0 = 0xa0 then ⟨false, 3, 3⟩
  else if i &&& 0xf0 = 0x80 then ⟨false, 8, 4⟩
  else if i &&& 0xf0 = 0x90 then ⟨false, -8, 4⟩
  else if i &&& 0xf0 = 0xf0 then ⟨false, -20, 4⟩
  else if i &&& 0xf8 = 0xe0 then ⟨false, 20, 5⟩
  else if i &&& 0xf8 = 0xe8 then ⟨true, 0, 5⟩
  else ⟨false, 0, 0⟩

/-- The variables of the function that go from one byte to the next. -/
structure Decoder where
  bitpos : Nat
  out : List UInt8
  lp : UInt8
  tp : UInt8
  tlp : UInt8
  trp : UInt8
  deriving DecidableEq

/-- `CLAMP`. -/
def clamp (x : Int) : UInt8 :=
  if x < 0 then 0 else if x > 255 then 255 else UInt8.ofNat x.toNat

/-- `bitpos += n`. -/
def advance (n : Nat) : Comp Decoder Int Unit := fun s =>
  if s.bitpos + n < 2147483648 then
    some (.ok (), { s with bitpos := s.bitpos + n })
  else
    none

/-- `outp[i]`. -/
def outp (i : Int) : Comp Decoder Int UInt8 := fun s =>
  if 0 ≤ s.out.length + i ∧ i < 0 then
    some (.ok (s.out.getD (s.out.length + i).toNat 0), s)
  else
    none

/-- `*outp++ = c`. -/
def store (c : UInt8) : Comp Decoder Int Unit := Comp.modify fun s => { s with out := s.out ++ [c] }

variable (inp : Nat → UInt8)

/-- `GET_CODE`. -/
def getCode : Comp Decoder Int Nat := do
  let s ← Comp.get
  pure (window inp s.bitpos)

/-- The two pixels in front of each of the first two rows. -/
def rawPixel : Comp Decoder Int Unit := do
  let code ← getCode inp
  advance 8
  store (UInt8.ofNat code)

/-- The neighbours of a pixel. What is not read keeps its value. -/
def readNeighbours (width row col : Nat) : Comp Decoder Int Unit := do
  let lp ← outp (-2)
  Comp.modify fun s => { s with lp := lp }
  if row > 1 then do
    let tlp ← outp (-2 * width - 2)
    Comp.modify fun s => { s with tlp := tlp }
    let tp ← outp (-2 * width)
    Comp.modify fun s => { s with tp := tp }
    if (col : Int) < width - 2 then do
      let trp ← outp (-2 * width + 2)
      Comp.modify fun s => { s with trp := trp }
    else
      pure ()
  else
    pure ()

/-- What the neighbours add to the value. -/
def predict (width row col : Nat) : Comp Decoder Int Int := do
  let s ← Comp.get
  if row < 2 then
    pure s.lp.toNat
  else if col < 2 then
    pure ((s.tp.toNat + s.trp.toNat) / 2 : Nat)
  else if (col : Int) > width - 3 then
    pure ((s.tp.toNat + s.lp.toNat + s.tlp.toNat + 1) / 3 : Nat)
  else do
    Comp.modify fun s => { s with tlp := s.tlp >>> 1, trp := s.trp >>> 1 }
    let s ← Comp.get
    pure ((s.lp.toNat + s.tp.toNat + s.tlp.toNat + s.trp.toNat + 1) / 3 : Nat)

/-- The body of the loop over the columns. -/
def pixel (width row col : Nat) : Comp Decoder Int Unit := do
  let code ← getCode inp
  let entry := precalcTable code
  advance entry.len
  if entry.isAbs then do
    let code ← getCode inp
    advance 5
    store (clamp (code &&& 0xf8 : Nat))
  else do
    readNeighbours width row col
    let estimate ← predict width row col
    store (clamp (entry.val + estimate))

/-- A row of the picture. -/
def decodeRow (width row : Nat) : Comp Decoder Int Unit :=
  if row < 2 then do
    rawPixel inp
    rawPixel inp
    (List.range' 2 (width - 2)).forM (pixel inp width row)
  else
    (List.range' 0 width).forM (pixel inp width row)

/-- `mars_decompress`. -/
def decompress (width height : Nat) : Comp Decoder Int Unit :=
  (List.range height).forM (decodeRow inp width)

/-- The variables at the start. -/
def start : Decoder := ⟨0, [], 0, 0, 0, 0⟩

end GPhoto2.Mars
