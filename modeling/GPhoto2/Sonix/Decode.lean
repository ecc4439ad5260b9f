import GPhoto2.Lib.Endian
import Mathlib.Logic.Function.Iterate

/-!
# `GPhoto2.Sonix.Decode`: the pictures of the Sonix cameras

`sonix_decode` of `sonix.c`. A byte of the picture is a code for the difference to the byte two
columns before it, or for its value. The codes are read through `bitBuf`, whose low `bitBufCount`
bits are the next ones; the bits above them are left over from codes that have been read.

`src` is the memory from the compressed bytes on, and the field `src` how many of them have been
fetched. An `unsigned long` has 64 bits. The bytes of an `unsigned short` are in the host's order.
-/

set_option autoImplicit false

namespace GPhoto2.Sonix

open Lib

/-- The variables of the function, and what it has written to `dst`. -/
structure Decoder where
  src : Nat
  bitBuf : Nat
  bitBufCount : Nat
  c1val : Int
  c2val : Int
  dst : List UInt8

variable (order : ByteOrder) (src : Nat → UInt8)

/-- One more byte in the bit buffer. -/
def fetch (s : Decoder) : Decoder :=
  { s with
    src := s.src + 1
    bitBuf := (s.bitBuf <<< 8 ||| (src s.src).toNat) % 2 ^ 64
    bitBufCount := s.bitBufCount + 8 }

/-- The loop of `PEEK_BITS`. -/
def refill (s : Decoder) : Decoder :=
  if s.bitBufCount + 8 < 24 then refill (fetch src s) else fetch src s
termination_by 24 - s.bitBufCount
decreasing_by
  show 24 - (s.bitBufCount + 8) < 24 - s.bitBufCount
  omega

/-- `PEEK_BITS`: the bits in an `unsigned short`. -/
def peekBits (num : Nat) (s : Decoder) : Nat × Decoder :=
  let s := if s.bitBufCount < num then refill src s else s
  ((s.bitBuf >>> (s.bitBufCount - num)) % 2 ^ 16, s)

/-- `EAT_BITS`. -/
def eatBits (num : Nat) (s : Decoder) : Decoder := { s with bitBufCount := s.bitBufCount - num }

/-- The branches of `PARSE_PIXEL`: the length of the code in front of these bits, and the
difference that it stands for, if it does not stand for a value. -/
def codeOf (bits : Nat) : Nat × Option Int :=
  if bits &&& 0x200 = 0 then (1, some 0)
  else if bits &&& 0x380 = 0x280 then (3, some 3)
  else if bits &&& 0x380 = 0x300 then (3, some (-3))
  else if bits &&& 0x3c0 = 0x200 then (4, some 8)
  else if bits &&& 0x3c0 = 0x240 then (4, some (-8))
  else if bits &&& 0x3c0 = 0x3c0 then (4, some (-20))
  else if bits &&& 0x3e0 = 0x380 then (5, some 20)
  else (10, none)

/-- `val += d`, or `val -= -d`, and the test behind it. -/
def changed (d val : Int) : Int :=
  if d < 0 then if val + d < 0 then 0 else val + d
  else if val + d > 255 then 255 else val + d

/-- `val` behind a code. -/
def newVal (bits : Nat) (val : Int) : Option Int → Int
  | some d => changed d val
  | none => 8 * (bits &&& 0x1f : Nat)

/-- `PARSE_PIXEL`: the new value of `val`. -/
def parsePixel (val : Int) (s : Decoder) : Int × Decoder :=
  let (bits, s) := peekBits src 10 s
  let (num, difference) := codeOf bits
  (newVal bits val difference, eatBits num s)

/-- One of the two raw bytes in front of a row. -/
def rawPixel (s : Decoder) : Nat × Decoder :=
  let (bits, s) := peekBits src 8 s
  (bits &&& 0xff, eatBits 8 s)

/-- `PUT_PIXEL_PAIR`. -/
def putPixelPair (s : Decoder) : Decoder :=
  { s with dst := s.dst ++ order.encode 2 (s.c1val * 2 ^ 8 + s.c2val).toNat }

/-- The body of the loop over the columns. -/
def pixelPair (s : Decoder) : Decoder :=
  let (c2val, s) := parsePixel src s.c2val s
  let s := { s with c2val := c2val }
  let (c1val, s) := parsePixel src s.c1val s
  putPixelPair order { s with c1val := c1val }

/-- A row of the picture. -/
def decodeRow (width : Nat) (s : Decoder) : Decoder :=
  let (c2val, s) := rawPixel src s
  let s := { s with c2val := c2val }
  let (c1val, s) := rawPixel src s
  let s := putPixelPair order { s with c1val := c1val }
  -- `x = 2, 4, ...` up to `width`
  (pixelPair order src)^[(width - 1) / 2] s

/-- `sonix_decode`. -/
def sonixDecode (width height : Nat) : Decoder :=
  (decodeRow order src width)^[height] ⟨0, 0, 0, 0, 0, []⟩

end GPhoto2.Sonix
