import Mathlib.Data.List.Basic

/-!
# `GPhoto2.Image.Jpeg`: a picture cut at its markers

`jpeg.c`. `gpi_jpeg_parse` copies a picture chunk by chunk into the array `marker`, each from
one marker up to the next. A loop that goes on for ever runs out of fuel; a read outside the
picture and a write behind the array have no defined outcome. All give `none`.
-/

set_option autoImplicit false

namespace GPhoto2

/-- `chunk`, with the place in the picture it was copied from. -/
structure Chunk where
  start : Nat
  data : List UInt8
deriving DecidableEq

/-- `jpeg`: the first `count` elements of its array of 20 markers. -/
structure Jpeg where
  marker : List Chunk
  count_le : marker.length ≤ 20
deriving DecidableEq

/-- `gpi_jpeg_new`. -/
def gpiJpegNew : Jpeg := ⟨[], Nat.zero_le _⟩

/-- The loop of `gpi_jpeg_findff`, over what follows the location. -/
def findffLoop : List UInt8 → Nat → Bool × Nat
  | [], location => (false, location)
  | b :: rest, location => if b = 0xff then (true, location) else findffLoop rest (location + 1)

/-- `gpi_jpeg_findff`. -/
def gpiJpegFindff (location : Nat) (picture : List UInt8) : Bool × Nat :=
  findffLoop (picture.drop location) location

/-- `gpi_jpeg_findactivemarker`: the identification of the marker, and the location. -/
def gpiJpegFindactivemarker (picture : List UInt8) :
    Nat → Nat → Option (Option UInt8 × Nat)
  | 0, _ => none
  | fuel + 1, location =>
    let (found, location) := gpiJpegFindff location picture
    if found ∧ location + 1 < picture.length then
      if picture.getD (location + 1) 0 ≠ 0 then
        some (some (picture.getD (location + 1) 0), location)
      else gpiJpegFindactivemarker picture fuel location
    else some (none, location)

/-- `gpi_jpeg_add_marker`. -/
def gpiJpegAddMarker (myjpeg : Jpeg) (picture : List UInt8) (start last : Int) : Option Jpeg :=
  let length := last - start + 1
  if h : myjpeg.marker.length < 20 then
    if 0 ≤ start ∧ 0 ≤ length ∧ start + length ≤ picture.length then
      some ⟨myjpeg.marker ++ [⟨start.toNat, (picture.drop start.toNat).take length.toNat⟩],
        by rw [List.length_append]; exact h⟩
    else none
  else none

/-- The loop of `gpi_jpeg_parse`: the chunks and the two positions when it ends. -/
def jpegParseLoop (fuel : Nat) (picture : List UInt8) :
    Nat → Jpeg → Nat → Nat → Option (Jpeg × Nat × Nat)
  | 0, _, _, _ => none
  | rounds + 1, myjpeg, lastposition, position =>
    if position < picture.length then
      (gpiJpegFindactivemarker picture fuel position).bind fun found =>
        (gpiJpegAddMarker myjpeg picture lastposition ((found.2 : Int) - 1)).bind fun myjpeg =>
          jpegParseLoop fuel picture rounds myjpeg found.2 (found.2 + 2)
    else some (myjpeg, lastposition, position)

/-- The loop of `gpi_jpeg_parse` and what comes after it. -/
def jpegParseRest (fuel : Nat) (picture : List UInt8) (myjpeg : Jpeg)
    (lastposition position : Nat) : Option Jpeg :=
  (jpegParseLoop fuel picture fuel myjpeg lastposition position).bind fun found =>
    if (found.2.2 : Int) - 2 < picture.length then
      gpiJpegAddMarker found.1 picture found.2.1 ((picture.length : Int) - 1)
    else some found.1

/-- `gpi_jpeg_parse`. -/
def gpiJpegParse (fuel : Nat) (myjpeg : Jpeg) (picture : List UInt8) : Option Jpeg :=
  match picture with
  | [] => none
  | b :: _ =>
    let position := if b ≠ 0xff then 0 else 2
    (gpiJpegFindactivemarker picture fuel position).bind fun found =>
      (gpiJpegAddMarker myjpeg picture 0 ((found.2 : Int) - 1)).bind fun myjpeg =>
        jpegParseRest fuel picture myjpeg found.2 (if b ≠ 0xff then found.2 + 1 else found.2 + 2)

end GPhoto2
