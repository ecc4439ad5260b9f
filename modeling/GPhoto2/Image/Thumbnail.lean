import GPhoto2.Image.Exif

/-!
# `GPhoto2.Image.Thumbnail`: the thumbnail of an EXIF blob

`gpi_exif_get_thumbnail_and_size`. It allocates a buffer of the length of the blob, copies the
header into it, and then the thumbnail: a JPEG, or the entries of the second IFD with the image
data behind them. While it copies entries it moves their values about in the blob. On its way it
prints a few fields of the picture, with their texts.

As in the parser, what has no defined outcome is `none`: a read or a write outside the blob or
the buffer, and a text that is printed but was not copied or has no terminator.
-/

set_option autoImplicit false

namespace GPhoto2

open Lib

def exifModel : Nat := 0x110
def exifStripOffsets : Nat := 0x111
def exifStripByteCounts : Nat := 0x117
def exifJPEGInterchangeFormat : Nat := 0x201
def exifJPEGInterchangeFormatLength : Nat := 0x202
def exifSubjectDistance : Nat := 0x9206
def exifUserComment : Nat := 0x9286

/-- What the function returns, with `none` for `NULL`, and `*size`. A byte of the buffer that was
never written is `none`. -/
abbrev ThumbnailResult := Option (List (Option UInt8)) × Int

/-- `memcpy` to a position of a buffer. -/
def overwrite {α : Type} (buffer : List α) (pos : Int) (bytes : List α) : Option (List α) :=
  if 0 ≤ pos ∧ pos.toNat + bytes.length ≤ buffer.length then
    some (buffer.take pos.toNat ++ bytes ++ buffer.drop (pos.toNat + bytes.length))
  else none

/-! ### What is printed -/

section
variable (blob : List UInt8)

/-- What `gpi_exif_get_field` copies out of an entry. It copies no fractions. -/
def copiedBytes (entry : Int) : Option (List UInt8) := do
  let type ← gpiExifGetLilend blob (entry + 2) 2
  let tagSize ← exifSizetab[type]?
  let count ← gpiExifGetLilend blob (entry + 4) 4
  let size := toInt (tagSize * count)
  let contents ← contentsPtr blob size entry
  if type % 5 = 0 then none else bytesAt blob contents size.toNat

/-- `tag_data->data`, where `gpi_exif_get_field` has found the tag in the IFD. -/
def fieldData (tagNumber ifd : Nat) (exifdata : ExifParser) : Option (List UInt8) := do
  let dir ← exifdata.ifds[ifd]?
  let numtags ← gpiExifGetLilend blob dir.ptr 2
  let found ← findTag blob dir.ptr numtags tagNumber (numtags + 1) 0
  copiedBytes blob (dir.ptr + found.1 * 12 + 2)

/-- `tag_data->data`, where it has looked for the tag in all IFDs. -/
def searchData (tagNumber : Nat) (exifdata : ExifParser) : Nat → Nat → Option (List UInt8)
  | 0, _ => none
  | rounds + 1, ifd => do
    let field ← gpiExifGetField blob tagNumber ifd exifdata
    if field.isSome then fieldData blob tagNumber ifd exifdata
    else searchData tagNumber exifdata rounds (ifd + 1)

/-- `%s` of `printf`. -/
def printText (data : List UInt8) : Option (List UInt8) :=
  if 0 ∈ data then some (data.takeWhile (· ≠ 0)) else none

/-- `gpi_exif_get_comment`: what it returns, the comment if it has set one, and the parser, which
it initialises again. -/
def gpiExifGetComment (exifdat : ExifParser) :
    Option (Int × Option (List UInt8) × ExifParser) := do
  let parsed ← exifParseData blob exifdat
  if parsed.1 < 0 then some (0, none, parsed.2)
  else do
    let field ← gpiExifGetField blob exifUserComment 2 parsed.2
    field.elim (some (0, none, parsed.2)) fun tagdat =>
      (fieldData blob exifUserComment 2 parsed.2).map fun data =>
        (tagdat.size, some data, parsed.2)

/-- The fields that are printed: the parser as it is behind them. -/
def printFields (exifdat : ExifParser) : Option ExifParser := do
  let owner ← searchData blob exifModel exifdat (exifdat.ifds.length + 1) 0
  let _ ← printText owner
  let comment ← gpiExifGetComment blob exifdat
  let _ ← comment.2.1.elim (some []) printText
  let _ ← gpiExifGetField blob exifSubjectDistance 2 comment.2.2
  some comment.2.2

/-! ### Entries -/

/-- `gpi_getvalue`. -/
def gpiGetvalue (data : Int) (tagind : Nat) : Option Int :=
  (gpiExifGetLilend blob (data + tagind * 12 + 10) 4).map toInt

/-- `gpi_tagnum`. -/
def gpiTagnum (data : Int) (tagind : Nat) : Option Nat :=
  gpiExifGetLilend blob (data + tagind * 12 + 2) 2

/-- `gpi_datsize`. -/
def gpiDatsize (data : Int) (tagind : Nat) : Option Int := do
  let type ← gpiExifGetLilend blob (data + tagind * 12 + 4) 2
  let tagSize ← exifSizetab[type]?
  let count ← gpiExifGetLilend blob (data + tagind * 12 + 6) 4
  some (toInt (tagSize * count))

/-- `gpi_setval`. What it reads again it only prints. -/
def gpiSetval (data : Int) (tagind : Nat) (newval : Int) : Option (List UInt8) :=
  overwrite blob (data + tagind * 12 + 10) (toBytes 4 (newval % 2 ^ 32).toNat)

end

/-! ### A TIFF thumbnail -/

/-- The blob, the buffer, `curptr` as an index of it, `*size` and `dataptr`. -/
structure StripCopy where
  blob : List UInt8
  newimg : List (Option UInt8)
  curptr : Nat
  size : Int
  dataptr : Int

/-- `memcpy` to `curptr`, which is moved behind the copy as `*size` is. -/
def StripCopy.copyTo (copy : StripCopy) (bytes : List UInt8) : Option StripCopy := do
  let newimg ← overwrite copy.newimg copy.curptr (bytes.map some)
  some { copy with
    newimg := newimg
    curptr := copy.curptr + bytes.length
    size := copy.size + bytes.length }

/-- The copy of one entry. -/
def copyField (exifimg : Int) (i : Nat) (copy : StripCopy) : Option StripCopy := do
  let bytes ← bytesAt copy.blob (exifimg + 12 * i + 2) 12
  copy.copyTo bytes

/-- The loop that moves `dsize` bytes behind the image data, from the one with the index `j`. -/
def moveData (imagedata datvec : Int) : Nat → Nat → StripCopy → Option StripCopy
  | 0, _, copy => some copy
  | rounds + 1, j, copy => do
    let byte ← bytesAt copy.blob (exifData + datvec + j) 1
    let blob ← overwrite copy.blob (imagedata + copy.dataptr) byte
    moveData imagedata datvec rounds (j + 1) { copy with blob := blob, dataptr := copy.dataptr + 1 }

/-- One round of the loop over the entries. -/
def copyEntry (exifimg imagedata : Int) (entry : Nat) (copy : StripCopy) (i : Nat) :
    Option StripCopy := do
  let dsize ← gpiDatsize copy.blob exifimg i
  let tag ← gpiTagnum copy.blob exifimg i
  if tag = exifStripOffsets then do
    let blob ← gpiSetval copy.blob exifimg i (12 * entry + 14)
    copyField exifimg i { copy with blob := blob }
  else if dsize < 5 then copyField exifimg i copy
  else do
    let datvec ← gpiGetvalue copy.blob exifimg i
    let blob ← gpiSetval copy.blob exifimg i (copy.dataptr + 12 * entry + 14)
    let copy ← moveData imagedata datvec dsize.toNat 0 { copy with blob := blob }
    copyField exifimg i copy

/-- The loop over the entries, and the copies of what is behind them and of the image data. -/
def copyStrips (exifimg imagedata : Int) (entry : Nat) (copy : StripCopy) :
    Option ThumbnailResult := do
  let copy ← (List.range entry).foldlM (copyEntry exifimg imagedata entry) copy
  let link ← bytesAt copy.blob (exifimg + 12 * entry + 10) 4
  let copy ← copy.copyTo link
  if copy.dataptr < 0 then none
  else do
    let image ← bytesAt copy.blob imagedata copy.dataptr.toNat
    let copy ← copy.copyTo image
    some (some copy.newimg, copy.size)

section
variable (blob : List UInt8)

/-- The part of `gpi_exif_get_thumbnail_and_size` for a TIFF. -/
def getTiffThumbnail (exifimg : Int) (entry : Nat) (newimg : List (Option UInt8)) (size : Int) :
    Option ThumbnailResult := do
  let tmp ← gpiGetintval blob exifimg exifStripOffsets
  if tmp = -1 then some (none, 0)
  else do
    let dataptr ← gpiGetintval blob exifimg exifStripByteCounts
    if dataptr = -1 then some (none, 0)
    else copyStrips exifimg (exifData + tmp) entry ⟨blob, newimg, 10, size, dataptr⟩

/-! ### The thumbnail -/

/-- The part of `gpi_exif_get_thumbnail_and_size` for a JPEG. It copies to the start of the
buffer. -/
def getJpegThumbnail (exifimg tmp : Int) (newimg : List (Option UInt8)) (size : Int) :
    Option ThumbnailResult := do
  let dsize ← gpiGetintval blob exifimg exifJPEGInterchangeFormatLength
  if dsize = -1 then some (none, 0)
  else if dsize < 0 then none
  else do
    let image ← bytesAt blob (exifData + tmp) dsize.toNat
    let newimg ← overwrite newimg 0 (image.map some)
    some (some newimg, size + dsize)

/-- What `gpi_exif_get_thumbnail_and_size` does with the second IFD. -/
def getIfdThumbnail (exifimg : Int) (newimg : List (Option UInt8)) (size : Int) :
    Option ThumbnailResult := do
  let count ← bytesAt blob exifimg 2
  let newimg ← overwrite newimg 8 (count.map some)
  let entry ← gpiExifGetLilend blob exifimg 2
  let tmp ← gpiGetintval blob exifimg exifJPEGInterchangeFormat
  if 0 < tmp then getJpegThumbnail blob exifimg tmp newimg (size + 2)
  else getTiffThumbnail blob exifimg entry newimg (size + 2)

/-- `gpi_exif_get_thumbnail_and_size`, with `*size` as it is before. -/
def gpiExifGetThumbnailAndSize (exifdat : ExifParser) (size : Int) : Option ThumbnailResult := do
  let parsed ← exifParseData blob exifdat
  if parsed.1 < 0 then some (none, size)
  else do
    let header ← bytesAt blob exifData 8
    let newimg ← overwrite (List.replicate parsed.1.toNat none) 0 (header.map some)
    let exifdat ← printFields blob parsed.2
    (exifdat.ifds[1]?).elim (some (none, 0)) fun dir =>
      getIfdThumbnail blob dir.ptr newimg 8

end

end GPhoto2
