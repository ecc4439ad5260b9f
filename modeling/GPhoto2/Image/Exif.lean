import GPhoto2.Lib.Endian

/-!
# `GPhoto2.Image.Exif`: the directories of an EXIF blob

`exif.c`. A blob begins with its header, and its data 12 bytes further on, as in both drivers
that parse one. Pointers are positions in the blob. The parser follows the links from one
directory (IFD) to the next and registers them in the array `ifds`.

A read outside the blob, or behind `exif_sizetab`, a write behind `ifds`, an overflow of an `int`
and the use of a value that was never set have no defined outcome: `none`. An `int` that is
given a longer number keeps its lowest 32 bits.
-/

set_option autoImplicit false

namespace GPhoto2

open Lib

/-- `exif_sizetab`: the sizes of the types of tags. -/
def exifSizetab : List Nat := [0, 1, 1, 2, 4, 8, 1, 1, 2, 4, 8, 4, 8]

def exifAscii : Nat := 2
def exifRational : Nat := 5
def exifUndefined : Nat := 7
def exifSrational : Nat := 10

/-- `EXIF_ExifOffset`. -/
def exifExifOffset : Nat := 0x8769

/-- `exifdat->data`. -/
def exifData : Int := 12

/-- An element of `ifds`, and of `ifdtags`. -/
structure Ifd where
  ptr : Int
  tags : Nat
deriving DecidableEq

/-- `exifparser`: the first `ifdcnt` elements of the arrays of 10. -/
structure ExifParser where
  ifds : List Ifd
  count_le : ifds.length ≤ 10
deriving DecidableEq

/-- `ExifData`. A value that is only set for some types is `none` for the others. -/
structure ExifTagData where
  tag : Nat
  type : Nat
  size : Int
  intval : Option Int
deriving DecidableEq

/-! ### Reading -/

variable (blob : List UInt8)

/-- Some bytes at a position of the blob. No byte is there everywhere. -/
def bytesAt (pos : Int) (n : Nat) : Option (List UInt8) :=
  if n = 0 then some [] else if 0 ≤ pos then slice blob pos.toNat n else none

/-- `gpi_exif_get_lilend`. -/
def gpiExifGetLilend (pos : Int) (size : Nat) : Option Nat := (bytesAt blob pos size).map ofBytes

/-- A number as an `int`. -/
def toInt (n : Nat) : Int := (n : Int).bmod (2 ^ 32)

/-- `exif_next_ifd`. -/
def exifNextIfd (num : Int) : Option Nat := do
  let count ← gpiExifGetLilend blob (exifData + num) 2
  let offset := (count : Int) * 12 + num + 2
  if offset < 2 ^ 31 then gpiExifGetLilend blob (exifData + offset) 4 else none

/-! ### Directories -/

/-- Another element of `ifds`. -/
def addIfd (exifdat : ExifParser) (ifd : Ifd) : Option ExifParser :=
  if h : exifdat.ifds.length < 10 then
    some ⟨exifdat.ifds ++ [ifd], by rw [List.length_append]; exact h⟩
  else none

/-- The loop of `gpi_exif_stat` and `exif_parse_data`. -/
def stepIfds : Nat → ExifParser → Nat → Option ExifParser
  | 0, _, _ => none
  | rounds + 1, exifdat, offset => do
    let tags ← gpiExifGetLilend blob (exifData + offset) 2
    let exifdat ← addIfd exifdat ⟨exifData + offset, tags⟩
    let next ← exifNextIfd blob (toInt offset)
    if next = 0 then some exifdat else stepIfds rounds exifdat next

/-- The directories from an offset on. In the eleventh round the array is full. -/
def parseIfds (offset : Nat) : Option ExifParser := stepIfds blob 11 ⟨[], Nat.zero_le _⟩ offset

/-- `gpi_exif_stat`. -/
def gpiExifStat (exifdata : ExifParser) : Option (Int × ExifParser) := do
  let endian ← bytesAt blob exifData 1
  if endian ≠ [0x49] then some (-1, exifdata)
  else do
    let offset ← gpiExifGetLilend blob (exifData + 4) 4
    let exifdata ← parseIfds blob offset
    some (0, exifdata)

/-! ### Tags -/

/-- The loop of `gpi_exif_get_field`: the index of the entry it stops at, and its tag. -/
def findTag (ifdp : Int) (numtags tagNumber : Nat) : Nat → Nat → Option (Nat × Nat)
  | 0, _ => none
  | rounds + 1, i => do
    let tag ← gpiExifGetLilend blob (ifdp + i * 12 + 2) 2
    if i < numtags ∧ tag ≠ tagNumber then findTag ifdp numtags tagNumber rounds (i + 1)
    else some (i, tag)

/-- The fields that `gpi_exif_get_field` sets, when it has copied the contents of a tag. It
prints all texts, and so they need their terminator. -/
def setTagData (tag type tagSize : Nat) (size : Int) (data : List UInt8) : Option ExifTagData :=
  if type = exifAscii then
    if 0 ∈ data then some ⟨tag, type, size, none⟩ else none
  else if type = exifRational ∨ type = exifUndefined ∨ type = exifSrational then
    some ⟨tag, type, size, none⟩
  else
    (gpiExifGetLilend data 0 tagSize).map fun intval => ⟨tag, type, size, some (toInt intval)⟩

/-- Where the contents of a tag are, with the pointer at the entry. -/
def contentsPtr (size ifdp : Int) : Option Int :=
  if 4 < size then (gpiExifGetLilend blob (ifdp + 8) 4).map (exifData + ·) else some (ifdp + 8)

/-- The part of `gpi_exif_get_field` behind its loop, with the pointer at the entry. It fails
if there is no memory, as for a negative size. -/
def getContents (tag : Nat) (ifdp : Int) : Option (Option ExifTagData) := do
  let type ← gpiExifGetLilend blob (ifdp + 2) 2
  let tagSize ← exifSizetab[type]?
  let count ← gpiExifGetLilend blob (ifdp + 4) 4
  let size := toInt (tagSize * count)
  let contents ← contentsPtr blob size ifdp
  if size < 0 then some none
  else do
    let data ← bytesAt blob contents size.toNat
    (setTagData tag type tagSize size data).map some

/-- `gpi_exif_get_field` of one IFD, after the parser has been initialised. -/
def gpiExifGetField (tagNumber ifd : Nat) (exifdata : ExifParser) :
    Option (Option ExifTagData) := do
  let dir ← exifdata.ifds[ifd]?
  let numtags ← gpiExifGetLilend blob dir.ptr 2
  let found ← findTag blob dir.ptr numtags tagNumber (numtags + 1) 0
  if found.2 ≠ tagNumber then some none
  else getContents blob found.2 (dir.ptr + found.1 * 12 + 2)

/-! ### The parser -/

/-- The EXIF sub-IFD, behind the directories that are linked. -/
def addSubIfd (exifdat : ExifParser) (tagdat : ExifTagData) : Option ExifParser := do
  let intval ← tagdat.intval
  let tags ← gpiExifGetLilend blob (exifData + intval) 2
  addIfd exifdat ⟨exifData + intval, tags⟩

/-- What `exif_parse_data` does behind the check of the header. -/
def parseDirectories (exifdat : ExifParser) (exiflen : Int) : Option (Int × ExifParser) := do
  let endian ← bytesAt blob exifData 1
  if endian ≠ [0x49] then some (-1, exifdat)
  else do
    let offset ← gpiExifGetLilend blob (exifData + 4) 4
    let exifdat ← parseIfds blob offset
    let field ← gpiExifGetField blob exifExifOffset 0 exifdat
    let exifdat ← field.elim (some exifdat) (addSubIfd blob exifdat)
    some (exiflen, exifdat)

/-- `exif_parse_data`: what it returns, and the parser. -/
def exifParseData (exifdat : ExifParser) : Option (Int × ExifParser) := do
  let exif ← bytesAt blob 6 4
  let marker ← bytesAt blob 0 4
  if exif ≠ [0x45, 0x78, 0x69, 0x66] ∨ marker ≠ [0xff, 0xd8, 0xff, 0xe1] then some (-1, exifdat)
  else do
    let length ← bytesAt blob 4 2
    parseDirectories blob exifdat
      (((length.getD 1 0).toNat : Int) + (length.getD 0 0).toNat * 256 - 8)

/-! ## Looking for a field of an EXIF blob

`gpi_exif_get_field` with any number of an IFD and `gpi_getintval`, both after the parser has
been initialised. Their loops over the entries of an IFD are the same, `findTag`. `fieldReads`
is what the first of them looks at on its way.
-/

/-! ### `gpi_exif_get_field` -/

/-- The loop of `gpi_exif_get_field` over all IFDs. -/
def searchIfds (tagNumber : Nat) (exifdata : ExifParser) :
    Nat → Nat → Option (Option ExifTagData)
  | 0, _ => some none
  | rounds + 1, ifd => do
    let field ← gpiExifGetField blob tagNumber ifd exifdata
    if field.isSome then some field else searchIfds tagNumber exifdata rounds (ifd + 1)

/-- `gpi_exif_get_field` with any number of an IFD. The loop for -1 also asks for the IFD behind
the last one. -/
def gpiExifGetFieldAny (tagNumber : Nat) (ifd : Int) (exifdata : ExifParser) :
    Option (Option ExifTagData) :=
  if ifd = -1 then searchIfds blob tagNumber exifdata (exifdata.ifds.length + 1) 0
  else if 0 ≤ ifd then gpiExifGetField blob tagNumber ifd.toNat exifdata
  else none

/-! ### What it looks at -/

/-- The entries whose tags `findTag` reads. -/
def entriesRead (ifdp : Int) (numtags tagNumber : Nat) : Nat → Nat → List Nat
  | 0, _ => []
  | rounds + 1, i =>
    i :: (gpiExifGetLilend blob (ifdp + i * 12 + 2) 2).elim [] fun tag =>
      if i < numtags ∧ tag ≠ tagNumber then entriesRead ifdp numtags tagNumber rounds (i + 1)
      else []

/-- The entries whose tags `gpi_exif_get_field` reads in one IFD. -/
def ifdReads (tagNumber : Nat) (exifdata : ExifParser) (ifd : Nat) : List (Nat × Nat) :=
  (exifdata.ifds[ifd]?).elim [] fun dir =>
    (gpiExifGetLilend blob dir.ptr 2).elim [] fun numtags =>
      (entriesRead blob dir.ptr numtags tagNumber (numtags + 1) 0).map fun i => (ifd, i)

/-- The entries whose tags `searchIfds` reads. -/
def searchReads (tagNumber : Nat) (exifdata : ExifParser) : Nat → Nat → List (Nat × Nat)
  | 0, _ => []
  | rounds + 1, ifd =>
    ifdReads blob tagNumber exifdata ifd ++
      if gpiExifGetField blob tagNumber ifd exifdata = some none then
        searchReads tagNumber exifdata rounds (ifd + 1)
      else []

/-- The entries whose tags `gpi_exif_get_field` reads, each with its IFD. -/
def fieldReads (tagNumber : Nat) (ifd : Int) (exifdata : ExifParser) : List (Nat × Nat) :=
  if ifd = -1 then searchReads blob tagNumber exifdata (exifdata.ifds.length + 1) 0
  else if 0 ≤ ifd then ifdReads blob tagNumber exifdata ifd.toNat
  else []

/-! ### `gpi_getintval` -/

def exifByte : Nat := 1
def exifShort : Nat := 3
def exifLong : Nat := 4

/-- `exif_sizetab[tagtype-1]`, as `gpi_getintval` looks sizes up. -/
def sizeBefore (tagtype : Nat) : Option Nat :=
  if tagtype = 0 then none else exifSizetab[tagtype - 1]?

/-- `gpi_getintval`. -/
def gpiGetintval (ifdp : Int) (tagnum : Nat) : Option Int := do
  let numtags ← gpiExifGetLilend blob ifdp 2
  let found ← findTag blob ifdp numtags tagnum (numtags + 1) 0
  if found.2 ≠ tagnum then some (-1)
  else do
    let tagtype ← gpiExifGetLilend blob (ifdp + found.1 * 12 + 4) 2
    let size ← sizeBefore tagtype
    let value ← gpiExifGetLilend blob (ifdp + found.1 * 12 + 10) size
    some (toInt value)

end GPhoto2
