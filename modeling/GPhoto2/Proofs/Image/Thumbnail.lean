import GPhoto2.Image.Thumbnail
import GPhoto2.Lib.Scan
import GPhoto2.Proofs.Image.ExifFields

/-!
# `GPhoto2.Proofs.Image.Thumbnail`: which thumbnails are returned

The function counts the header that it has copied into `*size`, and then copies a JPEG over it.
So no JPEG has the size it is returned with. Neither looks it at how long the blob is: a range
that reaches outside is refused only by chance, where the offset is read as 0 and the tags of a
TIFF thumbnail are not there.

* `getJpegThumbnail_size`: a JPEG is returned with 10 bytes more than its length is read as.
* `copyStrips_start`: a TIFF begins with the header of the blob.
* `meetsThumbnail_iff`: what the function does is right in no other case than that chance.
-/

set_option autoImplicit false

namespace GPhoto2

open Lib
open Option (bind_eq_bind bind_eq_some_iff bind_some elim_some isSome_iff_exists isSome_of_eq_some
  map_eq_some_iff map_some)

/-! ### What is promised -/

section
variable (blob : List UInt8)

/-- A thumbnail inside the blob is returned with its length, and one that reaches outside is
refused. -/
def MeetsThumbnail (exifdat : ExifParser) (size : Int) (offset length : Nat) : Prop :=
  (∀ bytes, slice blob (12 + offset) length = some bytes →
    ∃ newimg : List (Option UInt8),
      gpiExifGetThumbnailAndSize blob exifdat size = some (some newimg, (length : Int)) ∧
      newimg.take length = bytes.map some) ∧
  (slice blob (12 + offset) length = none →
    ∃ size', gpiExifGetThumbnailAndSize blob exifdat size = some (none, size'))

/-- All that is read for the fields that are printed is there: the camera model, in some IFD, and
in the third one the comment, if the picture has one. -/
structure FieldsPrintable (exifdat : ExifParser) : Prop where
  model : ∃ data, searchData blob exifModel exifdat (exifdat.ifds.length + 1) 0 = some data ∧
    0 ∈ data
  comment : gpiExifGetField blob exifUserComment 2 exifdat = some none ∨
    ∃ tagdat data, gpiExifGetField blob exifUserComment 2 exifdat = some (some tagdat) ∧
      fieldData blob exifUserComment 2 exifdat = some data ∧ 0 ∈ data
  distance : (gpiExifGetField blob exifSubjectDistance 2 exifdat).isSome

/-- A thumbnail that reaches outside the blob, and is refused: its offset is read as 0, and there
is no TIFF. -/
structure RefusedByChance (exifdat : ExifParser) (exiflen ifdp : Int) (type offset length : Nat) :
    Prop where
  outside : blob.length < 12 + offset + length
  room : 10 ≤ exiflen
  printable : FieldsPrintable blob exifdat
  start : offset % 256 ^ exifSizetab.getD (type - 1) 0 = 0
  noStrips : gpiGetintval blob ifdp exifStripOffsets = some (-1) ∨
    (gpiGetintval blob ifdp exifStripOffsets).isSome ∧
      gpiGetintval blob ifdp exifStripByteCounts = some (-1)

end

/-! ### Copies -/

section
variable {α : Type} {buffer buffer' bytes : List α} {pos : Int}

theorem overwrite_eq_some :
    overwrite buffer pos bytes = some buffer' ↔
      (0 ≤ pos ∧ pos.toNat + bytes.length ≤ buffer.length) ∧
      buffer.take pos.toNat ++ bytes ++ buffer.drop (pos.toNat + bytes.length) = buffer' := by
  unfold overwrite
  by_cases hfits : 0 ≤ pos ∧ pos.toNat + bytes.length ≤ buffer.length
  · simp [hfits]
  · simp [hfits]

variable (h : overwrite buffer pos bytes = some buffer')
include h

theorem overwrite_length :
    buffer'.length = buffer.length := by
  obtain ⟨⟨-, hfits⟩, rfl⟩ := overwrite_eq_some.mp h
  simp only [List.length_append, List.length_take, List.length_drop]
  omega

theorem overwrite_before {i : Nat}
    (hi : i < pos.toNat) : buffer'[i]? = buffer[i]? := by
  obtain ⟨⟨-, hfits⟩, rfl⟩ := overwrite_eq_some.mp h
  rw [List.append_assoc, List.getElem?_append_left (by rw [List.length_take]; omega),
    List.getElem?_take_of_lt hi]

end

/-! ### A TIFF -/

/-- What has been copied into the buffer is behind its first byte, which is still that one. -/
def StartsWith (start : Option (Option UInt8)) (copy : StripCopy) : Prop :=
  0 < copy.curptr ∧ copy.newimg[0]? = start

section
variable {start : Option (Option UInt8)} {copy copy' : StripCopy}

theorem StartsWith.moved (h : StartsWith start copy) (blob : List UInt8) (dataptr : Int) :
    StartsWith start { copy with blob := blob, dataptr := dataptr } := h

theorem StripCopy.copyTo_keeps {bytes : List UInt8} (hstart : StartsWith start copy)
    (h : copy.copyTo bytes = some copy') : StartsWith start copy' := by
  obtain ⟨newimg, hnewimg, h⟩ := bind_eq_some_iff.mp h
  cases h
  obtain ⟨hcurptr, hfirst⟩ := hstart
  refine ⟨Nat.add_pos_left hcurptr _, ?_⟩
  show newimg[0]? = start
  rw [overwrite_before hnewimg (by omega), hfirst]

theorem copyField_keeps {exifimg : Int} {i : Nat} (hstart : StartsWith start copy)
    (h : copyField exifimg i copy = some copy') : StartsWith start copy' := by
  obtain ⟨bytes, -, h⟩ := bind_eq_some_iff.mp h
  exact StripCopy.copyTo_keeps hstart h

variable {imagedata : Int}

variable (hstart : StartsWith start copy)
include hstart

theorem moveData_keeps {datvec : Int} {rounds j : Nat}
    (h : moveData imagedata datvec rounds j copy = some copy') : StartsWith start copy' := by
  induction rounds generalizing copy j with
  | zero =>
    cases h
    exact hstart
  | succ rounds ih =>
    obtain ⟨byte, -, h⟩ := bind_eq_some_iff.mp h
    obtain ⟨blob, -, h⟩ := bind_eq_some_iff.mp h
    exact ih (hstart.moved blob (copy.dataptr + 1)) h

theorem copyEntry_keeps {exifimg : Int} {entry i : Nat}
    (h : copyEntry exifimg imagedata entry copy i = some copy') : StartsWith start copy' := by
  obtain ⟨dsize, -, h⟩ := bind_eq_some_iff.mp h
  obtain ⟨tag, -, h⟩ := bind_eq_some_iff.mp h
  by_cases hstrips : tag = exifStripOffsets
  · rw [if_pos hstrips] at h
    obtain ⟨blob, -, h⟩ := bind_eq_some_iff.mp h
    exact copyField_keeps (hstart.moved blob copy.dataptr) h
  rw [if_neg hstrips] at h
  by_cases hsmall : dsize < 5
  · rw [if_pos hsmall] at h
    exact copyField_keeps hstart h
  · rw [if_neg hsmall] at h
    obtain ⟨datvec, -, h⟩ := bind_eq_some_iff.mp h
    obtain ⟨blob, -, h⟩ := bind_eq_some_iff.mp h
    obtain ⟨moved, hmoved, h⟩ := bind_eq_some_iff.mp h
    exact copyField_keeps (moveData_keeps (hstart.moved blob copy.dataptr) hmoved) h

theorem copyStrips_start {exifimg : Int} {entry : Nat} {result : ThumbnailResult}
    (h : copyStrips exifimg imagedata entry copy = some result) :
    ∃ newimg, result.1 = some newimg ∧ newimg[0]? = start := by
  obtain ⟨entries, hentries, h⟩ := bind_eq_some_iff.mp h
  obtain ⟨link, -, h⟩ := bind_eq_some_iff.mp h
  obtain ⟨linked, hlinked, h⟩ := bind_eq_some_iff.mp h
  have hstart := foldlM_keeps (fun _ _ _ hb hstep => copyEntry_keeps hb hstep) hstart hentries
  have hstart := StripCopy.copyTo_keeps hstart hlinked
  by_cases hneg : linked.dataptr < 0
  · rw [if_pos hneg] at h
    cases h
  · rw [if_neg hneg] at h
    obtain ⟨image, -, h⟩ := bind_eq_some_iff.mp h
    obtain ⟨copied, hcopied, h⟩ := bind_eq_some_iff.mp h
    cases h
    exact ⟨copied.newimg, rfl, (StripCopy.copyTo_keeps hstart hcopied).2⟩

end

/-! ### The two kinds of thumbnails -/

section
variable {blob : List UInt8}
  {exifimg size : Int} {newimg : List (Option UInt8)} {result : ThumbnailResult}

/-- What is not a JPEG is refused if it is not a TIFF either, and else begins as the buffer. -/
theorem getTiffThumbnail_cases {entry : Nat}
    (h : getTiffThumbnail blob exifimg entry newimg size = some result) :
    result.1 = none ∧ (gpiGetintval blob exifimg exifStripOffsets = some (-1) ∨
      (gpiGetintval blob exifimg exifStripOffsets).isSome ∧
        gpiGetintval blob exifimg exifStripByteCounts = some (-1)) ∨
    ∃ newimg', result.1 = some newimg' ∧ newimg'[0]? = newimg[0]? := by
  obtain ⟨tmp, htmp, h⟩ := bind_eq_some_iff.mp h
  by_cases hoffsets : tmp = -1
  · rw [if_pos hoffsets] at h
    cases h
    left
    rw [htmp, hoffsets]
    exact ⟨rfl, Or.inl rfl⟩
  rw [if_neg hoffsets] at h
  obtain ⟨dataptr, hdataptr, h⟩ := bind_eq_some_iff.mp h
  by_cases hcounts : dataptr = -1
  · rw [if_pos hcounts] at h
    cases h
    left
    rw [hdataptr, hcounts]
    exact ⟨rfl, Or.inr ⟨isSome_of_eq_some htmp, rfl⟩⟩
  · rw [if_neg hcounts] at h
    right
    exact copyStrips_start (show StartsWith newimg[0]? _ from ⟨Nat.zero_lt_succ 9, rfl⟩) h

theorem getTiffThumbnail_refuses {entry : Nat}
    (h : gpiGetintval blob exifimg exifStripOffsets = some (-1) ∨
      (gpiGetintval blob exifimg exifStripOffsets).isSome ∧
        gpiGetintval blob exifimg exifStripByteCounts = some (-1)) :
    getTiffThumbnail blob exifimg entry newimg size = some (none, 0) := by
  unfold getTiffThumbnail
  by_cases hoffsets : gpiGetintval blob exifimg exifStripOffsets = some (-1)
  · rw [hoffsets]
    rfl
  · obtain ⟨hsome, hcounts⟩ := h.resolve_left hoffsets
    obtain ⟨tmp, htmp⟩ := isSome_iff_exists.mp hsome
    have hne : tmp ≠ -1 := by
      intro heq
      exact hoffsets (by rw [htmp, heq])
    simp only [bind_eq_bind, htmp, bind_some, if_neg hne, hcounts, if_true]

variable {type : Nat}

theorem sizeBefore_le (h : type ∈ [exifByte, exifShort, exifLong]) :
    exifSizetab.getD (type - 1) 0 ≤ 2 := by
  rcases List.mem_cons.mp h with rfl | h
  · decide
  rcases List.mem_cons.mp h with rfl | h
  · decide
  · obtain rfl := List.mem_singleton.mp h
    decide

theorem IntegerEntry.getintval_eq {tagNumber i v : Nat} {ifdp : Int}
    (h : IntegerEntry blob tagNumber ifdp i type v) :
    gpiGetintval blob ifdp tagNumber =
      some ((v % 256 ^ exifSizetab.getD (type - 1) 0 : Nat) : Int) := by
  have hle : 256 ^ exifSizetab.getD (type - 1) 0 ≤ 256 ^ 2 :=
    Nat.pow_le_pow_right (by decide) (sizeBefore_le h.integer)
  have hpos : 0 < 256 ^ exifSizetab.getD (type - 1) 0 := Nat.pow_pos (by decide)
  have hlt := Nat.mod_lt v hpos
  rw [h.getintval, toInt_of_lt (by omega)]

/-- Ten more than the lowest bytes of a number are not the number, if there are any. -/
theorem eq_zero_of_ten_add {k n : Nat} (hk : k ≤ 2) (h : 10 + n % 256 ^ k = n) :
    n % 256 ^ k = 0 := by
  have hcases : k = 0 ∨ k = 1 ∨ k = 2 := by omega
  rcases hcases with rfl | rfl | rfl
  · exact Nat.mod_one n
  · rw [Nat.pow_one] at h ⊢
    omega
  · have hpow : 256 ^ 2 = 65536 := by decide
    rw [hpow] at h ⊢
    omega

/-- A JPEG is returned, and its size is 10 bytes more than what its length is read as. -/
theorem getJpegThumbnail_size {tmp : Int}
    {j length : Nat}
    (hlength : IntegerEntry blob exifJPEGInterchangeFormatLength exifimg j type length)
    (h : getJpegThumbnail blob exifimg tmp newimg size = some result) :
    ∃ newimg', result = (some newimg',
        size + (length % 256 ^ exifSizetab.getD (type - 1) 0 : Nat)) ∧
      (length % 256 ^ exifSizetab.getD (type - 1) 0 = 0 → newimg' = newimg) := by
  unfold getJpegThumbnail at h
  rw [hlength.getintval_eq] at h
  generalize length % 256 ^ exifSizetab.getD (type - 1) 0 = dsize at h ⊢
  simp only [bind_eq_bind, bind_some] at h
  rw [if_neg (by omega), if_neg (by omega), Int.toNat_natCast] at h
  obtain ⟨image, himage, h⟩ := bind_eq_some_iff.mp h
  obtain ⟨copied, hcopied, h⟩ := bind_eq_some_iff.mp h
  cases h
  refine ⟨copied, rfl, ?_⟩
  intro hzero
  -- No bytes are copied.
  subst hzero
  obtain rfl : [] = image := Option.some.inj himage
  obtain ⟨-, rfl⟩ := overwrite_eq_some.mp hcopied
  simp

/-- The second IFD is refused, or what is returned with the length of its thumbnail begins with
the header. -/
theorem getIfdThumbnail_cases {i j type' offset length : Nat}
    (hstart : IntegerEntry blob exifJPEGInterchangeFormat exifimg i type offset)
    (hlength : IntegerEntry blob exifJPEGInterchangeFormatLength exifimg j type' length)
    (h : getIfdThumbnail blob exifimg newimg 8 = some result) :
    (result.1 = none ∧ 10 ≤ newimg.length ∧ offset % 256 ^ exifSizetab.getD (type - 1) 0 = 0 ∧
      (gpiGetintval blob exifimg exifStripOffsets = some (-1) ∨
        (gpiGetintval blob exifimg exifStripOffsets).isSome ∧
          gpiGetintval blob exifimg exifStripByteCounts = some (-1))) ∨
    ∃ newimg', result.1 = some newimg' ∧ (result.2 = length → newimg'[0]? = newimg[0]?) := by
  obtain ⟨count, hcount, h⟩ := bind_eq_some_iff.mp h
  obtain ⟨counted, hcounted, h⟩ := bind_eq_some_iff.mp h
  obtain ⟨entry, -, h⟩ := bind_eq_some_iff.mp h
  rw [hstart.getintval_eq, bind_eq_bind, bind_some] at h
  have hfirst : counted[0]? = newimg[0]? := overwrite_before hcounted (by decide)
  by_cases hjpeg : (0 : Int) < (offset % 256 ^ exifSizetab.getD (type - 1) 0 : Nat)
  · rw [if_pos hjpeg] at h
    obtain ⟨newimg', rfl, hempty⟩ := getJpegThumbnail_size hlength h
    right
    refine ⟨newimg', rfl, ?_⟩
    intro hsize
    have hzero := eq_zero_of_ten_add (sizeBefore_le hlength.integer)
      (show 10 + length % 256 ^ exifSizetab.getD (type' - 1) 0 = length by omega)
    rw [hempty hzero, hfirst]
  · rw [if_neg hjpeg] at h
    rcases getTiffThumbnail_cases h with ⟨hnone, hstrips⟩ | ⟨newimg', hnewimg, htiff⟩
    · left
      refine ⟨hnone, ?_, by omega, hstrips⟩
      have hlen : count.length = 2 := bytesAt_length hcount
      obtain ⟨⟨-, hfits⟩, -⟩ := overwrite_eq_some.mp hcounted
      rw [List.length_map, hlen] at hfits
      exact hfits
    · right
      exact ⟨newimg', hnewimg, fun _ => htiff.trans hfirst⟩

theorem getIfdThumbnail_refuses {i offset : Nat}
    (hstart : IntegerEntry blob exifJPEGInterchangeFormat exifimg i type offset)
    (hroom : 10 ≤ newimg.length) (hzero : offset % 256 ^ exifSizetab.getD (type - 1) 0 = 0)
    (hstrips : gpiGetintval blob exifimg exifStripOffsets = some (-1) ∨
      (gpiGetintval blob exifimg exifStripOffsets).isSome ∧
        gpiGetintval blob exifimg exifStripByteCounts = some (-1)) :
    getIfdThumbnail blob exifimg newimg size = some (none, 0) := by
  obtain ⟨n, hn, -⟩ := hstart.first
  obtain ⟨count, hcount, -⟩ := map_eq_some_iff.mp hn
  have hlen : count.length = 2 := bytesAt_length hcount
  obtain ⟨counted, hcounted⟩ : ∃ counted, overwrite newimg 8 (count.map some) = some counted := by
    refine ⟨_, overwrite_eq_some.mpr ⟨⟨by decide, ?_⟩, rfl⟩⟩
    rw [List.length_map, hlen]
    exact hroom
  unfold getIfdThumbnail
  rw [hstart.getintval_eq, hzero]
  simp only [bind_eq_bind, hcount, hcounted, hn, bind_some]
  exact getTiffThumbnail_refuses hstrips

/-! ### The parser and the fields that are printed -/

variable {exifdat₀ exifdat : ExifParser}

/-- A blob that is parsed begins, and the parser does not depend on what it was before. -/
theorem exifParseData_again {exiflen : Int}
    (h : exifParseData blob exifdat₀ = some (exiflen, exifdat)) (hlen : 0 ≤ exiflen) :
    (∃ rest, bytesAt blob exifData 8 = some (0x49 :: rest)) ∧
      ∀ exifdat', exifParseData blob exifdat' = some (exiflen, exifdat) := by
  obtain ⟨exif, hexif, h⟩ := bind_eq_some_iff.mp h
  obtain ⟨marker, hmarker, h⟩ := bind_eq_some_iff.mp h
  by_cases hheader : exif ≠ [0x45, 0x78, 0x69, 0x66] ∨ marker ≠ [0xff, 0xd8, 0xff, 0xe1]
  · rw [if_pos hheader] at h
    obtain ⟨rfl, -⟩ := Prod.mk.inj (Option.some.inj h)
    omega
  rw [if_neg hheader] at h
  obtain ⟨length, hlength, h⟩ := bind_eq_some_iff.mp h
  obtain ⟨endian, hendian, hdirs⟩ := bind_eq_some_iff.mp h
  by_cases hintel : endian ≠ [0x49]
  · rw [if_pos hintel] at hdirs
    obtain ⟨rfl, -⟩ := Prod.mk.inj (Option.some.inj hdirs)
    omega
  rw [if_neg hintel] at hdirs
  obtain ⟨offset, hoffset, -⟩ := bind_eq_some_iff.mp hdirs
  constructor
  · have hfirst : slice blob 12 1 = some [0x49] := by
      rw [← Decidable.not_not.mp hintel]
      exact hendian
    obtain ⟨bytes, hbytes, -⟩ := map_eq_some_iff.mp hoffset
    have hlong : slice blob 16 4 = some bytes := hbytes
    obtain ⟨hlong, -⟩ := slice_eq_some.mp hlong
    obtain ⟨-, hfirst⟩ := slice_eq_some.mp hfirst
    show ∃ rest, slice blob 12 8 = some (0x49 :: rest)
    cases hrest : blob.drop 12 with
    | nil =>
      rw [hrest] at hfirst
      cases hfirst
    | cons b rest =>
      rw [hrest, List.take_succ_cons, List.cons.injEq] at hfirst
      refine ⟨rest.take 7, slice_eq_some.mpr ⟨by omega, ?_⟩⟩
      rw [hrest, List.take_succ_cons, hfirst.1]
  · intro exifdat'
    unfold exifParseData parseDirectories
    simp only [bind_eq_bind, hexif, hmarker, hlength, hendian, bind_some,
      if_neg hheader, if_neg hintel]
    exact hdirs

theorem printText_isSome {data : List UInt8} : (printText data).isSome ↔ 0 ∈ data := by
  unfold printText
  by_cases hzero : 0 ∈ data
  · simp [hzero]
  · simp [hzero]

theorem gpiExifGetComment_eq {exiflen : Int}
    (h : exifParseData blob exifdat₀ = some (exiflen, exifdat)) (hlen : 0 ≤ exiflen) :
    gpiExifGetComment blob exifdat =
      (gpiExifGetField blob exifUserComment 2 exifdat).bind fun field =>
        field.elim (some (0, none, exifdat)) fun tagdat =>
          (fieldData blob exifUserComment 2 exifdat).map fun data =>
            (tagdat.size, some data, exifdat) := by
  have hneg : ¬exiflen < 0 := by omega
  unfold gpiExifGetComment
  simp only [bind_eq_bind, (exifParseData_again h hlen).2 exifdat, bind_some,
    if_neg hneg]

theorem printFields_iff {exifdat' : ExifParser} {exiflen : Int}
    (h : exifParseData blob exifdat₀ = some (exiflen, exifdat)) (hlen : 0 ≤ exiflen) :
    printFields blob exifdat = some exifdat' ↔
      FieldsPrintable blob exifdat ∧ exifdat' = exifdat := by
  unfold printFields
  rw [gpiExifGetComment_eq h hlen]
  constructor
  · intro h
    obtain ⟨owner, howner, h⟩ := bind_eq_some_iff.mp h
    obtain ⟨model, hmodel, h⟩ := bind_eq_some_iff.mp h
    obtain ⟨comment, hcomment, h⟩ := bind_eq_some_iff.mp h
    obtain ⟨text, htext, h⟩ := bind_eq_some_iff.mp h
    obtain ⟨distance, hdistance, h⟩ := bind_eq_some_iff.mp h
    have hmodel := printText_isSome.mp (isSome_of_eq_some hmodel)
    obtain ⟨field, hfield, hcomment⟩ := bind_eq_some_iff.mp hcomment
    cases field with
    | none =>
      cases hcomment
      cases h
      exact ⟨⟨⟨owner, howner, hmodel⟩, Or.inl hfield, isSome_of_eq_some hdistance⟩, rfl⟩
    | some tagdat =>
      obtain ⟨data, hdata, hcomment⟩ := map_eq_some_iff.mp hcomment
      cases hcomment
      cases h
      have htext := printText_isSome.mp (isSome_of_eq_some htext)
      exact ⟨⟨⟨owner, howner, hmodel⟩, Or.inr ⟨tagdat, data, hfield, hdata, htext⟩,
        isSome_of_eq_some hdistance⟩, rfl⟩
  · intro h
    obtain ⟨⟨⟨owner, howner, hmodel⟩, hcomment, hdistance⟩, rfl⟩ := h
    obtain ⟨model, hmodel⟩ := isSome_iff_exists.mp (printText_isSome.mpr hmodel)
    obtain ⟨distance, hdistance⟩ := isSome_iff_exists.mp hdistance
    rcases hcomment with hfield | ⟨tagdat, data, hfield, hdata, hzero⟩
    · simp only [bind_eq_bind, howner, hmodel, hfield, hdistance, bind_some,
        Option.elim_none]
    · obtain ⟨text, htext⟩ := isSome_iff_exists.mp (printText_isSome.mpr hzero)
      simp only [bind_eq_bind, howner, hmodel, hfield, hdata, htext, hdistance,
        bind_some, elim_some, map_some]

/-! ### The thumbnail -/

/-- The buffer, with the header in it. -/
def HeaderCopied (blob : List UInt8) (exiflen : Int) (newimg : List (Option UInt8)) : Prop :=
  ∃ header, bytesAt blob exifData 8 = some header ∧
    overwrite (List.replicate exiflen.toNat none) 0 (header.map some) = some newimg

section
variable {exifdat₀ exifdat : ExifParser} {exiflen size : Int}
  (h : exifParseData blob exifdat₀ = some (exiflen, exifdat)) (hlen : 0 ≤ exiflen)
include h hlen

theorem HeaderCopied.begins {newimg : List (Option UInt8)}
    (hcopied : HeaderCopied blob exiflen newimg) :
    newimg[0]? = some (some 0x49) ∧ newimg.length = exiflen.toNat := by
  obtain ⟨header, hheader, hcopied⟩ := hcopied
  obtain ⟨rest, hbegins⟩ := (exifParseData_again h hlen).1
  cases hheader.symm.trans hbegins
  refine ⟨?_, by rw [overwrite_length hcopied, List.length_replicate]⟩
  obtain ⟨-, rfl⟩ := overwrite_eq_some.mp hcopied
  rfl

theorem headerCopied_of_room (hroom : 8 ≤ exiflen) :
    ∃ newimg, HeaderCopied blob exiflen newimg := by
  obtain ⟨rest, hheader⟩ := (exifParseData_again h hlen).1
  refine ⟨_, _, hheader, overwrite_eq_some.mpr ⟨⟨Int.le_refl 0, ?_⟩, rfl⟩⟩
  have height := bytesAt_length hheader
  rw [List.length_map, List.length_replicate, height]
  omega

/-- The function ends if the header has room, the fields can be printed and the second IFD
ends. -/
theorem gpiExifGetThumbnailAndSize_iff {dir : Ifd} {result : ThumbnailResult}
    (hdir : exifdat.ifds[1]? = some dir) :
    gpiExifGetThumbnailAndSize blob exifdat₀ size = some result ↔
      FieldsPrintable blob exifdat ∧ ∃ newimg, HeaderCopied blob exiflen newimg ∧
        getIfdThumbnail blob dir.ptr newimg 8 = some result := by
  have hneg : ¬exiflen < 0 := by omega
  unfold gpiExifGetThumbnailAndSize
  simp only [bind_eq_bind, h, bind_some, if_neg hneg]
  constructor
  · intro hrun
    obtain ⟨header, hheader, hrun⟩ := bind_eq_some_iff.mp hrun
    obtain ⟨newimg, hnewimg, hrun⟩ := bind_eq_some_iff.mp hrun
    obtain ⟨again, hprint, hrun⟩ := bind_eq_some_iff.mp hrun
    obtain ⟨hprintable, hagain⟩ := (printFields_iff h hlen).mp hprint
    rw [hagain, hdir, elim_some] at hrun
    exact ⟨hprintable, newimg, ⟨header, hheader, hnewimg⟩, hrun⟩
  · intro hrun
    obtain ⟨hprintable, newimg, ⟨header, hheader, hnewimg⟩, hrun⟩ := hrun
    have hprint := (printFields_iff h hlen).mpr ⟨hprintable, rfl⟩
    simp only [hheader, hnewimg, hprint, bind_some, hdir, elim_some]
    exact hrun

end

theorem begins_of_take {bytes : List UInt8} {length : Nat}
    (htake : newimg.take length = bytes.map some) (hjpeg : bytes.take 2 = [0xff, 0xd8]) :
    newimg[0]? = some (some 0xff) := by
  have hfirst : bytes[0]? = some 0xff := by
    rw [← List.getElem?_take_of_lt Nat.zero_lt_two, hjpeg]
    rfl
  have hmap : (newimg.take length)[0]? = some (some 0xff) := by
    rw [htake, List.getElem?_map, hfirst]
    rfl
  by_cases hlength : 0 < length
  · rwa [List.getElem?_take_of_lt hlength] at hmap
  · obtain rfl : length = 0 := by omega
    cases hmap

/-- The thumbnail of a blob is returned with its bytes and its length, or refused where it
reaches outside, only in the one case where it is refused by chance. -/
theorem meetsThumbnail_iff {exifdat₀ exifdat : ExifParser} {exiflen size : Int} {dir : Ifd}
    {i j type type' offset length : Nat}
    (h : exifParseData blob exifdat₀ = some (exiflen, exifdat)) (hlen : 0 ≤ exiflen)
    (hdir : exifdat.ifds[1]? = some dir)
    (hstart : IntegerEntry blob exifJPEGInterchangeFormat dir.ptr i type offset)
    (hlength : IntegerEntry blob exifJPEGInterchangeFormatLength dir.ptr j type' length)
    (hjpeg : ∀ bytes, slice blob (12 + offset) length = some bytes →
      bytes.take 2 = [0xff, 0xd8]) :
    MeetsThumbnail blob exifdat₀ size offset length ↔
      RefusedByChance blob exifdat exiflen dir.ptr type offset length := by
  constructor
  · intro hmeets
    obtain ⟨hinside, houtside⟩ := hmeets
    cases hbytes : slice blob (12 + offset) length with
    | some bytes =>
      obtain ⟨newimg', hrun, htake⟩ := hinside bytes hbytes
      obtain ⟨-, newimg, hcopied, hrun⟩ :=
        (gpiExifGetThumbnailAndSize_iff h hlen hdir).mp hrun
      have hbegins := (hcopied.begins h hlen).1
      have hsoi := hjpeg bytes hbytes
      rcases getIfdThumbnail_cases hstart hlength hrun with ⟨hnone, -⟩ | ⟨returned, hsame, hkept⟩
      · cases hnone
      · cases hsame
        -- A JPEG begins with another byte than the header.
        have hfirst := (hkept rfl).trans hbegins
        rw [begins_of_take htake hsoi] at hfirst
        exact absurd (Option.some.inj (Option.some.inj hfirst)) (by decide)
    | none =>
      obtain ⟨size', hrun⟩ := houtside hbytes
      obtain ⟨hprintable, newimg, hcopied, hrun⟩ :=
        (gpiExifGetThumbnailAndSize_iff h hlen hdir).mp hrun
      have hroom := (hcopied.begins h hlen).2
      rcases getIfdThumbnail_cases hstart hlength hrun with ⟨-, hten, hzero, hstrips⟩ | hreturned
      · exact ⟨slice_eq_none.mp hbytes, by omega, hprintable, hzero, hstrips⟩
      · obtain ⟨newimg', hsome, -⟩ := hreturned
        cases hsome
  · intro hchance
    have hnone : slice blob (12 + offset) length = none := slice_eq_none.mpr hchance.outside
    constructor
    · intro bytes hbytes
      cases hnone.symm.trans hbytes
    · intro
      have hten := hchance.room
      obtain ⟨newimg, hcopied⟩ := headerCopied_of_room h hlen (by omega)
      have hroom := (hcopied.begins h hlen).2
      exact ⟨0, (gpiExifGetThumbnailAndSize_iff h hlen hdir).mpr ⟨hchance.printable, newimg,
        hcopied, getIfdThumbnail_refuses hstart (by omega) hchance.start hchance.noStrips⟩⟩

/-- A picture with the camera model `Abc`, a third IFD without entries and a thumbnail of 2
bytes. -/
def thumbnailBlob : List UInt8 :=
  [0xff, 0xd8, 0xff, 0xe1, 0, 84, 0x45, 0x78, 0x69, 0x66, 0, 0,
    0x49, 0x49, 0x2a, 0, 8, 0, 0, 0,
    2, 0, 0x10, 0x01, 2, 0, 4, 0, 0, 0, 0x41, 0x62, 0x63, 0,
    0x69, 0x87, 4, 0, 1, 0, 0, 0, 68, 0, 0, 0, 38, 0, 0, 0,
    2, 0, 0x01, 0x02, 4, 0, 1, 0, 0, 0, 74, 0, 0, 0,
    0x02, 0x02, 4, 0, 1, 0, 0, 0, 2, 0, 0, 0, 0, 0, 0, 0,
    0, 0, 0, 0, 0, 0, 0xff, 0xd8]

theorem thumbnailBlob_parsed : exifParseData thumbnailBlob ⟨[], Nat.zero_le _⟩ =
    some (76, ⟨[⟨20, 2⟩, ⟨50, 2⟩, ⟨80, 0⟩], by decide⟩) := by
  decide +kernel

theorem thumbnailBlob_start :
    IntegerEntry thumbnailBlob exifJPEGInterchangeFormat 50 0 exifLong 74 where
  first := ⟨2, by decide, by decide, by decide, by simp⟩
  hasType := by decide
  integer := by decide
  one := by decide
  value := by decide

theorem thumbnailBlob_length :
    IntegerEntry thumbnailBlob exifJPEGInterchangeFormatLength 50 1 exifLong 2 where
  first := ⟨2, by decide, by decide, by decide, by
    intro j hj
    obtain rfl : j = 0 := by omega
    exact ⟨exifJPEGInterchangeFormat, by decide, by decide⟩⟩
  hasType := by decide
  integer := by decide
  one := by decide
  value := by decide

theorem thumbnailBlob_jpeg (bytes : List UInt8)
    (h : slice thumbnailBlob (12 + 74) 2 = some bytes) : bytes.take 2 = [0xff, 0xd8] := by
  have hslice : slice thumbnailBlob (12 + 74) 2 = some [0xff, 0xd8] := by decide +kernel
  cases hslice.symm.trans h
  rfl

theorem thumbnailBlob_meets :
    MeetsThumbnail thumbnailBlob ⟨[], Nat.zero_le _⟩ 0 74 2 ↔
      RefusedByChance thumbnailBlob ⟨[⟨20, 2⟩, ⟨50, 2⟩, ⟨80, 0⟩], by decide⟩ 76 50 exifLong 74 2 :=
  @meetsThumbnail_iff thumbnailBlob _ _ 76 0 ⟨50, 2⟩ 0 1 exifLong exifLong 74 2
    thumbnailBlob_parsed (by decide) rfl thumbnailBlob_start thumbnailBlob_length
    thumbnailBlob_jpeg

/-- The thumbnail of 2 bytes is returned as 12. -/
theorem thumbnail_too_long :
    ¬∀ (blob : List UInt8) (exifdat₀ exifdat : ExifParser) (exiflen size : Int) (dir : Ifd)
      (i j type type' offset length : Nat),
      exifParseData blob exifdat₀ = some (exiflen, exifdat) → 0 ≤ exiflen →
      exifdat.ifds[1]? = some dir →
      IntegerEntry blob exifJPEGInterchangeFormat dir.ptr i type offset →
      IntegerEntry blob exifJPEGInterchangeFormatLength dir.ptr j type' length →
      (∀ bytes, slice blob (12 + offset) length = some bytes → bytes.take 2 = [0xff, 0xd8]) →
      MeetsThumbnail blob exifdat₀ size offset length := by
  intro h
  have hmeets := h thumbnailBlob ⟨[], Nat.zero_le _⟩ _ 76 0 ⟨50, 2⟩ 0 1 exifLong exifLong 74 2
    thumbnailBlob_parsed (by decide) rfl thumbnailBlob_start thumbnailBlob_length
    thumbnailBlob_jpeg
  obtain ⟨newimg, hrun, -⟩ := hmeets.1 [0xff, 0xd8] (by decide +kernel)
  have hsize : (gpiExifGetThumbnailAndSize thumbnailBlob ⟨[], Nat.zero_le _⟩ 0).map Prod.snd =
      some 12 := by
    decide +kernel
  rw [hrun, map_some] at hsize
  have hsize : (2 : Int) = 12 := Option.some.inj hsize
  omega

end

end GPhoto2
