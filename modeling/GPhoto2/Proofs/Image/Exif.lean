import GPhoto2.Image.Exif

/-!
# `GPhoto2.Proofs.Image.Exif`: which EXIF blobs are read inside

Nothing in the parser looks at how long the blob is. `Links` is the way along the links from one
directory to the next, and `StatInside` and `ParseInside` say that this way ends within 10
directories and that all that is read on it is in the blob. `exif_parse_iff` says that the two
functions have an outcome exactly then.
-/

set_option autoImplicit false

namespace GPhoto2

open Lib
open Option (bind_eq_bind bind_eq_some_iff bind_some isSome_iff_exists isSome_of_eq_some
  map_eq_some_iff)

/-! ### What has to be in the blob -/

/-- The directories that are linked, from the one at an offset to the one without a link. The
number of entries of each and the link behind them are in the blob. -/
inductive Links (blob : List UInt8) : Nat → List Nat → Prop
  | last {offset : Nat} (htags : (gpiExifGetLilend blob (exifData + offset) 2).isSome)
      (hnext : exifNextIfd blob (toInt offset) = some 0) : Links blob offset [offset]
  | next {offset next : Nat} {chain : List Nat}
      (htags : (gpiExifGetLilend blob (exifData + offset) 2).isSome)
      (hnext : exifNextIfd blob (toInt offset) = some next) (hne : next ≠ 0)
      (hrest : Links blob next chain) : Links blob offset (offset :: chain)

/-- The data begins, and if it is in the Intel format then the links from its first directory on
end within 10 directories. -/
def DirectoriesInside (blob : List UInt8) (rest : Nat → Nat → Prop) : Prop :=
  12 < blob.length ∧ (blob[12]? = some 0x49 →
    ∃ offset chain, gpiExifGetLilend blob 16 4 = some offset ∧ Links blob offset chain ∧
      chain.length ≤ 10 ∧ rest offset chain.length)

/-- What `gpi_exif_stat` needs. -/
def StatInside (blob : List UInt8) : Prop := DirectoriesInside blob fun _ _ => True

/-- The tag of an entry of an IFD. -/
def entryTag (blob : List UInt8) (ifdp : Int) (i : Nat) : Option Nat :=
  gpiExifGetLilend blob (ifdp + i * 12 + 2) 2

/-- None of the entries has the tag, and neither have the bytes behind them. -/
def NoEntry (blob : List UInt8) (tagNumber : Nat) (ifdp : Int) : Prop :=
  ∃ n, gpiExifGetLilend blob ifdp 2 = some n ∧
    ∀ j ≤ n, ∃ tag, entryTag blob ifdp j = some tag ∧ tag ≠ tagNumber

/-- The first entry with the tag, or the bytes behind the entries. -/
def FirstEntry (blob : List UInt8) (tagNumber : Nat) (ifdp : Int) (i : Nat) : Prop :=
  ∃ n, gpiExifGetLilend blob ifdp 2 = some n ∧ i ≤ n ∧ entryTag blob ifdp i = some tagNumber ∧
    ∀ j < i, ∃ tag, entryTag blob ifdp j = some tag ∧ tag ≠ tagNumber

/-- The entry has a type that has a size, and says how many bytes its contents are. -/
def EntrySize (blob : List UInt8) (entry : Int) (type tagSize : Nat) (size : Int) : Prop :=
  ∃ count, gpiExifGetLilend blob (entry + 2) 2 = some type ∧ exifSizetab[type]? = some tagSize ∧
    gpiExifGetLilend blob (entry + 4) 4 = some count ∧ size = toInt (tagSize * count)

/-- The contents of an entry: up to four bytes are in the entry, and more are where it says. -/
def EntryContents (blob : List UInt8) (entry size : Int) (data : List UInt8) : Prop :=
  ∃ contents, contentsPtr blob size entry = some contents ∧
    bytesAt blob contents size.toNat = some data

/-- The entry has a number, and it is that one. -/
def HoldsNumber (blob : List UInt8) (entry intval : Int) : Prop :=
  ∃ type tagSize size data n, EntrySize blob entry type tagSize size ∧ 0 ≤ size ∧
    EntryContents blob entry size data ∧
    type ∉ [exifAscii, exifRational, exifUndefined, exifSrational] ∧
    gpiExifGetLilend data 0 tagSize = some n ∧ intval = toInt n

/-- The first directory has no entry for the EXIF sub-IFD, or one that is too large to be read,
or one with its offset: then there is room for it and it begins in the blob. -/
def SubIfdInside (blob : List UInt8) (offset count : Nat) : Prop :=
  NoEntry blob exifExifOffset (exifData + offset) ∨
  ∃ i, FirstEntry blob exifExifOffset (exifData + offset) i ∧
    ((∃ type tagSize size, EntrySize blob (exifData + offset + i * 12 + 2) type tagSize size ∧
      size < 0) ∨
    ∃ intval, HoldsNumber blob (exifData + offset + i * 12 + 2) intval ∧ count < 10 ∧
      (gpiExifGetLilend blob (exifData + intval) 2).isSome)

/-- What `exif_parse_data` needs. -/
def ParseInside (blob : List UInt8) : Prop :=
  10 ≤ blob.length ∧
    ((blob.drop 6).take 4 = [0x45, 0x78, 0x69, 0x66] ∧ blob.take 4 = [0xff, 0xd8, 0xff, 0xe1] →
      DirectoriesInside blob (SubIfdInside blob))

/-! ### The links -/

section
variable {blob : List UInt8} {exifdat : ExifParser}

theorem addIfd_eq_some {exifdat' : ExifParser} {ifd : Ifd} :
    addIfd exifdat ifd = some exifdat' ↔ exifdat'.ifds = exifdat.ifds ++ [ifd] := by
  unfold addIfd
  by_cases hroom : exifdat.ifds.length < 10
  · rw [dif_pos hroom]
    constructor
    · intro h
      cases h
      rfl
    · intro h
      cases exifdat'
      cases h
      rfl
  · rw [dif_neg hroom]
    refine iff_of_false (fun h => by cases h) fun h => ?_
    have hle := exifdat'.count_le
    rw [h, List.length_append, List.length_singleton] at hle
    omega

theorem addIfd_isSome (exifdat : ExifParser) (ifd : Ifd) :
    (addIfd exifdat ifd).isSome ↔ exifdat.ifds.length < 10 := by
  unfold addIfd
  by_cases hroom : exifdat.ifds.length < 10
  · rw [dif_pos hroom]
    exact iff_of_true rfl hroom
  · rw [dif_neg hroom]
    exact iff_of_false (fun h => by cases h) hroom

variable {offset : Nat}

theorem stepIfds_eq_some {rounds : Nat} {exifdat' : ExifParser}
    (h : stepIfds blob rounds exifdat offset = some exifdat') :
    ∃ chain, Links blob offset chain ∧ exifdat'.ifds.map Ifd.ptr =
      exifdat.ifds.map Ifd.ptr ++ chain.map fun offset : Nat => exifData + offset := by
  induction rounds generalizing exifdat offset with
  | zero => cases h
  | succ rounds ih =>
    obtain ⟨tags, htags, h⟩ := bind_eq_some_iff.mp h
    obtain ⟨added, hadded, h⟩ := bind_eq_some_iff.mp h
    obtain ⟨next, hnext, h⟩ := bind_eq_some_iff.mp h
    have htags := isSome_of_eq_some htags
    have hptrs : added.ifds.map Ifd.ptr = exifdat.ifds.map Ifd.ptr ++ [exifData + offset] := by
      rw [addIfd_eq_some.mp hadded, List.map_append]
      rfl
    by_cases hzero : next = 0
    · rw [if_pos hzero] at h
      cases h
      subst hzero
      exact ⟨[offset], .last htags hnext, hptrs⟩
    · rw [if_neg hzero] at h
      obtain ⟨chain, hlinks, hrest⟩ := ih h
      refine ⟨offset :: chain, .next htags hnext hzero hlinks, ?_⟩
      rw [hrest, hptrs, List.append_assoc]
      rfl

theorem Links.stepIfds {chain : List Nat} (h : Links blob offset chain)
    {rounds : Nat} (hrounds : chain.length ≤ rounds)
    (hroom : exifdat.ifds.length + chain.length ≤ 10) :
    (stepIfds blob rounds exifdat offset).isSome := by
  induction h generalizing rounds exifdat with
  | @last offset htags hnext =>
    obtain ⟨rounds, rfl⟩ := Nat.exists_eq_succ_of_ne_zero (Nat.ne_zero_of_lt hrounds)
    obtain ⟨tags, htags⟩ := isSome_iff_exists.mp htags
    obtain ⟨added, hadded⟩ := isSome_iff_exists.mp
      ((addIfd_isSome exifdat ⟨exifData + offset, tags⟩).mpr hroom)
    rw [GPhoto2.stepIfds, htags]
    simp only [bind_eq_bind, bind_some, hadded, hnext]
    rfl
  | @next offset next chain htags hnext hne _ ih =>
    rw [List.length_cons] at hrounds hroom
    obtain ⟨rounds, rfl⟩ := Nat.exists_eq_succ_of_ne_zero (Nat.ne_zero_of_lt hrounds)
    obtain ⟨tags, htags⟩ := isSome_iff_exists.mp htags
    obtain ⟨added, hadded⟩ := isSome_iff_exists.mp
      ((addIfd_isSome exifdat ⟨exifData + offset, tags⟩).mpr (by omega))
    have hlen := congrArg List.length (addIfd_eq_some.mp hadded)
    rw [List.length_append, List.length_singleton] at hlen
    rw [GPhoto2.stepIfds, htags]
    simp only [bind_eq_bind, bind_some, hadded, hnext]
    rw [if_neg hne]
    exact ih (Nat.le_of_succ_le_succ hrounds) (by omega)

/-- The directories are registered if and only if their links end within 10 of them. -/
theorem parseIfds_isSome_iff (offset : Nat) :
    (parseIfds blob offset).isSome ↔ ∃ chain, Links blob offset chain ∧ chain.length ≤ 10 := by
  constructor
  · intro h
    obtain ⟨exifdat, h⟩ := isSome_iff_exists.mp h
    obtain ⟨chain, hlinks, hptrs⟩ := stepIfds_eq_some h
    have hlen := congrArg List.length hptrs
    have hle := exifdat.count_le
    rw [List.length_append, List.length_map, List.length_map, List.length_map] at hlen
    exact ⟨chain, hlinks, by rw [List.length_nil] at hlen; omega⟩
  · rintro ⟨chain, hlinks, hlen⟩
    exact hlinks.stepIfds (by omega) (by rw [List.length_nil]; omega)

theorem Links.unique {chain chain' : List Nat} (h : Links blob offset chain)
    (h' : Links blob offset chain') : chain = chain' := by
  induction h generalizing chain' with
  | last _ hnext =>
    cases h' with
    | last => rfl
    | next _ hnext' hne =>
      cases hnext.symm.trans hnext'
      exact absurd rfl hne
  | next _ hnext hne _ ih =>
    cases h' with
    | last _ hnext' =>
      cases hnext.symm.trans hnext'
      exact absurd rfl hne
    | next _ hnext' _ hrest =>
      cases hnext.symm.trans hnext'
      rw [ih hrest]

theorem parseIfds_eq_some (h : parseIfds blob offset = some exifdat) :
    ∃ chain, Links blob offset chain ∧ exifdat.ifds.length = chain.length ∧
      ∃ tags, exifdat.ifds[0]? = some ⟨exifData + offset, tags⟩ := by
  obtain ⟨chain, hlinks, hptrs⟩ := stepIfds_eq_some h
  rw [List.map_nil, List.nil_append] at hptrs
  have hlen := congrArg List.length hptrs
  rw [List.length_map, List.length_map] at hlen
  refine ⟨chain, hlinks, hlen, ?_⟩
  have hhead : chain.head? = some offset := by cases hlinks <;> rfl
  cases hifds : exifdat.ifds with
  | nil =>
    rw [hifds] at hlen
    rw [List.length_eq_zero_iff.mp hlen.symm] at hhead
    cases hhead
  | cons first rest =>
    obtain ⟨ptr, tags⟩ := first
    cases chain with
    | nil => cases hhead
    | cons offset' chain =>
      cases hhead
      rw [hifds] at hptrs
      have hptr : ptr = exifData + offset := (List.cons.inj hptrs).1
      exact ⟨tags, by rw [hptr]; rfl⟩

/-! ### The tags -/

theorem findTag_eq_some {ifdp : Int} {n tagNumber rounds i k tag : Nat}
    (hrounds : rounds + i = n + 1) (hi : i ≤ n) :
    findTag blob ifdp n tagNumber rounds i = some (k, tag) ↔
      i ≤ k ∧ k ≤ n ∧ entryTag blob ifdp k = some tag ∧ (k = n ∨ tag = tagNumber) ∧
        ∀ j, i ≤ j → j < k → ∃ other, entryTag blob ifdp j = some other ∧ other ≠ tagNumber := by
  induction rounds generalizing i with
  | zero => omega
  | succ rounds ih =>
    rw [findTag]
    constructor
    · intro h
      obtain ⟨first, hfirst, h⟩ := bind_eq_some_iff.mp h
      by_cases hmore : i < n ∧ first ≠ tagNumber
      · rw [if_pos hmore] at h
        obtain ⟨hik, hkn, hentry, hstop, hbefore⟩ := (ih (by omega) (by omega)).mp h
        refine ⟨by omega, hkn, hentry, hstop, fun j hij hjk => ?_⟩
        by_cases hj : j = i
        · rw [hj]
          exact ⟨first, hfirst, hmore.2⟩
        · exact hbefore j (by omega) hjk
      · rw [if_neg hmore] at h
        cases h
        refine ⟨Nat.le_refl _, hi, hfirst, ?_, fun j hij hjk => by omega⟩
        by_contra hnot
        exact hmore ⟨by omega, fun heq => hnot (Or.inr heq)⟩
    · rintro ⟨hik, hkn, hentry, hstop, hbefore⟩
      by_cases hk : k = i
      · subst hk
        refine bind_eq_some_iff.mpr ⟨tag, hentry, if_neg fun hmore => ?_⟩
        exact hstop.elim (fun heq => absurd heq (Nat.ne_of_lt hmore.1)) hmore.2
      · obtain ⟨first, hfirst, hne⟩ := hbefore i (Nat.le_refl i) (by omega)
        refine bind_eq_some_iff.mpr ⟨first, hfirst, ?_⟩
        rw [if_pos ⟨by omega, hne⟩]
        exact (ih (by omega) (by omega)).mpr
          ⟨by omega, hkn, hentry, hstop, fun j hij hjk => hbefore j (by omega) hjk⟩

theorem getField_eq_some {dir : Ifd} {tagNumber ifd : Nat}
    {field : Option ExifTagData} (hdir : exifdat.ifds[ifd]? = some dir) :
    gpiExifGetField blob tagNumber ifd exifdat = some field ↔
      (NoEntry blob tagNumber dir.ptr ∧ field = none) ∨
      ∃ i, FirstEntry blob tagNumber dir.ptr i ∧
        getContents blob tagNumber (dir.ptr + i * 12 + 2) = some field := by
  unfold gpiExifGetField
  rw [hdir]
  simp only [bind_eq_bind, bind_some]
  constructor
  · intro h
    obtain ⟨n, hn, h⟩ := bind_eq_some_iff.mp h
    obtain ⟨⟨k, tag⟩, hfound, h⟩ := bind_eq_some_iff.mp h
    obtain ⟨-, hkn, hentry, hstop, hbefore⟩ :=
      (findTag_eq_some (by omega) (Nat.zero_le n)).mp hfound
    by_cases htag : tag = tagNumber
    · rw [if_neg (not_not_intro htag)] at h
      rw [htag] at hentry h
      exact Or.inr ⟨k, ⟨n, hn, hkn, hentry, fun j hj => hbefore j (Nat.zero_le j) hj⟩, h⟩
    · rw [if_pos htag] at h
      cases h
      obtain rfl : k = n := hstop.resolve_right htag
      refine Or.inl ⟨⟨k, hn, fun j hj => ?_⟩, rfl⟩
      by_cases hlast : j = k
      · rw [hlast]
        exact ⟨tag, hentry, htag⟩
      · exact hbefore j (Nat.zero_le j) (by omega)
  · rintro (⟨⟨n, hn, hall⟩, rfl⟩ | ⟨i, ⟨n, hn, hin, hentry, hbefore⟩, hcontents⟩)
    · obtain ⟨tag, hentry, htag⟩ := hall n (Nat.le_refl n)
      refine bind_eq_some_iff.mpr ⟨n, hn, bind_eq_some_iff.mpr ⟨(n, tag), ?_, ?_⟩⟩
      · exact (findTag_eq_some (by omega) (Nat.zero_le n)).mpr ⟨Nat.zero_le n, Nat.le_refl n,
          hentry, Or.inl rfl, fun j _ hj => hall j (by omega)⟩
      · exact if_pos htag
    · refine bind_eq_some_iff.mpr
        ⟨n, hn, bind_eq_some_iff.mpr ⟨(i, tagNumber), ?_, ?_⟩⟩
      · exact (findTag_eq_some (by omega) (Nat.zero_le n)).mpr ⟨Nat.zero_le i, hin, hentry,
          Or.inr rfl, fun j _ hj => hbefore j hj⟩
      · rw [if_neg (not_not_intro rfl)]
        exact hcontents

theorem getContents_eq_some {tag : Nat} {entry : Int} {field : Option ExifTagData} :
    getContents blob tag entry = some field ↔
      ∃ type tagSize size, EntrySize blob entry type tagSize size ∧
        ((size < 0 ∧ field = none) ∨
          (0 ≤ size ∧ ∃ data, EntryContents blob entry size data ∧
            (setTagData tag type tagSize size data).map some = some field)) := by
  unfold getContents
  constructor
  · intro h
    obtain ⟨type, htype, h⟩ := bind_eq_some_iff.mp h
    obtain ⟨tagSize, htagSize, h⟩ := bind_eq_some_iff.mp h
    obtain ⟨count, hcount, h⟩ := bind_eq_some_iff.mp h
    obtain ⟨contents, hcontents, h⟩ := bind_eq_some_iff.mp h
    refine ⟨type, tagSize, toInt (tagSize * count), ⟨count, htype, htagSize, hcount, rfl⟩, ?_⟩
    by_cases hneg : toInt (tagSize * count) < 0
    · rw [if_pos hneg] at h
      cases h
      exact Or.inl ⟨hneg, rfl⟩
    · rw [if_neg hneg] at h
      obtain ⟨data, hdata, h⟩ := bind_eq_some_iff.mp h
      exact Or.inr ⟨Int.not_lt.mp hneg, data, ⟨contents, hcontents, hdata⟩, h⟩
  · rintro ⟨type, tagSize, size, ⟨count, htype, htagSize, hcount, hsize⟩, hrest⟩
    refine bind_eq_some_iff.mpr ⟨type, htype, bind_eq_some_iff.mpr
      ⟨tagSize, htagSize, bind_eq_some_iff.mpr ⟨count, hcount, ?_⟩⟩⟩
    rw [← hsize]
    rcases hrest with ⟨hneg, rfl⟩ | ⟨hpos, data, ⟨contents, hcontents, hdata⟩, hset⟩
    · refine bind_eq_some_iff.mpr ⟨entry + 8, ?_, if_pos hneg⟩
      exact if_neg (by omega)
    · refine bind_eq_some_iff.mpr ⟨contents, hcontents, ?_⟩
      rw [if_neg (Int.not_lt.mpr hpos)]
      exact bind_eq_some_iff.mpr ⟨data, hdata, hset⟩

theorem setTagData_intval {tag type tagSize : Nat} {size intval : Int} {data : List UInt8} :
    (∃ tagdat, setTagData tag type tagSize size data = some tagdat ∧
      tagdat.intval = some intval) ↔
    type ∉ [exifAscii, exifRational, exifUndefined, exifSrational] ∧
      ∃ n, gpiExifGetLilend data 0 tagSize = some n ∧ intval = toInt n := by
  unfold setTagData
  by_cases htext : type = exifAscii
  · rw [if_pos htext]
    refine iff_of_false ?_ fun h => h.1 (by rw [htext]; decide)
    rintro ⟨tagdat, hset, hintval⟩
    by_cases hzero : 0 ∈ data
    · rw [if_pos hzero] at hset
      cases hset
      cases hintval
    · rw [if_neg hzero] at hset
      cases hset
  rw [if_neg htext]
  by_cases hunset : type = exifRational ∨ type = exifUndefined ∨ type = exifSrational
  · rw [if_pos hunset]
    refine iff_of_false ?_ fun h => h.1 (List.mem_cons_of_mem _ (by simpa using hunset))
    rintro ⟨tagdat, hset, hintval⟩
    cases hset
    cases hintval
  rw [if_neg hunset, and_iff_right (by simpa [htext] using hunset)]
  constructor
  · rintro ⟨tagdat, hset, hintval⟩
    obtain ⟨n, hn, rfl⟩ := map_eq_some_iff.mp hset
    exact ⟨n, hn, (Option.some.inj hintval).symm⟩
  · rintro ⟨n, hn, hintval⟩
    exact ⟨⟨tag, type, size, some (toInt n)⟩, map_eq_some_iff.mpr ⟨n, hn, rfl⟩,
      congrArg some hintval.symm⟩

theorem getContents_intval {tag : Nat} {entry intval : Int} :
    (∃ tagdat, getContents blob tag entry = some (some tagdat) ∧ tagdat.intval = some intval) ↔
      HoldsNumber blob entry intval := by
  constructor
  · rintro ⟨tagdat, hcontents, hintval⟩
    obtain ⟨type, tagSize, size, hentry, ⟨-, hnone⟩ | ⟨hpos, data, hdata, hset⟩⟩ :=
      getContents_eq_some.mp hcontents
    · cases hnone
    · obtain ⟨tagdat', hset, heq⟩ := map_eq_some_iff.mp hset
      cases heq
      obtain ⟨htype, n, hn, hvalue⟩ := setTagData_intval.mp ⟨tagdat, hset, hintval⟩
      exact ⟨type, tagSize, size, data, n, hentry, hpos, hdata, htype, hn, hvalue⟩
  · rintro ⟨type, tagSize, size, data, n, hentry, hpos, hdata, htype, hn, hvalue⟩
    obtain ⟨tagdat, hset, hintval⟩ :=
      (@setTagData_intval tag type tagSize size intval data).mpr ⟨htype, n, hn, hvalue⟩
    refine ⟨tagdat, getContents_eq_some.mpr ⟨type, tagSize, size, hentry,
      Or.inr ⟨hpos, data, hdata, ?_⟩⟩, hintval⟩
    rw [hset]
    rfl

/-! ### The parser -/

theorem bytesAt_isSome {pos n : Nat} (hn : 0 < n) :
    (bytesAt blob pos n).isSome ↔ pos + n ≤ blob.length := by
  unfold bytesAt
  rw [if_neg (Nat.ne_of_gt hn), if_pos (Int.natCast_nonneg pos), Int.toNat_natCast]
  exact slice_isSome

theorem byteAt_eq_iff {data : List UInt8} {b : UInt8}
    (h : bytesAt blob exifData 1 = some data) : data = [b] ↔ blob[12]? = some b := by
  obtain ⟨-, rfl⟩ := slice_eq_some.mp (h : slice blob 12 1 = some data)
  have hpos : exifData.toNat = 12 := rfl
  rw [List.take_one, List.head?_drop, hpos]
  cases blob[12]? <;> simp

theorem directories_iff {α : Type} {rest : Nat → Nat → Prop} {stop : Option α}
    {go : Nat → ExifParser → Option α} (hstop : stop.isSome)
    (hgo : ∀ offset exifdat chain, parseIfds blob offset = some exifdat →
      Links blob offset chain → exifdat.ifds.length = chain.length →
      ((go offset exifdat).isSome ↔ rest offset chain.length)) :
    (do
      let endian ← bytesAt blob exifData 1
      if endian ≠ [0x49] then stop
      else do
        let offset ← gpiExifGetLilend blob (exifData + 4) 4
        let exifdat ← parseIfds blob offset
        go offset exifdat).isSome ↔ DirectoriesInside blob rest := by
  unfold DirectoriesInside
  by_cases hlen : 12 < blob.length
  · obtain ⟨endian, hendian⟩ := isSome_iff_exists.mp ((bytesAt_isSome Nat.one_pos).mpr hlen)
    have hread : bytesAt blob exifData 1 = some endian := hendian
    rw [and_iff_right hlen, hread]
    simp only [bind_eq_bind, bind_some]
    by_cases hintel : blob[12]? = some 0x49
    · rw [if_neg (not_not_intro ((byteAt_eq_iff hread).mpr hintel))]
      simp only [hintel, true_implies]
      constructor
      · intro h
        obtain ⟨out, h⟩ := isSome_iff_exists.mp h
        obtain ⟨offset, hoffset, h⟩ := bind_eq_some_iff.mp h
        obtain ⟨exifdat, hparse, h⟩ := bind_eq_some_iff.mp h
        obtain ⟨chain, hlinks, hcount, -⟩ := parseIfds_eq_some hparse
        refine ⟨offset, chain, hoffset, hlinks, hcount ▸ exifdat.count_le, ?_⟩
        exact (hgo offset exifdat chain hparse hlinks hcount).mp (isSome_of_eq_some h)
      · rintro ⟨offset, chain, hoffset, hlinks, hle, hrest⟩
        obtain ⟨exifdat, hparse⟩ := isSome_iff_exists.mp
          ((parseIfds_isSome_iff offset).mpr ⟨chain, hlinks, hle⟩)
        obtain ⟨chain', hlinks', hcount, -⟩ := parseIfds_eq_some hparse
        rw [hlinks'.unique hlinks] at hcount
        have hread4 : gpiExifGetLilend blob (exifData + 4) 4 = some offset := hoffset
        rw [hread4, bind_some, hparse, bind_some]
        exact (hgo offset exifdat chain hparse hlinks hcount).mpr hrest
    · rw [if_pos fun h => hintel ((byteAt_eq_iff hread).mp h)]
      exact iff_of_true hstop fun h => absurd h hintel
  · refine iff_of_false (fun h => ?_) fun h => hlen h.1
    obtain ⟨out, h⟩ := isSome_iff_exists.mp h
    obtain ⟨endian, hendian, -⟩ := bind_eq_some_iff.mp h
    exact hlen ((bytesAt_isSome Nat.one_pos).mp (isSome_of_eq_some hendian))

theorem exifStat_iff (exifdata : ExifParser) :
    (gpiExifStat blob exifdata).isSome ↔ StatInside blob :=
  directories_iff rfl fun _ _ _ _ _ _ => iff_of_true rfl trivial

theorem subIfd_iff {chain : List Nat} {exiflen : Int}
    (hparse : parseIfds blob offset = some exifdat)
    (hcount : exifdat.ifds.length = chain.length) :
    (do
      let field ← gpiExifGetField blob exifExifOffset 0 exifdat
      let exifdat ← field.elim (some exifdat) (addSubIfd blob exifdat)
      some (exiflen, exifdat)).isSome ↔ SubIfdInside blob offset chain.length := by
  obtain ⟨-, -, -, tags, hdir⟩ := parseIfds_eq_some hparse
  constructor
  · intro h
    obtain ⟨out, h⟩ := isSome_iff_exists.mp h
    obtain ⟨field, hfield, h⟩ := bind_eq_some_iff.mp h
    obtain ⟨added, hadded, -⟩ := bind_eq_some_iff.mp h
    rcases (getField_eq_some hdir).mp hfield with ⟨hno, -⟩ | ⟨i, hfirst, hcontents⟩
    · exact Or.inl hno
    · refine Or.inr ⟨i, hfirst, ?_⟩
      cases field with
      | none =>
        obtain ⟨type, tagSize, size, hentry, ⟨hneg, -⟩ | ⟨-, data, -, hset⟩⟩ :=
          getContents_eq_some.mp hcontents
        · exact Or.inl ⟨type, tagSize, size, hentry, hneg⟩
        · obtain ⟨tagdat, -, hnone⟩ := map_eq_some_iff.mp hset
          cases hnone
      | some tagdat =>
        obtain ⟨intval, hintval, hadded⟩ := bind_eq_some_iff.mp hadded
        obtain ⟨tags', htags', hadded⟩ := bind_eq_some_iff.mp hadded
        refine Or.inr ⟨intval, getContents_intval.mp ⟨tagdat, hcontents, hintval⟩, ?_,
          isSome_of_eq_some htags'⟩
        rw [← hcount]
        exact (addIfd_isSome exifdat _).mp (isSome_of_eq_some hadded)
  · rintro (hno | ⟨i, hfirst, hentry⟩)
    · rw [(getField_eq_some hdir).mpr (Or.inl ⟨hno, rfl⟩)]
      rfl
    · rcases hentry with ⟨type, tagSize, size, hentry, hneg⟩ | ⟨intval, hnumber, hroom, htags⟩
      · rw [(getField_eq_some hdir).mpr (Or.inr ⟨i, hfirst, getContents_eq_some.mpr
          ⟨type, tagSize, size, hentry, Or.inl ⟨hneg, rfl⟩⟩⟩)]
        rfl
      · obtain ⟨tagdat, hcontents, hintval⟩ :=
          (@getContents_intval blob exifExifOffset _ _).mpr hnumber
        obtain ⟨tags', htags'⟩ := isSome_iff_exists.mp htags
        rw [← hcount] at hroom
        obtain ⟨added, hadded⟩ := isSome_iff_exists.mp
          ((addIfd_isSome exifdat ⟨exifData + intval, tags'⟩).mpr hroom)
        rw [(getField_eq_some hdir).mpr (Or.inr ⟨i, hfirst, hcontents⟩)]
        have hsub : addSubIfd blob exifdat tagdat = some added :=
          bind_eq_some_iff.mpr ⟨intval, hintval,
            bind_eq_some_iff.mpr ⟨tags', htags', hadded⟩⟩
        simp only [bind_eq_bind, bind_some, Option.elim_some, hsub]
        rfl

theorem bytesAt_eq {pos n : Nat} (hn : 0 < n) (h : pos + n ≤ blob.length) :
    bytesAt blob pos n = some ((blob.drop pos).take n) := by
  unfold bytesAt
  rw [if_neg (Nat.ne_of_gt hn), if_pos (Int.natCast_nonneg pos), Int.toNat_natCast]
  exact slice_eq_some.mpr ⟨h, rfl⟩

theorem exifParse_iff (exifdat : ExifParser) :
    (exifParseData blob exifdat).isSome ↔ ParseInside blob := by
  unfold exifParseData ParseInside
  by_cases hlen : 10 ≤ blob.length
  · have hexif : bytesAt blob 6 4 = some ((blob.drop 6).take 4) :=
      @bytesAt_eq blob 6 4 (by decide) hlen
    have hmarker : bytesAt blob 0 4 = some (blob.take 4) :=
      @bytesAt_eq blob 0 4 (by decide) (by omega)
    have hlength : bytesAt blob 4 2 = some ((blob.drop 4).take 2) :=
      @bytesAt_eq blob 4 2 (by decide) (by omega)
    rw [and_iff_right hlen, hexif, hmarker]
    simp only [bind_eq_bind, bind_some]
    by_cases hheader : (blob.drop 6).take 4 = [0x45, 0x78, 0x69, 0x66] ∧
        blob.take 4 = [0xff, 0xd8, 0xff, 0xe1]
    · rw [if_neg (by rw [hheader.1, hheader.2]; decide), hlength, bind_some]
      rw [imp_iff_right hheader]
      exact directories_iff rfl fun offset exifdat chain hparse _ hcount =>
        subIfd_iff hparse hcount
    · rw [if_pos (Decidable.not_and_iff_not_or_not.mp hheader)]
      exact iff_of_true rfl fun h => absurd h hheader
  · refine iff_of_false (fun h => ?_) fun h => hlen h.1
    obtain ⟨out, h⟩ := isSome_iff_exists.mp h
    obtain ⟨exif, hexif, -⟩ := bind_eq_some_iff.mp h
    exact hlen ((@bytesAt_isSome blob 6 4 (by decide)).mp (isSome_of_eq_some hexif))

/-- A function has an outcome: then the array has no more directories than it has room for. -/
theorem outcome_iff {α : Type} {out : Option (α × ExifParser)} :
    (∃ ret parser, out = some (ret, parser) ∧ parser.ifds.length ≤ 10) ↔ out.isSome := by
  rw [isSome_iff_exists]
  constructor
  · rintro ⟨ret, parser, hout, -⟩
    exact ⟨(ret, parser), hout⟩
  · rintro ⟨⟨ret, parser⟩, hout⟩
    exact ⟨ret, parser, hout, parser.count_le⟩

/-- Both functions end, register no more than 10 directories and read nothing outside the blob
if and only if the links end in time and all that they lead to is inside. -/
theorem exif_parse_iff (blob : List UInt8) (exifdat : ExifParser) :
    ((∃ ret parser, gpiExifStat blob exifdat = some (ret, parser) ∧ parser.ifds.length ≤ 10) ↔
      StatInside blob) ∧
    ((∃ ret parser, exifParseData blob exifdat = some (ret, parser) ∧
      parser.ifds.length ≤ 10) ↔ ParseInside blob) := by
  rw [outcome_iff, outcome_iff]
  exact ⟨exifStat_iff exifdat, exifParse_iff exifdat⟩

/-- A directory that is linked to itself. -/
theorem exif_link_cycle :
    ¬∀ (blob : List UInt8) (exifdat : ExifParser),
      (∃ ret parser, gpiExifStat blob exifdat = some (ret, parser) ∧ parser.ifds.length ≤ 10) ∧
      ∃ ret parser, exifParseData blob exifdat = some (ret, parser) ∧
        parser.ifds.length ≤ 10 := by
  intro h
  obtain ⟨⟨ret, parser, hstat, -⟩, -⟩ := h [0xff, 0xd8, 0xff, 0xe1, 0, 24, 0x45, 0x78, 0x69, 0x66,
    0, 0, 0x49, 0x49, 0x2a, 0, 8, 0, 0, 0, 0, 0, 8, 0, 0, 0] ⟨[], Nat.zero_le _⟩
  have hnone : gpiExifStat [0xff, 0xd8, 0xff, 0xe1, 0, 24, 0x45, 0x78, 0x69, 0x66,
    0, 0, 0x49, 0x49, 0x2a, 0, 8, 0, 0, 0, 0, 0, 8, 0, 0, 0] ⟨[], Nat.zero_le _⟩ = none := by decide
  cases hnone.symm.trans hstat

end

end GPhoto2
