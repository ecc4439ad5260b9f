import GPhoto2.Proofs.Image.Exif

/-!
# `GPhoto2.Proofs.Image.ExifFields`: which fields are found

The loop of `gpi_exif_get_field` looks at one entry more than an IFD has, unless it finds the tag
before. So a tag is looked for as it should be only where it is found at once.

* `mem_entriesRead`: the entries the loop looks at.
* `getField_own_iff`: what a search of one IFD has to find in order to stay in its entries.
* `findsField_iff`: so for every number of an IFD. For -1 it goes on to the next IFD only where
  the field it found is too large for the memory.
-/

set_option autoImplicit false

namespace GPhoto2

open Lib
open Option (bind_eq_some_iff elim_some map_eq_some_iff)

/-! ### What has to be found -/

section
variable (blob : List UInt8)

/-- One of the entries of an IFD has the tag. -/
def CarriesTag (tagNumber : Nat) (ifdp : Int) : Prop :=
  ∃ n, gpiExifGetLilend blob ifdp 2 = some n ∧ ∃ i < n, entryTag blob ifdp i = some tagNumber

/-- The IFD with the number has the tag, or for -1 any of them. -/
def Carried (exifdata : ExifParser) (tagNumber : Nat) (ifd : Int) : Prop :=
  ∃ k dir, exifdata.ifds[k]? = some dir ∧ (ifd = -1 ∨ ifd = (k : Nat)) ∧
    CarriesTag blob tagNumber dir.ptr

/-- The entry is one that its IFD has. -/
def OwnEntry (exifdata : ExifParser) (r : Nat × Nat) : Prop :=
  ∃ dir n, exifdata.ifds[r.1]? = some dir ∧ gpiExifGetLilend blob dir.ptr 2 = some n ∧ r.2 < n

/-- The field is found if and only if it is there, and nothing but entries is looked at. -/
def FindsField (exifdata : ExifParser) (tagNumber : Nat) (ifd : Int) : Prop :=
  ∃ field, gpiExifGetFieldAny blob tagNumber ifd exifdata = some field ∧
    (field.isSome ↔ Carried blob exifdata tagNumber ifd) ∧
    ∀ r ∈ fieldReads blob tagNumber ifd exifdata, OwnEntry blob exifdata r

/-! ### Where that is so -/

/-- The first entry with the tag, among the entries of the IFD. -/
def OwnFirst (tagNumber : Nat) (ifdp : Int) (i : Nat) : Prop :=
  ∃ n, gpiExifGetLilend blob ifdp 2 = some n ∧ i < n ∧
    entryTag blob ifdp i = some tagNumber ∧
    ∀ j < i, ∃ tag, entryTag blob ifdp j = some tag ∧ tag ≠ tagNumber

/-- The contents of an entry can be copied. A text has its terminator, and a number all of its
bytes. -/
def Copyable (entry : Int) : Prop :=
  ∃ type tagSize size data, EntrySize blob entry type tagSize size ∧ 0 ≤ size ∧
    EntryContents blob entry size data ∧ (type = exifAscii → 0 ∈ data) ∧
    (type ∉ [exifAscii, exifRational, exifUndefined, exifSrational] → tagSize ≤ data.length)

/-- The contents of an entry are too large for the memory. -/
def TooLarge (entry : Int) : Prop :=
  ∃ type tagSize size, EntrySize blob entry type tagSize size ∧ size < 0

/-- An IFD has the tag, and the contents of its first entry with it are such. -/
def FirstIs (contents : Int → Prop) (exifdata : ExifParser) (tagNumber ifd : Nat) : Prop :=
  ∃ dir i, exifdata.ifds[ifd]? = some dir ∧ OwnFirst blob tagNumber dir.ptr i ∧
    contents (dir.ptr + i * 12 + 2)

/-- The IFD that is asked for has the tag, and its contents can be copied. For -1 that is the
first IFD, or the one behind some with the tag whose contents are too large for the memory. -/
def CarriedFirst (exifdata : ExifParser) (tagNumber : Nat) (ifd : Int) : Prop :=
  ∃ k, FirstIs blob (Copyable blob) exifdata tagNumber k ∧
    (ifd = (k : Nat) ∨
      ifd = -1 ∧ ∀ j < k, FirstIs blob (TooLarge blob) exifdata tagNumber j)

end

/-! ### One IFD -/

section
variable {blob : List UInt8} {exifdata : ExifParser} {tagNumber : Nat}

theorem mem_entriesRead {ifdp : Int} {n rounds i k : Nat} (hrounds : rounds + i = n + 1)
    (hi : i ≤ n) :
    k ∈ entriesRead blob ifdp n tagNumber rounds i ↔
      i ≤ k ∧ k ≤ n ∧ ∀ j, i ≤ j → j < k →
        ∃ other, entryTag blob ifdp j = some other ∧ other ≠ tagNumber := by
  induction rounds generalizing i with
  | zero => omega
  | succ rounds ih =>
    rw [entriesRead, List.mem_cons]
    show k = i ∨ k ∈ (entryTag blob ifdp i).elim [] _ ↔ _
    by_cases hk : k = i
    · subst hk
      refine iff_of_true (Or.inl rfl) ⟨Nat.le_refl k, hi, ?_⟩
      intro j hkj hjk
      omega
    · constructor
      · intro h
        have h := h.resolve_left hk
        cases htag : entryTag blob ifdp i with
        | none =>
          rw [htag] at h
          exact absurd h List.not_mem_nil
        | some tag =>
          rw [htag, elim_some] at h
          by_cases hmore : i < n ∧ tag ≠ tagNumber
          · rw [if_pos hmore] at h
            obtain ⟨hik, hkn, hbefore⟩ := (ih (by omega) (by omega)).mp h
            refine ⟨by omega, hkn, ?_⟩
            intro j hij hjk
            by_cases hj : j = i
            · rw [hj]
              exact ⟨tag, htag, hmore.2⟩
            · exact hbefore j (by omega) hjk
          · rw [if_neg hmore] at h
            exact absurd h List.not_mem_nil
      · intro h
        obtain ⟨hik, hkn, hbefore⟩ := h
        obtain ⟨tag, htag, hne⟩ := hbefore i (Nat.le_refl i) (by omega)
        right
        rw [htag, elim_some, if_pos ⟨by omega, hne⟩]
        exact (ih (by omega) (by omega)).mpr
          ⟨by omega, hkn, fun j hij hjk => hbefore j (by omega) hjk⟩

theorem mem_ifdReads {dir : Ifd} {n ifd : Nat} {r : Nat × Nat}
    (hdir : exifdata.ifds[ifd]? = some dir)
    (hn : gpiExifGetLilend blob dir.ptr 2 = some n) :
    r ∈ ifdReads blob tagNumber exifdata ifd ↔ r.1 = ifd ∧ r.2 ≤ n ∧
      ∀ j < r.2, ∃ other, entryTag blob dir.ptr j = some other ∧ other ≠ tagNumber := by
  unfold ifdReads
  rw [hdir, elim_some, hn, elim_some, List.mem_map]
  constructor
  · intro h
    obtain ⟨k, hk, rfl⟩ := h
    obtain ⟨-, hkn, hbefore⟩ := (mem_entriesRead (by omega) (Nat.zero_le n)).mp hk
    exact ⟨rfl, hkn, fun j hj => hbefore j (Nat.zero_le j) hj⟩
  · intro h
    obtain ⟨rfl, hkn, hbefore⟩ := h
    exact ⟨r.2, (mem_entriesRead (by omega) (Nat.zero_le n)).mpr
      ⟨Nat.zero_le _, hkn, fun j _ hj => hbefore j hj⟩, rfl⟩

theorem setTagData_isSome {tag type tagSize : Nat} {size : Int} {data : List UInt8} :
    (∃ tagdat, setTagData tag type tagSize size data = some tagdat) ↔
      (type = exifAscii → 0 ∈ data) ∧
      (type ∉ [exifAscii, exifRational, exifUndefined, exifSrational] →
        tagSize ≤ data.length) := by
  unfold setTagData
  by_cases htext : type = exifAscii
  · rw [if_pos htext]
    by_cases hzero : 0 ∈ data
    · rw [if_pos hzero]
      refine iff_of_true ⟨_, rfl⟩ ⟨fun _ => hzero, fun hnot => ?_⟩
      exact absurd (by rw [htext]; exact List.mem_cons_self) hnot
    · rw [if_neg hzero]
      refine iff_of_false ?_ fun h => hzero (h.1 htext)
      intro h
      obtain ⟨tagdat, h⟩ := h
      cases h
  rw [if_neg htext]
  by_cases hunset : type = exifRational ∨ type = exifUndefined ∨ type = exifSrational
  · rw [if_pos hunset]
    refine iff_of_true ⟨_, rfl⟩ ⟨fun h => absurd h htext, fun hnot => ?_⟩
    exact absurd (List.mem_cons_of_mem _ (by simpa using hunset)) hnot
  · rw [if_neg hunset]
    have hread : (gpiExifGetLilend data 0 tagSize).isSome ↔ tagSize ≤ data.length := by
      unfold gpiExifGetLilend bytesAt
      rw [Option.isSome_map]
      by_cases hzero : tagSize = 0
      · rw [if_pos hzero]
        exact iff_of_true rfl (by omega)
      · rw [if_neg hzero, if_pos (Int.le_refl 0), slice_isSome]
        omega
    rw [← hread, Option.isSome_iff_exists]
    constructor
    · intro h
      obtain ⟨tagdat, h⟩ := h
      obtain ⟨n, hn, -⟩ := map_eq_some_iff.mp h
      exact ⟨fun h => absurd h htext, fun _ => ⟨n, hn⟩⟩
    · intro h
      obtain ⟨n, hn⟩ := h.2 (by simpa [htext] using hunset)
      exact ⟨_, map_eq_some_iff.mpr ⟨n, hn, rfl⟩⟩

theorem getContents_found {entry : Int} :
    (∃ tagdat, getContents blob tagNumber entry = some (some tagdat)) ↔ Copyable blob entry := by
  constructor
  · intro h
    obtain ⟨tagdat, h⟩ := h
    obtain ⟨type, tagSize, size, hentry, ⟨-, hnone⟩ | ⟨hpos, data, hdata, hset⟩⟩ :=
      getContents_eq_some.mp h
    · cases hnone
    · obtain ⟨tagdat', hset, -⟩ := map_eq_some_iff.mp hset
      obtain ⟨htext, hnumber⟩ := setTagData_isSome.mp ⟨tagdat', hset⟩
      exact ⟨type, tagSize, size, data, hentry, hpos, hdata, htext, hnumber⟩
  · intro h
    obtain ⟨type, tagSize, size, data, hentry, hpos, hdata, htext, hnumber⟩ := h
    obtain ⟨tagdat, hset⟩ :=
      (@setTagData_isSome tagNumber type tagSize size data).mpr ⟨htext, hnumber⟩
    refine ⟨tagdat, getContents_eq_some.mpr
      ⟨type, tagSize, size, hentry, Or.inr ⟨hpos, data, hdata, ?_⟩⟩⟩
    rw [hset]
    rfl

theorem getContents_none {entry : Int} :
    getContents blob tagNumber entry = some none ↔ TooLarge blob entry := by
  constructor
  · intro h
    obtain ⟨type, tagSize, size, hentry, ⟨hneg, -⟩ | ⟨-, data, -, hset⟩⟩ :=
      getContents_eq_some.mp h
    · exact ⟨type, tagSize, size, hentry, hneg⟩
    · obtain ⟨tagdat, -, heq⟩ := map_eq_some_iff.mp hset
      cases heq
  · intro h
    obtain ⟨type, tagSize, size, hentry, hneg⟩ := h
    exact getContents_eq_some.mpr ⟨type, tagSize, size, hentry, Or.inl ⟨hneg, rfl⟩⟩

/-- A search of one IFD stays in its entries if it finds the tag in one of them. -/
theorem getField_own_iff {ifd : Nat} {field : Option ExifTagData} :
    (gpiExifGetField blob tagNumber ifd exifdata = some field ∧
      ∀ r ∈ ifdReads blob tagNumber exifdata ifd, OwnEntry blob exifdata r) ↔
    ∃ dir i, exifdata.ifds[ifd]? = some dir ∧ OwnFirst blob tagNumber dir.ptr i ∧
      getContents blob tagNumber (dir.ptr + i * 12 + 2) = some field := by
  constructor
  · intro h
    obtain ⟨hfield, hown⟩ := h
    obtain ⟨dir, hdir, -⟩ := bind_eq_some_iff.mp hfield
    -- The bytes behind the entries are not one of them.
    have hbehind : ∀ n, gpiExifGetLilend blob dir.ptr 2 = some n →
        (∀ j < n, ∃ tag, entryTag blob dir.ptr j = some tag ∧ tag ≠ tagNumber) → False := by
      intro n hn hall
      obtain ⟨dir', n', hdir', hn', hlt⟩ :=
        hown (ifd, n) ((mem_ifdReads hdir hn).mpr ⟨rfl, Nat.le_refl n, hall⟩)
      cases hdir.symm.trans hdir'
      cases hn.symm.trans hn'
      exact Nat.lt_irrefl n hlt
    rcases (getField_eq_some hdir).mp hfield with
      ⟨⟨n, hn, hall⟩, -⟩ | ⟨i, ⟨n, hn, hin, hentry, hbefore⟩, hcontents⟩
    · exact (hbehind n hn fun j hj => hall j (Nat.le_of_lt hj)).elim
    · by_cases hlast : i = n
      · subst hlast
        exact (hbehind i hn hbefore).elim
      · exact ⟨dir, i, hdir, ⟨n, hn, by omega, hentry, hbefore⟩, hcontents⟩
  · intro h
    obtain ⟨dir, i, hdir, ⟨n, hn, hin, hentry, hbefore⟩, hcontents⟩ := h
    refine ⟨(getField_eq_some hdir).mpr
      (Or.inr ⟨i, ⟨n, hn, Nat.le_of_lt hin, hentry, hbefore⟩, hcontents⟩), ?_⟩
    intro r hr
    obtain ⟨hifd, -, hall⟩ := (mem_ifdReads hdir hn).mp hr
    refine ⟨dir, n, by rw [hifd]; exact hdir, hn, ?_⟩
    -- The loop does not go on from the entry with the tag.
    by_contra hge
    obtain ⟨other, hother, hne⟩ := hall i (by omega)
    cases hentry.symm.trans hother
    exact hne rfl

theorem getField_found_iff {ifd : Nat} :
    ((∃ tagdat, gpiExifGetField blob tagNumber ifd exifdata = some (some tagdat)) ∧
      ∀ r ∈ ifdReads blob tagNumber exifdata ifd, OwnEntry blob exifdata r) ↔
    FirstIs blob (Copyable blob) exifdata tagNumber ifd := by
  constructor
  · intro h
    obtain ⟨⟨tagdat, hfield⟩, hown⟩ := h
    obtain ⟨dir, i, hdir, hfirst, hcontents⟩ := getField_own_iff.mp ⟨hfield, hown⟩
    exact ⟨dir, i, hdir, hfirst, getContents_found.mp ⟨tagdat, hcontents⟩⟩
  · intro h
    obtain ⟨dir, i, hdir, hfirst, hcopyable⟩ := h
    obtain ⟨tagdat, hcontents⟩ := (@getContents_found blob tagNumber _).mpr hcopyable
    obtain ⟨hfield, hown⟩ := getField_own_iff.mpr ⟨dir, i, hdir, hfirst, hcontents⟩
    exact ⟨⟨tagdat, hfield⟩, hown⟩

theorem getField_passed_iff {ifd : Nat} :
    (gpiExifGetField blob tagNumber ifd exifdata = some none ∧
      ∀ r ∈ ifdReads blob tagNumber exifdata ifd, OwnEntry blob exifdata r) ↔
    FirstIs blob (TooLarge blob) exifdata tagNumber ifd := by
  rw [getField_own_iff]
  constructor
  · intro h
    obtain ⟨dir, i, hdir, hfirst, hcontents⟩ := h
    exact ⟨dir, i, hdir, hfirst, getContents_none.mp hcontents⟩
  · intro h
    obtain ⟨dir, i, hdir, hfirst, hlarge⟩ := h
    exact ⟨dir, i, hdir, hfirst, getContents_none.mpr hlarge⟩

/-! ### All IFDs -/

/-- The search ends without a field only if each IFD does, and there is none behind the last. -/
theorem searchIfds_none {rounds ifd : Nat}
    (h : searchIfds blob tagNumber exifdata rounds ifd = some none) :
    ∀ k < rounds, ifd + k < exifdata.ifds.length := by
  induction rounds generalizing ifd with
  | zero =>
    intro k hk
    omega
  | succ rounds ih =>
    obtain ⟨field, hfield, h⟩ := bind_eq_some_iff.mp h
    obtain ⟨dir, hdir, -⟩ := bind_eq_some_iff.mp hfield
    have hlt := (List.getElem?_eq_some_iff.mp hdir).1
    cases field with
    | some tagdat => cases h
    | none =>
      intro k hk
      cases k with
      | zero => exact hlt
      | succ k =>
        have hrest := ih h k (by omega)
        omega

/-- A search of the IFDs from one on finds a field and stays in their entries if it finds the
tag in one of them, and in those before it contents that are too large. -/
theorem searchIfds_own_iff (rounds ifd : Nat) :
    ((∃ tagdat, searchIfds blob tagNumber exifdata rounds ifd = some (some tagdat)) ∧
      ∀ r ∈ searchReads blob tagNumber exifdata rounds ifd, OwnEntry blob exifdata r) ↔
    ∃ k < rounds, FirstIs blob (Copyable blob) exifdata tagNumber (ifd + k) ∧
      ∀ j < k, FirstIs blob (TooLarge blob) exifdata tagNumber (ifd + j) := by
  induction rounds generalizing ifd with
  | zero =>
    refine iff_of_false ?_ ?_
    · intro h
      obtain ⟨⟨tagdat, h⟩, -⟩ := h
      cases h
    · intro h
      obtain ⟨k, hk, -⟩ := h
      omega
  | succ rounds ih =>
    constructor
    · intro h
      obtain ⟨⟨tagdat, hsearch⟩, hown⟩ := h
      rw [searchReads] at hown
      have hfirst : ∀ r ∈ ifdReads blob tagNumber exifdata ifd, OwnEntry blob exifdata r :=
        fun r hr => hown r (List.mem_append_left _ hr)
      obtain ⟨field, hfield, hsearch⟩ := bind_eq_some_iff.mp hsearch
      cases field with
      | some found =>
        refine ⟨0, Nat.succ_pos rounds, getField_found_iff.mp ⟨⟨found, hfield⟩, hfirst⟩, ?_⟩
        intro j hj
        omega
      | none =>
        rw [if_pos hfield] at hown
        obtain ⟨k, hk, hcopyable, hlarge⟩ := (ih (ifd + 1)).mp
          ⟨⟨tagdat, hsearch⟩, fun r hr => hown r (List.mem_append_right _ hr)⟩
        refine ⟨k + 1, by omega, by rwa [Nat.add_right_comm] at hcopyable, ?_⟩
        intro j hj
        cases j with
        | zero => exact getField_passed_iff.mp ⟨hfield, hfirst⟩
        | succ j =>
          have hlarge := hlarge j (by omega)
          rwa [Nat.add_right_comm] at hlarge
    · intro h
      obtain ⟨k, hk, hcopyable, hlarge⟩ := h
      rw [searchReads]
      cases k with
      | zero =>
        obtain ⟨⟨tagdat, hfield⟩, hown⟩ := getField_found_iff.mpr hcopyable
        have hfield : gpiExifGetField blob tagNumber ifd exifdata = some (some tagdat) := hfield
        refine ⟨⟨tagdat, bind_eq_some_iff.mpr ⟨some tagdat, hfield, rfl⟩⟩, ?_⟩
        rw [hfield, if_neg (by simp), List.append_nil]
        exact hown
      | succ k =>
        obtain ⟨hfield, hown⟩ := getField_passed_iff.mpr (hlarge 0 (Nat.succ_pos k))
        have hfield : gpiExifGetField blob tagNumber ifd exifdata = some none := hfield
        obtain ⟨⟨tagdat, hsearch⟩, hrest⟩ := (ih (ifd + 1)).mpr ⟨k, by omega,
          by rw [Nat.add_right_comm]; exact hcopyable, fun j hj => by
            rw [Nat.add_right_comm]
            exact hlarge (j + 1) (by omega)⟩
        refine ⟨⟨tagdat, bind_eq_some_iff.mpr ⟨none, hfield, hsearch⟩⟩, ?_⟩
        rw [if_pos hfield]
        intro r hr
        exact (List.mem_append.mp hr).elim (hown r) (hrest r)

theorem FirstIs.carried {contents : Int → Prop} {k : Nat} {ifd : Int}
    (h : FirstIs blob contents exifdata tagNumber k) (hifd : ifd = -1 ∨ ifd = (k : Nat)) :
    Carried blob exifdata tagNumber ifd := by
  obtain ⟨dir, i, hdir, ⟨n, hn, hin, hentry, -⟩, -⟩ := h
  exact ⟨k, dir, hdir, hifd, n, hn, i, hin, hentry⟩

theorem findsField_all :
    FindsField blob exifdata tagNumber (-1) ↔ CarriedFirst blob exifdata tagNumber (-1) := by
  unfold FindsField gpiExifGetFieldAny fieldReads CarriedFirst
  rw [if_pos rfl, if_pos rfl]
  constructor
  · intro h
    obtain ⟨field, hsearch, -, hown⟩ := h
    cases field with
    | none =>
      have hlt := searchIfds_none hsearch exifdata.ifds.length (Nat.lt_succ_self _)
      omega
    | some tagdat =>
      obtain ⟨k, -, hcopyable, hlarge⟩ := (searchIfds_own_iff _ 0).mp ⟨⟨tagdat, hsearch⟩, hown⟩
      rw [Nat.zero_add] at hcopyable
      refine ⟨k, hcopyable, Or.inr ⟨rfl, ?_⟩⟩
      intro j hj
      have hlarge := hlarge j hj
      rwa [Nat.zero_add] at hlarge
  · intro h
    obtain ⟨k, hcopyable, hifd | ⟨-, hlarge⟩⟩ := h
    · omega
    · have hcarried := hcopyable.carried (Or.inl rfl)
      obtain ⟨dir, -, hdir, -⟩ := id hcopyable
      have hlt := (List.getElem?_eq_some_iff.mp hdir).1
      obtain ⟨⟨tagdat, hsearch⟩, hown⟩ :=
        (@searchIfds_own_iff blob exifdata tagNumber (exifdata.ifds.length + 1) 0).mpr
          ⟨k, by omega, by rwa [Nat.zero_add], fun j hj => by
            rw [Nat.zero_add]
            exact hlarge j hj⟩
      exact ⟨some tagdat, hsearch, iff_of_true rfl hcarried, hown⟩

theorem findsField_one (k : Nat) :
    FindsField blob exifdata tagNumber (k : Nat) ↔
      CarriedFirst blob exifdata tagNumber (k : Nat) := by
  unfold FindsField gpiExifGetFieldAny fieldReads CarriedFirst
  have hall : ((k : Nat) : Int) ≠ -1 := by omega
  rw [if_neg hall, if_neg hall, if_pos (Int.natCast_nonneg k), if_pos (Int.natCast_nonneg k),
    Int.toNat_natCast]
  constructor
  · intro h
    obtain ⟨field, hfield, hiff, hown⟩ := h
    cases field with
    | none =>
      -- The tag is there, and nothing is found.
      have hcarried := (getField_passed_iff.mp ⟨hfield, hown⟩).carried (Or.inr rfl)
      cases hiff.mpr hcarried
    | some tagdat => exact ⟨k, getField_found_iff.mp ⟨⟨tagdat, hfield⟩, hown⟩, Or.inl rfl⟩
  · intro h
    obtain ⟨k', hcopyable, hifd | ⟨hifd, -⟩⟩ := h
    · obtain rfl : k = k' := Int.ofNat.inj hifd
      obtain ⟨⟨tagdat, hfield⟩, hown⟩ := getField_found_iff.mpr hcopyable
      exact ⟨some tagdat, hfield, iff_of_true rfl (hcopyable.carried (Or.inr rfl)), hown⟩
    · exact absurd hifd hall

/-- A field is found if and only if it is there, and nothing but entries is looked at, exactly
where the IFD that is asked for, or for -1 the first one, has the tag and its contents can be
copied. -/
theorem findsField_iff (blob : List UInt8) (exifdata : ExifParser) (tagNumber : Nat)
    (ifd : Int) :
    FindsField blob exifdata tagNumber ifd ↔ CarriedFirst blob exifdata tagNumber ifd := by
  by_cases hall : ifd = -1
  · rw [hall]
    exact findsField_all
  by_cases hnat : 0 ≤ ifd
  · have hifd := Int.toNat_of_nonneg hnat
    have h := @findsField_one blob exifdata tagNumber ifd.toNat
    rwa [hifd] at h
  · refine iff_of_false ?_ ?_
    · intro h
      obtain ⟨field, hfield, -⟩ := h
      unfold gpiExifGetFieldAny at hfield
      rw [if_neg hall, if_neg hnat] at hfield
      cases hfield
    · intro h
      obtain ⟨k, -, hifd | ⟨hifd, -⟩⟩ := h
      · omega
      · exact hall hifd

/-- Two IFDs without entries: the link from the first to the second is taken for an entry. -/
theorem link_found_as_field :
    ¬∀ (blob : List UInt8) (exifdat exifdata : ExifParser) (ret : Int) (tagNumber : Nat)
      (ifd : Int), exifParseData blob exifdat = some (ret, exifdata) → 0 ≤ ret →
        (ifd = -1 ∨ 0 ≤ ifd ∧ ifd < exifdata.ifds.length) →
        FindsField blob exifdata tagNumber ifd := by
  intro h
  have hfinds := h [0xff, 0xd8, 0xff, 0xe1, 0, 28, 0x45, 0x78, 0x69, 0x66, 0, 0,
    0x49, 0x49, 0x2a, 0, 8, 0, 0, 0, 0, 0, 14, 0, 0, 0, 0, 0, 0, 0, 0, 0]
    ⟨[], Nat.zero_le _⟩ ⟨[⟨20, 0⟩, ⟨26, 0⟩], by decide⟩ 20 14 0 (by decide) (by decide)
    (Or.inr (by decide))
  obtain ⟨field, hfield, hiff, -⟩ := hfinds
  have hfound : gpiExifGetFieldAny [0xff, 0xd8, 0xff, 0xe1, 0, 28, 0x45, 0x78, 0x69, 0x66, 0, 0,
    0x49, 0x49, 0x2a, 0, 8, 0, 0, 0, 0, 0, 14, 0, 0, 0, 0, 0, 0, 0, 0, 0] 14 0
    ⟨[⟨20, 0⟩, ⟨26, 0⟩], by decide⟩ = some (some ⟨14, 0, 0, some 0⟩) := by decide
  cases hfield.symm.trans hfound
  obtain ⟨k, dir, hdir, hifd | hifd, n, hn, i, hi, -⟩ := hiff.mp rfl
  · cases hifd
  · obtain rfl : 0 = k := Int.ofNat.inj hifd
    cases hdir
    have hzero : gpiExifGetLilend [0xff, 0xd8, 0xff, 0xe1, 0, 28, 0x45, 0x78, 0x69, 0x66, 0, 0,
      0x49, 0x49, 0x2a, 0, 8, 0, 0, 0, 0, 0, 14, 0, 0, 0, 0, 0, 0, 0, 0, 0] 20 2 = some 0 := by
      decide
    cases hn.symm.trans hzero
    omega

/-! ### Numbers -/

/-- An entry of an IFD, the first with its tag, that has one component of an integer type. Its
value is a number of the size of that type, which is at most four bytes and so in the entry. -/
structure IntegerEntry (blob : List UInt8) (tagNumber : Nat) (ifdp : Int) (i type v : Nat) :
    Prop where
  first : OwnFirst blob tagNumber ifdp i
  hasType : gpiExifGetLilend blob (ifdp + i * 12 + 2 + 2) 2 = some type
  integer : type ∈ [exifByte, exifShort, exifLong]
  one : gpiExifGetLilend blob (ifdp + i * 12 + 2 + 4) 4 = some 1
  value : gpiExifGetLilend blob (ifdp + i * 12 + 2 + 8) (exifSizetab.getD type 0) = some v

/-- Both functions give the same number for a tag of an IFD. -/
def DecodesAlike (blob : List UInt8) (exifdata : ExifParser) (tagNumber ifd : Nat)
    (ifdp : Int) : Prop :=
  ∃ value field, gpiGetintval blob ifdp tagNumber = some value ∧
    gpiExifGetField blob tagNumber ifd exifdata = some (some field) ∧ field.intval = some value

theorem ofBytes_take (bs : List UInt8) (k : Nat) :
    ofBytes (bs.take k) = ofBytes bs % 256 ^ k := by
  induction k generalizing bs with
  | zero => simp [ofBytes, Nat.mod_one]
  | succ k ih =>
    cases bs with
    | nil => simp [ofBytes]
    | cons b bs =>
      have hb := b.toNat_lt
      have hsplit : (b.toNat + 256 * ofBytes bs) % (256 * 256 ^ k) =
          (b.toNat + 256 * ofBytes bs) % 256 +
            256 * ((b.toNat + 256 * ofBytes bs) / 256 % 256 ^ k) := Nat.mod_mul
      have hlow : (b.toNat + 256 * ofBytes bs) % 256 = b.toNat := by omega
      have hhigh : (b.toNat + 256 * ofBytes bs) / 256 = ofBytes bs := by omega
      rw [List.take_succ_cons, ofBytes, ofBytes, ih, Nat.pow_succ', hsplit, hlow, hhigh]

theorem bytesAt_length {pos : Int} {n : Nat} {bytes : List UInt8}
    (h : bytesAt blob pos n = some bytes) : bytes.length = n := by
  unfold bytesAt at h
  by_cases hzero : n = 0
  · rw [if_pos hzero] at h
    cases h
    exact hzero.symm
  · rw [if_neg hzero] at h
    by_cases hpos : 0 ≤ pos
    · rw [if_pos hpos] at h
      exact slice_length h
    · rw [if_neg hpos] at h
      cases h

theorem gpiExifGetLilend_mod {pos : Int} {n k v : Nat}
    (h : gpiExifGetLilend blob pos n = some v) (hk : k ≤ n) :
    gpiExifGetLilend blob pos k = some (v % 256 ^ k) := by
  obtain ⟨bs, hbs, rfl⟩ := map_eq_some_iff.mp h
  unfold gpiExifGetLilend
  refine map_eq_some_iff.mpr ⟨bs.take k, ?_, ofBytes_take bs k⟩
  unfold bytesAt at hbs ⊢
  by_cases hzero : k = 0
  · rw [if_pos hzero, hzero, List.take_zero]
  · rw [if_neg (by omega)] at hbs
    rw [if_neg hzero]
    by_cases hpos : 0 ≤ pos
    · rw [if_pos hpos] at hbs ⊢
      obtain ⟨hfits, rfl⟩ := slice_eq_some.mp hbs
      refine slice_eq_some.mpr ⟨by omega, ?_⟩
      rw [List.take_take, Nat.min_eq_left hk]
    · rw [if_neg hpos] at hbs
      cases hbs

theorem gpiExifGetLilend_lt {pos : Int} {n v : Nat}
    (h : gpiExifGetLilend blob pos n = some v) : v < 256 ^ n := by
  have hmod := gpiExifGetLilend_mod h (Nat.le_refl n)
  rw [h, Option.some.injEq] at hmod
  rw [hmod]
  exact Nat.mod_lt _ (Nat.pow_pos (by decide))

/-- The sizes of the integer types, and those before them in the table. -/
theorem integer_sizes {type : Nat} (h : type ∈ [exifByte, exifShort, exifLong]) :
    exifSizetab[type]? = some (exifSizetab.getD type 0) ∧
    sizeBefore type = some (exifSizetab.getD (type - 1) 0) ∧
    exifSizetab.getD (type - 1) 0 ≤ exifSizetab.getD type 0 ∧
    exifSizetab.getD type 0 ≤ 4 ∧
    type ∉ [exifAscii, exifRational, exifUndefined, exifSrational] := by
  rcases List.mem_cons.mp h with rfl | h
  · decide
  rcases List.mem_cons.mp h with rfl | h
  · decide
  · obtain rfl := List.mem_singleton.mp h
    decide

theorem toInt_of_lt {n : Nat} (h : n < 2 ^ 31) : toInt n = n :=
  Int.bmod_eq_of_le (by omega) (by omega)

theorem toInt_inj {m n : Nat} (hm : m < 2 ^ 32) (hn : n < 2 ^ 32) :
    toInt m = toInt n ↔ m = n := by
  unfold toInt
  constructor
  · intro h
    rw [Int.bmod_def, Int.bmod_def] at h
    split at h <;> split at h <;> omega
  · intro h
    rw [h]

variable {ifdp : Int} {i type v : Nat}

/-- What `gpi_getintval` finds: the number with the size of the type before. -/
theorem IntegerEntry.getintval (h : IntegerEntry blob tagNumber ifdp i type v) :
    gpiGetintval blob ifdp tagNumber =
      some (toInt (v % 256 ^ exifSizetab.getD (type - 1) 0)) := by
  obtain ⟨⟨n, hn, hin, hentry, hbefore⟩, htype, hinteger, -, hvalue⟩ := h
  obtain ⟨-, hsize, hle, -, -⟩ := integer_sizes hinteger
  have hfound : findTag blob ifdp n tagNumber (n + 1) 0 = some (i, tagNumber) :=
    (findTag_eq_some (by omega) (Nat.zero_le n)).mpr ⟨Nat.zero_le i, Nat.le_of_lt hin, hentry,
      Or.inr rfl, fun j _ hj => hbefore j hj⟩
  have htype : gpiExifGetLilend blob (ifdp + i * 12 + 4) 2 = some type := by
    rw [← htype]
    congr 1
    omega
  have hlow : gpiExifGetLilend blob (ifdp + i * 12 + 10) (exifSizetab.getD (type - 1) 0) =
      some (v % 256 ^ exifSizetab.getD (type - 1) 0) := by
    rw [← gpiExifGetLilend_mod hvalue hle]
    congr 1
    omega
  unfold gpiGetintval
  simp only [Option.bind_eq_bind, hn, Option.bind_some, hfound, ne_eq, not_true, if_false,
    htype, hsize, hlow]

/-- What `gpi_exif_get_field` finds: the number. -/
theorem IntegerEntry.getField (h : IntegerEntry blob tagNumber ifdp i type v) {dir : Ifd}
    {ifd : Nat} (hdir : exifdata.ifds[ifd]? = some dir) (hptr : dir.ptr = ifdp) :
    ∃ field, gpiExifGetField blob tagNumber ifd exifdata = some (some field) ∧
      field.intval = some (toInt v) := by
  subst hptr
  obtain ⟨hfirst, htype, hinteger, hone, hvalue⟩ := h
  obtain ⟨htab, -, -, hle, hplain⟩ := integer_sizes hinteger
  generalize exifSizetab.getD type 0 = tagSize at htab hle hvalue
  have hentry : EntrySize blob (dir.ptr + i * 12 + 2) type tagSize (tagSize : Nat) := by
    refine ⟨1, htype, htab, hone, ?_⟩
    rw [Nat.mul_one, toInt_of_lt (by omega)]
  obtain ⟨data, hdata, rfl⟩ := map_eq_some_iff.mp hvalue
  have hlen := bytesAt_length hdata
  have hcontents : EntryContents blob (dir.ptr + i * 12 + 2) (tagSize : Nat) data := by
    refine ⟨dir.ptr + i * 12 + 2 + 8, ?_, hdata⟩
    unfold contentsPtr
    rw [if_neg (by omega)]
  have hread : gpiExifGetLilend data 0 tagSize = some (ofBytes data) := by
    refine map_eq_some_iff.mpr ⟨data, ?_, rfl⟩
    unfold bytesAt
    by_cases hzero : tagSize = 0
    · rw [if_pos hzero, List.length_eq_zero_iff.mp (hlen.trans hzero)]
    · rw [if_neg hzero, if_pos (Int.le_refl 0)]
      exact slice_eq_some.mpr ⟨by omega, by rw [← hlen]; simp⟩
  obtain ⟨field, hfield, hintval⟩ :=
    (@getContents_intval blob tagNumber (dir.ptr + i * 12 + 2) (toInt (ofBytes data))).mpr
      ⟨type, tagSize, _, data, _, hentry, Int.natCast_nonneg _, hcontents, hplain, hread, rfl⟩
  obtain ⟨hfound, -⟩ := getField_own_iff.mpr ⟨dir, i, hdir, hfirst, hfield⟩
  exact ⟨field, hfound, hintval⟩

/-- The two functions give the same number for a tag that has an integer if and only if it is
small enough for the size of the type before its own. -/
theorem decodesAlike_iff {dir : Ifd} {ifd : Nat} (hdir : exifdata.ifds[ifd]? = some dir)
    (hentry : IntegerEntry blob tagNumber dir.ptr i type v) :
    DecodesAlike blob exifdata tagNumber ifd dir.ptr ↔
      v < 256 ^ exifSizetab.getD (type - 1) 0 := by
  obtain ⟨field, hfield, hintval⟩ := hentry.getField hdir rfl
  have hvalue := hentry.getintval
  obtain ⟨-, -, hle, hfour, -⟩ := integer_sizes hentry.integer
  have hlt : v < 2 ^ 32 := by
    have hpow : 256 ^ exifSizetab.getD type 0 ≤ 256 ^ 4 := Nat.pow_le_pow_right (by decide) hfour
    exact Nat.lt_of_lt_of_le (gpiExifGetLilend_lt hentry.value) hpow
  have hmod : v % 256 ^ exifSizetab.getD (type - 1) 0 ≤ v := Nat.mod_le _ _
  constructor
  · intro h
    obtain ⟨value, field', hvalue', hfield', hintval'⟩ := h
    cases hfield.symm.trans hfield'
    rw [hvalue, Option.some.injEq] at hvalue'
    rw [hintval, ← hvalue', Option.some.injEq, toInt_inj hlt (by omega)] at hintval'
    rw [hintval']
    exact Nat.mod_lt _ (Nat.pow_pos (by decide))
  · intro h
    rw [Nat.mod_eq_of_lt h] at hvalue
    exact ⟨toInt v, field, hvalue, hfield, hintval⟩

/-- A picture with the tag `Orientation` of the value 256. -/
def orientationBlob : List UInt8 :=
  [0xff, 0xd8, 0xff, 0xe1, 0, 34, 0x45, 0x78, 0x69, 0x66, 0, 0,
    0x49, 0x49, 0x2a, 0, 8, 0, 0, 0, 1, 0, 0x12, 0x01, 3, 0, 1, 0, 0, 0, 0, 1, 0, 0, 0, 0, 0, 0]

theorem orientation_entry : IntegerEntry orientationBlob 0x112 20 0 3 256 where
  first := ⟨1, by decide, by decide, by decide, by simp⟩
  hasType := by decide
  integer := by decide
  one := by decide
  value := by decide

/-- A SHORT of 256 is too large, and is read as 0. -/
theorem orientation_differs :
    DecodesAlike orientationBlob ⟨[⟨20, 1⟩], by decide⟩ 0x112 0 20 ↔
      256 < 256 ^ exifSizetab.getD (3 - 1) 0 :=
  @decodesAlike_iff orientationBlob ⟨[⟨20, 1⟩], by decide⟩ 0x112 0 3 256 ⟨20, 1⟩ 0 rfl
    orientation_entry

theorem decodes_differently :
    ¬∀ (blob : List UInt8) (exifdat exifdata : ExifParser) (ret : Int) (dir : Ifd)
      (ifd tagNumber i type v : Nat), exifParseData blob exifdat = some (ret, exifdata) →
        0 ≤ ret → exifdata.ifds[ifd]? = some dir →
        IntegerEntry blob tagNumber dir.ptr i type v →
        DecodesAlike blob exifdata tagNumber ifd dir.ptr := by
  intro h
  have halike := h orientationBlob ⟨[], Nat.zero_le _⟩ ⟨[⟨20, 1⟩], by decide⟩ 26 ⟨20, 1⟩ 0 0x112
    0 3 256 (by decide) (by decide) rfl orientation_entry
  obtain ⟨value, field, hvalue, hfield, hintval⟩ := halike
  have hzero : gpiGetintval orientationBlob 20 0x112 = some 0 := by decide
  have hfound : gpiExifGetField orientationBlob 0x112 0 ⟨[⟨20, 1⟩], by decide⟩ =
      some (some ⟨0x112, 3, 2, some 256⟩) := by decide +kernel
  cases hvalue.symm.trans hzero
  cases hfield.symm.trans hfound
  cases hintval

end

end GPhoto2
