import GPhoto2.File.FileName

/-!
# `GPhoto2.Proofs.File.FileName`: names and their suffixes

A name that has a dot is a stem, the last dot and a suffix (`exists_suffix`). The names that
`gp_file_get_name_by_type` makes have the stem of the picture behind the letters of their kind, so
names of different kinds are different (`getNameByType_distinct`).

`gp_file_adjust_name_for_mime_type` puts the suffix of the mime type behind the last dot. Where
there is no dot it puts it behind the name, each time it is called (`adjustsRight_iff`).
-/

set_option autoImplicit false

namespace GPhoto2

/-! ### Stems -/

/-- The name in front of its last dot, or the whole name. -/
def stem (name : CString) : CString := if '.' ∈ name then (uptoLastDot name).dropLast else name

theorem exists_suffix {name : CString} (h : '.' ∈ name) :
    ∃ a s, name = a ++ '.' :: s ∧ '.' ∉ s := by
  obtain ⟨s, a, hsplit, hs⟩ := List.eq_append_cons_of_mem (List.mem_reverse.mpr h)
  refine ⟨a.reverse, s.reverse, ?_, fun hmem => hs (List.mem_reverse.mp hmem)⟩
  have hname := congrArg List.reverse hsplit
  rw [List.reverse_reverse, List.reverse_append, List.reverse_cons] at hname
  rw [hname, List.append_assoc]
  rfl

/-- All but the last component of a name, as the loop of `strrchr` sees it. -/
theorem dropWhile_reverse {a s : CString} (hs : '.' ∉ s) :
    (a ++ '.' :: s).reverse.dropWhile (· != '.') = '.' :: a.reverse ∧
      (a ++ '.' :: s).reverse.takeWhile (· != '.') = s.reverse := by
  have hall : ∀ c ∈ s.reverse, (c != '.') = true := by
    intro c hc
    rw [bne_iff_ne]
    rintro rfl
    exact hs (List.mem_reverse.mp hc)
  have hsplit : (a ++ '.' :: s).reverse = s.reverse ++ '.' :: a.reverse := by simp
  rw [hsplit]
  constructor
  · rw [List.dropWhile_append_of_pos hall]
    simp
  · rw [List.takeWhile_append_of_pos hall]
    simp

theorem uptoLastDot_append {a s : CString} (hs : '.' ∉ s) :
    uptoLastDot (a ++ '.' :: s) = a ++ ['.'] := by
  rw [uptoLastDot, if_pos (by simp), (dropWhile_reverse hs).1, List.reverse_cons,
    List.reverse_reverse]

theorem behindLastDot_append {a s : CString} (hs : '.' ∉ s) :
    behindLastDot (a ++ '.' :: s) = s := by
  rw [behindLastDot, (dropWhile_reverse hs).2, List.reverse_reverse]

theorem stem_append {a s : CString} (hs : '.' ∉ s) : stem (a ++ '.' :: s) = a := by
  rw [stem, if_pos (by simp), uptoLastDot_append hs, List.dropLast_concat]

theorem stem_of_notMem {name : CString} (h : '.' ∉ name) : stem name = name := if_neg h

theorem uptoLastDot_eq {name : CString} (h : '.' ∈ name) :
    uptoLastDot name = stem name ++ ['.'] := by
  obtain ⟨a, s, rfl, hs⟩ := exists_suffix h
  rw [uptoLastDot_append hs, stem_append hs]

/-! ### The names that are saved -/

/-- What a name ends in: the suffix of the mime type, if it is known, or what it has had. -/
def ending (file : CameraFile) (basename : CString) : CString :=
  ((mimeSuffix file.mimeType).map ('.' :: ·)).getD (basename.drop (stem basename).length)

theorem mimeSuffix_plain {mimeType suffix : CString} (h : mimeSuffix mimeType = some suffix) :
    suffix ≠ [] ∧ '.' ∉ suffix := by
  have hall : ∀ entry ∈ mimeTable, entry.1 ≠ [] ∧ '.' ∉ entry.1 := by decide
  obtain ⟨entry, hentry, rfl⟩ := Option.map_eq_some_iff.mp h
  exact hall entry (List.mem_of_find?_eq_some hentry)

theorem drop_stem {a s : CString} (hs : '.' ∉ s) :
    (a ++ '.' :: s).drop (stem (a ++ '.' :: s)).length = '.' :: s := by
  rw [stem_append hs, List.drop_left]

variable (file : CameraFile) (basename : CString)

/-- What a name is made of, unless it is a normal one that has a suffix. -/
theorem getNameByType_eq {type : CameraFileType}
    (hmade : ¬ (type = .normal ∧ '.' ∈ basename)) :
    gpFileGetNameByType file basename type =
      type.inFront ++ stem basename ++ ending file basename := by
  rw [gpFileGetNameByType, if_neg hmade, ending]
  by_cases hdot : '.' ∈ basename
  · obtain ⟨a, s, rfl, hs⟩ := exists_suffix hdot
    rw [if_pos hdot, uptoLastDot_append hs, behindLastDot_append hs, drop_stem hs, stem_append hs]
    cases mimeSuffix file.mimeType <;> simp
  · rw [if_neg hdot, stem_of_notMem hdot, List.drop_length]
    cases hsuffix : mimeSuffix file.mimeType with
    | none => rfl
    | some suffix =>
      show _ ++ (if suffix ≠ [] then '.' :: suffix else []) = _ ++ '.' :: suffix
      rw [if_pos (mimeSuffix_plain hsuffix).1]

theorem stem_getNameByType (type : CameraFileType) :
    stem (gpFileGetNameByType file basename type) = type.inFront ++ stem basename := by
  by_cases hmade : type = .normal ∧ '.' ∈ basename
  · rw [gpFileGetNameByType, if_pos hmade, hmade.1]
    rfl
  rw [getNameByType_eq file basename hmade, ending]
  have hfront : '.' ∉ type.inFront := by
    cases type <;> first | decide | exact List.not_mem_nil
  by_cases hdot : '.' ∈ basename
  · obtain ⟨a, s, rfl, hs⟩ := exists_suffix hdot
    rw [drop_stem hs]
    cases hsuffix : mimeSuffix file.mimeType with
    | none => exact stem_append hs
    | some suffix => exact stem_append (mimeSuffix_plain hsuffix).2
  · rw [stem_of_notMem hdot, List.drop_length]
    cases hsuffix : mimeSuffix file.mimeType with
    | none =>
      show stem (type.inFront ++ basename ++ []) = _
      rw [List.append_nil]
      refine stem_of_notMem fun hmem => ?_
      rcases List.mem_append.mp hmem with hmem | hmem
      · exact hfront hmem
      · exact hdot hmem
    | some suffix => exact stem_append (mimeSuffix_plain hsuffix).2

theorem inFront_injective {type type' : CameraFileType} (htype : ∀ n, type ≠ .unknown n)
    (htype' : ∀ n, type' ≠ .unknown n) (h : type.inFront = type'.inFront) : type = type' := by
  cases type <;> cases type' <;> first
    | rfl
    | exact absurd rfl (htype _)
    | exact absurd rfl (htype' _)
    | exact absurd h (by decide)

/-- **Distinct names.** The data of different kinds of one picture are saved under different names,
whatever their mime types are. A name is what stands for its kind, the stem of the name of the
picture, and the suffix of the mime type; a suffix that is there is kept if the mime type is not
known, and always for the picture itself. -/
theorem getNameByType_distinct (file file' : CameraFile) (basename : CString)
    (type type' : CameraFileType) (htype : ∀ n, type ≠ .unknown n)
    (htype' : ∀ n, type' ≠ .unknown n) :
    (type ≠ type' →
      gpFileGetNameByType file basename type ≠ gpFileGetNameByType file' basename type') ∧
      gpFileGetNameByType file basename type =
        if type = .normal ∧ '.' ∈ basename then basename
        else type.inFront ++ stem basename ++ ending file basename := by
  constructor
  · intro hne hsame
    apply hne
    have hstem := congrArg stem hsame
    rw [stem_getNameByType, stem_getNameByType] at hstem
    exact inFront_injective htype htype' (List.append_cancel_right hstem)
  · by_cases hmade : type = .normal ∧ '.' ∈ basename
    · rw [gpFileGetNameByType, if_pos hmade, if_pos hmade]
    · rw [getNameByType_eq file basename hmade, if_neg hmade]

theorem getNameByType_distinct_thumb :
    (CameraFileType.preview ≠ .normal →
      gpFileGetNameByType { gpFileNew with mimeType := "image/jpeg".toList } "a.cr2".toList
          .preview ≠ gpFileGetNameByType gpFileNew "a.cr2".toList .normal) ∧
      gpFileGetNameByType { gpFileNew with mimeType := "image/jpeg".toList } "a.cr2".toList
        .preview = "thumb_a.jpg".toList :=
  getNameByType_distinct { gpFileNew with mimeType := "image/jpeg".toList } gpFileNew
    "a.cr2".toList .preview .normal (fun _ h => by cases h) fun _ h => by cases h

/-- The picture itself keeps its suffix, whatever its mime type is. -/
theorem normal_keeps_suffix :
    gpFileGetNameByType { gpFileNew with mimeType := "image/jpeg".toList } "a.cr2".toList
      .normal = "a.cr2".toList ∧ mimeSuffix "image/jpeg".toList = some "jpg".toList := by
  decide

/-! ### Names that are adjusted -/

/-- The suffix that `gp_file_adjust_name_for_mime_type` gives the name of the file. -/
def tableSuffix (file : CameraFile) : Option CString := mimeSuffixTable.lookup file.mimeType

theorem tableSuffix_plain {file : CameraFile} {suffix : CString}
    (h : tableSuffix file = some suffix) : suffix.length = 3 ∧ '.' ∉ suffix := by
  have hall : ∀ entry ∈ mimeSuffixTable, entry.2.length = 3 ∧ '.' ∉ entry.2 := by decide
  obtain ⟨l₁, l₂, hsplit, -⟩ := List.lookup_eq_some_iff.mp h
  refine hall (file.mimeType, suffix) ?_
  rw [hsplit]
  exact List.mem_append_right _ List.mem_cons_self

/-- The size of the field `name`. -/
def nameSize : Nat := 256

/-- The name is adjusted as it should be: it gets the suffix of the mime type, it fits its field
with the zero at its end, and a second call changes nothing. -/
structure AdjustsRight (file : CameraFile) : Prop where
  known : ∀ suffix, tableSuffix file = some suffix →
    (gpFileAdjustNameForMimeType file).name = stem file.name ++ '.' :: suffix
  unknown : tableSuffix file = none → (gpFileAdjustNameForMimeType file).name = file.name
  again : gpFileAdjustNameForMimeType (gpFileAdjustNameForMimeType file) =
    gpFileAdjustNameForMimeType file
  fits : (gpFileAdjustNameForMimeType file).name.length < nameSize

theorem adjust_known {file : CameraFile} {suffix : CString} (h : tableSuffix file = some suffix) :
    gpFileAdjustNameForMimeType file = { file with name := uptoLastDot file.name ++ suffix } := by
  rw [tableSuffix] at h
  rw [gpFileAdjustNameForMimeType, h]

theorem adjust_unknown {file : CameraFile} (h : tableSuffix file = none) :
    gpFileAdjustNameForMimeType file = file := by
  rw [tableSuffix] at h
  rw [gpFileAdjustNameForMimeType, h]

/-- **When names are adjusted right.** The mime type is not in the table, or the name has a dot and
leaves room for the new suffix behind it. -/
theorem adjustsRight_iff (file : CameraFile) (hfits : file.name.length < nameSize) :
    AdjustsRight file ↔
      tableSuffix file = none ∨ '.' ∈ file.name ∧ (stem file.name).length + 4 < nameSize := by
  cases hsuffix : tableSuffix file with
  | none =>
    refine iff_of_true ⟨?_, ?_, ?_, ?_⟩ (Or.inl rfl)
    · intro suffix hsome
      rw [hsuffix] at hsome
      cases hsome
    · intro _
      rw [adjust_unknown hsuffix]
    · rw [adjust_unknown hsuffix, adjust_unknown hsuffix]
    · rw [adjust_unknown hsuffix]
      exact hfits
  | some suffix =>
    obtain ⟨hlength, hplain⟩ := tableSuffix_plain hsuffix
    have hadjusted := adjust_known hsuffix
    constructor
    · intro hright
      have hname := hright.known suffix hsuffix
      have hroom := hright.fits
      rw [hname, List.length_append, List.length_cons, hlength] at hroom
      refine Or.inr ⟨Decidable.byContradiction fun hdot => ?_, hroom⟩
      -- without a dot the suffix is put behind the name itself
      have hwhole : uptoLastDot file.name = file.name := if_neg hdot
      rw [hadjusted, stem_of_notMem hdot] at hname
      have hcancel : suffix = '.' :: suffix := by
        rw [hwhole] at hname
        exact List.append_cancel_left hname
      exact absurd (congrArg List.length hcancel) (by simp)
    · rintro (hnone | ⟨hdot, hroom⟩)
      · cases hnone
      have hname : (gpFileAdjustNameForMimeType file).name = stem file.name ++ '.' :: suffix := by
        rw [hadjusted]
        show uptoLastDot file.name ++ suffix = _
        rw [uptoLastDot_eq hdot, List.append_assoc]
        rfl
      refine ⟨?_, ?_, ?_, ?_⟩
      · intro suffix' hsome
        rw [hsuffix] at hsome
        cases hsome
        exact hname
      · intro hnone
        rw [hsuffix] at hnone
        cases hnone
      · have hsuffix' : tableSuffix (gpFileAdjustNameForMimeType file) = some suffix := by
          rw [hadjusted]
          exact hsuffix
        rw [adjust_known hsuffix', hname, uptoLastDot_append hplain, List.append_assoc]
        show { gpFileAdjustNameForMimeType file with name := stem file.name ++ '.' :: suffix } = _
        rw [← hname]
      · rw [hname, List.length_append, List.length_cons, hlength]
        exact hroom

theorem adjustsRight_iff_jpeg :
    AdjustsRight { gpFileNew with name := "a.b.cr2".toList, mimeType := "image/jpeg".toList } ↔
      tableSuffix { gpFileNew with name := "a.b.cr2".toList, mimeType := "image/jpeg".toList } =
          none ∨
        '.' ∈ "a.b.cr2".toList ∧ (stem "a.b.cr2".toList).length + 4 < nameSize :=
  adjustsRight_iff { gpFileNew with name := "a.b.cr2".toList, mimeType := "image/jpeg".toList }
    (by decide)

/-- A name without a dot gets the suffix at its end, once for each call. -/
theorem dotless_not_adjusted :
    ¬ AdjustsRight { gpFileNew with name := "a".toList, mimeType := "image/jpeg".toList } := by
  intro hright
  exact absurd hright.again (by decide)

end GPhoto2
