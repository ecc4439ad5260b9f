import GPhoto2.Proofs.Ptp.CanonStore

/-!
# `GPhoto2.Proofs.Ptp.CanonChanges`: the walk through a Canon EOS event block

`Visits` is the way of the two loops through a block. `unpackChanges_iff`:
`ptp_unpack_CANON_changes` ends, reads nothing outside of the block, and fills as many entries
as it returns, exactly if the way leads to an end and all records on it are inside.
-/

set_option autoImplicit false

/-! ## What is read for one record of an event block

`RecordInside` says of a record that all that is read for it is in the block. This depends on
what the store has of its property. `unpackRecord_isSome_iff`: a record is unpacked exactly if
it is inside.
-/

namespace GPhoto2

open Lib
open Option (bind_eq_some_iff isSome_iff_exists isSome_map isSome_of_eq_some)

/-! ### What is read for a record -/

/-- A string ends in the block. -/
def TextAt (data : List UInt8) (off : Nat) : Prop := 0 ∈ data.drop off

/-- The fields that are read of an image format are in the block: up to the first count other
than 1 and 2, and up to the first size other than 16. -/
def ImageFormatInside (params : PTPParams) (data : List UInt8) (off : Nat) : Prop :=
  ∃ n ∈ dtoh32ap params data off, (n = 1 ∨ n = 2) →
    ∃ l ∈ dtoh32ap params data (off + 4), l = 0x10 →
      off + 20 ≤ data.length ∧ (n = 2 →
        ∃ l ∈ dtoh32ap params data (off + 20), l = 0x10 → off + 36 ≤ data.length)

/-- How far the pointer moves behind an image format. -/
def imageFormatLength (params : PTPParams) (data : List UInt8) (off : Nat) : Nat :=
  if dtoh32ap params data (off + 4) ≠ some 0x10 then 0
  else if dtoh32ap params data off = some 1 then 20
  else if dtoh32ap params data off = some 2 ∧ dtoh32ap params data (off + 20) = some 0x10 then 36
  else 0

/-- So many image formats in a row are inside. -/
def ImageFormatsInside (params : PTPParams) (data : List UInt8) : Nat → Nat → Prop
  | 0, _ => True
  | n + 1, off => ImageFormatInside params data off ∧
    ImageFormatsInside params data n (off + imageFormatLength params data off)

variable {params : PTPParams} {data : List UInt8}

theorem isSome_bind_iff {α β : Type} {o : Option α} {f : α → Option β} :
    (o >>= f).isSome ↔ ∃ a ∈ o, (f a).isSome := by
  cases o <;> simp

theorem isSome_bind_and {α β : Type} {o : Option α} {f : α → Option β} {P : Prop}
    (h : ∀ a ∈ o, (f a).isSome ↔ P) : (o >>= f).isSome ↔ o.isSome ∧ P := by
  cases o with
  | none => simp
  | some a => simpa using h a rfl

theorem isSome_read32_iff {β : Type} {off : Nat} {f : UInt32 → Option β} {P : Prop}
    (h : ∀ x, (f x).isSome ↔ P) :
    (dtoh32ap params data off >>= f).isSome ↔ off + 4 ≤ data.length ∧ P := by
  rw [isSome_bind_and fun x _ => h x, dtoh32ap_isSome]

theorem isSome_slice_iff {β : Type} {off n : Nat} {f : List UInt8 → Option β} {P : Prop}
    (h : ∀ bs, (f bs).isSome ↔ P) :
    (slice data off n >>= f).isSome ↔ off + n ≤ data.length ∧ P := by
  rw [isSome_bind_and fun bs _ => h bs, slice_isSome]

variable (proptype : UInt32) (n cur xdata : Nat) (size type : UInt32) (off : Nat) (p : CanonParams)
  (dpd : PTPDevicePropDesc)

theorem imageFormat_isSome :
    (ptpUnpackEOSImageFormat params data off).isSome ↔ ImageFormatInside params data off := by
  unfold ptpUnpackEOSImageFormat ImageFormatInside
  rw [isSome_bind_iff]
  refine exists_congr fun n => and_congr_right fun _ => ?_
  by_cases h12 : n ≠ 1 ∧ n ≠ 2
  · rw [if_pos h12]
    exact iff_of_true rfl fun hor => absurd hor (not_or.mpr h12)
  · have hor : n = 1 ∨ n = 2 := by
      by_contra h
      exact h12 (not_or.mp h)
    rw [if_neg h12, isSome_bind_iff]
    simp only [hor, true_implies]
    refine exists_congr fun l => and_congr_right fun _ => ?_
    by_cases hl : l = 0x10
    · simp only [hl, ne_eq, not_true_eq_false, if_false, true_implies]
      rw [isSome_read32_iff (P := off + 16 + 4 ≤ data.length ∧ (n = 2 →
        ∃ l ∈ dtoh32ap params data (off + 20), l = 0x10 → off + 36 ≤ data.length))]
      · constructor
        · rintro ⟨-, h⟩
          exact h
        · rintro h
          exact ⟨by omega, h⟩
      · intro s1
        refine isSome_read32_iff fun c1 => ?_
        by_cases h2 : n = 2
        · rw [if_pos h2, isSome_bind_iff]
          simp only [h2, true_implies]
          refine exists_congr fun l => and_congr_right fun _ => ?_
          by_cases hl : l = 0x10
          · simp only [hl, not_true_eq_false, if_false, true_implies]
            rw [isSome_read32_iff (P := off + 32 + 4 ≤ data.length)]
            · constructor
              · rintro ⟨-, h⟩
                exact h
              · intro h
                exact ⟨by omega, h⟩
            · intro s2
              rw [isSome_read32_iff (P := True) fun _ => by simp, and_true]
          · simp [hl]
        · simp [h2]
    · simp [hl]

theorem imageFormat_length {off len : Nat} {format : UInt16}
    (h : ptpUnpackEOSImageFormat params data off = some (format, len)) :
    len = imageFormatLength params data off := by
  unfold imageFormatLength
  obtain ⟨n, hn, h⟩ := bind_eq_some_iff.mp h
  by_cases h12 : n ≠ 1 ∧ n ≠ 2
  · rw [if_pos h12] at h
    cases h
    simp [hn, h12]
  · rw [if_neg h12] at h
    obtain ⟨l, hl, h⟩ := bind_eq_some_iff.mp h
    by_cases hl16 : l = 0x10
    · rw [if_neg (not_not.mpr hl16)] at h
      obtain ⟨s1, -, h⟩ := bind_eq_some_iff.mp h
      obtain ⟨c1, -, h⟩ := bind_eq_some_iff.mp h
      by_cases h2 : n = 2
      · rw [if_pos h2] at h
        obtain ⟨l', hl', h⟩ := bind_eq_some_iff.mp h
        by_cases hl16' : l' = 0x10
        · rw [if_neg (not_not.mpr hl16')] at h
          obtain ⟨s2, -, h⟩ := bind_eq_some_iff.mp h
          obtain ⟨c2, -, h⟩ := bind_eq_some_iff.mp h
          cases h
          simp [hn, hl, hl', hl16, hl16', h2]
        · rw [if_pos hl16'] at h
          cases h
          simp [hn, hl', hl16', h2]
      · rw [if_neg h2] at h
        cases h
        have h1 : n = 1 := by
          by_contra h1
          exact h12 ⟨h1, h2⟩
        simp [hn, hl, hl16, h1]
    · rw [if_pos hl16] at h
      cases h
      simp [hl, hl16]

theorem imageFormatValues_isSome :
    (imageFormatValues params data n off).isSome ↔ ImageFormatsInside params data n off := by
  induction n generalizing off with
  | zero => exact iff_of_true rfl trivial
  | succ n ih =>
    rw [imageFormatValues, ImageFormatsInside, ← imageFormat_isSome, isSome_bind_iff,
      isSome_iff_exists]
    constructor
    · rintro ⟨⟨format, len⟩, hformat, hrest⟩
      rw [isSome_bind_iff] at hrest
      obtain ⟨values, hvalues, -⟩ := hrest
      rw [← imageFormat_length hformat]
      exact ⟨⟨_, hformat⟩, (ih _).mp (isSome_of_eq_some hvalues)⟩
    · rintro ⟨⟨⟨format, len⟩, hformat⟩, hrest⟩
      refine ⟨(format, len), hformat, ?_⟩
      rw [← imageFormat_length hformat] at hrest
      obtain ⟨values, hvalues⟩ := isSome_iff_exists.mp ((ih _).mpr hrest)
      rw [isSome_bind_iff]
      exact ⟨values, hvalues, rfl⟩

theorem enumValues_isSome (t : ScalarType) (n off : Nat) :
    (enumValues params data t n off).isSome ↔ ∀ j < n, off + 4 * j + t.size ≤ data.length := by
  induction n generalizing off with
  | zero => simp [enumValues]
  | succ n ih =>
    rw [enumValues, isSome_bind_iff]
    constructor
    · rintro ⟨bs, hbs, hrest⟩ j hj
      rw [isSome_bind_iff] at hrest
      obtain ⟨values, hvalues, -⟩ := hrest
      cases j with
      | zero => exact slice_isSome.mp (isSome_of_eq_some hbs)
      | succ j =>
        have h := (ih (off + 4)).mp (isSome_of_eq_some hvalues) j (by omega)
        omega
    · intro h
      obtain ⟨bs, hbs⟩ := isSome_iff_exists.mp
        (slice_isSome.mpr (h 0 (Nat.succ_pos n)) : (slice data off t.size).isSome)
      obtain ⟨values, hvalues⟩ := isSome_iff_exists.mp ((ih (off + 4)).mpr (by
        intro j hj
        have := h (j + 1) (by omega)
        omega))
      refine ⟨bs, hbs, ?_⟩
      rw [isSome_bind_iff]
      exact ⟨values, hvalues, rfl⟩

/-! ### One record -/

/-- The values of an enumeration are inside. -/
def ValuesInside (params : PTPParams) (data : List UInt8) (proptype : UInt32)
    (dataType : UInt16) (propxcnt xsize : UInt32) (xdata : Nat) : Prop :=
  if proptype ∈ imageFormatProps then ImageFormatsInside params data propxcnt.toNat xdata
  else
    match enumType dataType with
    | some t => ∀ j < propxcnt.toNat, xdata + 4 * j + t.size ≤ data.length
    | none => xdata + 4 ≤ data.length ∧ xdata + 4 * (xsize / 4).toNat ≤ data.length

/-- An `AvailListChanged` record is inside: its first 20 bytes, and for a property of the store
the values of the enumeration, or the whole record if it has another type. -/
def AvailListInside (params : PTPParams) (data : List UInt8) (views : PropViews) (cur : Nat)
    (size : UInt32) : Prop :=
  ∃ proptype ∈ dtoh32ap params data (cur + 8),
  ∃ propxtype ∈ dtoh32ap params data (cur + 0xc),
  ∃ propxcnt ∈ dtoh32ap params data (cur + 0x10),
    ∀ view ∈ views proptype,
      if propxtype ≠ 3 then cur + 0x14 + (size - 0x14).toNat ≤ data.length
      else propxcnt = 0 ∨
        ValuesInside params data proptype view.dataType propxcnt (size - 0x14) (cur + 0x14)

/-- The text that `ptp_unpack_EOS_CustomFuncEx` prints is read from the block, is not empty, and
fits into its buffer. -/
def CustomFuncInside (params : PTPParams) (data : List UInt8) (off : Nat) : Prop :=
  ∃ s ∈ dtoh32ap params data off,
  ∃ words ∈ (List.range (s / 4).toNat).mapM fun i => dtoh32ap params data (off + 4 * i),
    s / 4 ≠ 0 ∧ (words.flatMap fun word => hexadecimal word ++ [',']).length <
      (s * 2 + s / 4 + 1).toNat

/-- The value of a property with the given `DataType` before the record is inside. -/
def DescriptionInside (params : PTPParams) (data : List UInt8) (proptype : UInt32)
    (dataType : UInt16) (xdata : Nat) : Prop :=
  let xdata := if proptype ∈ customFuncProps then xdata + 4 else xdata
  (match enumType ((canonDataType proptype).getD dataType) with
    | some t => xdata + t.size ≤ data.length
    | none => (canonDataType proptype).getD dataType = ptpDtcStr → TextAt data xdata) ∧
  (proptype ∈ imageFormatProps → ImageFormatInside params data xdata) ∧
  (proptype = ptpDpcCanonEosCustomFuncEx → CustomFuncInside params data 0)

/-- A `PropValueChanged` record is inside: all its bytes and the value of its property. Where the
size is the one that is recorded, the stored payload is not shorter than the new one. -/
def PropValueInside (params : PTPParams) (data : List UInt8) (views : PropViews) (cur : Nat)
    (size : UInt32) : Prop :=
  ∃ proptype ∈ dtoh32ap params data (cur + 8),
    cur + 0xc + (size - 0xc).toNat ≤ data.length ∧
    (∀ view ∈ views proptype, view.size = size → (size - 0xc).toNat ≤ view.data.length) ∧
    DescriptionInside params data proptype ((views proptype).elim 0 (·.dataType)) (cur + 0xc)

/-- Everything that is read for a record is inside, and the text of its entry fits into its
buffer. -/
def RecordInside (params : PTPParams) (data : List UInt8) (views : PropViews) (cur : Nat)
    (size type : UInt32) : Prop :=
  if type = ptpEcCanonEosObjectAddedEx then TextAt data (cur + 0x28)
  else if type = ptpEcCanonEosRequestObjectTransfer then TextAt data (cur + 0x1c)
  else if type = ptpEcCanonEosAvailListChanged then AvailListInside params data views cur size
  else if type = ptpEcCanonEosPropValueChanged ∧ 0xc ≤ size then
    PropValueInside params data views cur size
  else if type = ptpEcCanonEosPropValueChanged ∨ type = ptpEcCanonEosCameraStatusChanged then
    cur + 12 ≤ data.length
  else if type = 0 then True
  else if type = ptpEcCanonEosBulbExposureTime then
    ∃ time ∈ dtoh32ap params data (cur + 8), (decimal time).length < 9
  else ((unhandledEvents.lookup type).isSome → (decimal size).length < 9) ∧
    (8 ≤ size → cur + size.toNat ≤ data.length)

/-! ### `AvailListChanged` -/

theorem supportedValues_isSome (dataType : UInt16) (propxcnt xsize : UInt32)
    (xdata : Nat) :
    (supportedValues params data proptype dataType propxcnt xsize xdata).isSome ↔
      ValuesInside params data proptype dataType propxcnt xsize xdata := by
  unfold supportedValues ValuesInside
  by_cases himage : proptype ∈ imageFormatProps
  · rw [if_pos himage, if_pos himage]
    exact imageFormatValues_isSome _ _
  · rw [if_neg himage, if_neg himage]
    cases enumType dataType with
    | some t => exact enumValues_isSome t _ _
    | none =>
      refine isSome_read32_iff fun _ => ?_
      rw [isSome_slice_iff (P := True) fun _ => by simp, and_true]

theorem availListChanged_isSome :
    (availListChanged params data cur size p).isSome ↔
      AvailListInside params data p.views cur size := by
  unfold availListChanged AvailListInside
  rw [isSome_bind_iff]
  refine exists_congr fun proptype => and_congr_right fun _ => ?_
  rw [isSome_bind_iff]
  refine exists_congr fun propxtype => and_congr_right fun _ => ?_
  rw [isSome_bind_iff]
  refine exists_congr fun propxcnt => and_congr_right fun _ => ?_
  unfold CanonParams.views CanonParams.lookup
  cases p.canonProps[canonPropIdx p.canonProps proptype]? with
  | none => simp
  | some prop =>
    show _ ↔ ∀ view ∈ some prop.view, _
    simp only [Option.mem_some_iff, forall_eq']
    by_cases hx : propxtype = 3
    · rw [if_neg (not_not.mpr hx), if_neg (not_not.mpr hx)]
      by_cases hcnt : propxcnt = 0
      · simp [hcnt]
      · rw [if_neg hcnt, isSome_bind_iff]
        simp only [hcnt, false_or]
        rw [← supportedValues_isSome, isSome_iff_exists]
        constructor
        · rintro ⟨values, hvalues, -⟩
          exact ⟨values, hvalues⟩
        · rintro ⟨values, hvalues⟩
          exact ⟨values, hvalues, rfl⟩
    · rw [if_pos hx, if_pos hx, isSome_slice_iff (P := True) fun _ => by simp, and_true]

/-! ### `PropValueChanged` -/

theorem sprintf_isSome (size : Nat) (text : CString) :
    (sprintf size text).isSome ↔ text.length < size := by
  unfold sprintf
  by_cases h : text.length < size <;> simp [h]

theorem customFunc_isSome :
    (ptpUnpackEOSCustomFuncEx params data off).isSome ↔ CustomFuncInside params data off := by
  unfold ptpUnpackEOSCustomFuncEx CustomFuncInside
  rw [isSome_bind_iff]
  refine exists_congr fun s => and_congr_right fun _ => ?_
  rw [isSome_bind_iff]
  refine exists_congr fun words => and_congr_right fun _ => ?_
  by_cases h : s / 4 = 0
  · simp [h]
  · simp only [if_neg h]
    rw [sprintf_isSome]
    exact (and_iff_right h).symm

theorem strdup_isSome : (strdup data off).isSome ↔ TextAt data off := by
  unfold strdup TextAt
  by_cases h : 0 ∈ data.drop off <;> simp [h]

theorem TextAt.lt {off : Nat} (h : TextAt data off) : off < data.length := by
  by_contra hle
  unfold TextAt at h
  rw [List.drop_eq_nil_of_le (Nat.not_lt.mp hle)] at h
  cases h

theorem setValues_isSome :
    (setValues params data xdata dpd).isSome ↔
      match enumType dpd.dataType with
      | some t => xdata + t.size ≤ data.length
      | none => dpd.dataType = ptpDtcStr → TextAt data xdata := by
  unfold setValues
  cases enumType dpd.dataType with
  | some t =>
    show (Option.map _ _).isSome ↔ _
    rw [isSome_map]
    exact slice_isSome
  | none =>
    by_cases hstr : dpd.dataType = ptpDtcStr
    · simp only [hstr, if_true, true_implies]
      rw [isSome_map]
      exact strdup_isSome _
    · simp [hstr]

theorem setSpecialValues_isSome :
    (setSpecialValues params data proptype xdata dpd).isSome ↔
      (proptype ∈ imageFormatProps → ImageFormatInside params data xdata) ∧
      (proptype = ptpDpcCanonEosCustomFuncEx → CustomFuncInside params data 0) := by
  unfold setSpecialValues
  by_cases himage : proptype ∈ imageFormatProps
  · have hcustom : proptype ≠ ptpDpcCanonEosCustomFuncEx := by
      rintro rfl
      exact absurd himage (by decide)
    rw [if_pos himage, isSome_bind_and (P := True) fun _ _ => by simp, imageFormat_isSome]
    simp [himage, hcustom]
  · rw [if_neg himage]
    by_cases hcustom : proptype = ptpDpcCanonEosCustomFuncEx
    · rw [if_pos hcustom, isSome_bind_and (P := True) fun _ _ => by simp, customFunc_isSome]
      exact ⟨fun h => ⟨fun h' => absurd h' himage, fun _ => h.1⟩, fun h => ⟨h.2 hcustom, trivial⟩⟩
    · simp [himage, hcustom]

theorem describeProp_isSome :
    (describeProp params data proptype xdata dpd).isSome ↔
      DescriptionInside params data proptype dpd.dataType xdata := by
  unfold describeProp DescriptionInside
  simp only
  rw [isSome_bind_and fun dpd _ => setSpecialValues_isSome proptype _ dpd, setValues_isSome,
    fixDpd_dataType]

theorem storedPayload_isSome (prop : PTPCanonProperty) (size : UInt32) (payload : List UInt8) :
    (storedPayload prop size payload).isSome ↔
      (prop.size = size → payload.length ≤ prop.data.length) := by
  unfold storedPayload
  by_cases hsize : prop.size = size
  · rw [if_neg (not_not.mpr hsize)]
    by_cases hlength : prop.data.length < payload.length
    · simp [hsize, hlength]
    · rw [if_neg hlength]
      refine iff_of_true ?_ fun _ => Nat.not_lt.mp hlength
      split <;> rfl
  · simp [hsize]

theorem storedProp_isSome (found : Option PTPCanonProperty) (size type proptype : UInt32)
    (payload : List UInt8) :
    (storedProp found size type proptype payload).isSome ↔
      ∀ prop ∈ found, prop.size = size → payload.length ≤ prop.data.length := by
  cases found with
  | none => simp [storedProp]
  | some prop =>
    show (Option.map _ _).isSome ↔ _
    rw [isSome_map, storedPayload_isSome]
    simp

theorem storedProp_dataType {found : Option PTPCanonProperty} {size type proptype : UInt32}
    {payload : List UInt8} {prop : PTPCanonProperty}
    (h : storedProp found size type proptype payload = some prop) :
    prop.dpd.dataType = found.elim 0 (·.dpd.dataType) := by
  cases found with
  | none =>
    cases h
    rfl
  | some old =>
    obtain ⟨stored, -, rfl⟩ := Option.map_eq_some_iff.mp h
    rfl

theorem propValueChanged_isSome :
    (propValueChanged params data cur size type p).isSome ↔
      PropValueInside params data p.views cur size := by
  unfold propValueChanged PropValueInside
  rw [isSome_bind_iff]
  refine exists_congr fun proptype => and_congr_right fun _ => ?_
  have hviews : p.views proptype = (p.lookup proptype).map PTPCanonProperty.view := rfl
  have hlookup : p.canonProps[canonPropIdx p.canonProps proptype]? = p.lookup proptype := rfl
  rw [hviews, ← slice_isSome]
  refine isSome_bind_and fun payload hpayload => ?_
  simp only [hlookup]
  rw [isSome_bind_and (P := DescriptionInside params data proptype
    ((p.lookup proptype).elim 0 (·.dpd.dataType)) (cur + 0xc)), storedProp_isSome,
    slice_length hpayload]
  · refine and_congr ?_ (iff_of_eq ?_)
    · simp [PTPCanonProperty.view]
    · cases p.lookup proptype <;> rfl
  · intro prop hprop
    rw [isSome_bind_and (P := True) fun _ _ => by simp, and_true, describeProp_isSome,
      storedProp_dataType hprop]

/-! ### The other records -/

theorem objectAddedEx_isSome :
    (objectAddedEx params data cur).isSome ↔ TextAt data (cur + 0x28) := by
  have htext : TextAt data (cur + 0x28) → cur + 0x28 < data.length := TextAt.lt
  unfold objectAddedEx
  rw [isSome_read32_iff (P := TextAt data (cur + 0x28))]
  · exact and_iff_right_of_imp fun h => by have := htext h; omega
  intro _
  rw [isSome_read32_iff (P := TextAt data (cur + 0x28))]
  · exact and_iff_right_of_imp fun h => by have := htext h; omega
  intro _
  rw [isSome_read32_iff (P := TextAt data (cur + 0x28))]
  · exact and_iff_right_of_imp fun h => by have := htext h; omega
  intro _
  rw [isSome_bind_and (P := TextAt data (cur + 0x28)), dtoh16ap_isSome]
  · exact and_iff_right_of_imp fun h => by have := htext h; omega
  intro _ _
  rw [isSome_read32_iff (P := TextAt data (cur + 0x28))]
  · exact and_iff_right_of_imp fun h => by have := htext h; omega
  intro _
  rw [isSome_bind_and (P := True) fun _ _ => by simp, and_true, strdup_isSome]

theorem requestObjectTransfer_isSome :
    (requestObjectTransfer params data cur).isSome ↔ TextAt data (cur + 0x1c) := by
  have htext : TextAt data (cur + 0x1c) → cur + 0x1c < data.length := TextAt.lt
  unfold requestObjectTransfer
  rw [isSome_read32_iff (P := TextAt data (cur + 0x1c))]
  · exact and_iff_right_of_imp fun h => by have := htext h; omega
  intro _
  rw [isSome_bind_and (P := TextAt data (cur + 0x1c)), dtoh16ap_isSome]
  · exact and_iff_right_of_imp fun h => by have := htext h; omega
  intro _ _
  rw [isSome_read32_iff (P := TextAt data (cur + 0x1c))]
  · exact and_iff_right_of_imp fun h => by have := htext h; omega
  intro _
  rw [isSome_bind_and (P := True) fun _ _ => by simp, and_true, strdup_isSome]

theorem bulbExposureTime_isSome :
    (bulbExposureTime params data cur).isSome ↔
      ∃ time ∈ dtoh32ap params data (cur + 8), (decimal time).length < 9 := by
  unfold bulbExposureTime
  rw [isSome_bind_iff]
  refine exists_congr fun time => and_congr_right fun _ => ?_
  rw [isSome_bind_and (P := True) fun _ _ => by simp, and_true, sprintf_isSome, List.length_append]
  have h₁ : "BulbExposureTime ".toList.length = 17 := by decide
  have h₂ : "BulbExposureTime 123456789".length = 26 := by decide
  omega

theorem unhandledInfo_isSome :
    (unhandledInfo size type).isSome ↔
      ((unhandledEvents.lookup type).isSome → (decimal size).length < 9) := by
  unfold unhandledInfo
  cases unhandledEvents.lookup type with
  | none => simp
  | some name =>
    show (Option.map _ _).isSome ↔ (true = true → _)
    rw [isSome_map, sprintf_isSome, List.length_append, List.length_append,
      String.length_toList, String.length_append, String.length_append, String.length_append,
      String.length_append]
    have h₁ : " (size ".length = 7 := by decide
    have h₂ : " (size 123456789)".length = 17 := by decide
    simp only [h₁, h₂, List.length_singleton, true_implies]
    omega

theorem unhandledEvent_isSome :
    (unhandledEvent data cur size type).isSome ↔
      ((unhandledEvents.lookup type).isSome → (decimal size).length < 9) ∧
        (8 ≤ size → cur + size.toNat ≤ data.length) := by
  unfold unhandledEvent
  rw [isSome_bind_and (P := 8 ≤ size → cur + size.toNat ≤ data.length), unhandledInfo_isSome]
  intro info _
  by_cases h8 : 8 ≤ size
  · have hsub : (size - 8).toNat = size.toNat - 8 := UInt32.toNat_sub_of_le _ _ h8
    have hle : 8 ≤ size.toNat := UInt32.le_iff_toNat_le.mp h8
    rw [if_pos h8, isSome_slice_iff (P := True) fun _ => by simp, and_true, hsub]
    simp only [h8, true_implies]
    omega
  · simp [h8]

theorem unpackRecord_isSome_iff :
    (unpackRecord params data cur size type p).isSome ↔
      RecordInside params data p.views cur size type := by
  unfold unpackRecord RecordInside
  by_cases hadded : type = ptpEcCanonEosObjectAddedEx
  · rw [if_pos hadded, if_pos hadded, isSome_map, objectAddedEx_isSome]
  rw [if_neg hadded, if_neg hadded]
  by_cases hrequest : type = ptpEcCanonEosRequestObjectTransfer
  · rw [if_pos hrequest, if_pos hrequest, isSome_map, requestObjectTransfer_isSome]
  rw [if_neg hrequest, if_neg hrequest]
  by_cases havail : type = ptpEcCanonEosAvailListChanged
  · rw [if_pos havail, if_pos havail, availListChanged_isSome]
  rw [if_neg havail, if_neg havail]
  by_cases hvalue : type = ptpEcCanonEosPropValueChanged ∧ 0xc ≤ size
  · rw [if_pos hvalue, if_pos hvalue, propValueChanged_isSome]
  rw [if_neg hvalue, if_neg hvalue]
  by_cases hstatus : type = ptpEcCanonEosPropValueChanged ∨
      type = ptpEcCanonEosCameraStatusChanged
  · rw [if_pos hstatus, if_pos hstatus, cameraStatusChanged,
      isSome_read32_iff (P := True) fun _ => by simp, and_true]
  rw [if_neg hstatus, if_neg hstatus]
  by_cases hzero : type = 0
  · rw [if_pos hzero, if_pos hzero]
    exact iff_of_true rfl trivial
  rw [if_neg hzero, if_neg hzero]
  by_cases hbulb : type = ptpEcCanonEosBulbExposureTime
  · rw [if_pos hbulb, if_pos hbulb, isSome_map, bulbExposureTime_isSome]
  · rw [if_neg hbulb, if_neg hbulb, isSome_map, unhandledEvent_isSome]

open Option (bind_eq_bind bind_eq_some_iff bind_some)

/-! ### The way through a block -/

/-- The record at an offset is the end marker. -/
def IsEndMarker (params : PTPParams) (data : List UInt8) (cur : Nat) : Prop :=
  dtoh32ap params data cur = some 8 ∧ dtoh32ap params data (cur + 4) = some 0

instance (params : PTPParams) (data : List UInt8) (cur : Nat) :
    Decidable (IsEndMarker params data cur) := inferInstanceAs (Decidable (_ ∧ _))

/-- The way of both loops from an offset on: the number of entries, and the offsets of the
records that it comes to. Each record has its size and type in the block, and a size other
than 0. -/
inductive Visits (params : PTPParams) (data : List UInt8) : Nat → Nat → List Nat → Prop
  | atEnd {cur : Nat} (hend : datasize data ≤ cur) : Visits params data cur 0 []
  | endMarker {cur : Nat} (hlt : cur < datasize data) (hmarker : IsEndMarker params data cur) :
      Visits params data cur 0 [cur]
  | record {cur n : Nat} {size type : UInt32} {visited : List Nat} (hlt : cur < datasize data)
      (hsize : dtoh32ap params data cur = some size)
      (htype : dtoh32ap params data (cur + 4) = some type)
      (hmarker : ¬ (size = 8 ∧ type = 0)) (hpos : 0 < size.toNat)
      (hrest : Visits params data (cur + size.toNat) n visited) :
      Visits params data cur (n + 1) (cur :: visited)

variable {params : PTPParams} {data : List UInt8}

theorem countLoop_stuck {cur : Nat} {type : UInt32} (hlt : cur < datasize data)
    (hsize : dtoh32ap params data cur = some 0)
    (htype : dtoh32ap params data (cur + 4) = some type) (fuel : Nat) :
    countLoop params data fuel cur = none := by
  induction fuel with
  | zero => rfl
  | succ fuel ih =>
    rw [countLoop, if_pos hlt, hsize, htype]
    simp only [bind_eq_bind, bind_some]
    rw [if_neg fun h => absurd h.1 (by decide), UInt32.toNat_zero, Nat.add_zero, ih]
    rfl

variable {cur : Nat} {visited : List Nat}

theorem visits_of_countLoop {fuel n : Nat}
    (h : countLoop params data fuel cur = some (n, visited)) :
    Visits params data cur n visited := by
  induction fuel generalizing cur n visited with
  | zero => cases h
  | succ fuel ih =>
    by_cases hlt : cur < datasize data
    · have hloop := h
      rw [countLoop, if_pos hlt] at h
      obtain ⟨size, hsize, h⟩ := bind_eq_some_iff.mp h
      obtain ⟨type, htype, h⟩ := bind_eq_some_iff.mp h
      by_cases hmarker : size = 8 ∧ type = 0
      · rw [if_pos hmarker] at h
        cases h
        exact .endMarker hlt ⟨hmarker.1 ▸ hsize, hmarker.2 ▸ htype⟩
      · rw [if_neg hmarker] at h
        obtain ⟨⟨n', visited'⟩, hrest, h⟩ := bind_eq_some_iff.mp h
        cases h
        refine .record hlt hsize htype hmarker (Nat.pos_of_ne_zero fun hzero => ?_) (ih hrest)
        -- a size of 0 does not let it end
        have hzero : size = 0 := UInt32.toNat_inj.mp hzero
        rw [countLoop_stuck hlt (hzero ▸ hsize) htype] at hloop
        cases hloop
    · rw [countLoop, if_neg hlt] at h
      cases h
      exact .atEnd (Nat.not_lt.mp hlt)

theorem Visits.countLoop {n : Nat}
    (h : Visits params data cur n visited) {fuel : Nat} (hfuel : datasize data - cur < fuel) :
    countLoop params data fuel cur = some (n, visited) := by
  induction h generalizing fuel with
  | atEnd hend =>
    obtain ⟨fuel, rfl⟩ := Nat.exists_eq_succ_of_ne_zero (Nat.ne_zero_of_lt hfuel)
    rw [GPhoto2.countLoop, if_neg (Nat.not_lt.mpr hend)]
  | endMarker hlt hmarker =>
    obtain ⟨fuel, rfl⟩ := Nat.exists_eq_succ_of_ne_zero (Nat.ne_zero_of_lt hfuel)
    rw [GPhoto2.countLoop, if_pos hlt, hmarker.1, hmarker.2]
    rfl
  | record hlt hsize htype hmarker hpos _ ih =>
    obtain ⟨fuel, rfl⟩ := Nat.exists_eq_succ_of_ne_zero (Nat.ne_zero_of_lt hfuel)
    rw [GPhoto2.countLoop, if_pos hlt, hsize, htype]
    simp only [bind_eq_bind, bind_some]
    rw [if_neg hmarker, ih (by omega)]
    rfl

theorem Visits.length_filter {n : Nat}
    (h : Visits params data cur n visited) :
    (visited.filter fun cur => ¬ IsEndMarker params data cur).length = n := by
  induction h with
  | atEnd => rfl
  | endMarker _ hmarker => simp [hmarker]
  | record _ hsize htype hmarker _ _ ih =>
    have hnot : ¬ IsEndMarker params data _ := fun h =>
      hmarker ⟨Option.some.inj (hsize.symm.trans h.1), Option.some.inj (htype.symm.trans h.2)⟩
    rw [List.filter_cons_of_pos (by simpa using hnot), List.length_cons, ih]

/-! ### The records on the way -/

/-- The records at some offsets are inside, each with the store as the ones before have left
it. -/
def RecordsInside (params : PTPParams) (data : List UInt8) : List Nat → PropViews → Prop
  | [], _ => True
  | cur :: visited, views =>
    ∃ size ∈ dtoh32ap params data cur, ∃ type ∈ dtoh32ap params data (cur + 4),
      RecordInside params data views cur size type ∧
      RecordsInside params data visited (viewsAfter views (propRecord params data cur size type))

theorem changesLoop_record {fuel i allocated : Nat} {size type : UInt32} {p : CanonParams}
    (hlt : cur < datasize data) (hsize : dtoh32ap params data cur = some size)
    (htype : dtoh32ap params data (cur + 4) = some type) (hroom : i < allocated) :
    changesLoop params data allocated (fuel + 1) cur i p = (do
      let (entry, p) ← unpackRecord params data cur size type p
      if size = 8 ∧ type = 0 then some ([(cur, entry)], p)
      else do
        let (ce, p) ← changesLoop params data allocated fuel (cur + size.toNat) (i + 1) p
        some ((cur, entry) :: ce, p)) := by
  rw [changesLoop, if_pos hlt, hsize, htype]
  simp only [bind_eq_bind, bind_some]
  rw [if_neg (Nat.not_le.mpr hroom)]

/-- The second loop on the way of the first one: it has room for all entries, and writes one for
each record on the way. -/
theorem Visits.changesLoop {cur n : Nat} {visited : List Nat}
    (h : Visits params data cur n visited) {fuel i allocated : Nat}
    (hfuel : datasize data - cur < fuel) (hroom : i + n < allocated) (p : CanonParams) :
    (∃ ce p', changesLoop params data allocated fuel cur i p = some (ce, p') ∧
      ce.map (·.1) = visited) ↔ RecordsInside params data visited p.views := by
  induction h generalizing fuel i p with
  | atEnd hend =>
    obtain ⟨fuel, rfl⟩ := Nat.exists_eq_succ_of_ne_zero (Nat.ne_zero_of_lt hfuel)
    refine iff_of_true ⟨[], p, ?_, rfl⟩ trivial
    rw [GPhoto2.changesLoop, if_neg (Nat.not_lt.mpr hend)]
  | endMarker hlt hmarker =>
    -- nothing is read for the end marker
    obtain ⟨fuel, rfl⟩ := Nat.exists_eq_succ_of_ne_zero (Nat.ne_zero_of_lt hfuel)
    refine iff_of_true ⟨[(_, .unknown none)], p, ?_, rfl⟩ ⟨8, hmarker.1, 0, hmarker.2, ?_, trivial⟩
    · rw [changesLoop_record hlt hmarker.1 hmarker.2 (by omega)]
      rfl
    · exact trivial
  | @record cur n size type visited hlt hsize htype hmarker hpos _ ih =>
    obtain ⟨fuel, rfl⟩ := Nat.exists_eq_succ_of_ne_zero (Nat.ne_zero_of_lt hfuel)
    rw [changesLoop_record hlt hsize htype (by omega)]
    simp only [if_neg hmarker]
    constructor
    · rintro ⟨ce, p₂, h, hvisited⟩
      obtain ⟨⟨entry, p₁⟩, hrecord, h⟩ := bind_eq_some_iff.mp h
      obtain ⟨⟨ce', p₃⟩, hrest, h⟩ := bind_eq_some_iff.mp h
      cases h
      refine ⟨size, hsize, type, htype,
        (unpackRecord_isSome_iff cur size type p).mp (Option.isSome_of_eq_some hrecord), ?_⟩
      have ih₁ := @ih fuel (i + 1) (by omega) (by omega) p₁
      rw [← unpackRecord_views hrecord, ← ih₁]
      exact ⟨ce', _, hrest, (List.cons.inj hvisited).2⟩
    · rintro ⟨size', hsize', type', htype', hinside, hrest⟩
      cases hsize.symm.trans hsize'
      cases htype.symm.trans htype'
      obtain ⟨⟨entry, p₁⟩, hrecord⟩ := Option.isSome_iff_exists.mp
        ((unpackRecord_isSome_iff cur size type p).mpr hinside)
      rw [← unpackRecord_views hrecord] at hrest
      have ih₁ := @ih fuel (i + 1) (by omega) (by omega) p₁
      obtain ⟨ce, p₂, hloop, hvisited⟩ := ih₁.mpr hrest
      refine ⟨(cur, entry) :: ce, p₂, ?_, congrArg (cur :: ·) hvisited⟩
      rw [hrecord]
      show (GPhoto2.changesLoop _ _ _ _ _ _ _ >>= _) = _
      rw [hloop]
      rfl

/-! ### The whole block -/

/-- `ptp_unpack_CANON_changes` ends and reads nothing outside of the block. Both passes come to
the same records, the entries fit into the array, and as many as it returns are of records
other than the end marker. -/
def ChangesInside (params : PTPParams) (data : List UInt8) (p : CanonParams) : Prop :=
  ∃ r, ptpUnpackCANONChanges params data p = some r ∧ r.ce.map (·.1) = r.visited ∧
    r.ce.length ≤ r.entries + 1 ∧
    ((r.ce.map (·.1)).filter fun cur => ¬ IsEndMarker params data cur).length = r.entries

theorem Visits.length_le {n : Nat}
    (h : Visits params data cur n visited) : visited.length ≤ n + 1 := by
  induction h with
  | atEnd => exact Nat.zero_le _
  | endMarker => exact Nat.le_refl _
  | record _ _ _ _ _ _ ih => exact Nat.succ_le_succ ih

/-- `ptp_unpack_CANON_changes` does what it should exactly if the block is empty, or the way of
the loops through it leads to an end and all records on it are inside. -/
theorem unpackChanges_iff (params : PTPParams) (data : List UInt8) (p : CanonParams) :
    ChangesInside params data p ↔ data = [] ∨
      ∃ n visited, Visits params data 0 n visited ∧
        RecordsInside params data visited p.views := by
  by_cases hempty : data = []
  · refine iff_of_true ⟨⟨0, [], [], p⟩, ?_, rfl, Nat.zero_le _, rfl⟩ (.inl hempty)
    rw [ptpUnpackCANONChanges, if_pos hempty]
  have hfuel : datasize data - 0 < datasize data + 1 := by omega
  have hroom (n : Nat) : 0 + n < n + 1 := by omega
  constructor
  · rintro ⟨r, h, hvisited, -⟩
    rw [ptpUnpackCANONChanges, if_neg hempty] at h
    obtain ⟨⟨n, visited⟩, hcount, h⟩ := bind_eq_some_iff.mp h
    obtain ⟨⟨ce, p'⟩, hloop, h⟩ := bind_eq_some_iff.mp h
    cases h
    have hvisits := visits_of_countLoop hcount
    have hinside := hvisits.changesLoop hfuel (hroom n) p
    exact .inr ⟨n, visited, hvisits, hinside.mp ⟨ce, p', hloop, hvisited⟩⟩
  · rintro (hdata | ⟨n, visited, hvisits, hinside⟩)
    · exact absurd hdata hempty
    · obtain ⟨ce, p', hloop, hvisited⟩ :=
        (hvisits.changesLoop hfuel (hroom n) p).mpr hinside
      refine ⟨⟨n, visited, ce, p'⟩, ?_, hvisited, ?_, ?_⟩
      · rw [ptpUnpackCANONChanges, if_neg hempty, hvisits.countLoop hfuel]
        show (GPhoto2.changesLoop _ _ _ _ _ _ _ >>= _) = _
        rw [hloop]
        rfl
      · rw [← List.length_map (·.1), hvisited]
        exact hvisits.length_le
      · rw [hvisited]
        exact hvisits.length_filter

/-- The walk through a record of size 0 does not end. -/
theorem unpackChanges_stays :
    ¬ ∀ (params : PTPParams) (data : List UInt8) (p : CanonParams),
      ChangesInside params data p := by
  intro h
  obtain ⟨r, hr, -⟩ := h ⟨.little, none, false⟩ [0, 0, 0, 0, 1, 0, 0, 0] ⟨[], 0⟩
  have hstuck := @countLoop_stuck ⟨.little, none, false⟩ [0, 0, 0, 0, 1, 0, 0, 0] 0 1 (by decide)
    (by decide) (by decide)
  rw [ptpUnpackCANONChanges, if_neg (by decide), hstuck] at hr
  cases hr

end GPhoto2
