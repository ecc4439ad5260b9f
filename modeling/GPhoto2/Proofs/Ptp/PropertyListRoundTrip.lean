import GPhoto2.Proofs.Ptp.PropertyList

/-!
# `GPhoto2.Proofs.Ptp.PropertyListRoundTrip`: a property list packed and unpacked

Each entry of a packed list is found where it was put (`entryAt_entryBytes`), so all of them are
leading whole entries of the list. `propertyList_iff` says exactly when the list comes back sorted,
and when the parser stays inside any data.
-/

set_option autoImplicit false

namespace GPhoto2

open Lib
open List (append_assoc length_append map_congr_left map_cons map_id mem_map)
open ByteOrder (length_encode)

/-! ### Values -/

/-- The number of bytes of a value on the wire. -/
def valueLength (datatype : UInt16) (value : PTPPropertyValue) : Nat :=
  match dataType datatype, value with
  | some (.scalar t), _ => t.size
  | some (.array t), .array v => 4 + v.length * t.size
  | some .str, .str (some s) => 2 * s.length + 3
  | _, _ => 0

/-- The bytes of a value. -/
def valueBytes (params : PTPParams) : PTPPropertyValue → List UInt8
  | .scalar x => scalarBytes params x
  | .array v => params.byteorder.encode 4 v.length ++ v.flatMap (scalarBytes params)
  | .str (some s) => packedText params s
  | _ => []

/-- The value that comes back. -/
def valueBack (params : PTPParams) : PTPPropertyValue → PTPPropertyValue
  | .str (some s) => .str (some (readBack params s))
  | value => value

variable {params : PTPParams} {datatype : UInt16} {value : PTPPropertyValue}

theorem valueLength_scalar {t : ScalarType} (h : dataType datatype = some (.scalar t)) :
    valueLength datatype value = t.size := by
  unfold valueLength
  rw [h]

theorem valueLength_array {t : ScalarType} (h : dataType datatype = some (.array t))
    (v : List PTPScalar) : valueLength datatype (.array v) = 4 + v.length * t.size := by
  unfold valueLength
  rw [h]

theorem valueLength_str (h : dataType datatype = some .str) (s : CString) :
    valueLength datatype (.str (some s)) = 2 * s.length + 3 := by
  unfold valueLength
  rw [h]

theorem length_valueBytes (h : value.IsOf datatype) :
    (valueBytes params value).length = valueLength datatype value := by
  cases value with
  | unset => exact absurd h id
  | scalar x => rw [valueBytes, length_scalarBytes, valueLength_scalar h]
  | array v =>
    obtain ⟨t, ht, hv, -⟩ := h
    rw [valueBytes, length_append, length_encode, length_scalarBytes_all hv,
      valueLength_array ht]
  | str s =>
    obtain ⟨ht, text, rfl, -⟩ := h
    rw [valueBytes, length_packedText, valueLength_str ht]

/-- A value is packed if it fits into a block whose size is an `uint32_t`. -/
theorem ptpPackDPV_eq (hcd : params.Converts) (h : value.IsOf datatype) :
    ptpPackDPV params value datatype =
      if valueLength datatype value < 2 ^ 32 then some (valueBytes params value) else none := by
  cases value with
  | unset => exact absurd h id
  | scalar x =>
    have hsize := x.type.size_le
    rw [packDPV_scalar h, valueLength_scalar h, if_pos (by omega), valueBytes]
  | array v =>
    obtain ⟨t, ht, hv, -⟩ := h
    rw [packDPV_array ht hv, valueLength_array ht, valueBytes]
  | str s =>
    obtain ⟨ht, text, rfl, htext⟩ := h
    have hle := htext.length
    rw [packDPV_str hcd ht htext, valueLength_str ht, if_pos (by omega), valueBytes]

theorem valueAt_valueBytes (hcd : params.Converts) (h : value.IsOf datatype)
    (post : List UInt8) :
    valueAt params (valueBytes params value ++ post) datatype 0 =
      some (valueBack params value, valueLength datatype value) := by
  cases value with
  | unset => exact absurd h id
  | scalar x =>
    have hat : valueAt params ([] ++ scalarBytes params x ++ post) datatype 0 = _ :=
      valueAt_scalarBytes h [] post
    rw [valueLength_scalar h]
    simpa [valueBytes, valueBack] using hat
  | array v =>
    obtain ⟨t, ht, hv, hlen⟩ := h
    have hat : valueAt params ([] ++ (params.byteorder.encode 4 v.length ++
        v.flatMap (scalarBytes params)) ++ post) datatype 0 = _ :=
      valueAt_arrayBytes ht hv hlen [] post
    rw [valueLength_array ht]
    simpa [valueBytes, valueBack] using hat
  | str s =>
    obtain ⟨ht, text, rfl, htext⟩ := h
    have hat := valueAt_packedText hcd ht htext [] post (by decide)
    rw [valueLength_str ht]
    simpa [valueBytes, valueBack] using hat

theorem valueBack_eq_iff :
    valueBack params value = value ↔ ∀ s, value = .str (some s) →
      charOrder params = params.byteorder ∨ ∀ c ∈ s, c = '?' := by
  cases value with
  | str s =>
    cases s with
    | none => simp [valueBack]
    | some s => simp [valueBack, readBack_eq_iff]
  | unset => simp [valueBack]
  | scalar x => simp [valueBack]
  | array v => simp [valueBack]

theorem valueBack_valueBack :
    valueBack params (valueBack params value) = valueBack params value := by
  rw [valueBack_eq_iff]
  intro s hs
  cases value with
  | str text =>
    cases text with
    | none => cases hs
    | some text =>
      cases hs
      unfold readBack
      by_cases h : charOrder params = params.byteorder
      · exact Or.inl h
      · right
        rw [if_neg h]
        intro c hc
        obtain ⟨-, -, rfl⟩ := mem_map.mp hc
        rfl
  | unset => cases hs
  | scalar x => cases hs
  | array v => cases hs

/-! ### Entries -/

/-- The bytes of an entry. -/
def entryBytes (params : PTPParams) (prop : MTPProperties) : List UInt8 :=
  htod32ap params prop.objectHandle ++ htod16ap params prop.property ++
    htod16ap params prop.datatype ++ valueBytes params prop.propval

/-- The entry that comes back. -/
def entryBack (params : PTPParams) (prop : MTPProperties) : MTPProperties :=
  { prop with propval := valueBack params prop.propval }

/-- The number of bytes of an entry. -/
def entryLength (prop : MTPProperties) : Nat := 8 + valueLength prop.datatype prop.propval

/-- An entry whose value `ptp_pack_DPV` supports. -/
def MTPProperties.IsSupported (prop : MTPProperties) : Prop := prop.propval.IsOf prop.datatype

variable {prop : MTPProperties}

theorem length_entryBytes (h : prop.IsSupported) :
    (entryBytes params prop).length = entryLength prop := by
  have hvalue : (valueBytes params prop.propval).length = _ := length_valueBytes h
  simp only [entryBytes, entryLength, length_append, hvalue, htod32ap, htod16ap,
    length_encode]

theorem packEntry_eq (hcd : params.Converts) (h : prop.IsSupported) :
    packEntry params prop =
      if valueLength prop.datatype prop.propval < 2 ^ 32 then some (entryBytes params prop)
      else none := by
  rw [packEntry, ptpPackDPV_eq hcd h]
  split <;> rfl

theorem entryAt_entryBytes (hcd : params.Converts) (h : prop.IsSupported)
    (pre post : List UInt8) :
    entryAt params (pre ++ entryBytes params prop ++ post) pre.length =
      some (entryBack params prop, pre.length + entryLength prop) := by
  obtain ⟨property, datatype, objectHandle, propval⟩ := prop
  have hbytes : pre ++ entryBytes params ⟨property, datatype, objectHandle, propval⟩ ++ post =
      pre ++ htod32ap params objectHandle ++ htod16ap params property ++
        htod16ap params datatype ++ (valueBytes params propval ++ post) := by
    simp only [entryBytes, append_assoc]
  have h32 : (htod32ap params objectHandle).length = 4 := length_encode ..
  have h16 : ∀ x, (htod16ap params x).length = 2 := fun x => length_encode ..
  have hhandle := slice_append pre (htod32ap params objectHandle)
    (htod16ap params property ++ (htod16ap params datatype ++
      (valueBytes params propval ++ post)))
  have hproperty := slice_append (pre ++ htod32ap params objectHandle) (htod16ap params property)
    (htod16ap params datatype ++ (valueBytes params propval ++ post))
  have hdatatype := slice_append (pre ++ htod32ap params objectHandle ++
    htod16ap params property) (htod16ap params datatype) (valueBytes params propval ++ post)
  simp only [length_append, h32, h16, Nat.add_assoc] at hhandle hproperty hdatatype
  have hdrop : (pre ++ htod32ap params objectHandle ++ htod16ap params property ++
      htod16ap params datatype ++ (valueBytes params propval ++ post)).drop (pre.length + 8) =
        valueBytes params propval ++ post := by
    rw [List.drop_left']
    simp only [length_append, h32, h16]
  rw [hbytes]
  simp only [append_assoc] at hhandle hproperty hdatatype hdrop ⊢
  unfold entryAt
  rw [dtoh32ap_eq_some.mpr hhandle, Option.bind_some, dtoh16ap_eq_some.mpr hproperty,
    Option.bind_some, dtoh16ap_eq_some.mpr hdatatype, Option.bind_some, hdrop,
    valueAt_valueBytes hcd h post]
  simp only [Option.map_some, entryBack, entryLength, Nat.add_assoc]

/-! ### Lists -/

/-- The bytes of a list. -/
def listBytes (params : PTPParams) (props : List MTPProperties) : List UInt8 :=
  htod32ap params (UInt32.ofNat props.length) ++ props.flatMap (entryBytes params)

/-- The number of bytes of a list. -/
def listLength (props : List MTPProperties) : Nat := 4 + (props.map entryLength).sum

variable {props : List MTPProperties}

theorem length_listBytes (h : ∀ prop ∈ props, prop.IsSupported) :
    (listBytes params props).length = listLength props := by
  have hentries : (props.flatMap (entryBytes params)).length = (props.map entryLength).sum := by
    rw [List.length_flatMap]
    congr 1
    exact map_congr_left fun prop hprop => length_entryBytes (h prop hprop)
  rw [listBytes, length_append, hentries, listLength, htod32ap, length_encode]

section
variable (hcd : params.Converts)
include hcd

theorem entries_whole (h : ∀ prop ∈ props, prop.IsSupported)
    (pre : List UInt8) (htotal : (pre ++ props.flatMap (entryBytes params)).length < 2 ^ 32) :
    EntriesReadable params (pre ++ props.flatMap (entryBytes params)) props.length pre.length ∧
      EndsBetween params (pre ++ props.flatMap (entryBytes params)) props.length pre.length ∧
      ¬ StopsAtUnknown params (pre ++ props.flatMap (entryBytes params)) props.length
        pre.length ∧
      leadingEntries params (pre ++ props.flatMap (entryBytes params)) props.length pre.length =
        props.map (entryBack params) := by
  induction props generalizing pre with
  | nil => exact ⟨trivial, trivial, id, rfl⟩
  | cons prop props ih =>
    have hprop := h prop (by simp)
    have hbytes : pre ++ (prop :: props).flatMap (entryBytes params) =
        (pre ++ entryBytes params prop) ++ props.flatMap (entryBytes params) := by
      rw [List.flatMap_cons, append_assoc]
    have hat := entryAt_entryBytes hcd hprop pre (props.flatMap (entryBytes params))
    rw [hbytes] at htotal ⊢
    obtain ⟨hread, hends, hknown, hleading⟩ :=
      ih (fun p hp => h p (by simp [hp])) (pre ++ entryBytes params prop) htotal
    have hnext : (pre ++ entryBytes params prop).length = pre.length + entryLength prop := by
      rw [length_append, length_entryBytes hprop]
    rw [hnext] at hread hends hknown hleading
    obtain ⟨datatype, hdt, hreadable, he⟩ := entryAt_readable htotal hat
    refine ⟨Or.inr ⟨datatype, hdt, hreadable, ?_⟩, Or.inr (Or.inr ⟨_, hat, hends⟩), ?_, ?_⟩
    · rw [← he]
      exact hread
    · rintro (hunknown | ⟨p, hp, hstops⟩)
      · rw [hunknown.entryAt_eq_none] at hat
        cases hat
      · cases hat.symm.trans hp
        exact hknown hstops
    · rw [List.length_cons, leadingEntries, hat]
      simp only [hleading, map_cons]

theorem unpackOPL_listBytes (h : ∀ prop ∈ props, prop.IsSupported)
    (htotal : listLength props < 2 ^ 32) (hcount : props.length < 2 ^ 32)
    (qsort : Qsort compareFunc) :
    ∃ c, ptpUnpackOPL params (listBytes params props) qsort
        ⟨0, (listBytes params props).length, false⟩ =
      some (.ok (qsort.sort (props.map (entryBack params))), c) := by
  have hlen : (listBytes params props).length = listLength props := length_listBytes h
  have h32 : (htod32ap params (UInt32.ofNat props.length)).length = 4 := length_encode ..
  have hn : propCount params (listBytes params props) = props.length := by
    have hslice := slice_append [] (htod32ap params (UInt32.ofNat props.length))
      (props.flatMap (entryBytes params))
    rw [h32] at hslice
    have hread : dtoh32ap params (listBytes params props) 0 = some (UInt32.ofNat props.length) :=
      dtoh32ap_eq_some.mpr hslice
    rw [propCount, hread, Option.getD_some, UInt32.toNat_ofNat_of_lt' hcount]
  obtain ⟨hread, hends, hknown, hleading⟩ := entries_whole hcd h
    (htod32ap params (UInt32.ofNat props.length))
    (by rw [← listBytes, hlen]; exact htotal)
  rw [h32, ← listBytes] at hread hends hknown hleading
  rw [← hn] at hread hends hknown hleading
  have h4 : 4 ≤ (listBytes params props).length := by
    rw [hlen, listLength]
    omega
  obtain ⟨props', c, hrun, -, hprops⟩ := unpackOPL_run (by rw [hlen]; exact htotal) qsort h4
    hread hends
  rw [hprops hknown, hleading] at hrun
  exact ⟨c, hrun⟩

theorem mapM_packEntry_eq (h : ∀ prop ∈ props, prop.IsSupported) :
    props.mapM (packEntry params) =
      if ∀ prop ∈ props, valueLength prop.datatype prop.propval < 2 ^ 32 then
        some (props.map (entryBytes params))
      else none := by
  induction props with
  | nil => rfl
  | cons prop props ih =>
    rw [List.mapM_cons, packEntry_eq hcd (h prop (by simp)), ih fun p hp => h p (by simp [hp])]
    simp only [List.forall_mem_cons, map_cons]
    by_cases hfits : valueLength prop.datatype prop.propval < 2 ^ 32
    · rw [if_pos hfits]
      by_cases hrest : ∀ p ∈ props, valueLength p.datatype p.propval < 2 ^ 32
      · rw [if_pos hrest, if_pos ⟨hfits, hrest⟩]
        rfl
      · rw [if_neg hrest, if_neg (fun hall : _ ∧ _ => hrest hall.2)]
        rfl
    · rw [if_neg hfits, if_neg (fun hall : _ ∧ _ => hfits hall.1)]
      rfl

/-- A list is packed if its first 127 entries fit into a block whose size is an `uint32_t`. -/
theorem ptpPackOPL_eq (h : ∀ prop ∈ props, prop.IsSupported) :
    ptpPackOPL params props =
      if listLength (props.take maxMtpProps) < 2 ^ 32 then
        some (listBytes params (props.take maxMtpProps))
      else none := by
  have hitems : ∀ prop ∈ props.take maxMtpProps, prop.IsSupported :=
    fun prop hprop => h prop (List.mem_of_mem_take hprop)
  show ((props.take maxMtpProps).mapM (packEntry params)).bind _ = _
  rw [mapM_packEntry_eq hcd hitems]
  by_cases hfits : ∀ prop ∈ props.take maxMtpProps,
      valueLength prop.datatype prop.propval < 2 ^ 32
  · rw [if_pos hfits, Option.bind_some, ← List.flatMap_def]
    show (if (listBytes params (props.take maxMtpProps)).length < 2 ^ 32 then
      some (listBytes params (props.take maxMtpProps)) else none) = _
    rw [length_listBytes hitems]
  · -- one value alone is too large
    have hlarge : ¬ listLength (props.take maxMtpProps) < 2 ^ 32 := by
      intro hsmall
      refine hfits fun prop hprop => ?_
      obtain ⟨front, back, hsplit⟩ := List.append_of_mem hprop
      rw [hsplit] at hsmall
      simp only [listLength, List.map_append, map_cons, List.sum_append, List.sum_cons,
        entryLength] at hsmall
      omega
    rw [if_neg hfits, if_neg hlarge, Option.bind_none]

end

/-! ### The list comes back -/

/-- `ptp_unpack_OPL` makes of a packed list the same entries with ascending object handles, so
that entries of one object stand together, however `qsort` is made. -/
def OPLRoundTrips (params : PTPParams) (props : List MTPProperties) : Prop :=
  ∃ bytes, ptpPackOPL params props = some bytes ∧
    ∀ qsort : Qsort compareFunc, ∃ props' c,
      ptpUnpackOPL params bytes qsort ⟨0, bytes.length, false⟩ = some (.ok props', c) ∧
      props'.Perm props ∧ props'.Pairwise fun p p' => p.objectHandle ≤ p'.objectHandle

/-- Entries of which one comes back as another one are not the same entries. -/
theorem perm_map_entryBack_iff :
    (props.map (entryBack params)).Perm props ↔ ∀ prop ∈ props, entryBack params prop = prop := by
  constructor
  · intro hperm prop hprop
    obtain ⟨p, -, rfl⟩ := mem_map.mp (hperm.mem_iff.mpr hprop)
    simp only [entryBack, valueBack_valueBack]
  · intro h
    rw [map_congr_left (g := id) h, map_id]

theorem entryBack_eq_iff :
    entryBack params prop = prop ↔ ∀ s, prop.propval = .str (some s) →
      charOrder params = params.byteorder ∨ ∀ c ∈ s, c = '?' := by
  rw [← valueBack_eq_iff]
  obtain ⟨property, datatype, objectHandle, propval⟩ := prop
  simp only [entryBack, MTPProperties.mk.injEq, true_and]

theorem packOPL_roundTrip_iff (hcd : params.Converts) (h : ∀ prop ∈ props, prop.IsSupported) :
    OPLRoundTrips params props ↔
      props.length ≤ maxMtpProps ∧ listLength props < 2 ^ 32 ∧
      (∀ prop ∈ props, ∀ s, prop.propval = .str (some s) →
        charOrder params = params.byteorder ∨ ∀ c ∈ s, c = '?') ∧
      KeysNear MTPProperties.objectHandle props := by
  have hitems : ∀ prop ∈ props.take maxMtpProps, prop.IsSupported :=
    fun prop hprop => h prop (List.mem_of_mem_take hprop)
  have hcount : (props.take maxMtpProps).length < 2 ^ 32 :=
    Nat.lt_of_le_of_lt (List.length_take_le _ _) (by decide)
  have hpack := ptpPackOPL_eq hcd h
  have hback : (∀ prop ∈ props, entryBack params prop = prop) ↔
      ∀ prop ∈ props, ∀ s, prop.propval = .str (some s) →
        charOrder params = params.byteorder ∨ ∀ c ∈ s, c = '?' :=
    forall₂_congr fun prop _ => entryBack_eq_iff
  rw [← hback]
  constructor
  · rintro ⟨bytes, hbytes, hunpack⟩
    by_cases hsmall : listLength (props.take maxMtpProps) < 2 ^ 32
    · rw [hpack, if_pos hsmall] at hbytes
      cases hbytes
      have hrun : ∀ qsort : Qsort compareFunc,
          (qsort.sort ((props.take maxMtpProps).map (entryBack params))).Perm props ∧
            (qsort.sort ((props.take maxMtpProps).map (entryBack params))).Pairwise
              fun p p' => p.objectHandle ≤ p'.objectHandle := by
        intro qsort
        obtain ⟨props', c, hrun, hperm, hsorted⟩ := hunpack qsort
        obtain ⟨c', hrun'⟩ := unpackOPL_listBytes hcd hitems hsmall hcount qsort
        cases hrun.symm.trans hrun'
        exact ⟨hperm, hsorted⟩
      have hperm : ((props.take maxMtpProps).map (entryBack params)).Perm props :=
        (Qsort.perm _ _).symm.trans (hrun (Qsort.insertion _)).1
      have hlen : props.length ≤ maxMtpProps := by
        have hle := hperm.length_eq
        rw [List.length_map, List.length_take] at hle
        omega
      rw [List.take_of_length_le hlen] at hsmall hperm hrun
      have hsame := perm_map_entryBack_iff.mp hperm
      rw [map_congr_left (g := id) hsame, map_id] at hrun
      exact ⟨hlen, hsmall, hsame, sort_ascending_iff.mp fun q => (hrun q).2⟩
    · rw [hpack, if_neg hsmall] at hbytes
      cases hbytes
  · rintro ⟨hlen, hsmall, hsame, hnear⟩
    rw [List.take_of_length_le hlen] at hpack hitems hcount
    rw [if_pos hsmall] at hpack
    refine ⟨listBytes params props, hpack, fun qsort => ?_⟩
    obtain ⟨c, hrun⟩ := unpackOPL_listBytes hcd h hsmall hcount qsort
    rw [map_congr_left (g := id) hsame, map_id] at hrun
    exact ⟨qsort.sort props, c, hrun, qsort.perm props, sort_ascending_iff.mpr hnear qsort⟩

/-- The width (0xDC87) of object 1. -/
def widthOfOne : MTPProperties := ⟨0xDC87, 0x0006, 1, .scalar (.u32 640)⟩

end GPhoto2
