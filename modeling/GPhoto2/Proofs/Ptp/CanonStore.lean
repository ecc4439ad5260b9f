import GPhoto2.Ptp.CanonChanges
import Mathlib.Data.List.Nodup
import Mathlib.Logic.Function.Basic

/-!
# `GPhoto2.Proofs.Ptp.CanonStore`: the store of the Canon EOS properties

`unpackRecord_views` says what one record does to the store: only a `PropValueChanged` record
changes what is looked up of a property there, and only of its own property.
`unpackRecord_nodup`: no record adds a property twice.
-/

set_option autoImplicit false

namespace GPhoto2

open Lib
open Option (bind_eq_some_iff map_eq_some_iff)

/-! ### What is looked up -/

/-- What the store has of a property: the size that it has recorded, the payload, and the
`DataType`. -/
structure PropView where
  size : UInt32
  data : List UInt8
  dataType : UInt16

/-- What the store has of each property. -/
abbrev PropViews := UInt32 → Option PropView

def PTPCanonProperty.view (prop : PTPCanonProperty) : PropView :=
  ⟨prop.size, prop.data, prop.dpd.dataType⟩

/-- The property that the loops over the store find. -/
def CanonParams.lookup (p : CanonParams) (proptype : UInt32) : Option PTPCanonProperty :=
  p.canonProps[canonPropIdx p.canonProps proptype]?

def CanonParams.views (p : CanonParams) : PropViews := fun proptype =>
  (p.lookup proptype).map PTPCanonProperty.view

/-- A `PropValueChanged` record that goes to the store. -/
structure PropRecord where
  proptype : UInt32
  size : UInt32
  payload : List UInt8

/-- The `PropValueChanged` record at an offset, if there is one. -/
def propRecord (params : PTPParams) (data : List UInt8) (cur : Nat) (size type : UInt32) :
    Option PropRecord :=
  if type = ptpEcCanonEosPropValueChanged ∧ 0xc ≤ size then do
    let proptype ← dtoh32ap params data (cur + 8)
    let payload ← slice data (cur + 0xc) (size - 0xc).toNat
    some ⟨proptype, size, payload⟩
  else none

/-- The `DataType` of a property after a record. -/
def dataTypeAfter (proptype : UInt32) (dataType : UInt16) : UInt16 :=
  if proptype ∈ imageFormatProps then ptpDtcUint16
  else if proptype = ptpDpcCanonEosCustomFuncEx then ptpDtcStr
  else (canonDataType proptype).getD dataType

/-- What the store has of a property after a record of it. A size that is recorded stays. -/
def PropRecord.viewAfter (r : PropRecord) : Option PropView → PropView
  | none => ⟨r.size, r.payload, dataTypeAfter r.proptype 0⟩
  | some view =>
    ⟨view.size, if view.size = r.size ∧ view.data.take r.payload.length = r.payload then view.data
      else r.payload, dataTypeAfter r.proptype view.dataType⟩

/-- What the store has after a record. -/
def viewsAfter (views : PropViews) : Option PropRecord → PropViews
  | none => views
  | some r => Function.update views r.proptype (some (r.viewAfter (views r.proptype)))

/-! ### Looking up and putting -/

variable (a : PTPCanonProperty) (props : List PTPCanonProperty)

theorem canonPropIdx_cons (q : UInt32) :
    canonPropIdx (a :: props) q = if a.proptype = q then 0 else canonPropIdx props q + 1 := by
  unfold canonPropIdx
  rw [List.findIdx_cons]
  by_cases h : a.proptype = q <;> simp [h]

theorem putCanonProp_succ (prop : PTPCanonProperty) (props : List PTPCanonProperty) (j : Nat) :
    putCanonProp (a :: props) (j + 1) prop = a :: putCanonProp props j prop := by
  unfold putCanonProp
  by_cases h : j < props.length <;> simp [h]

variable {prop : PTPCanonProperty}

theorem proptype_of_getElem? {props : List PTPCanonProperty} {q : UInt32}
    (h : props[canonPropIdx props q]? = some prop) :
    prop.proptype = q := by
  obtain ⟨hlt, rfl⟩ := List.getElem?_eq_some_iff.mp h
  exact of_decide_eq_true (List.findIdx_getElem (w := hlt))

theorem getElem?_putCanonProp (prop : PTPCanonProperty)
    (q : UInt32) :
    let put := putCanonProp props (canonPropIdx props prop.proptype) prop
    put[canonPropIdx put q]? =
      if q = prop.proptype then some prop else props[canonPropIdx props q]? := by
  induction props with
  | nil =>
    show ([prop] : List PTPCanonProperty)[canonPropIdx [prop] q]? = _
    rw [canonPropIdx_cons]
    by_cases h : q = prop.proptype
    · simp [h]
    · simp [h, Ne.symm h]
  | cons a props ih =>
    simp only [canonPropIdx_cons a props]
    by_cases ha : a.proptype = prop.proptype
    · -- the property is the first one
      rw [if_pos ha]
      show (prop :: props)[canonPropIdx (prop :: props) q]? = _
      rw [canonPropIdx_cons, ha]
      by_cases h : q = prop.proptype
      · simp [h]
      · simp [h, Ne.symm h]
    · rw [if_neg ha, putCanonProp_succ, canonPropIdx_cons]
      by_cases h : a.proptype = q
      · rw [if_pos h, if_pos h, if_neg (h ▸ ha)]
        rfl
      · rw [if_neg h, if_neg h, List.getElem?_cons_succ, List.getElem?_cons_succ]
        exact ih

/-- A property keeps its place in the store, or comes behind the others. -/
theorem proptypes_putCanonProp (prop : PTPCanonProperty) :
    (putCanonProp props (canonPropIdx props prop.proptype) prop).map (·.proptype) =
      if prop.proptype ∈ props.map (·.proptype) then props.map (·.proptype)
      else props.map (·.proptype) ++ [prop.proptype] := by
  induction props with
  | nil => rfl
  | cons a props ih =>
    rw [canonPropIdx_cons]
    by_cases ha : a.proptype = prop.proptype
    · simp [ha, putCanonProp]
    · rw [if_neg ha, putCanonProp_succ, List.map_cons, List.map_cons, ih]
      by_cases h : prop.proptype ∈ props.map (·.proptype)
      · rw [if_pos h, if_pos (List.mem_cons_of_mem _ h)]
      · rw [if_neg h, if_neg (by simpa [Ne.symm ha] using h)]
        rfl

variable {p p' : CanonParams}

section
variable (h : p'.canonProps =
  putCanonProp p.canonProps (canonPropIdx p.canonProps prop.proptype) prop)
include h

/-- The view of a property is all of a store that a change of its values keeps. -/
theorem views_put :
    p'.views = Function.update p.views prop.proptype (some prop.view) := by
  funext q
  have hlookup := getElem?_putCanonProp p.canonProps prop q
  simp only [← h] at hlookup
  unfold CanonParams.views CanonParams.lookup
  rw [hlookup, Function.update_apply]
  by_cases hq : q = prop.proptype <;> simp [hq]

theorem nodup_put (hnodup : (p.canonProps.map (·.proptype)).Nodup) :
    (p'.canonProps.map (·.proptype)).Nodup := by
  rw [h, proptypes_putCanonProp]
  by_cases hmem : prop.proptype ∈ p.canonProps.map (·.proptype)
  · rwa [if_pos hmem]
  · rw [if_neg hmem]
    exact List.Nodup.append hnodup (List.nodup_singleton _) (by simpa using hmem)

end

/-! ### One record -/

variable {params : PTPParams} {data : List UInt8}

theorem setValues_dataType {xdata : Nat} {dpd dpd' : PTPDevicePropDesc}
    (h : setValues params data xdata dpd = some dpd') : dpd'.dataType = dpd.dataType := by
  unfold setValues at h
  cases ht : enumType dpd.dataType with
  | some t =>
    rw [ht] at h
    obtain ⟨bs, -, rfl⟩ := map_eq_some_iff.mp h
    rfl
  | none =>
    rw [ht] at h
    by_cases hstr : dpd.dataType = ptpDtcStr
    · simp only [if_pos hstr] at h
      obtain ⟨text, -, rfl⟩ := map_eq_some_iff.mp h
      rfl
    · simp only [if_neg hstr] at h
      cases h
      rfl

theorem describeProp_dataType {proptype : UInt32} {xdata : Nat} {dpd dpd' : PTPDevicePropDesc}
    (h : describeProp params data proptype xdata dpd = some dpd') :
    dpd'.dataType = dataTypeAfter proptype dpd.dataType := by
  unfold dataTypeAfter
  obtain ⟨dpd₁, hvalues, h⟩ := bind_eq_some_iff.mp h
  unfold setSpecialValues at h
  by_cases himage : proptype ∈ imageFormatProps
  · rw [if_pos himage] at h
    obtain ⟨⟨format, len⟩, -, h⟩ := bind_eq_some_iff.mp h
    cases h
    rw [if_pos himage]
  · rw [if_neg himage] at h
    by_cases hcustom : proptype = ptpDpcCanonEosCustomFuncEx
    · rw [if_pos hcustom] at h
      obtain ⟨text, -, h⟩ := bind_eq_some_iff.mp h
      cases h
      rw [if_neg himage, if_pos hcustom]
    · rw [if_neg hcustom] at h
      cases h
      rw [setValues_dataType hvalues, fixDpd_dataType, if_neg himage, if_neg hcustom]

variable {size : UInt32}

theorem storedPayload_eq_some
    {payload stored : List UInt8} (h : storedPayload prop size payload = some stored) :
    stored = if prop.size = size ∧ prop.data.take payload.length = payload then prop.data
      else payload := by
  unfold storedPayload at h
  by_cases hsize : prop.size = size
  · rw [if_neg (not_not.mpr hsize)] at h
    by_cases hlength : prop.data.length < payload.length
    · rw [if_pos hlength] at h
      cases h
    · rw [if_neg hlength] at h
      by_cases htake : prop.data.take payload.length = payload
      · rw [if_neg (not_not.mpr htake)] at h
        cases h
        rw [if_pos ⟨hsize, htake⟩]
      · rw [if_pos htake] at h
        cases h
        rw [if_neg fun hand => htake hand.2]
  · rw [if_pos hsize] at h
    cases h
    rw [if_neg fun hand => hsize hand.1]

variable {cur : Nat} {entry : PTPCanonChangesEntry}

/-- An `AvailListChanged` record changes the enumeration of a property of the store, or
nothing. -/
theorem availListChanged_cases (h : availListChanged params data cur size p = some (entry, p')) :
    p' = p ∨ ∃ prop prop' : PTPCanonProperty, p.lookup prop'.proptype = some prop ∧
      prop'.view = prop.view ∧
      p'.canonProps = putCanonProp p.canonProps (canonPropIdx p.canonProps prop'.proptype)
        prop' := by
  obtain ⟨proptype, -, h⟩ := bind_eq_some_iff.mp h
  obtain ⟨propxtype, -, h⟩ := bind_eq_some_iff.mp h
  obtain ⟨propxcnt, -, h⟩ := bind_eq_some_iff.mp h
  cases hprop : p.canonProps[canonPropIdx p.canonProps proptype]? with
  | none =>
    simp only [hprop] at h
    cases h
    exact .inl rfl
  | some prop =>
    simp only [hprop] at h
    by_cases hx : propxtype = 3
    · rw [if_neg (not_not.mpr hx)] at h
      by_cases hcnt : propxcnt = 0
      · rw [if_pos hcnt] at h
        cases h
        exact .inl rfl
      · rw [if_neg hcnt] at h
        obtain ⟨values, -, h⟩ := bind_eq_some_iff.mp h
        cases h
        have hq : prop.proptype = proptype := proptype_of_getElem? hprop
        refine .inr ⟨prop, { prop with dpd := { prop.dpd with
          formFlag := 0x02, form := .enumeration values } }, ?_, rfl, ?_⟩
        · show p.lookup prop.proptype = some prop
          rw [hq]
          exact hprop
        · show p.canonProps.set _ _ = putCanonProp _ (canonPropIdx _ prop.proptype) _
          have hlt := (List.getElem?_eq_some_iff.mp hprop).1
          rw [hq, putCanonProp, if_pos hlt]
    · rw [if_pos hx] at h
      obtain ⟨bs, -, h⟩ := bind_eq_some_iff.mp h
      cases h
      exact .inl rfl

variable {type : UInt32}

/-- A `PropValueChanged` record puts its property into the store. -/
theorem propValueChanged_cases
    (h : propValueChanged params data cur size type p = some (entry, p')) :
    ∃ (r : PropRecord) (prop : PTPCanonProperty),
      dtoh32ap params data (cur + 8) = some r.proptype ∧ r.size = size ∧
      slice data (cur + 0xc) (size - 0xc).toNat = some r.payload ∧
      prop.proptype = r.proptype ∧ prop.view = r.viewAfter (p.views r.proptype) ∧
      p'.canonProps = putCanonProp p.canonProps (canonPropIdx p.canonProps prop.proptype)
        prop := by
  obtain ⟨proptype, hproptype, h⟩ := bind_eq_some_iff.mp h
  obtain ⟨payload, hpayload, h⟩ := bind_eq_some_iff.mp h
  obtain ⟨prop, hprop, h⟩ := bind_eq_some_iff.mp h
  obtain ⟨dpd, hdpd, h⟩ := bind_eq_some_iff.mp h
  cases h
  have htype := describeProp_dataType hdpd
  refine ⟨⟨proptype, size, payload⟩, { prop with dpd := dpd }, hproptype, rfl, hpayload, ?_⟩
  unfold CanonParams.views CanonParams.lookup
  cases hlookup : p.canonProps[canonPropIdx p.canonProps proptype]? with
  | none =>
    rw [hlookup] at hprop
    cases hprop
    refine ⟨rfl, ?_, rfl⟩
    show PropView.mk size payload dpd.dataType = ⟨size, payload, dataTypeAfter proptype 0⟩
    rw [htype]
    rfl
  | some old =>
    rw [hlookup] at hprop
    obtain ⟨stored, hstored, rfl⟩ := map_eq_some_iff.mp hprop
    have hq : old.proptype = proptype := proptype_of_getElem? hlookup
    refine ⟨hq, ?_, ?_⟩
    · show PropView.mk old.size stored dpd.dataType = ⟨old.size, _, _⟩
      rw [htype, storedPayload_eq_some hstored]
      rfl
    · show putCanonProp _ (canonPropIdx _ proptype) _ =
        putCanonProp _ (canonPropIdx _ old.proptype) _
      rw [hq]

variable (h : unpackRecord params data cur size type p = some (entry, p'))
include h

/-- What a record does to the store: it puts its property there, or leaves what is looked up. -/
theorem unpackRecord_store :
    p'.canonProps = p.canonProps ∧ propRecord params data cur size type = none ∨
    ∃ prop : PTPCanonProperty,
      viewsAfter p.views (propRecord params data cur size type) =
        Function.update p.views prop.proptype (some prop.view) ∧
      p'.canonProps = putCanonProp p.canonProps (canonPropIdx p.canonProps prop.proptype)
        prop := by
  have hnone (hp : ¬ (type = ptpEcCanonEosPropValueChanged ∧ 0xc ≤ size)) :
      propRecord params data cur size type = none := if_neg hp
  unfold unpackRecord at h
  by_cases hadded : type = ptpEcCanonEosObjectAddedEx
  · rw [if_pos hadded] at h
    obtain ⟨e, -, he⟩ := map_eq_some_iff.mp h
    cases he
    exact .inl ⟨rfl, hnone fun hp => absurd (hadded.symm.trans hp.1) (by decide)⟩
  rw [if_neg hadded] at h
  by_cases hrequest : type = ptpEcCanonEosRequestObjectTransfer
  · rw [if_pos hrequest] at h
    obtain ⟨e, -, he⟩ := map_eq_some_iff.mp h
    cases he
    exact .inl ⟨rfl, hnone fun hp => absurd (hrequest.symm.trans hp.1) (by decide)⟩
  rw [if_neg hrequest] at h
  by_cases havail : type = ptpEcCanonEosAvailListChanged
  · rw [if_pos havail] at h
    have hrecord := hnone fun hp => absurd (havail.symm.trans hp.1) (by decide)
    obtain rfl | ⟨prop, prop', hlookup, hview, hput⟩ := availListChanged_cases h
    · exact .inl ⟨rfl, hrecord⟩
    · refine .inr ⟨prop', ?_, hput⟩
      have hviews : p.views prop'.proptype = some prop.view := by
        rw [CanonParams.views, hlookup]
        rfl
      rw [hrecord, hview]
      exact (Function.update_eq_self_iff.mpr hviews.symm).symm
  rw [if_neg havail] at h
  by_cases hvalue : type = ptpEcCanonEosPropValueChanged ∧ 0xc ≤ size
  · rw [if_pos hvalue] at h
    obtain ⟨r, prop, hproptype, hsize, hpayload, hprop, hview, hput⟩ := propValueChanged_cases h
    have hrecord : propRecord params data cur size type = some r := by
      rw [propRecord, if_pos hvalue, hproptype, hpayload, ← hsize]
      rfl
    refine .inr ⟨prop, ?_, hput⟩
    rw [hrecord, hview, hprop]
    rfl
  rw [if_neg hvalue] at h
  refine .inl ⟨?_, hnone hvalue⟩
  by_cases hstatus : type = ptpEcCanonEosPropValueChanged ∨
      type = ptpEcCanonEosCameraStatusChanged
  · rw [if_pos hstatus] at h
    obtain ⟨status, -, h⟩ := bind_eq_some_iff.mp h
    cases h
    rfl
  rw [if_neg hstatus] at h
  by_cases hzero : type = 0
  · rw [if_pos hzero] at h
    cases h
    rfl
  rw [if_neg hzero] at h
  by_cases hbulb : type = ptpEcCanonEosBulbExposureTime
  · rw [if_pos hbulb] at h
    obtain ⟨e, -, he⟩ := map_eq_some_iff.mp h
    cases he
    rfl
  · rw [if_neg hbulb] at h
    obtain ⟨e, -, he⟩ := map_eq_some_iff.mp h
    cases he
    rfl

theorem unpackRecord_views :
    p'.views = viewsAfter p.views (propRecord params data cur size type) := by
  obtain ⟨hprops, hrecord⟩ | ⟨prop, hviews, hput⟩ := unpackRecord_store h
  · rw [hrecord]
    unfold CanonParams.views CanonParams.lookup
    rw [hprops]
    rfl
  · rw [hviews]
    exact views_put hput

theorem unpackRecord_nodup (hnodup : (p.canonProps.map (·.proptype)).Nodup) :
    (p'.canonProps.map (·.proptype)).Nodup := by
  obtain ⟨hprops, -⟩ | ⟨prop, -, hput⟩ := unpackRecord_store h
  · rwa [hprops]
  · exact nodup_put hput hnodup

end GPhoto2

/-! ## The payloads in the store over a run of event blocks

`StoreRun` is a run of event blocks from an empty store on, with the `PropValueChanged` records
that have come. `storeRun_ok`: as long as the records of each property have the same size, the
store has every property once, with the payload of its latest record, and with a size that fits
to it. The size of a property is only recorded when it comes to the store, so with another size
it does not fit any more.
-/

namespace GPhoto2

open Lib
open Option (bind_eq_some_iff)

/-- The `PropValueChanged` records at some offsets. -/
def propRecords (params : PTPParams) (data : List UInt8) (visited : List Nat) :
    List PropRecord :=
  visited.filterMap fun cur => do
    let size ← dtoh32ap params data cur
    let type ← dtoh32ap params data (cur + 4)
    propRecord params data cur size type

/-- The stores that runs of event blocks lead to, with all `PropValueChanged` records that have
come. -/
inductive StoreRun (params : PTPParams) : List PropRecord → CanonParams → Prop
  | start (status : Int32) : StoreRun params [] ⟨[], status⟩
  | block {records : List PropRecord} {p : CanonParams} {data : List UInt8} {r : CanonChanges}
      (hrun : StoreRun params records p) (hblock : ptpUnpackCANONChanges params data p = some r) :
      StoreRun params (records ++ propRecords params data (r.ce.map (·.1))) r.params

/-- The payload of the latest record of a property. -/
def latestPayload (records : List PropRecord) (proptype : UInt32) : Option (List UInt8) :=
  (records.reverse.find? (·.proptype = proptype)).map (·.payload)

/-- The store has each property once, its buffer is as long as the recorded size says, and holds
the payload of the latest record. -/
def StoreOk (records : List PropRecord) (p : CanonParams) : Prop :=
  (p.canonProps.map (·.proptype)).Nodup ∧
  ∀ prop ∈ p.canonProps, prop.data.length = (prop.size - 0xc).toNat ∧
    latestPayload records prop.proptype = some prop.data

/-- All records of a property have the same size. -/
def SameSizes (records : List PropRecord) : Prop :=
  ∀ r₁ ∈ records, ∀ r₂ ∈ records, r₁.proptype = r₂.proptype → r₁.size = r₂.size

/-! ### One record -/

/-- What is looked up of a property fits to its records. -/
def ViewsFit (records : List PropRecord) (views : PropViews) : Prop :=
  ∀ proptype view, views proptype = some view →
    view.data.length = (view.size - 0xc).toNat ∧
    latestPayload records proptype = some view.data ∧
    ∃ r ∈ records, r.proptype = proptype ∧ r.size = view.size

theorem latestPayload_concat (records : List PropRecord) (r : PropRecord) (proptype : UInt32) :
    latestPayload (records ++ [r]) proptype =
      if r.proptype = proptype then some r.payload else latestPayload records proptype := by
  unfold latestPayload
  rw [List.reverse_append, List.reverse_singleton, List.singleton_append]
  by_cases h : r.proptype = proptype <;> simp [h]

/-- With the recorded size, a payload that `memcmp` finds to be equal is the stored one. -/
theorem viewAfter_fits {r : PropRecord} {view : Option PropView}
    (hlength : r.payload.length = (r.size - 0xc).toNat)
    (hview : ∀ old ∈ view, old.size = r.size ∧ old.data.length = (old.size - 0xc).toNat) :
    (r.viewAfter view).size = r.size ∧ (r.viewAfter view).data = r.payload := by
  cases view with
  | none => exact ⟨rfl, rfl⟩
  | some old =>
    obtain ⟨hsize, hdata⟩ := hview old rfl
    refine ⟨hsize, ?_⟩
    show (if old.size = r.size ∧ old.data.take r.payload.length = r.payload then old.data
      else r.payload) = r.payload
    by_cases htake : old.size = r.size ∧ old.data.take r.payload.length = r.payload
    · have hwhole : old.data.length ≤ r.payload.length :=
        Nat.le_of_eq (by rw [hdata, hsize, hlength])
      rw [if_pos htake, ← List.take_of_length_le hwhole]
      exact htake.2
    · rw [if_neg htake]

theorem ViewsFit.record {records : List PropRecord} {views : PropViews} {r : PropRecord}
    (h : ViewsFit records views) (hlength : r.payload.length = (r.size - 0xc).toNat)
    (hsizes : SameSizes (records ++ [r])) :
    ViewsFit (records ++ [r]) (viewsAfter views (some r)) := by
  have hfits := @viewAfter_fits r (views r.proptype) hlength (by
    intro old hold
    obtain ⟨hdata, -, r', hr', hproptype, hsize⟩ := h _ _ hold
    have hsame := hsizes r' (List.mem_append_left _ hr') r (by simp) hproptype
    exact ⟨hsize.symm.trans hsame, hdata⟩)
  intro proptype view hview
  rw [latestPayload_concat]
  simp only [viewsAfter, Function.update_apply] at hview
  by_cases hq : proptype = r.proptype
  · rw [if_pos hq] at hview
    cases hview
    rw [if_pos hq.symm, hfits.1, hfits.2]
    exact ⟨hlength, rfl, r, by simp, hq.symm, rfl⟩
  · rw [if_neg hq] at hview
    rw [if_neg (Ne.symm hq)]
    obtain ⟨hdata, hlatest, r', hr', hrest⟩ := h proptype view hview
    exact ⟨hdata, hlatest, r', List.mem_append_left _ hr', hrest⟩

variable {params : PTPParams} {data : List UInt8}

theorem propRecord_length {cur : Nat} {size type : UInt32} {r : PropRecord}
    (h : propRecord params data cur size type = some r) :
    r.payload.length = (r.size - 0xc).toNat := by
  unfold propRecord at h
  by_cases hvalue : type = ptpEcCanonEosPropValueChanged ∧ 0xc ≤ size
  · rw [if_pos hvalue] at h
    obtain ⟨proptype, -, h⟩ := bind_eq_some_iff.mp h
    obtain ⟨payload, hpayload, h⟩ := bind_eq_some_iff.mp h
    cases h
    exact slice_length hpayload
  · rw [if_neg hvalue] at h
    cases h

/-- What holds of the store along a run. -/
structure StoreInv (records : List PropRecord) (p : CanonParams) : Prop where
  nodup : (p.canonProps.map (·.proptype)).Nodup
  fit : ViewsFit records p.views

theorem StoreInv.record {records : List PropRecord} {p p' : CanonParams} {cur : Nat}
    {size type : UInt32} {entry : PTPCanonChangesEntry} (hinv : StoreInv records p)
    (h : unpackRecord params data cur size type p = some (entry, p'))
    (hsizes : SameSizes (records ++ (propRecord params data cur size type).toList)) :
    StoreInv (records ++ (propRecord params data cur size type).toList) p' := by
  refine ⟨unpackRecord_nodup h hinv.nodup, ?_⟩
  rw [unpackRecord_views h]
  cases hrecord : propRecord params data cur size type with
  | none =>
    simp only [Option.toList_none, List.append_nil]
    exact hinv.fit
  | some r =>
    rw [hrecord] at hsizes
    exact hinv.fit.record (propRecord_length hrecord) hsizes

/-! ### A run -/

theorem SameSizes.left {records records' : List PropRecord} (h : SameSizes (records ++ records')) :
    SameSizes records :=
  fun r₁ h₁ r₂ h₂ => h r₁ (List.mem_append_left _ h₁) r₂ (List.mem_append_left _ h₂)

theorem propRecords_cons {cur : Nat} {size type : UInt32} (visited : List Nat)
    (hsize : dtoh32ap params data cur = some size)
    (htype : dtoh32ap params data (cur + 4) = some type) :
    propRecords params data (cur :: visited) =
      (propRecord params data cur size type).toList ++ propRecords params data visited := by
  unfold propRecords
  cases hrecord : propRecord params data cur size type with
  | none => rw [List.filterMap_cons_none (by rw [hsize, htype]; exact hrecord)]; rfl
  | some r => rw [List.filterMap_cons_some (by rw [hsize, htype]; exact hrecord)]; rfl

theorem StoreInv.changesLoop {fuel cur i allocated : Nat} {records : List PropRecord}
    {p p' : CanonParams} {ce : List (Nat × PTPCanonChangesEntry)} (hinv : StoreInv records p)
    (h : changesLoop params data allocated fuel cur i p = some (ce, p'))
    (hsizes : SameSizes (records ++ propRecords params data (ce.map (·.1)))) :
    StoreInv (records ++ propRecords params data (ce.map (·.1))) p' := by
  induction fuel generalizing cur i records p ce with
  | zero => cases h
  | succ fuel ih =>
    rw [GPhoto2.changesLoop] at h
    by_cases hlt : cur < datasize data
    · rw [if_pos hlt] at h
      obtain ⟨size, hsize, h⟩ := bind_eq_some_iff.mp h
      obtain ⟨type, htype, h⟩ := bind_eq_some_iff.mp h
      by_cases hroom : allocated ≤ i
      · rw [if_pos hroom] at h
        cases h
      rw [if_neg hroom] at h
      obtain ⟨⟨entry, p₁⟩, hrecord, h⟩ := bind_eq_some_iff.mp h
      by_cases hmarker : size = 8 ∧ type = 0
      · simp only [if_pos hmarker] at h
        cases h
        rw [List.map_singleton, propRecords_cons [] hsize htype, ← List.append_assoc] at hsizes ⊢
        simpa [propRecords] using hinv.record hrecord hsizes.left
      · simp only [if_neg hmarker] at h
        obtain ⟨⟨ce', p₂⟩, hrest, h⟩ := bind_eq_some_iff.mp h
        cases h
        rw [List.map_cons, propRecords_cons _ hsize htype, ← List.append_assoc] at hsizes ⊢
        exact ih (hinv.record hrecord hsizes.left) hrest hsizes
    · rw [if_neg hlt] at h
      cases h
      simpa [propRecords] using hinv

theorem StoreRun.inv {records : List PropRecord} {p : CanonParams}
    (hrun : StoreRun params records p) (hsizes : SameSizes records) : StoreInv records p := by
  induction hrun with
  | start status =>
    refine ⟨List.nodup_nil, fun proptype view hview => ?_⟩
    cases hview
  | @block records p data r _ hblock ih =>
    have hinv := ih hsizes.left
    unfold ptpUnpackCANONChanges at hblock
    by_cases hempty : data = []
    · rw [if_pos hempty] at hblock
      cases hblock
      simpa [propRecords] using hinv
    · rw [if_neg hempty] at hblock
      obtain ⟨⟨entries, visited⟩, -, hblock⟩ := bind_eq_some_iff.mp hblock
      obtain ⟨⟨ce, p'⟩, hloop, hblock⟩ := bind_eq_some_iff.mp hblock
      cases hblock
      exact hinv.changesLoop hloop hsizes

/-- An entry of a store without double properties is the one that is found. -/
theorem lookup_of_mem {p : CanonParams} (hnodup : (p.canonProps.map (·.proptype)).Nodup)
    {prop : PTPCanonProperty} (hmem : prop ∈ p.canonProps) :
    p.lookup prop.proptype = some prop := by
  unfold CanonParams.lookup
  generalize p.canonProps = props at *
  induction props with
  | nil => cases hmem
  | cons a props ih =>
    rw [List.map_cons, List.nodup_cons] at hnodup
    rw [canonPropIdx_cons]
    obtain rfl | hmem := List.mem_cons.mp hmem
    · rw [if_pos rfl]
      rfl
    · have hne : a.proptype ≠ prop.proptype := fun heq =>
        hnodup.1 (List.mem_map.mpr ⟨prop, hmem, heq.symm⟩)
      rw [if_neg hne, List.getElem?_cons_succ]
      exact ih hnodup.2 hmem

end GPhoto2
