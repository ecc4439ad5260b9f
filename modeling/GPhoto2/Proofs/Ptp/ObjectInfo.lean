import GPhoto2.Proofs.Ptp.DatasetBounds

/-!
# `GPhoto2.Proofs.Ptp.ObjectInfo`: an object info packed and unpacked

`packOI_roundTrip_iff` says exactly when `ptp_unpack_OI` gives back what `ptp_pack_OI` has
packed. The unpacker guesses from the data whether the object size has 64 bits. Where it guesses
wrong, it reads every field four bytes too early: had all of them come back right nevertheless,
then each byte would be the one four bytes further on, and with the upper half of the object
size all of them would be zero (`misread_not_same`).
-/

set_option autoImplicit false

namespace GPhoto2

open Lib

/-! ### What is to come back -/

/-- The fields that `ptp_pack_OI` packs. The others are cleared. -/
def PTPObjectInfo.packedFields (oi : PTPObjectInfo) : PTPObjectInfo :=
  { oi with captureDate := 0, modificationDate := 0, keywords := none }

/-- `ptp_pack_OI` returns a length that covers every byte that it wrote, inside its block, and
`ptp_unpack_OI` reads nothing outside of these bytes and gives every packed field back. -/
def OIRoundTrips (params : PTPParams) (mktime : Tm → Int) (oi : PTPObjectInfo) : Prop :=
  ∃ packed, ptpPackOI params oi = some packed ∧ packed.written ≤ packed.length ∧
    packed.length ≤ packed.oidata.length ∧
    ∀ oi₀, ∃ oi' ocs64 s,
      ptpUnpackOI params (packed.oidata.take packed.length) mktime oi₀ (.start 0) =
        some (.ok (oi', ocs64), s) ∧
      oi'.packedFields = oi.packedFields

/-- An object info with an ASCII filename, whose object size fits the field that it has. -/
structure PTPObjectInfo.FitsWire (params : PTPParams) (oi : PTPObjectInfo) : Prop where
  filename : ∃ s, oi.filename = some s ∧ IsText s
  objectCompressedSize : params.ocs64 = false → oi.objectCompressedSize.toNat < 2 ^ 32

/-- The first byte of the sequence number on the wire is zero. -/
def SequenceLooksEmpty (params : PTPParams) (oi : PTPObjectInfo) : Prop :=
  (htod32ap params oi.sequenceNumber)[0]? = some 0

instance (params : PTPParams) (oi : PTPObjectInfo) : Decidable (SequenceLooksEmpty params oi) :=
  inferInstanceAs (Decidable ((htod32ap params oi.sequenceNumber)[0]? = some 0))

variable {params : PTPParams} {data : List UInt8} {oi : PTPObjectInfo}

/-! ### What the unpacker reads -/

/-- How far the fields behind the object size have moved. -/
def oiShift (ocs64 : Bool) : Nat := if ocs64 then 4 else 0

/-- The fields in front of the object size and the object size are in the data. -/
structure OIHeadAt (params : PTPParams) (data : List UInt8) (oi : PTPObjectInfo) : Prop where
  storageID : dtoh32ap params data 0 = some oi.storageID
  objectFormat : dtoh16ap params data 4 = some oi.objectFormat
  protectionStatus : dtoh16ap params data 6 = some oi.protectionStatus

/-- The fields behind the object size are in the data, `shift` bytes further on. -/
structure OITailAt (params : PTPParams) (data : List UInt8) (shift : Nat) (oi : PTPObjectInfo) :
    Prop where
  thumbFormat : dtoh16ap params data (shift + 12) = some oi.thumbFormat
  thumbCompressedSize : dtoh32ap params data (shift + 14) = some oi.thumbCompressedSize
  thumbPixWidth : dtoh32ap params data (shift + 18) = some oi.thumbPixWidth
  thumbPixHeight : dtoh32ap params data (shift + 22) = some oi.thumbPixHeight
  imagePixWidth : dtoh32ap params data (shift + 26) = some oi.imagePixWidth
  imagePixHeight : dtoh32ap params data (shift + 30) = some oi.imagePixHeight
  imageBitDepth : dtoh32ap params data (shift + 34) = some oi.imageBitDepth
  parentObject : dtoh32ap params data (shift + 38) = some oi.parentObject
  associationType : dtoh16ap params data (shift + 42) = some oi.associationType
  associationDesc : dtoh32ap params data (shift + 44) = some oi.associationDesc
  sequenceNumber : dtoh32ap params data (shift + 48) = some oi.sequenceNumber

theorem looksOcs64_length (h : looksOcs64 data = some true) : 4 ≤ data.length := by
  obtain ⟨a, ha, -⟩ := Option.bind_eq_some_iff.mp h
  have hlt := (List.getElem?_eq_some_iff.mp ha).1
  omega

theorem dtoh16ap_oiData {ocs64 : Bool} (h : looksOcs64 data = some ocs64) (off : Nat) :
    dtoh16ap params (oiData data ocs64) off = dtoh16ap params data (oiShift ocs64 + off) := by
  cases ocs64 with
  | false => rw [oiShift, if_neg (by decide), Nat.zero_add]; rfl
  | true =>
    show (slice (data.drop 4) off 2).map _ = _
    rw [slice_drop data 4 off 2 (looksOcs64_length h)]
    rfl

theorem dtoh32ap_oiData {ocs64 : Bool} (h : looksOcs64 data = some ocs64) (off : Nat) :
    dtoh32ap params (oiData data ocs64) off = dtoh32ap params data (oiShift ocs64 + off) := by
  cases ocs64 with
  | false => rw [oiShift, if_neg (by decide), Nat.zero_add]; rfl
  | true =>
    show (slice (data.drop 4) off 4).map _ = _
    rw [slice_drop data 4 off 4 (looksOcs64_length h)]
    rfl

theorem readOffset_bind_eq_ok {α β : Type} {read : Nat → Option α} {k : α → Dataset β}
    {s s' : DatasetState} {b : β} (h : (readOffset read >>= k) s = some (.ok b, s')) :
    ∃ a, read s.offset = some a ∧ k a s = some (.ok b, s') := by
  obtain ⟨a, s₁, hread, hk⟩ := Comp.bind_eq_ok.mp h
  obtain ⟨a', ha', hok, rfl⟩ := readOffset_eq_some.mp hread
  cases hok
  exact ⟨a, ha', hk⟩

theorem ptpUnpackOI_eq_ok {mktime : Tm → Int} {oi₀ oi' : PTPObjectInfo} {ocs64 : Bool}
    {s : DatasetState}
    (h : ptpUnpackOI params data mktime oi₀ (.start 0) = some (.ok (oi', ocs64), s)) :
    looksOcs64 data = some ocs64 ∧ OIHeadAt params data oi' ∧
      (∃ x, dtoh32ap params data 8 = some x ∧ oi'.objectCompressedSize = x.toUInt64) ∧
      OITailAt params data (oiShift ocs64) oi' ∧
      ∃ len, ptpUnpackString params (oiData data ocs64) 52 = some (oi'.filename, len) := by
  unfold ptpUnpackOI at h
  obtain ⟨storageID, h0, h⟩ := readOffset_bind_eq_ok h
  obtain ⟨objectFormat, h4, h⟩ := readOffset_bind_eq_ok h
  obtain ⟨protectionStatus, h6, h⟩ := readOffset_bind_eq_ok h
  obtain ⟨objectCompressedSize, h8, h⟩ := readOffset_bind_eq_ok h
  obtain ⟨looks, hlooks, h⟩ := readOffset_bind_eq_ok h
  obtain ⟨thumbFormat, h12, h⟩ := readOffset_bind_eq_ok h
  obtain ⟨thumbCompressedSize, h14, h⟩ := readOffset_bind_eq_ok h
  obtain ⟨thumbPixWidth, h18, h⟩ := readOffset_bind_eq_ok h
  obtain ⟨thumbPixHeight, h22, h⟩ := readOffset_bind_eq_ok h
  obtain ⟨imagePixWidth, h26, h⟩ := readOffset_bind_eq_ok h
  obtain ⟨imagePixHeight, h30, h⟩ := readOffset_bind_eq_ok h
  obtain ⟨imageBitDepth, h34, h⟩ := readOffset_bind_eq_ok h
  obtain ⟨parentObject, h38, h⟩ := readOffset_bind_eq_ok h
  obtain ⟨associationType, h42, h⟩ := readOffset_bind_eq_ok h
  obtain ⟨associationDesc, h44, h⟩ := readOffset_bind_eq_ok h
  obtain ⟨sequenceNumber, h48, h⟩ := readOffset_bind_eq_ok h
  obtain ⟨u, s₁, hskip, h⟩ := Comp.bind_eq_ok.mp h
  cases hskip
  obtain ⟨filename, s₂, hstring, h⟩ := Comp.bind_eq_ok.mp h
  obtain ⟨captureDate, s₃, -, h⟩ := Comp.bind_eq_ok.mp h
  obtain ⟨modificationDate, s₄, -, h⟩ := Comp.bind_eq_ok.mp h
  cases h
  obtain ⟨⟨text, len⟩, s₅, hread, hrest⟩ := Comp.bind_eq_ok.mp hstring
  obtain ⟨p, hp, hok, rfl⟩ := readOffset16_eq_some.mp hread
  cases hok
  cases hrest
  refine ⟨hlooks, ⟨h0, h4, h6⟩, ⟨_, h8, rfl⟩, ?_, _, hp⟩
  have e16 : ∀ off, dtoh16ap params (oiData data ocs64) off =
    dtoh16ap params data (oiShift ocs64 + off) := dtoh16ap_oiData hlooks
  have e32 : ∀ off, dtoh32ap params (oiData data ocs64) off =
    dtoh32ap params data (oiShift ocs64 + off) := dtoh32ap_oiData hlooks
  exact ⟨(e16 12).symm.trans h12, (e32 14).symm.trans h14, (e32 18).symm.trans h18,
    (e32 22).symm.trans h22, (e32 26).symm.trans h26, (e32 30).symm.trans h30,
    (e32 34).symm.trans h34, (e32 38).symm.trans h38, (e16 42).symm.trans h42,
    (e32 44).symm.trans h44, (e32 48).symm.trans h48⟩

/-! ### What the packer writes -/

/-- The bytes of an object info with a filename. -/
def oiWire (params : PTPParams) (oi : PTPObjectInfo) (s : CString) : List UInt8 :=
  fieldsBytes params.byteorder (oiFields params.ocs64 oi) ++ packedText params s

theorem length_oiFields (order : ByteOrder) (ocs64 : Bool) (oi : PTPObjectInfo) :
    (fieldsBytes order (oiFields ocs64 oi)).length = oiShift ocs64 + 52 := by
  rw [length_fieldsBytes]
  cases ocs64 with
  | false => simp [oiFields, oiShift]
  | true => simp [oiFields, oiShift]

theorem length_oiWire (params : PTPParams) (oi : PTPObjectInfo) (s : CString) :
    (oiWire params oi s).length = oiShift params.ocs64 + 55 + 2 * s.length := by
  rw [oiWire, List.length_append, length_oiFields, length_packedText]
  omega

/-- What `ptp_pack_OI` leaves: the length that it returns leaves room for two empty dates, and
for a byte more. -/
theorem ptpPackOI_text {s : CString} (hcd : params.Converts) (hs : oi.filename = some s)
    (htext : IsText s) :
    ∃ packed, ptpPackOI params oi = some packed ∧
      packed.written = (oiWire params oi s).length ∧
      packed.length = (oiWire params oi s).length + 3 ∧
      packed.length ≤ packed.oidata.length ∧
      packed.oidata.take packed.length = oiWire params oi s ++ [0, 0, 0] := by
  have hlen := htext.length
  have hwire := length_oiWire params oi s
  have hnat : (UInt8.ofNat (s.length + 1)).toNat = s.length + 1 := by
    rw [UInt8.toNat_ofNat']
    omega
  have hlength : 53 + (s.length + 1) * 2 + 3 + (if params.ocs64 then 4 else 0) =
      (oiWire params oi s).length + 3 := by
    rw [hwire, oiShift]
    omega
  have hroom : ptpOiMaxLen + (if params.ocs64 then 4 else 0) - (oiWire params oi s).length =
      3 + (510 - 2 * s.length) := by
    rw [hwire, oiShift, ptpOiMaxLen, ptpMaxstrlen]
    omega
  refine ⟨⟨oiWire params oi s ++ List.replicate (3 + (510 - 2 * s.length)) 0,
    (oiWire params oi s).length, 53 + (s.length + 1) * 2 + 3 + (if params.ocs64 then 4 else 0)⟩,
    ?_, rfl, hlength, ?_, ?_⟩
  · unfold ptpPackOI
    rw [hs, Option.bind_some, ptpPackString_text hcd htext]
    simp only [Option.map_some, hnat, Option.some.injEq, PackedOI.mk.injEq, and_true]
    rw [← hroom]
    exact ⟨rfl, rfl⟩
  · simp only [hlength, List.length_append, List.length_replicate]
    omega
  · simp only [hlength]
    rw [List.take_length_add_append, List.replicate_add, List.take_left' (by simp)]
    rfl

theorem dtoh16ap_field {fields : List (Nat × Nat)} {k off : Nat} {x : UInt16}
    (h : fields[k]? = some (2, x.toNat)) (hoff : fieldOffset fields k = off)
    (rest : List UInt8) :
    dtoh16ap params (fieldsBytes params.byteorder fields ++ rest) off = some x := by
  rw [← hoff]
  exact dtoh16ap_eq_some.mpr (slice_fieldsBytes h rest)

theorem dtoh32ap_field {fields : List (Nat × Nat)} {k off : Nat} {x : UInt32}
    (h : fields[k]? = some (4, x.toNat)) (hoff : fieldOffset fields k = off)
    (rest : List UInt8) :
    dtoh32ap params (fieldsBytes params.byteorder fields ++ rest) off = some x := by
  rw [← hoff]
  exact dtoh32ap_eq_some.mpr (slice_fieldsBytes h rest)

variable (ocs64 : Bool)

theorem oiHeadAt_fields (oi : PTPObjectInfo) (rest : List UInt8) :
    OIHeadAt params (fieldsBytes params.byteorder (oiFields ocs64 oi) ++ rest) oi where
  storageID := dtoh32ap_field (k := 0) rfl rfl rest
  objectFormat := dtoh16ap_field (k := 1) rfl rfl rest
  protectionStatus := dtoh16ap_field (k := 2) rfl rfl rest

theorem oiSizeAt_fields (oi : PTPObjectInfo) (rest : List UInt8) :
    dtoh32ap params (fieldsBytes params.byteorder (oiFields ocs64 oi) ++ rest) 8 =
      some (UInt32.ofNat (oi.objectCompressedSize.toNat % 2 ^ 32)) := by
  have hlt : oi.objectCompressedSize.toNat % 2 ^ 32 < 2 ^ 32 :=
    Nat.mod_lt _ (Nat.two_pow_pos 32)
  have hfield : (oiFields ocs64 oi)[3]? =
      some (4, (UInt32.ofNat (oi.objectCompressedSize.toNat % 2 ^ 32)).toNat) := by
    rw [UInt32.toNat_ofNat_of_lt' hlt]
    rfl
  exact dtoh32ap_field hfield rfl rest

theorem fieldOffset_oiFields (oi : PTPObjectInfo) (k : Nat) :
    fieldOffset (oiFields ocs64 oi) (oiShift ocs64 / 4 + 4 + k) =
      oiShift ocs64 + 12 + ([2, 4, 4, 4, 4, 4, 4, 4, 2, 4, 4].take k).sum := by
  have hsplit : ∀ fields : List (Nat × Nat), ∀ n, fieldOffset fields (n + k) =
      fieldOffset fields n + (((fields.map (·.1)).drop n).take k).sum := by
    intro fields n
    rw [fieldOffset, fieldOffset, List.take_add, List.map_append, List.sum_append,
      List.map_take, List.map_take, List.map_drop]
  rw [hsplit]
  cases ocs64 <;> simp [fieldOffset, oiFields, oiShift]

theorem oiFields_get (oi : PTPObjectInfo) (k : Nat) :
    (oiFields ocs64 oi)[oiShift ocs64 / 4 + 4 + k]? = (oiFields false oi)[4 + k]? := by
  cases ocs64 with
  | false => simp [oiShift]
  | true => simp [oiShift, oiFields, Nat.add_comm]

theorem oiTailAt_fields (oi : PTPObjectInfo) (rest : List UInt8) :
    OITailAt params (fieldsBytes params.byteorder (oiFields ocs64 oi) ++ rest) (oiShift ocs64)
      oi where
  thumbFormat := dtoh16ap_field (oiFields_get ocs64 oi 0) (fieldOffset_oiFields ocs64 oi 0) rest
  thumbCompressedSize :=
    dtoh32ap_field (oiFields_get ocs64 oi 1) (fieldOffset_oiFields ocs64 oi 1) rest
  thumbPixWidth := dtoh32ap_field (oiFields_get ocs64 oi 2) (fieldOffset_oiFields ocs64 oi 2) rest
  thumbPixHeight := dtoh32ap_field (oiFields_get ocs64 oi 3) (fieldOffset_oiFields ocs64 oi 3) rest
  imagePixWidth := dtoh32ap_field (oiFields_get ocs64 oi 4) (fieldOffset_oiFields ocs64 oi 4) rest
  imagePixHeight := dtoh32ap_field (oiFields_get ocs64 oi 5) (fieldOffset_oiFields ocs64 oi 5) rest
  imageBitDepth := dtoh32ap_field (oiFields_get ocs64 oi 6) (fieldOffset_oiFields ocs64 oi 6) rest
  parentObject := dtoh32ap_field (oiFields_get ocs64 oi 7) (fieldOffset_oiFields ocs64 oi 7) rest
  associationType := dtoh16ap_field (oiFields_get ocs64 oi 8) (fieldOffset_oiFields ocs64 oi 8) rest
  associationDesc := dtoh32ap_field (oiFields_get ocs64 oi 9) (fieldOffset_oiFields ocs64 oi 9) rest
  sequenceNumber :=
    dtoh32ap_field (oiFields_get ocs64 oi 10) (fieldOffset_oiFields ocs64 oi 10) rest

/-! ### The guess -/

/-- The bytes that are sent: a filename, two empty dates, and a byte more. -/
def oiSent (params : PTPParams) (oi : PTPObjectInfo) (s : CString) : List UInt8 :=
  oiWire params oi s ++ [0, 0, 0]

section
variable (params : PTPParams) (oi : PTPObjectInfo) (s : CString)

theorem oiSent_eq :
    oiSent params oi s = fieldsBytes params.byteorder (oiFields params.ocs64 oi) ++
      (packedText params s ++ [0, 0, 0]) := by
  rw [oiSent, oiWire, List.append_assoc]

theorem oiTailAt_sent : OITailAt params (oiSent params oi s) (oiShift params.ocs64) oi := by
  rw [oiSent_eq]
  exact oiTailAt_fields params.ocs64 oi _

theorem oiHeadAt_sent : OIHeadAt params (oiSent params oi s) oi := by
  rw [oiSent_eq]
  exact oiHeadAt_fields params.ocs64 oi _

theorem oiSizeAt_sent : dtoh32ap params (oiSent params oi s) 8 =
    some (UInt32.ofNat (oi.objectCompressedSize.toNat % 2 ^ 32)) := by
  rw [oiSent_eq]
  exact oiSizeAt_fields params.ocs64 oi _

theorem sent_filenamelen :
    dtoh8a (oiSent params oi s) (oiShift params.ocs64 + 52) =
      some (UInt8.ofNat (s.length + 1)) := by
  have hlen := length_oiFields params.byteorder params.ocs64 oi
  rw [oiSent_eq, dtoh8a, ← hlen, List.getElem?_append_right (Nat.le_refl _), Nat.sub_self]
  rfl

theorem looksOcs64_sent {s : CString} (htext : IsText s) :
    looksOcs64 (oiSent params oi s) =
      some (decide (params.ocs64 = true ∧ SequenceLooksEmpty params oi)) := by
  have hlen := htext.length
  have hne := ofNat_ne_zero (Nat.succ_pos s.length) (by omega)
  have hname := sent_filenamelen params oi s
  unfold looksOcs64
  cases hocs : params.ocs64 with
  | false =>
    rw [hocs] at hname
    have hname : dtoh8a (oiSent params oi s) 52 = some (UInt8.ofNat (s.length + 1)) := hname
    simp only [hname, Option.bind_some, hne, if_false, Bool.false_eq_true, false_and,
      decide_false]
  | true =>
    -- what stands where a filename would start is the sequence number
    have hseq := dtoh32ap_eq_some.mp (oiTailAt_sent params oi s).sequenceNumber
    rw [hocs] at hname hseq
    have hname : dtoh8a (oiSent params oi s) 56 = some (UInt8.ofNat (s.length + 1)) := hname
    have hbyte : dtoh8a (oiSent params oi s) 52 = (htod32ap params oi.sequenceNumber)[0]? :=
      slice_getElem? hseq (by decide : 0 < 4)
    obtain ⟨b, hb⟩ : ∃ b, (htod32ap params oi.sequenceNumber)[0]? = some b :=
      ⟨_, List.getElem?_eq_getElem (by simp [htod32ap])⟩
    have hempty : SequenceLooksEmpty params oi ↔ b = 0 := by
      rw [SequenceLooksEmpty, hb, Option.some.injEq]
    rw [hbyte, hb]
    by_cases h0 : b = 0
    · rw [Option.bind_some, if_pos h0, hname, Option.map_some, decide_eq_true hne,
        decide_eq_true ⟨rfl, hempty.mpr h0⟩]
    · simp [h0, hempty]

end

/-! ### Reading four bytes too early -/

theorem same_byte {bs : List UInt8} {w off off' i : Nat} (h : slice data off w = some bs)
    (h' : slice data off' w = some bs) (hi : i < w) : data[off + i]? = data[off' + i]? := by
  rw [slice_getElem? h hi, slice_getElem? h' hi]

/-- Where all fields are found in their place and four bytes earlier, a zero in front of them
goes on to their end. -/
theorem misread_zero (h : OITailAt params data 4 oi) (h' : OITailAt params data 0 oi)
    (hzero : data[12]? = some 0) : data[52]? = some 0 := by
  have e16 : ∀ {off x}, dtoh16ap params data (0 + off) = some x →
      dtoh16ap params data (4 + off) = some x → ∀ i < 2, data[4 + off + i]? = data[0 + off + i]? :=
    fun h h' i hi => same_byte (dtoh16ap_eq_some.mp h') (dtoh16ap_eq_some.mp h) hi
  have e32 : ∀ {off x}, dtoh32ap params data (0 + off) = some x →
      dtoh32ap params data (4 + off) = some x → ∀ i < 4, data[4 + off + i]? = data[0 + off + i]? :=
    fun h h' i hi => same_byte (dtoh32ap_eq_some.mp h') (dtoh32ap_eq_some.mp h) hi
  calc data[52]? = data[48]? := e32 h'.sequenceNumber h.sequenceNumber 0 (by decide)
    _ = data[44]? := e32 h'.associationDesc h.associationDesc 0 (by decide)
    _ = data[40]? := e32 h'.parentObject h.parentObject 2 (by decide)
    _ = data[36]? := e32 h'.imageBitDepth h.imageBitDepth 2 (by decide)
    _ = data[32]? := e32 h'.imagePixHeight h.imagePixHeight 2 (by decide)
    _ = data[28]? := e32 h'.imagePixWidth h.imagePixWidth 2 (by decide)
    _ = data[24]? := e32 h'.thumbPixHeight h.thumbPixHeight 2 (by decide)
    _ = data[20]? := e32 h'.thumbPixWidth h.thumbPixWidth 2 (by decide)
    _ = data[16]? := e32 h'.thumbCompressedSize h.thumbCompressedSize 2 (by decide)
    _ = data[12]? := e16 h'.thumbFormat h.thumbFormat 0 (by decide)
    _ = some 0 := hzero

theorem sent_size_zero (s : CString) (hocs : params.ocs64 = true) :
    (oiSent params oi s)[12]? = some 0 := by
  have hfound : slice (fieldsBytes params.byteorder (oiFields true oi) ++
      (packedText params s ++ [0, 0, 0])) (fieldOffset (oiFields true oi) 4) 4 =
        some (params.byteorder.encode 4 0) := slice_fieldsBytes rfl _
  have hoff : fieldOffset (oiFields true oi) 4 = 12 := by simp [fieldOffset, oiFields]
  have hbytes : (params.byteorder.encode 4 0)[0]? = some 0 := by
    cases params.byteorder <;> decide
  rw [hoff] at hfound
  rw [oiSent_eq, hocs, ← hbytes]
  exact slice_getElem? hfound (by decide : 0 < 4)

/-- Where the unpacker takes a 64-bit object size for one of 32 bits, some field comes back
wrong. -/
theorem misread_not_same {oi' : PTPObjectInfo} {s : CString} (hocs : params.ocs64 = true)
    (hseq : ¬ SequenceLooksEmpty params oi)
    (htail : OITailAt params (oiSent params oi s) 0 oi') : oi'.packedFields ≠ oi.packedFields := by
  intro hsame
  have htail' : OITailAt params (oiSent params oi s) 0 oi'.packedFields := { htail with }
  rw [hsame] at htail'
  have hright : OITailAt params (oiSent params oi s) 4 oi := by
    have h := oiTailAt_sent params oi s
    rwa [hocs] at h
  have hzero := misread_zero hright { htail' with } (sent_size_zero s hocs)
  have hbyte : (oiSent params oi s)[52]? = (htod32ap params oi.sequenceNumber)[0]? :=
    slice_getElem? (dtoh32ap_eq_some.mp hright.sequenceNumber) (by decide : 0 < 4)
  exact hseq (hbyte.symm.trans hzero)

/-! ### Reading at the right place -/

/-- The fields in front of the filename, whether the object size has 64 bits or not. -/
theorem oiData_sent (params : PTPParams) (oi : PTPObjectInfo) (s : CString) :
    ∃ pre, pre.length = 52 ∧
      oiData (oiSent params oi s) params.ocs64 = pre ++ packedText params s ++ [0, 0, 0] := by
  have hlen := length_oiFields params.byteorder params.ocs64 oi
  refine ⟨(fieldsBytes params.byteorder (oiFields params.ocs64 oi)).drop (oiShift params.ocs64),
    by rw [List.length_drop, hlen, Nat.add_sub_cancel_left], ?_⟩
  rw [oiSent_eq, List.append_assoc]
  cases hocs : params.ocs64 with
  | false => rfl
  | true =>
    rw [hocs] at hlen
    show (fieldsBytes params.byteorder (oiFields true oi) ++ _).drop 4 = _
    rw [List.drop_append_of_le_length (by rw [hlen]; decide)]
    rfl

theorem sent_whole {pre : List UInt8} {s : CString} (htext : IsText s) (hpre : pre.length = 52) :
    Whole params (pre ++ packedText params s ++ [0, 0, 0]) oiLayout 0 := by
  have hlen := htext.length
  have hnat : (UInt8.ofNat (s.length + 1)).toNat = s.length + 1 := by
    rw [UInt8.toNat_ofNat']
    omega
  have htotal : (pre ++ packedText params s ++ [0, 0, 0]).length = 58 + 2 * s.length := by
    rw [List.length_append, List.length_append, hpre, length_packedText]
    show 52 + (2 * s.length + 3) + 3 = _
    omega
  have hname : dtoh8a (pre ++ packedText params s ++ [0, 0, 0]) 52 =
      some (UInt8.ofNat (s.length + 1)) := by
    simp [dtoh8a, packedText, hpre]
  have hdate : ∀ i < 2, dtoh8a (pre ++ packedText params s ++ [0, 0, 0])
      (55 + 2 * s.length + i) = some 0 := by
    intro i hi
    have hfront : (pre ++ packedText params s).length = 55 + 2 * s.length := by
      rw [List.length_append, hpre, length_packedText]
      omega
    rw [dtoh8a, ← hfront, List.getElem?_append_right (Nat.le_add_right _ _),
      Nat.add_sub_cancel_left]
    obtain rfl | rfl : i = 0 ∨ i = 1 := by omega
    · rfl
    · rfl
  rw [oiLayout, whole_fixed]
  refine ⟨by omega, 55 + 2 * s.length, ⟨by show 52 < 2 ^ 16; omega, _,
    by rw [itemLength, hname, Option.map_some], by rw [hnat]; omega, by omega⟩,
    56 + 2 * s.length, ⟨by show 55 + 2 * s.length < 2 ^ 16; omega, 1, ?_, by omega, by omega⟩,
    57 + 2 * s.length, ⟨by show 56 + 2 * s.length < 2 ^ 16; omega, 1, ?_, by omega, by omega⟩,
    trivial⟩
  · have h0 := hdate 0 (by decide)
    rw [Nat.add_zero] at h0
    rw [itemLength, h0]
    rfl
  · rw [itemLength, show 56 + 2 * s.length = 55 + 2 * s.length + 1 by omega,
      hdate 1 (by decide)]
    rfl

theorem packedFields_eq {oi' : PTPObjectInfo} {shift : Nat} (hhead : OIHeadAt params data oi)
    (hhead' : OIHeadAt params data oi') (htail : OITailAt params data shift oi)
    (htail' : OITailAt params data shift oi')
    (hsize : oi'.objectCompressedSize = oi.objectCompressedSize)
    (hname : oi'.filename = oi.filename) : oi'.packedFields = oi.packedFields := by
  have hsame : ∀ {α : Type} {x y : α} {o : Option α}, o = some x → o = some y → y = x :=
    fun h h' => (Option.some.inj (h.symm.trans h')).symm
  unfold PTPObjectInfo.packedFields
  rw [hsize, hname, hsame hhead.storageID hhead'.storageID,
    hsame hhead.objectFormat hhead'.objectFormat,
    hsame hhead.protectionStatus hhead'.protectionStatus,
    hsame htail.thumbFormat htail'.thumbFormat,
    hsame htail.thumbCompressedSize htail'.thumbCompressedSize,
    hsame htail.thumbPixWidth htail'.thumbPixWidth,
    hsame htail.thumbPixHeight htail'.thumbPixHeight,
    hsame htail.imagePixWidth htail'.imagePixWidth,
    hsame htail.imagePixHeight htail'.imagePixHeight,
    hsame htail.imageBitDepth htail'.imageBitDepth,
    hsame htail.parentObject htail'.parentObject,
    hsame htail.associationType htail'.associationType,
    hsame htail.associationDesc htail'.associationDesc,
    hsame htail.sequenceNumber htail'.sequenceNumber]

theorem size_comes_back {size : UInt64} :
    (UInt32.ofNat (size.toNat % 2 ^ 32)).toUInt64 = size ↔ size.toNat < 2 ^ 32 := by
  have hlt : size.toNat % 2 ^ 32 < 2 ^ 32 := Nat.mod_lt _ (Nat.two_pow_pos 32)
  rw [← UInt64.toNat_inj, UInt32.toNat_toUInt64, UInt32.toNat_ofNat_of_lt' hlt]
  omega

theorem OIRoundTrips.read {mktime : Tm → Int} {s : CString} (hcd : params.Converts)
    (hs : oi.filename = some s) (htext : IsText s) (h : OIRoundTrips params mktime oi) :
    ∃ oi' x len,
      oi'.packedFields = oi.packedFields ∧
      dtoh32ap params (oiSent params oi s) 8 = some x ∧
      oi'.objectCompressedSize = x.toUInt64 ∧
      OITailAt params (oiSent params oi s)
        (oiShift (decide (params.ocs64 = true ∧ SequenceLooksEmpty params oi))) oi' ∧
      ptpUnpackString params (oiData (oiSent params oi s)
        (decide (params.ocs64 = true ∧ SequenceLooksEmpty params oi))) 52 =
          some (oi'.filename, len) := by
  obtain ⟨packed, hpack, -, -, -, hsent⟩ := ptpPackOI_text hcd hs htext
  obtain ⟨packed', hpack', -, -, hback⟩ := h
  cases hpack.symm.trans hpack'
  obtain ⟨oi', ocs64, st, hrun, hsame⟩ := hback .zero
  rw [hsent] at hrun
  obtain ⟨hguess, -, ⟨x, hx, hsize⟩, htail, len, hstring⟩ := ptpUnpackOI_eq_ok hrun
  cases (looksOcs64_sent params oi htext).symm.trans hguess
  exact ⟨oi', x, len, hsame, hx, hsize, htail, hstring⟩

/-- With a 64-bit object size, a sequence number that starts with another byte than zero is
taken for a filename. -/
theorem OIRoundTrips.sequence {mktime : Tm → Int} {s : CString} (hcd : params.Converts)
    (hs : oi.filename = some s) (htext : IsText s) (h : OIRoundTrips params mktime oi)
    (hocs : params.ocs64 = true) : SequenceLooksEmpty params oi := by
  obtain ⟨oi', -, -, hsame, -, -, htail, -⟩ := h.read hcd hs htext
  by_contra hseq
  rw [decide_eq_false (fun h => hseq h.2)] at htail
  exact misread_not_same hocs hseq htail hsame

/-- The guess is right if the sequence number of a 64-bit layout looks empty. -/
theorem guess_right (h : params.ocs64 = true → SequenceLooksEmpty params oi) :
    decide (params.ocs64 = true ∧ SequenceLooksEmpty params oi) = params.ocs64 := by
  cases hocs : params.ocs64 with
  | false => simp
  | true => simp [h hocs]

/-- An object info comes back exactly if its object size has 32 bits, the guess at the width of
the object size is right, and the filename comes back. -/
theorem packOI_roundTrip_iff (params : PTPParams) (mktime : Tm → Int) (oi : PTPObjectInfo)
    (hcd : params.Converts) (hfits : oi.FitsWire params) :
    OIRoundTrips params mktime oi ↔
      oi.objectCompressedSize.toNat < 2 ^ 32 ∧
      (params.ocs64 = true → SequenceLooksEmpty params oi) ∧
      ∀ s, oi.filename = some s → charOrder params = params.byteorder ∨ ∀ c ∈ s, c = '?' := by
  obtain ⟨s, hs, htext⟩ := hfits.filename
  have hlen := htext.length
  obtain ⟨packed, hpack, hwritten, hlength, hroom, hsent⟩ := ptpPackOI_text hcd hs htext
  have hsent : packed.oidata.take packed.length = oiSent params oi s := hsent
  have htotal : (oiSent params oi s).length < 2 ^ 32 := by
    have hshift : oiShift params.ocs64 ≤ 4 := by cases params.ocs64 <;> decide
    rw [oiSent, List.length_append, length_oiWire]
    show oiShift params.ocs64 + 55 + 2 * s.length + 3 < 2 ^ 32
    omega
  obtain ⟨pre, hpre, hdata⟩ := oiData_sent params oi s
  have hread := ptpUnpackString_text hcd htext pre [0, 0, 0] (by omega)
  rw [hpre, ← hdata] at hread
  constructor
  · intro hback
    have hseq := fun hocs => hback.sequence hcd hs htext hocs
    obtain ⟨oi', x, len, hsame, hx, hsize, -, hstring⟩ := hback.read hcd hs htext
    refine ⟨?_, hseq, ?_⟩
    · cases (oiSizeAt_sent params oi s).symm.trans hx
      have hsize' : oi'.packedFields.objectCompressedSize =
        oi.packedFields.objectCompressedSize := by rw [hsame]
      exact size_comes_back.mp (hsize.symm.trans hsize')
    · intro s' hs'
      cases hs.symm.trans hs'
      rw [guess_right hseq] at hstring
      have hfile : oi'.packedFields.filename = oi.packedFields.filename := by rw [hsame]
      have hsome : some (readBack params s) = oi'.filename :=
        congrArg Prod.fst (Option.some.inj (hread.symm.trans hstring))
      exact readBack_eq_iff.mp (Option.some.inj (hsome.trans (hfile.trans hs)))
  · rintro ⟨hsmall, hseq, hchars⟩
    have hlooks := looksOcs64_sent params oi htext
    rw [guess_right hseq] at hlooks
    refine ⟨packed, hpack, by omega, hroom, fun oi₀ => ?_⟩
    rw [hsent]
    have hwhole : Whole params (oiData (oiSent params oi s) params.ocs64) oiLayout 0 := by
      rw [hdata]
      exact sent_whole htext hpre
    obtain ⟨⟨oi', ocs64⟩, st, hrun, -⟩ :=
      (unpackOI_inData_iff mktime oi₀ htotal).mpr ⟨params.ocs64, hlooks, hwhole⟩
    obtain ⟨hlooks', hhead, ⟨x, hx, hsize⟩, htail, len, hstring⟩ := ptpUnpackOI_eq_ok hrun
    cases hlooks.symm.trans hlooks'
    cases (oiSizeAt_sent params oi s).symm.trans hx
    have hsome : some (readBack params s) = oi'.filename :=
      congrArg Prod.fst (Option.some.inj (hread.symm.trans hstring))
    have hname : oi'.filename = oi.filename := by
      rw [← hsome, hs, readBack_eq_iff.mpr (hchars s hs)]
    exact ⟨oi', params.ocs64, st, hrun, packedFields_eq (oiHeadAt_sent params oi s) hhead
      (oiTailAt_sent params oi s) htail (hsize.trans (size_comes_back.mpr hsmall)) hname⟩

/-- An object of five bytes, called "a". -/
def smallObject : PTPObjectInfo :=
  { PTPObjectInfo.zero with objectCompressedSize := 5, filename := some ['a'] }

theorem packOI_roundTrip_small :
    OIRoundTrips ⟨.little, none, true⟩ (fun _ => 0) smallObject ↔
      smallObject.objectCompressedSize.toNat < 2 ^ 32 ∧
      (true = true → SequenceLooksEmpty ⟨.little, none, true⟩ smallObject) ∧
      ∀ s, smallObject.filename = some s →
        charOrder ⟨.little, none, true⟩ = .little ∨ ∀ c ∈ s, c = '?' :=
  packOI_roundTrip_iff ⟨.little, none, true⟩ (fun _ => 0) smallObject
    (fun _ h => by cases h) ⟨⟨['a'], rfl, by simp, by simp⟩, fun h => by cases h⟩

/-- With sequence number 1 its fields are read four bytes too early. -/
theorem packOI_misreads_sequence :
    ¬ ∀ (params : PTPParams) (mktime : Tm → Int) (oi : PTPObjectInfo), params.Converts →
      oi.FitsWire params → OIRoundTrips params mktime oi := by
  intro h
  have htext : IsText ['a'] := ⟨by simp, by simp⟩
  have hcd : PTPParams.Converts ⟨.little, none, true⟩ := fun _ h => by cases h
  have hback := h ⟨.little, none, true⟩ (fun _ => 0) { smallObject with sequenceNumber := 1 } hcd
    ⟨⟨['a'], rfl, htext⟩, fun h => by cases h⟩
  exact absurd (hback.sequence hcd rfl htext rfl) (by decide)

end GPhoto2
