import GPhoto2.Ptp.PropertyValue

/-!
# `GPhoto2.Proofs.Ptp.PropertyValue`: what `ptp_unpack_DPV` reads

`valueAt` is the value that starts at an offset, if all its bytes are in the data.
`ptpUnpackDPV_whole` says that `ptp_unpack_DPV` returns it and moves the offset to its end. If
it is not whole, the integers and the arrays of integers are refused
(`ptpUnpackDPV_refused`); the other types are not checked, and the offset leaves the data
(`ptpUnpackDPV_fails`).
-/

set_option autoImplicit false

namespace GPhoto2

open Lib
open Option (bind_eq_some_iff map_eq_some_iff)
open Lib.Comp (bind_assoc bind_run_error bind_run_ok pure_run)
open List (append_assoc cons_append flatMap_cons length_append length_cons map_id mem_map
  nil_append)
open ByteOrder (decode_encode length_encode)

variable {params : PTPParams} {data : List UInt8} {total : Nat}

/-! ### Whole values -/

/-- The integer that starts at an offset. -/
def scalarAt (params : PTPParams) (data : List UInt8) (t : ScalarType) (off : Nat) :
    Option PTPScalar :=
  (slice data off t.size).map fun bs => t.ofBits (params.byteorder.decode bs)

/-- `n` integers from an offset on. -/
def scalarsAt (params : PTPParams) (data : List UInt8) (t : ScalarType) :
    Nat → Nat → Option (List PTPScalar)
  | 0, _ => some []
  | n + 1, off => (scalarAt params data t off).bind fun x =>
    (scalarsAt params data t n (off + t.size)).map fun v => x :: v

/-- The value that starts at an offset, if it is whole, and where it ends. A string is looked
for at the offset modulo 2^16. -/
def valueAt (params : PTPParams) (data : List UInt8) (datatype : UInt16) (off : Nat) :
    Option (PTPPropertyValue × Nat) :=
  match dataType datatype with
  | some (.scalar t) => (scalarAt params data t off).map fun x => (.scalar x, off + t.size)
  | some .int128 => (slice data off 16).map fun _ => (.unset, off + 16)
  | some .uint128 => (slice data off 16).map fun _ => (.unset, off + 16)
  | some (.array t) => (dtoh32ap params data off).bind fun n =>
    (scalarsAt params data t n.toNat (off + 4)).map fun v =>
      (.array v, off + 4 + n.toNat * t.size)
  | some .str => (ptpUnpackString params data (UInt16.ofNat off)).bind fun (s, len) =>
    if off + (len.toNat * 2 + 1) ≤ data.length then
      some (.str s, off + (len.toNat * 2 + 1))
    else none
  | none => none

/-- The types whose values `ptp_unpack_DPV` does not check against the total. -/
def IsUnchecked (datatype : UInt16) : Prop :=
  dataType datatype = some .int128 ∨ dataType datatype = some .uint128 ∨
    dataType datatype = some .str

instance (datatype : UInt16) : Decidable (IsUnchecked datatype) :=
  inferInstanceAs (Decidable (_ ∨ _ ∨ _))

theorem ScalarType.size_pos (t : ScalarType) : 0 < t.size := by cases t <;> decide

theorem ScalarType.size_le (t : ScalarType) : t.size ≤ 8 := by cases t <;> decide

/-! ### Primitive steps -/

section
variable {c : Cursor}

theorem advance_run {n : Nat} (h : c.offset + n < 2 ^ 32) :
    advance n c = some (.ok (), ⟨c.offset + n, c.wrapped⟩) := by
  have hle : ¬ 2 ^ 32 ≤ c.offset + n := by omega
  simp only [advance, Comp.modify, Nat.mod_eq_of_lt h, decide_eq_false hle, Bool.or_false]

theorem remaining_run (h : c.offset ≤ total) :
    remaining total c = some (.ok (total - c.offset), c) := by
  unfold remaining
  rw [Comp.get_bind_run, if_pos h]
  rfl

theorem peek_run {α : Type} {read : Nat → Option α} {a : α} (h : read c.offset = some a) :
    peek read c = some (.ok a, c) := by
  rw [peek, h]
  rfl

theorem peek_none {α : Type} {read : Nat → Option α} (h : read c.offset = none) :
    peek read c = none := by
  rw [peek, h]
  rfl

variable {t : ScalarType}

theorem ctval_whole {x : PTPScalar} (htotal : data.length < 2 ^ 32)
    (h : scalarAt params data t c.offset = some x) :
    ctval params data data.length t c = some (.ok x, ⟨c.offset + t.size, c.wrapped⟩) := by
  obtain ⟨bs, hbs, rfl⟩ := map_eq_some_iff.mp h
  have hle := (slice_eq_some.mp hbs).1
  unfold ctval
  rw [bind_run_ok (remaining_run (by omega)), if_neg (by omega),
    bind_run_ok (peek_run hbs), bind_run_ok (advance_run (by omega))]
  rfl

theorem ctval_refused (hc : c.offset ≤ data.length)
    (h : scalarAt params data t c.offset = none) :
    ctval params data data.length t c = some (.error (), c) := by
  have hlt := slice_eq_none.mp (Option.map_eq_none_iff.mp h)
  unfold ctval
  rw [bind_run_ok (remaining_run hc), if_pos (by omega)]
  rfl

theorem scalarAt_le {off : Nat} {x : PTPScalar}
    (h : scalarAt params data t off = some x) : off + t.size ≤ data.length := by
  obtain ⟨bs, hbs, -⟩ := map_eq_some_iff.mp h
  exact (slice_eq_some.mp hbs).1

theorem scalarsAt_le {n off : Nat} {v : List PTPScalar}
    (hoff : off ≤ data.length) (h : scalarsAt params data t n off = some v) :
    off + n * t.size ≤ data.length := by
  induction n generalizing off v with
  | zero => omega
  | succ n ih =>
    obtain ⟨x, hx, hrest⟩ := bind_eq_some_iff.mp h
    obtain ⟨v', hv', -⟩ := map_eq_some_iff.mp hrest
    have := ih (scalarAt_le hx) hv'
    rw [Nat.succ_mul]
    omega

theorem rarrLoop_whole {n : Nat} {v : List PTPScalar}
    (htotal : data.length < 2 ^ 32) (h : scalarsAt params data t n c.offset = some v) :
    rarrLoop params data data.length t n c =
      some (.ok v, ⟨c.offset + n * t.size, c.wrapped⟩) := by
  induction n generalizing c v with
  | zero =>
    cases h
    simp [rarrLoop]
  | succ n ih =>
    obtain ⟨x, hx, hrest⟩ := bind_eq_some_iff.mp h
    obtain ⟨v', hv', rfl⟩ := map_eq_some_iff.mp hrest
    unfold rarrLoop
    rw [bind_run_ok (ctval_whole htotal hx), bind_run_ok (ih hv')]
    show some (_, Cursor.mk (c.offset + t.size + n * t.size) _) = _
    rw [Nat.succ_mul, Nat.add_assoc, Nat.add_comm t.size]

/-- An array that is cut off is refused, at an offset that is still in the data. -/
theorem rarrLoop_refused {n : Nat} (htotal : data.length < 2 ^ 32)
    (hc : c.offset ≤ data.length) (h : scalarsAt params data t n c.offset = none) :
    ∃ c', rarrLoop params data data.length t n c = some (.error (), c') ∧
      c'.offset ≤ data.length ∧ c'.wrapped = c.wrapped := by
  induction n generalizing c with
  | zero => cases h
  | succ n ih =>
    unfold rarrLoop
    cases hx : scalarAt params data t c.offset with
    | none =>
      rw [bind_run_error (ctval_refused hc hx)]
      exact ⟨c, rfl, hc, rfl⟩
    | some x =>
      have hrest : scalarsAt params data t n (c.offset + t.size) = none := by
        simpa [scalarsAt, hx] using h
      obtain ⟨c', hrun, hle, hw⟩ :=
        ih (c := ⟨c.offset + t.size, c.wrapped⟩) (scalarAt_le hx) hrest
      rw [bind_run_ok (ctval_whole htotal hx), bind_run_error hrun]
      exact ⟨c', rfl, hle, hw⟩

/-! ### `ptp_unpack_DPV` -/

theorem dtoh32ap_le {off : Nat} {n : UInt32} (h : dtoh32ap params data off = some n) :
    off + 4 ≤ data.length := by
  obtain ⟨bs, hbs, -⟩ := map_eq_some_iff.mp h
  exact (slice_eq_some.mp hbs).1

variable {datatype : UInt16}

theorem valueAt_le {off e : Nat} {v : PTPPropertyValue}
    (h : valueAt params data datatype off = some (v, e)) : off < e ∧ e ≤ data.length := by
  unfold valueAt at h
  split at h
  · rename_i t ht
    obtain ⟨x, hx, he⟩ := map_eq_some_iff.mp h
    cases he
    have hpos := t.size_pos
    exact ⟨by omega, scalarAt_le hx⟩
  · obtain ⟨bs, hbs, he⟩ := map_eq_some_iff.mp h
    cases he
    exact ⟨by omega, (slice_eq_some.mp hbs).1⟩
  · obtain ⟨bs, hbs, he⟩ := map_eq_some_iff.mp h
    cases he
    exact ⟨by omega, (slice_eq_some.mp hbs).1⟩
  · obtain ⟨n, hn, hrest⟩ := bind_eq_some_iff.mp h
    obtain ⟨xs, hxs, he⟩ := map_eq_some_iff.mp hrest
    cases he
    exact ⟨by omega, scalarsAt_le (dtoh32ap_le hn) hxs⟩
  · obtain ⟨⟨s, len⟩, -, hrest⟩ := bind_eq_some_iff.mp h
    simp only at hrest
    split at hrest
    · cases hrest
      exact ⟨by omega, by assumption⟩
    · cases hrest
  · cases h

theorem ptpUnpackDPV_whole {v : PTPPropertyValue} {e : Nat}
    (htotal : data.length < 2 ^ 32) (h : valueAt params data datatype c.offset = some (v, e)) :
    ptpUnpackDPV params data data.length datatype c = some (.ok v, ⟨e, c.wrapped⟩) := by
  have hle := (valueAt_le h).2
  unfold valueAt at h
  unfold ptpUnpackDPV
  split at h
  · rename_i t ht
    obtain ⟨x, hx, he⟩ := map_eq_some_iff.mp h
    cases he
    rw [ht]
    simp only [bind_run_ok (ctval_whole htotal hx), pure_run]
  · rename_i ht
    obtain ⟨bs, hbs, he⟩ := map_eq_some_iff.mp h
    cases he
    rw [ht]
    simp only [bind_run_ok (advance_run (n := 16) (Nat.lt_of_le_of_lt hle htotal)),
      pure_run]
  · rename_i ht
    obtain ⟨bs, hbs, he⟩ := map_eq_some_iff.mp h
    cases he
    rw [ht]
    simp only [bind_run_ok (advance_run (n := 16) (Nat.lt_of_le_of_lt hle htotal)),
      pure_run]
  · rename_i t ht
    obtain ⟨n, hn, hrest⟩ := bind_eq_some_iff.mp h
    obtain ⟨xs, hxs, he⟩ := map_eq_some_iff.mp hrest
    cases he
    have h4 := dtoh32ap_le hn
    have hloop := rarrLoop_whole (c := ⟨c.offset + 4, c.wrapped⟩) htotal hxs
    rw [ht]
    simp only [rarr]
    rw [bind_assoc, bind_run_ok (remaining_run (by omega)), if_neg (by omega),
      bind_assoc, bind_run_ok (peek_run hn), bind_assoc,
      bind_run_ok (advance_run (by omega)), bind_run_ok hloop]
    rfl
  · rename_i ht
    obtain ⟨⟨s, len⟩, hs, hrest⟩ := bind_eq_some_iff.mp h
    simp only at hrest
    split at hrest
    · cases hrest
      rw [ht]
      simp only []
      rw [bind_run_ok (peek_run hs)]
      simp only [bind_run_ok (advance_run (n := len.toNat * 2 + 1)
        (Nat.lt_of_le_of_lt hle htotal)), pure_run]
    · cases hrest
  · cases h

/-- An integer or an array that is cut off is refused, and so is a type that is not known. -/
theorem ptpUnpackDPV_refused (htotal : data.length < 2 ^ 32)
    (hc : c.offset ≤ data.length) (hchecked : ¬ IsUnchecked datatype)
    (h : valueAt params data datatype c.offset = none) :
    ∃ c', ptpUnpackDPV params data data.length datatype c = some (.error (), c') ∧
      c'.offset ≤ data.length ∧ c'.wrapped = c.wrapped := by
  unfold valueAt at h
  unfold ptpUnpackDPV
  split at h
  · rename_i t ht
    rw [ht]
    simp only [bind_run_error (ctval_refused hc (Option.map_eq_none_iff.mp h))]
    exact ⟨c, rfl, hc, rfl⟩
  · rename_i ht
    exact absurd (Or.inl ht) hchecked
  · rename_i ht
    exact absurd (Or.inr (Or.inl ht)) hchecked
  · rename_i t ht
    rw [ht]
    simp only [rarr]
    rw [bind_assoc, bind_run_ok (remaining_run hc)]
    by_cases h4 : data.length - c.offset < 4
    · rw [if_pos h4]
      exact ⟨c, rfl, hc, rfl⟩
    · obtain ⟨n, hn⟩ : ∃ n, dtoh32ap params data c.offset = some n := by
        rw [← Option.isSome_iff_exists, dtoh32ap, Option.isSome_map, slice_isSome]
        omega
      have hrest : scalarsAt params data t n.toNat (c.offset + 4) = none := by
        simpa [hn] using h
      obtain ⟨c', hrun, hle, hw⟩ := rarrLoop_refused (c := ⟨c.offset + 4, c.wrapped⟩) htotal
        (by show c.offset + 4 ≤ _; omega) hrest
      rw [if_neg h4, bind_assoc, bind_run_ok (peek_run hn), bind_assoc,
        bind_run_ok (advance_run (by omega)), bind_run_error hrun]
      exact ⟨c', rfl, hle, hw⟩
  · rename_i ht
    exact absurd (Or.inr (Or.inr ht)) hchecked
  · rename_i ht
    rw [ht]
    exact ⟨c, rfl, hc, rfl⟩

end

/-! ## Strings packed and read back

`ptpPackString_text` is what `ptp_pack_string` writes for an ASCII text, and
`ptpUnpackString_text` what `ptp_unpack_string` makes of it. Without `iconv` the characters are
written in the byte order of the host and read in the one of the device, so a big-endian device
sees other characters, and the text comes back as question marks (`readBack`).
-/

variable {params : PTPParams} {s : CString}

/-- An ASCII text that fits into a PTP string. -/
structure IsText (s : CString) : Prop where
  ascii : ∀ c ∈ s, 0 < c.toNat ∧ c.toNat < 128
  length : s.length ≤ 254

/-- What `iconv` is documented to do for ASCII texts: their characters have the same code in
UCS-2, in the byte order the descriptor was opened with. -/
structure Iconv.Converts (cd : Iconv) (order : ByteOrder) : Prop where
  toUcs2 : ∀ s, IsText s → cd.toUcs2 s = some (s.flatMap fun c => order.encode 2 c.toNat)
  toLocale : ∀ s, IsText s →
    cd.toLocale ((s.flatMap fun c => order.encode 2 c.toNat) ++ [0, 0]) = some (s ++ ['\x00'])

/-- The byte order in which the characters are written. -/
def charOrder (params : PTPParams) : ByteOrder :=
  if params.iconv.isSome then params.byteorder else .little

/-- The descriptors of a session, if there are any, convert ASCII texts. -/
def PTPParams.Converts (params : PTPParams) : Prop :=
  ∀ cd, params.iconv = some cd → cd.Converts params.byteorder

/-- The text that comes back. -/
def readBack (params : PTPParams) (s : CString) : CString :=
  if charOrder params = params.byteorder then s else s.map fun _ => '?'

theorem readBack_eq_iff :
    readBack params s = s ↔ charOrder params = params.byteorder ∨ ∀ c ∈ s, c = '?' := by
  unfold readBack
  by_cases h : charOrder params = params.byteorder
  · simp [h]
  · simp only [h, if_false, false_or]
    constructor
    · intro he c hc
      rw [← he] at hc
      obtain ⟨-, -, rfl⟩ := mem_map.mp hc
      rfl
    · intro hall
      rw [List.map_congr_left (g := id) fun c hc => (hall c hc).symm, map_id]

/-- The characters of a text, in memory. -/
def textUnits (order : ByteOrder) (s : CString) : List UInt8 :=
  s.flatMap fun c => order.encode 2 c.toNat

variable (order : ByteOrder)

@[simp] theorem length_textUnits (s : CString) :
    (textUnits order s).length = 2 * s.length := by
  induction s with
  | nil => rfl
  | cons c s ih =>
    simp only [textUnits, flatMap_cons, length_append, length_encode,
      length_cons] at ih ⊢
    omega

theorem encode_ascii {n : Nat} (h : n < 256) :
    order.encode 2 n = match order with
      | .little => [UInt8.ofNat n, 0]
      | .big => [0, UInt8.ofNat n] := by
  have hdiv : n / 256 = 0 := by omega
  cases order <;> simp [ByteOrder.encode, toBytes, hdiv]

theorem ofNat_ne_zero {n : Nat} (hpos : 0 < n) (h : n < 256) : UInt8.ofNat n ≠ 0 := by
  intro he
  have := congrArg UInt8.toNat he
  rw [UInt8.toNat_ofNat'] at this
  simp only [UInt8.toNat_zero] at this
  omega

/-- A text in memory has as many characters as it should, in either byte order. -/
theorem ucs2strlen_textUnits (h : ∀ c ∈ s, 0 < c.toNat ∧ c.toNat < 128) :
    ucs2strlen (textUnits order s) = s.length := by
  induction s with
  | nil => rfl
  | cons c s ih =>
    obtain ⟨hpos, hlt⟩ := h c (by simp)
    have hne := ofNat_ne_zero hpos (by omega : c.toNat < 256)
    have ih := ih fun c hc => h c (by simp [hc])
    rw [textUnits, flatMap_cons, encode_ascii order (by omega : c.toNat < 256)]
    cases order with
    | little =>
      simp only [cons_append, nil_append, ucs2strlen, hne, false_and, if_false,
        length_cons]
      rw [← ih]
      rfl
    | big =>
      simp only [cons_append, nil_append, ucs2strlen, hne, and_false, if_false,
        length_cons]
      rw [← ih]
      rfl

theorem ucs2str_text (hcd : params.Converts) (h : IsText s) :
    ucs2str params s = some (textUnits (charOrder params) s) := by
  unfold ucs2str charOrder
  cases hi : params.iconv with
  | some cd =>
    simp only [(hcd cd hi).toUcs2 s h]
    rfl
  | none =>
    have hlen : ¬ ptpMaxstrlen < s.length := by
      have := h.length
      unfold ptpMaxstrlen
      omega
    simp only [hlen, if_false, Option.isSome_none, Bool.false_eq_true]
    congr 1
    refine List.flatMap_congr fun c hc => ?_
    rw [charUnit, if_pos (h.ascii c hc).2]

/-- What `ptp_pack_string` writes for a text: its length with the terminator, its characters
and the terminator. -/
def packedText (params : PTPParams) (s : CString) : List UInt8 :=
  UInt8.ofNat (s.length + 1) :: (textUnits (charOrder params) s ++ [0, 0])

@[simp] theorem length_packedText (params : PTPParams) (s : CString) :
    (packedText params s).length = 2 * s.length + 3 := by
  simp [packedText]

theorem htod16ap_zero (params : PTPParams) : htod16ap params 0 = [0, 0] := by
  unfold htod16ap
  cases params.byteorder <;> decide

theorem ptpPackString_text (hcd : params.Converts) (h : IsText s) :
    ptpPackString params s = some (packedText params s, UInt8.ofNat (s.length + 1)) := by
  have hlen := h.length
  have hle : ¬ ptpMaxstrlen - 1 < s.length := by
    unfold ptpMaxstrlen
    omega
  unfold ptpPackString
  rw [ucs2str_text hcd h]
  simp only [Option.map_some, ucs2strlen_textUnits _ h.ascii, hle, if_false, htod16ap_zero]
  rw [List.take_of_length_le (Nat.le_of_eq (length_textUnits _ s))]
  rfl

/-! ### Reading back -/

theorem ucs2Units_textUnits (params : PTPParams) (order : ByteOrder) (s : CString) :
    ucs2Units params (textUnits order s ++ [0, 0]) =
      (s.map fun c => UInt16.ofNat (params.byteorder.decode (order.encode 2 c.toNat))) ++ [0] := by
  induction s with
  | nil =>
    have hzero : params.byteorder.decode [0, 0] = 0 := ByteOrder.decode_replicate_zero _ 2
    simp [textUnits, ucs2Units, hzero]
  | cons c s ih =>
    obtain ⟨a, b, hab⟩ : ∃ a b, order.encode 2 c.toNat = [a, b] := by
      cases order with
      | little => exact ⟨_, _, rfl⟩
      | big => exact ⟨_, _, rfl⟩
    rw [textUnits, flatMap_cons, hab]
    simp only [cons_append, nil_append, ucs2Units, List.map_cons, hab]
    rw [← ih]
    rfl

theorem localeChar_same {c : Char} (h : 0 < c.toNat ∧ c.toNat < 128) :
    localeChar (UInt16.ofNat c.toNat) = c := by
  have hnat : (UInt16.ofNat c.toNat).toNat = c.toNat := by
    rw [UInt16.toNat_ofNat']
    omega
  have hle : ¬ (127 : UInt16) < UInt16.ofNat c.toNat := by
    rw [UInt16.lt_iff_toNat_lt, hnat]
    simp only [UInt16.reduceToNat]
    omega
  rw [localeChar, if_neg hle, hnat, Char.ofNat_toNat]

theorem localeChar_swapped {n : Nat} (hpos : 0 < n) (h : n < 128) :
    localeChar (UInt16.ofNat (256 * n)) = '?' := by
  have hnat : (UInt16.ofNat (256 * n)).toNat = 256 * n := by
    rw [UInt16.toNat_ofNat']
    omega
  have hlt : (127 : UInt16) < UInt16.ofNat (256 * n) := by
    rw [UInt16.lt_iff_toNat_lt, hnat]
    simp only [UInt16.reduceToNat]
    omega
  rw [localeChar, if_pos hlt]

theorem localeChar_decode {order order' : ByteOrder} {c : Char}
    (h : 0 < c.toNat ∧ c.toNat < 128) :
    localeChar (UInt16.ofNat (order'.decode (order.encode 2 c.toNat))) =
      if order = order' then c else '?' := by
  have h256 : c.toNat < 256 ^ 2 := by omega
  by_cases he : order = order'
  · rw [if_pos he, he, decode_encode _ h256]
    exact localeChar_same h
  · have hswap : order'.decode (order.encode 2 c.toNat) = 256 * c.toNat := by
      have hmod : c.toNat % 256 = c.toNat := Nat.mod_eq_of_lt (by omega)
      rw [encode_ascii order (by omega : c.toNat < 256)]
      cases order <;> cases order' <;>
        simp [ByteOrder.decode, ofBytes, hmod] at he ⊢
    rw [if_neg he, hswap]
    exact localeChar_swapped h.1 h.2

theorem takeWhile_text (h : ∀ c ∈ s, c ≠ '\x00') :
    (s ++ ['\x00']).takeWhile (· ≠ '\x00') = s := by
  rw [List.takeWhile_append_of_pos (by simpa using h)]
  simp

theorem toLocale_text (hcd : params.Converts) (h : IsText s) :
    toLocale params (textUnits (charOrder params) s ++ [0, 0]) = readBack params s := by
  have hne : ∀ c ∈ s, c ≠ '\x00' := by
    rintro c hc rfl
    exact absurd (h.ascii _ hc).1 (by decide)
  unfold toLocale
  cases hi : params.iconv with
  | some cd =>
    have hback : readBack params s = s := by
      rw [readBack, charOrder, hi]
      simp
    have horder : charOrder params = params.byteorder := by
      rw [charOrder, hi]
      rfl
    rw [hback, horder]
    simp only [Option.bind_some]
    rw [textUnits, (hcd cd hi).toLocale s h, Option.getD_some, takeWhile_text hne]
  | none =>
    simp only [Option.bind_none, Option.getD_none]
    rw [ucs2Units_textUnits, List.map_append, List.map_map]
    have hmap : s.map (localeChar ∘ fun c =>
        UInt16.ofNat (params.byteorder.decode ((charOrder params).encode 2 c.toNat))) =
        readBack params s := by
      unfold readBack
      split
      · rename_i he
        rw [List.map_congr_left (g := id) fun c hc => by
          simp only [Function.comp, localeChar_decode (h.ascii c hc), he, if_true, id],
          map_id]
      · rename_i he
        refine List.map_congr_left fun c hc => ?_
        simp only [Function.comp, localeChar_decode (h.ascii c hc), he, if_false]
    rw [hmap, List.map_singleton, show localeChar 0 = '\x00' from rfl]
    refine takeWhile_text fun c hc => ?_
    unfold readBack at hc
    split at hc
    · exact hne c hc
    · obtain ⟨-, -, rfl⟩ := mem_map.mp hc
      decide

/-- A packed text is read back wherever it stands, within the first 2^16 bytes. -/
theorem ptpUnpackString_text (hcd : params.Converts) (h : IsText s) (pre post : List UInt8)
    (hpre : pre.length < 2 ^ 16) :
    ptpUnpackString params (pre ++ packedText params s ++ post) (UInt16.ofNat pre.length) =
      some (some (readBack params s), UInt8.ofNat (s.length + 1)) := by
  have hlen := h.length
  have hoff : (UInt16.ofNat pre.length).toNat = pre.length := by
    rw [UInt16.toNat_ofNat']
    omega
  have hnat : (UInt8.ofNat (s.length + 1)).toNat = s.length + 1 := by
    rw [UInt8.toNat_ofNat']
    omega
  unfold ptpUnpackString
  rw [hoff]
  have hbyte : dtoh8a (pre ++ packedText params s ++ post) pre.length =
      some (UInt8.ofNat (s.length + 1)) := by
    simp [dtoh8a, packedText]
  have hslice : slice (pre ++ packedText params s ++ post) (pre.length + 1)
      (2 * (s.length + 1)) = some (textUnits (charOrder params) s ++ [0, 0]) := by
    have := slice_append (pre ++ [UInt8.ofNat (s.length + 1)])
      (textUnits (charOrder params) s ++ [0, 0]) post
    simpa [packedText, Nat.mul_add] using this
  rw [hbyte]
  simp only [Option.bind_some, ofNat_ne_zero (Nat.succ_pos s.length) (by omega), if_false, hnat,
    hslice, Option.map_some, toLocale_text hcd h]

/-! ## Property values packed and unpacked

`packDPV_roundTrip_iff` says for which values `ptp_unpack_DPV` returns what `ptp_pack_DPV` was
given. Integers and arrays come back in either byte order, arrays as long as their size fits
into an `uint32_t`. Strings come back from a little-endian device, and from a big-endian one if
there is an `iconv`.
-/

open Option (bind_some map_some)

variable {params : PTPParams}

/-! ### Integers -/

theorem PTPScalar.ofBits_bits (x : PTPScalar) : x.type.ofBits x.bits = x := by
  cases x <;> simp [type, bits, ScalarType.ofBits]

theorem PTPScalar.bits_lt (x : PTPScalar) : x.bits < 256 ^ x.type.size := by
  cases x with
  | i8 x => exact x.toUInt8.toNat_lt
  | u8 x => exact x.toNat_lt
  | i16 x => exact x.toUInt16.toNat_lt
  | u16 x => exact x.toNat_lt
  | i32 x => exact x.toUInt32.toNat_lt
  | u32 x => exact x.toNat_lt
  | i64 x => exact x.toUInt64.toNat_lt
  | u64 x => exact x.toNat_lt

/-- The bytes of an integer. -/
def scalarBytes (params : PTPParams) (x : PTPScalar) : List UInt8 :=
  params.byteorder.encode x.type.size x.bits

@[simp] theorem length_scalarBytes (params : PTPParams) (x : PTPScalar) :
    (scalarBytes params x).length = x.type.size := length_encode ..

theorem scalarAt_scalarBytes (x : PTPScalar) (pre post : List UInt8) :
    scalarAt params (pre ++ scalarBytes params x ++ post) x.type pre.length = some x := by
  have h := slice_append pre (scalarBytes params x) post
  rw [length_scalarBytes] at h
  rw [scalarAt, h, map_some, scalarBytes, decode_encode _ x.bits_lt,
    x.ofBits_bits]

theorem scalarsAt_scalarBytes {t : ScalarType} {v : List PTPScalar} (hv : ∀ x ∈ v, x.type = t)
    (pre post : List UInt8) :
    scalarsAt params (pre ++ v.flatMap (scalarBytes params) ++ post) t v.length pre.length =
      some v := by
  induction v generalizing pre with
  | nil => rfl
  | cons x v ih =>
    obtain rfl := hv x (by simp)
    have hx := @scalarAt_scalarBytes params x pre
      (v.flatMap (scalarBytes params) ++ post)
    have hrest := ih (fun y hy => hv y (by simp [hy])) (pre ++ scalarBytes params x)
    simp only [length_append, length_scalarBytes, append_assoc] at hrest
    rw [append_assoc] at hx
    simp only [flatMap_cons, append_assoc, length_cons, scalarsAt, hx,
      bind_some, hrest, map_some]

theorem length_scalarBytes_all {t : ScalarType} {v : List PTPScalar}
    (hv : ∀ x ∈ v, x.type = t) :
    (v.flatMap (scalarBytes params)).length = v.length * t.size := by
  induction v with
  | nil => simp
  | cons x v ih =>
    rw [flatMap_cons, length_append, length_scalarBytes, hv x (by simp),
      ih fun y hy => hv y (by simp [hy]), length_cons, Nat.succ_mul, Nat.add_comm]

theorem dtoh32ap_encode (params : PTPParams) {n : Nat} (hn : n < 2 ^ 32)
    (pre post : List UInt8) :
    dtoh32ap params (pre ++ params.byteorder.encode 4 n ++ post) pre.length =
      some (UInt32.ofNat n) := by
  have h := slice_append pre (params.byteorder.encode 4 n) post
  rw [length_encode] at h
  rw [dtoh32ap, h, map_some, decode_encode _ (by omega)]

/-! ### Values -/

/-- A value of a datatype: an integer of the type, an array of such integers, whose number is an
`uint32_t`, or an ASCII text that fits. -/
def PTPPropertyValue.IsOf (datatype : UInt16) : PTPPropertyValue → Prop
  | unset => False
  | scalar x => dataType datatype = some (.scalar x.type)
  | array v => ∃ t, dataType datatype = some (.array t) ∧ (∀ x ∈ v, x.type = t) ∧
    v.length < 2 ^ 32
  | str s => dataType datatype = some .str ∧ ∃ text, s = some text ∧ IsText text

/-- The value comes back from the bytes it was packed into, and the offset moves to their
end. -/
def RoundTrips (params : PTPParams) (datatype : UInt16) (value : PTPPropertyValue) : Prop :=
  ∃ bytes, ptpPackDPV params value datatype = some bytes ∧
    ptpUnpackDPV params bytes bytes.length datatype ⟨0, false⟩ =
      some (.ok value, ⟨bytes.length, false⟩)

/-- An array fits into a block whose size is an `uint32_t`. -/
def ArrayFits (datatype : UInt16) (value : PTPPropertyValue) : Prop :=
  ∀ t v, dataType datatype = some (.array t) → value = .array v → 4 + v.length * t.size < 2 ^ 32

variable {datatype : UInt16}

theorem packDPV_scalar {x : PTPScalar}
    (h : dataType datatype = some (.scalar x.type)) :
    ptpPackDPV params (.scalar x) datatype = some (scalarBytes params x) := by
  unfold ptpPackDPV
  rw [h]
  rfl

theorem packDPV_array {datatype : UInt16} {t : ScalarType} {v : List PTPScalar}
    (h : dataType datatype = some (.array t)) (hv : ∀ x ∈ v, x.type = t) :
    ptpPackDPV params (.array v) datatype =
      if 4 + v.length * t.size < 2 ^ 32 then
        some (params.byteorder.encode 4 v.length ++ v.flatMap (scalarBytes params))
      else none := by
  unfold ptpPackDPV
  rw [h]
  have hbytes : (v.flatMap fun x => params.byteorder.encode t.size x.bits) =
      v.flatMap (scalarBytes params) :=
    List.flatMap_congr fun x hx => by rw [scalarBytes, hv x hx]
  simp only [hbytes]

theorem packDPV_str {s : CString} (hcd : params.Converts)
    (h : dataType datatype = some .str) (hs : IsText s) :
    ptpPackDPV params (.str (some s)) datatype = some (packedText params s) := by
  have hlen := hs.length
  have hnat : (UInt8.ofNat (s.length + 1)).toNat = s.length + 1 := by
    rw [UInt8.toNat_ofNat']
    omega
  unfold ptpPackDPV
  rw [h]
  show ptpGetPackedStringcopy params (some s) = _
  rw [ptpGetPackedStringcopy, Option.getD_some, ptpPackString_text hcd hs, bind_some,
    hnat]
  have hall : (s.length + 1) * 2 + 1 = (packedText params s).length := by
    rw [length_packedText]
    omega
  rw [hall, slice, if_pos (Nat.le_of_eq (Nat.zero_add _)), List.drop_zero, List.take_length]

theorem valueAt_scalarBytes {datatype : UInt16} {x : PTPScalar}
    (h : dataType datatype = some (.scalar x.type)) (pre post : List UInt8) :
    valueAt params (pre ++ scalarBytes params x ++ post) datatype pre.length =
      some (.scalar x, pre.length + x.type.size) := by
  rw [valueAt, h]
  simp only [scalarAt_scalarBytes, map_some]

theorem valueAt_arrayBytes {datatype : UInt16} {t : ScalarType} {v : List PTPScalar}
    (h : dataType datatype = some (.array t)) (hv : ∀ x ∈ v, x.type = t)
    (hlen : v.length < 2 ^ 32) (pre post : List UInt8) :
    valueAt params
      (pre ++ (params.byteorder.encode 4 v.length ++ v.flatMap (scalarBytes params)) ++ post)
      datatype pre.length = some (.array v, pre.length + 4 + v.length * t.size) := by
  have hn := dtoh32ap_encode params hlen pre (v.flatMap (scalarBytes params) ++ post)
  have hxs := @scalarsAt_scalarBytes params t v hv
    (pre ++ params.byteorder.encode 4 v.length) post
  have hnat : (UInt32.ofNat v.length).toNat = v.length := by
    rw [UInt32.toNat_ofNat']
    exact Nat.mod_eq_of_lt hlen
  simp only [length_append, length_encode, append_assoc] at hn hxs ⊢
  rw [valueAt, h]
  simp only [hn, bind_some, hnat, hxs, map_some]

theorem valueAt_packedText {s : CString} (hcd : params.Converts)
    (h : dataType datatype = some .str) (hs : IsText s) (pre post : List UInt8)
    (hpre : pre.length < 2 ^ 16) :
    valueAt params (pre ++ packedText params s ++ post) datatype pre.length =
      some (.str (some (readBack params s)), pre.length + (packedText params s).length) := by
  have hlen := hs.length
  have hnat : (UInt8.ofNat (s.length + 1)).toNat = s.length + 1 := by
    rw [UInt8.toNat_ofNat']
    omega
  rw [valueAt, h]
  simp only [ptpUnpackString_text hcd hs pre post hpre, bind_some, hnat]
  rw [if_pos (by
    simp only [length_append, length_packedText]
    omega), length_packedText]
  congr 2
  omega

/-- A value that is read back from the bytes it was packed into, as itself or as another. -/
theorem roundTrips_iff_of_valueAt {value value' : PTPPropertyValue}
    {bytes : List UInt8} (hpack : ptpPackDPV params value datatype = some bytes)
    (hbytes : bytes.length < 2 ^ 32)
    (hat : valueAt params ([] ++ bytes ++ []) datatype ([] : List UInt8).length =
      some (value', ([] : List UInt8).length + bytes.length)) :
    RoundTrips params datatype value ↔ value' = value := by
  simp only [nil_append, List.append_nil, List.length_nil, Nat.zero_add] at hat
  have hrun := ptpUnpackDPV_whole (c := ⟨0, false⟩) hbytes hat
  constructor
  · rintro ⟨bytes', hpack', hrun'⟩
    rw [hpack] at hpack'
    cases hpack'
    rw [hrun] at hrun'
    cases hrun'
    rfl
  · rintro rfl
    exact ⟨bytes, hpack, hrun⟩

/-- The values that come back, with or without `iconv`. -/
theorem packDPV_roundTrips_iff (hcd : params.Converts)
    {value : PTPPropertyValue} (h : value.IsOf datatype) :
    RoundTrips params datatype value ↔
      ArrayFits datatype value ∧
      ∀ s, value = .str (some s) →
        charOrder params = params.byteorder ∨ ∀ c ∈ s, c = '?' := by
  cases value with
  | unset => exact absurd h id
  | scalar x =>
    have hat := @valueAt_scalarBytes params _ x h [] []
    rw [← length_scalarBytes params x] at hat
    have hsize := x.type.size_le
    rw [roundTrips_iff_of_valueAt (packDPV_scalar h) (by
      rw [length_scalarBytes]
      omega) hat]
    simp [ArrayFits]
  | array v =>
    obtain ⟨t, ht, hv, hlen⟩ := h
    have hfits : ArrayFits datatype (.array v) ↔ 4 + v.length * t.size < 2 ^ 32 := by
      constructor
      · intro h
        exact h t v ht rfl
      · intro h t' v' ht' he
        rw [ht] at ht'
        cases ht'
        cases he
        exact h
    simp only [reduceCtorEq, false_implies, implies_true, and_true, hfits]
    have hpack := @packDPV_array params _ t v ht hv
    by_cases hsize : 4 + v.length * t.size < 2 ^ 32
    · rw [if_pos hsize] at hpack
      have hbytes := @length_scalarBytes_all params t v hv
      have hat := @valueAt_arrayBytes params _ t v ht hv hlen [] []
      have hall : (params.byteorder.encode 4 v.length ++
          v.flatMap (scalarBytes params)).length = 4 + v.length * t.size := by
        rw [length_append, length_encode, hbytes]
      rw [Nat.add_assoc, ← hall] at hat
      rw [roundTrips_iff_of_valueAt hpack (by omega) hat]
      exact iff_of_true rfl hsize
    · rw [if_neg hsize] at hpack
      refine iff_of_false ?_ hsize
      rintro ⟨bytes, hpack', -⟩
      rw [hpack] at hpack'
      cases hpack'
  | str s =>
    obtain ⟨ht, text, rfl, htext⟩ := h
    have hlen := htext.length
    have hat := valueAt_packedText hcd ht htext [] [] (by simp)
    rw [roundTrips_iff_of_valueAt (packDPV_str hcd ht htext) (by
      rw [length_packedText]
      omega) hat]
    simp only [PTPPropertyValue.str.injEq, Option.some.injEq, readBack_eq_iff, forall_eq',
      ArrayFits, reduceCtorEq, false_implies, implies_true, true_and]

/-- On the path without `iconv`, every value comes back but an array that is too large, and a
text from a big-endian device that does not consist of question marks. -/
theorem packDPV_roundTrip_iff (byteorder : ByteOrder) (ocs64 : Bool) (datatype : UInt16)
    (value : PTPPropertyValue) (h : value.IsOf datatype) :
    RoundTrips ⟨byteorder, none, ocs64⟩ datatype value ↔
      ArrayFits datatype value ∧
      ∀ s, value = .str (some s) → byteorder = .little ∨ ∀ c ∈ s, c = '?' := by
  rw [packDPV_roundTrips_iff (fun cd hcd => by cases hcd) h]
  have horder : charOrder ⟨byteorder, none, ocs64⟩ = byteorder ↔ byteorder = .little :=
    eq_comm
  simp only [horder]

/-- The integer 258 comes back from a big-endian device. -/
theorem packDPV_roundTrip_uint16 :
    RoundTrips ⟨.big, none, false⟩ 0x0004 (.scalar (.u16 258)) ↔
      ArrayFits 0x0004 (.scalar (.u16 258)) ∧
      ∀ s, PTPPropertyValue.scalar (.u16 258) = .str (some s) →
        ByteOrder.big = .little ∨ ∀ c ∈ s, c = '?' :=
  packDPV_roundTrip_iff .big false 0x0004 (.scalar (.u16 258)) rfl

/-- The text "A" comes back from a big-endian device as "?". -/
theorem packDPV_swaps_text :
    ¬ ∀ (byteorder : ByteOrder) (ocs64 : Bool) (datatype : UInt16) (value : PTPPropertyValue),
      value.IsOf datatype → RoundTrips ⟨byteorder, none, ocs64⟩ datatype value := by
  intro h
  obtain ⟨bytes, hpack, hrun⟩ := h .big false 0xFFFF (.str (some ['A']))
    ⟨rfl, ['A'], rfl, by simp, by simp⟩
  have hbytes : ptpPackDPV ⟨.big, none, false⟩ (.str (some ['A'])) 0xFFFF =
      some [2, 65, 0, 0, 0] := by decide
  cases hbytes.symm.trans hpack
  have hback : ptpUnpackDPV ⟨.big, none, false⟩ [2, 65, 0, 0, 0] 5 0xFFFF ⟨0, false⟩ =
      some (.ok (.str (some ['?'])), ⟨5, false⟩) := by decide
  cases hback.symm.trans hrun

end GPhoto2
