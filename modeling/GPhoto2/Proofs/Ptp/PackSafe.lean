import GPhoto2.Proofs.Ptp.ObjectInfo

/-!
# `GPhoto2.Proofs.Ptp.PackSafe`: which strings are packed safely

Without `iconv`, `ptp_pack_string` copies a string into an array of 256 characters before it looks
at its length, and writes nothing at all where a string is too long for the length byte. Its
callers go on with a length of 0. `packString_safe_iff` says for which strings all of them do what
they are meant to do.
-/

set_option autoImplicit false

namespace GPhoto2

open Lib

/-- The bytes of a C string. -/
structure ByteString where
  text : CString
  isByte : ∀ c ∈ text, 0 < c.toNat ∧ c.toNat < 256

/-- The string to be read back: the empty one, in place of one that is too long. -/
def meant (s : CString) : Option CString := if s.length ≤ 254 then some s else none

/-- A block that holds the string and nothing behind it. -/
def Holds (params : PTPParams) (block : List UInt8) (s : CString) : Prop :=
  ∃ len, ptpUnpackString params block 0 = some (meant s, len) ∧
    block.length = 2 * len.toNat + 1

/-- What is expected of `ptp_pack_string` and its callers. -/
structure PacksSafely (params : PTPParams) (s : CString) : Prop where
  /-- It writes as many bytes as it returns, and no more than there is room for in the smallest
  buffer of a caller. They are read back wherever they stand. -/
  pack : ∃ packed len, ptpPackString params s = some (packed, len) ∧
    packed.length = 2 * len.toNat + 1 ∧ packed.length ≤ 2 * ptpMaxstrlen + 3 ∧
    ∀ pre post : List UInt8, pre.length < 2 ^ 16 →
      ptpUnpackString params (pre ++ packed ++ post) (UInt16.ofNat pre.length) =
        some (meant s, len)
  stringcopy : ∃ block, ptpGetPackedStringcopy params (some s) = some block ∧
    Holds params block s
  propertyValue : ∀ datatype, dataType datatype = some .str →
    ∃ block, ptpPackDPV params (.str (some s)) datatype = some block ∧ Holds params block s
  /-- The object info is inside its block, and what is sent of it holds the filename with an empty
  string behind it. -/
  objectInfo : ∀ oi, oi.filename = some s → ∃ packed len, ptpPackOI params oi = some packed ∧
    packed.written ≤ packed.length ∧ packed.length ≤ packed.oidata.length ∧
    ptpUnpackString params
      ((packed.oidata.take packed.length).drop (oiShift params.ocs64)) 52 = some (meant s, len) ∧
    ptpUnpackString params ((packed.oidata.take packed.length).drop (oiShift params.ocs64))
      (UInt16.ofNat (52 + (2 * len.toNat + 1))) = some (none, 0)

/-- An ASCII text that is not too long, for a device with the byte order of the host. The other
byte order makes question marks of it. -/
def IsPackable (order : ByteOrder) (s : CString) : Prop :=
  s.length ≤ 254 ∧ (∀ c ∈ s, c.toNat < 128) ∧ (order = .little ∨ ∀ c ∈ s, c = '?')

variable {order : ByteOrder} {ocs64 : Bool} {s : CString}

/-- A session without `iconv`. -/
abbrev withoutIconv (order : ByteOrder) (ocs64 : Bool) : PTPParams := ⟨order, none, ocs64⟩

theorem withoutIconv_converts (order : ByteOrder) (ocs64 : Bool) :
    (withoutIconv order ocs64).Converts := by
  intro cd h
  cases h

/-! ### Strings that cannot be packed -/

theorem charUnit_bytes (c : Char) :
    ∃ high, ByteOrder.little.encode 2 (charUnit c) = [UInt8.ofNat c.toNat, high] := by
  refine ⟨_, congrArg₂ List.cons ?_ rfl⟩
  unfold charUnit
  split
  · rfl
  · exact UInt8.toNat_inj.mp (by rw [UInt8.toNat_ofNat', UInt8.toNat_ofNat']; omega)

theorem ucs2strlen_bytes (h : ∀ c ∈ s, 0 < c.toNat ∧ c.toNat < 256) :
    ucs2strlen (s.flatMap fun c => ByteOrder.little.encode 2 (charUnit c)) = s.length := by
  induction s with
  | nil => rfl
  | cons c s ih =>
    obtain ⟨hpos, hlt⟩ := h c List.mem_cons_self
    obtain ⟨high, hbytes⟩ := charUnit_bytes c
    rw [List.flatMap_cons, hbytes]
    show (if UInt8.ofNat c.toNat = 0 ∧ high = 0 then 0 else ucs2strlen (s.flatMap _) + 1) = _
    rw [if_neg fun hzero => ofNat_ne_zero hpos hlt hzero.1,
      ih fun c hc => h c (List.mem_cons_of_mem _ hc), List.length_cons]

/-- The string with 255 characters fits into the array, but not into the length byte: nothing is
packed, and the copy is of a byte that was never written. -/
theorem stringcopy_tooLong (h : ∀ c ∈ s, 0 < c.toNat ∧ c.toNat < 256) (hlong : 254 < s.length) :
    ptpGetPackedStringcopy (withoutIconv order ocs64) (some s) = none := by
  by_cases hfits : ptpMaxstrlen < s.length
  · unfold ptpGetPackedStringcopy ptpPackString ucs2str
    rw [Option.getD_some]
    show ((if ptpMaxstrlen < s.length then none else _ : Option (List UInt8)).map _).bind _ = none
    rw [if_pos hfits]
    rfl
  · unfold ptpGetPackedStringcopy ptpPackString ucs2str
    rw [Option.getD_some]
    show ((if ptpMaxstrlen < s.length then none else _ : Option (List UInt8)).map _).bind _ = none
    rw [if_neg hfits, Option.map_some, Option.bind_some, ucs2strlen_bytes h]
    have hlong' : ptpMaxstrlen - 1 < s.length := hlong
    simp only [if_pos hlong']
    rfl

theorem localeChar_lt (unit : UInt16) : (localeChar unit).toNat < 128 := by
  unfold localeChar
  split
  · decide
  · rename_i hle
    have hunit : unit.toNat ≤ 127 := UInt16.not_lt.mp hle
    have hdecide : ∀ n < 128, (Char.ofNat n).toNat < 128 := by decide
    exact hdecide _ (by omega)

theorem ptpUnpackString_ascii {data : List UInt8} {off : UInt16} {len : UInt8}
    (h : ptpUnpackString (withoutIconv order ocs64) data off = some (some s, len)) :
    ∀ c ∈ s, c.toNat < 128 := by
  obtain ⟨length, _, hrest⟩ := Option.bind_eq_some_iff.mp h
  by_cases hzero : length = 0
  · rw [if_pos hzero] at hrest
    cases hrest
  · rw [if_neg hzero] at hrest
    obtain ⟨bs, _, he⟩ := Option.map_eq_some_iff.mp hrest
    cases he
    intro c hc
    obtain ⟨unit, _, rfl⟩ := List.mem_map.mp (List.takeWhile_prefix _ |>.subset hc)
    exact localeChar_lt unit

/-! ### Strings that can be packed -/

theorem IsPackable.isText (h : IsPackable order s) (hbytes : ∀ c ∈ s, 0 < c.toNat ∧ c.toNat < 256) :
    IsText s := ⟨fun c hc => ⟨(hbytes c hc).1, h.2.1 c hc⟩, h.1⟩

theorem IsPackable.readBack (h : IsPackable order s) :
    readBack (withoutIconv order ocs64) s = s := by
  refine readBack_eq_iff.mpr (h.2.2.imp_left fun horder => ?_)
  rw [horder]
  rfl

theorem meant_of_le (h : s.length ≤ 254) : meant s = some s := if_pos h

theorem IsPackable.read (hs : IsPackable order s)
    (hbytes : ∀ c ∈ s, 0 < c.toNat ∧ c.toNat < 256) (pre post : List UInt8)
    (hpre : pre.length < 2 ^ 16) :
    ptpUnpackString (withoutIconv order ocs64)
      (pre ++ packedText (withoutIconv order ocs64) s ++ post) (UInt16.ofNat pre.length) =
        some (meant s, UInt8.ofNat (s.length + 1)) := by
  rw [ptpUnpackString_text (withoutIconv_converts order ocs64) (hs.isText hbytes) pre post hpre,
    hs.readBack, meant_of_le hs.1]

theorem IsPackable.length_packed (hs : IsPackable order s) (params : PTPParams) :
    (packedText params s).length = 2 * (UInt8.ofNat (s.length + 1)).toNat + 1 := by
  have hlen := hs.1
  rw [length_packedText, UInt8.toNat_ofNat']
  omega

theorem IsPackable.holds (hs : IsPackable order s)
    (hbytes : ∀ c ∈ s, 0 < c.toNat ∧ c.toNat < 256) :
    Holds (withoutIconv order ocs64) (packedText (withoutIconv order ocs64) s) s := by
  refine ⟨_, ?_, hs.length_packed _⟩
  have hread := @IsPackable.read order ocs64 s hs hbytes [] [] (by decide)
  rwa [List.nil_append, List.append_nil] at hread

/-- What is sent of an object info holds the filename and an empty string behind it. -/
theorem IsPackable.objectInfo (hs : IsPackable order s)
    (hbytes : ∀ c ∈ s, 0 < c.toNat ∧ c.toNat < 256) {oi : PTPObjectInfo}
    (hoi : oi.filename = some s) :
    ∃ packed len, ptpPackOI (withoutIconv order ocs64) oi = some packed ∧
      packed.written ≤ packed.length ∧ packed.length ≤ packed.oidata.length ∧
      ptpUnpackString (withoutIconv order ocs64)
        ((packed.oidata.take packed.length).drop (oiShift ocs64)) 52 = some (meant s, len) ∧
      ptpUnpackString (withoutIconv order ocs64)
        ((packed.oidata.take packed.length).drop (oiShift ocs64))
        (UInt16.ofNat (52 + (2 * len.toNat + 1))) = some (none, 0) := by
  obtain ⟨packed, hpack, hwritten, hlength, hinside, hsent⟩ :=
    ptpPackOI_text (withoutIconv_converts order ocs64) hoi (hs.isText hbytes)
  obtain ⟨pre, hpre, hdata⟩ := oiData_sent (withoutIconv order ocs64) oi s
  have hdrop : (packed.oidata.take packed.length).drop (oiShift ocs64) =
      pre ++ packedText (withoutIconv order ocs64) s ++ [0, 0, 0] := by
    rw [hsent, ← hdata]
    cases ocs64 <;> rfl
  refine ⟨packed, UInt8.ofNat (s.length + 1), hpack, by omega, hinside, ?_, ?_⟩
  · rw [hdrop, ← hs.read hbytes pre [0, 0, 0] (by omega), hpre]
    rfl
  · have hbehind : 52 + (2 * (UInt8.ofNat (s.length + 1)).toNat + 1) =
        (pre ++ packedText (withoutIconv order ocs64) s).length := by
      rw [List.length_append, hpre, ← hs.length_packed]
    have hlen := hs.1
    have hoff : (UInt16.ofNat (pre ++ packedText (withoutIconv order ocs64) s).length).toNat =
        (pre ++ packedText (withoutIconv order ocs64) s).length := by
      rw [UInt16.toNat_ofNat', List.length_append, length_packedText]
      omega
    rw [hdrop, hbehind, ptpUnpackString, hoff, dtoh8a,
      List.getElem?_append_right (Nat.le_refl _), Nat.sub_self]
    rfl

/-! ### Main results -/

/-- The strings that are packed safely. -/
theorem packString_safe_iff (order : ByteOrder) (ocs64 : Bool) (string : ByteString) :
    PacksSafely (withoutIconv order ocs64) string.text ↔ IsPackable order string.text := by
  obtain ⟨s, hbytes⟩ := string
  constructor
  · intro h
    obtain ⟨block, hcopy, len, hread, -⟩ := h.stringcopy
    have hlength : s.length ≤ 254 := by
      by_contra hlong
      rw [stringcopy_tooLong hbytes (by omega)] at hcopy
      cases hcopy
    rw [meant_of_le hlength] at hread
    have hascii := ptpUnpackString_ascii hread
    have htext : IsText s := ⟨fun c hc => ⟨(hbytes c hc).1, hascii c hc⟩, hlength⟩
    refine ⟨hlength, hascii, ?_⟩
    -- The characters are those that are read back.
    have hconverts := withoutIconv_converts order ocs64
    obtain ⟨packed, len', hpack, -, -, hunpack⟩ := h.pack
    rw [ptpPackString_text hconverts htext] at hpack
    cases hpack
    have hback := hunpack [] [] (by decide)
    rw [ptpUnpackString_text hconverts htext [] [] (by decide), meant_of_le hlength] at hback
    have hsame : readBack (withoutIconv order ocs64) s = s :=
      Option.some.inj (congrArg Prod.fst (Option.some.inj hback))
    exact (readBack_eq_iff.mp hsame).imp_left fun horder => horder.symm
  · intro hs
    have hconverts := withoutIconv_converts order ocs64
    have htext := hs.isText hbytes
    have hvalue : ∀ datatype, dataType datatype = some .str →
        ptpPackDPV (withoutIconv order ocs64) (.str (some s)) datatype =
          some (packedText (withoutIconv order ocs64) s) :=
      fun datatype hstr => packDPV_str hconverts hstr htext
    refine ⟨⟨_, _, ptpPackString_text hconverts htext, hs.length_packed _, ?_,
      fun pre post hpre => hs.read hbytes pre post hpre⟩, ⟨_, hvalue 0xffff rfl, hs.holds hbytes⟩,
      fun datatype hstr => ⟨_, hvalue datatype hstr, hs.holds hbytes⟩,
      fun oi hoi => hs.objectInfo hbytes hoi⟩
    have hlen := hs.1
    rw [length_packedText, ptpMaxstrlen]
    omega

/-- For a string of 255 characters `ptp_get_packed_stringcopy` copies a byte that was never
written. -/
theorem packString_unwritten : ¬ ∀ order ocs64 (string : ByteString),
    PacksSafely (withoutIconv order ocs64) string.text := by
  intro h
  have hbytes : ∀ c ∈ List.replicate 255 'a', 0 < c.toNat ∧ c.toNat < 256 := by
    intro c hc
    rw [(List.mem_replicate.mp hc).2]
    decide
  obtain ⟨block, hcopy, -⟩ := (h .little false ⟨List.replicate 255 'a', hbytes⟩).stringcopy
  rw [stringcopy_tooLong hbytes (by rw [List.length_replicate]; decide)] at hcopy
  cases hcopy

end GPhoto2
