import GPhoto2.CString
import GPhoto2.Lib.Endian

/-!
# `GPhoto2.Ptp.PackString`: numbers, strings and arrays in PTP datasets

The helpers at the start of `ptp-pack.c`. A dataset is a block of exactly the bytes received,
in the byte order of the device. A read outside of the block has no defined outcome, which is
`none`. The host is little-endian, and `size_t` has 64 bits.

Strings are UCS-2 with a length byte in front. `iconv` is given by what it makes of them; where
there is no `iconv`, or it fails, the functions convert by hand.
-/

set_option autoImplicit false

namespace GPhoto2

open Lib

/-- The conversion descriptors. A conversion that fails gives nothing. -/
structure Iconv where
  /-- `cd_ucs2_to_locale`. -/
  toLocale : List UInt8 → Option CString
  /-- `cd_locale_to_ucs2`. -/
  toUcs2 : CString → Option (List UInt8)

/-- `PTPParams`, as far as packing needs it. -/
structure PTPParams where
  byteorder : ByteOrder
  iconv : Option Iconv
  /-- 64bit objectsize. -/
  ocs64 : Bool

variable (params : PTPParams)

/-! ### Numbers -/

/-- `dtoh8a`. -/
def dtoh8a (data : List UInt8) (off : Nat) : Option UInt8 := data[off]?

/-- `dtoh16ap`. -/
def dtoh16ap (data : List UInt8) (off : Nat) : Option UInt16 :=
  (slice data off 2).map fun bs => UInt16.ofNat (params.byteorder.decode bs)

/-- `dtoh32ap`. -/
def dtoh32ap (data : List UInt8) (off : Nat) : Option UInt32 :=
  (slice data off 4).map fun bs => UInt32.ofNat (params.byteorder.decode bs)

/-- `dtoh64ap`. -/
def dtoh64ap (data : List UInt8) (off : Nat) : Option UInt64 :=
  (slice data off 8).map fun bs => UInt64.ofNat (params.byteorder.decode bs)

/-- `htod16ap`. -/
def htod16ap (x : UInt16) : List UInt8 := params.byteorder.encode 2 x.toNat

/-- `htod32ap`. -/
def htod32ap (x : UInt32) : List UInt8 := params.byteorder.encode 4 x.toNat

section
variable {params}

theorem dtoh16ap_isSome {data : List UInt8} {off : Nat} :
    (dtoh16ap params data off).isSome ↔ off + 2 ≤ data.length := by
  rw [dtoh16ap, Option.isSome_map, slice_isSome]

theorem dtoh32ap_isSome {data : List UInt8} {off : Nat} :
    (dtoh32ap params data off).isSome ↔ off + 4 ≤ data.length := by
  rw [dtoh32ap, Option.isSome_map, slice_isSome]

theorem dtoh64ap_isSome {data : List UInt8} {off : Nat} :
    (dtoh64ap params data off).isSome ↔ off + 8 ≤ data.length := by
  rw [dtoh64ap, Option.isSome_map, slice_isSome]

theorem dtoh16ap_eq_some {data : List UInt8} {off : Nat} {x : UInt16} :
    dtoh16ap params data off = some x ↔ slice data off 2 = some (htod16ap params x) := by
  unfold dtoh16ap htod16ap
  rw [Option.map_eq_some_iff]
  constructor
  · rintro ⟨bs, hbs, rfl⟩
    have hlen := slice_length hbs
    have hlt : params.byteorder.decode bs < 2 ^ 16 := by
      have h := params.byteorder.decode_lt bs
      rwa [hlen] at h
    rw [hbs, UInt16.toNat_ofNat_of_lt' hlt, ← hlen, ByteOrder.encode_decode]
  · intro hbs
    refine ⟨_, hbs, ?_⟩
    rw [ByteOrder.decode_encode _ x.toNat_lt, UInt16.ofNat_toNat]

theorem dtoh32ap_eq_some {data : List UInt8} {off : Nat} {x : UInt32} :
    dtoh32ap params data off = some x ↔ slice data off 4 = some (htod32ap params x) := by
  unfold dtoh32ap htod32ap
  rw [Option.map_eq_some_iff]
  constructor
  · rintro ⟨bs, hbs, rfl⟩
    have hlen := slice_length hbs
    have hlt : params.byteorder.decode bs < 2 ^ 32 := by
      have h := params.byteorder.decode_lt bs
      rwa [hlen] at h
    rw [hbs, UInt32.toNat_ofNat_of_lt' hlt, ← hlen, ByteOrder.encode_decode]
  · intro hbs
    refine ⟨_, hbs, ?_⟩
    rw [ByteOrder.decode_encode _ x.toNat_lt, UInt32.ofNat_toNat]

end

/-! ### Strings -/

/-- `PTP_MAXSTRLEN`: the length of a string with its terminator. -/
def ptpMaxstrlen : Nat := 255

/-- The UCS-2 characters in a byte string. -/
def ucs2Units : List UInt8 → List UInt16
  | a :: b :: bs => UInt16.ofNat (params.byteorder.decode [a, b]) :: ucs2Units bs
  | _ => []

/-- A character converted by hand. -/
def localeChar (unit : UInt16) : Char := if 127 < unit then '?' else Char.ofNat unit.toNat

/-- What `ptp_unpack_string` makes of the characters, up to the terminator. -/
def toLocale (bs : List UInt8) : CString :=
  (((params.iconv.bind fun cd => cd.toLocale bs).getD
    ((ucs2Units params bs).map localeChar)).takeWhile (· ≠ '\x00'))

/-- `ptp_unpack_string`: the string, null if its length is 0, and the length byte. -/
def ptpUnpackString (data : List UInt8) (offset : UInt16) : Option (Option CString × UInt8) :=
  (dtoh8a data offset.toNat).bind fun length =>
    if length = 0 then some (none, 0)
    else (slice data (offset.toNat + 1) (2 * length.toNat)).map fun bs =>
      (some (toLocale params bs), length)

/-- `ucs2strlen`, in memory that is zero from the end of the characters on. -/
def ucs2strlen : List UInt8 → Nat
  | a :: b :: bs => if a = 0 ∧ b = 0 then 0 else ucs2strlen bs + 1
  | _ => 0

/-- A `char` as an `uint16_t`. -/
def charUnit (c : Char) : Nat := if c.toNat < 128 then c.toNat else 0xff00 + c.toNat % 256

/-- The `ucs2str` of `ptp_pack_string`: 256 characters in the byte order of the host, unless
`iconv` has put them there. -/
def ucs2str (string : CString) : Option (List UInt8) :=
  match params.iconv with
  | some cd => some ((cd.toUcs2 string).getD [])
  | none =>
    -- beyond the array
    if ptpMaxstrlen < string.length then none
    else some (string.flatMap fun c => ByteOrder.little.encode 2 (charUnit c))

/-- `ptp_pack_string`: the bytes it writes, and the length it returns. A string that is too
long writes nothing. -/
def ptpPackString (string : CString) : Option (List UInt8 × UInt8) :=
  (ucs2str params string).map fun units =>
    let packedlen := ucs2strlen units
    if ptpMaxstrlen - 1 < packedlen then ([], 0)
    else (UInt8.ofNat (packedlen + 1) :: units.take (2 * packedlen) ++ htod16ap params 0,
      UInt8.ofNat (packedlen + 1))

/-- `ptp_get_packed_stringcopy`. If nothing was packed, the byte it copies is not defined. -/
def ptpGetPackedStringcopy (string : Option CString) : Option (List UInt8) :=
  (ptpPackString params (string.getD [])).bind fun p => slice p.1 0 (p.2.toNat * 2 + 1)

/-! ### Arrays -/

/-- `ptp_unpack_uint32_t_array`. -/
def ptpUnpackUint32TArray (data : List UInt8) (offset : UInt16) : Option (List UInt32) :=
  (dtoh32ap params data offset.toNat).bind fun n =>
    (List.range n.toNat).mapM fun i => dtoh32ap params data (offset.toNat + 4 * (i + 1))

/-- `ptp_unpack_uint16_t_array`. -/
def ptpUnpackUint16TArray (data : List UInt8) (offset : UInt16) : Option (List UInt16) :=
  (dtoh32ap params data offset.toNat).bind fun n =>
    (List.range n.toNat).mapM fun i => dtoh16ap params data (offset.toNat + 2 * (i + 2))

example : ptpPackString ⟨.little, none, false⟩ "ab".toList =
    some ([3, 97, 0, 98, 0, 0, 0], 3) := by decide

example : ptpUnpackString ⟨.little, none, false⟩ [9, 3, 97, 0, 98, 0, 0, 0] 1 =
    some (some "ab".toList, 3) := by decide

end GPhoto2
