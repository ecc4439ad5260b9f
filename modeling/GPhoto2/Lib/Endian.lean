import Mathlib.Algebra.Group.Int.Defs
import Mathlib.Algebra.Group.Nat.Defs
import Mathlib.Algebra.GroupWithZero.Nat
import Mathlib.Data.List.Basic

/-!
# `GPhoto2.Lib.Endian`: numbers in byte strings of either byte order

`ByteOrder.encode` writes a number into a given number of bytes and `ByteOrder.decode` reads
it back: they are inverse to each other on numbers that fit (`ByteOrder.decode_encode`).
`slice` is what a reader takes out of a longer byte string, and `slice_append` finds again what
was put there.
-/

set_option autoImplicit false

namespace GPhoto2.Lib

/-! ### Numbers -/

/-- The number whose bytes these are, the least significant one first. -/
def ofBytes : List UInt8 → Nat
  | [] => 0
  | b :: bs => b.toNat + 256 * ofBytes bs

/-- The `w` least significant bytes of a number, the least significant one first. -/
def toBytes : Nat → Nat → List UInt8
  | 0, _ => []
  | w + 1, n => UInt8.ofNat n :: toBytes w (n / 256)

@[simp] theorem length_toBytes (w n : Nat) : (toBytes w n).length = w := by
  induction w generalizing n with
  | zero => rfl
  | succ w ih => simp [toBytes, ih]

variable {n : Nat}

theorem ofBytes_toBytes {w : Nat} (h : n < 256 ^ w) : ofBytes (toBytes w n) = n := by
  induction w generalizing n with
  | zero =>
    rw [Nat.pow_zero] at h
    simp only [toBytes, ofBytes]
    omega
  | succ w ih =>
    have hdiv : n / 256 < 256 ^ w := by
      rw [Nat.pow_succ] at h
      omega
    simp only [toBytes, ofBytes, ih hdiv, UInt8.toNat_ofNat']
    omega

theorem toBytes_ofBytes (bs : List UInt8) : toBytes bs.length (ofBytes bs) = bs := by
  induction bs with
  | nil => rfl
  | cons b bs ih =>
    have hb := b.toNat_lt
    have hdiv : (b.toNat + 256 * ofBytes bs) / 256 = ofBytes bs := by omega
    have hmod : UInt8.ofNat (b.toNat + 256 * ofBytes bs) = b := by
      apply UInt8.toNat_inj.mp
      rw [UInt8.toNat_ofNat']
      omega
    simp only [List.length_cons, toBytes, ofBytes, hdiv, hmod, ih]

theorem ofBytes_lt (bs : List UInt8) : ofBytes bs < 256 ^ bs.length := by
  induction bs with
  | nil => simp [ofBytes]
  | cons b bs ih =>
    have hb := b.toNat_lt
    rw [List.length_cons, Nat.pow_succ, ofBytes]
    omega

inductive ByteOrder
  | little
  | big
  deriving DecidableEq

namespace ByteOrder

variable (order : ByteOrder)

/-- The number that a byte string is in this order. -/
def decode (bs : List UInt8) : Nat :=
  match order with
  | little => ofBytes bs
  | big => ofBytes bs.reverse

/-- A number as `w` bytes in this order. -/
def encode (w n : Nat) : List UInt8 :=
  match order with
  | little => toBytes w n
  | big => (toBytes w n).reverse

@[simp] theorem length_encode (w n : Nat) : (order.encode w n).length = w := by
  cases order <;> simp [encode]

theorem decode_encode {w n : Nat} (h : n < 256 ^ w) : order.decode (order.encode w n) = n := by
  cases order <;> simp [encode, decode, ofBytes_toBytes h]

theorem encode_decode (bs : List UInt8) : order.encode bs.length (order.decode bs) = bs := by
  cases order with
  | little => exact toBytes_ofBytes bs
  | big =>
    have h := toBytes_ofBytes bs.reverse
    rw [List.length_reverse] at h
    simp only [encode, decode, h, List.reverse_reverse]

theorem decode_lt (bs : List UInt8) : order.decode bs < 256 ^ bs.length := by
  cases order with
  | little => exact ofBytes_lt bs
  | big =>
    have h := ofBytes_lt bs.reverse
    rwa [List.length_reverse] at h

theorem decode_replicate_zero (n : Nat) : order.decode (List.replicate n 0) = 0 := by
  have h : ofBytes (List.replicate n 0) = 0 := by
    induction n with
    | zero => rfl
    | succ n ih => simp [List.replicate_succ, ofBytes, ih]
  cases order with
  | little => exact h
  | big =>
    rw [decode, List.reverse_replicate]
    exact h

end ByteOrder

/-! ### Slices -/

/-- `n` bytes from the offset `off` on, if all of them are there. -/
def slice (data : List UInt8) (off n : Nat) : Option (List UInt8) :=
  if off + n ≤ data.length then some ((data.drop off).take n) else none

variable {data bs : List UInt8} {off : Nat}

theorem slice_eq_some :
    slice data off n = some bs ↔ off + n ≤ data.length ∧ (data.drop off).take n = bs := by
  unfold slice
  by_cases hfits : off + n ≤ data.length
  · simp [hfits]
  · simp [hfits]

theorem slice_eq_none :
    slice data off n = none ↔ data.length < off + n := by
  unfold slice
  split
  · simp
    omega
  · simp
    omega

theorem slice_isSome :
    (slice data off n).isSome = true ↔ off + n ≤ data.length := by
  unfold slice
  split <;> simp_all

theorem slice_length (h : slice data off n = some bs) :
    bs.length = n := by
  obtain ⟨hle, rfl⟩ := slice_eq_some.mp h
  rw [List.length_take, List.length_drop]
  omega

/-- The bytes of a slice are the ones of the data. -/
theorem slice_getElem? {i : Nat} (h : slice data off n = some bs)
    (hi : i < n) : data[off + i]? = bs[i]? := by
  obtain ⟨-, rfl⟩ := slice_eq_some.mp h
  rw [List.getElem?_take_of_lt hi, List.getElem?_drop]

/-- What was put between two byte strings is found there. -/
theorem slice_append (pre bs post : List UInt8) :
    slice (pre ++ bs ++ post) pre.length bs.length = some bs := by
  rw [slice_eq_some]
  simp

/-- A slice of a part of the data. -/
theorem slice_drop (data : List UInt8) (k off n : Nat) (h : k ≤ data.length) :
    slice (data.drop k) off n = slice data (k + off) n := by
  unfold slice
  rw [List.length_drop, List.drop_drop]
  by_cases hfits : k + off + n ≤ data.length
  · rw [if_pos (by omega), if_pos hfits]
  · rw [if_neg (by omega), if_neg hfits]

/-- A slice of a slice. -/
theorem slice_slice {part : List UInt8} {k m : Nat}
    (hpart : slice data off n = some part) (hbs : slice part k m = some bs) :
    slice data (off + k) m = some bs := by
  have hlen := slice_length hpart
  obtain ⟨hfits, rfl⟩ := slice_eq_some.mp hpart
  obtain ⟨hle, rfl⟩ := slice_eq_some.mp hbs
  refine slice_eq_some.mpr ⟨by omega, ?_⟩
  rw [List.drop_take, List.drop_drop, List.take_take, Nat.min_eq_left (by omega)]

/-! ### Records of numbers -/

/-- Numbers one after another, each with its width. -/
def fieldsBytes (order : ByteOrder) (fields : List (Nat × Nat)) : List UInt8 :=
  fields.flatMap fun f => order.encode f.1 f.2

/-- Where the number at an index starts. -/
def fieldOffset (fields : List (Nat × Nat)) (k : Nat) : Nat := ((fields.take k).map (·.1)).sum

theorem length_fieldsBytes (order : ByteOrder) (fields : List (Nat × Nat)) :
    (fieldsBytes order fields).length = (fields.map (·.1)).sum := by
  induction fields with
  | nil => rfl
  | cons f fields ih =>
    rw [fieldsBytes, List.flatMap_cons, List.length_append, ByteOrder.length_encode,
      List.map_cons, List.sum_cons, ← ih]
    rfl

/-- Each number of a record is found at its offset. -/
theorem slice_fieldsBytes {order : ByteOrder} {fields : List (Nat × Nat)} {k w : Nat}
    (h : fields[k]? = some (w, n)) (rest : List UInt8) :
    slice (fieldsBytes order fields ++ rest) (fieldOffset fields k) w =
      some (order.encode w n) := by
  obtain ⟨hk, hget⟩ := List.getElem?_eq_some_iff.mp h
  have hsplit : fields = fields.take k ++ (w, n) :: fields.drop (k + 1) := by
    rw [← hget, List.getElem_cons_drop, List.take_append_drop]
  have hbytes : fieldsBytes order fields ++ rest =
      fieldsBytes order (fields.take k) ++ order.encode w n ++
        (fieldsBytes order (fields.drop (k + 1)) ++ rest) := by
    conv_lhs => rw [hsplit]
    simp only [fieldsBytes, List.flatMap_append, List.flatMap_cons, List.append_assoc]
  have hoff : fieldOffset fields k = (fieldsBytes order (fields.take k)).length :=
    (length_fieldsBytes order _).symm
  have hfound := slice_append (fieldsBytes order (fields.take k)) (order.encode w n)
    (fieldsBytes order (fields.drop (k + 1)) ++ rest)
  rw [ByteOrder.length_encode] at hfound
  rw [hbytes, hoff, hfound]

end GPhoto2.Lib
