import GPhoto2.Ptp.ReadFile

/-!
# `GPhoto2.Proofs.Ptp.ReadFile`: reading a part of an object

`readFile_sound_iff`: a read gives the requested part of the object exactly when the end of the
part is a 64-bit number, it starts inside what 32 bits tell of the object's size, and the camera
sends that part.
-/

set_option autoImplicit false

namespace GPhoto2

variable (camera : ObjectReader) (folder filename : CString) (type : CameraFileType)
  (offset64 size64 : UInt64)

/-- The bytes of an object from an offset on, up to a number of them or to its end. -/
def StoredObject.part (object : StoredObject) (offset size : Nat) : List UInt8 :=
  (object.bytes.drop offset).take size

/-- What is expected of a read. -/
structure ReadFileSound : Prop where
  /-- A read up to a place beyond 32 bits is rejected. -/
  rejects : 2 ^ 32 ≤ offset64.toNat + size64.toNat →
    readFileFunc camera folder filename type offset64 size64 = .error gpErrorBadParameters
  /-- A read that succeeds stores the requested part of the object, and tells its length. -/
  exact : ∀ read, readFileFunc camera folder filename type offset64 size64 = .ok read →
    ∃ object, camera.find folder filename = .ok object ∧
      read.buf = object.part offset64.toNat size64.toNat ∧
      read.size64.toNat = read.buf.length ∧ read.buf.length ≤ size64.toNat
  /-- The end of the part, as the guard computes it. -/
  guard : (offset64 + size64).toNat = offset64.toNat + size64.toNat
  /-- The end of the part and the length up to the end of the object, in 32 bits. -/
  clip : ∀ object, readFileCheck camera folder filename type offset64 size64 = .ok object →
    let offset := offset64.toUInt32
    let size := size64.toUInt32
    let xsize := object.ob.oi.objectCompressedSize.toUInt32
    (size + offset).toNat = size.toNat + offset.toNat ∧
      (size + offset > xsize → offset.toNat + (xsize - offset).toNat = xsize.toNat)

/-- The end of the part is a 64-bit number. Where the request reaches the camera, the part starts
inside the object, whose size counts in 32 bits, and the camera fails or sends the part. -/
def ReadFileFits : Prop :=
  offset64.toNat + size64.toNat < 2 ^ 64 ∧
  ∀ object, readFileCheck camera folder filename type offset64 size64 = .ok object →
    let xsize := object.ob.oi.objectCompressedSize.toUInt32
    let answer := camera.getPartialObject object.ob.oid offset64.toUInt32
      (clippedSize offset64.toUInt32 size64.toUInt32 xsize)
    offset64.toNat ≤ xsize.toNat ∧
      (answer.1 = ptpRcOk → answer.2.take (answer.2.length % 2 ^ 32) =
        object.part offset64.toNat size64.toNat)

variable {camera folder filename type offset64 size64}

theorem readFileCheck_rejects (h : offset64 + size64 > 0xffffffff) :
    readFileCheck camera folder filename type offset64 size64 = .error gpErrorBadParameters := by
  unfold readFileCheck
  rw [if_pos h]
  rfl

variable {object : StoredObject}

section
variable (h : readFileCheck camera folder filename type offset64 size64 = .ok object)
include h

/-- What the checks found is what the path leads to, and the guard let it pass. -/
theorem readFileCheck_ok :
    (offset64 + size64).toNat ≤ 0xffffffff ∧ camera.find folder filename = .ok object := by
  by_cases hguard : offset64 + size64 > 0xffffffff
  · rw [readFileCheck_rejects hguard] at h
    cases h
  · refine ⟨UInt64.le_iff_toNat_le.mp (UInt64.not_lt.mp hguard), ?_⟩
    unfold readFileCheck at h
    simp only [bind, Except.bind, throw, throwThe, MonadExceptOf.throw, pure, Except.pure] at h
    repeat' split at h
    all_goals cases h
    assumption

theorem readFileFunc_of_check :
    readFileFunc camera folder filename type offset64 size64 =
      readFileTransfer camera object offset64.toUInt32 size64.toUInt32 := by
  rw [readFileFunc, h]
  rfl

end

theorem readFileTransfer_ok {offset size : UInt32} {read : PartialRead}
    (h : readFileTransfer camera object offset size = .ok read) :
    let answer := camera.getPartialObject object.ob.oid offset
      (clippedSize offset size object.ob.oi.objectCompressedSize.toUInt32)
    answer.1 = ptpRcOk ∧ read.buf = answer.2.take (answer.2.length % 2 ^ 32) ∧
      read.size64.toNat = answer.2.length % 2 ^ 32 := by
  intro answer
  unfold readFileTransfer at h
  change (if answer.1 = ptpErrorCancel then _ else _) = _ at h
  by_cases hok : answer.1 = ptpRcOk
  · have hcancel : answer.1 ≠ ptpErrorCancel := by
      rw [hok]
      decide
    rw [if_neg hcancel, if_neg (Decidable.not_not.mpr hok)] at h
    cases h
    exact ⟨hok, by rw [UInt32.toNat_ofNat'], by rw [UInt32.toNat_toUInt64, UInt32.toNat_ofNat']⟩
  · rw [if_pos hok] at h
    split at h
    all_goals cases h

theorem readFileTransfer_of_ok {offset size : UInt32}
    (h : (camera.getPartialObject object.ob.oid offset
      (clippedSize offset size object.ob.oi.objectCompressedSize.toUInt32)).1 = ptpRcOk) :
    ∃ read, readFileTransfer camera object offset size = .ok read := by
  unfold readFileTransfer
  simp only [h]
  exact ⟨_, rfl⟩

/-- The 32-bit numbers are the 64-bit ones once the guard has compared their sum. -/
theorem narrowed (hguard : (offset64 + size64).toNat ≤ 0xffffffff)
    (hsum : offset64.toNat + size64.toNat < 2 ^ 64) :
    offset64.toNat + size64.toNat < 2 ^ 32 ∧ offset64.toUInt32.toNat = offset64.toNat ∧
      size64.toUInt32.toNat = size64.toNat := by
  rw [UInt64.toNat_add, Nat.mod_eq_of_lt hsum] at hguard
  rw [UInt64.toNat_toUInt32, UInt64.toNat_toUInt32]
  exact ⟨by omega, Nat.mod_eq_of_lt (by omega), Nat.mod_eq_of_lt (by omega)⟩

theorem ReadFileSound.fits (h : ReadFileSound camera folder filename type offset64 size64) :
    ReadFileFits camera folder filename type offset64 size64 := by
  have hsum : offset64.toNat + size64.toNat < 2 ^ 64 := by
    rw [← h.guard]
    exact (offset64 + size64).toNat_lt
  refine ⟨hsum, fun object hcheck => ?_⟩
  intro xsize answer
  obtain ⟨hguard, hfind⟩ := readFileCheck_ok hcheck
  obtain ⟨_, hoffset, hsize⟩ := narrowed hguard hsum
  constructor
  · by_contra hbehind
    obtain ⟨hadd, hsub⟩ := h.clip object hcheck
    -- A start behind the end is clipped, to a length that is negative.
    have hclip : size64.toUInt32 + offset64.toUInt32 > xsize := by
      rw [gt_iff_lt, UInt32.lt_iff_toNat_lt, hadd]
      omega
    have hle : offset64.toUInt32.toNat + (xsize - offset64.toUInt32).toNat = xsize.toNat :=
      hsub hclip
    omega
  · intro hok
    obtain ⟨read, hread⟩ := readFileTransfer_of_ok hok
    obtain ⟨found, hfound, hbuf, _⟩ := h.exact read ((readFileFunc_of_check hcheck).trans hread)
    rw [hfind] at hfound
    cases hfound
    rw [← (readFileTransfer_ok hread).2.1, hbuf]

theorem ReadFileFits.sound (h : ReadFileFits camera folder filename type offset64 size64) :
    ReadFileSound camera folder filename type offset64 size64 := by
  obtain ⟨hsum, hcamera⟩ := h
  have hguard : (offset64 + size64).toNat = offset64.toNat + size64.toNat := by
    rw [UInt64.toNat_add, Nat.mod_eq_of_lt hsum]
  refine ⟨fun hbeyond => ?_, fun read hread => ?_, hguard, fun object hcheck => ?_⟩
  · have hcheck : readFileCheck camera folder filename type offset64 size64 =
        .error gpErrorBadParameters := by
      refine readFileCheck_rejects ?_
      rw [gt_iff_lt, UInt64.lt_iff_toNat_lt, hguard]
      exact hbeyond
    rw [readFileFunc, hcheck]
    rfl
  · cases hcheck : readFileCheck camera folder filename type offset64 size64 with
    | error code =>
      rw [readFileFunc, hcheck] at hread
      cases hread
    | ok object =>
      rw [readFileFunc_of_check hcheck] at hread
      obtain ⟨hok, hbuf, hlength⟩ := readFileTransfer_ok hread
      -- What the camera sent is the part, cut to a 32-bit length.
      have hpart := hbuf.trans ((hcamera object hcheck).2 hok)
      have hmod := Nat.mod_le (camera.getPartialObject object.ob.oid offset64.toUInt32
        (clippedSize offset64.toUInt32 size64.toUInt32
          object.ob.oi.objectCompressedSize.toUInt32)).2.length (2 ^ 32)
      refine ⟨object, (readFileCheck_ok hcheck).2, hpart, ?_, ?_⟩
      · rw [hlength, hbuf, List.length_take, Nat.min_eq_left hmod]
      · rw [hpart]
        exact List.length_take_le _ _
  · intro offset size xsize
    obtain ⟨hlt, hoffset, hsize⟩ := narrowed (readFileCheck_ok hcheck).1 hsum
    change offset.toNat = _ at hoffset
    change size.toNat = _ at hsize
    have hinside : offset64.toNat ≤ xsize.toNat := (hcamera object hcheck).1
    constructor
    · rw [UInt32.toNat_add, Nat.mod_eq_of_lt (by omega)]
    · intro _
      have hle : offset ≤ xsize := by
        rw [UInt32.le_iff_toNat_le, hoffset]
        exact hinside
      have hsub := UInt32.toNat_sub_of_le xsize offset hle
      omega

variable (camera folder filename type offset64 size64)

/-- A read is as expected exactly for the requests and answers that fit. -/
theorem readFile_sound_iff : ReadFileSound camera folder filename type offset64 size64 ↔
    ReadFileFits camera folder filename type offset64 size64 :=
  ⟨ReadFileSound.fits, ReadFileFits.sound⟩

/-- A read that starts behind the end of an object of one byte asks for 2 ^ 32 - 1 bytes. -/
theorem readFile_behind : ¬ ∀ camera folder filename type offset64 size64,
    ReadFileSound camera folder filename type offset64 size64 := by
  intro h
  let ob := PTPObject.new 1
  let object : StoredObject :=
    ⟨{ ob with oi := { ob.oi with objectCompressedSize := 1 } }, [0], rfl⟩
  let camera : ObjectReader :=
    ⟨0, [ptpOcGetPartialObject], fun _ _ => .ok object, fun _ _ _ => (ptpRcOk, [])⟩
  have hwrap := ((h camera [] [] .normal 2 1).clip object rfl).2 (by decide)
  exact absurd hwrap (by decide)

end GPhoto2
