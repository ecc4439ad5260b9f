import GPhoto2.Proofs.Ptp.CanonChanges

/-!
# `GPhoto2.Proofs.Ptp.CanonIsolation`: records of an event block one by one

In a longer block, a record unpacks as if it were the whole block, but for `CustomFuncEx`, whose
text is always printed from the start of the block.
-/

set_option autoImplicit false

namespace GPhoto2

open Lib
open Option (bind_eq_bind bind_eq_some_iff bind_some isSome_iff_exists isSome_of_eq_some)

/-! ### More bytes -/

/-- What the one has the other one has too. -/
def Kept {α : Type} (o o' : Option α) : Prop := ∀ a, o = some a → o' = some a

theorem Kept.refl {α : Type} (o : Option α) : Kept o o := fun _ h => h

theorem Kept.bind {α β : Type} {o o' : Option α} {f f' : α → Option β} (h : Kept o o')
    (hf : ∀ a, Kept (f a) (f' a)) : Kept (o >>= f) (o' >>= f') := by
  intro b hb
  obtain ⟨a, ha, hb⟩ := bind_eq_some_iff.mp hb
  exact bind_eq_some_iff.mpr ⟨a, h a ha, hf a b hb⟩

theorem Kept.map {α β : Type} {o o' : Option α} (h : Kept o o') (f : α → β) :
    Kept (o.map f) (o'.map f) := by
  intro b hb
  obtain ⟨a, ha, hb⟩ := Option.map_eq_some_iff.mp hb
  exact Option.map_eq_some_iff.mpr ⟨a, h a ha, hb⟩

/-- The record is the part of the block from an offset on. -/
def LiesAt (record block : List UInt8) (off : Nat) : Prop :=
  slice block off record.length = some record

section
variable {params : PTPParams} {record block : List UInt8} {off : Nat}

section
variable (h : LiesAt record block off)
include h

variable (k n : Nat)

theorem slice_kept :
    Kept (slice record k n) (slice block (off + k) n) := fun _ hbs => slice_slice h hbs

theorem dtoh32ap_kept :
    Kept (dtoh32ap params record k) (dtoh32ap params block (off + k)) := (slice_kept h k 4).map _

theorem dtoh16ap_kept :
    Kept (dtoh16ap params record k) (dtoh16ap params block (off + k)) := (slice_kept h k 2).map _

theorem strdup_kept :
    Kept (strdup record k) (strdup block (off + k)) := by
  intro text htext
  unfold strdup at htext ⊢
  by_cases hzero : 0 ∈ record.drop k
  · rw [if_pos hzero] at htext
    obtain ⟨rest, hrest⟩ : record.drop k <+: block.drop (off + k) := by
      obtain ⟨-, hrecord⟩ := slice_eq_some.mp h
      rw [← List.drop_drop]
      conv_lhs => rw [← hrecord, List.drop_take]
      exact List.take_prefix _ _
    obtain ⟨text', tail, hsplit, hne⟩ := List.eq_append_cons_of_mem hzero
    have hpos : ∀ b ∈ text', decide (b ≠ 0) = true := fun b hb =>
      decide_eq_true fun hb0 => hne (hb0 ▸ hb)
    rw [← hrest, if_pos (List.mem_append_left _ hzero), ← htext, hsplit, List.append_assoc,
      List.takeWhile_append_of_pos hpos, List.takeWhile_append_of_pos hpos]
    rfl
  · rw [if_neg hzero] at htext
    cases htext

theorem imageFormat_kept :
    Kept (ptpUnpackEOSImageFormat params record k)
      (ptpUnpackEOSImageFormat params block (off + k)) := by
  unfold ptpUnpackEOSImageFormat
  refine (dtoh32ap_kept h k).bind fun n => ?_
  by_cases hn : n ≠ 1 ∧ n ≠ 2
  · rw [if_pos hn, if_pos hn]
    exact Kept.refl _
  rw [if_neg hn, if_neg hn]
  refine (dtoh32ap_kept h (k + 4)).bind fun l => ?_
  by_cases hl : l ≠ 0x10
  · rw [if_pos hl, if_pos hl]
    exact Kept.refl _
  rw [if_neg hl, if_neg hl]
  refine (dtoh32ap_kept h (k + 12)).bind fun s1 => (dtoh32ap_kept h (k + 16)).bind fun c1 => ?_
  by_cases h2 : n = 2
  · simp only [if_pos h2]
    refine (dtoh32ap_kept h (k + 20)).bind fun l => ?_
    by_cases hl : l ≠ 0x10
    · rw [if_pos hl, if_pos hl]
      exact Kept.refl _
    rw [if_neg hl, if_neg hl]
    exact (dtoh32ap_kept h (k + 28)).bind fun s2 =>
      (dtoh32ap_kept h (k + 32)).bind fun c2 => Kept.refl _
  · simp only [if_neg h2]
    exact Kept.refl _

/-! ### `AvailListChanged` -/

theorem imageFormatValues_kept (k : Nat) :
    Kept (imageFormatValues params record n k) (imageFormatValues params block n (off + k)) := by
  induction n generalizing k with
  | zero => exact Kept.refl _
  | succ n ih =>
    unfold imageFormatValues
    refine (imageFormat_kept h k).bind ?_
    rintro ⟨format, len⟩
    simp only [Nat.add_assoc]
    exact (ih (k + len)).bind fun values => Kept.refl _

theorem enumValues_kept (t : ScalarType) (n k : Nat) :
    Kept (enumValues params record t n k) (enumValues params block t n (off + k)) := by
  induction n generalizing k with
  | zero => exact Kept.refl _
  | succ n ih =>
    unfold enumValues
    exact (slice_kept h k t.size).bind fun bs => (ih (k + 4)).bind fun values => Kept.refl _

theorem supportedValues_kept (proptype : UInt32)
    (dataType : UInt16) (propxcnt xsize : UInt32) (k : Nat) :
    Kept (supportedValues params record proptype dataType propxcnt xsize k)
      (supportedValues params block proptype dataType propxcnt xsize (off + k)) := by
  unfold supportedValues
  by_cases himage : proptype ∈ imageFormatProps
  · rw [if_pos himage, if_pos himage]
    exact imageFormatValues_kept h _ _
  rw [if_neg himage, if_neg himage]
  cases enumType dataType with
  | some t => exact enumValues_kept h t _ _
  | none =>
    exact (dtoh32ap_kept h k).bind fun _ => (slice_kept h k _).bind fun _ => Kept.refl _

theorem availListChanged_kept (size : UInt32)
    (p : CanonParams) :
    Kept (availListChanged params record k size p)
      (availListChanged params block (off + k) size p) := by
  unfold availListChanged
  refine (dtoh32ap_kept h (k + 8)).bind fun proptype =>
    (dtoh32ap_kept h (k + 0xc)).bind fun propxtype =>
    (dtoh32ap_kept h (k + 0x10)).bind fun propxcnt => ?_
  simp only
  cases p.canonProps[canonPropIdx p.canonProps proptype]? with
  | none => exact Kept.refl _
  | some prop =>
    by_cases hx : propxtype ≠ 3
    · simp only [if_pos hx]
      exact (slice_kept h (k + 0x14) _).bind fun _ => Kept.refl _
    simp only [if_neg hx]
    by_cases hcnt : propxcnt = 0
    · rw [if_pos hcnt, if_pos hcnt]
      exact Kept.refl _
    rw [if_neg hcnt, if_neg hcnt]
    exact (supportedValues_kept h _ _ _ _ (k + 0x14)).bind fun values => Kept.refl _

/-! ### `PropValueChanged` -/

theorem setValues_kept (dpd : PTPDevicePropDesc) :
    Kept (setValues params record k dpd) (setValues params block (off + k) dpd) := by
  unfold setValues
  cases enumType dpd.dataType with
  | some t => exact (slice_kept h k t.size).map _
  | none =>
    by_cases hstr : dpd.dataType = ptpDtcStr
    · simp only [if_pos hstr]
      exact (strdup_kept h k).map _
    · simp only [if_neg hstr]
      exact Kept.refl _

end

/-- The record has a value of the property `CustomFuncEx`. -/
def IsCustomFuncEx (params : PTPParams) (record : List UInt8) : Prop :=
  dtoh32ap params record 4 = some ptpEcCanonEosPropValueChanged ∧
    dtoh32ap params record 8 = some ptpDpcCanonEosCustomFuncEx

instance (params : PTPParams) (record : List UInt8) : Decidable (IsCustomFuncEx params record) :=
  inferInstanceAs (Decidable (_ ∧ _))

variable (h : LiesAt record block off)
include h

theorem setSpecialValues_kept {proptype : UInt32}
    (hcustom : proptype = ptpDpcCanonEosCustomFuncEx →
      Kept (ptpUnpackEOSCustomFuncEx params record 0) (ptpUnpackEOSCustomFuncEx params block 0))
    (k : Nat) (dpd : PTPDevicePropDesc) :
    Kept (setSpecialValues params record proptype k dpd)
      (setSpecialValues params block proptype (off + k) dpd) := by
  unfold setSpecialValues
  by_cases himage : proptype ∈ imageFormatProps
  · rw [if_pos himage, if_pos himage]
    exact (imageFormat_kept h k).bind fun format => Kept.refl _
  rw [if_neg himage, if_neg himage]
  by_cases hq : proptype = ptpDpcCanonEosCustomFuncEx
  · rw [if_pos hq, if_pos hq]
    exact (hcustom hq).bind fun text => Kept.refl _
  · rw [if_neg hq, if_neg hq]
    exact Kept.refl _

theorem describeProp_kept {proptype : UInt32}
    (hcustom : proptype = ptpDpcCanonEosCustomFuncEx →
      Kept (ptpUnpackEOSCustomFuncEx params record 0) (ptpUnpackEOSCustomFuncEx params block 0))
    (k : Nat) (dpd : PTPDevicePropDesc) :
    Kept (describeProp params record proptype k dpd)
      (describeProp params block proptype (off + k) dpd) := by
  unfold describeProp
  by_cases hfunc : proptype ∈ customFuncProps
  · simp only [if_pos hfunc]
    exact (setValues_kept h (k + 4) _).bind fun dpd => setSpecialValues_kept h hcustom (k + 4) dpd
  · simp only [if_neg hfunc]
    exact (setValues_kept h k _).bind fun dpd => setSpecialValues_kept h hcustom k dpd

theorem propValueChanged_kept
    (hcustom : dtoh32ap params record 8 = some ptpDpcCanonEosCustomFuncEx →
      Kept (ptpUnpackEOSCustomFuncEx params record 0) (ptpUnpackEOSCustomFuncEx params block 0))
    (size type : UInt32) (p : CanonParams) :
    Kept (propValueChanged params record 0 size type p)
      (propValueChanged params block off size type p) := by
  intro x hx
  unfold propValueChanged at hx ⊢
  obtain ⟨proptype, hproptype, hx⟩ := bind_eq_some_iff.mp hx
  refine bind_eq_some_iff.mpr ⟨proptype, dtoh32ap_kept h 8 _ hproptype, ?_⟩
  refine ((slice_kept h 0xc _).bind fun payload => ?_) x hx
  refine (Kept.refl _).bind fun prop => ?_
  refine (describeProp_kept h (fun hq => hcustom ?_) 0xc prop.dpd).bind fun dpd => Kept.refl _
  rw [← hq]
  exact hproptype

/-! ### The other records -/

theorem objectAddedEx_kept :
    Kept (objectAddedEx params record 0) (objectAddedEx params block off) :=
  (dtoh32ap_kept h 8).bind fun _ => (dtoh32ap_kept h 0xc).bind fun _ =>
    (dtoh32ap_kept h 0x20).bind fun _ =>
    (dtoh16ap_kept h 0x10).bind fun _ => (dtoh32ap_kept h 0x1c).bind fun _ =>
      (strdup_kept h 0x28).bind fun _ => Kept.refl _

theorem requestObjectTransfer_kept :
    Kept (requestObjectTransfer params record 0) (requestObjectTransfer params block off) :=
  (dtoh32ap_kept h 8).bind fun _ => (dtoh16ap_kept h 0xc).bind fun _ =>
    (dtoh32ap_kept h 0x14).bind fun _ =>
    (strdup_kept h 0x1c).bind fun _ => Kept.refl _

theorem unhandledEvent_kept (size type : UInt32) :
    Kept (unhandledEvent record 0 size type) (unhandledEvent block off size type) := by
  unfold unhandledEvent
  refine (Kept.refl _).bind fun info => ?_
  by_cases hsize : 8 ≤ size
  · rw [if_pos hsize, if_pos hsize]
    exact (slice_kept h 8 _).bind fun _ => Kept.refl _
  · rw [if_neg hsize, if_neg hsize]
    exact Kept.refl _

/-- A record that is unpacked where it is alone is unpacked in the same way in a longer block, if
it is none whose text is printed from the start of the block, or if this text is the same. -/
theorem unpackRecord_kept {size type : UInt32}
    (htype : dtoh32ap params record 4 = some type)
    (hcustom : IsCustomFuncEx params record →
      Kept (ptpUnpackEOSCustomFuncEx params record 0) (ptpUnpackEOSCustomFuncEx params block 0))
    (p : CanonParams) :
    Kept (unpackRecord params record 0 size type p)
      (unpackRecord params block off size type p) := by
  unfold unpackRecord
  by_cases hadded : type = ptpEcCanonEosObjectAddedEx
  · rw [if_pos hadded, if_pos hadded]
    exact (objectAddedEx_kept h).map _
  rw [if_neg hadded, if_neg hadded]
  by_cases hrequest : type = ptpEcCanonEosRequestObjectTransfer
  · rw [if_pos hrequest, if_pos hrequest]
    exact (requestObjectTransfer_kept h).map _
  rw [if_neg hrequest, if_neg hrequest]
  by_cases havail : type = ptpEcCanonEosAvailListChanged
  · rw [if_pos havail, if_pos havail]
    exact availListChanged_kept h 0 size p
  rw [if_neg havail, if_neg havail]
  by_cases hvalue : type = ptpEcCanonEosPropValueChanged ∧ 0xc ≤ size
  · rw [if_pos hvalue, if_pos hvalue]
    rw [hvalue.1] at htype
    exact propValueChanged_kept h (fun hq => hcustom ⟨htype, hq⟩) size type p
  rw [if_neg hvalue, if_neg hvalue]
  by_cases hstatus : type = ptpEcCanonEosPropValueChanged ∨
      type = ptpEcCanonEosCameraStatusChanged
  · rw [if_pos hstatus, if_pos hstatus]
    exact (dtoh32ap_kept h 8).bind fun status => Kept.refl _
  rw [if_neg hstatus, if_neg hstatus]
  by_cases hzero : type = 0
  · rw [if_pos hzero, if_pos hzero]
    exact Kept.refl _
  rw [if_neg hzero, if_neg hzero]
  by_cases hbulb : type = ptpEcCanonEosBulbExposureTime
  · rw [if_pos hbulb, if_pos hbulb]
    exact ((dtoh32ap_kept h 8).bind fun time => Kept.refl _).map _
  · rw [if_neg hbulb, if_neg hbulb]
    exact (unhandledEvent_kept h size type).map _

end

/-! ### The text of `CustomFuncEx` -/

theorem digitChar_ne_comma {n : Nat} (hn : n < 16) : n.digitChar ≠ ',' := by
  have hall : ∀ k : Fin 16, k.val.digitChar ≠ ',' := by decide
  exact hall ⟨n, hn⟩

theorem digitChar_inj {m n : Nat} (hm : m < 16) (hn : n < 16)
    (h : m.digitChar = n.digitChar) : m = n := by
  have hall : ∀ j k : Fin 16, j.val.digitChar = k.val.digitChar → j = k := by decide
  exact congrArg Fin.val (hall ⟨m, hm⟩ ⟨n, hn⟩ h)

theorem comma_notMem_toDigits (n : Nat) : ',' ∉ Nat.toDigits 16 n := by
  induction n using Nat.strongRecOn with
  | ind n ih =>
    rw [Nat.toDigits_eq_if (by decide)]
    by_cases hn : n < 16
    · rw [if_pos hn, List.mem_singleton]
      exact (digitChar_ne_comma hn).symm
    · rw [if_neg hn, List.mem_append, List.mem_singleton]
      rintro (hmem | heq)
      · exact ih (n / 16) (by omega) hmem
      · exact digitChar_ne_comma (Nat.mod_lt n (by decide)) heq.symm

theorem toDigits_append_ne (n : Nat) (c d : Char) : Nat.toDigits 16 n ++ [c] ≠ [d] := by
  intro h
  have hlen := congrArg List.length h
  rw [List.length_append] at hlen
  exact Nat.toDigits_ne_nil (List.length_eq_zero_iff.mp (Nat.succ.inj hlen))

theorem toDigits_inj {m n : Nat} (h : Nat.toDigits 16 m = Nat.toDigits 16 n) : m = n := by
  induction m using Nat.strongRecOn generalizing n with
  | ind m ih =>
    rw [Nat.toDigits_eq_if (by decide), @Nat.toDigits_eq_if 16 n (by decide)] at h
    by_cases hm : m < 16
    · rw [if_pos hm] at h
      by_cases hn : n < 16
      · rw [if_pos hn] at h
        exact digitChar_inj hm hn (List.cons.inj h).1
      · rw [if_neg hn] at h
        exact absurd h.symm (toDigits_append_ne _ _ _)
    · rw [if_neg hm] at h
      by_cases hn : n < 16
      · rw [if_pos hn] at h
        exact absurd h (toDigits_append_ne _ _ _)
      · rw [if_neg hn] at h
        obtain ⟨hhigh, hlow⟩ := List.append_inj' h rfl
        have hdiv := ih (m / 16) (by omega) hhigh
        have hmod := digitChar_inj (Nat.mod_lt m (by decide)) (Nat.mod_lt n (by decide))
          (List.cons.inj hlow).1
        omega

theorem append_comma_inj {s t u v : List Char} (hs : ',' ∉ s) (ht : ',' ∉ t)
    (h : s ++ ',' :: u = t ++ ',' :: v) : s = t ∧ u = v := by
  induction s generalizing t with
  | nil =>
    cases t with
    | nil => exact ⟨rfl, (List.cons.inj h).2⟩
    | cons c t => exact absurd (List.mem_cons.mpr (Or.inl (List.cons.inj h).1)) ht
  | cons c s ih =>
    cases t with
    | nil => exact absurd (List.mem_cons.mpr (Or.inl (List.cons.inj h).1.symm)) hs
    | cons d t =>
      obtain ⟨hcd, htail⟩ := List.cons.inj h
      obtain ⟨hst, huv⟩ := ih (fun hmem => hs (List.mem_cons_of_mem c hmem))
        (fun hmem => ht (List.mem_cons_of_mem d hmem)) htail
      exact ⟨by rw [hcd, hst], huv⟩

/-- What is printed of some words. -/
def printedWords (words : List UInt32) : CString :=
  words.flatMap fun word => hexadecimal word ++ [',']

theorem printedWords_inj {words words' : List UInt32}
    (h : printedWords words = printedWords words') : words = words' := by
  have hcons (word : UInt32) (words : List UInt32) :
      printedWords (word :: words) = hexadecimal word ++ ',' :: printedWords words := by
    unfold printedWords
    rw [List.flatMap_cons, List.append_assoc]
    rfl
  induction words generalizing words' with
  | nil =>
    cases words' with
    | nil => rfl
    | cons word' words' =>
      rw [hcons] at h
      exact absurd h.symm (by simp [printedWords])
  | cons word words ih =>
    rw [hcons] at h
    cases words' with
    | nil => exact absurd h (by simp [printedWords])
    | cons word' words' =>
      rw [hcons] at h
      obtain ⟨hword, hrest⟩ :=
        append_comma_inj (comma_notMem_toDigits _) (comma_notMem_toDigits _) h
      rw [UInt32.toNat_inj.mp (toDigits_inj hword), ih hrest]

theorem mapM_eq_some_iff {α β : Type} {f : α → Option β} {as : List α} {bs : List β} :
    as.mapM f = some bs ↔ as.map f = bs.map some := by
  induction as generalizing bs with
  | nil =>
    cases bs with
    | nil => exact iff_of_true rfl rfl
    | cons b bs => exact iff_of_false (fun h => by cases h) fun h => by cases h
  | cons a as ih =>
    rw [List.mapM_cons]
    constructor
    · intro h
      obtain ⟨b, hb, h⟩ := bind_eq_some_iff.mp h
      obtain ⟨bs', hbs, h⟩ := bind_eq_some_iff.mp h
      cases h
      rw [List.map_cons, List.map_cons, hb, ih.mp hbs]
    · intro h
      cases bs with
      | nil => cases h
      | cons b bs =>
        obtain ⟨hb, hbs⟩ := List.cons.inj h
        rw [hb, ih.mpr hbs]
        rfl

section
variable {params : PTPParams} {record block : List UInt8}

theorem customFunc_eq_some {data : List UInt8} {text : CString}
    (h : ptpUnpackEOSCustomFuncEx params data 0 = some text) :
    ∃ s words, dtoh32ap params data 0 = some s ∧ s / 4 ≠ 0 ∧
      (List.range (s / 4).toNat).map (fun i => dtoh32ap params data (4 * i)) = words.map some ∧
      text = printedWords words := by
  unfold ptpUnpackEOSCustomFuncEx at h
  obtain ⟨s, hs, h⟩ := bind_eq_some_iff.mp h
  obtain ⟨words, hwords, h⟩ := bind_eq_some_iff.mp h
  simp only [Nat.zero_add] at hwords
  by_cases hn : s / 4 = 0
  · simp only [if_pos hn] at h
    cases h
  · simp only [if_neg hn] at h
    refine ⟨s, words, hs, hn, mapM_eq_some_iff.mp hwords, ?_⟩
    unfold sprintf at h
    by_cases hfits : (words.flatMap fun word => hexadecimal word ++ [',']).length <
        (s * 2 + s / 4 + 1).toNat
    · rw [if_pos hfits] at h
      exact (Option.some.inj h).symm
    · rw [if_neg hfits] at h
      cases h

theorem customFunc_congr {s : UInt32} (hs : dtoh32ap params record 0 = some s)
    (hs' : dtoh32ap params block 0 = some s)
    (hwords : ∀ i < (s / 4).toNat, dtoh32ap params record (4 * i) = dtoh32ap params block (4 * i)) :
    ptpUnpackEOSCustomFuncEx params record 0 = ptpUnpackEOSCustomFuncEx params block 0 := by
  have hmap : (List.range (s / 4).toNat).mapM (fun i => dtoh32ap params record (4 * i)) =
      (List.range (s / 4).toNat).mapM fun i => dtoh32ap params block (4 * i) := by
    refine Option.ext fun words => ?_
    rw [mapM_eq_some_iff, mapM_eq_some_iff,
      List.map_congr_left fun i hi => hwords i (List.mem_range.mp hi)]
  unfold ptpUnpackEOSCustomFuncEx
  rw [hs, hs']
  simp only [bind_eq_bind, bind_some, Nat.zero_add, hmap]

theorem words_eq_iff {a b : List UInt8} {n : Nat} (ha : 4 * n ≤ a.length)
    (hb : 4 * n ≤ b.length) :
    (∀ i < n, dtoh32ap params a (4 * i) = dtoh32ap params b (4 * i)) ↔
      a.take (4 * n) = b.take (4 * n) := by
  induction n with
  | zero => exact iff_of_true (fun i hi => absurd hi (Nat.not_lt_zero i)) (by simp)
  | succ n ih =>
    have hsplit (l : List UInt8) :
        l.take (4 * (n + 1)) = l.take (4 * n) ++ (l.drop (4 * n)).take 4 := by
      rw [← List.take_add, Nat.mul_succ]
    have hword (l : List UInt8) (hl : 4 * (n + 1) ≤ l.length) :
        slice l (4 * n) 4 = some ((l.drop (4 * n)).take 4) :=
      slice_eq_some.mpr ⟨by omega, rfl⟩
    have hlen : (a.take (4 * n)).length = (b.take (4 * n)).length := by
      rw [List.length_take, List.length_take]
      omega
    rw [hsplit a, hsplit b]
    constructor
    · intro h
      have hfront := (ih (by omega) (by omega)).mp fun i hi => h i (by omega)
      obtain ⟨x, hx⟩ := isSome_iff_exists.mp
        (dtoh32ap_isSome.mpr (by omega) : (dtoh32ap params a (4 * n)).isSome)
      have hx' : dtoh32ap params b (4 * n) = some x := (h n (Nat.lt_succ_self n)).symm.trans hx
      have hslice := (dtoh32ap_eq_some.mp hx).trans (dtoh32ap_eq_some.mp hx').symm
      rw [hword a ha, hword b hb] at hslice
      rw [hfront, Option.some.inj hslice]
    · intro h i hi
      obtain ⟨hfront, hlast⟩ := List.append_inj h hlen
      by_cases hin : i < n
      · exact (ih (by omega) (by omega)).mpr hfront i hin
      · have hi : i = n := by omega
        subst hi
        unfold dtoh32ap
        rw [hword a ha, hword b hb, hlast]

/-- A record says how long it is, and has at least its size and its type. -/
structure SaysLength (params : PTPParams) (record : List UInt8) : Prop where
  min : 8 ≤ record.length
  max : record.length < 2 ^ 31
  size : dtoh32ap params record 0 = some (UInt32.ofNat record.length)

theorem SaysLength.toNat (h : SaysLength params record) :
    (UInt32.ofNat record.length).toNat = record.length := by
  have hmax := h.max
  exact UInt32.toNat_ofNat_of_lt' (Nat.lt_trans hmax (by decide))

theorem SaysLength.toNat_div (h : SaysLength params record) :
    (UInt32.ofNat record.length / 4).toNat = record.length / 4 := by
  rw [UInt32.toNat_div, h.toNat]
  rfl

/-- The record has the words of the first record of the block. -/
def RepeatsFirst (first record : List UInt8) : Prop :=
  record.length = first.length ∧
    record.take (4 * (record.length / 4)) = first.take (4 * (record.length / 4))

/-- The text that is printed from the start of a block is the one of the record exactly if the
record repeats the first one. -/
theorem customFunc_iff {first : List UInt8} (hfirst : SaysLength params first)
    (hlies : LiesAt first block 0) (hrecord : SaysLength params record)
    (htext : (ptpUnpackEOSCustomFuncEx params record 0).isSome) :
    ptpUnpackEOSCustomFuncEx params record 0 = ptpUnpackEOSCustomFuncEx params block 0 ↔
      RepeatsFirst first record := by
  have hsize : dtoh32ap params block 0 = some (UInt32.ofNat first.length) :=
    dtoh32ap_kept hlies 0 _ hfirst.size
  obtain ⟨hfits, htake⟩ := slice_eq_some.mp hlies
  have hfront : first.take (4 * (record.length / 4)) = block.take (4 * (record.length / 4)) ∨
      record.length ≠ first.length := by
    by_cases hlen : record.length = first.length
    · left
      rw [← htake, List.drop_zero, List.take_take, Nat.min_eq_left (by omega)]
    · exact Or.inr hlen
  constructor
  · intro h
    obtain ⟨text, htext⟩ := isSome_iff_exists.mp htext
    obtain ⟨s, words, hs, hn, hwords, rfl⟩ := customFunc_eq_some htext
    rw [h] at htext
    obtain ⟨s', words', hs', hn', hwords', hprinted⟩ := customFunc_eq_some htext
    cases printedWords_inj hprinted
    cases hrecord.size.symm.trans hs
    cases hsize.symm.trans hs'
    have hmaps := hwords.trans hwords'.symm
    have hcount := congrArg List.length hmaps
    simp only [List.length_map, List.length_range] at hcount
    rw [← hcount, List.map_inj_left, hrecord.toNat_div] at hmaps
    have hmin := hrecord.min
    -- the first word of each is its length
    have hlen : record.length = first.length := by
      have hzero := hmaps 0 (List.mem_range.mpr (by omega))
      rw [Nat.mul_zero, hs, hs'] at hzero
      rw [← hrecord.toNat, ← hfirst.toNat, Option.some.inj hzero]
    refine ⟨hlen, ?_⟩
    rw [hfront.resolve_right (not_not_intro hlen)]
    exact (words_eq_iff (by omega) (by omega)).mp fun i hi => hmaps i (List.mem_range.mpr hi)
  · rintro ⟨hlen, hbytes⟩
    refine customFunc_congr hrecord.size (by rw [hlen]; exact hsize) ?_
    rw [hrecord.toNat_div]
    refine (words_eq_iff (by omega) (by omega)).mpr ?_
    rw [hbytes]
    exact hfront.resolve_right (not_not_intro hlen)

/-! ### One record of a block -/

/-- What the second loop makes of the record at an offset. -/
def unpackAt (params : PTPParams) (block : List UInt8) (off : Nat) (p : CanonParams) :
    Option (PTPCanonChangesEntry × CanonParams) := do
  let size ← dtoh32ap params block off
  let type ← dtoh32ap params block (off + 4)
  unpackRecord params block off size type p

/-- A record of `CustomFuncEx` leaves its text in the store. -/
theorem unpackAt_customFunc {data : List UInt8} {cur : Nat} {p p' : CanonParams}
    {entry : PTPCanonChangesEntry} {size : UInt32} (hlong : 0xc ≤ size)
    (hsize : dtoh32ap params data cur = some size)
    (htype : dtoh32ap params data (cur + 4) = some ptpEcCanonEosPropValueChanged)
    (hprop : dtoh32ap params data (cur + 8) = some ptpDpcCanonEosCustomFuncEx)
    (h : unpackAt params data cur p = some (entry, p')) :
    ∃ text prop, ptpUnpackEOSCustomFuncEx params data 0 = some text ∧
      prop.dpd.currentValue = .str (some text) ∧
      p'.canonProps = putCanonProp p.canonProps
        (canonPropIdx p.canonProps ptpDpcCanonEosCustomFuncEx) prop := by
  unfold unpackAt at h
  rw [hsize, htype] at h
  simp only [bind_eq_bind, bind_some] at h
  unfold unpackRecord at h
  rw [if_neg (by decide), if_neg (by decide), if_neg (by decide), if_pos ⟨rfl, hlong⟩] at h
  unfold propValueChanged at h
  rw [hprop] at h
  simp only [bind_eq_bind, bind_some] at h
  obtain ⟨payload, -, h⟩ := bind_eq_some_iff.mp h
  obtain ⟨prop, -, h⟩ := bind_eq_some_iff.mp h
  obtain ⟨dpd, hdpd, h⟩ := bind_eq_some_iff.mp h
  cases h
  unfold describeProp at hdpd
  obtain ⟨dpd₁, -, hdpd⟩ := bind_eq_some_iff.mp hdpd
  unfold setSpecialValues at hdpd
  rw [if_neg (by decide), if_pos rfl] at hdpd
  obtain ⟨text, htext, hdpd⟩ := bind_eq_some_iff.mp hdpd
  cases hdpd
  exact ⟨text, _, htext, rfl, rfl⟩

theorem putCanonProp_inj {props : List PTPCanonProperty} {j : Nat} {a b : PTPCanonProperty}
    (h : putCanonProp props j a = putCanonProp props j b) : a = b := by
  unfold putCanonProp at h
  by_cases hj : j < props.length
  · rw [if_pos hj, if_pos hj] at h
    have hget := congrArg (fun l => l[j]?) h
    simp only [List.getElem?_set_self hj] at hget
    exact Option.some.inj hget
  · rw [if_neg hj, if_neg hj] at h
    exact (List.cons.inj (List.append_cancel_left h)).1

/-- A record is unpacked in a block as it is alone exactly if it is none of `CustomFuncEx`, or
repeats the first one. -/
theorem unpackAt_iff {first : List UInt8} {off : Nat} {p : CanonParams}
    (hfirst : SaysLength params first) (hblock : LiesAt first block 0)
    (hrecord : SaysLength params record) (hlies : LiesAt record block off)
    (halone : (unpackAt params record 0 p).isSome) :
    unpackAt params block off p = unpackAt params record 0 p ↔
      (IsCustomFuncEx params record → RepeatsFirst first record) := by
  obtain ⟨⟨entry, p'⟩, halone⟩ := isSome_iff_exists.mp halone
  have hsize := dtoh32ap_kept hlies 0 _ hrecord.size
  constructor
  · rintro h ⟨htype, hprop⟩
    have hlong : 0xc ≤ UInt32.ofNat record.length := by
      have hle : 8 + 4 ≤ record.length := dtoh32ap_isSome.mp (isSome_of_eq_some hprop)
      rw [UInt32.le_iff_toNat_le, hrecord.toNat]
      exact hle
    obtain ⟨text, prop, htext, hvalue, hput⟩ :=
      unpackAt_customFunc hlong hrecord.size htype hprop halone
    obtain ⟨text', prop', htext', hvalue', hput'⟩ :=
      unpackAt_customFunc hlong hsize (dtoh32ap_kept hlies 4 _ htype)
        (dtoh32ap_kept hlies 8 _ hprop) (h.trans halone)
    cases putCanonProp_inj (hput.symm.trans hput')
    cases hvalue.symm.trans hvalue'
    exact (customFunc_iff hfirst hblock hrecord (isSome_of_eq_some htext)).mp
      (htext.trans htext'.symm)
  · intro hrepeats
    rw [halone]
    unfold unpackAt at halone ⊢
    obtain ⟨size, hsize', halone⟩ := bind_eq_some_iff.mp halone
    obtain ⟨type, htype, halone⟩ := bind_eq_some_iff.mp halone
    cases hsize'.symm.trans hrecord.size
    refine bind_eq_some_iff.mpr ⟨_, hsize, bind_eq_some_iff.mpr ⟨type, ?_, ?_⟩⟩
    · exact dtoh32ap_kept hlies 4 _ htype
    · refine unpackRecord_kept hlies htype (fun hcustom text htext => ?_) p _ halone
      have hiff := customFunc_iff hfirst hblock hrecord (isSome_of_eq_some htext)
      rw [← hiff.mpr (hrepeats hcustom)]
      exact htext

end

end GPhoto2
