import GPhoto2.Proofs.Ptp.PropertyValue
import GPhoto2.Ptp.Dataset

/-!
# `GPhoto2.Proofs.Ptp.DatasetBounds`: what the info parsers read lies in the data

The info datasets are chains of numbers, strings and arrays (`Item`). None of the readers knows
the length of the data, so a parser stays inside it exactly if every part it comes to is there
(`Whole`). `unpackInfo_inData_iff` says so of the six parsers.

A running offset that has been cut off to 16 bits stays on record (`DatasetState.truncated`), so
no later part can make up for it.
-/

set_option autoImplicit false

namespace GPhoto2

open Lib
open Option (bind_some map_eq_some_iff map_some)

/-! ### The parts of a dataset -/

/-- A part of a dataset. -/
inductive Item where
  | fixed (n : Nat)
  | string
  | array (size : Nat)

/-- The number of bytes of a part, as far as they tell. -/
def itemLength (params : PTPParams) (data : List UInt8) : Item → Nat → Option Nat
  | .fixed n, _ => some n
  | .string, off => (dtoh8a data off).map fun n => n.toNat * 2 + 1
  | .array size, off => (dtoh32ap params data off).map fun n => n.toNat * size + 4

/-- An offset that the reader of a part gets as it is. -/
def itemReaches : Item → Nat → Prop
  | .fixed _, _ => True
  | _, off => off < 2 ^ 16

/-- All of a part is in the data, up to the offset `e`, and its reader finds it. -/
def ItemEnds (params : PTPParams) (data : List UInt8) (item : Item) (off e : Nat) : Prop :=
  itemReaches item off ∧ ∃ n, itemLength params data item off = some n ∧ e = off + n ∧
    e ≤ data.length

/-- All of the parts are in the data, one behind the other. -/
def Whole (params : PTPParams) (data : List UInt8) : List Item → Nat → Prop
  | [], _ => True
  | item :: items, off => ∃ e, ItemEnds params data item off e ∧ Whole params data items e

/-- The parts are in the data as far as it goes: a part that would start at the end, or behind
it, is left out. -/
def WholeToEnd (params : PTPParams) (data : List UInt8) : List Item → Nat → Prop
  | [], _ => True
  | item :: items, off =>
    ∃ e, ItemEnds params data item off e ∧
      (data.length ≤ e ∨ WholeToEnd params data items e)

/-- A parser has read nothing outside of the data, has cut off no offset to 16 bits, and has
allocated as many elements as were announced, for each array. -/
def InData {α : Type} (run : Option (Except Empty α × DatasetState)) : Prop :=
  ∃ a s, run = some (.ok a, s) ∧ s.truncated = false ∧ ∀ p ∈ s.allocs, p.1 = p.2

variable {params : PTPParams} {data : List UInt8} {α β : Type}

/-! ### Readers of parts -/

/-- Nothing has gone wrong so far. -/
def DatasetState.Sound (s : DatasetState) : Prop :=
  s.truncated = false ∧ ∀ p ∈ s.allocs, p.1 = p.2

theorem DatasetState.sound_start (offset : Nat) : (DatasetState.start offset).Sound :=
  ⟨rfl, by simp [DatasetState.start]⟩

/-- `m` keeps the note of an offset that was cut off. -/
def KeepsTruncated (m : Dataset α) : Prop :=
  Comp.Keeps (fun s => s.truncated = true) (fun _ _ => True) m

/-- `m` reads a part: it moves behind a part that is whole, and goes wrong at any other. -/
structure Reads (params : PTPParams) (data : List UInt8) (item : Item) (m : Dataset α) :
    Prop where
  whole : ∀ s e, s.Sound → ItemEnds params data item s.offset e →
    ∃ a s', m s = some (.ok a, s') ∧ s'.offset = e ∧ s'.Sound
  cut : ∀ s a s', (¬ ∃ e, ItemEnds params data item s.offset e) →
    m s = some (.ok a, s') → s'.truncated = true
  keeps : KeepsTruncated m

/-- `m` stays in the data exactly if `P` holds of the offset it starts from. -/
structure Follows (P : Nat → Prop) (m : Dataset α) : Prop where
  inData_iff : ∀ s, s.Sound → (InData (m s) ↔ P s.offset)
  keeps : KeepsTruncated m

theorem follows_pure (a : α) : Follows (fun _ => True) (pure a : Dataset α) where
  inData_iff s hs := iff_of_true ⟨a, s, rfl, hs⟩ trivial
  keeps := .pure a

variable {P : Nat → Prop}

theorem Follows.congr {P' : Nat → Prop} {m : Dataset α} (h : Follows P m)
    (hP : ∀ off, P off ↔ P' off) : Follows P' m where
  inData_iff s hs := (h.inData_iff s hs).trans (hP s.offset)
  keeps := h.keeps

theorem Reads.bind {item : Item} {m : Dataset α} {k : α → Dataset β} {P : Nat → Prop}
    (hm : Reads params data item m) (hk : ∀ a, Follows P (k a)) :
    Follows (fun off => ∃ e, ItemEnds params data item off e ∧ P e) (m >>= k) where
  inData_iff s hs := by
    constructor
    · rintro ⟨b, s'', hrun, htrunc, hallocs⟩
      obtain ⟨a, s', hm', hk'⟩ := Comp.bind_eq_ok.mp hrun
      by_cases he : ∃ e, ItemEnds params data item s.offset e
      · obtain ⟨e, he⟩ := he
        obtain ⟨a', s₁, hrun₁, hoff, hs₁⟩ := hm.whole s e hs he
        cases hm'.symm.trans hrun₁
        refine ⟨e, he, ?_⟩
        rw [← hoff]
        exact ((hk a).inData_iff s' hs₁).mp ⟨b, s'', hk', htrunc, hallocs⟩
      · -- what was cut off stays cut off
        have htrue : s''.truncated = true :=
          ((hk a).keeps s' _ s'' (hm.cut s a s' he hm') hk').1
        rw [htrunc] at htrue
        cases htrue
    · rintro ⟨e, he, hP⟩
      obtain ⟨a, s', hrun, hoff, hs'⟩ := hm.whole s e hs he
      rw [Comp.bind_run_ok hrun]
      refine ((hk a).inData_iff s' hs').mpr ?_
      rw [hoff]
      exact hP
  keeps := .bind hm.keeps fun a => (hk a).keeps

theorem Reads.inData_iff {item : Item} {m : Dataset α} (hm : Reads params data item m)
    {s : DatasetState} (hs : s.Sound) : InData (m s) ↔ Whole params data [item] s.offset := by
  constructor
  · rintro ⟨a, s', hrun, htrunc, -⟩
    by_contra hcut
    have htrue := hm.cut s a s' (fun ⟨e, he⟩ => hcut ⟨e, he, trivial⟩) hrun
    rw [htrunc] at htrue
    cases htrue
  · rintro ⟨e, he, -⟩
    obtain ⟨a, s', hrun, -, hs'⟩ := hm.whole s e hs he
    exact ⟨a, s', hrun, hs'⟩

/-- `if (totallen >= datalen) return`. -/
theorem follows_toEnd (a : α) {m : Dataset α} (hm : Follows P m) :
    Follows (fun off => data.length ≤ off ∨ P off)
      (do let s ← Comp.get
          if data.length ≤ s.offset then pure a else m) where
  inData_iff s hs := by
    rw [Comp.get_bind_run]
    by_cases hend : data.length ≤ s.offset
    · rw [if_pos hend]
      exact iff_of_true ⟨a, s, rfl, hs⟩ (Or.inl hend)
    · rw [if_neg hend, hm.inData_iff s hs]
      simp only [hend, false_or]
  keeps := .get_bind fun s =>
    Comp.Keeps.ite (fun _ => .pure a) (fun _ => hm.keeps) s

/-! ### The primitive reads -/

theorem skip_keeps (n : Nat) : KeepsTruncated (skip n) :=
  .modify fun _ hs => ⟨hs, trivial⟩

theorem allocArray_keeps (n size : Nat) : KeepsTruncated (allocArray n size) :=
  .modify fun _ hs => ⟨hs, trivial⟩

variable {read : Nat → Option α}

theorem readOffset_eq_some {s s' : DatasetState} {r : Except Empty α} :
    readOffset read s = some (r, s') ↔ ∃ a, read s.offset = some a ∧ r = .ok a ∧ s' = s := by
  unfold readOffset
  rw [map_eq_some_iff]
  constructor
  · rintro ⟨a, ha, he⟩
    cases he
    exact ⟨a, ha, rfl, rfl⟩
  · rintro ⟨a, ha, rfl, rfl⟩
    exact ⟨a, ha, rfl⟩

theorem readOffset_keeps (read : Nat → Option α) : KeepsTruncated (readOffset read) := by
  intro s r s' hs hrun
  obtain ⟨-, -, -, rfl⟩ := readOffset_eq_some.mp hrun
  exact ⟨hs, trivial⟩

theorem readOffset16_eq_some {read : UInt16 → Option α} {s s' : DatasetState}
    {r : Except Empty α} :
    readOffset16 read s = some (r, s') ↔ ∃ a, read (UInt16.ofNat s.offset) = some a ∧
      r = .ok a ∧ s' = { s with truncated := s.truncated || decide (2 ^ 16 ≤ s.offset) } := by
  unfold readOffset16
  rw [map_eq_some_iff]
  constructor
  · rintro ⟨a, ha, he⟩
    cases he
    exact ⟨a, ha, rfl, rfl⟩
  · rintro ⟨a, ha, rfl, rfl⟩
    exact ⟨a, ha, rfl⟩

theorem readOffset16_keeps (read : UInt16 → Option α) : KeepsTruncated (readOffset16 read) := by
  intro s r s' hs hrun
  obtain ⟨a, -, -, rfl⟩ := readOffset16_eq_some.mp hrun
  have htrue : s.truncated = true := hs
  exact ⟨by simp only [htrue, Bool.true_or], trivial⟩

/-! ### Strings and arrays -/

variable {k : α → Dataset β}

/-- A reader that takes the offset as an `uint16_t` reads a part, if it finds exactly the whole
parts, and what is done with the value moves behind it. -/
theorem reads_readOffset16 {item : Item} {read : UInt16 → Option α}
    (hreaches : ∀ off, itemReaches item off ↔ off < 2 ^ 16)
    (hread : ∀ off : UInt16, (∃ n, itemLength params data item off.toNat = some n ∧
      off.toNat + n ≤ data.length) → (read off).isSome)
    (hk : ∀ (off : UInt16) a, read off = some a →
      ∃ n, itemLength params data item off.toNat = some n ∧ off.toNat + n ≤ data.length ∧
        ∀ s : DatasetState, s.Sound → s.offset = off.toNat →
          ∃ b s', k a s = some (.ok b, s') ∧ s'.offset = off.toNat + n ∧ s'.Sound)
    (hkeeps : ∀ a, KeepsTruncated (k a)) :
    Reads params data item (readOffset16 read >>= k) where
  whole s e hs he := by
    obtain ⟨hoff, n, hn, rfl, hle⟩ := he
    have hlt : s.offset < 2 ^ 16 := (hreaches s.offset).mp hoff
    have hnat : (UInt16.ofNat s.offset).toNat = s.offset := UInt16.toNat_ofNat_of_lt' hlt
    obtain ⟨a, ha⟩ := Option.isSome_iff_exists.mp
      (hread (UInt16.ofNat s.offset) ⟨n, by rw [hnat]; exact hn, by rw [hnat]; exact hle⟩)
    obtain ⟨n', hn', -, hrun⟩ := hk _ a ha
    rw [hnat, hn] at hn'
    cases hn'
    rw [Comp.bind_run_ok (readOffset16_eq_some.mpr ⟨a, ha, rfl, rfl⟩)]
    have hfalse : decide (2 ^ 16 ≤ s.offset) = false := decide_eq_false (by omega)
    obtain ⟨b, s', hb, hs'⟩ := hrun
      { s with truncated := s.truncated || decide (2 ^ 16 ≤ s.offset) }
      ⟨by simp only [hs.1, hfalse, Bool.or_false], hs.2⟩ hnat.symm
    rw [hnat] at hs'
    exact ⟨b, s', hb, hs'⟩
  cut s b s' hcut hrun := by
    obtain ⟨a, s₁, hread₁, hk₁⟩ := Comp.bind_eq_ok.mp hrun
    obtain ⟨a', ha', hok, rfl⟩ := readOffset16_eq_some.mp hread₁
    cases hok
    have hfar : 2 ^ 16 ≤ s.offset := by
      by_contra hlt
      have hnat : (UInt16.ofNat s.offset).toNat = s.offset :=
        UInt16.toNat_ofNat_of_lt' (Nat.lt_of_not_le hlt)
      obtain ⟨n, hn, hle, -⟩ := hk _ a ha'
      rw [hnat] at hn hle
      exact hcut ⟨_, (hreaches s.offset).mpr (Nat.lt_of_not_le hlt), n, hn, rfl, hle⟩
    exact (hkeeps a _ _ s' (by simp only [decide_eq_true hfar, Bool.or_true]) hk₁).1
  keeps := .bind (readOffset16_keeps read) hkeeps

theorem mapM_range_isSome {f : Nat → Option α} {n : Nat} :
    ((List.range n).mapM f).isSome ↔ ∀ i < n, (f i).isSome := by
  suffices h : ∀ l : List Nat, (l.mapM f).isSome ↔ ∀ i ∈ l, (f i).isSome by
    rw [h]
    simp only [List.mem_range]
  intro l
  induction l with
  | nil => simp
  | cons i is ih =>
    simp only [List.mem_cons, forall_eq_or_imp, ← ih, List.mapM_cons]
    cases f i <;> cases is.mapM f <;> simp

theorem length_mapM_range {f : Nat → Option α} {n : Nat} {as : List α}
    (h : (List.range n).mapM f = some as) : as.length = n := by
  suffices hl : ∀ (l : List Nat) (as : List α), l.mapM f = some as → as.length = l.length by
    rw [hl _ as h, List.length_range]
  intro l
  induction l with
  | nil =>
    intro as h
    cases h
    rfl
  | cons i is ih =>
    intro as h
    rw [List.mapM_cons] at h
    cases hi : f i with
    | none => simp [hi] at h
    | some a =>
      cases his : is.mapM f with
      | none => simp [hi, his] at h
      | some as' =>
        simp only [hi, his, Option.pure_def, Option.bind_eq_bind, bind_some,
          Option.some.injEq] at h
        rw [← h, List.length_cons, List.length_cons, ih as' his]

/-- An array of elements of `size` bytes, behind its count. -/
def elementsAt (params : PTPParams) (data : List UInt8) (elem : Nat → Option α) (size off : Nat) :
    Option (List α) :=
  (dtoh32ap params data off).bind fun n =>
    (List.range n.toNat).mapM fun i => elem (off + 4 + size * i)

variable {elem : Nat → Option α} {size off : Nat}

theorem elementsAt_isSome (helem : ∀ off, (elem off).isSome ↔ off + size ≤ data.length) :
    (elementsAt params data elem size off).isSome ↔
      ∃ n, itemLength params data (.array size) off = some n ∧ off + n ≤ data.length := by
  unfold elementsAt itemLength
  cases hn : dtoh32ap params data off with
  | none => simp [hn]
  | some n =>
    have h4 := dtoh32ap_le hn
    simp only [hn, bind_some, mapM_range_isSome, helem, map_some, Option.some.injEq,
      exists_eq_left']
    constructor
    · intro h
      by_cases h0 : n.toNat = 0
      · rw [h0]
        omega
      · -- the last element is the one that reaches farthest
        have hlast := h (n.toNat - 1) (by omega)
        have hmul : size * (n.toNat - 1) + size = n.toNat * size := by
          rw [← Nat.mul_succ, Nat.mul_comm, Nat.succ_eq_add_one, Nat.sub_add_cancel (by omega)]
        omega
    · intro h i hi
      have hmul : size * i + size ≤ n.toNat * size := by
        rw [← Nat.mul_succ, Nat.mul_comm]
        exact Nat.mul_le_mul_right size hi
      omega

theorem elementsAt_eq_some {as : List α}
    (h : elementsAt params data elem size off = some as) :
    itemLength params data (.array size) off = some (as.length * size + 4) := by
  obtain ⟨n, hn, has⟩ := Option.bind_eq_some_iff.mp h
  rw [itemLength, hn, length_mapM_range has, map_some]

theorem ptpUnpackUint16TArray_eq (off : UInt16) :
    ptpUnpackUint16TArray params data off =
      elementsAt params data (dtoh16ap params data) 2 off.toNat := by
  unfold ptpUnpackUint16TArray elementsAt
  congr 1
  funext n
  congr 1
  funext i
  congr 1
  omega

theorem ptpUnpackUint32TArray_eq (off : UInt16) :
    ptpUnpackUint32TArray params data off =
      elementsAt params data (dtoh32ap params data) 4 off.toNat := by
  unfold ptpUnpackUint32TArray elementsAt
  congr 1
  funext n
  congr 1
  funext i
  congr 1
  omega

/-- `malloc` never gets a product that has wrapped around: a count has 32 bits, a size 64. -/
theorem allocArray_exact {n : Nat} (hsize : 0 < size) (h : n * size < 2 ^ 64) :
    n * size % 2 ^ 64 / size = n := by
  rw [Nat.mod_eq_of_lt h, Nat.mul_div_cancel n hsize]

/-- An array of at most `2 ^ 32` elements, behind which the offset moves. -/
theorem nextArray_reads {read : UInt16 → Option (List α)}
    (htotal : data.length < 2 ^ 32) (hsize : 0 < size)
    (helem : ∀ off, (elem off).isSome ↔ off + size ≤ data.length)
    (hread : ∀ off, read off = elementsAt params data elem size off.toNat) :
    Reads params data (.array size) (do
      let array ← readOffset16 read
      allocArray array.length size
      skip (array.length * size + 4)
      pure array) := by
  refine reads_readOffset16 (fun _ => Iff.rfl) ?_ ?_ ?_
  · intro off h
    rw [hread]
    exact (elementsAt_isSome helem).mpr h
  · intro off as has
    rw [hread] at has
    obtain ⟨n, hn, hle⟩ := (elementsAt_isSome helem).mp (Option.isSome_of_eq_some has)
    cases hn.symm.trans (elementsAt_eq_some has)
    refine ⟨_, hn, hle, fun s hs hoff => ⟨as, _, rfl, ?_, hs.1, ?_⟩⟩
    · show (s.offset + (as.length * size + 4)) % 2 ^ 32 = _
      rw [hoff, Nat.mod_eq_of_lt (by omega)]
    · intro p hp
      rcases List.mem_append.mp hp with hp | hp
      · exact hs.2 p hp
      · rw [List.mem_singleton.mp hp]
        show as.length = as.length * size % 2 ^ 64 / size
        exact (allocArray_exact hsize (by omega)).symm
  · intro as
    exact .bind (allocArray_keeps _ _) fun _ =>
      .bind (skip_keeps _) fun _ => .pure _

theorem nextUint16Array_reads (htotal : data.length < 2 ^ 32) :
    Reads params data (.array 2) (nextUint16Array params data) :=
  nextArray_reads htotal (by decide) (fun _ => dtoh16ap_isSome) ptpUnpackUint16TArray_eq

theorem nextUint32Array_reads (htotal : data.length < 2 ^ 32) :
    Reads params data (.array 4) (nextUint32Array params data) :=
  nextArray_reads htotal (by decide) (fun _ => dtoh32ap_isSome) ptpUnpackUint32TArray_eq

theorem ptpUnpackString_eq_some {off : UInt16} {p : Option CString × UInt8}
    (h : ptpUnpackString params data off = some p) :
    dtoh8a data off.toNat = some p.2 ∧ off.toNat + (p.2.toNat * 2 + 1) ≤ data.length := by
  obtain ⟨n, hn, h⟩ := Option.bind_eq_some_iff.mp h
  have hlt := (List.getElem?_eq_some_iff.mp hn).1
  by_cases h0 : n = 0
  · rw [if_pos h0] at h
    cases h
    exact ⟨by rw [hn, h0], by simp only [UInt8.toNat_zero]; omega⟩
  · rw [if_neg h0] at h
    obtain ⟨bs, hbs, rfl⟩ := map_eq_some_iff.mp h
    have hle := slice_isSome.mp (Option.isSome_of_eq_some hbs)
    exact ⟨hn, by simp only; omega⟩

theorem ptpUnpackString_isSome {off : UInt16} {n : UInt8} (hn : dtoh8a data off.toNat = some n)
    (h : off.toNat + (n.toNat * 2 + 1) ≤ data.length) :
    (ptpUnpackString params data off).isSome := by
  unfold ptpUnpackString
  rw [hn, bind_some]
  by_cases h0 : n = 0
  · rw [if_pos h0]
    rfl
  · rw [if_neg h0, Option.isSome_map, slice_isSome]
    omega

theorem nextString_reads (htotal : data.length < 2 ^ 32) :
    Reads params data .string (nextString params data) := by
  refine reads_readOffset16 (fun _ => Iff.rfl) ?_ ?_ ?_
  · rintro off ⟨len, hlen, hle⟩
    obtain ⟨n, hn, rfl⟩ := map_eq_some_iff.mp hlen
    exact ptpUnpackString_isSome hn hle
  · intro off p hp
    obtain ⟨hn, hle⟩ := ptpUnpackString_eq_some hp
    refine ⟨_, by rw [itemLength, hn, map_some], hle,
      fun s hs hoff => ⟨p.1, _, rfl, ?_, hs⟩⟩
    show (s.offset + (p.2.toNat * 2 + 1)) % 2 ^ 32 = _
    rw [hoff, Nat.mod_eq_of_lt (by omega)]
  · intro p
    exact .bind (skip_keeps _) fun _ => .pure _

/-! ### Numbers -/

/-- A read, at an offset that the reader takes from the state or knows itself. -/
theorem follows_read {P : α → Nat → Prop}
    (hk : ∀ a, Follows (P a) (k a)) :
    Follows (fun off => ∃ a, read off = some a ∧ P a off) (readOffset read >>= k) where
  inData_iff s hs := by
    cases ha : read s.offset with
    | none =>
      have hnone : readOffset read s = none := by rw [readOffset, ha]; rfl
      rw [Comp.bind_run_none hnone]
      constructor
      · rintro ⟨b, s', hrun, -⟩
        cases hrun
      · rintro ⟨a, hsome, -⟩
        cases hsome
    | some a =>
      rw [Comp.bind_run_ok (readOffset_eq_some.mpr ⟨a, ha, rfl, rfl⟩), (hk a).inData_iff s hs]
      simp only [Option.some.injEq, exists_eq_left']
  keeps := .bind (readOffset_keeps read) fun a => (hk a).keeps

/-- A number that ends at `e`. Its reader knows nothing of the length of the data. -/
theorem follows_readOffset {e : Nat → Nat}
    (hread : ∀ off, (read off).isSome ↔ e off ≤ data.length)
    (hk : ∀ a, Follows P (k a)) :
    Follows (fun off => e off ≤ data.length ∧ P off) (readOffset read >>= k) := by
  refine (follows_read hk).congr fun off => ?_
  rw [← hread, Option.isSome_iff_exists, exists_and_right]

theorem follows_skip {n : Nat} {k : Unit → Dataset β} (hk : Follows P (k ())) :
    Follows (fun off => P ((off + n) % 2 ^ 32)) (skip n >>= k) where
  inData_iff s hs := hk.inData_iff { s with offset := (s.offset + n) % 2 ^ 32 } hs
  keeps := .bind (skip_keeps n) fun _ => hk.keeps

theorem follows_fixed16 {k : UInt16 → Dataset β}
    (hk : ∀ a, Follows P (k a)) :
    Follows (fun o => off + 2 ≤ data.length ∧ P o)
      (readOffset (fun _ => dtoh16ap params data off) >>= k) :=
  follows_readOffset (e := fun _ => off + 2) (fun _ => dtoh16ap_isSome) hk

theorem follows_fixed32 {k : UInt32 → Dataset β}
    (hk : ∀ a, Follows P (k a)) :
    Follows (fun o => off + 4 ≤ data.length ∧ P o)
      (readOffset (fun _ => dtoh32ap params data off) >>= k) :=
  follows_readOffset (e := fun _ => off + 4) (fun _ => dtoh32ap_isSome) hk

theorem follows_fixed64 {k : UInt64 → Dataset β}
    (hk : ∀ a, Follows P (k a)) :
    Follows (fun o => off + 8 ≤ data.length ∧ P o)
      (readOffset (fun _ => dtoh64ap params data off) >>= k) :=
  follows_readOffset (e := fun _ => off + 8) (fun _ => dtoh64ap_isSome) hk

theorem follows_number16 {k : UInt16 → Dataset β}
    (htotal : data.length < 2 ^ 32) (hk : ∀ a, Follows P (k a)) :
    Follows (fun off => ∃ e, ItemEnds params data (.fixed 2) off e ∧ P e)
      (readOffset (dtoh16ap params data) >>= fun a => skip 2 >>= fun _ => k a) := by
  refine Follows.congr
    (follows_readOffset (e := (· + 2)) (fun _ => dtoh16ap_isSome) fun a =>
      follows_skip (hk a)) ?_
  intro off
  constructor
  · rintro ⟨hle, hP⟩
    have hmod : (off + 2) % 2 ^ 32 = off + 2 := Nat.mod_eq_of_lt (Nat.lt_of_le_of_lt hle htotal)
    rw [hmod] at hP
    exact ⟨off + 2, ⟨trivial, 2, rfl, rfl, hle⟩, hP⟩
  · rintro ⟨_, ⟨-, n, hn, rfl, hle⟩, hP⟩
    cases hn
    exact ⟨hle, by rw [Nat.mod_eq_of_lt (Nat.lt_of_le_of_lt hle htotal)]; exact hP⟩

/-! ### The parsers -/

/-- The parts of a device info. -/
def diLayout : List Item :=
  [.fixed 8, .string, .fixed 2, .array 2, .array 2, .array 2, .array 2, .array 2,
    .string, .string, .string, .string]

/-- The parts of a storage info. -/
def siLayout : List Item := [.fixed 26, .string, .string]

/-- The parts of an object info, but for the upper half of a 64-bit object size. -/
def oiLayout : List Item := [.fixed 52, .string, .string, .string]

theorem whole_fixed {n : Nat} {items : List Item} :
    Whole params data (.fixed n :: items) off ↔
      off + n ≤ data.length ∧ Whole params data items (off + n) := by
  constructor
  · rintro ⟨_, ⟨-, m, hm, rfl, hle⟩, hrest⟩
    cases hm
    exact ⟨hle, hrest⟩
  · rintro ⟨hle, hrest⟩
    exact ⟨off + n, ⟨trivial, n, rfl, rfl, hle⟩, hrest⟩

theorem unpackDI_inData_iff (di : PTPDeviceInfo) (htotal : data.length < 2 ^ 32) :
    InData (ptpUnpackDI params data di (.start 0)) ↔
      data.length < 12 ∨ Whole params data diLayout 0 := by
  have hs : Reads params data .string (nextString params data) := nextString_reads htotal
  have ha : Reads params data (.array 2) (nextUint16Array params data) :=
    nextUint16Array_reads htotal
  unfold ptpUnpackDI
  by_cases hshort : data.length < 12
  · rw [if_pos hshort]
    exact iff_of_true ⟨di, _, rfl, DatasetState.sound_start 0⟩ (Or.inl hshort)
  · rw [if_neg hshort]
    simp only [hshort, false_or]
    refine Iff.trans ((follows_fixed16 fun _ => follows_fixed32 fun _ => follows_fixed16 fun _ =>
      follows_skip <| hs.bind fun _ => follows_number16 htotal fun _ =>
      ha.bind fun _ => ha.bind fun _ => ha.bind fun _ => ha.bind fun _ => ha.bind fun _ =>
      hs.bind fun _ => hs.bind fun _ => hs.bind fun _ => hs.bind fun _ =>
      follows_pure _).inData_iff _ (DatasetState.sound_start 0)) ?_
    rw [diLayout, whole_fixed]
    constructor
    · rintro ⟨-, -, hle, h⟩
      exact ⟨hle, h⟩
    · rintro ⟨hle, h⟩
      exact ⟨by omega, by omega, by omega, h⟩

section
variable (htotal : data.length < 2 ^ 32)
include htotal

theorem unpackEOSDI_inData_iff :
    InData (ptpUnpackEOSDI params data (.start 0)) ↔
      data.length < 8 ∨ WholeToEnd params data [.array 4, .array 4, .array 4] 4 := by
  have ha : Reads params data (.array 4) (nextUint32Array params data) :=
    nextUint32Array_reads htotal
  unfold ptpUnpackEOSDI
  by_cases hshort : data.length < 8
  · rw [if_pos hshort]
    exact iff_of_true ⟨_, _, rfl, DatasetState.sound_start 0⟩ (Or.inl hshort)
  · rw [if_neg hshort]
    simp only [hshort, false_or]
    refine Iff.trans ((follows_skip <| ha.bind fun _ => follows_toEnd _ <| ha.bind fun _ =>
      follows_toEnd _ <| ha.bind fun _ => follows_pure _).inData_iff _
      (DatasetState.sound_start 0)) ?_
    show (∃ e, ItemEnds params data (.array 4) 4 e ∧ _) ↔ _
    simp only [WholeToEnd, or_true]

theorem unpackOH_inData_iff :
    InData (ptpUnpackOH params data (.start 0)) ↔
      data.length = 0 ∨ Whole params data [.array 4] 0 := by
  unfold ptpUnpackOH
  by_cases hempty : data.length = 0
  · rw [if_neg (not_not.mpr hempty)]
    exact iff_of_true ⟨[], _, rfl, DatasetState.sound_start 0⟩ (Or.inl hempty)
  · rw [if_pos hempty, (nextUint32Array_reads htotal).inData_iff (DatasetState.sound_start 0)]
    simp only [hempty, false_or, DatasetState.start]

theorem unpackSIDs_inData_iff :
    InData (ptpUnpackSIDs params data (.start 0)) ↔
      data.length = 0 ∨ Whole params data [.array 4] 0 := by
  unfold ptpUnpackSIDs
  by_cases hempty : data.length = 0
  · rw [if_pos hempty]
    exact iff_of_true ⟨[], _, rfl, DatasetState.sound_start 0⟩ (Or.inl hempty)
  · rw [if_neg hempty, (nextUint32Array_reads htotal).inData_iff (DatasetState.sound_start 0)]
    simp only [hempty, false_or, DatasetState.start]

theorem unpackSI_inData_iff :
    InData (ptpUnpackSI params data (.start 0)) ↔ Whole params data siLayout 0 := by
  have hs : Reads params data .string (nextString params data) := nextString_reads htotal
  unfold ptpUnpackSI
  refine Iff.trans ((follows_fixed16 fun _ => follows_fixed16 fun _ => follows_fixed16 fun _ =>
    follows_fixed64 fun _ => follows_fixed64 fun _ => follows_fixed32 fun _ => follows_skip <|
    hs.bind fun _ => hs.bind fun _ => follows_pure _).inData_iff _
    (DatasetState.sound_start 0)) ?_
  rw [siLayout, whole_fixed]
  constructor
  · rintro ⟨-, -, -, -, -, hle, h⟩
    exact ⟨hle, h⟩
  · rintro ⟨hle, h⟩
    exact ⟨by omega, by omega, by omega, by omega, by omega, hle, h⟩

end

/-- Where the parser takes an object info to have a 64-bit object size, its fields are four
bytes further on. -/
def oiData (data : List UInt8) (ocs64 : Bool) : List UInt8 := if ocs64 then data.drop 4 else data

theorem unpackOI_inData_iff (mktime : Tm → Int) (oi : PTPObjectInfo)
    (htotal : data.length < 2 ^ 32) :
    InData (ptpUnpackOI params data mktime oi (.start 0)) ↔
      ∃ ocs64, looksOcs64 data = some ocs64 ∧ Whole params (oiData data ocs64) oiLayout 0 := by
  have hlen : ∀ b, (oiData data b).length ≤ data.length := by
    intro b
    cases b
    · exact Nat.le_refl _
    · exact (List.length_drop ▸ Nat.sub_le _ _ : (data.drop 4).length ≤ data.length)
  have hs : ∀ b, Reads params (oiData data b) .string (nextString params (oiData data b)) :=
    fun b => nextString_reads (Nat.lt_of_le_of_lt (hlen b) htotal)
  unfold ptpUnpackOI
  refine Iff.trans ((follows_fixed32 fun _ => follows_fixed16 fun _ => follows_fixed16 fun _ =>
    follows_fixed32 fun _ => follows_read fun ocs64 =>
    follows_fixed16 fun _ => follows_fixed32 fun _ => follows_fixed32 fun _ =>
    follows_fixed32 fun _ => follows_fixed32 fun _ => follows_fixed32 fun _ =>
    follows_fixed32 fun _ => follows_fixed32 fun _ => follows_fixed16 fun _ =>
    follows_fixed32 fun _ => follows_fixed32 fun _ => follows_skip <|
    (hs ocs64).bind fun _ => (hs ocs64).bind fun _ => (hs ocs64).bind fun _ =>
    follows_pure _).inData_iff _ (DatasetState.sound_start 0)) ?_
  constructor
  · rintro ⟨-, -, -, -, ocs64, hlooks, -, -, -, -, -, -, -, -, -, -, hle, h⟩
    refine ⟨ocs64, hlooks, ?_⟩
    rw [oiLayout, whole_fixed]
    exact ⟨hle, h⟩
  · rintro ⟨ocs64, hlooks, h⟩
    rw [oiLayout, whole_fixed] at h
    obtain ⟨hle, h⟩ := h
    have hle' := hlen ocs64
    have hfields : 0 + 52 ≤ (if ocs64 = true then data.drop 4 else data).length := hle
    exact ⟨by omega, by omega, by omega, by omega, ocs64, hlooks, by omega, by omega, by omega,
      by omega, by omega, by omega, by omega, by omega, by omega, by omega, hle, h⟩

end GPhoto2
