import GPhoto2.Proofs.St2205.Image
import GPhoto2.St2205.Table

/-!
# `GPhoto2.Proofs.St2205.Fat`: what an image table says about a memory

A table is looked at here as a function from addresses to bytes. `Frame.Listed` says what its
entries must satisfy: the count covers the present ones, and their pictures stand in the order of
the table, one behind the other, within the memory for pictures. `Frame.ValidTable` adds the
checksum and the copies, which `Frame.sealFat` puts right.

`Frame.FirstRoom` is the first entry that is free and in whose gap there is room for a picture:
behind the last picture before it (`Frame.endBefore`), and in front of the next one
(`Frame.startFrom`). `Listed.add` says that a picture can go there.
-/

set_option autoImplicit false

namespace GPhoto2.St2205

open Lib

/-- The entries for which a table has room. -/
def fatEntries : Nat := fatSize / 16 - 1

namespace Frame

variable (f : Frame)

/-- The number of entries. -/
def count (m : Nat → UInt8) : Nat := (m countOffset).toNat

/-- An entry is present. -/
def Present (m : Nat → UInt8) (i : Nat) : Prop := m (fileOffset i) ≠ 0

instance (m : Nat → UInt8) (i : Nat) : Decidable (Present m i) :=
  inferInstanceAs (Decidable (m (fileOffset i) ≠ 0))

/-- The address in an entry. -/
def address (m : Nat → UInt8) (i : Nat) : Nat :=
  ByteOrder.little.decode (bytesFrom m (fileOffset i + 1) 4)

/-- The length of the picture at an address. -/
def sizeAt (m : Nat → UInt8) (start : Nat) : Nat :=
  if f.compressed then 16 + headerLength (bytesFrom m start 16)
  else f.lib.height * f.lib.width * 2

/-- The end of the picture of an entry. -/
def stop (m : Nat → UInt8) (i : Nat) : Nat := address m i + f.sizeAt m (address m i)

/-- The end of the last present picture before entry `i`. -/
def endBefore (m : Nat → UInt8) : Nat → Nat
  | 0 => f.pictureStart
  | i + 1 => if Present m i then f.stop m i else endBefore m i

/-- The start of the first present picture among the `n` entries from `i` on, or the end of the
memory for pictures. -/
def startFrom (m : Nat → UInt8) : Nat → Nat → Nat
  | 0, _ => f.pictureEnd
  | n + 1, i => if Present m i then address m i else startFrom m n (i + 1)

/-- Entry `i` is free, and there is room for `size` bytes around it. -/
def HasRoom (m : Nat → UInt8) (size i : Nat) : Prop :=
  ¬ (i < count m ∧ Present m i) ∧ f.endBefore m i + size ≤ f.startFrom m (count m - i) i

/-- The first entry with room for `size` bytes. -/
structure FirstRoom (m : Nat → UInt8) (size i : Nat) : Prop where
  le : i ≤ count m
  room : f.HasRoom m size i
  first : ∀ j < i, ¬ f.HasRoom m size j

/-- What the entries of a table must satisfy. -/
structure Listed (m : Nat → UInt8) : Prop where
  covered : ∀ i < fatEntries, Present m i → i < count m
  inArea : ∀ i < fatEntries, Present m i → f.pictureStart ≤ address m i ∧ f.stop m i ≤ f.pictureEnd
  ordered : ∀ i j, i < j → j < fatEntries → Present m i → Present m j →
    address m i < address m j ∧ f.stop m i ≤ address m j

/-- The pictures begin in the memory for pictures. -/
def Placed (m : Nat → UInt8) : Prop :=
  ∀ i < count m, Present m i → f.pictureStart ≤ address m i ∧ address m i ≤ f.pictureEnd

/-- The checksum is right, and the copies are. -/
structure Sealed (m : Nat → UInt8) : Prop where
  checksum : bytesFrom m 0 2 = ByteOrder.little.encode 2 (fatSum m % 65536)
  copies : ∀ k < f.noFats, ∀ a < fatSize, m (k * fatSize + a) = m a

/-- A valid table. -/
structure ValidTable (m : Nat → UInt8) : Prop extends f.Listed m, f.Sealed m

/-- The entry and the picture of `i` are as they were, and still counted. -/
structure Kept (m m' : Nat → UInt8) (i : Nat) : Prop where
  listed : i < count m'
  entry : ∀ k < 16, m' (fileOffset i + k) = m (fileOffset i + k)
  bytes : ∀ a, address m i ≤ a → a < f.stop m i → m' a = m a

end Frame

/-! ### Addresses and entries -/

section

variable {f : Frame} {m m' : Nat → UInt8} {i j : Nat}

theorem fileOffset_lt (hi : i < fatEntries) {k : Nat} (hk : k < 16) :
    16 ≤ fileOffset i + k ∧ fileOffset i + k < fatSize := by
  unfold fileOffset
  unfold fatEntries fatSize at *
  omega

theorem fats_le_pictureStart (f : Frame) : f.noFats * fatSize ≤ f.pictureStart := by
  show f.version.noFats * 8192 ≤ f.version.pictureStart
  cases f.version <;> decide

theorem noFats_pos (f : Frame) : 0 < f.noFats := by
  show 0 < f.version.noFats
  cases f.version <;> decide

theorem fatSize_le_pictureStart (f : Frame) : fatSize ≤ f.pictureStart := by
  have hfats := fats_le_pictureStart f
  have hpos := Nat.mul_le_mul_right fatSize (noFats_pos f)
  omega

section
variable (h : ∀ k < 16, m' (fileOffset i + k) = m (fileOffset i + k))
include h

/-- The bytes of an entry say whether it is present, and where its picture is. -/
theorem present_congr :
    Frame.Present m' i ↔ Frame.Present m i := by
  have hbyte := h 0 (by decide)
  rw [Nat.add_zero] at hbyte
  rw [Frame.Present, Frame.Present, hbyte]

theorem address_congr :
    Frame.address m' i = Frame.address m i := by
  rw [Frame.address, Frame.address]
  congr 1
  refine bytesFrom_congr ?_
  intro a hlow hhigh
  have hbyte := h (a - fileOffset i) (by omega)
  rwa [Nat.add_sub_cancel' (by omega)] at hbyte

end

theorem sizeAt_congr {start : Nat} (h : ∀ a, start ≤ a → a < start + f.sizeAt m start →
    m' a = m a) : f.sizeAt m' start = f.sizeAt m start := by
  unfold Frame.sizeAt at h ⊢
  by_cases hcompressed : f.compressed = true
  · rw [if_pos hcompressed, if_pos hcompressed]
    rw [if_pos hcompressed] at h
    have hheader : bytesFrom m' start 16 = bytesFrom m start 16 := by
      refine bytesFrom_congr ?_
      intro a hlow hhigh
      exact h a hlow (by omega)
    rw [hheader]
  · rw [if_neg hcompressed, if_neg hcompressed]

namespace Frame.Kept

variable (h : f.Kept m m' i)

include h

theorem address : Frame.address m' i = Frame.address m i := address_congr h.entry

theorem stop : f.stop m' i = f.stop m i := by
  rw [Frame.stop, h.address, Frame.stop, sizeAt_congr h.bytes]

end Frame.Kept

theorem address_le_stop (f : Frame) (m : Nat → UInt8) (i : Nat) : Frame.address m i ≤ f.stop m i :=
  Nat.le_add_right _ _

theorem sizeAt_pos (hlib : ValidLibrary f.lib) (m : Nat → UInt8) (start : Nat) :
    0 < f.sizeAt m start := by
  unfold Frame.sizeAt
  by_cases hcompressed : f.compressed = true
  · rw [if_pos hcompressed]
    omega
  · rw [if_neg hcompressed, Nat.mul_comm f.lib.height]
    have hfits := hlib.fits
    omega

/-! ### The gaps -/

theorem Frame.Listed.placed (h : f.Listed m) : f.Placed m := by
  intro i hi hp
  have hcount : Frame.count m < 256 := UInt8.toNat_lt _
  have hentries : fatEntries = 511 := rfl
  have harea := h.inArea i (by omega) hp
  have hle := address_le_stop f m i
  omega

theorem Frame.Placed.le_endBefore (h : f.Placed m) (hi : i ≤ Frame.count m) :
    f.pictureStart ≤ f.endBefore m i := by
  induction i with
  | zero => exact Nat.le_refl _
  | succ i ih =>
    unfold Frame.endBefore
    by_cases hp : Frame.Present m i
    · rw [if_pos hp]
      have harea := (h i (by omega) hp).1
      have hle := address_le_stop f m i
      omega
    · rw [if_neg hp]
      exact ih (by omega)

theorem Frame.Placed.startFrom_le (h : f.Placed m) {n : Nat} (hi : i + n ≤ Frame.count m) :
    f.startFrom m n i ≤ f.pictureEnd := by
  induction n generalizing i with
  | zero => exact Nat.le_refl _
  | succ n ih =>
    unfold Frame.startFrom
    by_cases hp : Frame.Present m i
    · rw [if_pos hp]
      exact (h i (by omega) hp).2
    · rw [if_neg hp]
      exact ih (by omega)

section

variable (h : f.Listed m)

include h

theorem Frame.Listed.endBefore_le (hi : i ≤ fatEntries) :
    f.pictureStart ≤ f.endBefore m i ∧
      ∀ k < i, Frame.Present m k → f.stop m k ≤ f.endBefore m i := by
  induction i with
  | zero => exact ⟨Nat.le_refl _, fun k hk => absurd hk (by omega)⟩
  | succ i ih =>
    obtain ⟨hstart, hbefore⟩ := ih (by omega)
    unfold Frame.endBefore
    by_cases hp : Frame.Present m i
    · rw [if_pos hp]
      have hle := address_le_stop f m i
      constructor
      · have harea := (h.inArea i (by omega) hp).1
        omega
      · intro k hk hpk
        by_cases hlast : k = i
        · rw [hlast]
        · have horder := (h.ordered k i (by omega) (by omega) hpk hp).2
          omega
    · rw [if_neg hp]
      refine ⟨hstart, ?_⟩
      intro k hk hpk
      by_cases hlast : k = i
      · exact absurd (hlast ▸ hpk) hp
      · exact hbefore k (by omega) hpk

theorem Frame.Listed.startFrom_le {n : Nat} (hi : i + n ≤ fatEntries) :
    f.startFrom m n i ≤ f.pictureEnd ∧
      ∀ k, i ≤ k → k < i + n → Frame.Present m k → f.startFrom m n i ≤ Frame.address m k := by
  induction n generalizing i with
  | zero => exact ⟨Nat.le_refl _, fun k hlow hhigh => absurd hhigh (by omega)⟩
  | succ n ih =>
    unfold Frame.startFrom
    by_cases hp : Frame.Present m i
    · rw [if_pos hp]
      have hle := address_le_stop f m i
      have harea := (h.inArea i (by omega) hp).2
      refine ⟨by omega, ?_⟩
      intro k hlow hhigh hpk
      by_cases hfirst : k = i
      · rw [hfirst]
      · exact Nat.le_of_lt (h.ordered i k (by omega) (by omega) hp hpk).1
    · rw [if_neg hp]
      obtain ⟨hend, hnext⟩ := @ih (i + 1) (by omega)
      refine ⟨hend, ?_⟩
      intro k hlow hhigh hpk
      by_cases hfirst : k = i
      · exact absurd (hfirst ▸ hpk) hp
      · exact hnext k (by omega) (by omega) hpk

theorem Frame.Listed.add {size : Nat} (hlib : ValidLibrary f.lib) (hsize : 0 < size)
    (hi : i < fatEntries)
    (hroom : f.HasRoom m size i) (hcount : i ≤ count m) (hmore : count m ≤ fatEntries)
    (hlisted : i < count m')
    (haddress : Frame.address m' i = f.endBefore m i)
    (hstop : f.stop m' i = f.endBefore m i + size)
    (hkept : ∀ k < fatEntries, k ≠ i → Frame.Present m' k → Frame.Present m k ∧ f.Kept m m' k) :
    f.Listed m' := by
  obtain ⟨hstart, hbefore⟩ := h.endBefore_le (Nat.le_of_lt hi)
  obtain ⟨hend, hbehind⟩ := @Frame.Listed.startFrom_le f m i h (count m - i) (by omega)
  have hgap := hroom.2
  refine ⟨?_, ?_, ?_⟩
  · intro k hk hp
    by_cases hki : k = i
    · rw [hki]
      exact hlisted
    · exact (hkept k hk hki hp).2.listed
  · intro k hk hp
    by_cases hki : k = i
    · rw [hki, haddress, hstop]
      omega
    · obtain ⟨hold, hsame⟩ := hkept k hk hki hp
      rw [hsame.address, hsame.stop]
      exact h.inArea k hk hold
  · intro k l hkl hl hpk hpl
    by_cases hki : k = i
    · obtain ⟨hold, hsame⟩ := hkept l hl (by omega) hpl
      have hnext := hbehind l (by omega) (by have := h.covered l hl hold; omega) hold
      rw [hki, haddress, hstop, hsame.address]
      omega
    · obtain ⟨hold, hsame⟩ := hkept k (by omega) hki hpk
      by_cases hli : l = i
      · have hprev := hbefore k (by omega) hold
        have hlt : Frame.address m k < f.stop m k :=
          Nat.lt_add_of_pos_right (sizeAt_pos hlib m (Frame.address m k))
        rw [hli, haddress, hsame.address, hsame.stop]
        omega
      · obtain ⟨hold', hsame'⟩ := hkept l hl hli hpl
        rw [hsame.address, hsame.stop, hsame'.address]
        exact h.ordered k l hkl hl hold hold'

end

end

/-! ### Checksum and copies -/

namespace Frame

/-- The memory with `n` copies of the table. -/
def withCopies (n : Nat) (m : Nat → UInt8) (a : Nat) : UInt8 :=
  if fatSize ≤ a ∧ a < n * fatSize then m (a % fatSize) else m a

/-- The memory with a checksum of the table. -/
def withChecksum (m : Nat → UInt8) : Nat → UInt8 :=
  overlay 0 (ByteOrder.little.encode 2 (fatSum m % 65536)) m

/-- The memory with a checksum and copies of the table. -/
def sealFat (f : Frame) (m : Nat → UInt8) : Nat → UInt8 := withCopies f.noFats (withChecksum m)

/-- The memory with a new entry, before its picture is there. -/
def withEntry (idx : Nat) (filename : List UInt8) (start size : Nat) (m : Nat → UInt8) :
    Nat → UInt8 :=
  let m := overlay (fileOffset idx) (entryBytes ⟨1, start, nameField filename⟩) m
  if idx = count m then
    overlay (fileOffset (idx + 1)) (entryBytes ⟨0, start + size, List.replicate 11 0⟩)
      (overlay countOffset [UInt8.ofNat (idx + 1)] m)
  else
    m

end Frame

section

variable {f : Frame} {m m' : Nat → UInt8} {a : Nat}

theorem withCopies_one (m : Nat → UInt8) : Frame.withCopies 1 m = m := by
  funext a
  exact if_neg (by omega)

theorem withCopies_succ {n : Nat} (hn : 0 < n) (m : Nat → UInt8) :
    Frame.withCopies (n + 1) m =
      overlay (n * fatSize) (bytesFrom (Frame.withCopies n m) 0 fatSize)
        (Frame.withCopies n m) := by
  have hpos : fatSize ≤ n * fatSize := Nat.le_mul_of_pos_left fatSize hn
  have hsucc : (n + 1) * fatSize = n * fatSize + fatSize := Nat.add_one_mul n fatSize
  funext a
  by_cases hin : n * fatSize ≤ a ∧ a < n * fatSize + fatSize
  · have hmod : a % fatSize = a - n * fatSize := by
      have hdiv : a / fatSize = n := Nat.div_eq_of_lt_le hin.1 (by omega)
      have hsum := Nat.div_add_mod a fatSize
      rw [hdiv, Nat.mul_comm] at hsum
      omega
    rw [Frame.withCopies, if_pos (by omega),
      overlay_inside _ (m a) hin.1 (by rw [length_bytesFrom]; exact hin.2),
      getD_bytesFrom _ _ (by omega), Frame.withCopies, if_neg (by omega), hmod, Nat.zero_add]
  · rw [overlay_outside _ (by rw [length_bytesFrom]; exact hin), Frame.withCopies, Frame.withCopies]
    by_cases hold : fatSize ≤ a ∧ a < n * fatSize
    · rw [if_pos hold, if_pos (by omega)]
    · rw [if_neg hold, if_neg (by omega)]

theorem withChecksum_behind (ha : 2 ≤ a) : Frame.withChecksum m a = m a :=
  overlay_behind _ (by simpa using ha)

theorem sealFat_table (hlow : 2 ≤ a) (hhigh : a < fatSize) : f.sealFat m a = m a := by
  rw [Frame.sealFat, Frame.withCopies, if_neg (by omega), withChecksum_behind hlow]

theorem sealFat_behind (ha : f.pictureStart ≤ a) : f.sealFat m a = m a := by
  have hfats := fats_le_pictureStart f
  have hsize : fatSize = 8192 := rfl
  have hstart := fatSize_le_pictureStart f
  rw [Frame.sealFat, Frame.withCopies, if_neg (by omega), withChecksum_behind (by omega)]

theorem fatSum_congr (h : ∀ a, 2 ≤ a → a < fatSize → m' a = m a) : fatSum m' = fatSum m := by
  unfold fatSum
  congr 1
  refine List.map_congr_left ?_
  intro a ha
  rw [List.mem_range'_1] at ha
  rw [h a ha.1 (by omega)]

theorem sealFat_sealed (f : Frame) (m : Nat → UInt8) : f.Sealed (f.sealFat m) := by
  have hsize : fatSize = 8192 := rfl
  have hfirst : ∀ a < fatSize, f.sealFat m a = Frame.withChecksum m a := by
    intro a ha
    exact if_neg (by omega)
  constructor
  · rw [fatSum_congr fun a hlow hhigh => sealFat_table hlow hhigh]
    have hbytes : bytesFrom (f.sealFat m) 0 2 = bytesFrom (Frame.withChecksum m) 0 2 := by
      refine bytesFrom_congr ?_
      intro a _ hhigh
      exact hfirst a (by omega)
    have hlen := ByteOrder.length_encode ByteOrder.little 2 (fatSum m % 65536)
    rw [hbytes, Frame.withChecksum, bytesFrom_overlay 0 (by omega) m,
      List.take_of_length_le (by omega)]
  · intro k hk a ha
    rw [hfirst a ha, Frame.sealFat, Frame.withCopies]
    have hmul := Nat.mul_le_mul_right fatSize (Nat.succ_le_of_lt hk)
    rw [Nat.succ_mul] at hmul
    by_cases hfat : k = 0
    · rw [hfat, Nat.zero_mul, Nat.zero_add, if_neg (by omega)]
    · have hpos : fatSize ≤ k * fatSize := Nat.le_mul_of_pos_left fatSize (by omega)
      rw [if_pos (by omega), Nat.add_comm, Nat.add_mul_mod_self_right, Nat.mod_eq_of_lt ha]

/-- The checksum and the copies stay right while nothing in front of the pictures changes. -/
theorem Frame.Sealed.congr (h : f.Sealed m) (hsame : ∀ a < f.pictureStart, m' a = m a) :
    f.Sealed m' := by
  have hsize : fatSize = 8192 := rfl
  have hfats := fats_le_pictureStart f
  have hstart := fatSize_le_pictureStart f
  constructor
  · have hbytes : bytesFrom m' 0 2 = bytesFrom m 0 2 :=
      bytesFrom_congr fun a _ hhigh => hsame a (by omega)
    rw [hbytes, h.checksum, fatSum_congr fun a _ hhigh => hsame a (by omega)]
  · intro k hk a ha
    have hmul := Nat.mul_le_mul_right fatSize (Nat.succ_le_of_lt hk)
    rw [Nat.succ_mul] at hmul
    rw [hsame a (by omega), hsame _ (by omega), h.copies k hk a ha]

end

/-! ### A new entry -/

section

variable {f : Frame} {m : Nat → UInt8} {idx start size : Nat} {filename : List UInt8}

@[simp] theorem length_nameField (filename : List UInt8) : (nameField filename).length = 11 := by
  have htake : ((filename.takeWhile (· ≠ 0)).take 10).length ≤ 10 := List.length_take_le _ _
  unfold nameField
  rw [List.length_append, List.length_replicate]
  omega

theorem length_entryBytes {entry : ImageTableEntry} (h : entry.name.length = 11) :
    (entryBytes entry).length = 16 := by
  simp [entryBytes, h]

theorem count_overlay_entry (idx : Nat) (bytes : List UInt8) (m : Nat → UInt8) :
    Frame.count (overlay (fileOffset idx) bytes m) = Frame.count m := by
  unfold Frame.count
  rw [overlay_before _ _ (by unfold countOffset fileOffset; omega)]

theorem withEntry_other {a : Nat} (hfirst : ¬ (fileOffset idx ≤ a ∧ a < fileOffset idx + 16))
    (hmore : idx = Frame.count m →
      a ≠ countOffset ∧ ¬ (fileOffset (idx + 1) ≤ a ∧ a < fileOffset (idx + 1) + 16)) :
    Frame.withEntry idx filename start size m a = m a := by
  have hentry : overlay (fileOffset idx) (entryBytes ⟨1, start, nameField filename⟩) m a = m a :=
    overlay_outside _ (by rw [length_entryBytes (length_nameField _)]; exact hfirst)
  have hcount := count_overlay_entry idx (entryBytes ⟨1, start, nameField filename⟩) m
  rw [Frame.withEntry, hcount]
  by_cases hlast : idx = Frame.count m
  · obtain ⟨hbyte, hnext⟩ := hmore hlast
    rw [if_pos hlast, overlay_outside _ (by
      rw [length_entryBytes List.length_replicate]
      exact hnext), overlay_outside _ (by simp; omega), hentry]
  · rw [if_neg hlast, hentry]

theorem withEntry_entry {k : Nat} (hk : k < 16) :
    Frame.withEntry idx filename start size m (fileOffset idx + k) =
      (entryBytes ⟨1, start, nameField filename⟩).getD k 0 := by
  have hlen := @length_entryBytes ⟨1, start, nameField filename⟩ (length_nameField _)
  have hentry : overlay (fileOffset idx) (entryBytes ⟨1, start, nameField filename⟩) m
      (fileOffset idx + k) = (entryBytes ⟨1, start, nameField filename⟩).getD k 0 := by
    rw [overlay_inside _ 0 (by omega) (by omega), Nat.add_sub_cancel_left]
  rw [Frame.withEntry]
  by_cases hlast : idx = Frame.count
      (overlay (fileOffset idx) (entryBytes ⟨1, start, nameField filename⟩) m)
  · rw [if_pos hlast, overlay_before _ _ (by unfold fileOffset; omega),
      overlay_behind _ (by simp [countOffset, fileOffset]; omega), hentry]
  · rw [if_neg hlast, hentry]

theorem count_withEntry : Frame.count (Frame.withEntry idx filename start size m) =
    if idx = Frame.count m then (idx + 1) % 256 else Frame.count m := by
  have hcount := count_overlay_entry idx (entryBytes ⟨1, start, nameField filename⟩) m
  rw [Frame.withEntry, hcount]
  by_cases hlast : idx = Frame.count m
  · rw [if_pos hlast, if_pos hlast, Frame.count,
      overlay_before _ _ (by unfold countOffset fileOffset; omega),
      overlay_inside _ 0 (Nat.le_refl _) (by simp), Nat.sub_self]
    exact UInt8.toNat_ofNat'
  · rw [if_neg hlast, if_neg hlast, hcount]

theorem present_withEntry : Frame.Present (Frame.withEntry idx filename start size m) idx := by
  have hbyte := @withEntry_entry m idx start size filename 0 (by decide)
  rw [Nat.add_zero] at hbyte
  rw [Frame.Present, hbyte]
  show (1 : UInt8) ≠ 0
  decide

theorem address_withEntry (hstart : start < 4294967296) :
    Frame.address (Frame.withEntry idx filename start size m) idx = start := by
  have hbytes : bytesFrom (Frame.withEntry idx filename start size m) (fileOffset idx + 1) 4 =
      ByteOrder.little.encode 4 start := by
    refine List.ext_getElem (by simp) ?_
    intro k h1 h2
    rw [ByteOrder.length_encode] at h2
    have hget : (bytesFrom (Frame.withEntry idx filename start size m) (fileOffset idx + 1) 4)[k] =
        Frame.withEntry idx filename start size m (fileOffset idx + (k + 1)) := by
      simp [bytesFrom, Nat.add_assoc, Nat.add_comm 1 k]
    refine hget.trans ?_
    rw [withEntry_entry (by omega)]
    show (ByteOrder.little.encode 4 start ++ nameField filename).getD k 0 = _
    rw [List.getD_append _ _ _ _ (by simpa using h2), List.getD_eq_getElem]
  rw [Frame.address, hbytes]
  exact ByteOrder.decode_encode _ hstart

theorem not_present_withEntry (hlast : idx = Frame.count m) :
    ¬ Frame.Present (Frame.withEntry idx filename start size m) (idx + 1) := by
  have hcount := count_overlay_entry idx (entryBytes ⟨1, start, nameField filename⟩) m
  have hlen := @length_entryBytes ⟨0, start + size, List.replicate 11 0⟩ List.length_replicate
  rw [Frame.Present, Frame.withEntry, hcount, if_pos hlast,
    overlay_inside _ 0 (Nat.le_refl _) (by omega), Nat.sub_self]
  intro h
  exact h rfl

end

/-! ### What the operations make of a table -/

section

variable {f : Frame} {m : Nat → UInt8} {idx : Nat} {filename : List UInt8}

theorem Frame.Listed.not_present (h : f.Listed m) {size : Nat} (hroom : f.HasRoom m size idx)
    (hidx : idx < fatEntries) : ¬ Frame.Present m idx :=
  fun hp => hroom.1 ⟨h.covered idx hidx hp, hp⟩

section

variable {m' : Nat → UInt8} {start size : Nat}
  (htable : ∀ a, 2 ≤ a → a < fatSize → m' a = Frame.withEntry idx filename start size m a)

include htable

theorem entry_of_table {i : Nat} (hi : i < fatEntries) : ∀ k < 16,
    m' (fileOffset i + k) = Frame.withEntry idx filename start size m (fileOffset i + k) := by
  intro k hk
  obtain ⟨hlow, hhigh⟩ := fileOffset_lt hi hk
  exact htable _ (by omega) hhigh

theorem count_of_table (hidx : idx < 255) :
    Frame.count m' = if idx = Frame.count m then idx + 1 else Frame.count m := by
  have hbyte := htable countOffset (by decide) (by decide)
  rw [Frame.count, hbyte]
  show Frame.count (Frame.withEntry idx filename start size m) = _
  rw [count_withEntry, Nat.mod_eq_of_lt (by omega)]

theorem address_of_table (hidx : idx < fatEntries) (hstart : start < 4294967296) :
    Frame.address m' idx = start := by
  rw [address_congr (entry_of_table htable hidx)]
  exact address_withEntry hstart

/-- An entry that is present in the new table is another one than the fake entry. -/
theorem same_entry {i : Nat} (hi : i < fatEntries) (hne : i ≠ idx) (hp : Frame.Present m' i) :
    ∀ k < 16, m' (fileOffset i + k) = m (fileOffset i + k) := by
  intro k hk
  rw [entry_of_table htable hi k hk]
  refine withEntry_other ?_ ?_
  · unfold fileOffset
    omega
  · intro hlast
    have hnext : i ≠ idx + 1 := by
      intro heq
      have hfake : ¬ Frame.Present (Frame.withEntry idx filename start size m) (idx + 1) :=
        not_present_withEntry hlast
      rw [← heq] at hfake
      exact hfake ((present_congr (entry_of_table htable hi)).mp hp)
    unfold countOffset fileOffset
    omega

theorem still_present {i : Nat} (hi : i < fatEntries) (hne : i ≠ idx)
    (hlisted : i < Frame.count m) (hp : Frame.Present m i) : Frame.Present m' i := by
  refine (present_congr ?_).mpr hp
  intro k hk
  rw [entry_of_table htable hi k hk]
  refine withEntry_other ?_ ?_
  · unfold fileOffset
    omega
  · intro hlast
    unfold countOffset fileOffset
    omega

end

theorem withEntry_behind {start size a : Nat} (hidx : idx < 255) (ha : fatSize ≤ a) :
    Frame.withEntry idx filename start size m a = m a := by
  have hentries : fatEntries = 511 := rfl
  have hbound := @fileOffset_lt idx (by omega) 15 (by decide)
  have hbound' := @fileOffset_lt (idx + 1) (by omega) 15 (by decide)
  have hsmall : countOffset < fatSize := by decide
  exact withEntry_other (by omega) fun _ => by omega

/-- The memory after a picture was added, of which so many bytes were written. -/
def Frame.withPicture (f : Frame) (idx : Nat) (filename : List UInt8) (start size : Nat)
    (data : List UInt8) (m : Nat → UInt8) : Nat → UInt8 :=
  overlay start data (f.sealFat (Frame.withEntry idx filename start size m))

theorem withPicture_table {start size a : Nat} {data : List UInt8} (hstart : f.pictureStart ≤ start)
    (hlow : 2 ≤ a) (hhigh : a < fatSize) :
    f.withPicture idx filename start size data m a =
      Frame.withEntry idx filename start size m a := by
  have hfat := fatSize_le_pictureStart f
  rw [Frame.withPicture, overlay_before _ _ (by omega), sealFat_table hlow hhigh]

theorem withPicture_outside {start size a : Nat} {data : List UInt8} (hidx : idx < 255)
    (hlow : f.pictureStart ≤ a) (hout : ¬ (start ≤ a ∧ a < start + data.length)) :
    f.withPicture idx filename start size data m a = m a := by
  have hfat := fatSize_le_pictureStart f
  rw [Frame.withPicture, overlay_outside _ hout, sealFat_behind hlow,
    withEntry_behind hidx (by omega)]

theorem withPicture_sealed {start size : Nat} {data : List UInt8}
    (hstart : f.pictureStart ≤ start) :
    f.Sealed (f.withPicture idx filename start size data m) := by
  refine (sealFat_sealed f (Frame.withEntry idx filename start size m)).congr ?_
  intro a ha
  exact overlay_before _ _ (by omega)

section

variable {size : Nat} {data : List UInt8}

theorem Frame.Listed.withPicture_kept (h : f.Listed m) (hlen : data.length ≤ size)
    (hroom : f.HasRoom m size idx) (hle : idx ≤ Frame.count m) (hidx : idx < 255) {i : Nat}
    (hi : i < fatEntries) (hne : i ≠ idx)
    (hp : Frame.Present (f.withPicture idx filename (f.endBefore m idx) size data m) i) :
    Frame.Present m i ∧
      f.Kept m (f.withPicture idx filename (f.endBefore m idx) size data m) i := by
  have hentries : fatEntries = 511 := rfl
  have hcount : Frame.count m < 256 := UInt8.toNat_lt _
  obtain ⟨hstart, hbefore⟩ := h.endBefore_le (by omega : idx ≤ fatEntries)
  obtain ⟨hlimit, hbehind⟩ :=
    @Frame.Listed.startFrom_le f m idx h (Frame.count m - idx) (by omega)
  have hgap := hroom.2
  have htable : ∀ a, 2 ≤ a → a < fatSize →
      f.withPicture idx filename (f.endBefore m idx) size data m a =
        Frame.withEntry idx filename (f.endBefore m idx) size m a :=
    fun a hlow hhigh => withPicture_table hstart hlow hhigh
  have hentry := same_entry htable hi hne hp
  have hold := (present_congr hentry).mp hp
  have hlisted := h.covered i hi hold
  refine ⟨hold, ?_, hentry, ?_⟩
  · rw [count_of_table htable hidx]
    by_cases hlast : idx = Frame.count m
    · rw [if_pos hlast]
      omega
    · rw [if_neg hlast]
      exact hlisted
  · intro a hlow hhigh
    have harea := h.inArea i hi hold
    refine withPicture_outside hidx (by omega) ?_
    rcases Nat.lt_or_gt_of_ne hne with hlt | hlt
    · have hprev := hbefore i hlt hold
      omega
    · have hnext := hbehind i (by omega) (by omega) hold
      omega

/-- A picture is added: behind its entry, its bytes, or as many of them as tell its length. -/
theorem Frame.ValidTable.add (h : f.ValidTable m) (hlib : ValidLibrary f.lib) (hsize : 0 < size)
    (hlen : data.length ≤ size) (hfirst : f.FirstRoom m size idx) (hidx : idx < 255)
    (hend : f.pictureEnd < 4294967296)
    (htells : f.sizeAt (f.withPicture idx filename (f.endBefore m idx) size data m)
      (f.endBefore m idx) = size) :
    f.ValidTable (f.withPicture idx filename (f.endBefore m idx) size data m) ∧
      ∀ i < fatEntries, Frame.Present m i →
        f.Kept m (f.withPicture idx filename (f.endBefore m idx) size data m) i := by
  have hentries : fatEntries = 511 := rfl
  have hcount : Frame.count m < 256 := UInt8.toNat_lt _
  have hle := hfirst.le
  obtain ⟨hstart, -⟩ := h.endBefore_le (by omega : idx ≤ fatEntries)
  have hlimit := (@Frame.Listed.startFrom_le f m idx h.toListed (Frame.count m - idx) (by omega)).1
  have hgap := hfirst.room.2
  have htable : ∀ a, 2 ≤ a → a < fatSize →
      f.withPicture idx filename (f.endBefore m idx) size data m a =
        Frame.withEntry idx filename (f.endBefore m idx) size m a :=
    fun a hlow hhigh => withPicture_table hstart hlow hhigh
  have haddress := address_of_table htable (by omega) (by omega)
  refine ⟨⟨?_, withPicture_sealed hstart⟩, ?_⟩
  · refine h.toListed.add hlib hsize (by omega) hfirst.room hle (by omega) ?_ haddress ?_ ?_
    · rw [count_of_table htable hidx]
      by_cases hlast : idx = Frame.count m
      · rw [if_pos hlast]
        omega
      · rw [if_neg hlast]
        omega
    · rw [Frame.stop, haddress, htells]
    · intro k hk hne hp
      exact h.withPicture_kept hlen hfirst.room hle hidx hk hne hp
  · intro i hi hp
    have hne : i ≠ idx := by
      intro heq
      exact h.not_present hfirst.room (by omega) (heq ▸ hp)
    have hnew := still_present htable hi hne (h.covered i hi hp) hp
    exact (h.withPicture_kept hlen hfirst.room hle hidx hi hne hnew).2

end

end

/-! ### Deleting -/

namespace Frame

/-- The number of entries up to the last present one among the first `n`, not counting `idx`. -/
def countOthers (m : Nat → UInt8) (idx : Nat) : Nat → Nat
  | 0 => 0
  | n + 1 => if n ≠ idx ∧ Present m n then n + 1 else countOthers m idx n

/-- The memory after the picture of an entry was deleted. -/
def withoutPicture (f : Frame) (idx newCount : Nat) (m : Nat → UInt8) : Nat → UInt8 :=
  f.sealFat (overlay countOffset [UInt8.ofNat newCount] (overlay (fileOffset idx) [0] m))

/-- The memory after all pictures were deleted. -/
def cleared (f : Frame) (m : Nat → UInt8) : Nat → UInt8 :=
  f.sealFat (overlay countOffset [UInt8.ofNat 0]
    (overlay (fileOffset 0) (List.replicate (fatSize - fileOffset 0) 0) m))

end Frame

section

variable {f : Frame} {m m' : Nat → UInt8} {idx : Nat}

theorem countOthers_le (m : Nat → UInt8) (idx n : Nat) : Frame.countOthers m idx n ≤ n := by
  induction n with
  | zero => exact Nat.le_refl 0
  | succ n ih =>
    unfold Frame.countOthers
    by_cases h : n ≠ idx ∧ Frame.Present m n
    · rw [if_pos h]
    · rw [if_neg h]
      omega

theorem lt_countOthers {i n : Nat} (hi : i < n) (hne : i ≠ idx) (hp : Frame.Present m i) :
    i < Frame.countOthers m idx n := by
  induction n with
  | zero => omega
  | succ n ih =>
    unfold Frame.countOthers
    by_cases h : n ≠ idx ∧ Frame.Present m n
    · rw [if_pos h]
      exact hi
    · rw [if_neg h]
      refine ih ?_
      have hlast : i ≠ n := by
        intro heq
        exact h ⟨heq ▸ hne, heq ▸ hp⟩
      omega

theorem Frame.Listed.of_kept (h : f.Listed m)
    (hkept : ∀ k < fatEntries, Frame.Present m' k → Frame.Present m k ∧ f.Kept m m' k) :
    f.Listed m' := by
  refine ⟨?_, ?_, ?_⟩
  · intro k hk hp
    exact (hkept k hk hp).2.listed
  · intro k hk hp
    obtain ⟨hold, hsame⟩ := hkept k hk hp
    rw [hsame.address, hsame.stop]
    exact h.inArea k hk hold
  · intro k l hkl hl hpk hpl
    obtain ⟨hold, hsame⟩ := hkept k (by omega) hpk
    obtain ⟨hold', hsame'⟩ := hkept l hl hpl
    rw [hsame.address, hsame.stop, hsame'.address]
    exact h.ordered k l hkl hl hold hold'

theorem fileOffset_table (hidx : idx < fatEntries) :
    16 ≤ fileOffset idx ∧ fileOffset idx < fatSize := by
  have hbound := fileOffset_lt hidx (by decide : 0 < 16)
  exact hbound

theorem withoutPicture_entry {newCount i : Nat} (hi : i < fatEntries) (hne : i ≠ idx) : ∀ k < 16,
    f.withoutPicture idx newCount m (fileOffset i + k) = m (fileOffset i + k) := by
  intro k hk
  have hbound := fileOffset_lt hi hk
  have hother : ¬ (fileOffset idx ≤ fileOffset i + k ∧ fileOffset i + k < fileOffset idx + 1) := by
    unfold fileOffset
    omega
  rw [Frame.withoutPicture, sealFat_table (by omega) hbound.2,
    overlay_behind _ (by unfold countOffset; simp; omega),
    overlay_outside _ (by simpa using hother)]

theorem count_withoutPicture {newCount : Nat} (hnew : newCount < 256) :
    Frame.count (f.withoutPicture idx newCount m) = newCount := by
  rw [Frame.count, Frame.withoutPicture, sealFat_table (by decide) (by decide),
    overlay_inside _ 0 (Nat.le_refl _) (by simp), Nat.sub_self]
  show (UInt8.ofNat newCount).toNat = newCount
  rw [UInt8.toNat_ofNat', Nat.mod_eq_of_lt hnew]

theorem not_present_withoutPicture {newCount : Nat} (hidx : idx < fatEntries) :
    ¬ Frame.Present (f.withoutPicture idx newCount m) idx := by
  have hbound := fileOffset_table hidx
  rw [Frame.Present, Frame.withoutPicture, sealFat_table (by omega) hbound.2,
    overlay_behind _ (by unfold countOffset; simp; omega),
    overlay_inside _ 0 (Nat.le_refl _) (by simp), Nat.sub_self]
  intro h
  exact h rfl

theorem Frame.ValidTable.delete (h : f.ValidTable m) (hidx : idx < Frame.count m) :
    f.ValidTable (f.withoutPicture idx (Frame.countOthers m idx (Frame.count m)) m) ∧
      ¬ Frame.Present (f.withoutPicture idx (Frame.countOthers m idx (Frame.count m)) m) idx ∧
      ∀ i < fatEntries, i ≠ idx → Frame.Present m i →
        f.Kept m (f.withoutPicture idx (Frame.countOthers m idx (Frame.count m)) m) i := by
  have hentries : fatEntries = 511 := rfl
  have hcount : Frame.count m < 256 := UInt8.toNat_lt _
  have hnew := countOthers_le m idx (Frame.count m)
  have hfat := fatSize_le_pictureStart f
  have hnone : ¬ Frame.Present
      (f.withoutPicture idx (Frame.countOthers m idx (Frame.count m)) m) idx :=
    not_present_withoutPicture (by omega)
  have hkept : ∀ i < fatEntries, i ≠ idx → Frame.Present m i →
      f.Kept m (f.withoutPicture idx (Frame.countOthers m idx (Frame.count m)) m) i := by
    intro i hi hne hp
    refine ⟨?_, withoutPicture_entry hi hne, ?_⟩
    · rw [count_withoutPicture (by omega)]
      exact lt_countOthers (h.covered i hi hp) hne hp
    · intro a hlow hhigh
      have harea := h.inArea i hi hp
      have hbound := @fileOffset_table idx (by omega)
      have hsmall : countOffset < fatSize := by decide
      rw [Frame.withoutPicture, sealFat_behind (by omega), overlay_behind _ (by simp; omega),
        overlay_behind _ (by simp; omega)]
  refine ⟨⟨h.toListed.of_kept ?_, sealFat_sealed f _⟩, hnone, hkept⟩
  intro k hk hp
  have hne : k ≠ idx := by
    intro heq
    rw [heq] at hp
    exact hnone hp
  have hold := (present_congr (withoutPicture_entry hk hne)).mp hp
  exact ⟨hold, hkept k hk hne hold⟩

theorem not_present_cleared {i : Nat} (hi : i < fatEntries) :
    ¬ Frame.Present (f.cleared m) i := by
  have hbound := fileOffset_table hi
  have hfirst : fileOffset 0 = 16 := rfl
  have hlen : (List.replicate (fatSize - fileOffset 0) (0 : UInt8)).length = fatSize - 16 := by
    rw [List.length_replicate, hfirst]
  rw [Frame.Present, Frame.cleared, sealFat_table (by omega) hbound.2,
    overlay_behind _ (by unfold countOffset; simp; omega),
    overlay_inside _ 0 (by omega) (by omega)]
  simp

theorem Frame.ValidTable.clear (h : f.ValidTable m) : f.ValidTable (f.cleared m) := by
  refine ⟨h.toListed.of_kept ?_, sealFat_sealed f _⟩
  intro k hk hp
  exact absurd hp (not_present_cleared hk)

end

end GPhoto2.St2205
