import GPhoto2.Proofs.St2205.Pictures
import GPhoto2.St2205.Filenames
import Mathlib.Data.List.Nodup

/-!
# `GPhoto2.Proofs.St2205.Filenames`: the names of the pictures on a frame

The driver lists the pictures of a frame by a second copy of the table, the names.
`filenames_follow_table`: through calls that succeed and are `FileCall.Safe`, an entry has a name
when it is in the table of the frame. Two calls are not safe. `put_file_func` must not need the
256th entry, which sets the number of entries to 0; and `delete_all_func` clears the table but no
name, so that there must be none: `deleteAll_keeps_names`.
-/

set_option autoImplicit false

namespace GPhoto2.St2205

open Lib
open Frame (countOthers withEntry)
open Lib.Comp (Ends)

/-! ### Names -/

/-- The number that decimal digits make. -/
def numberOf (digits : List UInt8) : Nat :=
  digits.foldl (fun n d => 10 * n + (d.toNat - 48)) 0

theorem length_zeroPadded : ∀ i < maxNoFiles, (zeroPadded 4 (i + 1)).length = 4 := by
  decide +kernel

theorem numberOf_zeroPadded : ∀ i < maxNoFiles, numberOf (zeroPadded 4 (i + 1)) = i + 1 := by
  decide +kernel

section

variable {i j : Nat} {name name' : List UInt8}

theorem take_setFilename (hi : i < maxNoFiles) :
    (setFilename name i).take 4 = zeroPadded 4 (i + 1) := by
  have hlen := length_zeroPadded i hi
  rw [setFilename, List.take_take, List.append_assoc]
  show (zeroPadded 4 (i + 1) ++ _).take 4 = _
  exact List.take_left' hlen

theorem setFilename_ne_nil (hi : i < maxNoFiles) : setFilename name i ≠ [] := by
  intro h
  have hlen := length_zeroPadded i hi
  rw [← take_setFilename hi, h] at hlen
  cases hlen

theorem setFilename_inj (hi : i < maxNoFiles) (hj : j < maxNoFiles)
    (h : setFilename name i = setFilename name' j) : i = j := by
  have hnumber : numberOf (zeroPadded 4 (i + 1)) = numberOf (zeroPadded 4 (j + 1)) := by
    rw [← take_setFilename hi, h, take_setFilename hj]
  rw [numberOf_zeroPadded i hi, numberOf_zeroPadded j hj] at hnumber
  omega

end

theorem entryName_ne_nil (entry : ImageTableEntry) : entryName entry ≠ [] := by
  have hcons : ∀ (c : UInt8) (rest : List UInt8), c ≠ 0 →
      (c :: rest).takeWhile (fun d => decide (d ≠ 0)) ≠ [] := by
    intro c rest hc
    rw [List.takeWhile_cons_of_pos (by simpa using hc)]
    exact List.cons_ne_nil _ _
  show ((if (entry.name.take filenameLength).getD 0 0 = 0
    then 63 :: (entry.name.take filenameLength).drop 1
    else entry.name.take filenameLength).takeWhile fun d => decide (d ≠ 0)) ≠ []
  by_cases hzero : (entry.name.take filenameLength).getD 0 0 = 0
  · rw [if_pos hzero]
    exact hcons 63 _ (by decide)
  · rw [if_neg hzero]
    cases hbytes : entry.name.take filenameLength with
    | nil =>
      rw [hbytes] at hzero
      exact absurd rfl hzero
    | cons c rest =>
      rw [hbytes] at hzero
      exact hcons c rest hzero

/-! ### The table -/

namespace Frame

/-- An entry is in the table: it is counted, and present. -/
def Stored (m : Nat → UInt8) (i : Nat) : Prop := i < count m ∧ Present m i

instance (m : Nat → UInt8) (i : Nat) : Decidable (Stored m i) :=
  inferInstanceAs (Decidable (i < count m ∧ Present m i))

/-- All entries that are present are counted. -/
def Covered (m : Nat → UInt8) : Prop := ∀ i < fatEntries, Present m i → i < count m

end Frame

section

variable {f : Frame} {m m' : Nat → UInt8} {idx : Nat}

theorem stored_lt {i : Nat} (h : Frame.Stored m i) : i < 256 := by
  have hcount : Frame.count m < 256 := UInt8.toNat_lt _
  exact Nat.lt_trans h.1 hcount

theorem stored_congr (htable : ∀ a < fatSize, m' a = m a) {i : Nat} (hi : i < fatEntries) :
    Frame.Stored m' i ↔ Frame.Stored m i := by
  have hcount : Frame.count m' = Frame.count m := by
    rw [Frame.count, Frame.count, htable countOffset (by decide)]
  have hpresent : Frame.Present m' i ↔ Frame.Present m i := by
    refine present_congr fun k hk => htable _ ?_
    exact (fileOffset_lt hi hk).2
  rw [Frame.Stored, Frame.Stored, hcount, hpresent]

/-! ### A new entry -/

section

variable {filename : List UInt8} {start size : Nat}
  (htable : ∀ a, 2 ≤ a → a < fatSize → m' a = withEntry idx filename start size m a)
  (hidx : idx < 255) (hle : idx ≤ Frame.count m)

include htable hidx

theorem count_le_of_table : Frame.count m ≤ Frame.count m' := by
  rw [count_of_table htable hidx]
  by_cases hlast : idx = Frame.count m
  · rw [if_pos hlast]
    omega
  · rw [if_neg hlast]

include hle

theorem stored_new : Frame.Stored m' idx := by
  refine ⟨?_, ?_⟩
  · rw [count_of_table htable hidx]
    by_cases hlast : idx = Frame.count m
    · rw [if_pos hlast]
      exact Nat.lt_succ_self idx
    · rw [if_neg hlast]
      omega
  · have hentry := entry_of_table htable (Nat.lt_trans hidx (by decide : 255 < fatEntries))
    exact (present_congr hentry).mpr present_withEntry

theorem stored_of_table {i : Nat} (hi : i < fatEntries) :
    Frame.Stored m' i ↔ Frame.Stored m i ∨ i = idx := by
  have hcount := count_of_table htable hidx
  constructor
  · intro h
    by_cases hne : i = idx
    · exact Or.inr hne
    · refine Or.inl ⟨?_, (present_congr (same_entry htable hi hne h.2)).mp h.2⟩
      have hlt := h.1
      rw [hcount] at hlt
      by_cases hlast : idx = Frame.count m
      · rw [if_pos hlast] at hlt
        omega
      · rwa [if_neg hlast] at hlt
  · intro h
    by_cases hne : i = idx
    · rw [hne]
      exact stored_new htable hidx hle
    · have hold := h.resolve_right hne
      refine ⟨Nat.lt_of_lt_of_le hold.1 (count_le_of_table htable hidx), ?_⟩
      exact still_present htable hi hne hold.1 hold.2

theorem Frame.Placed.of_table (h : f.Placed m) (hlow : f.pictureStart ≤ start)
    (hhigh : start ≤ f.pictureEnd) : f.Placed m' := by
  intro i hi hp
  have hlt : i < fatEntries := Nat.lt_trans (stored_lt ⟨hi, hp⟩) (by decide)
  by_cases hne : i = idx
  · have hend := pictureEnd_lt f
    rw [hne, address_of_table htable (by omega) (by omega)]
    exact ⟨hlow, hhigh⟩
  · have hsame := same_entry htable hlt hne hp
    have hold := ((stored_of_table htable hidx hle hlt).mp ⟨hi, hp⟩).resolve_right hne
    rw [address_congr hsame]
    exact h i hold.1 hold.2

theorem Frame.Covered.of_table (h : Frame.Covered m) : Frame.Covered m' := by
  intro i hi hp
  by_cases hne : i = idx
  · rw [hne]
    exact (stored_new htable hidx hle).1
  · have hold := h i hi ((present_congr (same_entry htable hi hne hp)).mp hp)
    exact Nat.lt_of_lt_of_le hold (count_le_of_table htable hidx)

end

/-! ### An entry less -/

theorem count_without : Frame.count
    (f.withoutPicture idx (countOthers m idx (Frame.count m)) m) =
      countOthers m idx (Frame.count m) := by
  have hcount : Frame.count m < 256 := UInt8.toNat_lt _
  have hle := countOthers_le m idx (Frame.count m)
  exact count_withoutPicture (by omega)

theorem stored_without {i : Nat} (hi : i < fatEntries) :
    Frame.Stored (f.withoutPicture idx (countOthers m idx (Frame.count m)) m) i ↔
      Frame.Stored m i ∧ i ≠ idx := by
  have hcount := @count_without f m idx
  have hle := countOthers_le m idx (Frame.count m)
  constructor
  · intro h
    have hlt := h.1
    rw [hcount] at hlt
    have hne : i ≠ idx := by
      intro heq
      have hp := h.2
      rw [heq] at hp
      exact not_present_withoutPicture (heq ▸ hi) hp
    exact ⟨⟨by omega, (present_congr (withoutPicture_entry hi hne)).mp h.2⟩, hne⟩
  · intro h
    refine ⟨?_, (present_congr (withoutPicture_entry hi h.2)).mpr h.1.2⟩
    rw [hcount]
    exact lt_countOthers h.1.1 h.2 h.1.2

theorem Frame.Placed.delete (h : f.Placed m) :
    f.Placed (f.withoutPicture idx (countOthers m idx (Frame.count m)) m) := by
  intro i hi hp
  have hlt : i < fatEntries := Nat.lt_trans (stored_lt ⟨hi, hp⟩) (by decide)
  obtain ⟨hold, hne⟩ := (stored_without hlt).mp ⟨hi, hp⟩
  rw [address_congr (withoutPicture_entry hlt hne)]
  exact h i hold.1 hold.2

theorem Frame.Covered.delete (h : Frame.Covered m) :
    Frame.Covered (f.withoutPicture idx (countOthers m idx (Frame.count m)) m) := by
  intro i hi hp
  have hne : i ≠ idx := by
    intro heq
    rw [heq] at hp
    exact not_present_withoutPicture (heq ▸ hi) hp
  have hold := (present_congr (withoutPicture_entry hi hne)).mp hp
  exact ((stored_without hi).mpr ⟨⟨h i hi hold, hold⟩, hne⟩).1

/-! ### No entry -/

theorem not_stored_cleared {i : Nat} (hi : i < fatEntries) : ¬ Frame.Stored (f.cleared m) i :=
  fun h => not_present_cleared hi h.2

theorem placed_cleared : f.Placed (f.cleared m) := by
  intro i hi hp
  have hlt : i < fatEntries := Nat.lt_trans (stored_lt ⟨hi, hp⟩) (by decide)
  exact absurd hp (not_present_cleared hlt)

theorem covered_cleared : Frame.Covered (f.cleared m) :=
  fun _ hi hp => absurd hp (not_present_cleared hi)

end

/-! ### What holds between calls -/

/-- The names are those of the entries that should be in the table. -/
structure Cached (f : Frame) (d : Driver) : Prop where
  backed : f.layout.Backed d.camera
  placed : f.Placed (f.layout.contents d.camera)
  named : ∀ i < maxNoFiles, d.filenames i ≠ [] → ∃ name, d.filenames i = setFilename name i
  cached : ∀ i < maxNoFiles, d.filenames i ≠ [] ↔ Frame.Stored (f.layout.contents d.camera) i

/-- And the frame has the table that it should have. -/
structure Mirrors (f : Frame) (d : Driver) : Prop extends Cached f d where
  committed : ∀ a < f.pictureEnd, d.camera.store a = f.layout.contents d.camera a

section

variable {f : Frame} {d : Driver}

theorem fatEntries_of_name {i : Nat} (hi : i < maxNoFiles) : i < fatEntries :=
  Nat.lt_trans hi (by decide)

theorem Mirrors.table (h : Mirrors f d) {a : Nat} (ha : a < fatSize) :
    d.camera.store a = f.layout.contents d.camera a := by
  have hend := blockSize_le_pictureEnd f
  have hsize : fatSize ≤ blockSize := by decide
  exact h.committed a (by omega)

theorem Mirrors.stored (h : Mirrors f d) {i : Nat} (hi : i < maxNoFiles) :
    d.filenames i ≠ [] ↔ Frame.Stored d.camera.store i := by
  rw [h.cached i hi]
  exact (stored_congr (fun a ha => h.table ha) (fatEntries_of_name hi)).symm

theorem Cached.names_inj (h : Cached f d) {i j : Nat} (hi : i < maxNoFiles) (hj : j < maxNoFiles)
    (hne : d.filenames i ≠ []) (hsame : d.filenames i = d.filenames j) : i = j := by
  obtain ⟨name, hname⟩ := h.named i hi hne
  obtain ⟨name', hname'⟩ := h.named j hj (hsame ▸ hne)
  rw [hname, hname'] at hsame
  exact setFilename_inj hi hj hsame

theorem Cached.getFileIdx_eq (h : Cached f d) {i : Nat} (hi : i < maxNoFiles)
    (hne : d.filenames i ≠ []) : getFileIdx d.filenames rootFolder (d.filenames i) = .ok i := by
  have hfind : (List.range maxNoFiles).find? (fun j => d.filenames i = d.filenames j) = some i := by
    rw [List.find?_range_eq_some]
    refine ⟨by simp, List.mem_range.mpr hi, fun j hj => ?_⟩
    have hother : d.filenames i ≠ d.filenames j := by
      intro hsame
      have heq := h.names_inj hi (by omega) hne hsame
      omega
    simpa using hother
  rw [getFileIdx, if_neg (fun hfalse => hfalse rfl), hfind]

/-- What is listed are the names of the entries of the table, each of them once. -/
theorem Mirrors.fileListFunc_eq (h : Mirrors f d) :
    fileListFunc d.filenames =
        ((List.range maxNoFiles).filter fun i => Frame.Stored d.camera.store i).map d.filenames ∧
      (fileListFunc d.filenames).Nodup := by
  have hsame : (List.range maxNoFiles).filter (fun i => d.filenames i ≠ []) =
      (List.range maxNoFiles).filter fun i => Frame.Stored d.camera.store i := by
    refine List.filter_congr fun i hi => ?_
    rw [decide_eq_decide]
    exact h.stored (List.mem_range.mp hi)
  refine ⟨by rw [fileListFunc, hsame], ?_⟩
  refine List.Nodup.map_on ?_ (List.nodup_range.filter _)
  intro i hi j hj heq
  rw [List.mem_filter, List.mem_range] at hi hj
  exact h.names_inj hi.1 hj.1 (by simpa using hi.2) heq

end

/-! ### The calls -/

/-- Something could not be read or written. -/
def Fails (f : Frame) (writes : Nat → Option (BlockFault Int UInt8)) (d : Driver) : Prop :=
  ReadFailed f d.camera ∨ CommitFailed f writes d.camera

/-- What a call must not break: the names, and that all entries are counted. -/
structure KeepsNames (f : Frame) (d d' : Driver) : Prop where
  mirrors : Mirrors f d'
  covered : Frame.Covered (f.layout.contents d.camera) →
    Frame.Covered (f.layout.contents d'.camera)

section

variable {f : Frame} {d : Driver} (hmem : f.memSize ≤ 2097152)
  (writes : Nat → Option (BlockFault Int UInt8))

include hmem

theorem commitFunc_ends (h : f.layout.Backed d.camera) :
    Ends
      (fun _ d' => f.layout.contents d'.camera = f.layout.contents d.camera ∧
        f.layout.Backed d'.camera ∧ d'.filenames = d.filenames ∧
        ∀ a < f.pictureEnd, d'.camera.store a = f.layout.contents d'.camera a)
      (fun _ _ => CommitFailed f writes d.camera) (Driver.onCamera (f.commit writes) d) := by
  refine Ends.onPart ((commit_ends hmem writes h).mono ?_ fun _ _ h => h.2)
  intro _ s' hs'
  refine ⟨hs'.1, hs'.2.1, rfl, fun a ha => ?_⟩
  show s'.store a = f.layout.contents s' a
  rw [hs'.1]
  exact hs'.2.2 a ha

theorem Cached.commit (h : Cached f d) :
    Ends
      (fun _ d' => Mirrors f d' ∧ f.layout.contents d'.camera = f.layout.contents d.camera ∧
        d'.filenames = d.filenames)
      (fun _ _ => CommitFailed f writes d.camera) (Driver.onCamera (f.commit writes) d) := by
  refine (commitFunc_ends hmem writes h.backed).mono ?_ fun _ _ h => h
  intro _ d' hd'
  obtain ⟨hcontents, hbacked, hnames, hcommitted⟩ := hd'
  refine ⟨⟨⟨hbacked, hcontents.symm ▸ h.placed, ?_, ?_⟩, hcommitted⟩, hcontents, hnames⟩
  · rw [hnames]
    exact h.named
  · rw [hnames, hcontents]
    exact h.cached

theorem putFileFunc_ends (h : Mirrors f d)
    (hshuffles : f.compressed = true → 0 < f.lib.noShuffles)
    (toAscii : List UInt8 → Option (List UInt8)) (folder name : List UInt8)
    (picture : Except Int Pixels) (rand : Fin 2147483648)
    (hsafe : ∀ rgb24, picture = .ok rgb24 → ∀ allow idx,
      Takes f (f.layout.contents d.camera) rgb24 (f.chooseShuffle rand) allow idx → idx < 255) :
    Ends (fun _ d' => KeepsNames f d d') (fun _ _ => True)
      (f.putFileFunc writes toAscii folder name picture rand d) := by
  refine Ends.ite (fun _ => Ends.throw trivial) ?_
  intro _
  cases hascii : toAscii name with
  | none => exact Ends.throw trivial
  | some ascii =>
  cases picture with
  | error e => exact trivial
  | ok rgb24 =>
  have hput : Ends
      (fun idx d1 => d1.filenames = d.filenames ∧ ∃ allow,
        Takes f (f.layout.contents d.camera) rgb24 (f.chooseShuffle rand) allow idx ∧
        WrittenTo f d.camera (outName ascii) rgb24 (f.chooseShuffle rand) allow idx
          (f.coded rgb24 (f.chooseShuffle rand) allow).length d1.camera)
      (fun _ _ => True) (Driver.onCamera (f.writeFile (outName ascii) rgb24 rand) d) := by
    refine Ends.onPart ((realWriteFile_ends hmem h.placed (fun hcompressed =>
      chooseShuffle_lt (hshuffles hcompressed) rand) (outName ascii) rgb24).mono ?_ ?_)
    · intro idx s' hs'
      exact ⟨rfl, hs'⟩
    · intro _ _ _
      trivial
  show Ends _ _ ((Driver.onCamera (f.writeFile (outName ascii) rgb24 rand) >>= _) d)
  refine Ends.bind hput ?_
  intro idx d1 hd1
  obtain ⟨hnames, allow, htakes, hwritten⟩ := hd1
  have hidx := hsafe rgb24 rfl allow idx htakes
  have hle := htakes.room.le
  have hlow := h.placed.le_endBefore hle
  have hgap := htakes.room.room.2
  have hhigh := @Frame.Placed.startFrom_le f _ idx h.placed
    (Frame.count (f.layout.contents d.camera) - idx) (by omega)
  have htable : ∀ a, 2 ≤ a → a < fatSize → f.layout.contents d1.camera a =
      withEntry idx (outName ascii) (f.endBefore (f.layout.contents d.camera) idx)
        (f.coded rgb24 (f.chooseShuffle rand) allow).length (f.layout.contents d.camera) a := by
    intro a ha hfat
    rw [hwritten.contents]
    exact withPicture_table hlow ha hfat
  have hcached : Cached f (d1.setName idx (setFilename (outName ascii) idx)) := by
    refine ⟨hwritten.backed h.backed, h.placed.of_table htable hidx hle hlow (by omega), ?_, ?_⟩
    · intro i hi hne
      by_cases hnew : i = idx
      · exact ⟨outName ascii, by rw [hnew]; exact if_pos rfl⟩
      · have hold : (d1.setName idx (setFilename (outName ascii) idx)).filenames i =
            d.filenames i := by
          rw [← hnames]
          exact if_neg hnew
        rw [hold] at hne ⊢
        exact h.named i hi hne
    · intro i hi
      show (if i = idx then setFilename (outName ascii) idx else d1.filenames i) ≠ [] ↔
        Frame.Stored (f.layout.contents d1.camera) i
      rw [stored_of_table htable hidx hle (fatEntries_of_name hi), hnames]
      by_cases hnew : i = idx
      · rw [if_pos hnew]
        exact ⟨fun _ => Or.inr hnew, fun _ => setFilename_ne_nil (hnew ▸ hi)⟩
      · rw [if_neg hnew, h.cached i hi]
        exact ⟨Or.inl, fun hor => hor.resolve_right hnew⟩
  refine Ends.modify_bind ((hcached.commit hmem writes).mono ?_ fun _ _ _ => trivial)
  intro _ d' hd'
  refine ⟨hd'.1, fun hcovered => ?_⟩
  rw [hd'.2.1]
  exact hcovered.of_table htable hidx hle

/-- The entry that `delete_file_func` is asked for leaves the table. -/
theorem deleteFileFunc_ends (h : Mirrors f d) (folder filename : List UInt8) :
    Ends
      (fun _ d' => KeepsNames f d d' ∧ ∃ idx,
        getFileIdx d.filenames folder filename = .ok idx ∧
        ∀ i < maxNoFiles, d'.filenames i = if i = idx then [] else d.filenames i)
      (fun _ _ => ∀ idx, getFileIdx d.filenames folder filename = .ok idx →
        idx < Frame.count (f.layout.contents d.camera) → Fails f writes d)
      (f.deleteFileFunc writes folder filename d) := by
  refine Ends.get_bind ?_
  cases hfile : getFileIdx d.filenames folder filename with
  | error e =>
    show ∀ idx, Except.error e = Except.ok idx → _
    intro idx heq
    cases heq
  | ok idx =>
  have hdelete : Ends
      (fun _ d1 => d1.filenames = d.filenames ∧ Becomes f d.camera
        (f.withoutPicture idx (countOthers (f.layout.contents d.camera) idx
          (Frame.count (f.layout.contents d.camera))) (f.layout.contents d.camera)) d1.camera)
      (fun _ _ => ∀ i, (Except.ok idx : Except Int Nat) = .ok i →
        i < Frame.count (f.layout.contents d.camera) → Fails f writes d)
      (Driver.onCamera (f.deleteFile idx) d) := by
    refine Ends.onPart ((deleteFile_ends hmem d.camera idx).mono ?_ ?_)
    · intro _ s' hs'
      exact ⟨rfl, hs'.2⟩
    · intro _ s' hs' i heq hlt
      cases heq
      exact Or.inl (hs'.2 hlt)
  show Ends _ _ ((Driver.onCamera (f.deleteFile idx) >>= _) d)
  refine Ends.bind hdelete ?_
  intro _ d1 hd1
  obtain ⟨hnames, hd1⟩ := hd1
  have hcached : Cached f (d1.setName idx []) := by
    refine ⟨hd1.backed h.backed, ?_, ?_, ?_⟩
    · show f.Placed (f.layout.contents d1.camera)
      rw [hd1.contents]
      exact h.placed.delete
    · intro i hi hne
      by_cases hgone : i = idx
      · exact absurd (if_pos hgone) hne
      · have hold : (d1.setName idx []).filenames i = d.filenames i := by
          rw [← hnames]
          exact if_neg hgone
        rw [hold] at hne ⊢
        exact h.named i hi hne
    · intro i hi
      show (if i = idx then [] else d1.filenames i) ≠ [] ↔
        Frame.Stored (f.layout.contents d1.camera) i
      rw [hd1.contents, stored_without (fatEntries_of_name hi), hnames]
      by_cases hgone : i = idx
      · rw [if_pos hgone]
        exact ⟨fun hne => absurd rfl hne, fun hs => absurd hgone hs.2⟩
      · rw [if_neg hgone, h.cached i hi]
        exact ⟨fun hs => ⟨hs, hgone⟩, And.left⟩
  refine Ends.modify_bind ((hcached.commit hmem writes).mono ?_ ?_)
  · intro _ d' hd'
    refine ⟨⟨hd'.1, fun hcovered => ?_⟩, idx, rfl, fun i _ => ?_⟩
    · rw [hd'.2.1]
      show Frame.Covered (f.layout.contents d1.camera)
      rw [hd1.contents]
      exact hcovered.delete
    · rw [hd'.2.2, ← hnames]
      rfl
  · intro _ _ hfailed _ _ _
    exact Or.inr (hfailed.of_refused fun a hrefused => hd1.refused hrefused)

theorem deleteAllFunc_ends (h : f.layout.Backed d.camera) :
    Ends
      (fun _ d' => f.layout.contents d'.camera = f.cleared (f.layout.contents d.camera) ∧
        f.layout.Backed d'.camera ∧ d'.filenames = d.filenames ∧
        ∀ a < f.pictureEnd, d'.camera.store a = f.layout.contents d'.camera a)
      (fun _ _ => Fails f writes d) (f.deleteAllFunc writes d) := by
  have hclear : Ends
      (fun _ d1 => d1.filenames = d.filenames ∧
        Becomes f d.camera (f.cleared (f.layout.contents d.camera)) d1.camera)
      (fun _ _ => Fails f writes d) (Driver.onCamera f.deleteAll d) := by
    refine Ends.onPart ((deleteAll_ends hmem d.camera).mono ?_ ?_)
    · intro _ s' hs'
      exact ⟨rfl, hs'⟩
    · intro _ s' hs'
      exact Or.inl hs'.2
  refine Ends.bind hclear ?_
  intro _ d1 hd1
  obtain ⟨hnames, hd1⟩ := hd1
  refine (commitFunc_ends hmem writes (hd1.backed h)).mono ?_ ?_
  · intro _ d' hd'
    exact ⟨hd'.1.trans hd1.contents, hd'.2.1, hd'.2.2.1.trans hnames, hd'.2.2.2⟩
  · intro _ _ hfailed
    exact Or.inr (hfailed.of_refused fun a hrefused => hd1.refused hrefused)

end

/-! ### Opening -/

/-- What `st2205_open_device` leaves: blocks may have been read, and there are no names. -/
structure Opened (f : Frame) (d : Driver) : Prop where
  same : f.layout.contents d.camera = d.camera.store
  names : ∀ i, d.filenames i = []

section

variable {f : Frame} {d : Driver}

theorem Opened.attach (h : Opened f d) (device : Device) : Opened f (device.attach d) :=
  ⟨h.same, h.names⟩

variable (hmem : f.memSize ≤ 2097152)

include hmem

theorem getFilename_ends (hfirst : d.camera.present 0 = true) {i : Nat} (hi : i ≤ 256) :
    Ends
      (fun _ d' => Fetched f.layout d.camera d'.camera ∧ ∀ j, d'.filenames j ≠ [] ↔
        d.filenames j ≠ [] ∨ j = i ∧ Frame.Present (f.layout.contents d.camera) i)
      (fun _ _ => False) (f.getFilename i d) := by
  have hread : Ends
      (fun entry d1 => d1.filenames = d.filenames ∧ Fetched f.layout d.camera d1.camera ∧
        (entry.present ≠ 0 ↔ Frame.Present (f.layout.contents d.camera) i))
      (fun _ _ => False) (Driver.onCamera (f.readEntry i) d) := by
    refine Ends.onPart ((readEntry_ends hmem hfirst hi).mono ?_ fun _ _ h => h)
    intro entry s' hs'
    exact ⟨rfl, hs'.1, hs'.2.1⟩
  refine Ends.bind hread ?_
  intro entry d1 hd1
  obtain ⟨hnames, hfetched, hpresent⟩ := hd1
  refine Ends.ite ?_ ?_
  · intro hzero
    refine Ends.pure ⟨hfetched, fun j => ?_⟩
    rw [hnames]
    exact ⟨Or.inl, fun h => h.resolve_right fun hp => hpresent.mpr hp.2 hzero⟩
  · intro hp
    refine Ends.modify ⟨hfetched, fun j => ?_⟩
    show (if j = i then entryName entry else d1.filenames j) ≠ [] ↔ _
    rw [hnames]
    by_cases hj : j = i
    · rw [if_pos hj]
      exact ⟨fun _ => Or.inr ⟨hj, hpresent.mp hp⟩, fun _ => entryName_ne_nil entry⟩
    · rw [if_neg hj]
      exact ⟨Or.inl, fun h => h.resolve_right fun hp => hj hp.1⟩

theorem getFilenames_ends (hnames : ∀ i, d.filenames i = []) :
    Ends
      (fun _ d' => Fetched f.layout d.camera d'.camera ∧
        ∀ i, d'.filenames i ≠ [] ↔ Frame.Stored (f.layout.contents d.camera) i)
      (fun _ _ => ReadFailed f d.camera) (f.getFilenames d) := by
  have hcount : Frame.count (f.layout.contents d.camera) < 256 := UInt8.toNat_lt _
  have hread : Ends
      (fun n d1 => d1.filenames = d.filenames ∧ Fetched f.layout d.camera d1.camera ∧
        n = Frame.count (f.layout.contents d.camera) ∧ d1.camera.present 0 = true)
      (fun _ _ => ReadFailed f d.camera) (Driver.onCamera f.readFileCount d) := by
    refine Ends.onPart ((readFileCount_ends hmem d.camera).mono ?_ fun _ _ h => h.2)
    intro n s' hs'
    exact ⟨rfl, hs'⟩
  refine Ends.bind hread ?_
  intro n d1 hd1
  obtain ⟨hsame, hfetched, hn, hfirst⟩ := hd1
  rw [hn]
  refine Ends.ite ?_ ?_
  · intro hmany
    have hmax : maxNoFiles = 510 := rfl
    omega
  intro _
  have hloop := @Ends.forM_range _ _ (fun (_ : Int) (_ : Driver) => ReadFailed f d.camera)
    (fun k t => Fetched f.layout d.camera t.camera ∧ t.camera.present 0 = true ∧
      ∀ j, t.filenames j ≠ [] ↔ j < k ∧ Frame.Present (f.layout.contents d.camera) j)
    f.getFilename (Frame.count (f.layout.contents d.camera)) d1 ?_ ?_
  · exact hloop.mono (fun _ _ h => ⟨h.1, h.2.2⟩) fun _ _ h => h
  · refine ⟨hfetched, hfirst, fun j => ?_⟩
    rw [hsame, hnames]
    exact ⟨fun hne => absurd rfl hne, fun hlt => absurd hlt.1 (Nat.not_lt_zero j)⟩
  · intro k t hk ht
    obtain ⟨ht1, htfirst, htnames⟩ := ht
    refine (getFilename_ends hmem htfirst (by omega)).mono ?_ fun _ _ h => h.elim
    intro _ t' ht'
    refine ⟨ht1.trans ht'.1, ht'.1.present 0 htfirst, fun j => ?_⟩
    rw [ht'.2 j, htnames, ht1.contents]
    constructor
    · intro h
      rcases h with hold | hnew
      · exact ⟨by omega, hold.2⟩
      · exact ⟨by omega, hnew.1 ▸ hnew.2⟩
    · intro h
      by_cases hj : j = k
      · exact Or.inr ⟨hj, hj ▸ h.2⟩
      · exact Or.inl ⟨by omega, h.2⟩

theorem rereadFirst_ends {s : Camera} (hsame : f.layout.contents s = s.store) :
    Ends (fun _ s' => f.layout.contents s' = s.store ∧ s'.store = s.store)
      (fun _ _ => True) (f.rereadFirst s) := by
  refine Ends.modify_bind ((checkPresent_first hmem _).mono ?_ fun _ _ _ => trivial)
  intro _ s' hs'
  refine ⟨hs'.1.contents.trans ?_, hs'.1.store⟩
  funext a
  show (if (if a / blockSize = 0 then false else s.present (a / blockSize)) = true then s.mem a
    else s.store a) = s.store a
  have ha := congrFun hsame a
  by_cases hfirst : a / blockSize = 0
  · rw [if_pos hfirst, if_neg Bool.false_ne_true]
  · rw [if_neg hfirst]
    exact ha

/-- Behind `camera_init` the names are those of the entries of the table. -/
theorem openFilenames_ends (h : Opened f d) (hplaced : f.Placed d.camera.store)
    (clock : Option (Except Int Unit)) :
    Ends
      (fun _ d' => Mirrors f d' ∧ f.layout.contents d'.camera = d.camera.store)
      (fun _ _ => clock = none → ReadFailed f d.camera) (f.openFilenames clock d) := by
  refine Ends.bind ((getFilenames_ends hmem h.names).mono (fun _ _ h => h)
    fun _ _ h _ => h) ?_
  intro _ d1 hd1
  obtain ⟨hfetched, hnames⟩ := hd1
  refine Ends.modify_bind ?_
  have hsame : f.layout.contents d1.camera = d1.camera.store := by
    rw [hfetched.contents, h.same, hfetched.store]
  have hstore := hfetched.store
  -- the names are clean, and the setting of the clock does not change them
  have hend : ∀ s : Camera, f.layout.contents s = d1.camera.store → s.store = d1.camera.store →
      Mirrors f ⟨s, fun i => if d1.filenames i = [] then []
        else setFilename (cleanName (d1.filenames i)) i⟩ := by
    intro s hcontents hs
    refine ⟨⟨fun a _ => by rw [hcontents, hs], ?_, ?_, ?_⟩, fun a _ => by rw [hcontents, hs]⟩
    · rw [hcontents, hstore]
      exact hplaced
    · intro i _ hne
      by_cases hempty : d1.filenames i = []
      · exact absurd (if_pos hempty) hne
      · exact ⟨_, if_neg hempty⟩
    · intro i hi
      rw [hcontents, hstore, ← h.same, ← hnames i]
      show (if d1.filenames i = [] then [] else _) ≠ [] ↔ _
      by_cases hempty : d1.filenames i = []
      · rw [if_pos hempty, hempty]
      · rw [if_neg hempty]
        exact ⟨fun _ => hempty, fun _ => setFilename_ne_nil hi⟩
  cases clock with
  | none => exact Ends.pure ⟨hend _ hsame rfl, hsame.trans hstore⟩
  | some sent =>
    cases sent with
    | error e =>
      show some (Except.error e) = none → _
      intro hnone
      cases hnone
    | ok _ =>
      show Ends _ _ (Driver.onCamera f.rereadFirst _)
      refine Ends.onPart ((rereadFirst_ends hmem hsame).mono ?_ ?_)
      · intro _ s' hs'
        exact ⟨hend s' hs'.1 hs'.2, hs'.1.trans hstore⟩
      · intro _ _ _ hnone
        cases hnone

end

/-! ### Runs -/

/-- A picture must not need the 256th entry, and when all pictures are deleted there must be no
names. -/
def FileCall.Safe (f : Frame) (d : Driver) : FileCall → Prop
  | .putFile _ _ _ picture rand => ∀ rgb24, picture = .ok rgb24 → ∀ allow idx,
    Takes f (f.layout.contents d.camera) rgb24 (f.chooseShuffle rand) allow idx → idx < 255
  | .deleteFile _ _ => True
  | .deleteAll => ∀ i < maxNoFiles, d.filenames i = []

/-- A step is a safe call that succeeds. -/
def SafeCall (f : Frame) (d d' : Driver) : Prop :=
  ∃ device call, FileCall.Safe f d call ∧ FileCall.run f device call d = some (.ok (), d')

section

variable {f : Frame} {d d' : Driver}

theorem Mirrors.attach (h : Mirrors f d) (device : Device) : Mirrors f (device.attach d) :=
  ⟨⟨h.backed, h.placed, h.named, h.cached⟩, h.committed⟩

variable (hmem : f.memSize ≤ 2097152) (hshuffles : f.compressed = true → 0 < f.lib.noShuffles)

include hmem hshuffles

theorem SafeCall.keepsNames (h : Mirrors f d) (hstep : SafeCall f d d') : KeepsNames f d d' := by
  obtain ⟨device, call, hsafe, hrun⟩ := hstep
  have hd := h.attach device
  cases call with
  | putFile toAscii folder name picture rand =>
    have hends := putFileFunc_ends hmem device.writes hd hshuffles toAscii folder name picture rand
      hsafe
    exact ⟨(hends.of_ok hrun).mirrors, (hends.of_ok hrun).covered⟩
  | deleteFile folder filename =>
    have hends := deleteFileFunc_ends hmem device.writes hd folder filename
    exact ⟨(hends.of_ok hrun).1.mirrors, (hends.of_ok hrun).1.covered⟩
  | deleteAll =>
    obtain ⟨hcontents, hbacked, hnames, hcommitted⟩ :=
      (deleteAllFunc_ends hmem device.writes hd.backed).of_ok hrun
    -- no name is left over
    have hempty : ∀ i < maxNoFiles, d'.filenames i = [] := fun i hi =>
      (congrFun hnames i).trans (hsafe i hi)
    refine ⟨⟨⟨hbacked, ?_, fun i hi hne => absurd (hempty i hi) hne, fun i hi => ?_⟩, hcommitted⟩,
      fun _ => ?_⟩
    · rw [hcontents]
      exact placed_cleared
    · rw [hcontents]
      exact ⟨fun hne => absurd (hempty i hi) hne,
        fun hs => absurd hs (not_stored_cleared (fatEntries_of_name hi))⟩
    · rw [hcontents]
      exact covered_cleared

/-- From the opening of a frame whose pictures begin in the memory for pictures, and through safe
calls that succeed, an entry has a name when it is in the table of the frame. Then the list is that
of the pictures, and a name leads to its own entry. -/
theorem filenames_follow_table {d₀ d₁ : Driver} (hopened : Opened f d₀)
    (hplaced : f.Placed d₀.camera.store) {device : Device} {clock : Option (Except Int Unit)}
    (hinit : f.openFilenames clock (device.attach d₀) = some (.ok (), d₁))
    (hrun : Relation.ReflTransGen (SafeCall f) d₁ d) :
    (∀ i < maxNoFiles, d.filenames i ≠ [] ↔ Frame.Stored d.camera.store i) ∧
      (Frame.Covered d₀.camera.store →
        ∀ i < maxNoFiles, d.filenames i ≠ [] ↔ Frame.Present d.camera.store i) ∧
      fileListFunc d.filenames =
        ((List.range maxNoFiles).filter fun i => Frame.Stored d.camera.store i).map d.filenames ∧
      (fileListFunc d.filenames).Nodup ∧
      ∀ i < maxNoFiles, Frame.Stored d.camera.store i →
        getFileIdx d.filenames rootFolder (d.filenames i) = .ok i := by
  obtain ⟨hfirst, hcontents⟩ :=
    (openFilenames_ends hmem (hopened.attach device) hplaced clock).of_ok hinit
  have hsteps : ∀ d d', Mirrors f d ∧ (Frame.Covered (f.layout.contents d₁.camera) →
        Frame.Covered (f.layout.contents d.camera)) → SafeCall f d d' →
      Mirrors f d' ∧ (Frame.Covered (f.layout.contents d₁.camera) →
        Frame.Covered (f.layout.contents d'.camera)) := by
    intro d d' hd hstep
    have hkeeps := SafeCall.keepsNames hmem hshuffles hd.1 hstep
    exact ⟨hkeeps.mirrors, fun hcovered => hkeeps.covered (hd.2 hcovered)⟩
  obtain ⟨hd, hcovered⟩ := invariant_of_steps hsteps hrun ⟨hfirst, fun h => h⟩
  refine ⟨fun i hi => hd.stored hi, fun hall i hi => ?_, hd.fileListFunc_eq.1,
    hd.fileListFunc_eq.2, fun i hi hs => hd.getFileIdx_eq hi ((hd.stored hi).mpr hs)⟩
  rw [hd.stored hi]
  refine ⟨And.right, fun hp => ⟨?_, hp⟩⟩
  have hfat := fatEntries_of_name hi
  have hcov : Frame.Covered (f.layout.contents d.camera) := by
    refine hcovered ?_
    rw [hcontents]
    exact hall
  have hp' : Frame.Present (f.layout.contents d.camera) i := by
    refine (present_congr fun k hk => ?_).mp hp
    exact hd.table (fileOffset_lt hfat hk).2
  exact ((stored_congr (fun a ha => hd.table ha) hfat).mpr ⟨hcov i hfat hp', hp'⟩).1

end

/-! ### A frame with one picture -/

/-- A driver that is connected to a frame with this memory. -/
def connectedDriver (m : Nat → UInt8) : Driver := ⟨connected m, fun _ => []⟩

theorem connectedDriver_opened (m : Nat → UInt8) : Opened plainFrame (connectedDriver m) :=
  ⟨rfl, fun _ => rfl⟩

theorem not_fails {d : Driver} (h : d.camera.faults = fun _ => none) :
    ¬ Fails plainFrame (fun _ => none) d := by
  have hread : ∀ a, Refused plainFrame.layout d.camera a → ¬ a < plainFrame.pictureEnd :=
    fun a hrefused ha => not_readable_of_refused hrefused ha (Or.inr (congrFun h _))
  intro hfails
  rcases hfails with ⟨a, hrefused, ha⟩ | ⟨a, ha, hrefused⟩ | ⟨b, hb⟩
  · have hend := blockSize_le_pictureEnd plainFrame
    have hlt := ha rfl
    exact hread a hrefused (by omega)
  · exact hread a hrefused ha
  · exact hb rfl

/-- A memory without pictures. -/
def blank : Nat → UInt8 := plainFrame.cleared fun _ => 0

/-- A memory with one picture. -/
def oneListed : Nat → UInt8 := plainFrame.withPicture 0 [97] 8192 12288 [] blank

theorem count_blank : Frame.count blank = 0 := by
  rw [Frame.count, blank, Frame.cleared, sealFat_table (by decide) (by decide),
    overlay_inside _ 0 (Nat.le_refl _) (by simp), Nat.sub_self]
  rfl

theorem oneListed_table {a : Nat} (hlow : 2 ≤ a) (hhigh : a < fatSize) :
    oneListed a = withEntry 0 [97] 8192 12288 blank a :=
  withPicture_table (Nat.le_refl 8192) hlow hhigh

theorem stored_oneListed {i : Nat} (hi : i < fatEntries) : Frame.Stored oneListed i ↔ i = 0 := by
  rw [stored_of_table (fun _ hlow hhigh => oneListed_table hlow hhigh) (by decide)
    (Nat.zero_le _) hi]
  exact ⟨fun h => h.resolve_left (not_stored_cleared hi), Or.inr⟩

theorem oneListed_valid : plainFrame.ValidTable oneListed := by
  have hroom : plainFrame.FirstRoom blank 12288 0 := by
    refine ⟨Nat.zero_le _, ⟨fun h => not_stored_cleared (by decide) h, ?_⟩,
      fun j hj => absurd hj (Nat.not_lt_zero j)⟩
    rw [count_blank]
    decide
  have htells : plainFrame.sizeAt (plainFrame.withPicture 0 [97] (plainFrame.endBefore blank 0)
      12288 [] blank) (plainFrame.endBefore blank 0) = 12288 := by
    rw [Frame.sizeAt, if_neg (by decide)]
    rfl
  exact (plainFrame_empty.add smallFrame_valid (by decide) (Nat.zero_le _) hroom (by decide)
    (pictureEnd_lt plainFrame) htells).1

theorem oneListed_opens : ∃ d, plainFrame.openFilenames none
      (({} : Device).attach (connectedDriver oneListed)) = some (.ok (), d) ∧
    Mirrors plainFrame d ∧ ∀ i < maxNoFiles, d.filenames i ≠ [] ↔ i = 0 := by
  have hends := openFilenames_ends (by decide : plainFrame.memSize ≤ 2097152)
    ((connectedDriver_opened oneListed).attach {}) oneListed_valid.toListed.placed none
  obtain ⟨_, d, hrun, hd, hcontents⟩ := hends.exists_ok
    fun _ _ hfailed => not_fails rfl (Or.inl (hfailed rfl))
  refine ⟨d, hrun, hd, fun i hi => ?_⟩
  rw [hd.cached i hi, hcontents]
  exact stored_oneListed (fatEntries_of_name hi)

/-- The names of a frame whose picture is deleted, before all pictures are. -/
theorem filenames_follow_table_deleted : ∃ d₁ d,
    Relation.ReflTransGen (SafeCall plainFrame) d₁ d ∧ fileListFunc d₁.filenames ≠ [] ∧
      ∀ i < maxNoFiles, d.filenames i ≠ [] ↔ Frame.Stored d.camera.store i := by
  have hmem : plainFrame.memSize ≤ 2097152 := by decide
  obtain ⟨d₁, hinit, hd₁, hnames⟩ := oneListed_opens
  have hname : d₁.filenames 0 ≠ [] := (hnames 0 (by decide)).mpr rfl
  have hstored := (hd₁.cached 0 (by decide)).mp hname
  have hfirst : 0 < maxNoFiles := by decide
  have hfound := hd₁.getFileIdx_eq hfirst hname
  have hends := deleteFileFunc_ends hmem (fun _ => none) (hd₁.attach {}) rootFolder
    (d₁.filenames 0)
  obtain ⟨_, d₂, hdelete, -, idx, hidx, hd₂⟩ := hends.exists_ok (by
    intro _ _ hfailed
    exact not_fails rfl (hfailed 0 hfound hstored.1))
  have hzero : idx = 0 := by
    have heq := hidx.symm.trans hfound
    cases heq
    rfl
  have hempty : ∀ i < maxNoFiles, d₂.filenames i = [] := by
    intro i hi
    rw [hd₂ i hi, hzero]
    by_cases hi0 : i = 0
    · exact if_pos hi0
    · rw [if_neg hi0]
      by_contra hne
      exact hi0 ((hnames i hi).mp hne)
  have hstep : SafeCall plainFrame d₁ d₂ :=
    ⟨{}, .deleteFile rootFolder (d₁.filenames 0), trivial, hdelete⟩
  have hd₂' := (hstep.keepsNames hmem (fun h => by cases h) hd₁).mirrors
  obtain ⟨_, d, hclear, -⟩ := (deleteAllFunc_ends hmem (fun _ => none)
    (hd₂'.attach {}).backed).exists_ok fun _ _ hfailed => not_fails rfl hfailed
  have hstep' : SafeCall plainFrame d₂ d := ⟨{}, .deleteAll, hempty, hclear⟩
  have hrun := (Relation.ReflTransGen.single hstep).tail hstep'
  refine ⟨d₁, d, hrun, ?_, ?_⟩
  · rw [hd₁.fileListFunc_eq.1]
    intro hnil
    rw [List.map_eq_nil_iff, List.filter_eq_nil_iff] at hnil
    have hin : 0 ∈ List.range maxNoFiles := List.mem_range.mpr (by decide)
    have hfirst := (hd₁.stored (by decide : 0 < maxNoFiles)).mp hname
    exact hnil 0 hin (decide_eq_true hfirst)
  · exact (filenames_follow_table hmem (fun h => by cases h) (connectedDriver_opened oneListed)
      oneListed_valid.toListed.placed hinit hrun).1

/-- All pictures are deleted, but the name of the only one is still listed. -/
theorem deleteAll_keeps_names : ∃ d₁ d₂, plainFrame.ValidTable oneListed ∧
    plainFrame.openFilenames none (({} : Device).attach (connectedDriver oneListed)) =
      some (.ok (), d₁) ∧
    FileCall.run plainFrame {} .deleteAll d₁ = some (.ok (), d₂) ∧
    d₂.filenames 0 ≠ [] ∧ ¬ Frame.Present d₂.camera.store 0 ∧
    getFileIdx d₂.filenames rootFolder (d₂.filenames 0) = .ok 0 := by
  obtain ⟨d₁, hinit, hd₁, hnames⟩ := oneListed_opens
  have hname : d₁.filenames 0 ≠ [] := (hnames 0 (by decide)).mpr rfl
  obtain ⟨_, d₂, hclear, hcontents, -, hsame, hcommitted⟩ :=
    (deleteAllFunc_ends (by decide : plainFrame.memSize ≤ 2097152) (fun _ => none)
      (hd₁.attach {}).backed).exists_ok fun _ _ hfailed => not_fails rfl hfailed
  have hsame' : d₂.filenames = d₁.filenames := hsame
  refine ⟨d₁, d₂, oneListed_valid, hinit, hclear, ?_, ?_, ?_⟩
  · rw [hsame']
    exact hname
  · have hbyte := hcommitted (fileOffset 0) (by decide)
    rw [Frame.Present, hbyte, hcontents]
    exact not_present_cleared (by decide)
  · rw [hsame']
    exact hd₁.getFileIdx_eq (by decide) hname

end GPhoto2.St2205
