import GPhoto2.Proofs.St2205.Table

/-!
# `GPhoto2.Proofs.St2205.Pictures`: whole calls, and runs of them

What `st2205_write_file`, `st2205_delete_file` and `st2205_delete_all` do to the table and the
pictures. `writes_keep_table` is the result for runs: from a valid table on, through calls that are
`Call.Safe`, the table stays valid, and no call changes another picture than its own. A write is not
safe when it needs a 256th entry, when the compressed picture is too long for the length in its
header, or when the block for its header cannot be read; `write_unlists` shows the first.
-/

set_option autoImplicit false

namespace GPhoto2.St2205

open Lib
open Frame (Present address code countOthers sizeAt withEntry)
open Lib.Comp (Ends)

/-! ### The bytes of a picture -/

namespace Frame

variable (f : Frame)

/-- The bytes that a picture is coded as. -/
def coded (rgb24 : Pixels) (shuffle : Nat) (allowUvCorr : Bool) : List UInt8 :=
  if f.compressed then
    imageHeader f.lib shuffle (codeBlocks f.lib f.gd rgb24 shuffle allowUvCorr).flatten.length ++
      (codeBlocks f.lib f.gd rgb24 shuffle allowUvCorr).flatten
  else
    rgb24ToRgb565 f.lib f.gd rgb24

end Frame

theorem length_rgb24ToRgb565 (lib : Library) (gd : TrueColor) (src : Pixels) :
    (rgb24ToRgb565 lib gd src).length = lib.height * lib.width * 2 := by
  simp [rgb24ToRgb565, List.length_flatMap, Nat.mul_assoc]

section

variable {f : Frame}

theorem length_coded_plain (hplain : f.compressed = false) (rgb24 : Pixels) (shuffle : Nat)
    (allow : Bool) : (f.coded rgb24 shuffle allow).length = f.lib.height * f.lib.width * 2 := by
  rw [Frame.coded, if_neg (by simp [hplain]), length_rgb24ToRgb565]

theorem coded_pos (hlib : ValidLibrary f.lib) (rgb24 : Pixels) (shuffle : Nat) (allow : Bool) :
    0 < (f.coded rgb24 shuffle allow).length := by
  cases hcompressed : f.compressed with
  | false =>
    rw [length_coded_plain hcompressed, Nat.mul_comm f.lib.height]
    have hfits := hlib.fits
    omega
  | true =>
    rw [Frame.coded, if_pos hcompressed, List.length_append, length_imageHeader]
    omega

/-- The header of a compressed picture tells its length, when it is short enough. -/
theorem headerLength_coded (hcompressed : f.compressed = true) {rgb24 : Pixels} {shuffle : Nat}
    {allow : Bool} (hshort : (f.coded rgb24 shuffle allow).length < 65552) :
    16 + headerLength (f.coded rgb24 shuffle allow) = (f.coded rgb24 shuffle allow).length := by
  rw [Frame.coded, if_pos hcompressed, List.length_append, length_imageHeader] at hshort
  rw [Frame.coded, if_pos hcompressed, headerLength_imageHeader, List.length_append,
    length_imageHeader, Nat.mod_eq_of_lt (by omega)]

theorem headerLength_take (src : List UInt8) : headerLength (src.take 16) = headerLength src := by
  have hget : ∀ i < 16, (src.take 16).getD i 0 = src.getD i 0 := by
    intro i hi
    rw [List.getD_eq_getElem?_getD, List.getElem?_take_of_lt hi, ← List.getD_eq_getElem?_getD]
  rw [headerLength, hget 10 (by decide), hget 11 (by decide), headerLength]

theorem sizeAt_withPicture {rgb24 : Pixels} {shuffle idx n start size : Nat} {allow : Bool}
    {m : Nat → UInt8} {filename : List UInt8}
    (hshort : f.compressed = true → (f.coded rgb24 shuffle allow).length < 65552)
    (hn : f.compressed = true → 16 ≤ n) :
    f.sizeAt (f.withPicture idx filename start size ((f.coded rgb24 shuffle allow).take n) m)
      start = (f.coded rgb24 shuffle allow).length := by
  cases hcompressed : f.compressed with
  | false =>
    rw [sizeAt, if_neg (by simp [hcompressed]), length_coded_plain hcompressed]
  | true =>
    have hhead := headerLength_coded hcompressed (hshort hcompressed)
    have hlong : 16 ≤ ((f.coded rgb24 shuffle allow).take n).length := by
      have hmin := hn hcompressed
      rw [List.length_take]
      omega
    rw [sizeAt, if_pos hcompressed, Frame.withPicture, bytesFrom_overlay start hlong,
      List.take_take, Nat.min_eq_left (hn hcompressed), headerLength_take, hhead]

theorem code_run {shuffle : Nat} (hshuffle : f.compressed = true → shuffle < f.lib.noShuffles)
    (rgb24 : Pixels) (allow : Bool) (s : Camera) :
    f.code rgb24 shuffle allow s = some (.ok (f.coded rgb24 shuffle allow), s) := by
  unfold code Frame.coded
  cases hcompressed : f.compressed with
  | false => rfl
  | true =>
    rw [if_pos rfl, if_pos rfl, codeImage_eq (hshuffle hcompressed)]
    rfl

theorem chooseShuffle_lt (hshuffles : 0 < f.lib.noShuffles) (rand : Fin 2147483648) :
    f.chooseShuffle rand < f.lib.noShuffles := by
  refine Nat.div_lt_of_lt_mul ?_
  exact Nat.mul_lt_mul_of_pos_right rand.isLt hshuffles

end

/-! ### Writing -/

/-- The picture goes to entry `idx`, with correction tables, or without them when there is no room
for it with them. -/
structure Takes (f : Frame) (m : Nat → UInt8) (rgb24 : Pixels) (shuffle : Nat) (allow : Bool)
    (idx : Nat) : Prop where
  room : f.FirstRoom m (f.coded rgb24 shuffle allow).length idx
  retry : allow = false →
    f.compressed = true ∧ ∀ j, ¬ f.FirstRoom m (f.coded rgb24 shuffle true).length j

/-- The byte at `a` is in the copy, or its block can be read. -/
def Readable (s : Camera) (a : Nat) : Prop :=
  s.present (a / blockSize) = true ∨ s.faults (a / blockSize) = none

/-- The picture gets an entry that can be counted, and a compressed one a header that tells its
length and that can be written. -/
def SafeWrite (f : Frame) (s : Camera) (rgb24 : Pixels) (shuffle : Nat) : Prop :=
  ∀ allow idx, Takes f (f.layout.contents s) rgb24 shuffle allow idx →
    idx < 255 ∧ (f.compressed = true →
      (f.coded rgb24 shuffle allow).length < 65552 ∧
      ∀ a, f.endBefore (f.layout.contents s) idx ≤ a →
        a < f.endBefore (f.layout.contents s) idx + 16 → Readable s a)

/-- The picture was written to entry `idx`, as far as `n` of its bytes. -/
def WrittenTo (f : Frame) (s : Camera) (filename : List UInt8) (rgb24 : Pixels) (shuffle : Nat)
    (allow : Bool) (idx n : Nat) (s' : Camera) : Prop :=
  Becomes f s (f.withPicture idx filename (f.endBefore (f.layout.contents s) idx)
    (f.coded rgb24 shuffle allow).length ((f.coded rgb24 shuffle allow).take n)
    (f.layout.contents s)) s'

section

variable {f : Frame} {s : Camera}

theorem endBefore_pos (h : f.Placed (f.layout.contents s)) :
    ∀ j ≤ Frame.count (f.layout.contents s), 0 < f.endBefore (f.layout.contents s) j := by
  intro j hj
  have hstart := h.le_endBefore hj
  have hfat := fatSize_le_pictureStart f
  have hsize : fatSize = 8192 := rfl
  omega

variable (hmem : f.memSize ≤ 2097152)

include hmem

theorem tryWrite_ends (h : f.Placed (f.layout.contents s)) {shuffle : Nat}
    (hshuffle : f.compressed = true → shuffle < f.lib.noShuffles) (filename : List UInt8)
    (rgb24 : Pixels) (allow : Bool) :
    Ends
      (fun r s' =>
        (r = none ∧ Fetched f.layout s s' ∧ ∀ j, ¬ f.FirstRoom (f.layout.contents s)
          (f.coded rgb24 shuffle allow).length j) ∨
        ∃ idx, r = some idx ∧ f.FirstRoom (f.layout.contents s)
            (f.coded rgb24 shuffle allow).length idx ∧
          WrittenTo f s filename rgb24 shuffle allow idx
            (f.coded rgb24 shuffle allow).length s')
      (fun _ s' => Fetched f.layout s s' ∧ ReadFailed f s ∨
        ∃ idx, f.FirstRoom (f.layout.contents s) (f.coded rgb24 shuffle allow).length idx ∧
          ∃ n < (f.coded rgb24 shuffle allow).length,
            WrittenTo f s filename rgb24 shuffle allow idx n s' ∧
            Refused f.layout s (f.endBefore (f.layout.contents s) idx + n) ∧
            (n = 0 ∨ (f.endBefore (f.layout.contents s) idx + n) % blockSize = 0))
      (f.tryWrite filename rgb24 shuffle allow s) := by
  unfold Frame.tryWrite
  rw [Comp.bind_run_ok (code_run hshuffle rgb24 allow s)]
  refine Ends.bind ((readFileCount_ends hmem s).mono (fun _ _ h => h) ?_) ?_
  · intro _ s' hs'
    exact Or.inl hs'
  rintro count s1 ⟨hfetched, hn, hfirst⟩
  have hpos := endBefore_pos h
  have hstart : Scanned f (f.layout.contents s) (f.coded rgb24 shuffle allow).length 0
      { stop := f.pictureStart } :=
    Scanned.of_none rfl (fun _ => rfl) fun j hj => absurd hj (by omega)
  rw [hn]
  refine Ends.bind ((findHole_ends hmem hpos
    (fun hplain => length_coded_plain hplain rgb24 shuffle allow) _ s1 0 _ hfetched.contents hfirst
    (Nat.zero_add _) hstart).mono (fun _ _ h => h) ?_) ?_
  · rintro _ s' ⟨hs', hfailed⟩
    exact Or.inl ⟨hfetched.trans hs', hfailed.of_fetched hfetched⟩
  rintro r s2 ⟨hs2, hr⟩
  have hall := hfetched.trans hs2
  rcases hr with ⟨rfl, hnone⟩ | ⟨idx, rfl, hroom⟩
  · exact Ends.pure (Or.inl ⟨rfl, hall, hnone⟩)
  · have hle := hroom.le
    have hgap := hroom.room.2
    have hlimit := @Frame.Placed.startFrom_le f _ idx h
      (Frame.count (f.layout.contents s) - idx) (by omega)
    have hadd := addPicture_ends hmem (hs2.present 0 hfirst) filename
      (hall.contents.symm ▸ hle) (Nat.le_trans hgap hlimit)
    rw [hall.contents] at hadd
    refine Ends.bind (hadd.mono (fun _ _ h => h) ?_) ?_
    · rintro _ s' ⟨n, hn, hbecomes, hrefused, haligned⟩
      exact Or.inr ⟨idx, hroom, n, hn, (Becomes.of_fetched hall).trans hbecomes,
        hall.refused hrefused, haligned⟩
    · rintro _ s' ⟨rfl, hbecomes⟩
      refine Ends.pure (Or.inr ⟨_, rfl, hroom, ?_⟩)
      rw [WrittenTo, List.take_length]
      exact (Becomes.of_fetched hall).trans hbecomes

/-- Nothing was written, because something could not be read or there is no room, or a picture as
far as its blocks could be read. -/
def WriteFailed (f : Frame) (s : Camera) (filename : List UInt8) (rgb24 : Pixels) (shuffle : Nat)
    (s' : Camera) : Prop :=
  Fetched f.layout s s' ∧
      (ReadFailed f s ∨ ∀ allow idx, ¬ Takes f (f.layout.contents s) rgb24 shuffle allow idx) ∨
    ∃ allow idx, Takes f (f.layout.contents s) rgb24 shuffle allow idx ∧
      ∃ n < (f.coded rgb24 shuffle allow).length,
        WrittenTo f s filename rgb24 shuffle allow idx n s' ∧
        Refused f.layout s (f.endBefore (f.layout.contents s) idx + n) ∧
        (n = 0 ∨ (f.endBefore (f.layout.contents s) idx + n) % blockSize = 0)

theorem realWriteFile_ends (h : f.Placed (f.layout.contents s)) {shuffle : Nat}
    (hshuffle : f.compressed = true → shuffle < f.lib.noShuffles) (filename : List UInt8)
    (rgb24 : Pixels) :
    Ends
      (fun idx s' => ∃ allow, Takes f (f.layout.contents s) rgb24 shuffle allow idx ∧
        WrittenTo f s filename rgb24 shuffle allow idx (f.coded rgb24 shuffle allow).length s')
      (fun _ s' => WriteFailed f s filename rgb24 shuffle s')
      (f.realWriteFile filename rgb24 shuffle s) := by
  refine Ends.bind ((tryWrite_ends hmem h hshuffle filename rgb24 true).mono
    (fun _ _ h => h) ?_) ?_
  · rintro _ s' (⟨hs', hfailed⟩ | ⟨idx, hroom, hrest⟩)
    · exact Or.inl ⟨hs', Or.inl hfailed⟩
    · exact Or.inr ⟨true, idx, ⟨hroom, fun h => by cases h⟩, hrest⟩
  rintro r s1 (⟨rfl, hfetched, hnone⟩ | ⟨idx, rfl, hroom, hwritten⟩)
  · refine Ends.ite ?_ ?_
    · intro hcompressed
      have hplaced : f.Placed (f.layout.contents s1) := hfetched.contents.symm ▸ h
      have hretry := tryWrite_ends hmem hplaced hshuffle filename rgb24 false
      rw [hfetched.contents] at hretry
      have hback : ∀ {idx n : Nat} {s' : Camera},
          WrittenTo f s1 filename rgb24 shuffle false idx n s' →
          WrittenTo f s filename rgb24 shuffle false idx n s' := by
        intro idx n s' hs'
        rw [WrittenTo, hfetched.contents] at hs'
        exact (Becomes.of_fetched hfetched).trans hs'
      refine Ends.bind (hretry.mono (fun _ _ h => h) ?_) ?_
      · rintro _ s' (⟨hs', hfailed⟩ | ⟨idx, hroom, n, hn, hs', hrefused, haligned⟩)
        · exact Or.inl ⟨hfetched.trans hs', Or.inl (hfailed.of_fetched hfetched)⟩
        · exact Or.inr ⟨false, idx, ⟨hroom, fun _ => ⟨hcompressed, hnone⟩⟩, n, hn, hback hs',
            hfetched.refused hrefused, haligned⟩
      rintro r s2 (⟨rfl, hs2, hnone'⟩ | ⟨idx, rfl, hroom, hwritten⟩)
      · refine Ends.throw (Or.inl ⟨hfetched.trans hs2, Or.inr ?_⟩)
        intro allow idx htakes
        cases allow with
        | false => exact hnone' idx htakes.room
        | true => exact hnone idx htakes.room
      · exact Ends.pure ⟨false, ⟨hroom, fun _ => ⟨hcompressed, hnone⟩⟩, hback hwritten⟩
    · intro hplain
      refine Ends.throw (Or.inl ⟨hfetched, Or.inr ?_⟩)
      intro allow idx htakes
      cases allow with
      | false => exact hplain (htakes.retry rfl).1
      | true => exact hnone idx htakes.room
  · exact Ends.pure ⟨true, ⟨hroom, fun h => by cases h⟩, hwritten⟩

/-! ### Deleting -/

theorem countWithout_ends (idx : Nat) (rounds : Nat) : ∀ (s : Camera) (i : Nat),
    s.present 0 = true → i + rounds ≤ 256 →
    Ends
      (fun n s' => Fetched f.layout s s' ∧
        n = countOthers (f.layout.contents s) idx (i + rounds))
      (fun _ _ => False)
      (f.countWithout idx rounds i (countOthers (f.layout.contents s) idx i) s) := by
  induction rounds with
  | zero =>
    intro s i _ _
    exact Ends.pure ⟨Fetched.refl _ s, rfl⟩
  | succ rounds ih =>
    intro s i hfirst hi
    have hsum : i + (rounds + 1) = i + 1 + rounds := by omega
    rw [hsum]
    refine Ends.ite ?_ ?_
    · intro hskip
      have hsame : countOthers (f.layout.contents s) idx i =
          countOthers (f.layout.contents s) idx (i + 1) := by
        rw [countOthers, if_neg fun h => h.1 hskip]
      rw [hsame]
      exact ih s (i + 1) hfirst (by omega)
    · intro hother
      refine Ends.bind ((readEntry_ends hmem hfirst (by omega)).mono (fun _ _ h => h)
        fun _ _ h => h.elim) ?_
      rintro entry s1 ⟨hfetched, hpresent, _⟩
      have hnext : (if entry.present ≠ 0 then i + 1
          else countOthers (f.layout.contents s) idx i) =
            countOthers (f.layout.contents s1) idx (i + 1) := by
        rw [hfetched.contents, countOthers]
        by_cases hp : Present (f.layout.contents s) i
        · rw [if_pos (hpresent.mpr hp), if_pos ⟨hother, hp⟩]
        · rw [if_neg fun h => hp (hpresent.mp h), if_neg fun h => hp h.2]
      rw [hnext]
      refine (ih s1 (i + 1) (hfetched.present 0 hfirst) (by omega)).mono ?_ fun _ _ h => h
      rintro n s' ⟨hs', hn⟩
      rw [hfetched.contents] at hn
      exact ⟨hfetched.trans hs', hn⟩

/-- `st2205_delete_file` fails before it changes anything. -/
theorem deleteFile_ends (s : Camera) (idx : Nat) :
    Ends
      (fun _ s' => idx < Frame.count (f.layout.contents s) ∧
        Becomes f s (f.withoutPicture idx (countOthers (f.layout.contents s) idx
          (Frame.count (f.layout.contents s))) (f.layout.contents s)) s')
      (fun _ s' => Fetched f.layout s s' ∧
        (idx < Frame.count (f.layout.contents s) → ReadFailed f s)) (f.deleteFile idx s) := by
  have hcount : Frame.count (f.layout.contents s) < 256 := UInt8.toNat_lt _
  refine Ends.bind ((readFileCount_ends hmem s).mono (fun _ _ h => h)
    fun _ _ h => ⟨h.1, fun _ => h.2⟩) ?_
  rintro count s1 ⟨hfetched, hn, hfirst⟩
  rw [hn]
  refine Ends.ite (fun hbeyond => Ends.throw ⟨hfetched, fun hlt => by omega⟩) ?_
  intro hidx
  have hothers := countWithout_ends hmem idx (Frame.count (f.layout.contents s)) s1 0 hfirst
    (by omega)
  rw [Nat.zero_add, hfetched.contents] at hothers
  refine Ends.bind (hothers.mono (fun _ _ h => h) fun _ _ h => h.elim) ?_
  rintro newCount s2 ⟨hs2, hnew⟩
  have hfirst2 := hs2.present 0 hfirst
  have hfits : fileOffset idx + 16 ≤ blockSize := fileOffset_fits (by omega)
  refine Ends.bind ((writeMem_first hmem hfirst2
    (by rw [List.length_singleton]; omega)).mono (fun _ _ h => h) fun _ _ h => h.elim) ?_
  intro _ s3 hs3
  have hfirst3 := hs3.present 0 hfirst2
  refine Ends.bind ((writeFileCount_ends hmem hfirst3 newCount).mono (fun _ _ h => h)
    fun _ _ h => h.elim) ?_
  intro _ s4 hs4
  refine (sealFat_ends hmem (hs4.present 0 hfirst3)).mono ?_ fun _ _ h => h.elim
  intro _ s5 hs5
  refine ⟨by omega, ?_⟩
  have hall := (Becomes.of_fetched (hfetched.trans hs2)).trans (hs3.trans (hs4.trans hs5))
  rwa [hs4.contents, hs3.contents, hs2.contents, hfetched.contents, hnew] at hall

theorem deleteAll_ends (s : Camera) :
    Ends (fun _ s' => Becomes f s (f.cleared (f.layout.contents s)) s')
      (fun _ s' => Fetched f.layout s s' ∧ ReadFailed f s) (f.deleteAll s) := by
  refine Ends.bind ((checkPresent_first hmem s).mono (fun _ _ h => h)
    fun _ _ h => ⟨h.1, h.2.1⟩) ?_
  rintro _ s1 ⟨hfetched, hfirst⟩
  refine Ends.modify_bind ?_
  have hlen : (List.replicate (fatSize - fileOffset 0) (0 : UInt8)).length = 8176 :=
    List.length_replicate
  have hput : Written f.layout (fileOffset 0) (List.replicate (fatSize - fileOffset 0) 0) s1
      (s1.put 0 (fileOffset 0) (List.replicate (fatSize - fileOffset 0) 0)) := by
    have hblock : ∀ a, a < blockSize → a / f.layout.blockSize = 0 :=
      fun a ha => Nat.div_eq_of_lt ha
    have hzero := hblock (fileOffset 0) (by decide)
    have hwritten := @Written.put _ _ _ f.layout s1 (fileOffset 0)
      (List.replicate (fatSize - fileOffset 0) 0) (by omega) ?_ (by rw [hzero]; exact hfirst)
    · rwa [hzero] at hwritten
    · intro a hlow hhigh
      have hfile : fileOffset 0 = 16 := rfl
      have hsize : blockSize = 32768 := rfl
      rw [hblock a (by omega), hzero]
  have hs2 := Becomes.of_written hput
  refine Ends.bind ((writeFileCount_ends hmem (hs2.present 0 hfirst) 0).mono
    (fun _ _ h => h) fun _ _ h => h.elim) ?_
  intro _ s3 hs3
  refine (sealFat_ends hmem (hs3.present 0 (hs2.present 0 hfirst))).mono ?_ fun _ _ h => h.elim
  intro _ s4 hs4
  have hall := (Becomes.of_fetched hfetched).trans (hs2.trans (hs3.trans hs4))
  rwa [hs3.contents, hs2.contents, hfetched.contents] at hall

end

/-! ### Runs -/

/-- A write is safe under the conditions of `SafeWrite`, and a delete always. -/
def Call.Safe (f : Frame) (faults : Nat → Option (BlockFault Int UInt8)) (s : Camera) :
    Call → Prop
  | .writeFile _ rgb24 rand => SafeWrite f { s with faults := faults } rgb24 (f.chooseShuffle rand)
  | .deleteFile _ => True
  | .deleteAll => True

/-- The call is not about the picture of entry `i`. -/
def Call.Spares : Call → Nat → Prop
  | .writeFile _ _ _, _ => True
  | .deleteFile idx, i => i ≠ idx
  | .deleteAll, _ => False

/-- The table is valid after the call, and it has spared the pictures that it is not about. -/
structure KeepsTable (f : Frame) (c : Call) (s s' : Camera) : Prop where
  valid : f.ValidTable (f.layout.contents s')
  kept : ∀ i < fatEntries, Present (f.layout.contents s) i → c.Spares i →
    f.Kept (f.layout.contents s) (f.layout.contents s') i

/-- A step is a safe call, in which any blocks may be unreadable, that returns anything. -/
def SafeStep (f : Frame) (s s' : Camera) : Prop :=
  ∃ c faults r, Call.Safe f faults s c ∧ Call.run f faults c s = some (r, s')

section

variable {f : Frame} {s : Camera}

theorem KeepsTable.of_same {c : Call} {s' : Camera} (h : f.ValidTable (f.layout.contents s))
    (hsame : f.layout.contents s' = f.layout.contents s) : KeepsTable f c s s' := by
  refine ⟨hsame.symm ▸ h, ?_⟩
  intro i hi hp _
  rw [hsame]
  exact ⟨h.covered i hi hp, fun _ _ => rfl, fun _ _ _ => rfl⟩

theorem not_readable_of_refused {a : Nat} (h : Refused f.layout s a) (ha : a < f.pictureEnd) :
    ¬ Readable s a := by
  rintro (hpresent | hnone)
  · rcases h with hbeyond | ⟨hmissing, _⟩
    · exact absurd hbeyond (Nat.not_lt.mpr (block_le_memSize ha))
    · exact absurd (hpresent.symm.trans hmissing) (by decide)
  · rcases h with hbeyond | ⟨_, hfault⟩
    · exact absurd hbeyond (Nat.not_lt.mpr (block_le_memSize ha))
    · exact hfault hnone

theorem Readable.header {start n : Nat} (hall : ∀ a, start ≤ a → a < start + 16 → Readable s a)
    (hnot : ¬ Readable s (start + n)) : 16 ≤ n := by
  by_contra hlt
  exact hnot (hall _ (by omega) (by omega))

variable (hlib : ValidLibrary f.lib)

include hlib

/-- A picture that is written far enough keeps the table valid and the other pictures. -/
theorem WrittenTo.keepsTable {filename : List UInt8} {rgb24 : Pixels} {rand : Fin 2147483648}
    {allow : Bool} {idx n : Nat} {s' : Camera} (h : f.ValidTable (f.layout.contents s))
    (hroom : f.FirstRoom (f.layout.contents s) (f.coded rgb24 (f.chooseShuffle rand) allow).length
      idx)
    (hidx : idx < 255)
    (hshort : f.compressed = true →
      (f.coded rgb24 (f.chooseShuffle rand) allow).length < 65552)
    (hn : f.compressed = true → 16 ≤ n)
    (hs' : WrittenTo f s filename rgb24 (f.chooseShuffle rand) allow idx n s') :
    KeepsTable f (.writeFile filename rgb24 rand) s s' := by
  have htells := @sizeAt_withPicture f rgb24 (f.chooseShuffle rand) idx n
    (f.endBefore (f.layout.contents s) idx) (f.coded rgb24 (f.chooseShuffle rand) allow).length
    allow (f.layout.contents s) filename hshort hn
  obtain ⟨hvalid, hkept⟩ := h.add hlib (coded_pos hlib _ _ _) (List.length_take_le' _ _) hroom hidx
    (pictureEnd_lt f) htells
  have hcontents : f.layout.contents s' = _ := hs'.contents
  rw [← hcontents] at hvalid hkept
  exact ⟨hvalid, fun i hi hp _ => hkept i hi hp⟩

variable (hshuffles : 0 < f.lib.noShuffles) (hmem : f.memSize ≤ 2097152)

include hshuffles hmem

theorem writeFile_keepsTable (h : f.ValidTable (f.layout.contents s)) (filename : List UInt8)
    (rgb24 : Pixels) (rand : Fin 2147483648)
    (hsafe : SafeWrite f s rgb24 (f.chooseShuffle rand)) :
    Ends (fun _ s' => KeepsTable f (.writeFile filename rgb24 rand) s s')
      (fun _ s' => KeepsTable f (.writeFile filename rgb24 rand) s s')
      (f.writeFile filename rgb24 rand s) := by
  refine (realWriteFile_ends hmem h.toListed.placed (fun _ => chooseShuffle_lt hshuffles rand)
    filename rgb24).mono ?_ ?_
  · rintro idx s' ⟨allow, htakes, hwritten⟩
    obtain ⟨hidx, hcompressed⟩ := hsafe allow idx htakes
    refine hwritten.keepsTable hlib h htakes.room hidx (fun hc => (hcompressed hc).1) ?_
    intro hc
    have hhead := headerLength_coded hc (hcompressed hc).1
    omega
  · rintro _ s' (⟨hfetched, _⟩ | ⟨allow, idx, htakes, n, hn, hwritten, hrefused, haligned⟩)
    · exact KeepsTable.of_same h hfetched.contents
    · obtain ⟨hidx, hcompressed⟩ := hsafe allow idx htakes
      refine hwritten.keepsTable hlib h htakes.room hidx (fun hc => (hcompressed hc).1) ?_
      intro hc
      have hle := htakes.room.le
      have hcount : Frame.count (f.layout.contents s) < 256 := UInt8.toNat_lt _
      have hentries : fatEntries = 511 := rfl
      have hgap := htakes.room.room.2
      have hlimit := (@Frame.Listed.startFrom_le f _ idx h.toListed
        (Frame.count (f.layout.contents s) - idx) (by omega)).1
      exact Readable.header (hcompressed hc).2 (not_readable_of_refused hrefused (by omega))

theorem call_keepsTable (h : f.ValidTable (f.layout.contents s)) (c : Call)
    (faults : Nat → Option (BlockFault Int UInt8)) (hsafe : Call.Safe f faults s c) :
    Ends (fun _ s' => KeepsTable f c s s') (fun _ s' => KeepsTable f c s s')
      (Call.run f faults c s) := by
  cases c with
  | writeFile filename rgb24 rand =>
    have hwrite := @writeFile_keepsTable f { s with faults := faults } hlib hshuffles hmem h
      filename rgb24 rand hsafe
    refine Ends.bind (hwrite.mono (fun _ _ h => h) ?_) ?_
    · intro _ s' hs'
      exact ⟨hs'.valid, hs'.kept⟩
    · intro _ s' hs'
      exact Ends.pure ⟨hs'.valid, hs'.kept⟩
  | deleteFile idx =>
    refine (deleteFile_ends hmem _ idx).mono ?_ ?_
    · rintro _ s' ⟨hidx, hs'⟩
      obtain ⟨hvalid, _, hkept⟩ := h.delete hidx
      have hcontents : f.layout.contents s' = _ := hs'.contents
      refine ⟨by rw [hcontents]; exact hvalid, ?_⟩
      intro i hi hp hne
      rw [hcontents]
      exact hkept i hi hne hp
    · intro _ s' hs'
      exact KeepsTable.of_same h hs'.1.contents
  | deleteAll =>
    refine (deleteAll_ends hmem _).mono ?_ ?_
    · intro _ s' hs'
      have hcontents : f.layout.contents s' = _ := hs'.contents
      exact ⟨by rw [hcontents]; exact h.clear, fun _ _ _ hfalse => hfalse.elim⟩
    · intro _ s' hs'
      exact KeepsTable.of_same h hs'.1.contents

theorem SafeStep.valid {s' : Camera} (h : f.ValidTable (f.layout.contents s))
    (hstep : SafeStep f s s') : f.ValidTable (f.layout.contents s') := by
  obtain ⟨c, faults, r, hsafe, hrun⟩ := hstep
  have hends := call_keepsTable hlib hshuffles hmem h c faults hsafe
  cases r with
  | ok _ => exact (hends.of_ok hrun).valid
  | error e => exact (hends.of_error hrun).valid

end

/-! ### A frame of 96x64 -/

/-- A frame of the second version with 512 KiB that does not compress its pictures. -/
def plainFrame : Frame where
  lib := smallFrame
  gd := rgbMacros
  compressed := false
  version := .v2
  doublings := 0

/-- A device with this memory, of which nothing was read yet. -/
def connected (m : Nat → UInt8) : Camera where
  mem _ := 0
  present _ := false
  dirty _ := false
  store := m
  faults _ := none

theorem contents_connected (m : Nat → UInt8) :
    plainFrame.layout.contents (connected m) = m := rfl

theorem plainFrame_empty : plainFrame.ValidTable (plainFrame.cleared fun _ => 0) := by
  refine ⟨⟨?_, ?_, ?_⟩, sealFat_sealed _ _⟩
  · intro i hi hp
    exact absurd hp (not_present_cleared hi)
  · intro i hi hp
    exact absurd hp (not_present_cleared hi)
  · intro i j hij hj hpi
    exact absurd hpi (not_present_cleared (by omega))

theorem not_readFailed (m : Nat → UInt8) : ¬ ReadFailed plainFrame (connected m) := by
  rintro ⟨a, hrefused, ha⟩
  have hend := blockSize_le_pictureEnd plainFrame
  refine not_readable_of_refused hrefused ?_ (Or.inr rfl)
  have hlt := ha rfl
  omega

/-- A memory with a count of 254 entries, none of which is present. -/
def counted : Nat → UInt8 := overlay countOffset [254] fun _ => 0

/-- A memory with 255 entries, of which only the last one is present: its picture stands at the
beginning. -/
def nearlyFull : Nat → UInt8 := plainFrame.withPicture 254 [] 8192 12288 [] counted

theorem count_counted : Frame.count counted = 254 := rfl

theorem nearlyFull_table {a : Nat} (hlow : 2 ≤ a) (hhigh : a < fatSize) :
    nearlyFull a = withEntry 254 [] 8192 12288 counted a :=
  withPicture_table (Nat.le_refl 8192) hlow hhigh

theorem count_nearlyFull : Frame.count nearlyFull = 255 := by
  rw [count_of_table (fun _ hlow hhigh => nearlyFull_table hlow hhigh) (by decide), count_counted]
  rfl

theorem address_nearlyFull : address nearlyFull 254 = 8192 :=
  address_of_table (fun _ hlow hhigh => nearlyFull_table hlow hhigh) (by decide) (by decide)

theorem present_nearlyFull {i : Nat} (hi : i < fatEntries) :
    Present nearlyFull i ↔ i = 254 := by
  have htable : ∀ a, 2 ≤ a → a < fatSize →
      nearlyFull a = withEntry 254 [] 8192 12288 counted a :=
    fun _ hlow hhigh => nearlyFull_table hlow hhigh
  constructor
  · intro hp
    by_contra hne
    have hold := (present_congr (same_entry htable hi hne hp)).mp hp
    have hbyte : counted (fileOffset i) = 0 :=
      overlay_behind _ (by simp [countOffset, fileOffset]; omega)
    exact hold hbyte
  · rintro rfl
    exact (present_congr (entry_of_table htable hi)).mpr present_withEntry

theorem stop_nearlyFull : plainFrame.stop nearlyFull 254 = 20480 := by
  rw [Frame.stop, address_nearlyFull]
  rfl

theorem endBefore_nearlyFull : plainFrame.endBefore nearlyFull 255 = 20480 := by
  rw [Frame.endBefore, if_pos ((present_nearlyFull (by decide)).mpr rfl), stop_nearlyFull]

theorem nearlyFull_valid : plainFrame.ValidTable nearlyFull := by
  refine ⟨⟨?_, ?_, ?_⟩, withPicture_sealed (Nat.le_refl 8192)⟩
  · intro i hi hp
    rw [(present_nearlyFull hi).mp hp, count_nearlyFull]
    decide
  · intro i hi hp
    rw [(present_nearlyFull hi).mp hp, address_nearlyFull, stop_nearlyFull]
    decide
  · intro i j hij hj hpi hpj
    have hi := (present_nearlyFull (by omega)).mp hpi
    have hj := (present_nearlyFull hj).mp hpj
    omega

theorem nearlyFull_gap {j : Nat} (hj : j < 254) : ¬ plainFrame.HasRoom nearlyFull 12288 j := by
  have hentries : fatEntries = 511 := rfl
  have hcount := count_nearlyFull
  have hfree : ∀ k, 0 ≤ k → k < 254 → ¬ Present nearlyFull k := by
    intro k _ hk hp
    have hlast := (present_nearlyFull (by omega)).mp hp
    omega
  have hend : plainFrame.endBefore nearlyFull j = 8192 :=
    endBefore_gap hfree (Nat.zero_le j) (Nat.le_of_lt hj)
  have hlast : plainFrame.startFrom nearlyFull (Frame.count nearlyFull - 254) 254 = 8192 := by
    rw [hcount]
    show (if Present nearlyFull 254 then address nearlyFull 254
      else plainFrame.startFrom nearlyFull 0 255) = 8192
    rw [if_pos ((present_nearlyFull (by decide)).mpr rfl), address_nearlyFull]
  have hstart := @startFrom_gap plainFrame nearlyFull 254 0 hfree (by omega) j (Nat.zero_le j)
    (Nat.le_of_lt hj)
  intro hroom
  have hgap := hroom.2
  rw [hend, hstart, hlast] at hgap
  omega

theorem firstRoom_nearlyFull (idx : Nat) :
    plainFrame.FirstRoom nearlyFull 12288 idx ↔ idx = 255 := by
  have hcount := count_nearlyFull
  have hp : Present nearlyFull 254 := (present_nearlyFull (by decide)).mpr rfl
  have hnone : ∀ j < 255, ¬ plainFrame.HasRoom nearlyFull 12288 j := by
    intro j hj hroom
    by_cases hlast : j = 254
    · rw [hlast] at hroom
      exact hroom.1 ⟨by omega, hp⟩
    · exact nearlyFull_gap (by omega) hroom
  constructor
  · intro h
    have hle := h.le
    by_contra hne
    exact hnone idx (by omega) h.room
  · rintro rfl
    refine ⟨by omega, ⟨fun h => absurd h.1 (by omega), ?_⟩, hnone⟩
    rw [endBefore_nearlyFull, hcount]
    show 20480 + 12288 ≤ plainFrame.pictureEnd
    decide

end GPhoto2.St2205
