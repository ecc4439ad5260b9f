import GPhoto2.Proofs.St2205.Fat

/-!
# `GPhoto2.Proofs.St2205.Table`: what the functions of the image table do

For each function of `St2205.Table` there is a lemma that says how it ends: what it returns and what
it makes of the contents of the memory (`Becomes`), or that it fails, and what it has changed by
then. Once the first block is in the copy, nothing can fail that concerns the table; the bytes of a
picture can, when a block cannot be read (`addPicture_ends`).
-/

set_option autoImplicit false

namespace GPhoto2.St2205

open Lib
open Frame (pictureEnd withCopies withEntry)
open Lib.Comp (Ends)

/-- What the memory should hold has become `m`, and what has changed is dirty. -/
structure Becomes (f : Frame) (s : Camera) (m : Nat → UInt8) (s' : Camera) : Prop where
  contents : f.layout.contents s' = m
  present : ∀ b, s.present b = true → s'.present b = true
  faults : s'.faults = s.faults
  backed : f.layout.Backed s → f.layout.Backed s'

section

variable {f : Frame} {s s' s'' : Camera} {m m' : Nat → UInt8}

theorem Becomes.of_fetched (h : Fetched f.layout s s') :
    Becomes f s (f.layout.contents s) s' :=
  ⟨h.contents, h.present, h.faults, fun hs => hs.of_fetched h⟩

theorem Becomes.of_written {offset : Nat} {bytes : List UInt8}
    (h : Written f.layout offset bytes s s') :
    Becomes f s (overlay offset bytes (f.layout.contents s)) s' :=
  ⟨h.contents, h.present, h.faults, fun hs => hs.of_written h⟩

theorem Becomes.trans (h : Becomes f s m s') (h' : Becomes f s' m' s'') : Becomes f s m' s'' :=
  ⟨h'.contents, fun b hb => h'.present b (h.present b hb), h'.faults.trans h.faults,
    fun hs => h'.backed (h.backed hs)⟩

theorem Becomes.refused {a : Nat} (h : Becomes f s m s') (hrefused : Refused f.layout s' a) :
    Refused f.layout s a := by
  rcases hrefused with hend | ⟨hmissing, hfault⟩
  · exact Or.inl hend
  · rw [h.faults] at hfault
    refine Or.inr ⟨?_, hfault⟩
    cases hpresent : s.present (a / f.layout.blockSize) with
    | false => rfl
    | true => exact absurd (h.present _ hpresent) (by simp [hmissing])

end

/-- Bytes could not be read: of the table, or of the header of a compressed picture. -/
def ReadFailed (f : Frame) (s : Camera) : Prop :=
  ∃ a, Refused f.layout s a ∧ (f.compressed = false → a < blockSize)

theorem ReadFailed.of_fetched {f : Frame} {s s' : Camera} (hfetched : Fetched f.layout s s')
    (h : ReadFailed f s') : ReadFailed f s := by
  obtain ⟨a, hrefused, ha⟩ := h
  exact ⟨a, hfetched.refused hrefused, ha⟩

/-! ### The memory -/

section

variable {f : Frame} {s : Camera}

theorem memSize_cases (f : Frame) : f.memSize = 524288 ∨ f.memSize = 1048576 ∨
    f.memSize = 2097152 ∨ f.memSize = 4194304 := by
  unfold Frame.memSize
  have hcases : ∀ i : Fin 4, 524288 <<< i.val = 524288 ∨ 524288 <<< i.val = 1048576 ∨
      524288 <<< i.val = 2097152 ∨ 524288 <<< i.val = 4194304 := by decide
  exact hcases f.doublings

theorem firmwareSize_cases (f : Frame) : f.firmwareSize = 65536 ∨ f.firmwareSize = 262144 := by
  unfold Frame.firmwareSize
  cases f.version
  · exact Or.inl rfl
  · exact Or.inr rfl

/-- The table and its copies are far from the end of the memory for pictures. -/
theorem blockSize_le_pictureEnd (f : Frame) : blockSize ≤ f.pictureEnd := by
  unfold blockSize pictureEnd
  have hmem := memSize_cases f
  have hfirmware := firmwareSize_cases f
  omega

theorem pictureEnd_lt (f : Frame) : f.pictureEnd < 4294967296 := by
  unfold pictureEnd
  have hmem := memSize_cases f
  omega

theorem layout_slots (hmem : f.memSize ≤ 2097152) :
    f.layout.memSize < (f.layout.slots + 1) * f.layout.blockSize := by
  have hslots : f.layout.slots * f.layout.blockSize = 2097152 := by
    show 2097152 / blockSize * blockSize = 2097152
    decide
  rw [Nat.add_one_mul, hslots]
  exact Nat.lt_of_le_of_lt hmem (Nat.lt_add_of_pos_right f.layout.blockSize_pos)

theorem fats_le_blockSize {i : Nat} (hi : i < 4) : i * fatSize + fatSize ≤ blockSize := by
  unfold fatSize blockSize
  omega

theorem fileOffset_fits {idx : Nat} (hidx : idx ≤ 256) : fileOffset idx + 16 ≤ blockSize := by
  unfold fileOffset blockSize
  omega

theorem block_le_memSize {a : Nat} (ha : a < f.pictureEnd) :
    (a / blockSize + 1) * blockSize ≤ f.memSize := by
  unfold pictureEnd at ha
  unfold blockSize
  have hmem := memSize_cases f
  omega

theorem not_refused_first (hfirst : s.present 0 = true) {a : Nat} (ha : a < blockSize) :
    ¬ Refused f.layout s a := by
  have hend := blockSize_le_pictureEnd f
  have hdiv : a / f.layout.blockSize = 0 := Nat.div_eq_of_lt ha
  rintro (hbeyond | ⟨hmissing, _⟩)
  · have hle := block_le_memSize (Nat.lt_of_lt_of_le ha hend)
    exact absurd hbeyond (Nat.not_lt.mpr hle)
  · rw [hdiv, hfirst] at hmissing
    cases hmissing

theorem mem_first (hfirst : s.present 0 = true) {a : Nat} (ha : a < blockSize) :
    s.mem a = f.layout.contents s a := by
  refine f.layout.contents_of_present ?_
  have hdiv : a / f.layout.blockSize = 0 := Nat.div_eq_of_lt ha
  rw [hdiv]
  exact hfirst

variable (hmem : f.memSize ≤ 2097152)

include hmem

theorem readMem_ends (s : Camera) (offset len : Nat) :
    Ends
      (fun bytes s' => Fetched f.layout s s' ∧ bytes = bytesFrom (f.layout.contents s) offset len ∧
        ∀ a, offset ≤ a → a < offset + len → s'.present (a / blockSize) = true)
      (fun _ s' => Fetched f.layout s s' ∧
        ∃ a, offset ≤ a ∧ a < offset + len ∧ Refused f.layout s a) (f.readMem offset len s) :=
  f.layout.readMem_ends (layout_slots hmem) s offset len

theorem readMem_first (hfirst : s.present 0 = true) {offset len : Nat}
    (hlen : offset + len ≤ blockSize) :
    Ends
      (fun bytes s' => Fetched f.layout s s' ∧ bytes = bytesFrom (f.layout.contents s) offset len)
      (fun _ _ => False) (f.readMem offset len s) := by
  refine (f.layout.readMem_ends (layout_slots hmem) s offset len).mono ?_ ?_
  · rintro bytes s' ⟨hfetched, hbytes, _⟩
    exact ⟨hfetched, hbytes⟩
  · rintro _ s' ⟨_, a, _, hhigh, hrefused⟩
    exact not_refused_first hfirst (by omega) hrefused

theorem writeMem_first (hfirst : s.present 0 = true) {offset : Nat} {bytes : List UInt8}
    (hlen : offset + bytes.length ≤ blockSize) :
    Ends (fun _ s' => Becomes f s (overlay offset bytes (f.layout.contents s)) s')
      (fun _ _ => False) (f.writeMem offset bytes s) := by
  have hend := blockSize_le_pictureEnd f
  unfold Frame.writeMem
  rw [if_neg (by omega)]
  refine (f.layout.writeMem_ends (layout_slots hmem) s offset bytes).mono ?_ ?_
  · intro _ s' hs'
    exact Becomes.of_written hs'
  · rintro _ s' ⟨n, hn, _, hrefused, _⟩
    exact not_refused_first hfirst (by omega) hrefused

theorem checkPresent_first (s : Camera) :
    Ends (fun _ s' => Fetched f.layout s s' ∧ s'.present 0 = true)
      (fun _ s' => Fetched f.layout s s' ∧ ReadFailed f s ∧ s.present 0 = false)
      (f.layout.checkPresent 0 s) := by
  have hends := f.layout.checkPresent_ends (layout_slots hmem) s 0
  rw [Nat.zero_div] at hends
  refine hends.mono (fun _ _ h => ⟨h.1, h.2.1⟩) ?_
  rintro _ s' ⟨hfetched, hrefused⟩
  refine ⟨hfetched, ⟨0, hrefused, fun _ => by decide⟩, ?_⟩
  cases hfirst : s.present 0 with
  | false => rfl
  | true => exact absurd hrefused (not_refused_first hfirst (by decide))

theorem readFileCount_ends (s : Camera) :
    Ends
      (fun n s' => Fetched f.layout s s' ∧ n = Frame.count (f.layout.contents s) ∧
        s'.present 0 = true)
      (fun _ s' => Fetched f.layout s s' ∧ ReadFailed f s) (f.readFileCount s) := by
  refine Ends.bind ((readMem_ends hmem s countOffset 1).mono (fun _ _ h => h) ?_) ?_
  · rintro _ s' ⟨hfetched, a, _, hhigh, hrefused⟩
    refine ⟨hfetched, a, hrefused, fun _ => ?_⟩
    unfold countOffset at hhigh
    unfold blockSize
    omega
  rintro bytes s' ⟨hfetched, hbytes, hpresent⟩
  refine Ends.pure ⟨hfetched, ?_, hpresent countOffset (Nat.le_refl _) (by simp)⟩
  rw [hbytes, getD_bytesFrom _ _ (by decide), Nat.add_zero, Frame.count]

theorem readFileCount_first (hfirst : s.present 0 = true) :
    Ends (fun n s' => Fetched f.layout s s' ∧ n = Frame.count (f.layout.contents s))
      (fun _ _ => False) (f.readFileCount s) := by
  refine Ends.bind (readMem_first hmem hfirst (by decide)) ?_
  rintro bytes s' ⟨hfetched, hbytes⟩
  refine Ends.pure ⟨hfetched, ?_⟩
  rw [hbytes, getD_bytesFrom _ _ (by decide), Nat.add_zero, Frame.count]

/-! ### Checksum and copies -/

theorem updateFatChecksum_ends (hfirst : s.present 0 = true) :
    Ends (fun _ s' => Becomes f s (Frame.withChecksum (f.layout.contents s)) s')
      (fun _ _ => False) (f.updateFatChecksum s) := by
  have hcalc : Ends
      (fun n s' => Fetched f.layout s s' ∧ s'.present 0 = true ∧
        n = fatSum (f.layout.contents s) % 65536) (fun _ _ => False) (f.calcFatChecksum s) := by
    refine Ends.bind ((checkPresent_first hmem s).mono (fun _ _ h => h) ?_) ?_
    · rintro _ s' ⟨_, _, hmissing⟩
      rw [hfirst] at hmissing
      cases hmissing
    rintro _ s' ⟨hfetched, hpresent⟩
    refine Ends.get_bind (Ends.pure ⟨hfetched, hpresent, ?_⟩)
    have hsize : fatSize ≤ blockSize := by decide
    rw [← hfetched.contents, fatSum_congr fun a _ ha => mem_first hpresent (by omega)]
  refine Ends.bind hcalc ?_
  rintro n s' ⟨hfetched, hpresent, hn⟩
  refine (writeMem_first hmem hpresent ?_).mono ?_ fun _ _ h => h
  · rw [ByteOrder.length_encode]
    decide
  · intro _ s'' hs''
    rw [hfetched.contents, hn] at hs''
    exact (Becomes.of_fetched hfetched).trans hs''

theorem copyFatTo_ends {m : Nat → UInt8} {i : Nat} (hlow : 1 ≤ i) (hhigh : i < 4)
    (hs : f.layout.contents s = withCopies i m) (hfirst : s.present 0 = true) :
    Ends (fun _ s' => Becomes f s (withCopies (i + 1) m) s') (fun _ _ => False)
      (f.copyFatTo i s) := by
  refine Ends.get_bind ?_
  have hlen := length_bytesFrom s.mem 0 fatSize
  generalize hcopy : bytesFrom s.mem 0 fatSize = bytes at *
  have hin : i * fatSize + bytes.length ≤ blockSize := by
    rw [hlen]
    exact fats_le_blockSize hhigh
  refine (writeMem_first hmem hfirst hin).mono ?_ fun _ _ h => h
  intro _ s' hs'
  have hbytes : bytesFrom s.mem 0 fatSize = bytesFrom (f.layout.contents s) 0 fatSize := by
    refine bytesFrom_congr ?_
    intro a _ ha
    refine mem_first hfirst (Nat.lt_of_lt_of_le ha ?_)
    decide
  rwa [← hcopy, hbytes, hs, ← withCopies_succ hlow] at hs'

section
variable (hfirst : s.present 0 = true)
include hfirst

theorem copyFat_ends :
    Ends (fun _ s' => Becomes f s (withCopies f.noFats (f.layout.contents s)) s')
      (fun _ _ => False) (f.copyFat s) := by
  refine Ends.bind ((checkPresent_first hmem s).mono (fun _ _ h => h) ?_) ?_
  · rintro _ s' ⟨_, _, hmissing⟩
    rw [hfirst] at hmissing
    cases hmissing
  rintro _ s1 ⟨hfetched, hpresent⟩
  have hfew : f.noFats ≤ 4 := by
    unfold Frame.noFats
    cases f.version <;> decide
  have hpos := noFats_pos f
  have hloop := @Ends.forM_range' Camera Int (fun _ _ => False)
    (fun i s' => Becomes f s (withCopies i (f.layout.contents s)) s' ∧ s'.present 0 = true)
    f.copyFatTo 1 (f.noFats - 1) s1 ?_ ?_
  · rw [Nat.add_sub_cancel' hpos] at hloop
    exact hloop.mono (fun _ _ h => h.1) fun _ _ h => h
  · refine ⟨?_, hpresent⟩
    rw [withCopies_one]
    exact Becomes.of_fetched hfetched
  · intro i s2 hlow hhigh hi
    have hi4 : i < 4 := Nat.lt_of_lt_of_le hhigh (by rwa [Nat.add_sub_cancel' hpos])
    have hstep := copyFatTo_ends hmem hlow hi4 hi.1.contents hi.2
    refine hstep.mono ?_ fun _ _ h => h
    intro _ s3 hs3
    exact ⟨hi.1.trans hs3, hs3.present 0 hi.2⟩

theorem sealFat_ends :
    Ends (fun _ s' => Becomes f s (f.sealFat (f.layout.contents s)) s') (fun _ _ => False)
      ((f.updateFatChecksum >>= fun _ => f.copyFat) s) := by
  refine Ends.bind (updateFatChecksum_ends hmem hfirst) ?_
  intro _ s1 hs1
  refine (copyFat_ends hmem (hs1.present 0 hfirst)).mono ?_ fun _ _ h => h
  intro _ s2 hs2
  rw [hs1.contents] at hs2
  exact hs1.trans hs2

theorem writeFileCount_ends (count : Nat) :
    Ends
      (fun _ s' => Becomes f s
        (overlay countOffset [UInt8.ofNat count] (f.layout.contents s)) s')
      (fun _ _ => False) (f.writeFileCount count s) :=
  writeMem_first hmem hfirst (by simp [countOffset, blockSize])

/-! ### Adding a picture -/

/-- The entry, and with it the count and the fake entry when it is the last one. -/
theorem addEntry_ends (idx : Nat) (filename : List UInt8)
    (start size : Nat) (hidx : idx ≤ Frame.count (f.layout.contents s)) :
    Ends
      (fun _ s' => Becomes f s
        (withEntry idx filename start size (f.layout.contents s)) s')
      (fun _ _ => False)
      (f.addEntry (Frame.count (f.layout.contents s)) idx filename start size s) := by
  have hcount : Frame.count (f.layout.contents s) < 256 := UInt8.toNat_lt _
  have hlen := @length_entryBytes ⟨1, start, nameField filename⟩ (length_nameField _)
  have hfake := @length_entryBytes ⟨0, start + size, List.replicate 11 0⟩ List.length_replicate
  have hfits : fileOffset idx + 16 ≤ blockSize := fileOffset_fits (by omega)
  refine Ends.bind (writeMem_first hmem hfirst (by rw [hlen]; exact hfits)) ?_
  intro _ s1 hs1
  have hsame := count_overlay_entry idx (entryBytes ⟨1, start, nameField filename⟩)
    (f.layout.contents s)
  refine Ends.ite ?_ ?_
  · intro hlast
    rw [← hlast]
    refine Ends.bind (writeFileCount_ends hmem (hs1.present 0 hfirst) (idx + 1)) ?_
    intro _ s2 hs2
    have hfits' : fileOffset (idx + 1) + 16 ≤ blockSize := fileOffset_fits (by omega)
    refine (writeMem_first hmem (hs2.present 0 (hs1.present 0 hfirst))
      (by rw [hfake]; exact hfits')).mono ?_ fun _ _ h => h
    intro _ s3 hs3
    rw [hs2.contents, hs1.contents] at hs3
    rw [withEntry, if_pos (hlast.trans hsame.symm)]
    exact hs1.trans (hs2.trans hs3)
  · intro hlast
    refine Ends.pure ?_
    rw [withEntry, if_neg fun h => hlast (h.trans hsame)]
    exact hs1

/-- `st2205_add_picture` changes the table before the bytes of the picture are written. -/
theorem addPicture_ends {idx start : Nat} (filename : List UInt8)
    {buf : List UInt8} (hidx : idx ≤ Frame.count (f.layout.contents s))
    (hend : start + buf.length ≤ f.pictureEnd) :
    Ends
      (fun r s' => r = idx ∧ Becomes f s
        (f.withPicture idx filename start buf.length buf (f.layout.contents s)) s')
      (fun _ s' => ∃ n < buf.length, Becomes f s
          (f.withPicture idx filename start buf.length (buf.take n) (f.layout.contents s)) s' ∧
        Refused f.layout s (start + n) ∧ (n = 0 ∨ (start + n) % blockSize = 0))
      (f.addPicture idx filename start buf s) := by
  refine Ends.bind ((readFileCount_first hmem hfirst).mono (fun _ _ h => h) ?_) ?_
  · intro _ _ h
    exact h.elim
  rintro count s1 ⟨hfetched, hcount⟩
  have hfirst1 := hfetched.present 0 hfirst
  rw [← hfetched.contents] at hcount hidx
  refine Ends.ite (fun h => absurd h (by omega)) ?_
  intro _
  rw [hcount]
  have hentry := addEntry_ends hmem hfirst1 idx filename start buf.length (hcount ▸ hidx)
  refine Ends.bind (hentry.mono (fun _ _ h => h) fun _ _ h => h.elim) ?_
  intro _ s2 hs2
  have hfirst2 := hs2.present 0 hfirst1
  refine Ends.bind ((updateFatChecksum_ends hmem hfirst2).mono (fun _ _ h => h)
    fun _ _ h => h.elim) ?_
  intro _ s3 hs3
  have hfirst3 := hs3.present 0 hfirst2
  refine Ends.bind ((copyFat_ends hmem hfirst3).mono (fun _ _ h => h)
    fun _ _ h => h.elim) ?_
  intro _ s4 hs4
  have hbecomes := (Becomes.of_fetched hfetched).trans (hs2.trans (hs3.trans hs4))
  have hcontents : f.layout.contents s4 =
      f.sealFat (withEntry idx filename start buf.length (f.layout.contents s)) := by
    rw [hs4.contents, hs3.contents, hs2.contents, hfetched.contents, Frame.sealFat]
  have hwrite := f.layout.writeMem_ends (layout_slots hmem) s4 start buf
  refine Ends.bind (Ends.ite (fun h => absurd h (by omega)) fun _ =>
    hwrite.mono (fun _ _ h => h) ?_) ?_
  · rintro _ s' ⟨n, hn, hwritten, hrefused, haligned⟩
    have hpart := Becomes.of_written hwritten
    rw [hcontents] at hpart
    exact ⟨n, hn, hbecomes.trans hpart, hbecomes.refused hrefused, haligned⟩
  · intro _ s' hwritten
    have hall := Becomes.of_written hwritten
    rw [hcontents] at hall
    exact Ends.pure ⟨rfl, hbecomes.trans hall⟩

end

/-! ### Committing -/

/-- A block cannot be read or written back. -/
def CommitFailed (f : Frame) (writes : Nat → Option (BlockFault Int UInt8)) (s : Camera) : Prop :=
  (∃ a < f.pictureEnd, Refused f.layout s a) ∨ ∃ b, writes b ≠ none

omit hmem in
theorem CommitFailed.of_refused {writes : Nat → Option (BlockFault Int UInt8)} {s' : Camera}
    (hrefused : ∀ a, Refused f.layout s' a → Refused f.layout s a)
    (h : CommitFailed f writes s') : CommitFailed f writes s := by
  rcases h with ⟨a, ha, hr⟩ | hw
  · exact Or.inl ⟨a, ha, hrefused a hr⟩
  · exact Or.inr hw

variable (writes : Nat → Option (BlockFault Int UInt8))

/-- The blocks that are erased at once are clean behind a round that succeeds. -/
theorem commitErased_ends {i : Nat}
    (hslots : i + eraseBlocks ≤ f.layout.slots) (hin : (i + eraseBlocks) * blockSize ≤ f.pictureEnd)
    (h : f.layout.Backed s) :
    Ends
      (fun _ s' => f.layout.contents s' = f.layout.contents s ∧ f.layout.Backed s' ∧
        (∀ a, Refused f.layout s' a → Refused f.layout s a) ∧
        ∀ b, s'.dirty b = if i ≤ b ∧ b < i + eraseBlocks then false else s.dirty b)
      (fun _ s' => f.layout.contents s' = f.layout.contents s ∧ CommitFailed f writes s)
      (f.commitErased writes i s) := by
  refine Ends.ite (fun hlt => absurd hlt (by omega)) ?_
  intro _
  refine Ends.get_bind (Ends.ite ?_ ?_)
  · intro _
    have hread : Ends
        (fun _ t => Fetched f.layout s t ∧ ∀ k < eraseBlocks, t.present (i + k) = true)
        (fun _ t => f.layout.contents t = f.layout.contents s ∧ CommitFailed f writes s)
        ((List.range eraseBlocks).forM (fun j => f.layout.checkPresent (i + j)) s) := by
      refine @Ends.forM_range _ _ _
        (fun n t => Fetched f.layout s t ∧ ∀ k < n, t.present (i + k) = true) _ _ _ ?_ ?_
      · exact ⟨Fetched.refl _ s, fun k hk => absurd hk (Nat.not_lt_zero k)⟩
      · intro n t hn ht
        have hends := f.layout.checkPresent_ends (layout_slots hmem) t ((i + n) * blockSize)
        have hdiv : (i + n) * blockSize / f.layout.blockSize = i + n :=
          Nat.mul_div_cancel _ blockSize_pos
        rw [hdiv] at hends
        refine hends.mono ?_ ?_
        · intro _ t' ht'
          refine ⟨ht.1.trans ht'.1, fun k hk => ?_⟩
          by_cases hlast : k = n
          · rw [hlast]
            exact ht'.2.1
          · exact ht'.1.present _ (ht.2 k (by omega))
        · intro _ t' ht'
          have hlt : (i + n) * blockSize < f.pictureEnd := by
            refine Nat.lt_of_lt_of_le ?_ hin
            exact Nat.mul_lt_mul_of_pos_right (by omega) blockSize_pos
          exact ⟨(ht.1.trans ht'.1).contents, Or.inl ⟨_, hlt, ht.1.refused ht'.2⟩⟩
    refine Ends.bind hread ?_
    intro _ s1 hs1
    have hwrite := @Ends.forM_range _ _
      (fun (_ : Int) t => f.layout.contents t = f.layout.contents s ∧ CommitFailed f writes s)
      (fun n t => f.layout.contents t = f.layout.contents s ∧ f.layout.Backed t ∧
        (t.present = s1.present ∧ t.faults = s1.faults) ∧
        ∀ b, t.dirty b = if i ≤ b ∧ b < i + n then false else s.dirty b)
      (fun j => f.layout.writeBack writes (i + j)) eraseBlocks s1 ?_ ?_
    · refine hwrite.mono ?_ fun _ _ h => h
      intro _ s' hs'
      refine ⟨hs'.1, hs'.2.1, fun a hrefused => hs1.1.refused ?_, hs'.2.2.2⟩
      unfold Refused at hrefused ⊢
      rwa [hs'.2.2.1.1, hs'.2.2.1.2] at hrefused
    · refine ⟨hs1.1.contents, h.of_fetched hs1.1, ⟨rfl, rfl⟩, fun b => ?_⟩
      rw [if_neg (by omega), hs1.1.dirty]
    · intro n t hn ht
      obtain ⟨hcontents, hbacked, hsame, hdirty⟩ := ht
      have hthere : t.present (i + n) = true := by
        rw [hsame.1]
        exact hs1.2 n hn
      refine (BlockLayout.writeBack_ends writes hthere hbacked).mono ?_ ?_
      · intro _ t' ht'
        have hpresent : t'.present = t.present := (congrArg BlockCache.present ht'.2.2.1 :)
        have hfaults : t'.faults = t.faults := (congrArg BlockCache.faults ht'.2.2.1 :)
        refine ⟨ht'.1.trans hcontents, ht'.2.1,
          ⟨hpresent.trans hsame.1, hfaults.trans hsame.2⟩, fun b => ?_⟩
        rw [ht'.2.2.2, hdirty]
        by_cases hlast : b = i + n
        · rw [if_pos hlast, if_pos (by omega)]
        · rw [if_neg hlast]
          by_cases hbefore : i ≤ b ∧ b < i + n
          · rw [if_pos hbefore, if_pos (by omega)]
          · rw [if_neg hbefore, if_neg (by omega)]
      · intro _ t' ht'
        exact ⟨ht'.1.trans hcontents, Or.inr ⟨_, ht'.2⟩⟩
  · intro hclean
    refine Ends.pure ⟨rfl, h, fun _ hrefused => hrefused, fun b => ?_⟩
    by_cases hb : i ≤ b ∧ b < i + eraseBlocks
    · rw [if_pos hb]
      by_contra hd
      refine hclean (List.any_eq_true.mpr ⟨b - i, List.mem_range.mpr (by omega), ?_⟩)
      rw [Nat.add_sub_cancel' hb.1]
      simpa using hd
    · rw [if_neg hb]

/-- Behind a commit that succeeds the frame has the pictures and the table that it should have. -/
theorem commit_ends (h : f.layout.Backed s) :
    Ends
      (fun _ s' => f.layout.contents s' = f.layout.contents s ∧ f.layout.Backed s' ∧
        ∀ a < f.pictureEnd, s'.store a = f.layout.contents s a)
      (fun _ s' => f.layout.contents s' = f.layout.contents s ∧ CommitFailed f writes s)
      (f.commit writes s) := by
  have hsize : blockSize = 32768 := rfl
  have herase : eraseBlocks = 2 := rfl
  have hslots : f.layout.slots = 64 := rfl
  -- the memory for pictures ends where blocks that are erased at once do
  have hwhole : f.pictureEnd % 65536 = 0 ∧ f.pictureEnd ≤ 2097152 := by
    have hmemory := memSize_cases f
    have hfirmware := firmwareSize_cases f
    unfold pictureEnd
    omega
  have hloop := @Ends.forM_range _ _
    (fun (_ : Int) t => f.layout.contents t = f.layout.contents s ∧ CommitFailed f writes s)
    (fun k t => f.layout.contents t = f.layout.contents s ∧ f.layout.Backed t ∧
      (∀ a, Refused f.layout t a → Refused f.layout s a) ∧
      ∀ b < k * eraseBlocks, t.dirty b = false)
    (fun k => f.commitErased writes (k * eraseBlocks))
    ((f.pictureEnd / blockSize + eraseBlocks - 1) / eraseBlocks) s ?_ ?_
  · refine hloop.mono ?_ fun _ _ h => h
    intro _ s' hs'
    refine ⟨hs'.1, hs'.2.1, fun a ha => ?_⟩
    have hblock : a / blockSize <
        (f.pictureEnd / blockSize + eraseBlocks - 1) / eraseBlocks * eraseBlocks := by
      rw [hsize, herase]
      omega
    rw [← hs'.1]
    exact (hs'.2.1 a (hs'.2.2.2 _ hblock)).symm
  · refine ⟨rfl, h, fun _ hrefused => hrefused, fun b hb => ?_⟩
    rw [Nat.zero_mul] at hb
    exact absurd hb (Nat.not_lt_zero b)
  · intro k t hk ht
    rw [hsize, herase] at hk
    have hfits : k * eraseBlocks + eraseBlocks ≤ f.layout.slots := by
      rw [herase, hslots]
      omega
    have hin : (k * eraseBlocks + eraseBlocks) * blockSize ≤ f.pictureEnd := by
      rw [herase, hsize]
      omega
    refine (commitErased_ends hmem writes hfits hin ht.2.1).mono ?_ ?_
    · intro _ t' ht'
      refine ⟨ht'.1.trans ht.1, ht'.2.1, fun a hrefused => ht.2.2.1 a (ht'.2.2.1 a hrefused), ?_⟩
      intro b hb
      rw [ht'.2.2.2]
      by_cases hlast : k * eraseBlocks ≤ b ∧ b < k * eraseBlocks + eraseBlocks
      · rw [if_pos hlast]
      · rw [if_neg hlast]
        exact ht.2.2.2 b (by rw [Nat.add_one_mul] at hb; omega)
    · intro _ t' ht'
      exact ⟨ht'.1.trans ht.1, ht'.2.of_refused ht.2.2.1⟩

end

/-! ## How `st2205_real_write_file` finds a place

The loop of `st2205_real_write_file` goes through the entries once. Before entry `i` it knows the
end of the last present picture, and a hole that is still open, or that no entry before has room
(`Scanned`). A present entry closes the hole (`Scanned.closes`). The loop ends with the first entry
that has room, or with none (`findHole_ends`).
-/

open Frame (Present address endBefore startFrom)

/-- What the loop knows before entry `i`. -/
structure Scanned (f : Frame) (m : Nat → UInt8) (size i : Nat) (scan : Scan) : Prop where
  stop : i ≤ Frame.count m → scan.stop = f.endBefore m i
  holeIdx : scan.holeStart ≠ 0 → scan.holeIdx < i ∧ scan.holeStart = f.endBefore m scan.holeIdx
  free : scan.holeStart ≠ 0 → ∀ j, scan.holeIdx ≤ j → j < i → ¬ Present m j
  before : scan.holeStart ≠ 0 → ∀ j < scan.holeIdx, ¬ f.HasRoom m size j
  none : scan.holeStart = 0 → ∀ j < i, ¬ f.HasRoom m size j
  last : i = Frame.count m + 1 → scan.holeStart = 0

section

variable {f : Frame} {m : Nat → UInt8} {size i h : Nat}

theorem endBefore_gap (hfree : ∀ j, h ≤ j → j < i → ¬ Present m j) {j : Nat} (hlow : h ≤ j)
    (hhigh : j ≤ i) : f.endBefore m j = f.endBefore m h := by
  induction j with
  | zero =>
    obtain rfl : h = 0 := by omega
    rfl
  | succ j ih =>
    by_cases heq : h = j + 1
    · rw [heq]
    · rw [endBefore, if_neg (hfree j (by omega) (by omega))]
      exact ih (by omega) (by omega)

theorem startFrom_gap (hfree : ∀ j, h ≤ j → j < i → ¬ Present m j)
    (hi : i ≤ Frame.count m) {j : Nat} (hlow : h ≤ j) (hhigh : j ≤ i) :
    f.startFrom m (Frame.count m - j) j = f.startFrom m (Frame.count m - i) i := by
  -- by induction on the number of entries up to `i`
  generalize hn : i - j = n
  induction n generalizing j with
  | zero =>
    obtain rfl : j = i := by omega
    rfl
  | succ n ih =>
    have hleft : Frame.count m - j = Frame.count m - (j + 1) + 1 := by omega
    rw [hleft, startFrom, if_neg (hfree j hlow (by omega))]
    exact ih (by omega) (by omega) (by omega)

/-- The present entry `i`, or the end, closes the gap that begins with entry `h`. -/
theorem gap_closes (hfree : ∀ j, h ≤ j → j < i → ¬ Present m j)
    (hbefore : ∀ j < h, ¬ f.HasRoom m size j) (hi : i ≤ Frame.count m) (hle : h ≤ i)
    (hpresent : i < Frame.count m → Present m i ∧ h < i) :
    (f.startFrom m (Frame.count m - i) i < f.endBefore m h + size →
        ∀ j < i + 1, ¬ f.HasRoom m size j) ∧
      (¬ f.startFrom m (Frame.count m - i) i < f.endBefore m h + size →
        f.FirstRoom m size h) := by
  constructor
  · intro hsmall j hj hroom
    by_cases hjh : j < h
    · exact hbefore j hjh hroom
    · have hgap := hroom.2
      rw [startFrom_gap hfree hi (by omega) (by omega),
        endBefore_gap hfree (by omega) (by omega)] at hgap
      omega
  · intro hlarge
    refine ⟨by omega, ⟨?_, ?_⟩, hbefore⟩
    · rintro ⟨hlt, hp⟩
      by_cases hih : h < i
      · exact hfree h (Nat.le_refl _) hih hp
      · have hlast := hpresent (by omega)
        omega
    · rw [startFrom_gap hfree hi (Nat.le_refl _) hle]
      omega

end

/-! ### The loop -/

section

variable {f : Frame} {m : Nat → UInt8} {size : Nat}

/-- What the loop sees at entry `i`. -/
def lookOf (f : Frame) (m : Nat → UInt8) (i : Nat) (scan : Scan) : Look :=
  if i = Frame.count m then
    ⟨true, f.pictureEnd,
      if scan.holeStart = 0 then { scan with holeStart := scan.stop, holeIdx := i } else scan⟩
  else if Present m i then
    ⟨true, address m i, { scan with stop := f.stop m i }⟩
  else
    ⟨false, address m i, scan⟩

theorem lookOf_last (scan : Scan) : lookOf f m (Frame.count m) scan = ⟨true, f.pictureEnd,
    if scan.holeStart = 0 then { scan with holeStart := scan.stop, holeIdx := Frame.count m }
    else scan⟩ := if_pos rfl

theorem lookOf_present {i : Nat} (hi : i < Frame.count m) (hp : Present m i) (scan : Scan) :
    lookOf f m i scan = ⟨true, address m i, { scan with stop := f.stop m i }⟩ := by
  rw [lookOf, if_neg (by omega), if_pos hp]

theorem lookOf_absent {i : Nat} (hi : i < Frame.count m) (hp : ¬ Present m i)
    (scan : Scan) : lookOf f m i scan = ⟨false, address m i, scan⟩ := by
  rw [lookOf, if_neg (by omega), if_neg hp]

/-- The outcome of a round, by what the loop sees: the next round begins with what it must know, or
the hole is found. -/
structure Round (f : Frame) (m : Nat → UInt8) (size i : Nat) (look : Look) : Prop where
  closed : look.scan.holeStart ≠ 0 → look.present = true →
    look.start < look.scan.holeStart + size →
      Scanned f m size (i + 1) { look.scan with holeStart := 0 }
  found : look.scan.holeStart ≠ 0 → look.present = true →
    ¬ look.start < look.scan.holeStart + size →
      look.scan.holeStart = f.endBefore m look.scan.holeIdx ∧
        f.FirstRoom m size look.scan.holeIdx
  more : look.scan.holeStart ≠ 0 → look.present ≠ true → Scanned f m size (i + 1) look.scan
  skipped : ¬ look.scan.holeStart ≠ 0 → look.present = true → Scanned f m size (i + 1) look.scan
  opened : ¬ look.scan.holeStart ≠ 0 → look.present ≠ true →
    Scanned f m size (i + 1) { look.scan with holeStart := look.scan.stop, holeIdx := i }

theorem Scanned.of_none {i : Nat} {scan : Scan} (hzero : scan.holeStart = 0)
    (hstop : i ≤ Frame.count m → scan.stop = f.endBefore m i)
    (hnone : ∀ j < i, ¬ f.HasRoom m size j) : Scanned f m size i scan where
  stop := hstop
  holeIdx h := absurd hzero h
  free h := absurd hzero h
  before h := absurd hzero h
  none _ := hnone
  last _ := hzero

variable {i : Nat} {scan : Scan}

theorem Scanned.round_last (h : Scanned f m size (Frame.count m) scan)
    (hpos : ∀ j ≤ Frame.count m, 0 < f.endBefore m j) :
    Round f m size (Frame.count m) (lookOf f m (Frame.count m) scan) := by
  have hedge : f.startFrom m (Frame.count m - Frame.count m) (Frame.count m) = f.pictureEnd := by
    rw [Nat.sub_self, startFrom]
  rw [lookOf_last]
  by_cases hzero : scan.holeStart = 0
  · rw [if_pos hzero]
    have hstop := h.stop (Nat.le_refl _)
    have hnonzero : scan.stop ≠ 0 := by
      have hend := hpos (Frame.count m) (Nat.le_refl _)
      omega
    obtain ⟨hsmall, hlarge⟩ := @gap_closes f m size (Frame.count m) (Frame.count m)
      (fun j hlow hhigh => absurd hhigh (by omega)) (h.none hzero) (Nat.le_refl _) (Nat.le_refl _)
      (fun hlt => absurd hlt (by omega))
    rw [hedge] at hsmall hlarge
    refine ⟨?_, ?_, ?_, ?_, ?_⟩
    · intro _ _ hshort
      rw [hstop] at hshort
      exact Scanned.of_none rfl (fun hle => absurd hle (by omega)) (hsmall hshort)
    · intro _ _ hlong
      rw [hstop] at hlong
      exact ⟨hstop, hlarge hlong⟩
    · intro _ hfalse
      exact absurd rfl hfalse
    · intro hfalse
      exact absurd hnonzero hfalse
    · intro _ hfalse
      exact absurd rfl hfalse
  · rw [if_neg hzero]
    obtain ⟨hidx, hstart⟩ := h.holeIdx hzero
    obtain ⟨hsmall, hlarge⟩ := @gap_closes f m size (Frame.count m) scan.holeIdx
      (h.free hzero) (h.before hzero) (Nat.le_refl _) (Nat.le_of_lt hidx)
      (fun hlt => absurd hlt (by omega))
    rw [hedge] at hsmall hlarge
    refine ⟨?_, ?_, ?_, ?_, ?_⟩
    · intro _ _ hshort
      rw [hstart] at hshort
      exact Scanned.of_none rfl (fun hle => absurd hle (by omega)) (hsmall hshort)
    · intro _ _ hlong
      rw [hstart] at hlong
      exact ⟨hstart, hlarge hlong⟩
    · intro _ hfalse
      exact absurd rfl hfalse
    · intro hfalse
      exact absurd hzero hfalse
    · intro _ hfalse
      exact absurd rfl hfalse

section
variable (h : Scanned f m size i scan)
include h

theorem Scanned.round_present (hi : i < Frame.count m)
    (hp : Present m i) : Round f m size i (lookOf f m i scan) := by
  have hedge : f.startFrom m (Frame.count m - i) i = address m i := by
    obtain ⟨n, hn⟩ : ∃ n, Frame.count m - i = n + 1 := ⟨Frame.count m - i - 1, by omega⟩
    rw [hn, startFrom, if_pos hp]
  have hstop : f.stop m i = f.endBefore m (i + 1) := by
    rw [endBefore, if_pos hp]
  rw [lookOf_present hi hp]
  refine ⟨?_, ?_, ?_, ?_, ?_⟩
  · intro hopen _ hshort
    obtain ⟨hidx, hstart⟩ := h.holeIdx hopen
    have hgap := @gap_closes f m size i scan.holeIdx (h.free hopen) (h.before hopen)
      (Nat.le_of_lt hi) (Nat.le_of_lt hidx) fun _ => ⟨hp, hidx⟩
    rw [hedge, ← hstart] at hgap
    exact Scanned.of_none rfl (fun _ => hstop) (hgap.1 hshort)
  · intro hopen _ hlong
    obtain ⟨hidx, hstart⟩ := h.holeIdx hopen
    have hgap := @gap_closes f m size i scan.holeIdx (h.free hopen) (h.before hopen)
      (Nat.le_of_lt hi) (Nat.le_of_lt hidx) fun _ => ⟨hp, hidx⟩
    rw [hedge, ← hstart] at hgap
    exact ⟨hstart, hgap.2 hlong⟩
  · intro _ hfalse
    exact absurd rfl hfalse
  · intro hzero _
    refine Scanned.of_none (by simpa using hzero) (fun _ => hstop) ?_
    intro j hj hroom
    by_cases hlast : j = i
    · rw [hlast] at hroom
      exact hroom.1 ⟨hi, hp⟩
    · exact h.none (by simpa using hzero) j (by omega) hroom
  · intro _ hfalse
    exact absurd rfl hfalse

theorem Scanned.round_absent (hi : i < Frame.count m)
    (hp : ¬ Present m i) (hpos : ∀ j ≤ Frame.count m, 0 < f.endBefore m j) :
    Round f m size i (lookOf f m i scan) := by
  have hstop : scan.stop = f.endBefore m (i + 1) := by
    rw [endBefore, if_neg hp]
    exact h.stop (Nat.le_of_lt hi)
  rw [lookOf_absent hi hp]
  refine ⟨?_, ?_, ?_, ?_, ?_⟩
  · intro _ hfalse
    cases hfalse
  · intro _ hfalse
    cases hfalse
  · intro hopen _
    obtain ⟨hidx, hstart⟩ := h.holeIdx hopen
    refine ⟨fun _ => hstop, fun _ => ⟨?_, hstart⟩, ?_, h.before, ?_, ?_⟩
    · show scan.holeIdx < i + 1
      omega
    · intro _ j hlow hhigh
      by_cases hlast : j = i
      · rw [hlast]
        exact hp
      · exact h.free hopen j hlow (by omega)
    · intro hzero
      exact absurd hzero hopen
    · intro hlast
      omega
  · intro _ hfalse
    cases hfalse
  · intro hzero _
    have hnone := h.none (by simpa using hzero)
    have hend := hpos (i + 1) hi
    refine ⟨fun _ => hstop, fun _ => ⟨Nat.lt_succ_self i, ?_⟩, ?_, fun _ => hnone, ?_, ?_⟩
    · exact h.stop (Nat.le_of_lt hi)
    · intro _ j hlow hhigh
      obtain rfl : j = i := Nat.le_antisymm (Nat.le_of_lt_succ hhigh) hlow
      exact hp
    · intro hfalse
      exact absurd (hstop.symm.trans hfalse) (by omega)
    · intro hlast
      omega

theorem Scanned.round (hi : i ≤ Frame.count m)
    (hpos : ∀ j ≤ Frame.count m, 0 < f.endBefore m j) :
    Round f m size i (lookOf f m i scan) := by
  by_cases hlast : i = Frame.count m
  · rw [hlast] at h ⊢
    exact h.round_last hpos
  · have hlt : i < Frame.count m := by omega
    by_cases hp : Present m i
    · exact h.round_present hlt hp
    · exact h.round_absent hlt hp hpos

end

variable (hmem : f.memSize ≤ 2097152)

include hmem

theorem readEntry_ends {s : Camera} (hfirst : s.present 0 = true) {i : Nat} (hi : i ≤ 256) :
    Ends
      (fun entry s' => Fetched f.layout s s' ∧
        (entry.present ≠ 0 ↔ Present (f.layout.contents s) i) ∧
        entry.address = address (f.layout.contents s) i)
      (fun _ _ => False) (f.readEntry i s) := by
  refine Ends.bind (readMem_first hmem hfirst (fileOffset_fits hi)) ?_
  rintro bytes s' ⟨hfetched, hbytes⟩
  refine Ends.pure ⟨hfetched, ?_, ?_⟩
  · show bytes.getD 0 0 ≠ 0 ↔ _
    rw [hbytes, getD_bytesFrom _ _ (by decide), Nat.add_zero, Present]
  · show ByteOrder.little.decode ((bytes.drop 1).take 4) = _
    have hsplit : bytesFrom (f.layout.contents s) (fileOffset i) 16 =
        bytesFrom (f.layout.contents s) (fileOffset i) 1 ++
          (bytesFrom (f.layout.contents s) (fileOffset i + 1) 4 ++
            bytesFrom (f.layout.contents s) (fileOffset i + 1 + 4) 11) := by
      rw [← bytesFrom_add, ← bytesFrom_add]
    rw [hbytes, hsplit, List.drop_left' (length_bytesFrom _ _ _),
      List.take_left' (length_bytesFrom _ _ _),
      address]

theorem readSize_ends (s : Camera) (start : Nat)
    (hsize : f.compressed = false → size = f.lib.height * f.lib.width * 2) :
    Ends
      (fun n s' => Fetched f.layout s s' ∧ n = f.sizeAt (f.layout.contents s) start)
      (fun _ s' => Fetched f.layout s s' ∧ ReadFailed f s) (f.readSize start size s) := by
  unfold Frame.sizeAt
  refine Ends.ite ?_ ?_
  · intro hcompressed
    rw [if_pos hcompressed]
    refine Ends.bind ((readMem_ends hmem s start 16).mono (fun _ _ h => h) ?_) ?_
    · rintro _ s' ⟨hfetched, a, _, _, hrefused⟩
      exact ⟨hfetched, a, hrefused, fun hplain => by simp [hplain] at hcompressed⟩
    rintro bytes s' ⟨hfetched, hbytes, _⟩
    exact Ends.pure ⟨hfetched, by rw [hbytes]⟩
  · intro hplain
    rw [if_neg hplain]
    exact Ends.pure ⟨Fetched.refl _ s, hsize (by simpa using hplain)⟩

theorem lookAt_ends {s : Camera} (hfirst : s.present 0 = true) {i : Nat} (hi : i ≤ 256)
    (scan : Scan) (hm : f.layout.contents s = m)
    (hsize : f.compressed = false → size = f.lib.height * f.lib.width * 2) :
    Ends (fun look s' => Fetched f.layout s s' ∧ look = lookOf f m i scan)
      (fun _ s' => Fetched f.layout s s' ∧ ReadFailed f s)
      (f.lookAt size (Frame.count m) i scan s) := by
  unfold lookOf
  refine Ends.ite ?_ ?_
  · intro hlast
    rw [if_pos hlast]
    exact Ends.pure ⟨Fetched.refl _ s, rfl⟩
  intro hlast
  rw [if_neg hlast]
  refine Ends.bind ((readEntry_ends hmem hfirst hi).mono (fun _ _ h => h)
    fun _ _ h => h.elim) ?_
  rintro entry s1 ⟨hfetched, hpresent, haddress⟩
  rw [hm] at hpresent haddress
  refine Ends.ite ?_ ?_
  · intro hp
    rw [if_pos (hpresent.mp hp)]
    refine Ends.bind ((readSize_ends hmem s1 entry.address hsize).mono (fun _ _ h => h) ?_) ?_
    · rintro _ s' ⟨hs', hfailed⟩
      exact ⟨hfetched.trans hs', hfailed.of_fetched hfetched⟩
    rintro n s' ⟨hs', hn⟩
    refine Ends.pure ⟨hfetched.trans hs', ?_⟩
    rw [hn, hfetched.contents, hm, haddress, Frame.stop]
  · intro hp
    rw [if_neg fun h => hp (hpresent.mpr h), haddress]
    exact Ends.pure ⟨hfetched, rfl⟩

theorem findHole_ends (hpos : ∀ j ≤ Frame.count m, 0 < f.endBefore m j)
    (hsize : f.compressed = false → size = f.lib.height * f.lib.width * 2) (rounds : Nat) :
    ∀ (s : Camera) (i : Nat) (scan : Scan), f.layout.contents s = m → s.present 0 = true →
      i + rounds = Frame.count m + 1 → Scanned f m size i scan →
      Ends
        (fun r s' => Fetched f.layout s s' ∧
          ((r = none ∧ ∀ j, ¬ f.FirstRoom m size j) ∨
            ∃ idx, r = some (idx, f.endBefore m idx) ∧ f.FirstRoom m size idx))
        (fun _ s' => Fetched f.layout s s' ∧ ReadFailed f s)
        (f.findHole size (Frame.count m) rounds i scan s) := by
  have hcount : Frame.count m < 256 := UInt8.toNat_lt _
  induction rounds with
  | zero =>
    intro s i scan _ _ hi h
    refine Ends.pure ⟨Fetched.refl _ s, Or.inl ⟨rfl, ?_⟩⟩
    intro j hj
    have hle := hj.le
    exact h.none (h.last (by omega)) j (by omega) hj.room
  | succ rounds ih =>
    intro s i scan hm hfirst hi h
    have hround := h.round (by omega) hpos
    refine Ends.bind (lookAt_ends hmem hfirst (by omega) scan hm hsize) ?_
    rintro look s1 ⟨hfetched, hlook⟩
    rw [← hlook] at hround
    have hnext : ∀ scan', Scanned f m size (i + 1) scan' → Ends
        (fun r s' => Fetched f.layout s s' ∧
          ((r = none ∧ ∀ j, ¬ f.FirstRoom m size j) ∨
            ∃ idx, r = some (idx, f.endBefore m idx) ∧ f.FirstRoom m size idx))
        (fun _ s' => Fetched f.layout s s' ∧ ReadFailed f s)
        (f.findHole size (Frame.count m) rounds (i + 1) scan' s1) := by
      intro scan' hscan'
      have hrest := ih s1 (i + 1) scan' (hfetched.contents.trans hm) (hfetched.present 0 hfirst)
        (by omega) hscan'
      refine hrest.mono ?_ ?_
      · rintro r s' ⟨hs', hr⟩
        exact ⟨hfetched.trans hs', hr⟩
      · rintro _ s' ⟨hs', hfailed⟩
        exact ⟨hfetched.trans hs', hfailed.of_fetched hfetched⟩
    refine Ends.ite ?_ ?_
    · intro hopen
      refine Ends.ite ?_ ?_
      · intro hp
        refine Ends.ite ?_ ?_
        · intro hshort
          exact hnext _ (hround.closed hopen hp hshort)
        · intro hlong
          obtain ⟨hstart, hroom⟩ := hround.found hopen hp hlong
          exact Ends.pure ⟨hfetched, Or.inr ⟨look.scan.holeIdx, by rw [← hstart], hroom⟩⟩
      · intro hp
        exact hnext _ (hround.more hopen hp)
    · intro hzero
      refine Ends.ite ?_ ?_
      · intro hp
        exact hnext _ (hround.skipped hzero hp)
      · intro hp
        exact hnext _ (hround.opened hzero hp)

end

end GPhoto2.St2205
