import GPhoto2.Ptp.Viewfinder

/-!
# `GPhoto2.Proofs.Ptp.Viewfinder`: the walk over the blobs of a viewfinder block

`viewfinder_sound_iff`: the walk ends, stays inside the block and finds the first JPEG exactly
for the blocks that are `Walkable`.
-/

set_option autoImplicit false

namespace GPhoto2

open Lib
open Option (bind_eq_some_iff)

variable (params : PTPParams) (data : List UInt8)

/-- From an offset on, the first blob of type 1 starts at `start`, and lies inside the block. -/
inductive FirstJpeg : Nat → Nat → UInt32 → Prop
  | here {off : Nat} {len : UInt32} (hhead : blobHeader params data off = some (len, 1))
      (hlen : 8 ≤ len.toNat) (hin : off + len.toNat ≤ data.length) : FirstJpeg off off len
  | skip {off start : Nat} {len type jpeg : UInt32}
      (hhead : blobHeader params data off = some (len, type)) (htype : type ≠ 1)
      (rest : FirstJpeg (off + len.toNat) start jpeg) : FirstJpeg off start jpeg

/-- The walk over a block ends and reads inside of it. It appends to the file the payload of the
first blob of type 1, or reports an error. -/
def ViewfinderSound (params : PTPParams) (block : ViewfinderBlock) (file : List UInt8) : Prop :=
  ∃ fuel ret file', walkBlobs params block.data file fuel 0 = some (ret, file') ∧
    (ret < 0 ∨ ∃ start len, FirstJpeg params block.data 0 start len ∧ ret = 0 ∧
      file' = file ++ (block.data.drop (start + 8)).take (len.toNat - 8))

/-- The blobs behind the JPEG: each has its header in the block and a length other than 0, up to
one that is longer than the rest. -/
inductive Dumpable : Nat → Prop
  | done {off : Nat} (hoff : data.length ≤ off) : Dumpable off
  | cut {off : Nat} {len type : UInt32} (hhead : blobHeader params data off = some (len, type))
      (hoff : off < data.length) (hlen : data.length - off < len.toNat) : Dumpable off
  | blob {off : Nat} {len type : UInt32} (hhead : blobHeader params data off = some (len, type))
      (hlen : len ≠ 0) (hin : off + len.toNat ≤ data.length)
      (rest : Dumpable (off + len.toNat)) : Dumpable off

/-- The blobs of a block: each has its header in the block. A blob before the JPEG has a length
other than 0, and of its bytes the first megabyte is in the block. A JPEG is longer than the
rest, or at least as long as its header and followed by blobs that can be dumped. -/
inductive Walkable : Nat → Prop
  | done {off : Nat} (hoff : data.length ≤ off) : Walkable off
  | skip {off : Nat} {len type : UInt32} (hhead : blobHeader params data off = some (len, type))
      (htype : type ≠ 1) (hlen : len ≠ 0)
      (hin : off + min len.toNat (1024 * 1024) ≤ data.length)
      (rest : Walkable (off + len.toNat)) : Walkable off
  | cut {off : Nat} {len : UInt32} (hhead : blobHeader params data off = some (len, 1))
      (hlen : data.length - off < len.toNat) : Walkable off
  | jpeg {off : Nat} {len : UInt32} (hhead : blobHeader params data off = some (len, 1))
      (hlen : 8 ≤ len.toNat) (hin : off + len.toNat ≤ data.length)
      (rest : Dumpable params data (off + len.toNat)) : Walkable off

variable {params data} {off : Nat} {len type : UInt32}

theorem blobHeader_inside (h : blobHeader params data off = some (len, type)) :
    off + 8 ≤ data.length := by
  obtain ⟨_, _, hrest⟩ := bind_eq_some_iff.mp h
  obtain ⟨type', htype, _⟩ := bind_eq_some_iff.mp hrest
  have hsome := dtoh32ap_isSome.mp (Option.isSome_of_eq_some htype)
  omega

theorem gpLogData_eq_some :
    gpLogData data off len = some () ↔
      len = 0 ∨ off + min len.toNat (1024 * 1024) ≤ data.length := by
  unfold gpLogData
  by_cases h : len = 0 ∨ off + min len.toNat (1024 * 1024) ≤ data.length
  · exact iff_of_true (if_pos h) h
  · rw [if_neg h]
    exact iff_of_false (by simp) h

/-! ### The blobs behind the JPEG -/

theorem dumpBlobs_blob (h : blobHeader params data off = some (len, type)) (fuel : Nat) :
    dumpBlobs params data (fuel + 1) off =
      if data.length - off < len.toNat then some ()
      else (gpLogData data off len).bind fun _ => dumpBlobs params data fuel (off + len.toNat) := by
  have hin := blobHeader_inside h
  rw [dumpBlobs, if_neg (by omega), h]
  rfl

theorem dumpBlobs_zero (h : blobHeader params data off = some (0, type)) (fuel : Nat) :
    dumpBlobs params data fuel off = none := by
  induction fuel with
  | zero => rfl
  | succ fuel ih =>
    rw [dumpBlobs_blob h, if_neg (by simp), gpLogData_eq_some.mpr (Or.inl rfl)]
    exact ih

theorem dumpBlobs_dumpable {fuel : Nat} (h : dumpBlobs params data fuel off = some ()) :
    Dumpable params data off := by
  induction fuel generalizing off with
  | zero => cases h
  | succ fuel ih =>
    by_cases hoff : data.length ≤ off
    · exact .done hoff
    · have hrun := h
      rw [dumpBlobs, if_neg hoff] at h
      obtain ⟨⟨len, type⟩, hhead, _⟩ := bind_eq_some_iff.mp h
      -- The run came to an end, and so the offset moves.
      have hlen : len ≠ 0 := by
        rintro rfl
        rw [dumpBlobs_zero hhead] at hrun
        cases hrun
      rw [dumpBlobs_blob hhead] at hrun
      by_cases hcut : data.length - off < len.toNat
      · exact .cut hhead (by omega) hcut
      · rw [if_neg hcut] at hrun
        obtain ⟨_, _, hrest⟩ := bind_eq_some_iff.mp hrun
        exact .blob hhead hlen (by omega) (ih hrest)

theorem Dumpable.ends (h : Dumpable params data off) :
    ∃ fuel, dumpBlobs params data fuel off = some () := by
  induction h with
  | done hoff => exact ⟨1, by rw [dumpBlobs, if_pos hoff]⟩
  | cut hhead hoff hlen =>
    exact ⟨1, by rw [dumpBlobs_blob hhead, if_pos hlen]⟩
  | blob hhead hlen hin _ ih =>
    obtain ⟨fuel, hrest⟩ := ih
    refine ⟨fuel + 1, ?_⟩
    rw [dumpBlobs_blob hhead, if_neg (by omega), gpLogData_eq_some.mpr (Or.inr (by omega))]
    exact hrest

/-! ### The blobs up to the JPEG -/

variable {file file' : List UInt8} {fuel : Nat} {ret : Int}

theorem walkBlobs_skip (h : blobHeader params data off = some (len, type)) (htype : type ≠ 1)
    (fuel : Nat) : walkBlobs params data file (fuel + 1) off =
      (gpLogData data off len).bind fun _ =>
        walkBlobs params data file fuel (off + len.toNat) := by
  have hin := blobHeader_inside h
  rw [walkBlobs, if_neg (by omega), h]
  exact if_pos htype

theorem walkBlobs_jpeg (h : blobHeader params data off = some (len, 1)) (fuel : Nat) :
    walkBlobs params data file (fuel + 1) off =
      if data.length - off < len.toNat then some (gpError, file)
      else (slice data (off + 8) (len - 8).toNat).bind fun jpeg =>
        (dumpBlobs params data fuel (off + len.toNat)).bind fun _ => some (0, file ++ jpeg) := by
  have hin := blobHeader_inside h
  rw [walkBlobs, if_neg (by omega), h]
  rfl

theorem walkBlobs_zero (h : blobHeader params data off = some (0, type)) (htype : type ≠ 1)
    (fuel : Nat) : walkBlobs params data file fuel off = none := by
  induction fuel with
  | zero => rfl
  | succ fuel ih =>
    rw [walkBlobs_skip h htype, gpLogData_eq_some.mpr (Or.inl rfl)]
    exact ih

/-- The length of the payload wraps for a blob that is shorter than its header, and so many
bytes are not in the block. -/
theorem payload_length (hsize : data.length < UInt32.size) {jpeg : List UInt8}
    (h : slice data (off + 8) (len - 8).toNat = some jpeg) :
    8 ≤ len.toNat ∧ (len - 8).toNat = len.toNat - 8 := by
  have hin := (slice_eq_some.mp h).1
  have hsub : (len - 8).toNat = (2 ^ 32 - 8 + len.toNat) % 2 ^ 32 := UInt32.toNat_sub len 8
  have hlt := len.toNat_lt
  rw [UInt32.size] at hsize
  omega

/-- A walk that ends was over blobs that can be walked, and its result is the claimed one. -/
theorem walkBlobs_cases (hsize : data.length < UInt32.size)
    (h : walkBlobs params data file fuel off = some (ret, file')) :
    Walkable params data off ∧ (ret < 0 ∨ ∃ start len, FirstJpeg params data off start len ∧
      ret = 0 ∧ file' = file ++ (data.drop (start + 8)).take (len.toNat - 8)) := by
  induction fuel generalizing off with
  | zero => cases h
  | succ fuel ih =>
    by_cases hoff : data.length ≤ off
    · rw [walkBlobs, if_pos hoff] at h
      cases h
      exact ⟨.done hoff, Or.inl (by decide)⟩
    · have hrun := h
      rw [walkBlobs, if_neg hoff] at h
      obtain ⟨⟨len, type⟩, hhead, _⟩ := bind_eq_some_iff.mp h
      by_cases htype : type ≠ 1
      · have hlen : len ≠ 0 := by
          rintro rfl
          rw [walkBlobs_zero hhead htype] at hrun
          cases hrun
        rw [walkBlobs_skip hhead htype] at hrun
        obtain ⟨_, hlog, hrest⟩ := bind_eq_some_iff.mp hrun
        obtain ⟨hwalk, hret⟩ := ih hrest
        refine ⟨.skip hhead htype hlen ((gpLogData_eq_some.mp hlog).resolve_left hlen) hwalk, ?_⟩
        refine hret.imp_right ?_
        rintro ⟨start, jpeg, hfirst, hres⟩
        exact ⟨start, jpeg, .skip hhead htype hfirst, hres⟩
      · obtain rfl : type = 1 := Decidable.not_not.mp htype
        rw [walkBlobs_jpeg hhead] at hrun
        by_cases hcut : data.length - off < len.toNat
        · rw [if_pos hcut] at hrun
          cases hrun
          exact ⟨.cut hhead hcut, Or.inl (by decide)⟩
        · rw [if_neg hcut] at hrun
          obtain ⟨jpeg, hjpeg, hrun⟩ := bind_eq_some_iff.mp hrun
          obtain ⟨_, hdump, hrun⟩ := bind_eq_some_iff.mp hrun
          cases hrun
          -- The payload was inside the block, and so its length did not wrap.
          obtain ⟨hlen, hsub⟩ := payload_length hsize hjpeg
          have hin : off + len.toNat ≤ data.length := by omega
          refine ⟨.jpeg hhead hlen hin (dumpBlobs_dumpable hdump), Or.inr ⟨off, len, ?_⟩⟩
          rw [hsub] at hjpeg
          exact ⟨.here hhead hlen hin, rfl, by rw [(slice_eq_some.mp hjpeg).2]⟩

theorem Walkable.ends (h : Walkable params data off) :
    ∃ fuel ret file', walkBlobs params data file fuel off = some (ret, file') := by
  induction h with
  | done hoff => exact ⟨1, gpError, file, by rw [walkBlobs, if_pos hoff]⟩
  | skip hhead htype hlen hin _ ih =>
    obtain ⟨fuel, ret, file', hrest⟩ := ih
    refine ⟨fuel + 1, ret, file', ?_⟩
    rw [walkBlobs_skip hhead htype, gpLogData_eq_some.mpr (Or.inr hin)]
    exact hrest
  | cut hhead hlen => exact ⟨1, gpError, file, by rw [walkBlobs_jpeg hhead, if_pos hlen]⟩
  | @jpeg off len hhead hlen hin hrest =>
    obtain ⟨fuel, hdump⟩ := hrest.ends
    have hsub : (len - 8).toNat = len.toNat - 8 := UInt32.toNat_sub_of_le len 8 hlen
    refine ⟨fuel + 1, 0, file ++ (data.drop (off + 8)).take (len.toNat - 8), ?_⟩
    rw [walkBlobs_jpeg hhead, if_neg (by omega), hsub,
      slice_eq_some.mpr (And.intro (by omega : off + 8 + (len.toNat - 8) ≤ data.length) rfl), hdump]
    rfl

/-! ### Main results -/

/-- The walk does what it is meant to do exactly for the blocks that can be walked. -/
theorem viewfinder_sound_iff (params : PTPParams) (block : ViewfinderBlock) (file : List UInt8) :
    ViewfinderSound params block file ↔ Walkable params block.data 0 := by
  constructor
  · rintro ⟨fuel, ret, file', hrun, _⟩
    exact (walkBlobs_cases block.size_lt hrun).1
  · intro h
    obtain ⟨fuel, ret, file', hrun⟩ := h.ends
    exact ⟨fuel, ret, file', hrun, (walkBlobs_cases block.size_lt hrun).2⟩

/-- A block of a single header with length 0 and type 2 is walked for ever. -/
theorem viewfinder_endless :
    ¬ ∀ params block file, ViewfinderSound params block file := by
  intro h
  obtain ⟨fuel, ret, file', hrun, _⟩ :=
    h ⟨.little, none, false⟩ ⟨[0, 0, 0, 0, 2, 0, 0, 0], by decide⟩ []
  rw [walkBlobs_zero (by decide : blobHeader _ _ 0 = some (0, 2)) (by decide)] at hrun
  cases hrun

end GPhoto2
