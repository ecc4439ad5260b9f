import GPhoto2.File.Copy
import GPhoto2.Proofs.File.MemoryFile

/-!
# `GPhoto2.Proofs.File.Copy`: when a copied file is whole

`CopyRight`: where `gp_file_copy` succeeds the destination has the content of the source, and
where it fails both files stay valid. `readLoop_eq_some`, `writeLoop_some` and `copyLoop_some`
say what the loops do for the answers that they get; `gpFileCopy_iff` says for which answers,
destinations and sources a copy is right.
-/

set_option autoImplicit false

namespace GPhoto2

open Lib
open List (append_nil drop_drop length_append length_drop length_nil length_take length_take_of_le
  nil_append take_add take_length take_zero)
open Option (bind_eq_some_iff map_eq_some_iff)

/-! ### What is copied -/

def MemoryFile.Valid (file : MemoryFile) : Prop := Allocated file.data file.size

/-- The file can be cleaned and freed, and used as before. -/
def AnyFile.Valid : AnyFile → Prop
  | .memory file => file.Valid
  | .fd _ => True

/-- The whole content. Behind a descriptor that is not open there is none. -/
def AnyFile.content : AnyFile → List UInt8
  | .memory file => file.content
  | .fd file => (file.fd.map OpenFile.content).getD []

def AnyFile.generic : AnyFile → GenericFields
  | .memory file => file.generic
  | .fd file => file.generic

def CopyRun.destination : CopyRun → AnyFile
  | .memoryMemory destination _ => .memory destination
  | .fdMemory destination _ _ => .memory destination
  | .fdFd destination _ _ => .fd destination
  | .memoryFd destination _ _ => .fd destination

def CopyRun.source : CopyRun → AnyFile
  | .memoryMemory _ source => .memory source
  | .fdMemory _ source _ => .fd source
  | .fdFd _ source _ => .fd source
  | .memoryFd _ source _ => .memory source

/-- What a copy should leave, if it succeeds and if it fails. -/
structure CopyRight (original : AnyFile) (ret : Int) (destination source : AnyFile) : Prop where
  whole : ret = 0 → destination.content = original.content ∧
    destination.generic = original.generic
  valid : ret ≠ 0 → destination.Valid ∧ source.Valid

/-! ### What the answers say -/

/-- A call fails. -/
def HasFailure (rounds : List Round) : Prop :=
  ∃ round ∈ rounds, round.read = .failed ∨ .failed ∈ round.writes

/-- A `write` takes nothing. -/
def HasNoProgress (rounds : List Round) : Prop := ∃ round ∈ rounds, .moved 0 ∈ round.writes

/-- How many bytes all `read` calls bring. -/
def readSum : List Round → Nat
  | [] => 0
  | ⟨.failed, _⟩ :: rounds => readSum rounds
  | ⟨.moved k, _⟩ :: rounds => k + readSum rounds

/-- The source cannot be copied into memory without a failure: its descriptor is open and no
`read` fails. If it is not open, there must have been nothing in the destination. -/
def ReadsOk (destination : MemoryFile) (source : FdFile) (reads : List Answer) : Prop :=
  match source.fd with
  | none => destination.size = 0
  | some _ => .failed ∉ reads

/-- Between two descriptors: a call fails, or each `write` takes something and the `read` calls
bring the whole source. -/
def RoundsOk (source : FdFile) (rounds : List Round) : Prop :=
  HasFailure rounds ∨
    (¬HasNoProgress rounds ∧ readSum rounds = (AnyFile.fd source).content.length)

/-- From memory to a descriptor: a `write` fails or takes nothing, or the destination is not open
or has been no longer than the source and, if there is anything to write, is at its start. -/
def WritesOk (destination : FdFile) (source : MemoryFile) (writes : List Answer) : Prop :=
  .failed ∈ writes ∨ .moved 0 ∈ writes ∨
    ∀ file ∈ destination.fd,
      file.content.length ≤ source.size ∧ (source.size = 0 ∨ file.pos = 0)

/-- The files and the answers for which a copy is right. -/
def CopyOk : CopyRun → Prop
  | .memoryMemory _ _ => True
  | .fdMemory destination source reads => ReadsOk destination source reads
  | .fdFd _ source rounds => RoundsOk source rounds
  | .memoryFd destination source writes => WritesOk destination source writes

/-! ### `read` -/

variable {file : OpenFile}

theorem sysRead_eq_some {file' : OpenFile} {n k : Nat} {bytes : List UInt8}
    (h : sysRead file n k = some (bytes, file')) :
    k ≤ ((file.content.drop file.pos).take n).length ∧
      (k = 0 → (file.content.drop file.pos).take n = []) ∧
      bytes = (file.content.drop file.pos).take k ∧
      file' = { file with pos := file.pos + k } := by
  unfold sysRead at h
  by_cases hk : k ≤ ((file.content.drop file.pos).take n).length ∧
      (k = 0 → (file.content.drop file.pos).take n = [])
  · simp only [if_pos hk] at h
    cases h
    refine ⟨hk.1, hk.2, ?_, rfl⟩
    have hle := hk.1
    rw [length_take] at hle
    rw [List.take_take, Nat.min_eq_left (by omega)]
  · simp only [if_neg hk] at h
    cases h

theorem readLoop_eq_some {reads : List Answer} {file' : OpenFile} {n : Nat}
    {out : Option (List UInt8)} (hn : n ≤ (file.content.drop file.pos).length)
    (h : readLoop reads file n = some (out, file')) :
    (.failed ∈ reads → out = none) ∧
      (.failed ∉ reads → out = some ((file.content.drop file.pos).take n)) := by
  induction reads generalizing file n out with
  | nil =>
    unfold readLoop at h
    by_cases hzero : n = 0
    · rw [if_pos hzero] at h
      cases h
      refine ⟨fun hmem => absurd hmem List.not_mem_nil, fun _ => ?_⟩
      rw [hzero, take_zero]
    · rw [if_neg hzero] at h
      cases h
  | cons answer reads ih =>
    unfold readLoop at h
    by_cases hzero : n = 0
    · rw [if_pos hzero] at h
      cases h
    rw [if_neg hzero] at h
    cases answer with
    | failed =>
      simp only at h
      by_cases hlast : reads = []
      · rw [if_pos hlast] at h
        cases h
        exact ⟨fun _ => rfl, fun hmem => absurd List.mem_cons_self hmem⟩
      · rw [if_neg hlast] at h
        cases h
    | moved k =>
      obtain ⟨⟨bytes, next⟩, hread, h⟩ := bind_eq_some_iff.mp h
      obtain ⟨hk, hend, rfl, rfl⟩ := sysRead_eq_some hread
      rw [length_take] at hk
      by_cases hkz : k = 0
      · -- the file does not end here
        have hlen := congrArg List.length (hend hkz)
        rw [length_take, length_nil] at hlen
        omega
      rw [if_neg hkz] at h
      obtain ⟨⟨rest, last⟩, hrest, h⟩ := map_eq_some_iff.mp h
      cases h
      have hdrop : (file.content.drop (file.pos + k)).length =
          (file.content.drop file.pos).length - k := by
        rw [length_drop, length_drop]
        omega
      obtain ⟨hfailed, hwhole⟩ := ih (by rw [hdrop]; omega) hrest
      have hiff : Answer.failed ∈ Answer.moved k :: reads ↔ Answer.failed ∈ reads := by simp
      rw [hiff]
      refine ⟨fun hmem => by rw [hfailed hmem]; rfl, fun hmem => ?_⟩
      rw [hwhole hmem]
      refine congrArg some ?_
      show (file.content.drop file.pos).take k ++ (file.content.drop (file.pos + k)).take (n - k) =
        (file.content.drop file.pos).take n
      have hsplit : n = k + (n - k) := by omega
      conv_rhs => rw [hsplit, take_add, drop_drop]

/-! ### `write` -/

theorem writeAt_nil (content : List UInt8) (pos : Nat) : writeAt content pos [] = content :=
  if_pos rfl

theorem writeAt_end (content bytes : List UInt8) :
    writeAt content content.length bytes = content ++ bytes := by
  unfold writeAt
  by_cases hempty : bytes = []
  · rw [if_pos hempty, hempty, append_nil]
  · rw [if_neg hempty, take_length, Nat.sub_self, List.replicate_zero, append_nil,
      List.drop_eq_nil_of_le (Nat.le_add_right _ _), append_nil]

theorem length_writeAt (content : List UInt8) (pos : Nat) {bytes : List UInt8}
    (h : bytes ≠ []) :
    (writeAt content pos bytes).length = max content.length (pos + bytes.length) := by
  unfold writeAt
  rw [if_neg h, length_append, length_append, length_append, length_take,
    List.length_replicate, length_drop]
  omega

theorem writeAt_append (content : List UInt8) (pos : Nat) (a b : List UInt8) :
    writeAt (writeAt content pos a) (pos + a.length) b = writeAt content pos (a ++ b) := by
  by_cases ha : a = []
  · rw [ha, writeAt_nil, length_nil, Nat.add_zero, nil_append]
  by_cases hb : b = []
  · rw [hb, writeAt_nil, append_nil]
  have hab : a ++ b ≠ [] := fun h => ha (List.append_eq_nil_iff.mp h).1
  have hlen := length_writeAt content pos ha
  have hend : pos + (a ++ b).length = pos + a.length + b.length := by
    rw [length_append, Nat.add_assoc]
  have hstart : (content.take pos ++ List.replicate (pos - content.length) 0 ++ a).length =
      pos + a.length := by
    simp only [length_append, length_take, List.length_replicate]
    omega
  unfold writeAt at hlen ⊢
  simp only [if_neg ha, if_neg hb, if_neg hab, ← List.append_assoc] at hlen ⊢
  rw [hend]
  generalize content.take pos ++ List.replicate (pos - content.length) 0 ++ a = start at *
  rw [hlen, Nat.sub_eq_zero_of_le (Nat.le_max_right _ _), List.replicate_zero, append_nil,
    ← hstart, List.take_left, ← drop_drop, List.drop_left, drop_drop]

/-- Only the bytes themselves are there just if they cover what was there before. -/
theorem writeAt_eq_iff (content : List UInt8) (pos : Nat) (bytes : List UInt8) :
    writeAt content pos bytes = bytes ↔
      content.length ≤ bytes.length ∧ (bytes.length = 0 ∨ pos = 0) := by
  by_cases hempty : bytes = []
  · rw [hempty, writeAt_nil, length_nil, Nat.le_zero, List.length_eq_zero_iff]
    simp
  have hpos : 0 < bytes.length := List.length_pos_iff.mpr hempty
  constructor
  · intro h
    have hlen := length_writeAt content pos hempty
    rw [h] at hlen
    omega
  · intro ⟨hle, hstart⟩
    have hzero : pos = 0 := by omega
    unfold writeAt
    rw [if_neg hempty, hzero, Nat.zero_sub, take_zero, List.replicate_zero, nil_append,
      nil_append, Nat.zero_add, List.drop_eq_nil_of_le hle, append_nil]

variable {data : List UInt8}

theorem sysWrite_eq_some {file' : OpenFile} {k : Nat}
    (h : sysWrite file data k = some file') :
    k ≤ data.length ∧ file' = ⟨writeAt file.content file.pos (data.take k), file.pos + k⟩ := by
  unfold sysWrite at h
  by_cases hk : k ≤ data.length
  · rw [if_pos hk] at h
    cases h
    exact ⟨hk, rfl⟩
  · rw [if_neg hk] at h
    cases h

variable {writes : List Answer} {ending : WriteEnd}

theorem writeLoop_end {file file' : Option OpenFile}
    (h : writeLoop writes file data = some (ending, file')) :
    (ending = .failed ↔ .failed ∈ writes) ∧ (ending = .noProgress ↔ .moved 0 ∈ writes) := by
  induction writes generalizing file data with
  | nil =>
    unfold writeLoop at h
    by_cases hempty : data = []
    · rw [if_pos hempty] at h
      cases h
      simp
    · rw [if_neg hempty] at h
      cases h
  | cons answer writes ih =>
    unfold writeLoop at h
    by_cases hempty : data = []
    · rw [if_pos hempty] at h
      cases h
    rw [if_neg hempty] at h
    cases answer with
    | failed =>
      simp only at h
      by_cases hlast : writes = []
      · rw [if_pos hlast] at h
        cases h
        simp [hlast]
      · rw [if_neg hlast] at h
        cases h
    | moved k =>
      obtain ⟨open₁, -, h⟩ := bind_eq_some_iff.mp h
      obtain ⟨open₂, -, h⟩ := bind_eq_some_iff.mp h
      by_cases hkz : k = 0
      · rw [if_pos hkz] at h
        by_cases hlast : writes = []
        · rw [if_pos hlast] at h
          cases h
          simp [hlast, hkz]
        · rw [if_neg hlast] at h
          cases h
      · rw [if_neg hkz] at h
        have hrest := ih h
        simp [hrest.1, hrest.2, Ne.symm hkz]

/-- Some of the bytes are written, and all of them if the loop is done. -/
theorem writeLoop_some {file' : Option OpenFile}
    (h : writeLoop writes (some file) data = some (ending, file')) :
    ∃ j ≤ data.length, (ending = .done → j = data.length) ∧
      (ending = .noProgress → j < data.length) ∧
      file' = some ⟨writeAt file.content file.pos (data.take j), file.pos + j⟩ := by
  induction writes generalizing file data with
  | nil =>
    unfold writeLoop at h
    by_cases hempty : data = []
    · rw [if_pos hempty] at h
      cases h
      refine ⟨0, Nat.zero_le _, fun _ => by rw [hempty]; rfl, (by intro hend; cases hend), ?_⟩
      rw [take_zero, writeAt_nil]
      rfl
    · rw [if_neg hempty] at h
      cases h
  | cons answer writes ih =>
    unfold writeLoop at h
    by_cases hempty : data = []
    · rw [if_pos hempty] at h
      cases h
    rw [if_neg hempty] at h
    cases answer with
    | failed =>
      simp only at h
      by_cases hlast : writes = []
      · rw [if_pos hlast] at h
        cases h
        refine ⟨0, Nat.zero_le _, (by intro hend; cases hend), (by intro hend; cases hend), ?_⟩
        rw [take_zero, writeAt_nil]
        rfl
      · rw [if_neg hlast] at h
        cases h
    | moved k =>
      obtain ⟨open₁, hopen, h⟩ := bind_eq_some_iff.mp h
      cases hopen
      obtain ⟨next, hwrite, h⟩ := bind_eq_some_iff.mp h
      obtain ⟨hk, rfl⟩ := sysWrite_eq_some hwrite
      by_cases hkz : k = 0
      · rw [if_pos hkz] at h
        by_cases hlast : writes = []
        · rw [if_pos hlast] at h
          cases h
          refine ⟨0, Nat.zero_le _, (by intro hend; cases hend),
            fun _ => List.length_pos_iff.mpr hempty, ?_⟩
          rw [hkz]
        · rw [if_neg hlast] at h
          cases h
      · rw [if_neg hkz] at h
        obtain ⟨j, hj, hdone, hno, hfile⟩ := ih h
        rw [length_drop] at hj hdone hno
        refine ⟨k + j, by omega, fun hend => ?_, fun hend => ?_, ?_⟩
        · have hlen := hdone hend
          omega
        · have hlen := hno hend
          omega
        · rw [hfile]
          have htake : (data.take k).length = k := length_take_of_le hk
          have hcontent := writeAt_append file.content file.pos (data.take k)
            ((data.drop k).take j)
          rw [htake] at hcontent
          simp only [hcontent, take_add, Nat.add_assoc]

theorem writeLoop_none {file' : Option OpenFile}
    (h : writeLoop writes none data = some (ending, file')) :
    file' = none ∧ (ending = .failed ∨ (data = [] ∧ ending = .done)) := by
  cases writes with
  | nil =>
    unfold writeLoop at h
    by_cases hempty : data = []
    · rw [if_pos hempty] at h
      cases h
      exact ⟨rfl, Or.inr ⟨hempty, rfl⟩⟩
    · rw [if_neg hempty] at h
      cases h
  | cons answer writes =>
    unfold writeLoop at h
    by_cases hempty : data = []
    · rw [if_pos hempty] at h
      cases h
    rw [if_neg hempty] at h
    cases answer with
    | failed =>
      simp only at h
      by_cases hlast : writes = []
      · rw [if_pos hlast] at h
        cases h
        exact ⟨rfl, Or.inl rfl⟩
      · rw [if_neg hlast] at h
        cases h
    | moved k => cases h

/-! ### Between two descriptors -/

theorem hasFailure_cons (round : Round) (rounds : List Round) :
    HasFailure (round :: rounds) ↔
      round.read = .failed ∨ .failed ∈ round.writes ∨ HasFailure rounds := by
  simp [HasFailure, or_assoc]

theorem hasNoProgress_cons (round : Round) (rounds : List Round) :
    HasNoProgress (round :: rounds) ↔ .moved 0 ∈ round.writes ∨ HasNoProgress rounds := by
  simp [HasNoProgress]

theorem not_hasFailure_nil : ¬HasFailure [] := by simp [HasFailure]

theorem not_hasNoProgress_nil : ¬HasNoProgress [] := by simp [HasNoProgress]

variable {rounds : List Round} {out : Int × Option OpenFile × Option OpenFile}

theorem copyLoop_cases {round : Round} {d s : Option OpenFile}
    (h : copyLoop (round :: rounds) d s = some out) :
    (round.read = .failed ∧ out.1 = gpErrorIoRead) ∨
      ∃ file k, s = some file ∧ round.read = .moved k ∧
        k ≤ min 65536 (file.content.drop file.pos).length ∧
        ((k = 0 ∧ file.content.drop file.pos = [] ∧ round.writes = [] ∧ rounds = [] ∧
            out.1 = 0 ∧ out.2.1 = d) ∨
          ∃ ending written,
            writeLoop round.writes d ((file.content.drop file.pos).take k) =
              some (ending, written) ∧ k ≠ 0 ∧
            ((ending = .failed ∧ out.1 = gpErrorIoWrite) ∨
              (ending ≠ .failed ∧ rounds = [] ∧ out.1 = 0 ∧ out.2.1 = written) ∨
              (ending ≠ .failed ∧
                copyLoop rounds written (some { file with pos := file.pos + k }) = some out))) := by
  obtain ⟨read, writes⟩ := round
  unfold copyLoop at h
  cases read with
  | failed =>
    simp only at h
    by_cases hlast : writes = [] ∧ rounds = []
    · rw [if_pos hlast] at h
      cases h
      exact Or.inl ⟨rfl, rfl⟩
    · rw [if_neg hlast] at h
      cases h
  | moved k =>
    cases s with
    | none => cases h
    | some file => ?_
    simp only [Option.bind_some] at h
    obtain ⟨⟨bytes, next⟩, hread, h⟩ := bind_eq_some_iff.mp h
    obtain ⟨hk, hend, rfl, rfl⟩ := sysRead_eq_some hread
    rw [length_take] at hk
    refine Or.inr ⟨file, k, rfl, rfl, hk, ?_⟩
    by_cases hkz : k = 0
    · rw [if_pos hkz] at h
      by_cases hlast : writes = [] ∧ rounds = []
      · rw [if_pos hlast] at h
        cases h
        have hrest : file.content.drop file.pos = [] := by
          rcases List.take_eq_nil_iff.mp (hend hkz) with h | h
          · omega
          · exact h
        exact Or.inl ⟨hkz, hrest, hlast.1, hlast.2, rfl, rfl⟩
      · rw [if_neg hlast] at h
        cases h
    · rw [if_neg hkz] at h
      obtain ⟨⟨ending, written⟩, hwritten, h⟩ := bind_eq_some_iff.mp h
      refine Or.inr ⟨ending, written, hwritten, hkz, ?_⟩
      by_cases hfailed : ending = .failed
      · rw [if_pos hfailed] at h
        by_cases hlast : rounds = []
        · rw [if_pos hlast] at h
          cases h
          exact Or.inl ⟨hfailed, rfl⟩
        · rw [if_neg hlast] at h
          cases h
      rw [if_neg hfailed] at h
      by_cases hshort : k < 65536
      · rw [if_pos hshort] at h
        by_cases hlast : rounds = []
        · rw [if_pos hlast] at h
          cases h
          exact Or.inr (Or.inl ⟨hfailed, hlast, rfl, rfl⟩)
        · rw [if_neg hlast] at h
          cases h
      · rw [if_neg hshort] at h
        exact Or.inr (Or.inr ⟨hfailed, h⟩)

theorem copyLoop_code {d s : Option OpenFile}
    (h : copyLoop rounds d s = some out) :
    out.1 ≠ 0 ↔ HasFailure rounds := by
  induction rounds generalizing d s with
  | nil => cases h
  | cons round rounds ih =>
    rw [hasFailure_cons]
    rcases copyLoop_cases h with ⟨hread, hout⟩ | ⟨file, k, -, hread, -, hround⟩
    · rw [hout]
      exact ⟨fun _ => Or.inl hread, fun _ => by decide⟩
    rcases hround with ⟨-, -, hwrites, hrounds, hout, -⟩ | ⟨ending, written, hwritten, -, hround⟩
    · rw [hout, hread, hwrites, hrounds]
      simp [not_hasFailure_nil]
    have hend := (writeLoop_end hwritten).1
    rw [hread, ← hend]
    rcases hround with ⟨hfailed, hout⟩ | ⟨hfailed, hrounds, hout, -⟩ | ⟨hfailed, hrest⟩
    · rw [hout]
      exact ⟨fun _ => Or.inr (Or.inl hfailed), fun _ => by decide⟩
    · rw [hout, hrounds]
      simp [hfailed, not_hasFailure_nil]
    · rw [ih hrest]
      simp [hfailed]

theorem copyLoop_closed_source {d : Option OpenFile}
    (h : copyLoop rounds d none = some out) :
    HasFailure rounds := by
  cases rounds with
  | nil => cases h
  | cons round rounds =>
    rcases copyLoop_cases h with ⟨hread, -⟩ | ⟨file, k, hfile, -⟩
    · exact (hasFailure_cons round rounds).mpr (Or.inl hread)
    · cases hfile

theorem copyLoop_closed_destination
    (h : copyLoop rounds none (some file) = some out) (hfail : ¬HasFailure rounds) :
    out.2.1 = none ∧ file.content.drop file.pos = [] ∧ readSum rounds = 0 ∧
      ¬HasNoProgress rounds := by
  cases rounds with
  | nil => cases h
  | cons round rounds =>
    rw [hasFailure_cons, not_or, not_or] at hfail
    rcases copyLoop_cases h with ⟨hread, -⟩ | ⟨file, k, hfile, hread, hk, hround⟩
    · exact absurd hread hfail.1
    cases hfile
    rcases hround with
      ⟨hkz, hempty, hwrites, hrounds, -, hout⟩ | ⟨ending, written, hwritten, hkz, -⟩
    · obtain ⟨read, writes⟩ := round
      simp only at hread hwrites
      subst hread hwrites hrounds hkz
      refine ⟨hout, hempty, rfl, ?_⟩
      rw [hasNoProgress_cons]
      simp [not_hasNoProgress_nil]
    · -- something was read, and could not be written
      have hend := (writeLoop_end hwritten).1
      rcases (writeLoop_none hwritten).2 with hfailed | ⟨hnil, -⟩
      · exact absurd (hend.mp hfailed) hfail.2.1
      · have hlen := congrArg List.length hnil
        rw [length_take, length_nil] at hlen
        omega

/-- What comes behind the earlier content of the destination: all that is read, unless a `write`
takes nothing. -/
theorem copyLoop_some {content : List UInt8}
    (h : copyLoop rounds (some ⟨content, content.length⟩) (some file) = some out)
    (hfail : ¬HasFailure rounds) :
    ∃ bytes, out.2.1 = some ⟨content ++ bytes, (content ++ bytes).length⟩ ∧
      bytes.length ≤ readSum rounds ∧
      readSum rounds ≤ (file.content.drop file.pos).length ∧
      (HasNoProgress rounds → bytes.length < readSum rounds) ∧
      (¬HasNoProgress rounds → bytes = (file.content.drop file.pos).take (readSum rounds)) := by
  induction rounds generalizing content file with
  | nil => cases h
  | cons round rounds ih =>
    rw [hasFailure_cons, not_or, not_or] at hfail
    obtain ⟨hnofail, hnofailed, hfail⟩ := hfail
    rw [hasNoProgress_cons]
    rcases copyLoop_cases h with ⟨hread, -⟩ | ⟨source, k, hsource, hread, hk, hround⟩
    · exact absurd hread hnofail
    cases hsource
    have hsum : readSum (round :: rounds) = k + readSum rounds := by
      obtain ⟨read, writes⟩ := round
      simp only at hread
      rw [hread, readSum]
    rw [hsum]
    rcases hround with
      ⟨hkz, hempty, hwrites, hrounds, -, hout⟩ | ⟨ending, written, hwritten, -, hround⟩
    · refine ⟨[], ?_, Nat.zero_le _, ?_, ?_, ?_⟩
      · rw [hout, append_nil]
      · rw [hrounds, hkz]
        exact Nat.zero_le _
      · rw [hwrites, hrounds]
        simp [not_hasNoProgress_nil]
      · rw [hempty, List.take_nil]
        exact fun _ => rfl
    -- the piece that was read, and how much of it was written
    obtain ⟨j, hj, hdone, hno, rfl⟩ := writeLoop_some hwritten
    have hpiece : ((file.content.drop file.pos).take k).length = k :=
      length_take_of_le (by omega)
    obtain ⟨hfailed, hnoProgress⟩ := writeLoop_end hwritten
    rw [← hnoProgress]
    rw [hpiece] at hj hdone hno
    rw [writeAt_end, List.take_take, Nat.min_eq_left hj] at hround
    have hj' : ((file.content.drop file.pos).take j).length = j :=
      length_take_of_le (by omega)
    have hlen : (content ++ (file.content.drop file.pos).take j).length = content.length + j := by
      rw [length_append, hj']
    have hall : ending ≠ .failed → ending ≠ .noProgress → j = k := by
      intro hnot hnot'
      cases ending with
      | done => exact hdone rfl
      | failed => exact absurd rfl hnot
      | noProgress => exact absurd rfl hnot'
    rcases hround with ⟨hend, -⟩ | ⟨hend, hrounds, -, hout⟩ | ⟨hend, hrest⟩
    · exact absurd (hfailed.mp hend) hnofailed
    · rw [hrounds, readSum, Nat.add_zero]
      refine ⟨(file.content.drop file.pos).take j, ?_, by omega, by omega, ?_, ?_⟩
      · rw [hout, hlen]
      · intro hprogress
        have hlt := hno (hprogress.resolve_right not_hasNoProgress_nil)
        omega
      · intro hprogress
        rw [hall hend (fun h => hprogress (Or.inl h))]
    · rw [← hlen] at hrest
      obtain ⟨bytes, hout, hle, hsumLe, hlt, hwhole⟩ := ih hrest hfail
      have hdrop : (file.content.drop (file.pos + k)).length =
          (file.content.drop file.pos).length - k := by
        rw [length_drop, length_drop]
        omega
      simp only [hdrop] at hsumLe
      refine ⟨(file.content.drop file.pos).take j ++ bytes, ?_, ?_, by omega, ?_, ?_⟩
      · rw [hout, List.append_assoc]
      · rw [length_append, hj']
        omega
      · intro hprogress
        rw [length_append, hj']
        rcases hprogress with hprogress | hprogress
        · have hfirst := hno hprogress
          omega
        · have hthen := hlt hprogress
          omega
      · intro hprogress
        rw [hwhole (fun h => hprogress (Or.inr h)), hall hend (fun h => hprogress (Or.inl h)),
          take_add, drop_drop]

/-! ### Whole copies -/

theorem copyRight_ok {original destination source : AnyFile}
    (hgeneric : destination.generic = original.generic) :
    CopyRight original 0 destination source ↔ destination.content = original.content := by
  constructor
  · intro h
    exact (h.whole rfl).1
  · intro h
    exact ⟨fun _ => ⟨h, hgeneric⟩, fun hret => absurd rfl hret⟩

variable {ret : Int}

theorem copyRight_failed {original destination source : AnyFile} (hret : ret ≠ 0) :
    CopyRight original ret destination source ↔ destination.Valid ∧ source.Valid := by
  constructor
  · intro h
    exact h.valid hret
  · intro h
    exact ⟨fun hzero => absurd hzero hret, fun _ => h⟩

theorem content_fd {source : FdFile} (h : source.fd = some file) :
    (AnyFile.fd source).content = file.content := by
  simp [AnyFile.content, h]

theorem memoryMemory_right {destination source : MemoryFile} {d s : AnyFile}
    (hsource : source.Valid)
    (h : CopyRun.gpFileCopy (.memoryMemory destination source) = some (ret, d, s)) :
    CopyRight (.memory source) ret d s := by
  obtain ⟨r, hr, h⟩ := map_eq_some_iff.mp h
  cases h
  have hread : readBlock source.data 0 source.size = some source.content :=
    readBlock_allocated hsource (Nat.le_of_eq (Nat.zero_add _))
  unfold copyMemoryMemory at hr
  obtain ⟨-, -, hr⟩ := bind_eq_some_iff.mp hr
  rw [hread] at hr
  cases hr
  have hlen : source.content.length = source.size := length_take_of_le hsource.le
  refine (copyRight_ok (by rfl)).mpr ?_
  show source.content.take source.size = source.content
  rw [← hlen, take_length]

theorem fdMemory_iff {destination : MemoryFile} {source : FdFile} {reads : List Answer}
    {d s : AnyFile}
    (h : CopyRun.gpFileCopy (.fdMemory destination source reads) = some (ret, d, s)) :
    CopyRight (.fd source) ret d s ↔ ReadsOk destination source reads := by
  obtain ⟨⟨reading, file'⟩, hreading, h⟩ := bind_eq_some_iff.mp h
  obtain ⟨r, hr, h⟩ := map_eq_some_iff.mp h
  obtain ⟨-, -, rfl⟩ := map_eq_some_iff.mp hr
  cases h
  unfold ReadsOk
  cases hfd : source.fd with
  | none =>
    rw [hfd] at hreading
    unfold readFd at hreading
    simp only at hreading
    by_cases hlast : reads = []
    · rw [if_pos hlast] at hreading
      cases hreading
      refine (copyRight_failed (show gpErrorIo ≠ 0 by decide)).trans ?_
      exact ⟨fun hvalid => hvalid.1, fun hsize => ⟨hsize, trivial⟩⟩
    · rw [if_neg hlast] at hreading
      cases hreading
  | some file =>
    rw [hfd] at hreading
    obtain ⟨⟨out, last⟩, hread, hreading⟩ := map_eq_some_iff.mp hreading
    cases hreading
    obtain ⟨hfailed, hwhole⟩ := readLoop_eq_some (Nat.le_refl file.content.length) hread
    show _ ↔ Answer.failed ∉ reads
    by_cases hmem : Answer.failed ∈ reads
    · rw [hfailed hmem]
      -- the destination still points to the block that was freed
      refine (copyRight_failed (show gpErrorIoRead ≠ 0 by decide)).trans ?_
      exact ⟨fun hvalid => hvalid.1.elim, fun hnot => absurd hmem hnot⟩
    · rw [hwhole hmem]
      refine (copyRight_ok (by rfl)).trans (iff_of_true ?_ hmem)
      rw [content_fd hfd]
      show (file.content.take file.content.length).take
        (file.content.take file.content.length).length = file.content
      rw [take_length, take_length]

theorem fdFd_iff {destination source : FdFile} {d s : AnyFile}
    (h : CopyRun.gpFileCopy (.fdFd destination source rounds) = some (ret, d, s)) :
    CopyRight (.fd source) ret d s ↔ RoundsOk source rounds := by
  obtain ⟨⟨code, written, last⟩, hloop, h⟩ := map_eq_some_iff.mp h
  cases h
  have hcode := copyLoop_code hloop
  unfold RoundsOk
  by_cases hfail : HasFailure rounds
  · refine (copyRight_failed (hcode.mpr hfail)).trans ?_
    exact iff_of_true ⟨trivial, trivial⟩ (Or.inl hfail)
  have hzero : code = 0 := by
    by_contra hret
    exact hfail (hcode.mp hret)
  subst hzero
  refine (copyRight_ok (by rfl)).trans ?_
  rw [or_iff_right hfail]
  cases hsource : source.fd with
  | none =>
    rw [hsource] at hloop
    exact absurd (copyLoop_closed_source hloop) hfail
  | some file =>
    rw [hsource] at hloop
    rw [content_fd hsource]
    cases hdestination : destination.fd with
    | none =>
      rw [hdestination] at hloop
      obtain ⟨hout, hempty, hsum, hprogress⟩ := copyLoop_closed_destination hloop hfail
      have hcontent : file.content = [] := hempty
      simp only at hout
      rw [hout, hcontent, hsum]
      exact iff_of_true rfl ⟨hprogress, rfl⟩
    | some earlier =>
      rw [hdestination] at hloop
      obtain ⟨bytes, hout, -, hsum, hlt, hwhole⟩ := copyLoop_some hloop hfail
      replace hsum : readSum rounds ≤ file.content.length := hsum
      replace hwhole : ¬HasNoProgress rounds → bytes = file.content.take (readSum rounds) := hwhole
      simp only at hout
      rw [hout]
      show bytes = file.content ↔ _
      constructor
      · intro hbytes
        rw [hbytes] at hlt hwhole
        have hprogress : ¬HasNoProgress rounds := by
          intro hprogress
          have hshort := hlt hprogress
          omega
        have hlen := congrArg List.length (hwhole hprogress)
        rw [length_take] at hlen
        exact ⟨hprogress, by omega⟩
      · intro ⟨hprogress, hlen⟩
        rw [hwhole hprogress, hlen, take_length]

theorem memoryFd_iff {destination : FdFile} {source : MemoryFile}
    {d s : AnyFile} (hsource : source.Valid)
    (h : CopyRun.gpFileCopy (.memoryFd destination source writes) = some (ret, d, s)) :
    CopyRight (.memory source) ret d s ↔ WritesOk destination source writes := by
  obtain ⟨bytes, hread, h⟩ := bind_eq_some_iff.mp h
  obtain ⟨⟨ending, written⟩, hloop, h⟩ := map_eq_some_iff.mp h
  cases h
  have hcontent : readBlock source.data 0 source.size = some source.content :=
    readBlock_allocated hsource (Nat.le_of_eq (Nat.zero_add _))
  rw [hcontent] at hread
  cases hread
  have hlen : source.content.length = source.size := length_take_of_le hsource.le
  obtain ⟨hfailed, hnoProgress⟩ := writeLoop_end hloop
  unfold WritesOk
  rw [← hfailed, ← hnoProgress]
  cases ending with
  | failed =>
    refine (copyRight_failed (show gpErrorIoWrite ≠ 0 by decide)).trans ?_
    exact iff_of_true ⟨trivial, hsource⟩ (Or.inl rfl)
  | noProgress =>
    refine (copyRight_failed (show gpErrorIoWrite ≠ 0 by decide)).trans ?_
    exact iff_of_true ⟨trivial, hsource⟩ (Or.inr (Or.inl rfl))
  | done =>
    refine (copyRight_ok (by rfl)).trans ?_
    simp only [reduceCtorEq, false_or]
    show (AnyFile.fd ⟨source.generic, written⟩).content = source.content ↔ _
    cases hfd : destination.fd with
    | none =>
      rw [hfd] at hloop
      obtain ⟨rfl, hend | ⟨hempty, -⟩⟩ := writeLoop_none hloop
      · cases hend
      · rw [hempty]
        exact iff_of_true rfl (by simp)
    | some file =>
      rw [hfd] at hloop
      obtain ⟨j, -, hdone, -, rfl⟩ := writeLoop_some hloop
      rw [hdone rfl, take_length]
      simp only [Option.mem_some_iff, forall_eq', ← hlen]
      exact writeAt_eq_iff file.content file.pos source.content

end GPhoto2
