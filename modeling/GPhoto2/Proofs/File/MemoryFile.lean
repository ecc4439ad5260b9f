import GPhoto2.File.MemoryFile

/-!
# `GPhoto2.Proofs.File.MemoryFile`: the read offset of a memory file

`Intact`: the offset is not beyond the size, and so many bytes are allocated. Then
`gpFileSlurp_intact` and `gpFileAppend_intact` say what a reader sees. The operations that
replace the data do not touch the offset, so they keep this only if the new data are long enough
(`StepOk`): `stepFiles_iff` for one step, and from it by induction `memoryFiles_iff` for a run.
-/

set_option autoImplicit false

namespace GPhoto2

open Lib

/-! ### Intact files -/

/-- So many bytes are allocated. -/
def Allocated : Block → Nat → Prop
  | .null, size => size = 0
  | .bytes block, size => size ≤ block.length
  | .freed, _ => False

/-- The offset is at most the size, and size bytes are allocated. -/
structure Intact (file : MemoryFile) : Prop where
  offset_le : file.offset ≤ file.size
  allocated : Allocated file.data file.size

/-- The bytes of a block. -/
def Block.contents : Block → List UInt8
  | .bytes block => block
  | _ => []

/-- The current content. -/
def MemoryFile.content (file : MemoryFile) : List UInt8 := file.data.contents.take file.size

/-- What has not been read yet. -/
def MemoryFile.unread (file : MemoryFile) : List UInt8 := file.content.drop file.offset

section
variable {file : MemoryFile}

theorem Allocated.le {data : Block} {size : Nat} (h : Allocated data size) :
    size ≤ data.contents.length := by
  cases data with
  | null => exact Nat.le_of_eq h
  | bytes block => exact h
  | freed => exact h.elim

theorem Allocated.free {data : Block} {size : Nat} (h : Allocated data size) :
    free data = some () := by
  cases data with
  | null => rfl
  | bytes block => rfl
  | freed => exact h.elim

theorem readBlock_allocated {data : Block} {size off n : Nat} (h : Allocated data size)
    (hn : off + n ≤ size) : readBlock data off n = some ((data.contents.drop off).take n) := by
  unfold readBlock
  by_cases hzero : n = 0
  · rw [if_pos hzero, hzero, List.take_zero]
  · rw [if_neg hzero]
    cases data with
    | null =>
      have hsize : size = 0 := h
      omega
    | bytes block => exact slice_eq_some.mpr ⟨Nat.le_trans hn h, rfl⟩
    | freed => exact h.elim

theorem Intact.length_content (h : Intact file) : file.content.length = file.size := by
  unfold MemoryFile.content
  rw [List.length_take]
  exact Nat.min_eq_left h.allocated.le

theorem Intact.length_unread (h : Intact file) : file.unread.length = file.size - file.offset := by
  unfold MemoryFile.unread
  rw [List.length_drop, h.length_content]

/-! ### What a reader sees -/

/-- `gp_file_slurp` returns what has not been read, as far as it is wanted. -/
theorem gpFileSlurp_intact (h : Intact file) (wanted : Nat) :
    ∃ file', gpFileSlurp file wanted = some (file.unread.take wanted, file') ∧ Intact file' ∧
      file'.content = file.content ∧ file'.unread = file.unread.drop wanted := by
  have hunread : unreadSize file = file.size - file.offset := if_pos h.offset_le
  have hle := h.offset_le
  have hmin : (if unreadSize file < wanted then unreadSize file else wanted) =
      min wanted (file.size - file.offset) := by
    rw [hunread]
    by_cases hlt : file.size - file.offset < wanted
    · rw [if_pos hlt, Nat.min_eq_right (Nat.le_of_lt hlt)]
    · rw [if_neg hlt, Nat.min_eq_left (Nat.not_lt.mp hlt)]
  have hread : readBlock file.data file.offset (min wanted (file.size - file.offset)) =
      some (file.unread.take wanted) := by
    rw [readBlock_allocated h.allocated (by omega)]
    unfold MemoryFile.unread MemoryFile.content
    rw [List.drop_take, List.take_take]
  refine ⟨{ file with offset := file.offset + min wanted (file.size - file.offset) }, ?_, ?_, rfl,
    ?_⟩
  · unfold gpFileSlurp
    simp only [hmin, hread]
    rfl
  · exact ⟨by show file.offset + _ ≤ file.size; omega, h.allocated⟩
  · show file.content.drop (file.offset + _) = (file.content.drop file.offset).drop wanted
    rw [List.drop_drop]
    by_cases hlt : file.size - file.offset < wanted
    · rw [List.drop_eq_nil_of_le, List.drop_eq_nil_of_le]
      · rw [h.length_content]
        omega
      · rw [h.length_content]
        omega
    · rw [Nat.min_eq_left (Nat.not_lt.mp hlt)]

/-- `gp_file_append` puts some bytes behind what has not been read. -/
theorem gpFileAppend_intact (h : Intact file) {data : List UInt8}
    (hdata : file.data ≠ .null → file.size + data.length ≠ 0) :
    ∃ file', gpFileAppend file data = some (0, file') ∧ Intact file' ∧
      file'.offset = file.offset ∧ file'.content = file.content ++ data ∧
      file'.unread = file.unread ++ data := by
  have hle := h.offset_le
  have hcontent := h.length_content
  suffices hsuff : ∃ file', gpFileAppend file data = some (0, file') ∧
      file'.size = file.size + data.length ∧ file'.offset = file.offset ∧
      file'.data = .bytes (file.content ++ data) by
    obtain ⟨file', hrun, hsize, hoffset, hbytes⟩ := hsuff
    have hlen : (file.content ++ data).length = file'.size := by
      rw [List.length_append, hcontent, hsize]
    have hcontent' : file'.content = file.content ++ data := by
      unfold MemoryFile.content
      rw [hbytes]
      show (file.content ++ data).take file'.size = file.content ++ data
      rw [← hlen, List.take_length]
    refine ⟨file', hrun, ⟨by omega, ?_⟩, hoffset, hcontent', ?_⟩
    · rw [hbytes]
      exact Nat.le_of_eq hlen.symm
    · unfold MemoryFile.unread
      rw [hcontent', hoffset, List.drop_append_of_le_length (by omega)]
  have hallocated := h.allocated
  unfold gpFileAppend
  cases hblock : file.data with
  | null =>
    rw [hblock] at hallocated
    have hsize : file.size = 0 := hallocated
    simp only [if_pos (Or.inl hsize : file.size = 0 ∨ data = [])]
    refine ⟨_, rfl, rfl, rfl, ?_⟩
    unfold MemoryFile.content
    rw [hsize, List.take_zero, List.nil_append]
  | bytes block =>
    rw [hblock] at hallocated
    have hsize : file.size ≤ block.length := hallocated
    have hne := hdata (by rw [hblock]; intro hnull; cases hnull)
    simp only [if_neg hne]
    refine ⟨_, rfl, rfl, rfl, ?_⟩
    unfold MemoryFile.content
    rw [hblock, Nat.sub_eq_zero_of_le hsize, List.replicate_zero, List.append_nil]
    rfl
  | freed =>
    rw [hblock] at hallocated
    exact hallocated.elim

/-! ### One operation -/

/-- What `gp_file_copy` needs to keep a file intact, if it reads the new data from a
descriptor. -/
def ReadingOk (file : MemoryFile) : FdReading → Prop
  | .notOpen => file.size = 0
  | .whole bytes => file.offset ≤ bytes.length
  | .failed _ => False

/-- What `gp_file_open` needs. -/
def OpeningOk (file : MemoryFile) (filename : CString) : Opening → Prop
  | .failed => file.offset = 0
  | .opened size bytes ferror _ => 0 ≤ size ∧
    if ferror then file.offset = 0
    else (openedMimeType filename).isSome ∧ file.offset ≤ (bytes.take size.toNat).length

/-- What an operation needs to keep all files intact. Where the data are replaced no more bytes
may have been read than there are new ones. A block is not reallocated to no bytes, and no file
is copied onto itself. -/
def StepOk (files : Nat → MemoryFile) : FileOp → Prop
  | .append i data => (files i).data ≠ .null → (files i).size + data.length ≠ 0
  | .setDataAndSize i data => (files i).offset ≤ (data.getD []).length
  | .clean i => (files i).offset = 0
  | .copy destination source =>
    destination ≠ source ∧ (files destination).offset ≤ (files source).size
  | .copyFromFd i _ reading => ReadingOk (files i) reading
  | .openFile i filename opening => OpeningOk (files i) filename opening
  | _ => True

theorem allocated_callerBlock (data : Option (List UInt8)) :
    Allocated (callerBlock data) (data.getD []).length := by
  cases data with
  | none => rfl
  | some block => exact Nat.le_refl _

section
variable (h : Intact file)
include h

theorem setDataAndSize_iff (data : Option (List UInt8)) :
    (∃ file', gpFileSetDataAndSize file data = some file' ∧ Intact file') ↔
      file.offset ≤ (data.getD []).length := by
  unfold gpFileSetDataAndSize
  rw [h.allocated.free]
  constructor
  · rintro ⟨file', hrun, hintact⟩
    cases hrun
    exact hintact.offset_le
  · intro hle
    exact ⟨_, rfl, hle, allocated_callerBlock data⟩

theorem clean_iff :
    (∃ file', gpFileClean file = some file' ∧ Intact file') ↔ file.offset = 0 := by
  unfold gpFileClean
  rw [h.allocated.free]
  constructor
  · rintro ⟨file', hrun, hintact⟩
    cases hrun
    exact Nat.le_zero.mp hintact.offset_le
  · intro hzero
    exact ⟨_, rfl, Nat.le_of_eq hzero, rfl⟩

theorem append_iff (data : List UInt8) :
    (∃ file', (gpFileAppend file data).map (·.2) = some file' ∧ Intact file') ↔
      (file.data ≠ .null → file.size + data.length ≠ 0) := by
  constructor
  · rintro ⟨file', hrun, hintact⟩ hnull hzero
    have hallocated := h.allocated
    unfold gpFileAppend at hrun
    cases hblock : file.data with
    | null => exact hnull hblock
    | bytes block =>
      simp only [hblock, if_pos hzero] at hrun
      cases hrun
      exact hintact.allocated
    | freed =>
      rw [hblock] at hallocated
      exact hallocated
  · intro hdata
    obtain ⟨file', hrun, hintact, -⟩ := gpFileAppend_intact h hdata
    exact ⟨file', by rw [hrun]; rfl, hintact⟩

theorem copy_iff {source : MemoryFile} (hsource : Intact source) :
    (∃ file', (copyMemoryMemory file source).map (·.2) = some file' ∧ Intact file') ↔
      file.offset ≤ source.size := by
  have hread : readBlock source.data 0 source.size = some source.content := by
    have hle : 0 + source.size ≤ source.size := by omega
    rw [readBlock_allocated hsource.allocated hle]
    rfl
  unfold copyMemoryMemory
  rw [h.allocated.free, hread]
  constructor
  · rintro ⟨file', hrun, hintact⟩
    cases hrun
    exact hintact.offset_le
  · intro hle
    exact ⟨_, rfl, hle, Nat.le_of_eq hsource.length_content.symm⟩

theorem copyFd_iff (fields : GenericFields) (reading : FdReading) :
    (∃ file', (copyFdMemory file fields reading).map (·.2) = some file' ∧ Intact file') ↔
      ReadingOk file reading := by
  have hoffset := h.offset_le
  unfold copyFdMemory
  rw [h.allocated.free]
  constructor
  · rintro ⟨file', hrun, hintact⟩
    cases reading with
    | notOpen =>
      cases hrun
      exact hintact.allocated
    | whole bytes =>
      cases hrun
      exact hintact.offset_le
    | failed size =>
      cases hrun
      exact hintact.allocated
  · intro hok
    cases reading with
    | notOpen => exact ⟨_, rfl, hoffset, hok⟩
    | whole bytes => exact ⟨_, rfl, hok, Nat.le_refl _⟩
    | failed size => exact hok.elim

theorem open_iff (filename : CString) (opening : Opening) :
    (∃ file', (gpFileOpen file filename opening).map (·.2) = some file' ∧ Intact file') ↔
      OpeningOk file filename opening := by
  unfold gpFileOpen gpFileClean
  rw [h.allocated.free]
  simp only [Option.map_some, Option.bind_some]
  unfold openInto
  cases opening with
  | failed =>
    constructor
    · rintro ⟨file', hrun, hintact⟩
      cases hrun
      exact Nat.le_zero.mp hintact.offset_le
    · intro hzero
      exact ⟨_, rfl, Nat.le_of_eq hzero, rfl⟩
  | opened size bytes ferror mtime =>
    by_cases hsize : size < 0
    · simp only [if_pos hsize]
      refine iff_of_false ?_ fun hok => absurd hok.1 (Int.not_le.mpr hsize)
      rintro ⟨file', hrun, -⟩
      cases hrun
    simp only [if_neg hsize]
    cases ferror with
    | true =>
      constructor
      · rintro ⟨file', hrun, hintact⟩
        cases hrun
        exact ⟨Int.not_lt.mp hsize, Nat.le_zero.mp hintact.offset_le⟩
      · rintro ⟨-, hzero⟩
        exact ⟨_, rfl, Nat.le_of_eq hzero, rfl⟩
    | false =>
      simp only [Bool.false_eq_true, if_false]
      constructor
      · rintro ⟨file', hrun, hintact⟩
        obtain ⟨opened, hopened, rfl⟩ := Option.map_eq_some_iff.mp hrun
        obtain ⟨mimeType, hmime, rfl⟩ := Option.map_eq_some_iff.mp hopened
        exact ⟨Int.not_lt.mp hsize, Option.isSome_of_eq_some hmime, hintact.offset_le⟩
      · rintro ⟨-, hsome, hle⟩
        obtain ⟨mimeType, hmime⟩ := Option.isSome_iff_exists.mp hsome
        rw [hmime]
        refine ⟨_, rfl, hle, ?_⟩
        show (bytes.take size.toNat).length ≤ (bytes.take size.toNat ++ [0]).length
        rw [List.length_append]
        exact Nat.le_add_right _ _

theorem detect_intact :
    ∃ file', gpFileDetectMimeType file = some file' ∧ Intact file' := by
  have hfirst (n : Nat) : ∃ bytes, firstBytes file n = some bytes := by
    unfold firstBytes
    by_cases hn : n ≤ file.size
    · rw [if_pos hn, readBlock_allocated h.allocated (by omega)]
      exact ⟨_, rfl⟩
    · rw [if_neg hn]
      exact ⟨_, rfl⟩
  obtain ⟨tiff, htiff⟩ := hfirst 5
  obtain ⟨jpeg, hjpeg⟩ := hfirst 2
  unfold gpFileDetectMimeType
  rw [htiff, hjpeg]
  simp only [Option.bind_eq_bind, Option.bind_some]
  by_cases hist : tiff = [0x49, 0x49, 0x2A, 0x00, 0x08]
  · rw [if_pos hist]
    exact ⟨_, rfl, h.offset_le, h.allocated⟩
  · rw [if_neg hist]
    by_cases hisj : jpeg = [0xFF, 0xD8]
    · rw [if_pos hisj]
      exact ⟨_, rfl, h.offset_le, h.allocated⟩
    · rw [if_neg hisj]
      exact ⟨_, rfl, h.offset_le, h.allocated⟩

end

/-- All files are intact. -/
def AllIntact (files : Nat → MemoryFile) : Prop := ∀ i, Intact (files i)

theorem putFile_iff {files : Nat → MemoryFile} (h : AllIntact files) {i : Nat}
    {put : Option MemoryFile} :
    (∃ files', putFile files i put = some files' ∧ AllIntact files') ↔
      ∃ file', put = some file' ∧ Intact file' := by
  constructor
  · rintro ⟨files', hput, hintact⟩
    obtain ⟨file', hfile, rfl⟩ := Option.map_eq_some_iff.mp hput
    have hi := hintact i
    rw [Function.update_self] at hi
    exact ⟨file', hfile, hi⟩
  · rintro ⟨file', rfl, hfile⟩
    refine ⟨_, rfl, fun j => ?_⟩
    by_cases hj : j = i
    · rw [hj, Function.update_self]
      exact hfile
    · rw [Function.update_of_ne hj]
      exact h j

/-- One operation keeps all files intact if and only if it has what it needs. -/
theorem stepFiles_iff {files : Nat → MemoryFile} (h : AllIntact files) (op : FileOp) :
    (∃ files', stepFiles files op = some files' ∧ AllIntact files') ↔ StepOk files op := by
  cases op with
  | new i =>
    exact (putFile_iff h).trans (iff_of_true ⟨_, rfl, Nat.le_refl 0, rfl⟩ trivial)
  | append i data => exact (putFile_iff h).trans (append_iff (h i) data)
  | slurp i size =>
    obtain ⟨file', hrun, hintact, -⟩ := gpFileSlurp_intact (h i) size
    exact (putFile_iff h).trans (iff_of_true ⟨file', by rw [hrun]; rfl, hintact⟩ trivial)
  | setDataAndSize i data => exact (putFile_iff h).trans (setDataAndSize_iff (h i) data)
  | clean i => exact (putFile_iff h).trans (clean_iff (h i))
  | copy destination source =>
    show (∃ files', (if destination = source then none else _) = some files' ∧ _) ↔ _
    by_cases hsame : destination = source
    · rw [if_pos hsame]
      refine iff_of_false ?_ fun hok => hok.1 hsame
      rintro ⟨files', hrun, -⟩
      cases hrun
    · rw [if_neg hsame]
      exact ((putFile_iff h).trans (copy_iff (h destination) (h source))).trans
        (and_iff_right hsame).symm
  | copyFromFd i fields reading =>
    exact (putFile_iff h).trans (copyFd_iff (h i) fields reading)
  | copyFromHandler i fields =>
    exact (putFile_iff h).trans
      (iff_of_true ⟨_, rfl, (h i).offset_le, (h i).allocated⟩ trivial)
  | copyToFd i =>
    have hle : 0 + (files i).size ≤ (files i).size := by omega
    refine iff_of_true ⟨files, ?_, h⟩ trivial
    show (readBlock (files i).data 0 (files i).size).map _ = some files
    rw [readBlock_allocated (h i).allocated hle]
    rfl
  | openFile i filename opening =>
    exact (putFile_iff h).trans (open_iff (h i) filename opening)
  | detect i =>
    exact (putFile_iff h).trans (iff_of_true (detect_intact (h i)) trivial)

end

/-! ### Runs -/

/-- What holds of a file in a good state: it is intact, a reader is given what has not been read
yet as far as it wants it, and new bytes come behind that. -/
structure GoodFile (file : MemoryFile) : Prop where
  intact : Intact file
  slurp : ∀ wanted, ∃ file', gpFileSlurp file wanted = some (file.unread.take wanted, file') ∧
    (file.unread.take wanted).length = min wanted (file.size - file.offset) ∧
    file'.unread = file.unread.drop wanted
  append : ∀ data, data ≠ [] → ∃ file', gpFileAppend file data = some (0, file') ∧
    file'.offset = file.offset ∧ file'.unread = file.unread ++ data

theorem Intact.good {file : MemoryFile} (h : Intact file) : GoodFile file := by
  refine ⟨h, fun wanted => ?_, fun data hdata => ?_⟩
  · obtain ⟨file', hrun, -, -, hunread⟩ := gpFileSlurp_intact h wanted
    refine ⟨file', hrun, ?_, hunread⟩
    rw [List.length_take, h.length_unread]
  · have hne : file.data ≠ .null → file.size + data.length ≠ 0 := fun _ hzero =>
      hdata (List.length_eq_zero_iff.mp (by omega))
    obtain ⟨file', hrun, -, hoffset, -, hunread⟩ := gpFileAppend_intact h hne
    exact ⟨file', hrun, hoffset, hunread⟩

/-- A run keeps all files intact if and only if each of its operations does. -/
theorem runFiles_iff {files : Nat → MemoryFile} (h : AllIntact files) (ops : List FileOp) :
    (∀ done, done <+: ops → ∃ files', runFiles files done = some files' ∧ AllIntact files') ↔
      ∀ done op, done ++ [op] <+: ops →
        ∃ files', runFiles files done = some files' ∧ StepOk files' op := by
  induction ops generalizing files with
  | nil =>
    refine iff_of_true (fun done hdone => ?_) fun done op hdone => ?_
    · rw [List.prefix_nil.mp hdone]
      exact ⟨files, rfl, h⟩
    · exact absurd (List.prefix_nil.mp hdone) (List.append_ne_nil_of_right_ne_nil _ (by simp))
  | cons op ops ih =>
    have hcons (done : List FileOp) (files₁ : Nat → MemoryFile)
        (hstep : stepFiles files op = some files₁) :
        runFiles files (op :: done) = runFiles files₁ done := by
      rw [runFiles, hstep]
      rfl
    constructor
    · intro hrun
      obtain ⟨files₁, hone, hintact⟩ := hrun [op] (List.prefix_append [op] ops)
      have hstep : stepFiles files op = some files₁ := by
        obtain ⟨files₂, hstep, hnil⟩ := Option.bind_eq_some_iff.mp hone
        cases hnil
        exact hstep
      have hrest := (ih hintact).mp fun done hdone => by
        have hfiles := hrun (op :: done) (List.cons_prefix_cons.mpr ⟨rfl, hdone⟩)
        rwa [hcons done files₁ hstep] at hfiles
      intro done next hnext
      cases done with
      | nil =>
        obtain rfl : next = op := (List.cons_prefix_cons.mp hnext).1
        exact ⟨files, rfl, (stepFiles_iff h next).mp ⟨files₁, hstep, hintact⟩⟩
      | cons first done =>
        obtain ⟨rfl, hdone⟩ := List.cons_prefix_cons.mp hnext
        rw [hcons done files₁ hstep]
        exact hrest done next hdone
    · intro hok
      obtain ⟨files', hnil, hop⟩ := hok [] op (List.prefix_append [op] ops)
      cases hnil
      obtain ⟨files₁, hstep, hintact⟩ := (stepFiles_iff h op).mpr hop
      have hrest := (ih hintact).mpr fun done next hnext => by
        have hfiles := hok (op :: done) next (List.cons_prefix_cons.mpr ⟨rfl, hnext⟩)
        rwa [hcons done files₁ hstep] at hfiles
      intro done hdone
      cases done with
      | nil => exact ⟨files, rfl, h⟩
      | cons first done =>
        obtain ⟨rfl, hlater⟩ := List.cons_prefix_cons.mp hdone
        rw [hcons done files₁ hstep]
        exact hrest done hlater

end GPhoto2
