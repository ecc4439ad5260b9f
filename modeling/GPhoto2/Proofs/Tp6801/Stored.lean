import GPhoto2.Proofs.Tp6801.Flash

/-!
# `GPhoto2.Proofs.Tp6801.Stored`: a picture on a tp6801 frame is read as it was written

`Holds` says that a slot has a picture. Every call that does not delete the picture keeps it, and a
frame that is opened again has it if nothing was left to commit (`Reopened.holds`). Hence
`written_picture_read`: whatever happens in between, and whatever commands fail there, a read that
succeeds returns the bytes that were written.
-/

set_option autoImplicit false

namespace GPhoto2.Tp6801

open Lib
open Lib.Comp (Ends)
open Camera (Present)

/-- Slot `i` has the picture, in what the driver was told to keep. -/
structure Holds (i : Nat) (picture : Nat → UInt8) (s : Camera) : Prop where
  intact : Intact True s
  slot : i < s.maxFilecount
  present : s.Present i
  bytes : ∀ k < s.filesize, s.logical (pictureOffset i s.filesize + k) = picture k

section

variable {i : Nat} {picture : Nat → UInt8} {s s' : Camera}

theorem inSlot_of_lt (hg : Geometry s) {k : Nat} (hk : k < s.filesize) :
    InSlot s i ((pictureOffset i s.filesize + k) / pageSize) :=
  (putBytes_iff (fun _ => 0) hg _).mp ⟨Nat.le_add_right _ _, by simpa using hk⟩

theorem PatEdited.logical_slot (h : PatEdited s s') (hg : Geometry s) {a : Nat}
    (ha : InSlot s i (a / pageSize)) : s'.logical a = s.logical a := by
  rcases h.bytes a with ⟨-, hlogical⟩ | ⟨⟨-, hin⟩, -⟩
  · exact hlogical
  · have hmax := hg.maxFilecount_le
    have hlow := ha.1
    rw [hg.filesize] at hlow
    unfold pictureOffset pageSize at hlow
    unfold patOffset at hin
    omega

theorem Holds.of_same (h : Holds i picture s) (hintact : Intact True s')
    (hmax : s'.maxFilecount = s.maxFilecount) (hsize : s'.filesize = s.filesize)
    (hpresent : s'.Present i)
    (hbytes : ∀ a, InSlot s i (a / pageSize) → s'.logical a = s.logical a) :
    Holds i picture s' := by
  refine ⟨hintact, by rw [hmax]; exact h.slot, hpresent, fun k hk => ?_⟩
  rw [hsize] at hk ⊢
  rw [hbytes _ (inSlot_of_lt h.intact.patValid.geometry hk)]
  exact h.bytes k hk

theorem Holds.fetched (h : Holds i picture s) (hf : Fetched s s') : Holds i picture s' := by
  have hv := h.intact.patValid
  have hpat := hf.samePat hv.patRead
  have hmax := hv.geometry.maxFilecount_le
  have hslot := h.slot
  exact h.of_same (hf.intact h.intact) hpat.maxFilecount hpat.filesize
    ((hpat.present_iff (by omega)).mpr h.present) fun _ _ => by rw [hf.logical]

theorem commit_logical (i : Nat) (hv : PatValid s) (hquiet : s.memDump = true → Quiet s) :
    Ends (fun _ s' => ∀ a, InSlot s i (a / pageSize) → s'.logical a = s.logical a)
      (fun _ _ => True) (commit s) := by
  have hnoErase : s.memDump = true → NoErase s := fun hdump => (hquiet hdump).noErase_blocks
  have hsize : blockSize ≤ s.memSize := by
    unfold blockSize
    obtain hsize | hsize | hsize := hv.geometry.memSize <;> omega
  refine commit_rule (R := fun _ => True) hv hnoErase
    ((commitBlocks_ends s hsize hnoErase).mono (fun _ _ _ => trivial) fun _ _ _ => trivial) ?_
  intro s1 s3 _ hcommitted hrenumbered
  have hpat := hcommitted.kept.samePat hv.patRead
  refine (commitBlock_kept s3 0 (hrenumbered.quiet hv hcommitted hquiet)).mono ?_
    fun _ _ _ => trivial
  rintro _ s' ⟨hkept, -⟩ a ha
  have hlogical : s'.logical = s3.logical := (congrArg Camera.logical hkept.frame :)
  have hlogical1 : s1.logical = s.logical := (congrArg Camera.logical hcommitted.kept.frame :)
  rw [hlogical, hrenumbered.edited.logical_slot (hpat.geometry hv.geometry) (i := i), hlogical1]
  rwa [InSlot, hpat.filesize]

theorem writeFile_effect (hv : PatValid s) (hfew : s.pictureCount < 253) (new : Nat → UInt8) :
    Ends (fun _ s' => ∃ j < s.maxFilecount, Special (s.pat j) ∧
        s'.maxFilecount = s.maxFilecount ∧ s'.filesize = s.filesize ∧
        (∀ i < s.maxFilecount, s'.Present i ↔ i = j ∨ s.Present i) ∧
        (∀ i ≠ j, ∀ a, InSlot s i (a / pageSize) → s'.logical a = s.logical a) ∧
        ∀ k < s.filesize, s'.logical (pictureOffset j s.filesize + k) = new k)
      (fun _ _ => True) (writeFile new s) := by
  refine (writeFile_ends s new).mono ?_ fun _ _ _ => trivial
  rintro _ s' ⟨j, s1, hj, hspecial, hf, rfl⟩
  have hg := hv.geometry
  have hmax := hg.maxFilecount_le
  have hput := (hf.samePat hv.patRead).trans (SamePat.put ((List.range s.filesize).map new)
    (show blockSize ≤ pictureOffset j s.filesize from Nat.le_add_right _ _))
  have hadded : ∀ i a, InSlot s i (a / pageSize) → _ := fun i a ha =>
    (PatEdited.addPicture (by rwa [hput.maxFilecount])).logical_slot (hput.geometry hg)
      (show InSlot _ i (a / pageSize) by rwa [InSlot, hput.filesize])
  refine ⟨j, hj, hspecial, hput.maxFilecount, hput.filesize, fun i hi => ?_, ?_, ?_⟩
  · rw [present_addPicture (hput.patValid hv) (by rwa [hput.pictureCount])
      (by rwa [hput.maxFilecount]), hput.present_iff (by omega)]
  · intro i hne a ha
    rw [hadded i a ha, put_logical, hf.logical, within_outside]
    exact fun hin => hne (InSlot.unique hg ha ((putBytes_iff new hg a).mp hin))
  · intro k hk
    have hin := inSlot_of_lt (i := j) hg hk
    rw [hadded j _ hin, put_logical, within_inside ((putBytes_iff new hg _).mpr hin)]
    simp [hk]

theorem writeFile_run (picture : Nat → UInt8) (hslot : findSlot s = some i) (hreads : ¬ s.FailsRead)
    (hroom : pictureOffset i s.filesize + s.filesize ≤ s.memSize) :
    ∃ s', writeFile picture s = some (.ok (), s') := by
  obtain ⟨_, s', hrun, -⟩ := (writeMem_ends s (pictureOffset i s.filesize)
    ((List.range s.filesize).map picture)).exists_ok (by
      rintro _ _ ⟨-, hfails | hbeyond⟩
      · exact hreads hfails
      · rw [List.length_map, List.length_range] at hbeyond
        omega)
  refine ⟨s'.addPicture i, ?_⟩
  rw [writeFile, Comp.get_bind_run, hslot]
  exact Comp.bind_run_ok hrun

/-- The frame is opened again by a new driver, with nothing left to commit. Its memory is what it
was, and the driver finds it as large as it was. -/
structure Reopened (s s' : Camera) : Prop where
  clean : ∀ p, ¬ s.IsDirty p
  opened : ∃ start, Fresh start ∧ openDevice start = some (.ok (), s') ∧
    ∀ a < s.memSize, start.store a = s.store a
  memSize : s'.memSize = s.memSize

theorem Reopened.holds (h : Holds i picture s) (hre : Reopened s s') : Holds i picture s' := by
  obtain ⟨start, hfresh, hopen, hsame⟩ := hre.opened
  obtain ⟨ho, hstore, -⟩ := (openDevice_ends hfresh).of_ok hopen
  have hv := h.intact.patValid
  have hg := hv.geometry
  have hroom := hg.room
  have hcount := hg.maxFilecount_le
  have hsize : s'.filesize = s.filesize := by rw [ho.geometry.filesize, hg.filesize]
  have hmax : s'.maxFilecount = s.maxFilecount := by
    rw [ho.geometry.maxFilecount, hg.maxFilecount, hre.memSize]
  have hbyte : ∀ a < s.memSize, s'.store a = s.store a := fun a ha => by rw [hstore, hsame a ha]
  have hslot : ∀ j < s.maxFilecount, ∀ a, InSlot s j (a / pageSize) → a < s.memSize := by
    intro j hj a ha
    have hin := InSlot.inArea hg hj ha
    unfold InArea pageSize at hin
    omega
  -- the PAT is in a page that was kept, so both drivers see the same
  have hpat : ∀ j < s.maxFilecount, s'.pat j = s.pat j := by
    intro j hj
    have hpage : (patOffset + j) / pageSize = patPage := by
      unfold patPage patOffset pageSize
      omega
    have hbelow : patOffset + j < s.memSize := by
      unfold patOffset pictureOffset at *
      omega
    rw [Camera.pat, ho.same _ (by rw [hpage]; exact ho.patRead), hbyte _ hbelow,
      h.intact.store_eq hre.clean (Or.inl (by rw [hpage]; exact h.intact.patPage.data)),
      ← h.intact.coherent.copy _ (by rw [hpage]; exact hv.patRead)
        (by rw [hpage]; exact h.intact.patPage.data), Camera.pat]
  have hpresent : s'.Present i := by
    refine (ho.entries i (by rw [hmax]; exact h.slot)).resolve_left ?_
    rw [hpat i h.slot]
    exact hv.not_special h.present
  have htrue : TruePreErased s' := by
    intro j hj hpre a ha
    rw [hmax] at hj
    rw [hpat j hj] at hpre
    rw [InSlot, hsize] at ha
    rw [hbyte a (hslot j hj a ha)]
    exact (h.intact.flashRight trivial).preErased j hj hpre a ha
  refine h.of_same (ho.intact htrue) hmax hsize hpresent fun a ha => ?_
  rw [ho.logical, hbyte a (hslot i h.slot a ha), h.intact.store_eq hre.clean
    (Or.inr (Or.inr ⟨i, h.slot, h.present, ha⟩))]

/-- A call that does not delete the picture in slot `i`, or a new driver. -/
def SparingStep (i : Nat) (s s' : Camera) : Prop :=
  (∃ call faults, Call.Allowed s call ∧ Call.run call faults s = some (.ok (), s') ∧
    call ≠ .delete i ∧ call ≠ .deleteAll) ∨ Reopened s s'

theorem Holds.faults (h : Holds i picture s) (faults : Command → Option Fault) :
    Holds i picture { s with faults := faults } :=
  ⟨h.intact.faults faults, h.slot, h.present, h.bytes⟩

theorem call_holds {call : Call} (h : Holds i picture s) (hallowed : call.Allowed s)
    (hdelete : call ≠ .delete i) (hall : call ≠ .deleteAll) :
    Ends (fun _ s' => Holds i picture s') (fun _ _ => True) (call.body s) := by
  have hv := h.intact.patValid
  have hg := hv.geometry
  have hmax := hg.maxFilecount_le
  have hslot := h.slot
  have hintact := call_intact h.intact hallowed
  cases call with
  | read idx =>
    refine Ends.bind ((readRawFile_ends s idx).mono (fun _ _ hok => hok) fun _ _ _ => trivial) ?_
    rintro _ s' ⟨hfetched, -⟩
    exact Ends.pure (h.fetched hfetched)
  | write new =>
    refine (hintact.and (writeFile_effect hv hallowed new)).mono ?_ fun _ _ _ => trivial
    rintro _ s' ⟨hintact', j, -, hspecial, hmax', hsize, hpresent, hbytes, -⟩
    -- The slot that was chosen has no picture, so it is another one.
    have hij : i ≠ j := fun hij => hv.not_special h.present (hij ▸ hspecial)
    exact h.of_same hintact' hmax' hsize ((hpresent i hslot).mpr (Or.inr h.present)) (hbytes i hij)
  | delete idx =>
    refine (hintact.and (deleteFile_ends s idx)).mono ?_ fun _ _ _ => trivial
    rintro _ s' ⟨hintact', hidx, -, rfl⟩
    have hne : i ≠ idx := fun hne => hdelete (hne ▸ rfl)
    refine h.of_same hintact' rfl rfl ?_ fun _ ha => (PatEdited.setPat hidx _).logical_slot hg ha
    rw [Present, pat_setPat_patDirty, if_neg hne]
    exact h.present
  | deleteAll => exact absurd rfl hall
  | commit =>
    refine ((hintact.and (commit_ends hv hallowed)).and (commit_logical i hv hallowed)).mono ?_
      fun _ _ _ => trivial
    rintro _ s' ⟨⟨hintact', -, -, hsame, -⟩, hlogical⟩
    exact h.of_same hintact' hsame.maxFilecount hsame.filesize
      ((hsame.present i hslot).mpr h.present) hlogical

theorem SparingStep.holds (h : Holds i picture s) (hstep : SparingStep i s s') :
    Holds i picture s' := by
  obtain ⟨call, faults, hallowed, hrun, hdelete, hall⟩ | hre := hstep
  · exact (call_holds (h.faults faults) (hallowed.faults faults) hdelete hall).of_ok hrun
  · exact hre.holds h

theorem Holds.read (h : Holds i picture s) {bytes : List UInt8}
    (hrun : readRawFile i s = some (.ok bytes, s')) :
    bytes = (List.range s.filesize).map picture := by
  obtain ⟨hf, -, -, hread, rfl⟩ := (readRawFile_ends s i).of_ok hrun
  have h' := h.fetched hf
  have hsize : s'.filesize = s.filesize := (hf.samePat h.intact.patValid.patRead).filesize
  refine List.map_congr_left fun k hk => ?_
  have hk := List.mem_range.mp hk
  have hin : InSlot s' i ((pictureOffset i s'.filesize + k) / pageSize) :=
    inSlot_of_lt h'.intact.patValid.geometry (by rwa [hsize])
  have hdata := h'.intact.flags.present i h'.slot h'.present _ hin
  have hbytes := h'.bytes k (by rwa [hsize])
  rw [hsize] at hin hdata hbytes
  rw [← hbytes]
  refine h'.intact.coherent.copy _ (hread _ (Nat.div_le_div_right (Nat.le_add_right _ _)) ?_) hdata
  unfold pagesOf pageSize
  omega

end

end GPhoto2.Tp6801
