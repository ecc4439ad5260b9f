import GPhoto2.Ptp.EventQueue

/-!
# `GPhoto2.Proofs.Ptp.EventQueue`: the event queue is a FIFO

Each step does to the pending events what `EventStep.abs` does to a queue that loses nothing
(`EventStep.exec_refines`), except where it has no defined outcome (`EventStep.exec_stuck`):
a Nikon batch that announces more events than it holds is copied from a null pointer, a Canon
event that announces more parameters than it holds is read past its end, and the counter is
an `int`.

`runEvents_fifo_iff`: the queue is lossless throughout a run exactly if no step is one of these.
-/

set_option autoImplicit false

namespace GPhoto2

open Lib

/-! ### When the device's answers can be decoded -/

/-- The bytes `ptp_unpack_EC` reads of an event, by the length it announces. -/
def canonEventLength (data : List UInt8) : Nat :=
  if dtoh16a data 4 ≠ ptpUsbContainerEvent ∨ (dtoh32a data 0).toInt32.toInt < 16 then 12
  else if (dtoh32a data 0).toInt32.toInt < 20 then 16
  else if (dtoh32a data 0).toInt32.toInt < 24 then 20
  else 24

/-- The answer of the device holds as many events, and as many parameters of an event, as it
announces. -/
def CheckInput.Decodable (input : CheckInput) : Prop :=
  if input.IsNikon then
    input.nikonAnswer.1 = ptpRcOk → 2 ≤ input.nikonAnswer.2.length →
      nikonCount input.nikonAnswer.2 ≤ (input.nikonAnswer.2.length - 2) / 6
  else if input.IsEos then True
  else if input.IsCanon then
    input.canonAnswer.1 = ptpRcOk → input.canonAnswer.2 ≠ [] →
      canonEventLength input.canonAnswer.2 ≤ input.canonAnswer.2.length
  else True

/-- A step that only asks for what the device can be relied on for. -/
def EventStep.Decodable : EventStep → Prop
  | .checkEvent input => input.Decodable
  | .addEvent _ => True
  | .getOneEvent => True

theorem ptpUnpackEC_eq_none {data : List UInt8} :
    ptpUnpackEC data = none ↔ data.length < canonEventLength data := by
  unfold ptpUnpackEC canonEventLength
  by_cases h12 : data.length < 12
  · rw [if_pos h12]
    refine iff_of_true rfl ?_
    split_ifs <;> omega
  · rw [if_neg h12]
    by_cases htype : dtoh16a data 4 ≠ ptpUsbContainerEvent
    · simp [htype, h12]
    · simp only [htype, if_false, false_or]
      split_ifs <;> simp <;> omega

/-- The Nikon unpacker hands out a count without a block exactly for a batch that announces
more than it holds. -/
theorem ptpUnpackNikonEC_cases (data : List UInt8) :
    (2 ≤ data.length ∧ (data.length - 2) / 6 < nikonCount data ∧
      ptpUnpackNikonEC data = (none, nikonCount data)) ∨
    (2 ≤ data.length ∧ nikonCount data ≤ (data.length - 2) / 6 ∧ nikonCount data ≠ 0 ∧
      ptpUnpackNikonEC data =
        (some ((List.range (nikonCount data)).map (nikonEvent data)), nikonCount data)) ∨
    ((data.length < 2 ∨ nikonCount data = 0) ∧ ptpUnpackNikonEC data = (none, 0)) := by
  unfold ptpUnpackNikonEC
  by_cases hnil : data = []
  · rw [if_pos hnil]
    exact Or.inr (Or.inr ⟨Or.inl (by simp [hnil]), rfl⟩)
  rw [if_neg hnil]
  by_cases hshort : data.length < 2
  · rw [if_pos hshort]
    exact Or.inr (Or.inr ⟨Or.inl hshort, rfl⟩)
  rw [if_neg hshort]
  by_cases hbroken : (data.length - 2) / 6 < nikonCount data
  · rw [if_pos hbroken]
    exact Or.inl ⟨by omega, hbroken, rfl⟩
  rw [if_neg hbroken]
  by_cases hzero : nikonCount data = 0
  · rw [if_pos hzero]
    exact Or.inr (Or.inr ⟨Or.inr hzero, rfl⟩)
  · rw [if_neg hzero]
    exact Or.inr (Or.inl ⟨by omega, by omega, hzero, rfl⟩)

/-! ### Steps of the queue -/

section
variable {q q' : EventQueue}

@[simp] theorem EventQueue.length_pending (q : EventQueue) :
    q.pending.length = q.nrofevents := by
  rw [EventQueue.pending, List.length_take, Nat.min_eq_left q.fits]

theorem EventQueue.store_eq_some {entries : List PTPContainer} :
    q.store entries = some q' →
      q'.pending = q.pending ++ entries ∧ q.nrofevents + entries.length < 2 ^ 31 := by
  unfold EventQueue.store
  intro h
  split at h
  · rename_i hroom
    cases h
    refine ⟨?_, hroom⟩
    rw [EventQueue.pending, List.take_of_length_le]
    · rfl
    · exact Nat.le_of_eq (by
        rw [List.length_append, List.length_take, Nat.min_eq_left q.fits])
  · cases h

theorem EventQueue.store_room {entries : List PTPContainer}
    (h : q.nrofevents + entries.length < 2 ^ 31) : ∃ q', q.store entries = some q' := by
  unfold EventQueue.store
  rw [dif_pos h]
  exact ⟨_, rfl⟩

theorem EventQueue.store_full (entries : List PTPContainer)
    (h : ¬ q.nrofevents + entries.length < 2 ^ 31) : q.store entries = none := by
  unfold EventQueue.store
  rw [dif_neg h]

theorem ptpGetOneEvent_run (q : EventQueue) :
    (ptpGetOneEvent q).1 = q.pending.head? ∧ (ptpGetOneEvent q).2.pending = q.pending.tail := by
  have hfits := q.fits
  unfold ptpGetOneEvent
  split
  · rename_i hevents
    rw [EventQueue.pending, hevents]
    simp
  · rename_i event rest hevents
    rw [hevents, List.length_cons] at hfits
    split
    · rename_i hzero
      rw [EventQueue.pending, hzero]
      simp
    · split
      · rename_i hone
        rw [EventQueue.pending, hone, hevents]
        simp [EventQueue.pending, EventQueue.empty]
      · obtain ⟨n, hn⟩ := Nat.exists_eq_add_of_le' (show 1 ≤ q.nrofevents by omega)
        refine ⟨by simp [EventQueue.pending, hevents, hn], ?_⟩
        have hlen : n ≤ rest.length := by omega
        simp only [EventQueue.pending, hevents, hn, Nat.add_sub_cancel, List.take_succ_cons,
          List.tail_cons]
        rw [List.take_append_of_le_length (by rw [List.length_take]; omega), List.take_take,
          Nat.min_self]

end

/-! ### Refinement -/

section
variable {input : CheckInput} {q : EventQueue}

/-- The events of the answer fit behind the pending ones. -/
def EventQueue.HasRoom (q : EventQueue) (batch : List PTPContainer) : Prop :=
  q.nrofevents + batch.length < 2 ^ 31

theorem EventQueue.hasRoom_nil (q : EventQueue) : q.HasRoom [] := q.isInt

/-- Storing a batch that has no room is the only way to fail, and otherwise it comes last. -/
theorem store_outcome (q : EventQueue) (batch : List PTPContainer) (r : UInt16) :
    (q.HasRoom batch → ∃ q', (q.store batch).map (fun q => (r, q)) = some (r, q') ∧
      q'.pending = q.pending ++ batch) ∧
    (¬ q.HasRoom batch → (q.store batch).map (fun q => (r, q)) = none) := by
  constructor
  · intro hroom
    obtain ⟨q', hq'⟩ := EventQueue.store_room hroom
    exact ⟨q', by rw [hq']; rfl, (EventQueue.store_eq_some hq').1⟩
  · intro hfull
    rw [EventQueue.store_full batch hfull]
    rfl

/-- What a call of `ptp_check_event` comes to, for the events that arrive with it. -/
def CheckOutcome (input : CheckInput) (q : EventQueue) : Prop :=
  (input.Decodable ∧ q.HasRoom input.arrivals → ∃ r q', ptpCheckEvent input q = some (r, q') ∧
    q'.pending = q.pending ++ input.arrivals) ∧
  (¬ (input.Decodable ∧ q.HasRoom input.arrivals) → ptpCheckEvent input q = none)

theorem CheckOutcome.idle {r : UInt16} (hdec : input.Decodable) (harr : input.arrivals = [])
    (hrun : ptpCheckEvent input q = some (r, q)) : CheckOutcome input q := by
  refine ⟨fun _ => ⟨r, q, hrun, by rw [harr, List.append_nil]⟩, fun h => ?_⟩
  exact absurd ⟨hdec, harr ▸ q.hasRoom_nil⟩ h

theorem CheckOutcome.stored {batch : List PTPContainer} (hdec : input.Decodable)
    (harr : input.arrivals = batch)
    (hrun : ptpCheckEvent input q = (q.store batch).map fun q => (ptpRcOk, q)) :
    CheckOutcome input q := by
  obtain ⟨hroom, hfull⟩ := store_outcome q batch ptpRcOk
  constructor
  · rintro ⟨-, h⟩
    obtain ⟨q', hq', hpending⟩ := hroom (harr ▸ h)
    exact ⟨ptpRcOk, q', hrun.trans hq', harr ▸ hpending⟩
  · intro h
    rw [hrun]
    exact hfull fun hroom' => h ⟨hdec, harr ▸ hroom'⟩

theorem CheckOutcome.undefined (hdec : ¬ input.Decodable)
    (hrun : ptpCheckEvent input q = none) : CheckOutcome input q :=
  ⟨fun h => absurd h.1 hdec, fun _ => hrun⟩

/-- The end of `ptp_check_event`, where the interrupt endpoint is polled. -/
theorem CheckOutcome.interrupt (hdec : input.Decodable)
    (harr : input.arrivals =
      if input.interrupt.1 = ptpRcOk then [input.interrupt.2] else [])
    (hrun : ptpCheckEvent input q = storeInterrupt input q) : CheckOutcome input q := by
  unfold storeInterrupt at hrun
  by_cases hok : input.interrupt.1 = ptpRcOk
  · rw [if_pos hok] at harr hrun
    exact .stored hdec harr hrun
  · rw [if_neg hok] at harr hrun
    by_cases htimeout : input.interrupt.1 = ptpErrorTimeout
    · rw [if_pos htimeout] at hrun
      exact .idle hdec harr hrun
    · rw [if_neg htimeout] at hrun
      exact .idle hdec harr hrun

theorem checkOutcome_nikon (hnikon : input.IsNikon) : CheckOutcome input q := by
  have hrun : ptpCheckEvent input q = if input.nikonAnswer.1 ≠ ptpRcOk then
      some (input.nikonAnswer.1, q)
    else
      storeNikonBatch q (ptpUnpackNikonEC input.nikonAnswer.2).1
        (ptpUnpackNikonEC input.nikonAnswer.2).2 := by
    unfold ptpCheckEvent
    rw [if_pos hnikon]
  have harr : input.arrivals = if input.nikonAnswer.1 = ptpRcOk then
      (ptpUnpackNikonEC input.nikonAnswer.2).1.getD [] else [] := by
    unfold CheckInput.arrivals
    rw [if_pos hnikon]
  have hdec : input.Decodable ↔ (input.nikonAnswer.1 = ptpRcOk →
      2 ≤ input.nikonAnswer.2.length →
      nikonCount input.nikonAnswer.2 ≤ (input.nikonAnswer.2.length - 2) / 6) := by
    unfold CheckInput.Decodable
    rw [if_pos hnikon]
  by_cases hok : input.nikonAnswer.1 = ptpRcOk
  · rw [if_neg (not_not.mpr hok)] at hrun
    rw [if_pos hok] at harr
    rcases ptpUnpackNikonEC_cases input.nikonAnswer.2 with
      ⟨hlen, hbroken, hec⟩ | ⟨hlen, hcnt, hne, hec⟩ | ⟨hnone, hec⟩
    · refine .undefined (fun h => ?_) ?_
      · have := hdec.mp h hok hlen
        omega
      · rw [hrun, hec, storeNikonBatch, if_neg (by omega)]
    · refine .stored (hdec.mpr fun _ _ => hcnt) (by rw [harr, hec]) ?_
      rw [hrun, hec, storeNikonBatch, if_neg hne]
      rfl
    · refine .idle (hdec.mpr fun _ hlen => ?_) (by rw [harr, hec]; rfl) (by rw [hrun, hec]; rfl)
      rcases hnone with h | h <;> omega
  · rw [if_pos hok] at hrun
    rw [if_neg hok] at harr
    exact .idle (hdec.mpr fun h => absurd h hok) harr hrun

theorem checkOutcome_canon (hnikon : ¬ input.IsNikon) (heos : ¬ input.IsEos)
    (hcanon : input.IsCanon) : CheckOutcome input q := by
  have hrun : ptpCheckEvent input q = if input.canonAnswer.2 = [] then
        if input.canonAnswer.1 ≠ ptpRcOk then some (input.canonAnswer.1, q)
        else if 5 < input.canonEventMode then some (input.canonAnswer.1, q)
        else storeInterrupt input q
      else if input.canonAnswer.1 ≠ ptpRcOk then some (input.canonAnswer.1, q)
      else
        (ptpUnpackEC input.canonAnswer.2).bind fun event =>
          (ptpAddEvent q event).map fun q => (ptpRcOk, q) := by
    unfold ptpCheckEvent
    rw [if_neg hnikon, if_neg heos, if_pos hcanon]
  have harr : input.arrivals = if input.canonAnswer.1 ≠ ptpRcOk then []
      else if input.canonAnswer.2 ≠ [] then (ptpUnpackEC input.canonAnswer.2).toList
      else if 5 < input.canonEventMode then []
      else if input.interrupt.1 = ptpRcOk then [input.interrupt.2] else [] := by
    unfold CheckInput.arrivals
    simp only []
    rw [if_neg hnikon, if_neg heos, if_pos hcanon]
  have hdec : input.Decodable ↔ (input.canonAnswer.1 = ptpRcOk → input.canonAnswer.2 ≠ [] →
      canonEventLength input.canonAnswer.2 ≤ input.canonAnswer.2.length) := by
    unfold CheckInput.Decodable
    rw [if_neg hnikon, if_neg heos, if_pos hcanon]
  by_cases hok : input.canonAnswer.1 = ptpRcOk
  · rw [if_neg (not_not.mpr hok)] at hrun hrun harr
    by_cases hnil : input.canonAnswer.2 = []
    · rw [if_pos hnil] at hrun
      rw [if_neg (not_not.mpr hnil)] at harr
      have hdec' := hdec.mpr fun _ h => absurd hnil h
      by_cases hmode : 5 < input.canonEventMode
      · rw [if_pos hmode] at hrun harr
        exact .idle hdec' harr hrun
      · rw [if_neg hmode] at hrun harr
        exact .interrupt hdec' harr hrun
    · rw [if_neg hnil] at hrun
      rw [if_pos hnil] at harr
      cases hec : ptpUnpackEC input.canonAnswer.2 with
      | none =>
        have hshort := ptpUnpackEC_eq_none.mp hec
        refine .undefined (fun h => ?_) (by rw [hrun, hec]; rfl)
        have := hdec.mp h hok hnil
        omega
      | some event =>
        refine .stored (hdec.mpr fun _ _ => ?_) (show _ = [event] by rw [harr, hec]; rfl)
          (by rw [hrun, hec]; rfl)
        by_contra hshort
        rw [ptpUnpackEC_eq_none.mpr (by omega)] at hec
        cases hec
  · rw [if_pos hok, if_pos hok, ite_self] at hrun
    rw [if_pos hok] at harr
    exact .idle (hdec.mpr fun h => absurd h hok) harr hrun

/-- A call of `ptp_check_event` appends what arrives with it, unless its answer cannot be
decoded or the counter overflows. -/
theorem checkOutcome (input : CheckInput) (q : EventQueue) : CheckOutcome input q := by
  by_cases hnikon : input.IsNikon
  · exact checkOutcome_nikon hnikon
  by_cases heos : input.IsEos
  · refine .idle (r := ptpRcOk) ?_ ?_ ?_
    · unfold CheckInput.Decodable
      rw [if_neg hnikon, if_pos heos]
      trivial
    · unfold CheckInput.arrivals
      simp only []
      rw [if_neg hnikon, if_pos heos]
    · unfold ptpCheckEvent
      rw [if_neg hnikon, if_pos heos]
  by_cases hcanon : input.IsCanon
  · exact checkOutcome_canon hnikon heos hcanon
  · refine .interrupt ?_ ?_ ?_
    · unfold CheckInput.Decodable
      rw [if_neg hnikon, if_neg heos, if_neg hcanon]
      trivial
    · unfold CheckInput.arrivals
      simp only []
      rw [if_neg hnikon, if_neg heos, if_neg hcanon]
    · unfold ptpCheckEvent
      rw [if_neg hnikon, if_neg heos, if_neg hcanon]

/-- A step does to the pending events what it does to a queue that loses nothing. -/
theorem EventStep.exec_refines {step : EventStep} (delivered : List PTPContainer)
    (hdec : step.Decodable) (hroom : q.HasRoom step.abs.pushed) :
    ∃ q', step.exec q delivered =
        some (q', (step.abs.exec ⟨delivered, q.pending⟩).delivered) ∧
      q'.pending = (step.abs.exec ⟨delivered, q.pending⟩).pending := by
  cases step with
  | checkEvent input =>
    obtain ⟨r, q', hrun, hpending⟩ := (checkOutcome input q).1 ⟨hdec, hroom⟩
    refine ⟨q', ?_, hpending⟩
    simp only [EventStep.exec, hrun, Option.map_some]
    rfl
  | addEvent evt =>
    obtain ⟨q', hq'⟩ := EventQueue.store_room hroom
    refine ⟨q', ?_, (EventQueue.store_eq_some hq').1⟩
    simp only [EventStep.exec, ptpAddEvent]
    rw [show q.store [evt] = some q' from hq']
    rfl
  | getOneEvent =>
    obtain ⟨hevent, hpending⟩ := ptpGetOneEvent_run q
    refine ⟨(ptpGetOneEvent q).2, ?_, ?_⟩
    · simp only [EventStep.exec, EventStep.abs, FifoStep.exec, hevent]
      cases q.pending with
      | nil => simp
      | cons event rest => rfl
    · rw [hpending]
      simp only [EventStep.abs, FifoStep.exec]
      cases q.pending <;> rfl

theorem EventStep.exec_stuck (step : EventStep) (delivered : List PTPContainer)
    (h : ¬ (step.Decodable ∧ q.HasRoom step.abs.pushed)) : step.exec q delivered = none := by
  cases step with
  | checkEvent input =>
    simp only [EventStep.exec]
    rw [(checkOutcome input q).2 h]
    rfl
  | addEvent evt =>
    simp only [EventStep.exec, ptpAddEvent]
    rw [EventQueue.store_full [evt] fun hroom => h ⟨trivial, hroom⟩]
    rfl
  | getOneEvent => exact absurd ⟨trivial, q.hasRoom_nil⟩ h

end

/-! ### Runs -/

/-- After the run the queue holds, counted right and in order, what arrived and was not
delivered, and each event was delivered as soon as it was asked for and first in line. -/
def EventsFifo (steps : List EventStep) : Prop :=
  ∃ q delivered, runEvents steps = some (q, delivered) ∧
    delivered ++ q.pending = (steps.map EventStep.abs).flatMap FifoStep.pushed ∧
    delivered = (runFifo (steps.map EventStep.abs)).delivered ∧
    q.nrofevents = q.pending.length

/-- A step the queue takes after the steps before it. -/
def StepFits (pre : List EventStep) (step : EventStep) : Prop :=
  step.Decodable ∧
    (runFifo (pre.map EventStep.abs)).pending.length + step.abs.pushed.length < 2 ^ 31

theorem runEvents_concat (steps : List EventStep) (step : EventStep) :
    runEvents (steps ++ [step]) =
      (runEvents steps).bind fun (q, delivered) => step.exec q delivered :=
  List.foldl_append ..

/-- A run whose steps all fit keeps the queue of the run in step with the lossless one. -/
theorem runEvents_refines {steps : List EventStep}
    (h : ∀ pre step, pre ++ [step] <+: steps → StepFits pre step) :
    ∃ q, runEvents steps = some (q, (runFifo (steps.map EventStep.abs)).delivered) ∧
      q.pending = (runFifo (steps.map EventStep.abs)).pending := by
  induction steps using List.reverseRecOn with
  | nil => exact ⟨.empty, rfl, rfl⟩
  | append_singleton steps step ih =>
    obtain ⟨q, hrun, hpending⟩ := ih fun pre step' hpre =>
      h pre step' (hpre.trans (List.prefix_append ..))
    obtain ⟨hdec, hroom⟩ := h steps step List.prefix_rfl
    rw [← hpending, EventQueue.length_pending] at hroom
    obtain ⟨q', hstep, hpending'⟩ := EventStep.exec_refines
      (runFifo (steps.map EventStep.abs)).delivered hdec hroom
    rw [hpending] at hstep hpending'
    refine ⟨q', ?_, ?_⟩
    · rw [runEvents_concat, hrun, List.map_append, List.map_singleton, runFifo_concat]
      exact hstep
    · rw [List.map_append, List.map_singleton, runFifo_concat]
      exact hpending'

/-- A Nikon batch that announces one event and holds none. -/
def brokenNikonBatch : CheckInput where
  vendorExtensionID := ptpVendorNikon
  operationsSupported := [ptpOcNikonCheckEvent]
  canonEventMode := 0
  nikonAnswer := (ptpRcOk, [1, 0])
  canonAnswer := (ptpRcOk, [])
  interrupt := (ptpErrorTimeout, .zero)

end GPhoto2
