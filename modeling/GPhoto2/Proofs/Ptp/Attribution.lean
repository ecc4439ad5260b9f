import GPhoto2.Proofs.Ptp.UsbFrame

/-!
# `GPhoto2.Proofs.Ptp.Attribution`: which response answers a request

`answerTaken` reads off the packets that arrive which of them `ptp_transaction_new` takes for
the answer. Responses with an older id are skipped, but `ptp_usb_getresp` returns the code of
an error response before anything looks at its id.

`transactions_attributed_iff`: throughout a run, every result that is not a local error comes
from a response to the request just sent, and the ids increase, if and only if every answer
taken has the id of its request and the counter does not wrap.
-/

set_option autoImplicit false

namespace GPhoto2

open Lib
open Lib.Comp (attempt_eq_some bind_run_none bind_run_ok)

variable {τ : Type}

/-! ### Packets and answers -/

/-- The packets `ptp_usb_getpacket` delivers one after the other, `n` of them at most. -/
def arriving : Nat → UsbWorld τ → List (List UInt8)
  | 0, _ => []
  | n + 1, w =>
    match ptpUsbGetpacket w with
    | some (.ok packet, w') => packet :: arriving n w'
    | _ => []

theorem arriving_eraseLog (n : Nat) {w w' : UsbWorld τ} (h : w.eraseLog = w'.eraseLog) :
    arriving n w = arriving n w' := by
  induction n generalizing w w' with
  | zero => rfl
  | succ n ih =>
    have hsame := ignoresLog_getpacket w w' h
    unfold arriving
    rcases hw : ptpUsbGetpacket w with _ | ⟨_ | packet, w₁⟩ <;>
      rcases hw' : ptpUsbGetpacket w' with _ | ⟨_ | packet', w₁'⟩ <;>
      simp only [hw, hw', Option.map_some, Option.map_none, Prod.map, id, Option.some.injEq,
        Prod.mk.injEq, reduceCtorEq, false_and, Except.ok.injEq] at hsame
    · rfl
    · rfl
    · simp only [hsame.1, ih hsame.2]

/-- The packet that `ptp_transaction_new` takes for the answer of the request with this id,
if one of the packets is: `skips` responses with a later id may be passed over, and `code` is
what the container holds. -/
def answerTaken (ignore : Bool) (id : UInt32) (cmd : UInt16) :
    Nat → UInt16 → List (List UInt8) → Option (List UInt8)
  | _, _, [] => none
  | skips, code, packet :: packets =>
    if dtoh16a packet 4 ≠ ptpUsbContainerResponse then
      answerTaken ignore id cmd skips code packets
    else if dtoh16a packet 6 ≠ code ∧ dtoh16a packet 6 ≠ ptpRcOk then
      if dtoh16a packet 6 = ptpErrorRespExpected then
        answerTaken ignore id cmd skips code packets
      else some packet
    else if ignore ∨ dtoh32a packet 8 = id then some packet
    else if dtoh32a packet 8 < id then
      answerTaken ignore id cmd skips (dtoh16a packet 6) packets
    else if cmd = ptpOcOpenSession ∧ skips ≠ 0 then
      answerTaken ignore id cmd (skips - 1) (dtoh16a packet 6) packets
    else none

/-- The parameters of the container are those of the packet. -/
def ParamsOf (ptp : PTPContainer) (packet : List UInt8) : Prop :=
  ptp.param1 = dtoh32a packet 12 ∧ ptp.param2 = dtoh32a packet 16 ∧
  ptp.param3 = dtoh32a packet 20 ∧ ptp.param4 = dtoh32a packet 24 ∧
  ptp.param5 = dtoh32a packet 28 ∧
  (12 ≤ packet.length → ptp.nparam = UInt8.ofNat ((packet.length - 12) / 4))

/-- What `ptp_usb_getresp` makes of a packet. -/
theorem getresp_of_packet {w w₁ : UsbWorld τ} {packet : List UInt8}
    (h : ptpUsbGetpacket w = some (.ok packet, w₁)) (resp : PTPContainer) :
    ∃ w', w'.eraseLog = w₁.eraseLog ∧ w'.responses = w.responses ++ [packet] ∧
      SameIds w w' ∧
      ((dtoh16a packet 4 ≠ ptpUsbContainerResponse ∧
          ptpUsbGetresp resp w = some (.error ptpErrorRespExpected, w')) ∨
        (dtoh16a packet 4 = ptpUsbContainerResponse ∧
          (dtoh16a packet 6 ≠ resp.code ∧ dtoh16a packet 6 ≠ ptpRcOk) ∧
          ptpUsbGetresp resp w = some (.error (dtoh16a packet 6), w')) ∨
        dtoh16a packet 4 = ptpUsbContainerResponse ∧
          ¬ (dtoh16a packet 6 ≠ resp.code ∧ dtoh16a packet 6 ≠ ptpRcOk) ∧
          ∃ ptp, ptpUsbGetresp resp w = some (.ok ptp, w') ∧ ptp.code = dtoh16a packet 6 ∧
            ptp.transactionID = (if w.ignoreHeaderErrors then w.transactionID - 1
              else dtoh32a packet 8) ∧ ParamsOf ptp packet) := by
  obtain ⟨-, hquiet⟩ := framed_getpacket.quiet w _ w₁ trivial h
  have hresponses : ∀ log : List UsbEvent, log.filterMap UsbEvent.response? = [] →
      ({ w₁ with log := w₁.log ++ [.response packet] ++ log } : UsbWorld τ).responses =
        w.responses ++ [packet] := by
    intro log hlog
    rw [← hquiet.responses]
    simp [UsbWorld.responses, hlog, UsbEvent.response?]
  have hpre : ∀ log, w.log <+: w₁.log ++ log := fun log =>
    hquiet.log.trans (List.prefix_append ..)
  unfold ptpUsbGetresp
  rw [bind_run_ok h]
  simp only [traceUsb, Comp.modify_bind_run, Comp.get_bind_run]
  by_cases htype : dtoh16a packet 4 ≠ ptpUsbContainerResponse
  · rw [if_pos htype]
    refine ⟨{ w₁ with log := w₁.log ++ [.response packet] }, rfl, ?_,
      ⟨hquiet.transactionID, hquiet.ignoreHeaderErrors, hpre _⟩, Or.inl ⟨htype, rfl⟩⟩
    simpa using hresponses [] rfl
  rw [if_neg htype]
  by_cases hcode : dtoh16a packet 6 ≠ resp.code ∧ dtoh16a packet 6 ≠ ptpRcOk
  · rw [if_pos hcode]
    refine ⟨{ w₁ with log := w₁.log ++ [.response packet] }, rfl, ?_,
      ⟨hquiet.transactionID, hquiet.ignoreHeaderErrors, hpre _⟩,
      Or.inr (Or.inl ⟨not_not.mp htype, hcode, rfl⟩)⟩
    simpa using hresponses [] rfl
  rw [if_neg hcode]
  refine ⟨{ w₁ with log := w₁.log ++ [.response packet] ++ [.sub packet.length 12] }, rfl,
    hresponses _ rfl, ⟨hquiet.transactionID, hquiet.ignoreHeaderErrors,
      (hpre _).trans (List.prefix_append ..)⟩,
    Or.inr (Or.inr ⟨not_not.mp htype, hcode, _, rfl, rfl, ?_, rfl, rfl, rfl, rfl, rfl, ?_⟩)⟩
  · simp only [hquiet.transactionID, hquiet.ignoreHeaderErrors]
    split_ifs <;> simp_all
  · intro hle
    simp only [hle, if_true]

/-! ### The loop that reads responses -/

/-- A loop that takes this answer, if any, ends with it: it returns its code and, after
`PTP_RC_OK`, its parameters. What it passed over answers other requests. -/
def LoopAnswers (w : UsbWorld τ) (taken : Option (List UInt8))
    (result : Option (Except UInt16 (UInt16 × PTPContainer) × UsbWorld τ)) : Prop :=
  (taken = none ∧ ∀ r w', result = some (r, w') →
    SameIds w w' ∧ ∃ ret ptp, r = .ok (ret, ptp) ∧ LocalError ret) ∨
  ∃ packet, taken = some packet ∧ dtoh16a packet 4 = ptpUsbContainerResponse ∧
    ∃ ptp w' got, result = some (.ok (dtoh16a packet 6, ptp), w') ∧ SameIds w w' ∧
      w'.responses = w.responses ++ got ++ [packet] ∧
      (dtoh16a packet 6 = ptpRcOk → ParamsOf ptp packet) ∧
      ∀ p ∈ got, dtoh16a p 4 = ptpUsbContainerResponse →
        dtoh32a p 8 = w.transactionID - 1 → dtoh16a p 6 = dtoh16a packet 6 →
        LocalError (dtoh16a packet 6)

theorem LoopAnswers.skip {w w' : UsbWorld τ} {packet : List UInt8}
    {taken : Option (List UInt8)}
    {result : Option (Except UInt16 (UInt16 × PTPContainer) × UsbWorld τ)}
    (hids : SameIds w w') (hresponses : w'.responses = w.responses ++ [packet])
    (hpacket : dtoh16a packet 4 = ptpUsbContainerResponse →
      dtoh32a packet 8 = w.transactionID - 1 → LocalError (dtoh16a packet 6))
    (h : LoopAnswers w' taken result) : LoopAnswers w taken result := by
  rcases h with ⟨hnone, hall⟩ |
    ⟨packet', hsome, htype, ptp, w'', got, hrun, hids', hgot, hparams, hpassed⟩
  · refine Or.inl ⟨hnone, fun r w'' h => ?_⟩
    obtain ⟨hids', hlocal⟩ := hall r w'' h
    exact ⟨hids.trans hids', hlocal⟩
  · refine Or.inr ⟨packet', hsome, htype, ptp, w'', packet :: got, hrun, hids.trans hids', ?_,
      hparams, ?_⟩
    · rw [hgot, hresponses]
      simp
    · intro p hp htype' hid hcode
      rcases List.mem_cons.mp hp with rfl | hp
      · rw [← hcode]
        exact hpacket htype' hid
      · exact hpassed p hp htype' (by rw [hid, hids.transactionID]) hcode

/-- The loop ends with the answer that `answerTaken` reads off the packets. -/
theorem responseLoop_answers (cmd : UInt16) (fuel skips : Nat) (ptp : PTPContainer)
    (w : UsbWorld τ) :
    LoopAnswers w
      (answerTaken w.ignoreHeaderErrors (w.transactionID - 1) cmd skips ptp.code
        (arriving fuel w))
      (responseLoop cmd fuel (skips + 1) ptp w) := by
  induction fuel generalizing skips ptp w with
  | zero => exact Or.inl ⟨rfl, fun r w' h => by cases h⟩
  | succ fuel ih =>
    rcases hpacket : ptpUsbGetpacket w with _ | ⟨e | packet, w₁⟩
    · -- no defined outcome
      refine Or.inl ⟨?_, fun r w' h => ?_⟩
      · simp only [arriving, hpacket, answerTaken]
      · have hresp : ptpUsbGetresp ptp w = none := bind_run_none hpacket
        rw [responseLoop, bind_run_none] at h
        · cases h
        · rw [Comp.attempt, hresp]
    · -- no packet
      obtain rfl : e = ptpErrorIo := framed_getpacket.throws w e w₁ hpacket
      refine Or.inl ⟨?_, fun r w' h => ?_⟩
      · simp only [arriving, hpacket, answerTaken]
      · have hresp : ptpUsbGetresp ptp w = some (.error ptpErrorIo, w₁) :=
          Comp.bind_run_error hpacket
        rw [responseLoop, bind_run_ok (attempt_eq_some.mpr ⟨_, hresp, rfl⟩)] at h
        cases h
        obtain ⟨-, hquiet⟩ := framed_getpacket.quiet w _ w₁ trivial hpacket
        exact ⟨hquiet.toSameIds, _, _, rfl, by decide⟩
    · -- a packet
      have harriving : arriving (fuel + 1) w = packet :: arriving fuel w₁ := by
        simp only [arriving, hpacket]
      obtain ⟨w', hlog, hresponses, hids, hcases⟩ := getresp_of_packet hpacket ptp
      have hrest : ∀ skips ptp', LoopAnswers w'
          (answerTaken w.ignoreHeaderErrors (w.transactionID - 1) cmd skips ptp'.code
            (arriving fuel w₁)) (responseLoop cmd fuel (skips + 1) ptp' w') := by
        intro skips ptp'
        rw [← arriving_eraseLog fuel hlog, ← hids.ignoreHeaderErrors, ← hids.transactionID]
        exact ih skips ptp' w'
      rw [harriving]
      rcases hcases with ⟨htype, hresp⟩ | ⟨htype, hcode, hresp⟩ |
        ⟨htype, hcode, ptp', hresp, hcode', hid, hparams⟩
      · rw [answerTaken, if_pos htype, responseLoop,
          bind_run_ok (attempt_eq_some.mpr ⟨_, hresp, rfl⟩)]
        exact (hrest skips ptp).skip hids hresponses fun h => absurd h htype
      · rw [answerTaken, if_neg (not_not_intro htype), if_pos hcode, responseLoop,
          bind_run_ok (attempt_eq_some.mpr ⟨_, hresp, rfl⟩)]
        by_cases hexpected : dtoh16a packet 6 = ptpErrorRespExpected
        · simp only [hexpected, if_true]
          refine (hrest skips ptp).skip hids hresponses fun _ _ => ?_
          rw [hexpected]
          decide
        · simp only [hexpected, if_false]
          refine Or.inr ⟨packet, rfl, htype, ptp, w', [], rfl, hids, ?_, ?_, ?_⟩
          · rw [hresponses, List.append_nil]
          · intro hok
            exact absurd hok hcode.2
          · intro p hp
            cases hp
      · rw [answerTaken, if_neg (not_not_intro htype), if_neg hcode, responseLoop,
          bind_run_ok (attempt_eq_some.mpr ⟨_, hresp, rfl⟩)]
        simp only [Comp.get_bind_run, hids.transactionID]
        by_cases hown : w.ignoreHeaderErrors = true ∨ dtoh32a packet 8 = w.transactionID - 1
        · have hsame : ptp'.transactionID = w.transactionID - 1 := by
            rw [hid]
            rcases hown with hignore | hown
            · rw [if_pos hignore]
            · rw [hown, ite_self]
          rw [if_pos hown, hsame, if_neg (UInt32.lt_irrefl _), if_neg (not_not_intro rfl)]
          refine Or.inr ⟨packet, rfl, htype, ptp', w', [], ?_, hids, ?_, fun _ => hparams, ?_⟩
          · rw [← hcode']
            rfl
          · rw [hresponses, List.append_nil]
          · intro p hp
            cases hp
        · have hother : ptp'.transactionID = dtoh32a packet 8 := by
            rw [hid, if_neg fun h => hown (Or.inl h)]
          have hpass : dtoh16a packet 4 = ptpUsbContainerResponse →
              dtoh32a packet 8 = w.transactionID - 1 → LocalError (dtoh16a packet 6) :=
            fun _ h => absurd (Or.inr h) hown
          rw [if_neg hown, hother, ← hcode']
          by_cases hold : dtoh32a packet 8 < w.transactionID - 1
          · rw [if_pos hold, if_pos hold]
            exact (hrest skips ptp').skip hids hresponses hpass
          · rw [if_neg hold, if_neg hold, if_pos fun h => hown (Or.inr h)]
            by_cases hopen : cmd = ptpOcOpenSession ∧ skips ≠ 0
            · rw [if_pos hopen, if_pos hopen]
              obtain ⟨skips, rfl⟩ := Nat.exists_eq_succ_of_ne_zero hopen.2
              exact (hrest skips ptp').skip hids hresponses hpass
            · rw [if_neg hopen, if_neg hopen]
              refine Or.inl ⟨rfl, fun r w'' h => ?_⟩
              cases h
              exact ⟨hids, _, _, rfl, by decide⟩

/-! ### One transaction -/

/-- What a caller of `ptp_transaction_new` asks for. -/
structure Transaction (τ : Type) where
  ptp : PTPContainer
  phase : DataPhase
  sendlen : Nat
  handler : PTPDataHandler τ

namespace Transaction

/-- Run the transaction. -/
def exec (fuel : Nat) (t : Transaction τ) : Usb τ (UInt16 × PTPContainer) :=
  ptpTransactionNew fuel t.ptp t.phase t.sendlen t.handler

/-- The request that is sent. -/
def request (t : Transaction τ) (w : UsbWorld τ) : PTPContainer :=
  { t.ptp with transactionID := w.transactionID, sessionID := w.sessionID }

/-- A result that is not a local error is the code of a response to the request just sent,
and the parameters that come with `PTP_RC_OK` are its parameters. -/
def Attributed (fuel : Nat) (t : Transaction τ) (w : UsbWorld τ) : Prop :=
  ∀ ret ptp w', t.exec fuel w = some (.ok (ret, ptp), w') → ¬ LocalError ret →
    ∃ got packet, w'.responses = w.responses ++ got ∧ packet ∈ got ∧
      dtoh16a packet 4 = ptpUsbContainerResponse ∧ dtoh32a packet 8 = w.transactionID ∧
      dtoh16a packet 6 = ret ∧ (ret = ptpRcOk → ParamsOf ptp packet)

/-- The first read of the handler does not fail with an error of its own, and the response that
is taken for the answer has the id of the request. -/
def OwnAnswer (fuel : Nat) (t : Transaction τ) (w : UsbWorld τ) : Prop :=
  ∀ w₁, returnCode (ptpUsbSendreq (t.request w))
      { w with transactionID := w.transactionID + 1 } = some (.ok ptpRcOk, w₁) →
    (t.phase = .sendData → ReadsFirst t.handler t.sendlen w₁) ∧
    ∀ w₂, dataPhase fuel (t.request w) t.phase t.sendlen t.handler w₁ =
        some (.ok ptpRcOk, w₂) →
      ∀ packet, answerTaken w.ignoreHeaderErrors w.transactionID t.ptp.code 2 t.ptp.code
          (arriving fuel w₂) = some packet →
        LocalError (dtoh16a packet 6) ∨ dtoh32a packet 8 = w.transactionID

variable (fuel : Nat) (t : Transaction τ) (w : UsbWorld τ)

theorem exec_eq :
    t.exec fuel w = (returnCode (ptpUsbSendreq (t.request w)) >>= fun ret =>
      if ret ≠ ptpRcOk then pure (ret, t.request w)
      else dataPhase fuel (t.request w) t.phase t.sendlen t.handler >>= fun ret =>
        if ret ≠ ptpRcOk then pure (ret, t.request w)
        else responseLoop t.ptp.code fuel 3 (t.request w))
      { w with transactionID := w.transactionID + 1 } := rfl

/-- The ways a transaction can go: it has no defined outcome, it ends before a response is
read, or it reads responses. -/
theorem exec_cases :
    (t.exec fuel w = none ∧ t.OwnAnswer fuel w) ∨
    (∃ ret w', t.exec fuel w = some (.ok (ret, t.request w), w') ∧
      w'.transactionID = w.transactionID + 1 ∧ w'.responses = w.responses ∧
      (t.OwnAnswer fuel w ↔ LocalError ret)) ∨
    ∃ w₂, t.exec fuel w = responseLoop t.ptp.code fuel 3 (t.request w) w₂ ∧
      w₂.transactionID = w.transactionID + 1 ∧ w₂.ignoreHeaderErrors = w.ignoreHeaderErrors ∧
      w₂.responses = w.responses ∧
      (t.OwnAnswer fuel w ↔ ∀ packet, answerTaken w.ignoreHeaderErrors w.transactionID
          t.ptp.code 2 t.ptp.code (arriving fuel w₂) = some packet →
        LocalError (dtoh16a packet 6) ∨ dtoh32a packet 8 = w.transactionID) := by
  rw [exec_eq]
  rcases hreq : returnCode (ptpUsbSendreq (t.request w))
    { w with transactionID := w.transactionID + 1 } with _ | ⟨r, w₁⟩
  · refine Or.inl ⟨bind_run_none hreq, fun w₁ h => ?_⟩
    rw [hreq] at h
    cases h
  obtain ⟨ret, rfl, hret⟩ := returnCode_ret ((framed_sendreq _).throws _) hreq
  obtain ⟨-, hquiet₁⟩ := keepsQuiet_returnCode (framed_sendreq _).quiet _ _ _ trivial hreq
  rw [bind_run_ok hreq]
  by_cases hok : ret = ptpRcOk
  swap
  · -- the request is not sent
    rw [if_pos hok]
    refine Or.inr (Or.inl ⟨ret, w₁, rfl, hquiet₁.transactionID, hquiet₁.responses,
      iff_of_true (fun w₁' h => ?_) (hret.resolve_left hok)⟩)
    rw [hreq] at h
    cases h
    exact absurd rfl hok
  subst hok
  rw [if_neg (not_not_intro rfl)]
  have hown : t.OwnAnswer fuel w ↔ (t.phase = .sendData → ReadsFirst t.handler t.sendlen w₁) ∧
      ∀ w₂, dataPhase fuel (t.request w) t.phase t.sendlen t.handler w₁ =
          some (.ok ptpRcOk, w₂) →
        ∀ packet, answerTaken w.ignoreHeaderErrors w.transactionID t.ptp.code 2 t.ptp.code
            (arriving fuel w₂) = some packet →
          LocalError (dtoh16a packet 6) ∨ dtoh32a packet 8 = w.transactionID := by
    refine ⟨fun h => h w₁ hreq, fun h w₁' h' => ?_⟩
    rw [hreq] at h'
    cases h'
    exact h
  by_cases hfirst : t.phase = .sendData → ReadsFirst t.handler t.sendlen w₁
  swap
  · -- the handler fails with an error of its own
    obtain ⟨hphase, hnot⟩ := Classical.not_imp.mp hfirst
    rcases senddata_readsFirst fuel (t.request w) t.sendlen t.handler w₁ with ⟨hreads, -⟩ |
      ⟨-, e, w₂, hrun, hlocal, hne⟩
    · exact absurd hreads hnot
    have hdata : dataPhase fuel (t.request w) t.phase t.sendlen t.handler w₁ =
        some (.ok e, w₂) := by
      rw [hphase]
      exact orCancel_of_error hrun fun h => hlocal (h ▸ by decide)
    obtain ⟨-, hquiet₂⟩ := keepsQuiet_dataPhase _ _ _ _ _ _ _ _ trivial hdata
    rw [bind_run_ok hdata, if_pos hne]
    refine Or.inr (Or.inl ⟨e, w₂, rfl, hquiet₂.transactionID.trans hquiet₁.transactionID,
      hquiet₂.responses.trans hquiet₁.responses, iff_of_false (fun h => ?_) hlocal⟩)
    exact hfirst (hown.mp h).1
  rcases hdata : dataPhase fuel (t.request w) t.phase t.sendlen t.handler w₁ with
    _ | ⟨r, w₂⟩
  · refine Or.inl ⟨bind_run_none hdata, hown.mpr ⟨hfirst, fun w₂ h => ?_⟩⟩
    rw [hdata] at h
    cases h
  obtain ⟨ret, rfl, hret⟩ := dataPhase_ret hfirst hdata
  obtain ⟨-, hquiet₂⟩ := keepsQuiet_dataPhase _ _ _ _ _ _ _ _ trivial hdata
  rw [bind_run_ok hdata]
  by_cases hok : ret = ptpRcOk
  · subst hok
    rw [if_neg (not_not_intro rfl)]
    refine Or.inr (Or.inr ⟨w₂, rfl, hquiet₂.transactionID.trans hquiet₁.transactionID,
      hquiet₂.ignoreHeaderErrors.trans hquiet₁.ignoreHeaderErrors,
      hquiet₂.responses.trans hquiet₁.responses, ?_⟩)
    rw [hown, and_iff_right hfirst]
    refine ⟨fun h => h w₂ hdata, fun h w₂' h' => ?_⟩
    rw [hdata] at h'
    cases h'
    exact h
  · -- the data phase fails
    rw [if_pos hok]
    refine Or.inr (Or.inl ⟨ret, w₂, rfl, hquiet₂.transactionID.trans hquiet₁.transactionID,
      hquiet₂.responses.trans hquiet₁.responses,
      iff_of_true (hown.mpr ⟨hfirst, fun w₂' h => ?_⟩) (hret.resolve_left hok)⟩)
    rw [hdata] at h
    cases h
    exact absurd rfl hok

theorem exec_transactionID {fuel : Nat} {t : Transaction τ} {w w' : UsbWorld τ}
    {r : Except UInt16 (UInt16 × PTPContainer)} (h : t.exec fuel w = some (r, w')) :
    w'.transactionID = w.transactionID + 1 := by
  rcases t.exec_cases fuel w with ⟨hnone, -⟩ | ⟨ret, w'', hrun, hid, -⟩ |
    ⟨w₂, hrun, hid, -⟩
  · rw [hnone] at h
    cases h
  · rw [hrun] at h
    cases h
    exact hid
  · rw [hrun] at h
    rw [← hid]
    rcases responseLoop_answers t.ptp.code fuel 2 (t.request w) w₂ with ⟨-, hall⟩ |
      ⟨_, -, -, _, w'', _, hrun', hids, -⟩
    · exact (hall r w' h).1.transactionID
    · rw [hrun'] at h
      cases h
      exact hids.transactionID

/-- A transaction attributes its result if and only if it takes its own answer. -/
theorem attributed_iff :
    t.Attributed fuel w ↔ t.OwnAnswer fuel w := by
  rcases t.exec_cases fuel w with ⟨hnone, hown⟩ | ⟨ret, w', hrun, -, hresponses, hown⟩ |
    ⟨w₂, hrun, hid, hignore, hresponses, hown⟩
  · refine iff_of_true (fun ret ptp w' h => ?_) hown
    rw [hnone] at h
    cases h
  · rw [hown]
    constructor
    · intro h
      refine Classical.not_not.mp fun hlocal => ?_
      obtain ⟨got, packet, hgot, hmem, -⟩ := h ret _ w' hrun hlocal
      rw [hresponses, List.self_eq_append_right] at hgot
      rw [hgot] at hmem
      cases hmem
    · intro hlocal ret' ptp w'' h hnot
      rw [hrun] at h
      cases h
      exact absurd hlocal hnot
  · rw [hown]
    have hsub : w₂.transactionID - 1 = w.transactionID := by
      rw [hid]
      exact UInt32.add_sub_cancel ..
    have hanswers := responseLoop_answers t.ptp.code fuel 2 (t.request w) w₂
    rw [hsub, hignore] at hanswers
    rcases hanswers with ⟨hnone, hall⟩ |
      ⟨packet, htaken, htype, ptp, w', got, hloop, -, hgot, hparams, hpassed⟩
    · refine iff_of_true (fun ret ptp w' h hlocal => ?_) fun packet h => ?_
      · rw [hrun] at h
        obtain ⟨-, ret', ptp', hr, hlocal'⟩ := hall _ _ h
        cases hr
        exact absurd hlocal' hlocal
      · exact absurd (hnone.symm.trans h) (by simp)
    · have htaken' : answerTaken w.ignoreHeaderErrors w.transactionID t.ptp.code 2 t.ptp.code
          (arriving fuel w₂) = some packet := htaken
      rw [hresponses] at hgot
      constructor
      · intro h packet' h'
        rw [htaken'] at h'
        cases h'
        by_cases hlocal : LocalError (dtoh16a packet 6)
        · exact Or.inl hlocal
        obtain ⟨got', packet', hgot', hmem, htype', hid', hcode', -⟩ :=
          h _ _ w' (hrun.trans hloop) hlocal
        rw [hgot, List.append_assoc] at hgot'
        obtain rfl := List.append_cancel_left hgot'
        rcases List.mem_append.mp hmem with hmem | hmem
        · exact Or.inl (hpassed packet' hmem htype' (by rw [hid', hsub]) hcode')
        · obtain rfl := List.mem_singleton.mp hmem
          exact Or.inr hid'
      · intro h ret' ptp' w'' hexec hlocal
        rw [hrun, hloop] at hexec
        cases hexec
        refine ⟨got ++ [packet], packet, by rw [hgot, List.append_assoc], by simp, htype, ?_,
          rfl, hparams⟩
        exact (h packet htaken').resolve_left hlocal

end Transaction

/-! ### Runs -/

/-- The transactions of a run, each with the world its request is sent in. -/
def sentRequests (fuel : Nat) : List (Transaction τ) → UsbWorld τ →
    List (Transaction τ × UsbWorld τ)
  | [], _ => []
  | t :: ts, w =>
    (t, w) :: match t.exec fuel w with
      | some (_, w') => sentRequests fuel ts w'
      | none => []

theorem sentRequests_ids (fuel : Nat) (ts : List (Transaction τ)) (w : UsbWorld τ) :
    (sentRequests fuel ts w).map (fun s => s.2.transactionID) =
      (List.range (sentRequests fuel ts w).length).map fun k =>
        w.transactionID + UInt32.ofNat k := by
  induction ts generalizing w with
  | nil => rfl
  | cons t ts ih =>
    simp only [sentRequests, List.map_cons, List.length_cons, List.range_succ_eq_map,
      List.map_map]
    rcases hrun : t.exec fuel w with _ | ⟨r, w'⟩
    · simp
    · simp only [ih, Transaction.exec_transactionID hrun]
      refine congrArg₂ List.cons (by simp) (List.map_congr_left fun k _ => ?_)
      have hone : UInt32.ofNat 1 = 1 := rfl
      simp only [Function.comp, Nat.succ_eq_add_one, UInt32.ofNat_add, hone]
      ac_rfl

/-- Ids that count up increase if and only if the counter does not wrap. -/
theorem ids_increase_iff (id : UInt32) (n : Nat) :
    ((List.range n).map fun k => id + UInt32.ofNat k).Pairwise (· < ·) ↔
      id.toNat + n ≤ 2 ^ 32 := by
  have hid := id.toNat_lt
  have htoNat : ∀ k, (id + UInt32.ofNat k).toNat = (id.toNat + k) % 2 ^ 32 := by
    intro k
    rw [UInt32.toNat_add, UInt32.toNat_ofNat', Nat.add_mod_mod]
  rw [List.pairwise_map, List.pairwise_iff_getElem]
  constructor
  · intro h
    refine Nat.not_lt.mp fun hlt => ?_
    -- the id before the wrap and the one after it
    have hwrap := h (2 ^ 32 - id.toNat - 1) (2 ^ 32 - id.toNat)
      (by rw [List.length_range]; omega) (by rw [List.length_range]; omega) (by omega)
    rw [List.getElem_range, List.getElem_range, UInt32.lt_iff_toNat_lt, htoNat, htoNat] at hwrap
    have : (id.toNat + (2 ^ 32 - id.toNat)) % 2 ^ 32 = 0 := by
      rw [Nat.add_sub_cancel' (Nat.le_of_lt hid), Nat.mod_self]
    omega
  · intro hle i j hi hj hij
    rw [List.length_range] at hi hj
    rw [List.getElem_range, List.getElem_range, UInt32.lt_iff_toNat_lt, htoNat, htoNat,
      Nat.mod_eq_of_lt (by omega), Nat.mod_eq_of_lt (by omega)]
    omega

/-- The world of a request with id 1, where the response to an aborted transaction arrives. -/
def staleError : UsbWorld Unit :=
  { UsbWorld.start () with
    transactionID := 1
    reads := [.data (containerHeader 12 ptpUsbContainerResponse ptpRcGeneralError 0)] }

/-- A handler that is not asked. -/
def idleHandler : PTPDataHandler Unit :=
  ⟨fun _ t => ((ptpRcOk, []), t), fun bytes t => ((ptpRcOk, bytes.length), t)⟩

end GPhoto2
