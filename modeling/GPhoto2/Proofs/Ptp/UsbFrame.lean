import GPhoto2.Ptp.Transaction

/-!
# `GPhoto2.Proofs.Ptp.UsbFrame`: what the transport leaves alone

But for `ptp_transaction_new` itself nothing changes the transaction id, and but for
`ptp_usb_getresp` nothing gets a response (`Quiet`). The data phases return `PTP_RC_OK`, a
local error, or what the handler said at the first read (`dataPhase_ret`). What
`ptp_usb_getpacket` delivers does not depend on the trace (`ignoresLog_getpacket`).
-/

set_option autoImplicit false

namespace GPhoto2

open Lib
open Lib.Comp (Keeps Respects Throws bind_eq_some bind_run_ok get_bind_run)

variable {τ : Type}

/-! ### The frame -/

/-- The packet of a trace of `ptp_usb_getresp`. -/
def UsbEvent.response? : UsbEvent → Option (List UInt8)
  | .response packet => some packet
  | _ => none

/-- The packets `ptp_usb_getresp` got. -/
def UsbWorld.responses (w : UsbWorld τ) : List (List UInt8) :=
  w.log.filterMap UsbEvent.response?

/-- Neither the id of the next transaction nor the quirks of the device change, and the trace
only grows. -/
structure SameIds (w w' : UsbWorld τ) : Prop where
  transactionID : w'.transactionID = w.transactionID
  ignoreHeaderErrors : w'.ignoreHeaderErrors = w.ignoreHeaderErrors
  log : w.log <+: w'.log

/-- In addition, no response is got. -/
structure Quiet (w w' : UsbWorld τ) : Prop extends SameIds w w' where
  responses : w'.responses = w.responses

variable {w w' : UsbWorld τ}

theorem SameIds.trans {w'' : UsbWorld τ} (h : SameIds w w') (h' : SameIds w' w'') :
    SameIds w w'' := ⟨h'.1.trans h.1, h'.2.trans h.2, h.3.trans h'.3⟩

instance : IsPreorder (UsbWorld τ) Quiet where
  refl _ := ⟨⟨rfl, rfl, List.prefix_rfl⟩, rfl⟩
  trans _ _ _ h h' := ⟨h.1.trans h'.1, h'.2.trans h.2⟩

theorem Quiet.of_log (hid : w'.transactionID = w.transactionID)
    (hignore : w'.ignoreHeaderErrors = w.ignoreHeaderErrors) (hlog : w'.log = w.log) :
    Quiet w w' :=
  ⟨⟨hid, hignore, hlog ▸ List.prefix_rfl⟩, congrArg (List.filterMap _) hlog⟩

/-- Keeping the frame. -/
abbrev KeepsQuiet {α : Type} (m : Usb τ α) : Prop := Keeps (fun _ => True) Quiet m

/-- Keeping the frame, with all errors in `E`. -/
structure Framed {α : Type} (E : UInt16 → Prop) (m : Usb τ α) : Prop where
  quiet : KeepsQuiet m
  throws : Throws E m

namespace Framed

variable {α β : Type} {E E' : UInt16 → Prop} {m m' : Usb τ α}

theorem mono (h : Framed E m) (hE : ∀ e, E e → E' e) : Framed E' m :=
  ⟨h.quiet, h.throws.mono hE⟩

theorem stuck : Framed E (Comp.stuck : Usb τ α) := ⟨Keeps.stuck, Throws.stuck⟩

theorem pure (a : α) : Framed E (Pure.pure a : Usb τ α) :=
  ⟨Keeps.pure a, Throws.pure a⟩

theorem throw {e : UInt16} (h : E e) : Framed E (Comp.throw e : Usb τ α) :=
  ⟨Keeps.throw e, Throws.throw h⟩

theorem get : Framed E (Comp.get : Usb τ (UsbWorld τ)) := ⟨Keeps.get, Throws.get⟩

theorem modify {g : UsbWorld τ → UsbWorld τ} (h : ∀ w, Quiet w (g w)) :
    Framed E (Comp.modify g : Usb τ Unit) :=
  ⟨Keeps.modify fun w _ => ⟨trivial, h w⟩, Throws.modify g⟩

theorem bind {k : α → Usb τ β} (hm : Framed E m) (hk : ∀ a, Framed E (k a)) :
    Framed E (m >>= k) :=
  ⟨hm.quiet.bind fun a => (hk a).quiet, hm.throws.bind fun a => (hk a).throws⟩

theorem ite {c : Prop} [Decidable c] (hm : c → Framed E m) (hm' : ¬ c → Framed E m') :
    Framed E (if c then m else m') :=
  ⟨Keeps.ite (fun h => (hm h).quiet) fun h => (hm' h).quiet,
    Throws.ite (fun h => (hm h).throws) fun h => (hm' h).throws⟩

end Framed

/-! ### The functions -/

/-- The codes the driver returns without a response of the device, `PTP_ERROR_*`. -/
def LocalError (ret : UInt16) : Prop :=
  ret ∈ [ptpErrorTimeout, ptpErrorCancel, ptpErrorBadParam, ptpErrorRespExpected,
    ptpErrorDataExpected, ptpErrorIo]

instance (ret : UInt16) : Decidable (LocalError ret) := by
  unfold LocalError
  infer_instance

section
variable {E : UInt16 → Prop} (n fuel : Nat) (packet bytes : List UInt8) (ptp : PTPContainer)
  (off len size packlen rlen : Nat) (ret : UInt16)

theorem framed_gpPortRead : Framed E (gpPortRead n : Usb τ _) :=
  Framed.get.bind fun _ => .bind (.modify fun _ => .of_log rfl rfl rfl) fun _ => .pure _

theorem framed_gpPortWrite : Framed E (gpPortWrite bytes : Usb τ _) := by
  refine Framed.get.bind fun w => .ite (fun _ => ?_) fun _ => ?_
  · exact .bind (.modify fun _ => .of_log rfl rfl rfl) fun _ => .pure _
  · exact .bind (.modify fun _ => .of_log rfl rfl rfl) fun _ => .pure _

theorem framed_traceUsb {e : UsbEvent} (he : e.response? = none) :
    Framed E (traceUsb e : Usb τ Unit) := by
  refine Framed.modify fun w => ⟨⟨rfl, rfl, List.prefix_append ..⟩, ?_⟩
  simp only [UsbWorld.responses, List.filterMap_append, List.filterMap_cons, he,
    List.filterMap_nil, List.append_nil]

theorem framed_lenSub (a b : Nat) : Framed E (lenSub a b : Usb τ Nat) :=
  (framed_traceUsb rfl).bind fun _ => .pure _

theorem framed_copyOut (room : Nat) :
    Framed E (copyOut packet off len room : Usb τ _) :=
  (framed_traceUsb rfl).bind fun _ => .ite (fun _ => .pure _) fun _ => .stuck

theorem framed_putfunc (handler : PTPDataHandler τ) (bytes : List UInt8) :
    Framed E (putfunc handler bytes) :=
  Framed.get.bind fun _ => .bind (.modify fun _ => .of_log rfl rfl rfl) fun _ => .pure _

theorem framed_getfunc (handler : PTPDataHandler τ) (n : Nat) : Framed E (getfunc handler n) :=
  Framed.get.bind fun _ => .bind (.modify fun _ => .of_log rfl rfl rfl) fun _ => .pure _

theorem framed_ioUnlessCancel :
    Framed LocalError (ioUnlessCancel ret : Usb τ Unit) :=
  .ite (fun _ => .pure _) fun _ =>
    .ite (fun hcancel => .throw (hcancel ▸ by decide)) fun _ => .throw (by decide)

theorem framed_sendreq (req : PTPContainer) :
    Framed LocalError (ptpUsbSendreq req : Usb τ Unit) :=
  (framed_gpPortWrite _).bind fun _ => .ite (fun _ => .throw (by decide)) fun _ => .pure _

theorem framed_senddataLoop (handler : PTPDataHandler τ) (fuel left written : Nat) :
    Framed E (senddataLoop handler fuel left written) := by
  induction fuel generalizing left written with
  | zero => exact .stuck
  | succ fuel ih =>
    refine .ite (fun _ => .pure _) fun _ => (framed_getfunc handler _).bind fun answer => ?_
    refine .ite (fun _ => .pure _) fun _ => (framed_gpPortWrite _).bind fun res => ?_
    exact .ite (fun _ => .pure _) fun _ => ih _ _

theorem framed_senddataFinalize (written : Nat) :
    Framed LocalError (senddataFinalize ret written : Usb τ Unit) :=
  Framed.get.bind fun _ => .ite
    (fun _ => (framed_gpPortWrite _).bind fun _ => framed_ioUnlessCancel ret)
    fun _ => framed_ioUnlessCancel ret

/-- `ptp_usb_senddata`, after the payload of the first packet has been read. -/
def senddataRest (fuel : Nat) (ptp : PTPContainer) (size : Nat) (handler : PTPDataHandler τ)
    (data : List UInt8) : Usb τ Unit := do
  let usbdata := containerHeader (UInt32.ofNat (ptpUsbBulkHdrLen + size)) ptpUsbContainerData
    ptp.code ptp.transactionID ++ data
  let res ← gpPortWrite usbdata
  if res ≠ usbdata.length then Comp.throw ptpErrorIo
  else if size ≤ data.length then senddataFinalize ptpRcOk usbdata.length
  else do
    let (ret, written) ← senddataLoop handler fuel (size - data.length) 0
    senddataFinalize ret written

theorem framed_senddataRest (handler : PTPDataHandler τ) (data : List UInt8) :
    Framed LocalError (senddataRest fuel ptp size handler data) := by
  refine (framed_gpPortWrite _).bind fun res => .ite (fun _ => .throw (by decide)) fun _ => ?_
  refine .ite (fun _ => framed_senddataFinalize _ _) fun _ => ?_
  exact (framed_senddataLoop handler _ _ _).bind fun r => framed_senddataFinalize _ _

theorem keepsQuiet_senddata
    (handler : PTPDataHandler τ) : KeepsQuiet (ptpUsbSenddata fuel ptp size handler) := by
  have hfirst : Framed (fun _ => True) (senddataFirst size handler) := by
    refine Framed.get.bind fun w => .ite (fun _ => .pure _) fun _ => ?_
    refine (framed_getfunc handler _).bind fun answer => .ite (fun _ => .throw trivial) fun _ => ?_
    exact .ite (fun _ => .throw trivial) fun _ => .pure _
  exact hfirst.quiet.bind fun data => (framed_senddataRest fuel ptp size handler data).quiet

theorem framed_getpacketOnce : Framed E (getpacketOnce : Usb τ _) := by
  refine (framed_gpPortRead _).bind fun result => ?_
  rcases result with e | (_ | ⟨b, bytes⟩)
  · exact .pure _
  · exact framed_gpPortRead _
  · exact .pure _

theorem framed_packetRead (result : Except Int (List UInt8)) :
    Framed (· = ptpErrorIo) (packetRead result : Usb τ _) := by
  rcases result with e | (_ | ⟨b, bytes⟩)
  · exact .throw rfl
  · exact .throw rfl
  · exact .pure _

theorem framed_getpacket : Framed (· = ptpErrorIo) (ptpUsbGetpacket : Usb τ _) := by
  refine Framed.get.bind fun w => .ite (fun _ => ?_) fun _ => ?_
  · refine (framed_traceUsb rfl).bind fun _ => .ite (fun _ => .stuck) fun _ => ?_
    exact .bind (.modify fun _ => .of_log rfl rfl rfl) fun _ => .pure _
  · refine framed_getpacketOnce.bind fun result => ?_
    refine .ite (fun _ => ?_) fun _ => framed_packetRead result
    exact framed_getpacketOnce.bind framed_packetRead

theorem framed_saveResponse :
    Framed E (saveResponse packet off len : Usb τ Unit) :=
  (framed_copyOut _ _ _ _).bind fun _ => .modify fun _ => .of_log rfl rfl rfl

section
variable (handler : PTPDataHandler τ)
include handler

theorem framed_putPayload (packet : List UInt8) (rlen : Nat) :
    Framed E (putPayload handler packet rlen) :=
  (framed_lenSub _ _).bind fun _ => (framed_copyOut _ _ _ _).bind fun _ =>
    (framed_putfunc handler _).bind fun _ => .pure _

theorem framed_getdataUnknown (fuel : Nat) :
    Framed LocalError (getdataUnknown handler fuel) := by
  induction fuel with
  | zero => exact .stuck
  | succ fuel ih =>
    refine (framed_gpPortRead _).bind fun result => ?_
    rcases result with e | data
    · exact .throw (by decide)
    · exact (framed_putfunc handler _).bind fun _ => .ite (fun _ => .pure _) fun _ => ih

theorem framed_getdataLoop (fuel left curread : Nat)
    (res : Int) : Framed E (getdataLoop handler fuel left curread res) := by
  induction fuel generalizing left curread res with
  | zero => exact .stuck
  | succ fuel ih =>
    refine .ite (fun _ => .pure _) fun _ => Framed.get.bind fun w => ?_
    refine (framed_gpPortRead _).bind fun result => ?_
    rcases result with e | (_ | ⟨b, bytes⟩)
    · exact .pure _
    · exact .pure _
    · refine (framed_putfunc handler _).bind fun answer => .ite (fun _ => .pure _) fun _ => ?_
      refine .ite (fun _ => .pure _) fun _ => Framed.get.bind fun w => ?_
      refine .bind (.modify fun _ => .of_log rfl rfl rfl) fun _ => ?_
      exact .ite (fun _ => .pure _) fun _ => ih _ _ _

theorem framed_getdataRest (fuel left : Nat) :
    Framed LocalError (getdataRest handler fuel left) := by
  refine (framed_getdataLoop handler _ _ _ _).bind fun first => ?_
  refine .ite (fun _ => ?_) fun _ => framed_ioUnlessCancel _
  exact (framed_getdataLoop handler _ _ _ _).bind fun last => framed_ioUnlessCancel _

end

theorem framed_bufferSurplus :
    Framed E (bufferSurplus packet packlen : Usb τ Unit) := by
  refine .ite (fun _ => (framed_lenSub _ _).bind fun surplen => ?_) fun _ => .pure _
  exact .ite (fun _ => framed_saveResponse _ _ _) fun _ => .pure _

theorem framed_detectSplit :
    Framed E (detectSplit packlen rlen : Usb τ Unit) :=
  .ite (fun _ => .modify fun _ => .of_log rfl rfl rfl) fun _ => .pure _

/-- The end of `ptp_usb_getdata`, once it knows the length of the data. -/
theorem framed_getdataPut (packet : List UInt8)
    (handler : PTPDataHandler τ) : Framed LocalError (do
      putPayload handler packet rlen
      if packlen ≤ rlen then pure ()
      else do
        let done ← lenSub rlen ptpUsbBulkHdrLen
        let left ← lenSub len done
        getdataRest handler fuel left : Usb τ Unit) :=
  (framed_putPayload handler _ _).bind fun _ => .ite (fun _ => .pure _) fun _ =>
    (framed_lenSub _ _).bind fun _ => (framed_lenSub _ _).bind fun _ =>
      framed_getdataRest handler _ _

theorem framed_getdataKnown (handler : PTPDataHandler τ) :
    Framed LocalError (getdataKnown fuel packet handler) :=
  (framed_bufferSurplus _ _).bind fun _ => (framed_lenSub _ _).bind fun _ =>
    (framed_detectSplit _ _).bind fun _ => framed_getdataPut fuel _ _ _ packet handler

theorem framed_getdata (handler : PTPDataHandler τ) :
    Framed LocalError (ptpUsbGetdata fuel ptp handler) := by
  refine (framed_getpacket.mono fun e he => he ▸ by decide).bind fun packet => ?_
  refine Framed.get.bind fun w => .ite (fun _ => ?_) fun _ => ?_
  · exact .ite (fun _ => framed_saveResponse _ _ _) fun _ => .throw (by decide)
  refine .ite (fun _ => .throw (by decide)) fun _ => ?_
  refine .ite (fun _ => ?_) fun _ => framed_getdataKnown _ _ handler
  exact (framed_putPayload handler _ _).bind fun _ => framed_getdataUnknown handler _

theorem framed_controlCancel : Framed LocalError (ptpUsbControlCancelRequest : Usb τ Unit) :=
  Framed.get.bind fun _ => .ite (fun _ => .throw (by decide)) fun _ => .pure _

theorem keepsQuiet_returnCode {m : Usb τ Unit} (hm : KeepsQuiet m) :
    KeepsQuiet (returnCode m) := by
  refine .bind (Keeps.attempt hm) fun r => ?_
  cases r with
  | error e => exact .pure _
  | ok _ => exact .pure _

theorem keepsQuiet_orCancel {m : Usb τ Unit} (hm : KeepsQuiet m) : KeepsQuiet (orCancel m) := by
  refine .bind (keepsQuiet_returnCode hm) fun ret => ?_
  refine .ite (fun _ => ?_) fun _ => .pure _
  exact .bind (keepsQuiet_returnCode framed_controlCancel.quiet) fun ret =>
    .pure _

theorem keepsQuiet_dataPhase (phase : DataPhase)
    (sendlen : Nat) (handler : PTPDataHandler τ) :
    KeepsQuiet (dataPhase fuel ptp phase sendlen handler) := by
  cases phase with
  | noData => exact .pure _
  | sendData => exact keepsQuiet_orCancel (keepsQuiet_senddata _ _ _ handler)
  | getData => exact keepsQuiet_orCancel (framed_getdata _ _ handler).quiet
  | unknown => exact .pure _

end

/-! ### Return codes -/

/-- The first read of `ptp_usb_senddata` gets all it asks for, or fails with a local error. -/
def ReadsFirst (handler : PTPDataHandler τ) (size : Nat) (w : UsbWorld τ) : Prop :=
  w.splitHeaderData = false →
    LocalError (handler.getfunc (min size ptpUsbBulkPayloadLenWrite) w.priv).1.1 ∨
    (handler.getfunc (min size ptpUsbBulkPayloadLenWrite) w.priv).1.1 = ptpRcOk ∧
      (handler.getfunc (min size ptpUsbBulkPayloadLenWrite) w.priv).1.2.length =
        min size ptpUsbBulkPayloadLenWrite

/-- The first read decides whether an error of `ptp_usb_senddata` is a local one. -/
theorem senddata_readsFirst (fuel : Nat) (ptp : PTPContainer) (size : Nat)
    (handler : PTPDataHandler τ) (w : UsbWorld τ) :
    (ReadsFirst handler size w ∧
      ∀ e w', ptpUsbSenddata fuel ptp size handler w = some (.error e, w') → LocalError e) ∨
    (¬ ReadsFirst handler size w ∧ ∃ e w', ptpUsbSenddata fuel ptp size handler w =
      some (.error e, w') ∧ ¬ LocalError e ∧ e ≠ ptpRcOk) := by
  obtain ⟨answer, hget⟩ : ∃ answer, answer =
      handler.getfunc (min size ptpUsbBulkPayloadLenWrite) w.priv := ⟨_, rfl⟩
  obtain ⟨⟨ret, bytes⟩, t⟩ := answer
  by_cases hsplit : w.splitHeaderData
  · refine Or.inl ⟨fun h => absurd (hsplit.symm.trans h) (by decide), fun e w' h => ?_⟩
    have hfirst : senddataFirst size handler w = some (.ok [], w) := by
      unfold senddataFirst
      rw [get_bind_run, if_pos hsplit]
      rfl
    unfold ptpUsbSenddata at h
    rw [bind_run_ok hfirst] at h
    exact (framed_senddataRest fuel ptp size handler []).throws _ _ _ h
  have hfirst : senddataFirst size handler w =
      (if ret ≠ ptpRcOk then Comp.throw ret
      else if bytes.length ≠ min size ptpUsbBulkPayloadLenWrite
      then Comp.throw ptpRcGeneralError else pure bytes : Usb τ _) { w with priv := t } := by
    unfold senddataFirst
    rw [get_bind_run, if_neg hsplit]
    simp only [getfunc, Comp.bind_assoc, get_bind_run, ← hget, Comp.modify_bind_run,
      Comp.pure_bind_run]
  have hreads : ReadsFirst handler size w ↔ LocalError ret ∨
      ret = ptpRcOk ∧ bytes.length = min size ptpUsbBulkPayloadLenWrite := by
    rw [ReadsFirst, ← hget]
    exact ⟨fun h => h (Bool.eq_false_iff.mpr hsplit), fun h _ => h⟩
  rw [hreads]
  by_cases hret : ret = ptpRcOk
  · rw [if_neg (not_not_intro hret)] at hfirst
    by_cases hlen : bytes.length = min size ptpUsbBulkPayloadLenWrite
    · rw [if_neg (not_not_intro hlen)] at hfirst
      refine Or.inl ⟨Or.inr ⟨hret, hlen⟩, fun e w' h => ?_⟩
      unfold ptpUsbSenddata at h
      rw [bind_run_ok hfirst] at h
      exact (framed_senddataRest fuel ptp size handler bytes).throws _ _ _ h
    · rw [if_pos hlen] at hfirst
      refine Or.inr ⟨?_, ptpRcGeneralError, _, Comp.bind_run_error hfirst, by decide, by decide⟩
      rintro (hlocal | ⟨-, hlen'⟩)
      · exact absurd (hret ▸ hlocal) (by decide)
      · exact hlen hlen'
  · rw [if_pos hret] at hfirst
    have hrun : ptpUsbSenddata fuel ptp size handler w = some (.error ret, _) :=
      Comp.bind_run_error hfirst
    by_cases hlocal : LocalError ret
    · refine Or.inl ⟨Or.inl hlocal, fun e w' h => ?_⟩
      rw [hrun] at h
      cases h
      exact hlocal
    · refine Or.inr ⟨?_, ret, _, hrun, hlocal, hret⟩
      rintro (hlocal' | ⟨hok, -⟩)
      · exact hlocal hlocal'
      · exact hret hok

theorem orCancel_of_error {m : Usb τ Unit} {e : UInt16}
    (h : m w = some (.error e, w')) (hcancel : e ≠ ptpErrorCancel) :
    orCancel m w = some (.ok e, w') := by
  have hcode : returnCode m w = some (.ok e, w') :=
    (bind_run_ok (Comp.attempt_eq_some.mpr ⟨_, h, rfl⟩)).trans rfl
  exact (bind_run_ok hcode).trans (by rw [if_neg hcancel]; rfl)

variable {r : Except UInt16 UInt16}

/-- A function whose errors are local returns `PTP_RC_OK` or a local error. -/
theorem returnCode_ret {m : Usb τ Unit}
    (hm : ∀ e w', m w = some (.error e, w') → LocalError e)
    (h : returnCode m w = some (r, w')) :
    ∃ ret, r = .ok ret ∧ (ret = ptpRcOk ∨ LocalError ret) := by
  rcases bind_eq_some.mp h with ⟨e, hrun, -⟩ | ⟨a, w₁, hrun, h⟩
  · obtain ⟨r', -, hr⟩ := Comp.attempt_eq_some.mp hrun
    cases hr
  obtain ⟨r', hrun', hr⟩ := Comp.attempt_eq_some.mp hrun
  cases hr
  cases a with
  | ok _ =>
    cases h
    exact ⟨_, rfl, Or.inl rfl⟩
  | error e =>
    cases h
    exact ⟨_, rfl, Or.inr (hm e _ hrun')⟩

/-- A function whose errors are local, and may be cancelled on the device, returns
`PTP_RC_OK` or a local error. -/
theorem orCancel_ret {m : Usb τ Unit}
    (hm : ∀ e w', m w = some (.error e, w') → LocalError e)
    (h : orCancel m w = some (r, w')) :
    ∃ ret, r = .ok ret ∧ (ret = ptpRcOk ∨ LocalError ret) := by
  rcases bind_eq_some.mp h with ⟨e, hrun, -⟩ | ⟨ret, w₁, hrun, h⟩
  · obtain ⟨ret, hr, -⟩ := returnCode_ret hm hrun
    cases hr
  obtain ⟨ret', hr, hret⟩ := returnCode_ret hm hrun
  cases hr
  by_cases hcancel : ret = ptpErrorCancel
  · rw [if_pos hcancel] at h
    rcases bind_eq_some.mp h with ⟨e, hrun, -⟩ | ⟨ret', w₂, hrun, h⟩
    · obtain ⟨ret, hr, -⟩ :=
        returnCode_ret (fun e w'' he => framed_controlCancel.throws _ _ _ he) hrun
      cases hr
    obtain ⟨ret'', hr, hret''⟩ :=
      returnCode_ret (fun e w'' he => framed_controlCancel.throws _ _ _ he) hrun
    cases hr
    cases h
    refine ⟨_, rfl, ?_⟩
    split
    · exact Or.inr (by decide)
    · exact hret''
  · rw [if_neg hcancel] at h
    cases h
    exact ⟨ret, rfl, hret⟩

/-- What a data phase returns, but for what the handler says at the first read. -/
theorem dataPhase_ret {fuel : Nat} {ptp : PTPContainer} {phase : DataPhase} {sendlen : Nat}
    {handler : PTPDataHandler τ}
    (hfirst : phase = .sendData → ReadsFirst handler sendlen w)
    (h : dataPhase fuel ptp phase sendlen handler w = some (r, w')) :
    ∃ ret, r = .ok ret ∧ (ret = ptpRcOk ∨ LocalError ret) := by
  cases phase with
  | noData =>
    cases h
    exact ⟨_, rfl, Or.inl rfl⟩
  | sendData =>
    refine orCancel_ret (fun e w' he => ?_) h
    rcases senddata_readsFirst fuel ptp sendlen handler w with ⟨-, hlocal⟩ | ⟨hnot, -⟩
    · exact hlocal e w' he
    · exact absurd (hfirst rfl) hnot
  | getData => exact orCancel_ret ((framed_getdata fuel ptp handler).throws w) h
  | unknown =>
    cases h
    exact ⟨_, rfl, Or.inr (by decide)⟩

/-! ### The trace -/

/-- The world without its trace. -/
def UsbWorld.eraseLog (w : UsbWorld τ) : UsbWorld τ := { w with log := [] }

/-- A function that does not look at the trace. -/
abbrev IgnoresLog {α : Type} (m : Usb τ α) : Prop := Respects UsbWorld.eraseLog m

theorem ignoresLog_gpPortRead (n : Nat) : IgnoresLog (gpPortRead n : Usb τ _) := by
  refine .get_bind (fun w => rfl) fun w => ?_
  exact .bind (.modify fun _ => rfl) fun _ => .pure _

theorem ignoresLog_getpacketOnce : IgnoresLog (getpacketOnce : Usb τ _) := by
  refine .bind (ignoresLog_gpPortRead _) fun result => ?_
  rcases result with e | (_ | ⟨b, bytes⟩)
  · exact .pure _
  · exact ignoresLog_gpPortRead _
  · exact .pure _

theorem ignoresLog_packetRead (result : Except Int (List UInt8)) :
    IgnoresLog (packetRead result : Usb τ _) := by
  rcases result with e | (_ | ⟨b, bytes⟩)
  · exact .throw _
  · exact .throw _
  · exact .pure _

theorem ignoresLog_getpacket : IgnoresLog (ptpUsbGetpacket : Usb τ _) := by
  refine .get_bind (fun w => rfl) fun w => .ite ?_ ?_
  · refine .bind (.modify fun _ => rfl) fun _ => ?_
    refine .ite Respects.stuck ?_
    exact .bind (.modify fun _ => rfl) fun _ => .pure _
  · refine .bind ignoresLog_getpacketOnce fun result => ?_
    exact .ite (.bind ignoresLog_getpacketOnce ignoresLog_packetRead)
      (ignoresLog_packetRead result)

end GPhoto2
