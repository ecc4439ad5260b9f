import GPhoto2.Ptp.Usb

/-!
# `GPhoto2.Ptp.Transaction`: PTP transactions

`ptp_transaction_new` sends a request, runs its data phase, and reads responses until one
answers the request. The transport is the one of `GPhoto2.Ptp.Usb`.
-/

set_option autoImplicit false

namespace GPhoto2

open Lib

variable {τ : Type}

/-- The data phase of a transaction, `flags & PTP_DP_DATA_MASK`. -/
inductive DataPhase
  | noData
  | sendData
  | getData
  /-- Any other value. -/
  | unknown
  deriving DecidableEq

/-- `PTP_OC_OpenSession`. -/
def ptpOcOpenSession : UInt16 := 0x1002

/-- `ptp_usb_control_cancel_request`. -/
def ptpUsbControlCancelRequest : Usb τ Unit := do
  let w ← Comp.get
  if w.cancelResult < 0 then Comp.throw ptpErrorIo

/-- The return code of a function. -/
def returnCode (m : Usb τ Unit) : Usb τ UInt16 := do
  match ← Comp.attempt m with
  | .ok () => pure ptpRcOk
  | .error e => pure e

/-- A data phase that was cancelled is cancelled on the device as well. -/
def orCancel (m : Usb τ Unit) : Usb τ UInt16 := do
  let ret ← returnCode m
  if ret = ptpErrorCancel then do
    let ret ← returnCode ptpUsbControlCancelRequest
    pure (if ret = ptpRcOk then ptpErrorCancel else ret)
  else pure ret

/-- The return code of the data phase. -/
def dataPhase (fuel : Nat) (ptp : PTPContainer) (phase : DataPhase) (sendlen : Nat)
    (handler : PTPDataHandler τ) : Usb τ UInt16 :=
  match phase with
  | .noData => pure ptpRcOk
  | .sendData => orCancel (ptpUsbSenddata fuel ptp sendlen handler)
  | .getData => orCancel (ptpUsbGetdata fuel ptp handler)
  | .unknown => pure ptpErrorBadParam

/-- The loop of `ptp_transaction_new` that reads responses, with `tries` of them left, and what
the container holds at its end. -/
def responseLoop (cmd : UInt16) : Nat → Nat → PTPContainer → Usb τ (UInt16 × PTPContainer)
  | 0, _, _ => Comp.stuck
  | _ + 1, 0, ptp => pure (ptp.code, ptp)
  | fuel + 1, tries + 1, ptp => do
    match ← Comp.attempt (ptpUsbGetresp ptp) with
    | .error ret =>
      if ret = ptpErrorRespExpected then responseLoop cmd fuel (tries + 1) ptp
      else pure (ret, ptp)
    | .ok ptp => do
      let w ← Comp.get
      -- suspecting old reply
      if ptp.transactionID < w.transactionID - 1 then responseLoop cmd fuel (tries + 1) ptp
      else if ptp.transactionID ≠ w.transactionID - 1 then
        -- try to clean up potential left overs from previous session
        if cmd = ptpOcOpenSession ∧ tries ≠ 0 then responseLoop cmd fuel tries ptp
        else pure (ptpErrorBadParam, ptp)
      else pure (ptp.code, ptp)

/-- `ptp_transaction_new`: the return code and the container. -/
def ptpTransactionNew (fuel : Nat) (ptp : PTPContainer) (phase : DataPhase) (sendlen : Nat)
    (handler : PTPDataHandler τ) : Usb τ (UInt16 × PTPContainer) := do
  let w ← Comp.get
  let ptp := { ptp with transactionID := w.transactionID, sessionID := w.sessionID }
  Comp.modify fun w => { w with transactionID := w.transactionID + 1 }
  let ret ← returnCode (ptpUsbSendreq ptp)
  if ret ≠ ptpRcOk then pure (ret, ptp)
  else do
    let ret ← dataPhase fuel ptp phase sendlen handler
    if ret ≠ ptpRcOk then pure (ret, ptp)
    else responseLoop ptp.code fuel 3 ptp

/-! ### Handlers in memory -/

/-- `PTPMemHandlerPrivate`. -/
structure PTPMemHandlerPrivate where
  data : List UInt8
  curoff : Nat
  deriving DecidableEq

/-- `memory_getfunc`. -/
def memoryGetfunc (wantlen : Nat) (priv : PTPMemHandlerPrivate) :
    (UInt16 × List UInt8) × PTPMemHandlerPrivate :=
  let tocopy := if priv.data.length < priv.curoff + wantlen then priv.data.length - priv.curoff
    else wantlen
  ((ptpRcOk, (priv.data.drop priv.curoff).take tocopy),
    { priv with curoff := priv.curoff + tocopy })

/-- `memory_putfunc`. -/
def memoryPutfunc (data : List UInt8) (priv : PTPMemHandlerPrivate) :
    (UInt16 × Nat) × PTPMemHandlerPrivate :=
  ((ptpRcOk, data.length),
    { data := priv.data.take priv.curoff ++ data ++ priv.data.drop (priv.curoff + data.length)
      curoff := priv.curoff + data.length })

/-- The handler of `ptp_init_send_memory_handler` and `ptp_init_recv_memory_handler`. -/
def memoryHandler : PTPDataHandler PTPMemHandlerPrivate := ⟨memoryGetfunc, memoryPutfunc⟩

end GPhoto2
