import GPhoto2.Lib.Fifo
import GPhoto2.Ptp.Types

/-!
# `GPhoto2.Ptp.EventQueue`: pending events

`params->events` is a block of memory with the pending events at its start and
`params->nrofevents` their number. `ptp_check_event` and `ptp_add_event` put events behind
them, `ptp_get_one_event` takes the first one out. The block is not made smaller when an
event is taken out, so it may be longer than the number says.

What the device answers is an argument here: the transactions of `ptp_nikon_check_event` and
`ptp_canon_checkevent`, and the interrupt endpoint. `none` is a step without a defined
outcome: a read outside of the received block, a copy from a null pointer, an overflow of the
`int` counter.

`EventStep.abs` says what each step is to a queue that loses nothing.
-/

set_option autoImplicit false

namespace GPhoto2

open Lib

/-- The event queue of `PTPParams`. The number is an `int` and never exceeds the block. -/
structure EventQueue where
  events : List PTPContainer
  nrofevents : Nat
  fits : nrofevents ≤ events.length
  isInt : nrofevents < 2 ^ 31

/-- The entries the counter counts. -/
def EventQueue.pending (q : EventQueue) : List PTPContainer := q.events.take q.nrofevents

/-- The queue of a cleared `PTPParams`. -/
def EventQueue.empty : EventQueue := ⟨[], 0, by decide, by decide⟩

/-- Get a block with room for more entries, by `malloc` or by `realloc`, and copy them behind
the pending ones. -/
def EventQueue.store (q : EventQueue) (entries : List PTPContainer) : Option EventQueue :=
  if h : q.nrofevents + entries.length < 2 ^ 31 then
    some ⟨q.events.take q.nrofevents ++ entries, q.nrofevents + entries.length, Nat.le_of_eq (by
      rw [List.length_append, List.length_take, Nat.min_eq_left q.fits]), h⟩
  else none

/-- `ptp_add_event`. -/
def ptpAddEvent (q : EventQueue) (evt : PTPContainer) : Option EventQueue := q.store [evt]

/-- `ptp_get_one_event`: the event, if there is one. -/
def ptpGetOneEvent (q : EventQueue) : Option PTPContainer × EventQueue :=
  match h : q.events with
  | [] => (none, q)
  | event :: rest =>
    if q.nrofevents = 0 then (none, q)
    else if q.nrofevents = 1 then (some event, .empty)
    else
      -- The entries move down by one, and the last one stays in its old place as well.
      (some event, ⟨rest.take (q.nrofevents - 1) ++ q.events.drop (q.nrofevents - 1),
        q.nrofevents - 1, by
          have hfits := q.fits
          rw [h, List.length_cons] at hfits
          rw [List.length_append, List.length_take]
          omega, Nat.lt_of_le_of_lt (Nat.sub_le ..) q.isInt⟩)

/-! ### Decoding -/

/-- One entry of a Nikon event batch. -/
def nikonEvent (data : List UInt8) (i : Nat) : PTPContainer :=
  { PTPContainer.zero with
    code := dtoh16a data (2 + 6 * i)
    param1 := dtoh32a data (4 + 6 * i)
    nparam := 1 }

/-- The number of events a Nikon batch announces. -/
def nikonCount (data : List UInt8) : Nat := (dtoh16a data 0).toNat

/-- `ptp_unpack_Nikon_EC`: the pointer `*ec`, null or a block of entries, and the number
`*cnt`, which is 0 before the call. -/
def ptpUnpackNikonEC (data : List UInt8) : Option (List PTPContainer) × Nat :=
  if data = [] then (none, 0)
  else if data.length < 2 then (none, 0)
  -- broken cnt?
  else if (data.length - 2) / 6 < nikonCount data then (none, nikonCount data)
  else if nikonCount data = 0 then (none, 0)
  else (some ((List.range (nikonCount data)).map (nikonEvent data)), nikonCount data)

/-- `ptp_unpack_EC`, for data that is not null. The lengths it checks are the ones the data
announces. -/
def ptpUnpackEC (data : List UInt8) : Option PTPContainer :=
  if data.length < 12 then none
  else
    let length := (dtoh32a data 0).toInt32.toInt
    let ec := { PTPContainer.zero with
      code := dtoh16a data 6
      transactionID := dtoh32a data 8 }
    if dtoh16a data 4 ≠ ptpUsbContainerEvent then some ec
    else if length < 16 then some ec
    else if data.length < 16 then none
    else
      let ec := { ec with param1 := dtoh32a data 12, nparam := 1 }
      if length < 20 then some ec
      else if data.length < 20 then none
      else
        let ec := { ec with param2 := dtoh32a data 16, nparam := 2 }
        if length < 24 then some ec
        else if data.length < 24 then none
        else some { ec with param3 := dtoh32a data 20, nparam := 3 }

/-! ### `ptp_check_event` -/

def ptpOcNikonCheckEvent : UInt16 := 0x90C7
def ptpOcCanonEosGetEvent : UInt16 := 0x9116
def ptpOcCanonCheckEvent : UInt16 := 0x9013

/-- What `ptp_check_event` looks at: the device, and what it answers if it is asked. -/
structure CheckInput where
  vendorExtensionID : UInt32
  operationsSupported : List UInt16
  canonEventMode : Int
  /-- The answer to the transaction of `ptp_nikon_check_event`. -/
  nikonAnswer : UInt16 × List UInt8
  /-- The answer to the transaction of `ptp_canon_checkevent`. -/
  canonAnswer : UInt16 × List UInt8
  /-- What `event_check` returns and the event it reads. -/
  interrupt : UInt16 × PTPContainer

variable (input : CheckInput)

/-- The device is a Nikon that answers event batches. -/
def CheckInput.IsNikon : Prop :=
  input.vendorExtensionID = ptpVendorNikon ∧ ptpOcNikonCheckEvent ∈ input.operationsSupported

/-- The device is a Canon EOS, which has another event queue. -/
def CheckInput.IsEos : Prop :=
  input.vendorExtensionID = ptpVendorCanon ∧ ptpOcCanonEosGetEvent ∈ input.operationsSupported

/-- The device is a Canon that answers single events. -/
def CheckInput.IsCanon : Prop :=
  input.vendorExtensionID = ptpVendorCanon ∧ ptpOcCanonCheckEvent ∈ input.operationsSupported

instance : Decidable input.IsNikon := inferInstanceAs (Decidable (_ ∧ _))
instance : Decidable input.IsEos := inferInstanceAs (Decidable (_ ∧ _))
instance : Decidable input.IsCanon := inferInstanceAs (Decidable (_ ∧ _))

/-- The end of `ptp_check_event`: an event read from the interrupt endpoint is stored. -/
def storeInterrupt (q : EventQueue) : Option (UInt16 × EventQueue) :=
  if input.interrupt.1 = ptpRcOk then
    (ptpAddEvent q input.interrupt.2).map fun q => (ptpRcOk, q)
  else if input.interrupt.1 = ptpErrorTimeout then some (ptpRcOk, q)
  else some (input.interrupt.1, q)

/-- The part of `ptp_check_event` that copies the batch a Nikon answered. -/
def storeNikonBatch (q : EventQueue) (xevent : Option (List PTPContainer)) (evtcnt : Nat) :
    Option (UInt16 × EventQueue) :=
  if evtcnt = 0 then some (ptpRcOk, q)
  else
    match xevent with
    | some xevent => (q.store xevent).map fun q => (ptpRcOk, q)
    -- `memcpy` from a null pointer
    | none => none

/-- `ptp_check_event`: the return code and the queue. -/
def ptpCheckEvent (q : EventQueue) : Option (UInt16 × EventQueue) :=
  if input.IsNikon then
    if input.nikonAnswer.1 ≠ ptpRcOk then some (input.nikonAnswer.1, q)
    else
      let (xevent, evtcnt) := ptpUnpackNikonEC input.nikonAnswer.2
      storeNikonBatch q xevent evtcnt
  else if input.IsEos then some (ptpRcOk, q)
  else if input.IsCanon then
    if input.canonAnswer.2 = [] then
      if input.canonAnswer.1 ≠ ptpRcOk then some (input.canonAnswer.1, q)
      else if 5 < input.canonEventMode then some (input.canonAnswer.1, q)
      else storeInterrupt input q
    else if input.canonAnswer.1 ≠ ptpRcOk then some (input.canonAnswer.1, q)
    else
      (ptpUnpackEC input.canonAnswer.2).bind fun event =>
        (ptpAddEvent q event).map fun q => (ptpRcOk, q)
  else storeInterrupt input q

/-! ### Runs -/

/-- A step of a producer or of the consumer. -/
inductive EventStep
  | checkEvent (input : CheckInput)
  | addEvent (evt : PTPContainer)
  | getOneEvent

/-- A step, on the queue and on the list of the events delivered so far. -/
def EventStep.exec (q : EventQueue) (delivered : List PTPContainer) :
    EventStep → Option (EventQueue × List PTPContainer)
  | .checkEvent input => (ptpCheckEvent input q).map fun r => (r.2, delivered)
  | .addEvent evt => (ptpAddEvent q evt).map fun q => (q, delivered)
  | .getOneEvent =>
    let (event, q') := ptpGetOneEvent q
    some (q', delivered ++ event.toList)

/-- A run from the empty queue: the queue and the events delivered. -/
def runEvents (steps : List EventStep) : Option (EventQueue × List PTPContainer) :=
  steps.foldl (fun s step => s.bind fun (q, delivered) => step.exec q delivered)
    (some (.empty, []))

/-- The events that arrive with a call of `ptp_check_event`: what the device reported, if it
can be decoded. -/
def CheckInput.arrivals : List PTPContainer :=
  let interrupt := if input.interrupt.1 = ptpRcOk then [input.interrupt.2] else []
  if input.IsNikon then
    if input.nikonAnswer.1 = ptpRcOk then (ptpUnpackNikonEC input.nikonAnswer.2).1.getD []
    else []
  else if input.IsEos then []
  else if input.IsCanon then
    if input.canonAnswer.1 ≠ ptpRcOk then []
    else if input.canonAnswer.2 ≠ [] then (ptpUnpackEC input.canonAnswer.2).toList
    else if 5 < input.canonEventMode then []
    else interrupt
  else interrupt

/-- The step of a queue that loses nothing. -/
def EventStep.abs : EventStep → FifoStep PTPContainer
  | .checkEvent input => .push input.arrivals
  | .addEvent evt => .push [evt]
  | .getOneEvent => .pop

end GPhoto2
