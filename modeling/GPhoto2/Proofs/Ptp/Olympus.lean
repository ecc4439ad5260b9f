import GPhoto2.Proofs.Ptp.EventQueue
import GPhoto2.Ptp.Olympus

/-!
# `GPhoto2.Proofs.Ptp.Olympus`: what an XML request does with the events in between

`Arrival.kind` says what an event is by what the camera has said of it: the answer to the request,
an event file, or any other event. `TransferInv` accounts for all events that have come: the queue
has the other ones and those that were read out of the files, and each file has its reply.

`transferStep_right` is about one call. `olympusXmlTransfer_iff`: the account holds at every call
as long as no event but the answer asks for an object behind the request, and only then does
`olympus_xml_transfer` succeed with the answer to a request that was sent once. Another file there
has the request sent again (`olympusXmlTransfer_sends_again`).
-/

set_option autoImplicit false

namespace GPhoto2

open Lib
open List (append_assoc append_nil length_append map_append)
open EventQueue (HasRoom length_pending store_eq_some store_room)

variable (xml : LibXml) (cmdxml : List UInt8)

/-! ### Events -/

inductive ArrivalKind
  | answer
  | eventFile
  | other
  deriving DecidableEq

/-- Behind the request, the object with the name of the answer is the answer. Any other object
with an XML handle is an event file. -/
def Arrival.kind (a : Arrival) : ArrivalKind :=
  if a.event.code ≠ ptpEcRequestObjectTransfer then .other
  else if a.afterRequest = true ∧ a.info.bind PTPObjectInfo.filename = some drsponse then .answer
  else if IsXmlHandle a.event.param1 then .eventFile
  else .other

/-- The text of the file. -/
def Arrival.text (a : Arrival) : List UInt8 :=
  a.object.take (a.info.elim 0 fun oi => oi.objectCompressedSize.toNat)

def Arrival.parsed (a : Arrival) : ParsedEvent := parseEventXml xml a.text a.event

/-- What should be put on the queue. -/
def Arrival.queued (a : Arrival) : List PTPContainer :=
  match a.kind with
  | .answer => []
  | .eventFile => (a.parsed xml).events
  | .other => [a.event]

/-- What should be sent as `HRSPONSE.X3C`. -/
def Arrival.replies (a : Arrival) : List (List UInt8) :=
  match a.kind with
  | .answer => []
  | .eventFile => [generateEventOKXml xml (a.parsed xml).resp]
  | .other => []

/-- The events that the calls have given. -/
def OuterAnswer.events : OuterAnswer → List PTPContainer
  | .event ret e => if ret = ptpRcOk then [e] else []
  | .info _ _ => []
  | .object _ _ => []
  | .sent _ => []

/-! ### Files -/

/-- The files of a name that were sent. -/
def TransferState.sentAs (s : TransferState) (filename : CString) : List (List UInt8) :=
  (s.sent.filter fun file => file.info.filename = some filename).map SentFile.object

theorem sentAs_send (s : TransferState) (filename : CString) (bytes : List UInt8)
    (other : CString) :
    (s.send filename bytes).sentAs other =
      s.sentAs other ++ if filename = other then [bytes] else [] := by
  unfold TransferState.sentAs TransferState.send
  rw [List.filter_append, map_append]
  by_cases h : filename = other
  · simp [h, scriptInfo]
  · simp [h, scriptInfo]

theorem requested_iff (s : TransferState) : s.requested = true ↔ s.sentAs hrequest ≠ [] := by
  unfold TransferState.requested TransferState.sentAs
  simp

theorem objectText_eq_some {oi : PTPObjectInfo} {object txt : List UInt8}
    (h : objectText oi object = some txt) :
    oi.objectCompressedSize.toNat ≤ object.length ∧
      txt = object.take oi.objectCompressedSize.toNat := by
  unfold objectText at h
  by_cases hle : oi.objectCompressedSize.toNat ≤ object.length
  · rw [if_pos hle] at h
    cases h
    exact ⟨hle, rfl⟩
  · rw [if_neg hle] at h
    cases h

/-! ### The account -/

/-- The event that is being dealt with. -/
def TransferCall.current : TransferCall → List Arrival
  | .eventInfo a => [a]
  | .eventObject a _ => [a]
  | .replyInfo a _ => [a]
  | .replyObject a _ => [a]
  | .answerInfo a => [a]
  | .answerObject a _ => [a]
  | _ => []

/-- The file that has been read, but not replied to. -/
def TransferCall.read : TransferCall → List Arrival
  | .replyInfo a _ => [a]
  | .replyObject a _ => [a]
  | _ => []

/-- The request has been sent. -/
def TransferCall.requested : TransferCall → Bool
  | .eventWait => true
  | .answerInfo _ => true
  | .answerObject _ _ => true
  | _ => false

/-- What is known of the event that is being dealt with. -/
def TransferCall.Holds : TransferCall → Prop
  | .eventInfo a =>
    a.afterRequest = false ∧ a.event.code = ptpEcRequestObjectTransfer ∧
      IsXmlHandle a.event.param1
  | .eventObject a oi => a.kind = .eventFile ∧ a.info = some oi
  | .replyInfo a evxml => a.replies xml = [evxml]
  | .replyObject a evxml => a.replies xml = [evxml]
  | .answerInfo a => a.afterRequest = true ∧ a.event.code = ptpEcRequestObjectTransfer
  | .answerObject a oi => a.kind = .answer ∧ a.info = some oi
  | _ => True

/-- The account before a call, for the events that have come since the queue was the given
one. -/
structure TransferInv (queue : EventQueue) (events : List PTPContainer) (call : TransferCall)
    (s : TransferState) : Prop where
  events : (s.handled ++ call.current).map Arrival.event = events
  queue : s.queue.pending =
    queue.pending ++ (s.handled ++ call.read).flatMap (Arrival.queued xml)
  replies : s.sentAs hrsponse = s.handled.flatMap (Arrival.replies xml)
  requests : s.sentAs hrequest = if call.requested then [cmdxml] else []
  unanswered : ∀ a ∈ s.handled, a.kind ≠ .answer
  holds : call.Holds xml

/-- All events are dealt with, the request was sent once, and the last event was the answer. -/
structure Answered (queue : EventQueue) (events : List PTPContainer) (s : TransferState) :
    Prop where
  events : s.handled.map Arrival.event = events
  queue : s.queue.pending = queue.pending ++ s.handled.flatMap (Arrival.queued xml)
  replies : s.sentAs hrsponse = s.handled.flatMap (Arrival.replies xml)
  requests : s.sentAs hrequest = [cmdxml]
  answer : ∃ before a, s.handled = before ++ [a] ∧ (∀ b ∈ before, b.kind ≠ .answer) ∧
    a.kind = .answer ∧ s.inxml = some a.object

/-- What should hold from one call to the next. Where a call fails, the events before it are
dealt with. -/
def TransferRight (queue : EventQueue) (events : List PTPContainer) : Progress → Prop
  | .next call s => TransferInv xml cmdxml queue events call s
  | .returns ret s =>
    if ret = ptpRcOk then Answered xml cmdxml queue events s
    else ∃ call, TransferInv xml cmdxml queue events call s
  | .undefined => False

/-! ### What the camera does -/

/-- An event that is passed on has room in the queue, an object has the size that its info says,
and behind the request only the answer is announced. -/
def AnswerFits (s : TransferState) : TransferCall → OuterAnswer → Prop
  | .eventCheck, .event ret event =>
    ret = ptpRcOk → (event.code ≠ ptpEcRequestObjectTransfer ∨ ¬IsXmlHandle event.param1) →
      s.queue.HasRoom [event]
  | .eventObject a oi, .object ret bytes =>
    ret = ptpRcOk → oi.objectCompressedSize.toNat ≤ bytes.length ∧
      s.queue.HasRoom ((Arrival.mk a.afterRequest a.event (some oi) bytes).parsed xml).events
  | .eventWait, .event ret event =>
    ret = ptpRcOk → event.code ≠ ptpEcRequestObjectTransfer → s.queue.HasRoom [event]
  | .answerInfo _, .info ret oi => ret = ptpRcOk → oi.filename = some drsponse
  | .answerObject _ oi, .object ret bytes =>
    ret = ptpRcOk → oi.objectCompressedSize.toNat = bytes.length
  | _, _ => True

/-- All calls are answered so. -/
def AnswersFit : TransferCall → TransferState → List OuterAnswer → Prop
  | _, _, [] => True
  | call, s, answer :: answers =>
    AnswerFits xml s call answer ∧
      ∀ call' s', transferStep xml cmdxml s call answer = some (.next call' s') →
        AnswersFit call' s' answers

section
variable {xml : LibXml} {cmdxml : List UInt8} {queue : EventQueue} {events : List PTPContainer}
  {s : TransferState} {call : TransferCall}

/-! ### Steps -/

theorem foldlM_ptpAddEvent {q : EventQueue} {batch : List PTPContainer} (h : q.HasRoom batch) :
    ∃ q', batch.foldlM ptpAddEvent q = some q' ∧ q'.pending = q.pending ++ batch := by
  induction batch generalizing q with
  | nil => exact ⟨q, rfl, (append_nil _).symm⟩
  | cons event batch ih =>
    unfold HasRoom at h
    rw [List.length_cons] at h
    obtain ⟨q₁, hq₁⟩ := @store_room q [event] (by rw [List.length_singleton]; omega)
    have hpending := (store_eq_some hq₁).1
    have hlen := congrArg List.length hpending
    rw [length_append, length_pending, length_pending,
      List.length_singleton] at hlen
    obtain ⟨q₂, hq₂, hrest⟩ := @ih q₁ (by unfold HasRoom; omega)
    refine ⟨q₂, ?_, ?_⟩
    · rw [List.foldlM_cons]
      show (q.store [event]).bind _ = _
      rw [hq₁]
      exact hq₂
    · rw [hrest, hpending, append_assoc]
      rfl

variable {ret : UInt16} {progress : Progress}

theorem afterCall_right (h : TransferInv xml cmdxml queue events call s)
    (hok : ret = ptpRcOk → TransferRight xml cmdxml queue events progress) :
    TransferRight xml cmdxml queue events (afterCall ret s progress) := by
  unfold afterCall
  by_cases hret : ret = ptpRcOk
  · rw [if_neg (fun hne => hne hret)]
    exact hok hret
  · rw [if_pos hret]
    simp only [TransferRight, if_neg hret]
    exact ⟨call, h⟩

/-- Between two events nothing is open. -/
def TransferCall.Idle (call : TransferCall) : Prop := call.current = [] ∧ call.read = []

variable {event : PTPContainer}

/-- An event that is neither the answer nor an event file goes to the queue. -/
theorem passOn_right {next : TransferCall}
    (h : TransferInv xml cmdxml queue events call s) (hidle : call.Idle) (hnext : next.Idle)
    (hreq : next.requested = call.requested) (hholds : next.Holds xml)
    (hkind : (Arrival.mk s.requested event none []).kind = .other)
    (hroom : s.queue.HasRoom [event]) :
    TransferRight xml cmdxml queue (events ++ [event]) (passOn s event next) := by
  obtain ⟨q', hq'⟩ := store_room hroom
  have hadd : ptpAddEvent s.queue event = some q' := hq'
  unfold passOn
  rw [hadd]
  have hevents := h.events
  have hqueue := h.queue
  rw [hidle.1, append_nil] at hevents
  rw [hidle.2, append_nil] at hqueue
  refine ⟨?_, ?_, ?_, ?_, ?_, hholds⟩
  · show ((s.handled ++ [_]) ++ next.current).map Arrival.event = _
    rw [hnext.1, append_nil, map_append, hevents]
    rfl
  · show q'.pending = _ ++ ((s.handled ++ [_]) ++ next.read).flatMap _
    rw [hnext.2, append_nil, List.flatMap_append, (store_eq_some hq').1, hqueue,
      append_assoc]
    simp [Arrival.queued, hkind]
  · show s.sentAs hrsponse = (s.handled ++ [_]).flatMap _
    rw [h.replies, List.flatMap_append]
    simp [Arrival.replies, hkind]
  · show s.sentAs hrequest = _
    rw [hreq, h.requests]
  · intro a ha
    rcases List.mem_append.mp ha with ha | ha
    · exact h.unanswered a ha
    · rw [List.mem_singleton.mp ha, hkind]
      exact ArrivalKind.noConfusion

theorem TransferInv.next {next : TransferCall} (h : TransferInv xml cmdxml queue events call s)
    {new : List PTPContainer}
    (hcurrent : next.current.map Arrival.event = call.current.map Arrival.event ++ new)
    (hread : next.read = call.read) (hreq : next.requested = call.requested)
    (hholds : next.Holds xml) :
    TransferInv xml cmdxml queue (events ++ new) next s := by
  refine ⟨?_, ?_, h.replies, ?_, h.unanswered, hholds⟩
  · rw [map_append, hcurrent, ← append_assoc, ← map_append, h.events]
  · rw [hread]
    exact h.queue
  · rw [hreq]
    exact h.requests

theorem TransferInv.moves {next : TransferCall} (h : TransferInv xml cmdxml queue events call s)
    (hcurrent : next.current.map Arrival.event = call.current.map Arrival.event)
    (hread : next.read = call.read) (hreq : next.requested = call.requested)
    (hholds : next.Holds xml) : TransferInv xml cmdxml queue events next s := by
  have hnext := @TransferInv.next _ _ _ _ _ _ next h [] (by rw [hcurrent, append_nil])
    hread hreq hholds
  rw [append_nil] at hnext
  exact hnext

theorem TransferInv.requested_eq (h : TransferInv xml cmdxml queue events call s) :
    s.requested = call.requested := by
  have hreq := requested_iff s
  rw [h.requests] at hreq
  cases hcall : call.requested with
  | true => exact hreq.mpr (by rw [hcall]; exact List.cons_ne_nil _ _)
  | false =>
    rw [hcall] at hreq
    exact Bool.eq_false_iff.mpr fun hs => hreq.mp hs rfl

variable {a : Arrival}

theorem kind_other (hcode : a.event.code ≠ ptpEcRequestObjectTransfer) :
    a.kind = .other := if_pos hcode

section
variable (hcode : a.event.code = ptpEcRequestObjectTransfer)
include hcode

theorem kind_other_handle
    (hxml : ¬IsXmlHandle a.event.param1) (hinfo : a.info = none) : a.kind = .other := by
  unfold Arrival.kind
  rw [if_neg (fun hne => hne hcode), if_neg, if_neg hxml]
  rw [hinfo]
  exact fun hname => by cases hname.2

theorem kind_eventFile (hxml : IsXmlHandle a.event.param1) (hbefore : a.afterRequest = false) :
    a.kind = .eventFile := by
  unfold Arrival.kind
  rw [if_neg (fun hne => hne hcode), if_neg, if_pos hxml]
  rw [hbefore]
  exact fun hname => by cases hname.1

theorem kind_answer
    (hafter : a.afterRequest = true) (hname : a.info.bind PTPObjectInfo.filename = some drsponse) :
    a.kind = .answer := by
  unfold Arrival.kind
  rw [if_neg (fun hne => hne hcode), if_pos ⟨hafter, hname⟩]

end

variable {oi : PTPObjectInfo} {bytes : List UInt8}

theorem handleEventFile_right (h : TransferInv xml cmdxml queue events (.eventObject a oi) s)
    (hsize : oi.objectCompressedSize.toNat ≤ bytes.length)
    (hroom : s.queue.HasRoom
      ((Arrival.mk a.afterRequest a.event (some oi) bytes).parsed xml).events) :
    TransferRight xml cmdxml queue events (handleEventFile xml s a oi bytes) := by
  obtain ⟨hkind, hinfo⟩ := h.holds
  have hfile : Arrival.mk a.afterRequest a.event (some oi) bytes = { a with object := bytes } := by
    rw [← hinfo]
  rw [hfile] at hroom
  have htext : ({ a with object := bytes } : Arrival).text =
      bytes.take oi.objectCompressedSize.toNat := by
    unfold Arrival.text
    rw [hinfo]
    rfl
  have hkind' : ({ a with object := bytes } : Arrival).kind = .eventFile := hkind
  obtain ⟨q', hq', hpending⟩ := foldlM_ptpAddEvent hroom
  unfold handleEventFile objectText
  rw [if_pos hsize]
  unfold Arrival.parsed at hq' hpending
  rw [htext] at hq' hpending
  simp only [hq']
  refine ⟨?_, ?_, h.replies, h.requests, h.unanswered, ?_⟩
  · have hevents := h.events
    rw [map_append] at hevents ⊢
    exact hevents
  · show q'.pending = _ ++ (s.handled ++ [_]).flatMap _
    have hqueue := h.queue
    rw [hpending, hqueue]
    simp [Arrival.queued, hkind', Arrival.parsed, htext, TransferCall.read]
  · show Arrival.replies xml _ = [_]
    unfold Arrival.replies Arrival.parsed
    rw [hkind', htext]

theorem replyObject_right {evxml : List UInt8}
    (h : TransferInv xml cmdxml queue events (.replyObject a evxml) s) :
    TransferInv xml cmdxml queue events .eventCheck
      { s.send hrsponse evxml with handled := s.handled ++ [a] } := by
  have hreplies : a.replies xml = [evxml] := h.holds
  refine ⟨?_, ?_, ?_, ?_, ?_, trivial⟩
  · show ((s.handled ++ [a]) ++ []).map Arrival.event = _
    rw [append_nil]
    exact h.events
  · show s.queue.pending = _ ++ ((s.handled ++ [a]) ++ []).flatMap _
    rw [append_nil]
    exact h.queue
  · show (s.send hrsponse evxml).sentAs hrsponse = (s.handled ++ [a]).flatMap _
    rw [sentAs_send, if_pos rfl, h.replies, List.flatMap_append, List.flatMap_singleton, hreplies]
  · show (s.send hrsponse evxml).sentAs hrequest = []
    rw [sentAs_send, if_neg (by decide), h.requests]
    rfl
  · intro b hb
    rcases List.mem_append.mp hb with hb | hb
    · exact h.unanswered b hb
    · rw [List.mem_singleton.mp hb]
      intro hkind
      unfold Arrival.replies at hreplies
      rw [hkind] at hreplies
      cases hreplies

theorem requestObject_right (h : TransferInv xml cmdxml queue events .requestObject s) :
    TransferInv xml cmdxml queue events .eventWait (s.send hrequest cmdxml) := by
  refine ⟨h.events, h.queue, ?_, ?_, h.unanswered, trivial⟩
  · rw [sentAs_send, if_neg (by decide), append_nil]
    exact h.replies
  · rw [sentAs_send, if_pos rfl, h.requests]
    rfl

theorem handleAnswer_right (h : TransferInv xml cmdxml queue events (.answerObject a oi) s)
    (hsize : oi.objectCompressedSize.toNat = bytes.length) :
    TransferRight xml cmdxml queue events (handleAnswer s a oi bytes) := by
  obtain ⟨hkind, -⟩ := h.holds
  have hkind' : ({ a with object := bytes } : Arrival).kind = .answer := hkind
  unfold handleAnswer objectText
  rw [if_pos (Nat.le_of_eq hsize), hsize, List.take_length]
  simp only [TransferRight, if_true]
  refine ⟨?_, ?_, ?_, h.requests, s.handled, _, rfl, h.unanswered, hkind', rfl⟩
  · have hevents := h.events
    rw [map_append] at hevents ⊢
    exact hevents
  · show s.queue.pending = _ ++ (s.handled ++ [_]).flatMap _
    have hqueue := h.queue
    rw [hqueue]
    simp [Arrival.queued, hkind', TransferCall.read]
  · show s.sentAs hrsponse = (s.handled ++ [_]).flatMap _
    rw [h.replies]
    simp [Arrival.replies, hkind']

theorem checkedEvent_right (h : TransferInv xml cmdxml queue events .eventCheck s)
    (hroom : (event.code ≠ ptpEcRequestObjectTransfer ∨ ¬IsXmlHandle event.param1) →
      s.queue.HasRoom [event]) :
    TransferRight xml cmdxml queue (events ++ [event]) (checkedEvent s event) := by
  unfold checkedEvent
  by_cases hcode : event.code = ptpEcRequestObjectTransfer
  · rw [if_neg (fun hne => hne hcode)]
    by_cases hxml : IsXmlHandle event.param1
    · rw [if_neg (fun hne => hne hxml)]
      exact h.next rfl rfl rfl ⟨h.requested_eq, hcode, hxml⟩
    · rw [if_pos hxml]
      exact passOn_right h ⟨rfl, rfl⟩ ⟨rfl, rfl⟩ rfl trivial (kind_other_handle hcode hxml rfl)
        (hroom (Or.inr hxml))
  · rw [if_pos hcode]
    exact passOn_right h ⟨rfl, rfl⟩ ⟨rfl, rfl⟩ rfl trivial (kind_other hcode)
      (hroom (Or.inl hcode))

theorem awaitedEvent_right (h : TransferInv xml cmdxml queue events .eventWait s)
    (hroom : event.code ≠ ptpEcRequestObjectTransfer → s.queue.HasRoom [event]) :
    TransferRight xml cmdxml queue (events ++ [event]) (awaitedEvent s event) := by
  unfold awaitedEvent
  by_cases hcode : event.code = ptpEcRequestObjectTransfer
  · rw [if_neg (fun hne => hne hcode)]
    exact h.next rfl rfl rfl ⟨h.requested_eq, hcode⟩
  · rw [if_pos hcode]
    exact passOn_right h ⟨rfl, rfl⟩ ⟨rfl, rfl⟩ rfl trivial (kind_other hcode) (hroom hcode)

theorem answerOrEvent_right (h : TransferInv xml cmdxml queue events (.answerInfo a) s)
    (hname : oi.filename = some drsponse) :
    TransferRight xml cmdxml queue events (answerOrEvent s a oi) := by
  obtain ⟨hafter, hcode⟩ := h.holds
  unfold answerOrEvent
  simp only [hname, if_true]
  exact h.moves rfl rfl rfl ⟨kind_answer hcode hafter hname, rfl⟩

theorem events_ok (hret : ret = ptpRcOk) (event : PTPContainer) :
    (OuterAnswer.event ret event).events = [event] := if_pos hret

theorem events_failed (hret : ret ≠ ptpRcOk) (event : PTPContainer) :
    (OuterAnswer.event ret event).events = [] := if_neg hret

variable {answer : OuterAnswer}

theorem transferStep_right
    (h : TransferInv xml cmdxml queue events call s) (hfits : AnswerFits xml s call answer)
    (hstep : transferStep xml cmdxml s call answer = some progress) :
    TransferRight xml cmdxml queue (events ++ answer.events) progress := by
  cases answer with
  | event ret e =>
    by_cases hret : ret = ptpRcOk
    · rw [events_ok hret]
      cases call with
      | eventCheck =>
        cases hstep
        rw [if_neg (fun hne => hne hret)]
        exact checkedEvent_right h (hfits hret)
      | eventWait =>
        cases hstep
        rw [afterCall, if_neg (fun hne => hne hret)]
        exact awaitedEvent_right h (hfits hret)
      | _ => cases hstep
    · rw [events_failed hret, append_nil]
      cases call with
      | eventCheck =>
        cases hstep
        rw [if_pos hret]
        exact h.moves rfl rfl rfl trivial
      | eventWait =>
        cases hstep
        exact afterCall_right h fun hok => absurd hok hret
      | _ => cases hstep
  | info ret oi =>
    rw [OuterAnswer.events, append_nil]
    cases call with
    | eventInfo a =>
      cases hstep
      obtain ⟨hbefore, hcode, hxml⟩ := h.holds
      refine afterCall_right h fun hret => ?_
      exact h.moves rfl rfl rfl ⟨kind_eventFile hcode hxml hbefore, rfl⟩
    | answerInfo a =>
      cases hstep
      exact afterCall_right h fun hret => answerOrEvent_right h (hfits hret)
    | _ => cases hstep
  | object ret bytes =>
    rw [OuterAnswer.events, append_nil]
    cases call with
    | eventObject a oi =>
      cases hstep
      refine afterCall_right h fun hret => ?_
      obtain ⟨hsize, hroom⟩ := hfits hret
      exact handleEventFile_right h hsize hroom
    | answerObject a oi =>
      cases hstep
      exact afterCall_right h fun hret => handleAnswer_right h (hfits hret)
    | _ => cases hstep
  | sent ret =>
    rw [OuterAnswer.events]
    rw [append_nil]
    cases call with
    | replyInfo a evxml =>
      cases hstep
      exact afterCall_right h fun hret => h.moves rfl rfl rfl h.holds
    | replyObject a evxml =>
      cases hstep
      exact afterCall_right h fun hret => replyObject_right h
    | requestInfo =>
      cases hstep
      exact afterCall_right h fun hret => h.moves rfl rfl rfl trivial
    | requestObject =>
      cases hstep
      exact afterCall_right h fun hret => requestObject_right h
    | _ => cases hstep

/-! ### Runs -/

variable {answers : List OuterAnswer}

theorem transferCalls_right (h : TransferInv xml cmdxml queue events call s)
    (hfits : AnswersFit xml cmdxml call s answers)
    (hrun : transferCalls xml cmdxml call s answers = some progress) :
    TransferRight xml cmdxml queue (events ++ answers.flatMap OuterAnswer.events) progress := by
  induction answers generalizing call s events with
  | nil =>
    cases hrun
    rw [List.flatMap_nil, append_nil]
    exact h
  | cons answer answers ih =>
    obtain ⟨hfirst, hrest⟩ := hfits
    unfold transferCalls at hrun
    cases hstep : transferStep xml cmdxml s call answer with
    | none =>
      rw [hstep] at hrun
      cases hrun
    | some after =>
      have hright := transferStep_right h hfirst hstep
      rw [hstep] at hrun
      rw [List.flatMap_cons, ← append_assoc]
      cases after with
      | next call' s' => exact ih hright (hrest call' s' hstep) hrun
      | returns ret s' =>
        by_cases hlast : answers = []
        · simp only [if_pos hlast] at hrun
          cases hrun
          rw [hlast, List.flatMap_nil, append_nil]
          exact hright
        · simp only [if_neg hlast] at hrun
          cases hrun
      | undefined => exact hright.elim

/-! ### Runs that succeed -/

theorem hasRoom_of_foldlM {q q' : EventQueue} {batch : List PTPContainer}
    (h : batch.foldlM ptpAddEvent q = some q') : q.HasRoom batch := by
  have hpending : q'.pending = q.pending ++ batch := by
    induction batch generalizing q with
    | nil =>
      cases h
      exact (append_nil _).symm
    | cons event batch ih =>
      rw [List.foldlM_cons] at h
      obtain ⟨q₁, hq₁, hrest⟩ := Option.bind_eq_some_iff.mp h
      rw [ih hrest, (store_eq_some hq₁).1, append_assoc]
      rfl
  have hlen := congrArg List.length hpending
  rw [length_append, length_pending, length_pending] at hlen
  have hint := q'.isInt
  unfold HasRoom
  omega

theorem hasRoom_of_passOn {next : TransferCall}
    (h : passOn s event next ≠ .undefined) : s.queue.HasRoom [event] := by
  by_contra hfull
  refine h ?_
  unfold passOn ptpAddEvent
  rw [EventQueue.store_full [event] hfull]

/-- What is defined has room in the queue, and objects that are not too short. -/
theorem answerFits_of_defined (h : TransferInv xml cmdxml queue events call s)
    (hstep : transferStep xml cmdxml s call answer = some progress)
    (hdefined : progress ≠ .undefined)
    (hname : ∀ a oi, call = .answerInfo a → answer = .info ptpRcOk oi →
      oi.filename = some drsponse)
    (hsize : ∀ a oi bytes, call = .answerObject a oi → answer = .object ptpRcOk bytes →
      oi.objectCompressedSize.toNat = bytes.length) :
    AnswerFits xml s call answer := by
  cases answer with
  | event ret e =>
    cases call with
    | eventCheck =>
      cases hstep
      intro hret hpass
      rw [if_neg (fun hne => hne hret)] at hdefined
      unfold checkedEvent at hdefined
      by_cases hcode : e.code = ptpEcRequestObjectTransfer
      · have hxml := hpass.resolve_left fun hne => hne hcode
        rw [if_neg (fun hne => hne hcode), if_pos hxml] at hdefined
        exact hasRoom_of_passOn hdefined
      · rw [if_pos hcode] at hdefined
        exact hasRoom_of_passOn hdefined
    | eventWait =>
      cases hstep
      intro hret hcode
      rw [afterCall, if_neg (fun hne => hne hret), awaitedEvent, if_pos hcode] at hdefined
      exact hasRoom_of_passOn hdefined
    | _ => cases hstep
  | info ret oi =>
    cases call with
    | eventInfo a => trivial
    | answerInfo a => exact fun hret => hname a oi rfl (by rw [hret])
    | _ => cases hstep
  | object ret bytes =>
    cases call with
    | eventObject a oi =>
      cases hstep
      intro hret
      rw [afterCall, if_neg (fun hne => hne hret)] at hdefined
      obtain ⟨-, hinfo⟩ := h.holds
      unfold handleEventFile at hdefined
      cases htext : objectText oi bytes with
      | none =>
        rw [htext] at hdefined
        exact absurd rfl hdefined
      | some txt =>
        obtain ⟨hle, rfl⟩ := objectText_eq_some htext
        refine ⟨hle, ?_⟩
        simp only [htext] at hdefined
        show s.queue.HasRoom (parseEventXml xml (bytes.take _) a.event).events
        cases hadd : (parseEventXml xml (bytes.take oi.objectCompressedSize.toNat)
            a.event).events.foldlM ptpAddEvent s.queue with
        | none =>
          rw [hadd] at hdefined
          exact absurd rfl hdefined
        | some q' => exact hasRoom_of_foldlM hadd
    | answerObject a oi => exact fun hret => hsize a oi bytes rfl (by rw [hret])
    | _ => cases hstep
  | sent ret => cases call <;> trivial

/-- How many requests are sent at least when it succeeds. -/
def Progress.requests : Progress → Nat
  | .next call s => (s.sentAs hrequest).length + if call.requested then 0 else 1
  | .returns _ s => (s.sentAs hrequest).length
  | .undefined => 0

/-- It has not failed. -/
def Progress.Succeeds : Progress → Prop
  | .next _ _ => True
  | .returns ret _ => ret = ptpRcOk
  | .undefined => False

theorem requests_afterCall {n : Nat}
    (h : n ≤ progress.requests ∨ ¬progress.Succeeds) :
    n ≤ (afterCall ret s progress).requests ∨ ¬(afterCall ret s progress).Succeeds := by
  unfold afterCall
  by_cases hret : ret = ptpRcOk
  · rw [if_neg (fun hne => hne hret)]
    exact h
  · rw [if_pos hret]
    exact Or.inr hret

theorem requests_passOn {next : TransferCall}
    (hreq : next.requested = call.requested) :
    (Progress.next call s).requests ≤ (passOn s event next).requests ∨
      ¬(passOn s event next).Succeeds := by
  unfold passOn
  cases ptpAddEvent s.queue event with
  | none => exact Or.inr id
  | some q =>
    refine Or.inl ?_
    show _ ≤ (s.sentAs hrequest).length + if next.requested then 0 else 1
    rw [hreq]
    exact Nat.le_refl _

/-- A request that was sent stays sent, and where none is with the camera one will be. -/
theorem requests_transferStep (hstep : transferStep xml cmdxml s call answer = some progress) :
    (Progress.next call s).requests ≤ progress.requests ∨ ¬progress.Succeeds := by
  cases answer with
  | event ret e =>
    cases call with
    | eventCheck =>
      cases hstep
      by_cases hret : ret = ptpRcOk
      · rw [if_neg (fun hne => hne hret)]
        unfold checkedEvent
        by_cases hcode : e.code = ptpEcRequestObjectTransfer
        · rw [if_neg (fun hne => hne hcode)]
          by_cases hxml : IsXmlHandle e.param1
          · rw [if_neg (fun hne => hne hxml)]
            exact Or.inl (Nat.le_refl _)
          · rw [if_pos hxml]
            exact requests_passOn rfl
        · rw [if_pos hcode]
          exact requests_passOn rfl
      · rw [if_pos hret]
        exact Or.inl (Nat.le_refl _)
    | eventWait =>
      cases hstep
      refine requests_afterCall ?_
      unfold awaitedEvent
      by_cases hcode : e.code = ptpEcRequestObjectTransfer
      · rw [if_neg (fun hne => hne hcode)]
        exact Or.inl (Nat.le_refl _)
      · rw [if_pos hcode]
        exact requests_passOn rfl
    | _ => cases hstep
  | info ret oi =>
    cases call with
    | eventInfo a =>
      cases hstep
      exact requests_afterCall (Or.inl (Nat.le_refl _))
    | answerInfo a =>
      cases hstep
      refine requests_afterCall ?_
      unfold answerOrEvent
      cases oi.filename with
      | none => exact Or.inr id
      | some filename =>
        by_cases hname : filename = drsponse
        · simp only [if_pos hname]
          exact Or.inl (Nat.le_refl _)
        · simp only [if_neg hname]
          exact Or.inl (Nat.le_succ _)
    | _ => cases hstep
  | object ret bytes =>
    cases call with
    | eventObject a oi =>
      cases hstep
      refine requests_afterCall ?_
      unfold handleEventFile
      cases objectText oi bytes with
      | none => exact Or.inr id
      | some txt =>
        simp only
        cases (parseEventXml xml txt a.event).events.foldlM ptpAddEvent s.queue with
        | none => exact Or.inr id
        | some q => exact Or.inl (Nat.le_refl _)
    | answerObject a oi =>
      cases hstep
      refine requests_afterCall ?_
      unfold handleAnswer
      cases objectText oi bytes with
      | none => exact Or.inr id
      | some txt => exact Or.inl (Nat.le_refl _)
    | _ => cases hstep
  | sent ret =>
    cases call with
    | replyInfo a evxml =>
      cases hstep
      exact requests_afterCall (Or.inl (Nat.le_refl _))
    | replyObject a evxml =>
      cases hstep
      refine requests_afterCall (Or.inl ?_)
      show _ ≤ ((s.send hrsponse evxml).sentAs hrequest).length + 1
      rw [sentAs_send, if_neg (by decide), append_nil]
      exact Nat.le_refl _
    | requestInfo =>
      cases hstep
      exact requests_afterCall (Or.inl (Nat.le_refl _))
    | requestObject =>
      cases hstep
      refine requests_afterCall (Or.inl ?_)
      show _ ≤ ((s.send hrequest cmdxml).sentAs hrequest).length + 0
      rw [sentAs_send, if_pos rfl, length_append]
      exact Nat.le_refl _
    | _ => cases hstep

variable {s' : TransferState}

theorem requests_transferCalls
    (hrun : transferCalls xml cmdxml call s answers = some (.returns ptpRcOk s')) :
    (Progress.next call s).requests ≤ (s'.sentAs hrequest).length := by
  induction answers generalizing call s with
  | nil => cases hrun
  | cons answer answers ih =>
    unfold transferCalls at hrun
    cases hstep : transferStep xml cmdxml s call answer with
    | none =>
      rw [hstep] at hrun
      cases hrun
    | some after =>
      have hrequests := requests_transferStep hstep
      rw [hstep] at hrun
      cases after with
      | next call₁ s₁ =>
        exact Nat.le_trans (hrequests.resolve_right fun h => h trivial) (ih hrun)
      | returns ret s₁ =>
        by_cases hlast : answers = []
        · simp only [if_pos hlast] at hrun
          cases hrun
          exact hrequests.resolve_right fun h => h rfl
        · simp only [if_neg hlast] at hrun
          cases hrun
      | undefined =>
        by_cases hlast : answers = []
        · simp only [if_pos hlast] at hrun
          cases hrun
        · simp only [if_neg hlast] at hrun
          cases hrun

theorem size_of_answered (h : handleAnswer s a oi bytes = .returns ptpRcOk s')
    (hanswered : Answered xml cmdxml queue events s') :
    oi.objectCompressedSize.toNat = bytes.length := by
  unfold handleAnswer at h
  cases htext : objectText oi bytes with
  | none =>
    rw [htext] at h
    cases h
  | some txt =>
    rw [htext] at h
    cases h
    obtain ⟨hle, rfl⟩ := objectText_eq_some htext
    obtain ⟨before, last, hhandled, -, -, hinxml⟩ := hanswered.answer
    obtain ⟨-, hlast⟩ := List.append_inj' hhandled rfl
    obtain ⟨rfl, -⟩ := List.cons.inj hlast
    have hlen := congrArg List.length (Option.some.inj hinxml)
    rw [List.length_take] at hlen
    show _ = bytes.length
    have hlen' : min oi.objectCompressedSize.toNat bytes.length = bytes.length := hlen
    omega

theorem name_of_answered {all : List PTPContainer} {s₁ : TransferState} {call₁ : TransferCall}
    (h : TransferInv xml cmdxml queue events (.answerInfo a) s)
    (hstep : answerOrEvent s a oi = .next call₁ s₁)
    (hrun : transferCalls xml cmdxml call₁ s₁ answers = some (.returns ptpRcOk s'))
    (hanswered : Answered xml cmdxml queue all s') : oi.filename = some drsponse := by
  have hrequests := requests_transferCalls hrun
  rw [hanswered.requests] at hrequests
  unfold answerOrEvent at hstep
  cases hfilename : oi.filename with
  | none =>
    rw [hfilename] at hstep
    cases hstep
  | some filename =>
    rw [hfilename] at hstep
    by_cases hname : filename = drsponse
    · rw [hname]
    · simp only [if_neg hname] at hstep
      cases hstep
      have htwice : (s.sentAs hrequest).length + 1 ≤ 1 := hrequests
      rw [h.requests] at htwice
      exact absurd htwice (by simp [TransferCall.requested])

theorem transferCalls_fits {all : List PTPContainer}
    (h : TransferInv xml cmdxml queue events call s)
    (hrun : transferCalls xml cmdxml call s answers = some (.returns ptpRcOk s'))
    (hanswered : Answered xml cmdxml queue all s') : AnswersFit xml cmdxml call s answers := by
  induction answers generalizing call s events with
  | nil => trivial
  | cons answer answers ih =>
    unfold transferCalls at hrun
    cases hstep : transferStep xml cmdxml s call answer with
    | none =>
      rw [hstep] at hrun
      cases hrun
    | some after =>
      rw [hstep] at hrun
      cases after with
      | next call₁ s₁ =>
        have hfits : AnswerFits xml s call answer := by
          refine answerFits_of_defined h hstep Progress.noConfusion ?_ ?_
          · rintro a oi rfl rfl
            exact name_of_answered h (Option.some.inj hstep) hrun hanswered
          · rintro a oi bytes rfl rfl
            have hnext : handleAnswer s a oi bytes = .next call₁ s₁ := Option.some.inj hstep
            unfold handleAnswer at hnext
            cases htext : objectText oi bytes <;> rw [htext] at hnext <;> cases hnext
        refine ⟨hfits, fun call' s'' hstep' => ?_⟩
        cases hstep.symm.trans hstep'
        exact ih (transferStep_right h hfits hstep) hrun
      | returns ret s₁ =>
        by_cases hlast : answers = []
        · simp only [if_pos hlast] at hrun
          cases hrun
          refine ⟨answerFits_of_defined h hstep Progress.noConfusion ?_ ?_, ?_⟩
          · rintro a oi rfl rfl
            have hreturns : answerOrEvent s a oi = .returns ptpRcOk s' := Option.some.inj hstep
            unfold answerOrEvent at hreturns
            cases hfilename : oi.filename with
            | none =>
              rw [hfilename] at hreturns
              cases hreturns
            | some filename =>
              rw [hfilename] at hreturns
              by_cases hname : filename = drsponse
              · simp only [if_pos hname] at hreturns
                cases hreturns
              · simp only [if_neg hname] at hreturns
                cases hreturns
          · rintro a oi bytes rfl rfl
            exact size_of_answered (Option.some.inj hstep) hanswered
          · intro call' s'' hstep'
            cases hstep.symm.trans hstep'
        · simp only [if_neg hlast] at hrun
          cases hrun
      | undefined =>
        by_cases hlast : answers = []
        · simp only [if_pos hlast] at hrun
          cases hrun
        · simp only [if_neg hlast] at hrun
          cases hrun

/-- The account holds at every call as long as the answers fit, and where the transfer succeeds it
is right if and only if they do. -/
theorem olympusXmlTransfer_iff {answers : List OuterAnswer} {progress : Progress}
    (hrun : olympusXmlTransfer xml cmdxml queue answers = some progress) :
    (AnswersFit xml cmdxml .eventCheck ⟨queue, [], [], none⟩ answers →
      TransferRight xml cmdxml queue (answers.flatMap OuterAnswer.events) progress) ∧
    ∀ s, progress = .returns ptpRcOk s →
      (Answered xml cmdxml queue (answers.flatMap OuterAnswer.events) s ↔
        AnswersFit xml cmdxml .eventCheck ⟨queue, [], [], none⟩ answers) := by
  have hstart : TransferInv xml cmdxml queue [] .eventCheck ⟨queue, [], [], none⟩ :=
    ⟨rfl, (append_nil _).symm, rfl, rfl, fun a ha => absurd ha List.not_mem_nil, trivial⟩
  refine ⟨fun hfits => transferCalls_right hstart hfits hrun, ?_⟩
  rintro s rfl
  refine ⟨transferCalls_fits hstart hrun, fun hfits => ?_⟩
  have hright := transferCalls_right hstart hfits hrun
  simp only [TransferRight, if_true] at hright
  exact hright

end

/-- An empty file is no document, and the reply to an event that was not read. -/
def emptyFileXml : LibXml where
  readMemory _ := none
  dumpMemory _ :=
    ("<?xml version=\"1.0\"?>\n<x3c xmlns=\"http://www1.olympus-imaging.com/ww/x3c\"><output>" ++
      "<result>2001</result><e4009/></output></x3c>\n").toList.map fun c => UInt8.ofNat c.toNat
  unset _ := 0

/-- The camera announces an object. -/
def announces (handle : UInt32) : OuterAnswer :=
  .event ptpRcOk
    { PTPContainer.zero with code := ptpEcRequestObjectTransfer, param1 := handle, nparam := 1 }

/-- An empty event file, and the reply to it. -/
def eventFileAnswers : List OuterAnswer :=
  [.info ptpRcOk (scriptInfo "XDISCVRY.X3C".toList 0), .object ptpRcOk [], .sent ptpRcOk,
    .sent ptpRcOk]

/-- No event comes, and the request is sent. -/
def requestAnswers : List OuterAnswer :=
  [.event ptpErrorTimeout PTPContainer.zero, .sent ptpRcOk, .sent ptpRcOk]

/-- The answer of two bytes. -/
def answerAnswers : List OuterAnswer :=
  [announces 0x1e000002, .info ptpRcOk (scriptInfo drsponse 2), .object ptpRcOk [60, 62]]

/-- An event file before the request. -/
theorem olympusXmlTransfer_event_file :
    ∃ progress, olympusXmlTransfer emptyFileXml [1] .empty
        (announces 0x1e000001 :: eventFileAnswers ++ requestAnswers ++ answerAnswers) =
          some progress ∧
      (AnswersFit emptyFileXml [1] .eventCheck ⟨.empty, [], [], none⟩
          (announces 0x1e000001 :: eventFileAnswers ++ requestAnswers ++ answerAnswers) →
        TransferRight emptyFileXml [1] .empty
          ((announces 0x1e000001 :: eventFileAnswers ++ requestAnswers ++ answerAnswers).flatMap
            OuterAnswer.events) progress) :=
  ⟨_, rfl, (olympusXmlTransfer_iff rfl).1⟩

/-- An event file between the request and its answer: the request is sent again. -/
theorem olympusXmlTransfer_sends_again :
    ¬∀ (xml : LibXml) (cmdxml : List UInt8) (queue : EventQueue) (answers : List OuterAnswer)
      (progress : Progress), olympusXmlTransfer xml cmdxml queue answers = some progress →
        TransferRight xml cmdxml queue (answers.flatMap OuterAnswer.events) progress := by
  intro h
  have hright := h emptyFileXml [1] .empty
    (requestAnswers ++ announces 0x1e000001 :: eventFileAnswers ++ requestAnswers ++
      answerAnswers) _ rfl
  simp only [TransferRight] at hright
  have hrequests := hright.requests
  revert hrequests
  decide

end GPhoto2
