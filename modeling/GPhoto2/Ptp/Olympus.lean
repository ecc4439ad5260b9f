import GPhoto2.Ptp.EventQueue

/-!
# `GPhoto2.Ptp.Olympus`: requests and events as XML files

Part of `olympus-wrap.c`. A request is an XML file that is sent to the camera, which announces the
file with its answer by an event. Other events come in between; some of them announce a file
with an event, which wants a reply.

`olympus_xml_transfer` is a step for each call to the functions of the outer parameters.
`TransferCall` is where it is: the call that it makes next, with what it holds then. What the
call gives is an argument of `transferStep`. What libxml2 reads and prints is a parameter.
-/

set_option autoImplicit false

namespace GPhoto2

open Lib

def ptpEcDevicePropChanged : UInt16 := 0x4006
def ptpEcRequestObjectTransfer : UInt16 := 0x4009
def ptpEcOlympusPropertyChanged : UInt32 := 0xC102
def ptpOfcScript : UInt16 := 0x3002

/-! ### `sscanf` -/

/-- What `sscanf` returns for a single number: `0`, `EOF` or `1`. -/
inductive Scan
  | mismatch
  | ended
  | value (n : UInt32)
  deriving DecidableEq

/-- The digits of `%x`, behind a sign: a number beyond `unsigned long` is the largest one. -/
def scanHexDigits (negative : Bool) (s : CString) : Scan :=
  if (s.head?.bind hexDigit).isNone then .mismatch
  else
    let n := hexNumber 0 s
    if 2 ^ 64 ≤ n then .value (UInt32.ofNat (2 ^ 64 - 1))
    else if negative then .value (UInt32.ofNat (2 ^ 64 - n))
    else .value (UInt32.ofNat n)

/-- `0x` in front of the digits. -/
def dropHexPrefix : CString → CString
  | '0' :: 'x' :: s => s
  | '0' :: 'X' :: s => s
  | s => s

/-- `sscanf` with `%x`. -/
def scanHex (s : CString) : Scan :=
  match s.dropWhile isSpace with
  | [] => .ended
  | '-' :: s => scanHexDigits true (dropHexPrefix s)
  | '+' :: s => scanHexDigits false (dropHexPrefix s)
  | s => scanHexDigits false (dropHexPrefix s)

/-- `sscanf` with a letter and `%x`. -/
def scanLetterHex (letter : Char) : CString → Scan
  | [] => .ended
  | c :: s => if c = letter then scanHex s else .mismatch

/-- The variable behind a `sscanf` whose result is not `0`: at the end of the text it keeps what it
holds. -/
def Scan.into (held : UInt32) : Scan → Option UInt32
  | .mismatch => none
  | .ended => some held
  | .value n => some n

/-! ### XML -/

/-- An element: its name, the namespace that it declares, its text and its child elements. -/
inductive XmlElement
  | mk (name : CString) (xmlns : Option CString) (content : CString) (children : List XmlElement)

namespace XmlElement

def name : XmlElement → CString
  | mk name _ _ _ => name

def content : XmlElement → CString
  | mk _ _ content _ => content

def children : XmlElement → List XmlElement
  | mk _ _ _ children => children

end XmlElement

/-- What is used of libxml2, and what variables hold that nothing was scanned into. -/
structure LibXml where
  /-- `xmlReadMemory` and `xmlDocGetRootElement`. -/
  readMemory : List UInt8 → Option XmlElement
  /-- `xmlDocDumpMemory`, up to the terminator of the text. -/
  dumpMemory : XmlElement → List UInt8
  unset : XmlElement → UInt32

variable (xml : LibXml)

/-- The events that the properties below an `Olympus_PropertyChanged` stand for. -/
def propertyEvents (node : XmlElement) : List PTPContainer :=
  node.children.filterMap fun propidnode =>
    ((scanLetterHex 'p' propidnode.name).into (xml.unset propidnode)).map fun propid =>
      { PTPContainer.zero with code := ptpEcDevicePropChanged, nparam := 1, param1 := propid }

/-- The variables of `traverse_input_tree`, with the events it has put on the queue. -/
structure InputTree where
  evt : Option UInt32
  code : UInt16
  pars : List UInt32
  events : List PTPContainer

/-- A node below `input`. -/
def inputNode (tree : InputTree) (next : XmlElement) : InputTree :=
  match (scanLetterHex 'e' next.name).into (tree.evt.getD (xml.unset next)) with
  | some evt =>
    { tree with
      evt := some evt
      code := evt.toUInt16
      events := tree.events ++
        if evt = ptpEcOlympusPropertyChanged then propertyEvents xml next else [] }
  | none =>
    if next.name = "param".toList then
      match (scanHex next.content).into (xml.unset next) with
      | some x => { tree with pars := if tree.pars.length < 5 then tree.pars ++ [x] else tree.pars }
      | none => tree
    else tree

/-- What an event file gives: the result, the events for the queue, and the event in it. -/
structure ParsedEvent where
  result : Bool
  events : List PTPContainer
  resp : PTPContainer
  deriving DecidableEq

/-- `traverse_input_tree`. -/
def traverseInputTree (node : XmlElement) (resp : PTPContainer) : ParsedEvent :=
  if node.children = [] then ⟨false, [], resp⟩
  else
    let tree := node.children.foldl (inputNode xml) ⟨none, 0, [], []⟩
    ⟨true, tree.events,
      { resp with
        code := tree.code
        nparam := UInt8.ofNat tree.pars.length
        param1 := tree.pars.getD 0 resp.param1
        param2 := tree.pars.getD 1 resp.param2
        param3 := tree.pars.getD 2 resp.param3
        param4 := tree.pars.getD 3 resp.param4
        param5 := tree.pars.getD 4 resp.param5 }⟩

/-- `traverse_x3c_event_tree`. -/
def traverseX3cEventTree (node : XmlElement) (resp : PTPContainer) : ParsedEvent :=
  if node.name ≠ "x3c".toList then ⟨false, [], resp⟩
  else
    match node.children with
    | [next] =>
      if next.name = "input".toList then traverseInputTree xml next resp else ⟨false, [], resp⟩
    | _ => ⟨false, [], resp⟩

/-- `parse_event_xml`, of a text that ends with a zero. -/
def parseEventXml (txt : List UInt8) (resp : PTPContainer) : ParsedEvent :=
  match xml.readMemory (txt.takeWhile (· ≠ 0)) with
  | none => ⟨false, [], resp⟩
  | some docroot => traverseX3cEventTree xml docroot resp

/-- Four hexadecimal digits: `%04X` of a number of 16 bits. -/
def hex4 (n : UInt16) : CString :=
  let digits := Nat.toDigits 16 n.toNat
  List.replicate (4 - digits.length) '0' ++ digits.map Char.toUpper

/-- `generate_event_OK_xml`. -/
def generateEventOKXml (ptp : PTPContainer) : List UInt8 :=
  xml.dumpMemory
    (.mk "x3c".toList (some "http://www1.olympus-imaging.com/ww/x3c".toList) []
      [.mk "output".toList none []
        [.mk "result".toList none "2001".toList [], .mk ('e' :: hex4 ptp.code) none [] []]])

/-! ### Files -/

def hrequest : CString := "HREQUEST.X3C".toList
def hrsponse : CString := "HRSPONSE.X3C".toList
def drsponse : CString := "DRSPONSE.X3C".toList

/-- The object info of a file that is sent to the camera. -/
def scriptInfo (filename : CString) (size : Nat) : PTPObjectInfo :=
  { PTPObjectInfo.zero with
    objectFormat := ptpOfcScript
    storageID := 0x80000001
    filename := some filename
    objectCompressedSize := UInt64.ofNat size }

/-- A file that was sent: `SendObjectInfo` and `SendObject`. -/
structure SentFile where
  info : PTPObjectInfo
  object : List UInt8
  deriving DecidableEq

/-- The text of a file: as many bytes as its object info says. Nothing is defined behind the end
of the object. -/
def objectText (oi : PTPObjectInfo) (object : List UInt8) : Option (List UInt8) :=
  if oi.objectCompressedSize.toNat ≤ object.length then
    some (object.take oi.objectCompressedSize.toNat)
  else none

/-- `(handle & 0xff000000) == 0x1e000000`. -/
def IsXmlHandle (handle : UInt32) : Prop := handle &&& 0xff000000 = 0x1e000000

instance (handle : UInt32) : Decidable (IsXmlHandle handle) := inferInstanceAs (Decidable (_ = _))

/-! ### `olympus_xml_transfer` -/

/-- An event that came from the camera, before the request or after it, with what the camera has
said about its object. -/
structure Arrival where
  afterRequest : Bool
  event : PTPContainer
  info : Option PTPObjectInfo
  object : List UInt8
  deriving DecidableEq

/-- The queue of the inner parameters, the files that were sent, the events that are dealt with,
and `*inxml`. -/
structure TransferState where
  queue : EventQueue
  sent : List SentFile
  handled : List Arrival
  inxml : Option (List UInt8)

/-- The next call to the outer parameters. -/
inductive TransferCall
  /-- `event_check`. -/
  | eventCheck
  /-- `ptp_getobjectinfo` and `ptp_getobject` for an event file. -/
  | eventInfo (a : Arrival)
  | eventObject (a : Arrival) (oi : PTPObjectInfo)
  /-- `SendObjectInfo` and `SendObject` of the reply. -/
  | replyInfo (a : Arrival) (evxml : List UInt8)
  | replyObject (a : Arrival) (evxml : List UInt8)
  /-- `SendObjectInfo` and `SendObject` of the request. -/
  | requestInfo
  | requestObject
  /-- `event_wait`. -/
  | eventWait
  /-- `ptp_getobjectinfo` and `ptp_getobject` for the answer. -/
  | answerInfo (a : Arrival)
  | answerObject (a : Arrival) (oi : PTPObjectInfo)
  deriving DecidableEq

/-- What a call gives: its result, and the event, the object info or the object. -/
inductive OuterAnswer
  | event (ret : UInt16) (event : PTPContainer)
  | info (ret : UInt16) (oi : PTPObjectInfo)
  | object (ret : UInt16) (bytes : List UInt8)
  | sent (ret : UInt16)
  deriving DecidableEq

/-- A call follows, or it returns, or what it does is not defined. -/
inductive Progress
  | next (call : TransferCall) (s : TransferState)
  | returns (ret : UInt16) (s : TransferState)
  | undefined

/-- The next call, unless this one has failed. -/
def afterCall (ret : UInt16) (s : TransferState) (progress : Progress) : Progress :=
  if ret ≠ ptpRcOk then .returns ret s else progress

/-- The request is with the camera. -/
def TransferState.requested (s : TransferState) : Bool :=
  s.sent.any fun file => file.info.filename = some hrequest

/-- An event that is passed on. -/
def passOn (s : TransferState) (event : PTPContainer) (call : TransferCall) : Progress :=
  match ptpAddEvent s.queue event with
  | none => .undefined
  | some queue =>
    .next call
      { s with queue := queue, handled := s.handled ++ [⟨s.requested, event, none, []⟩] }

/-- The file of an event, up to the reply to it. -/
def handleEventFile (s : TransferState) (a : Arrival) (oi : PTPObjectInfo)
    (bytes : List UInt8) : Progress :=
  match objectText oi bytes with
  | none => .undefined
  | some txt =>
    let parsed := parseEventXml xml txt a.event
    match parsed.events.foldlM ptpAddEvent s.queue with
    | none => .undefined
    | some queue =>
      .next (.replyInfo { a with object := bytes } (generateEventOKXml xml parsed.resp))
        { s with queue := queue }

/-- The file with the answer. -/
def handleAnswer (s : TransferState) (a : Arrival) (oi : PTPObjectInfo) (bytes : List UInt8) :
    Progress :=
  match objectText oi bytes with
  | none => .undefined
  | some txt =>
    .returns ptpRcOk
      { s with inxml := some txt, handled := s.handled ++ [{ a with object := bytes }] }

/-- An event before the request. -/
def checkedEvent (s : TransferState) (event : PTPContainer) : Progress :=
  if event.code ≠ ptpEcRequestObjectTransfer then passOn s event .requestInfo
  else if ¬IsXmlHandle event.param1 then passOn s event .eventCheck
  else .next (.eventInfo ⟨s.requested, event, none, []⟩) s

/-- An event behind the request. -/
def awaitedEvent (s : TransferState) (event : PTPContainer) : Progress :=
  if event.code ≠ ptpEcRequestObjectTransfer then passOn s event .eventWait
  else .next (.answerInfo ⟨s.requested, event, none, []⟩) s

/-- The object info behind the request: the answer, or else it is taken for an event file. -/
def answerOrEvent (s : TransferState) (a : Arrival) (oi : PTPObjectInfo) : Progress :=
  match oi.filename with
  | none => .undefined
  | some filename =>
    if filename = drsponse then .next (.answerObject { a with info := some oi } oi) s
    else .next (.eventObject { a with info := some oi } oi) s

/-- A file was sent. -/
def TransferState.send (s : TransferState) (filename : CString) (bytes : List UInt8) :
    TransferState :=
  { s with sent := s.sent ++ [⟨scriptInfo filename bytes.length, bytes⟩] }

/-- `olympus_xml_transfer` from one call to the next. -/
def transferStep (cmdxml : List UInt8) (s : TransferState) :
    TransferCall → OuterAnswer → Option Progress
  | .eventCheck, .event ret event =>
    some (if ret ≠ ptpRcOk then .next .requestInfo s else checkedEvent s event)
  | .eventInfo a, .info ret oi =>
    some (afterCall ret s (.next (.eventObject { a with info := some oi } oi) s))
  | .eventObject a oi, .object ret bytes =>
    some (afterCall ret s (handleEventFile xml s a oi bytes))
  | .replyInfo a evxml, .sent ret => some (afterCall ret s (.next (.replyObject a evxml) s))
  | .replyObject a evxml, .sent ret =>
    some (afterCall ret s
      (.next .eventCheck { s.send hrsponse evxml with handled := s.handled ++ [a] }))
  | .requestInfo, .sent ret => some (afterCall ret s (.next .requestObject s))
  | .requestObject, .sent ret =>
    some (afterCall ret s (.next .eventWait (s.send hrequest cmdxml)))
  | .eventWait, .event ret event => some (afterCall ret s (awaitedEvent s event))
  | .answerInfo a, .info ret oi => some (afterCall ret s (answerOrEvent s a oi))
  | .answerObject a oi, .object ret bytes => some (afterCall ret s (handleAnswer s a oi bytes))
  | _, _ => none

/-- The calls one after another. -/
def transferCalls (cmdxml : List UInt8) :
    TransferCall → TransferState → List OuterAnswer → Option Progress
  | call, s, [] => some (.next call s)
  | call, s, answer :: answers =>
    match transferStep xml cmdxml s call answer with
    | some (.next call s) => transferCalls cmdxml call s answers
    | some progress => if answers = [] then some progress else none
    | none => none

/-- `olympus_xml_transfer`, with the given events in the queue, as far as the answers go. -/
def olympusXmlTransfer (cmdxml : List UInt8) (queue : EventQueue) (answers : List OuterAnswer) :
    Option Progress :=
  transferCalls xml cmdxml .eventCheck ⟨queue, [], [], none⟩ answers

end GPhoto2
