import GPhoto2.Sierra.StringRegister
import Mathlib.Data.List.GetD

/-!
# `GPhoto2.Proofs.Sierra.StringRegister`: what a string register reads as

`receptions` are the packets that the port gives, whatever they are. `getStringRegister_allData`
says what a call that succeeds returns: the data fields of all of them, up to the first `DATA_END`
in the buffer. `getStringRegister_distinct_iff` compares this with what was sent: the sequence
numbers are not looked at, and neither is the kind of the packet, so a data packet that is sent once
more is counted twice, and a packet of one byte counts with the length and the data that the buffer
still holds.

`getStringRegister_cleared_iff` is about the guard against recursive calls. It is cleared by hand
before some of the exits, and what fails elsewhere leaves it set.
-/

set_option autoImplicit false

namespace GPhoto2.Sierra

open Lib
open Lib.Comp (bind_eq_ok bind_run_ok get_bind_run modify_bind_run)

/-! ### What the port gives -/

/-- How a read of a packet has ended, with the buffer after it. -/
inductive Reception
  | packet (p : List UInt8)
  | failed (e : Int) (p : List UInt8)

def Reception.p : Reception → List UInt8
  | .packet p => p
  | .failed _ p => p

/-- The first `n` packets that the port gives, read one after another into one buffer. -/
def receptions (port : PortType) : Nat → Reader → List Reception
  | 0, _ => []
  | n + 1, s =>
    match readPacket port retriesMax 0 s with
    | none => []
    | some (.ok (), s') => .packet s'.p :: receptions port n s'
    | some (.error e, s') => .failed e s'.p :: receptions port n s'

/-- What is read up to the first `DATA_END` in the buffer. -/
def upToEnd : List Reception → List Reception
  | [] => []
  | x :: xs => if x.p.getD 0 0 = packetDataEnd then [x] else x :: upToEnd xs

variable (last : Option (UInt8 × UInt8)) (xs rs : List Reception)

theorem upToEnd_end {x : Reception} (h : x.p.getD 0 0 = packetDataEnd) :
    upToEnd (x :: xs) = [x] := if_pos h

theorem upToEnd_more {x : Reception} (h : x.p.getD 0 0 ≠ packetDataEnd) :
    upToEnd (x :: xs) = x :: upToEnd xs := if_neg h

/-- The last read has left a `DATA_END` in the buffer. -/
def StopsAtEnd (rs : List Reception) : Prop :=
  ∃ x, rs.getLast? = some x ∧ x.p.getD 0 0 = packetDataEnd

theorem StopsAtEnd.cons {rs : List Reception} (x : Reception) (h : StopsAtEnd rs) :
    StopsAtEnd (x :: rs) := by
  obtain ⟨y, hy, hend⟩ := h
  refine ⟨y, ?_, hend⟩
  rw [List.getLast?_cons, hy]
  rfl

/-- What a call reads, up to the first `DATA_END` in its buffer. -/
def receptionsOf (call : Call) (answers : List Answer) : List Reception :=
  upToEnd (receptions call.port (answers.length + 1) { p := request call, answers := answers })

/-! ### What is wanted -/

/-- The packet is a data packet. -/
def isData (p : List UInt8) : Bool :=
  p.getD 0 0 == packetData || p.getD 0 0 == packetDataEnd

/-- The kind of a packet and its sequence number. A data packet that is sent once more has the same
ones. -/
def header (p : List UInt8) : UInt8 × UInt8 := (p.getD 0 0, p.getD 1 0)

/-- The data fields of the data packets, each counted once. `last` is the header of the data packet
before. -/
def distinctData : Option (UInt8 × UInt8) → List Reception → List UInt8
  | _, [] => []
  | last, .failed _ _ :: rs => distinctData last rs
  | last, .packet p :: rs =>
    if isData p = true ∧ last ≠ some (header p) then
      dataField p ++ distinctData (some (header p)) rs
    else
      distinctData last rs

/-- The packets that are no data packets, or are data packets once more. -/
def surplus : Option (UInt8 × UInt8) → List Reception → List (List UInt8)
  | _, [] => []
  | last, .failed _ _ :: rs => surplus last rs
  | last, .packet p :: rs =>
    if isData p = true ∧ last ≠ some (header p) then
      surplus (some (header p)) rs
    else
      p :: surplus last rs

/-- The last packet that was read is a `DATA_END`. -/
def EndsWithDataEnd (rs : List Reception) : Prop :=
  ∃ p, rs.getLast? = some (.packet p) ∧ p.getD 0 0 = packetDataEnd

/-- The data fields of all packets. -/
def allData : List Reception → List UInt8
  | [] => []
  | .failed _ _ :: rs => allData rs
  | .packet p :: rs => dataField p ++ allData rs

/-- The data of all packets are those that are wanted, and those of the surplus packets. -/
theorem allData_length :
    (allData rs).length =
      (distinctData last rs).length + ((surplus last rs).map dataField).flatten.length := by
  induction rs generalizing last with
  | nil => rfl
  | cons x rs ih =>
    cases x with
    | failed e p => exact ih last
    | packet p =>
      by_cases hnew : isData p = true ∧ last ≠ some (header p)
      · simp only [allData, distinctData, surplus, if_pos hnew, List.length_append,
          ih (some (header p))]
        omega
      · simp only [allData, distinctData, surplus, if_neg hnew, List.length_append, ih last,
          List.map_cons, List.flatten_cons]
        omega

theorem allData_eq_of_surplus
    (h : ∀ p ∈ surplus last rs, dataField p = []) : allData rs = distinctData last rs := by
  induction rs generalizing last with
  | nil => rfl
  | cons x rs ih =>
    cases x with
    | failed e p => exact ih last h
    | packet p =>
      by_cases hnew : isData p = true ∧ last ≠ some (header p)
      · simp only [surplus, if_pos hnew] at h
        simp only [allData, distinctData, if_pos hnew, ih _ h]
      · simp only [surplus, if_neg hnew, List.mem_cons, forall_eq_or_imp] at h
        simp only [allData, distinctData, if_neg hnew, h.1, List.nil_append, ih _ h.2]

theorem allData_eq_iff :
    allData rs = distinctData last rs ↔ ∀ p ∈ surplus last rs, dataField p = [] := by
  constructor
  · intro h p hp
    have hlength := allData_length last rs
    rw [h] at hlength
    have hnone : ((surplus last rs).map dataField).flatten = [] :=
      List.eq_nil_of_length_eq_zero (by omega)
    exact List.flatten_eq_nil_iff.mp hnone _ (List.mem_map.mpr ⟨p, hp, rfl⟩)
  · exact allData_eq_of_surplus last rs

/-! ### Packets that arrive intact -/

/-- A long packet with its length and its checksum right. -/
def Intact (bytes : List UInt8) : Prop :=
  isLong (bytes.getD 0 0) = true ∧ bytes.length = wordAt bytes 2 + 6 ∧
    checksumAccepted bytes bytes.length = true

instance (bytes : List UInt8) : Decidable (Intact bytes) :=
  inferInstanceAs (Decidable (_ ∧ _ ∧ _))

theorem length_putAt (p bytes : List UInt8) (h : bytes.length ≤ p.length) :
    (putAt p 0 bytes).length = p.length := by
  simp only [putAt, List.length_append, List.length_take, List.length_drop]
  omega

variable {bytes : List UInt8}

theorem getD_putAt (p : List UInt8) {i : Nat} (h : i < bytes.length) :
    (putAt p 0 bytes).getD i 0 = bytes.getD i 0 := by
  rw [putAt, List.take_zero, List.nil_append, List.getD_append _ _ _ _ h]

theorem wordAt_putAt (p : List UInt8) {i : Nat} (h : i + 1 < bytes.length) :
    wordAt (putAt p 0 bytes) i = wordAt bytes i := by
  rw [wordAt, wordAt, getD_putAt p h, getD_putAt p (by omega : i < bytes.length)]

theorem take_drop_putAt (p : List UInt8) {i n : Nat}
    (h : i + n ≤ bytes.length) :
    ((putAt p 0 bytes).drop i).take n = (bytes.drop i).take n := by
  rw [putAt, List.take_zero, List.nil_append, List.drop_append_of_le_length (by omega),
    List.take_append_of_le_length (by simp only [List.length_drop]; omega)]

theorem isSingle_of_isLong {c : UInt8} (h : isLong c = true) : isSingle c = false := by
  simp only [isLong, Bool.or_eq_true, beq_iff_eq] at h
  rcases h with (rfl | rfl) | rfl <;> rfl

theorem checksumAccepted_putAt (p : List UInt8) (h : 6 ≤ bytes.length) :
    checksumAccepted (putAt p 0 bytes) bytes.length = checksumAccepted bytes bytes.length := by
  have hword : wordAt (putAt p 0 bytes) (bytes.length - 2) = wordAt bytes (bytes.length - 2) :=
    wordAt_putAt p (by omega)
  rw [checksumAccepted, checksumAccepted, hword, checksumOf, checksumOf,
    take_drop_putAt p (by omega)]

variable {p : List UInt8}

theorem readPacket_intact (answers : List Answer) (hintact : Intact bytes)
    (hroom : bytes.length ≤ p.length) (hsize : bytes.length ≤ PortType.usb.blocksize)
    (fuel r : Nat) :
    readPacket .usb (fuel + 1) r { p := p, answers := .ok bytes :: answers } =
      some (.ok (), { p := putAt p 0 bytes, answers := answers }) := by
  obtain ⟨hlong, hlength, hchecksum⟩ := hintact
  have hread : Comp.attempt (readInto 0 PortType.usb.blocksize)
      { p := p, answers := .ok bytes :: answers } =
        some (.ok (.ok bytes.length), { p := putAt p 0 bytes, answers := answers }) := by
    have hinto : readInto 0 PortType.usb.blocksize { p := p, answers := .ok bytes :: answers } =
        some (.ok bytes.length, { p := putAt p 0 bytes, answers := answers }) := by
      show (if 0 + (bytes.take _).length > p.length then none
        else some (Except.ok (bytes.take _).length, _)) = _
      rw [List.take_of_length_le hsize, Nat.zero_add, if_neg (Nat.not_lt.mpr hroom)]
    rw [Comp.attempt, hinto]
  have hfirst : (putAt p 0 bytes).getD 0 0 = bytes.getD 0 0 := getD_putAt p (by omega)
  have hword : wordAt (putAt p 0 bytes) 2 + 6 = bytes.length := by
    rw [wordAt_putAt p (by omega), hlength]
  have hrest : readRest bytes.length (answers.length + 1) bytes.length
      { p := putAt p 0 bytes, answers := answers } =
        some (.ok bytes.length, { p := putAt p 0 bytes, answers := answers }) := by
    rw [readRest, if_neg (Nat.lt_irrefl _)]
    rfl
  have hhead : readHead bytes.length { p := putAt p 0 bytes, answers := answers } =
      some (.ok bytes.length, { p := putAt p 0 bytes, answers := answers }) := by
    rw [readHead, if_neg (by omega)]
    rfl
  obtain ⟨n, hn⟩ : ∃ n, bytes.length = n + 1 := ⟨wordAt bytes 2 + 5, hlength⟩
  rw [readPacket, bind_run_ok hread, hn]
  show (if isSingle ((putAt p 0 bytes).getD 0 0) = true then pure () else _ :
    Comp Reader Int Unit) _ = _
  rw [hfirst, isSingle_of_isLong hlong, if_neg Bool.false_ne_true, hlong,
    if_neg (by simp), ← hn, bind_run_ok hhead, get_bind_run, hword,
    bind_run_ok hrest, get_bind_run, checksumAccepted_putAt p (by omega),
    if_pos ⟨rfl, hchecksum⟩]
  rfl

/-! ### The loop -/

section
variable {call : Call} {fuel retries : Nat} {p b : List UInt8} {driver : Driver} {s : Reader}

theorem receiveData_failed {e : Int}
    (hread : readPacket call.port retriesMax 0 { p := p, answers := driver.answers } =
      some (.error e, s)) :
    receiveData call (fuel + 1) retries p b driver =
      (if e ≠ gpErrorTimeout then
        Comp.throw e
      else if retries + 1 > retriesMax then do
        leave
        Comp.throw e
      else do
        step
        if s.p.getD 0 0 = packetDataEnd then pure b
        else receiveData call fuel (retries + 1) s.p b : Comp Driver Int (List UInt8))
      { driver with answers := s.answers } := by
  have hreceive : receive call.port p driver =
      some (.ok (.error e, s.p), { driver with answers := s.answers }) := by
    rw [receive, hread]
  rw [receiveData, bind_run_ok hreceive]

theorem receiveData_packet
    (hread : readPacket call.port retriesMax 0 { p := p, answers := driver.answers } =
      some (.ok (), s)) :
    receiveData call (fuel + 1) retries p b driver =
      (if s.p.getD 0 0 = packetInvalid then do
        leave
        Comp.throw gpError
      else do
        step
        if 4 + wordAt s.p 2 > s.p.length then
          Comp.stuck
        else do
          stepIf call.file
          let b := b ++ dataField s.p
          if s.p.getD 0 0 = packetDataEnd then pure b
          else receiveData call fuel retries s.p b : Comp Driver Int (List UInt8))
      { driver with answers := s.answers } := by
  have hreceive : receive call.port p driver =
      some (.ok (.ok (), s.p), { driver with answers := s.answers }) := by
    rw [receive, hread]
  rw [receiveData, bind_run_ok hreceive]

theorem receiveData_stuck
    (hread : readPacket call.port retriesMax 0 { p := p, answers := driver.answers } = none) :
    receiveData call (fuel + 1) retries p b driver = none := by
  have hreceive : receive call.port p driver = none := by
    rw [receive, hread]
  rw [receiveData, Comp.bind_run_none hreceive]

end

theorem step_ends (driver : Driver) :
    Comp.Ends
      (fun _ driver' => driver.steps.head?.join = none ∧
        driver' = { driver with steps := driver.steps.tail })
      (fun e driver' => driver.steps.head?.join = some e ∧
        driver' = { driver with steps := driver.steps.tail })
      (step driver) := by
  rcases hsteps : driver.steps with _ | ⟨_ | e, steps⟩ <;> simp only [step, hsteps]
  · cases driver
    cases hsteps
    exact ⟨rfl, rfl⟩
  · exact ⟨rfl, rfl⟩
  · exact ⟨rfl, rfl⟩

variable {driver driver' : Driver}

theorem stepIf_answers {c : Bool}
    (h : stepIf c driver = some (.ok (), driver')) : driver'.answers = driver.answers := by
  cases c with
  | false =>
    cases h
    rfl
  | true => rw [((step_ends driver).of_ok h).2]

variable {call : Call} {b : List UInt8}

/-- Data that the loop returns are those of all packets up to the `DATA_END` in the buffer. -/
theorem receiveData_eq_ok {fuel retries : Nat} {b' : List UInt8}
    (h : receiveData call fuel retries p b driver = some (.ok b', driver')) :
    b' = b ++ allData (upToEnd
        (receptions call.port fuel { p := p, answers := driver.answers })) ∧
      StopsAtEnd (upToEnd (receptions call.port fuel { p := p, answers := driver.answers })) := by
  induction fuel generalizing retries p b driver with
  | zero => cases h
  | succ fuel ih =>
    rcases hread : readPacket call.port retriesMax 0 { p := p, answers := driver.answers } with
      _ | ⟨e | _, s⟩
    · rw [receiveData_stuck hread] at h
      cases h
    · -- a read that failed: it counts for nothing, but its packet may end the loop
      rw [receiveData_failed hread] at h
      simp only [receptions, hread]
      by_cases htimeout : e ≠ gpErrorTimeout
      · rw [if_pos htimeout] at h
        cases h
      rw [if_neg htimeout] at h
      by_cases hretries : retries + 1 > retriesMax
      · rw [if_pos hretries] at h
        cases h
      rw [if_neg hretries, bind_eq_ok] at h
      obtain ⟨_, driver₁, hstep, h⟩ := h
      have hanswers : driver₁.answers = s.answers := by
        rw [((step_ends _).of_ok hstep).2]
      by_cases hend : s.p.getD 0 0 = packetDataEnd
      · rw [if_pos hend] at h
        cases h
        rw [upToEnd_end _ (show (Reception.failed e s.p).p.getD 0 0 = packetDataEnd from hend)]
        exact ⟨by simp [allData], _, rfl, hend⟩
      · rw [if_neg hend] at h
        rw [upToEnd_more _ (show (Reception.failed e s.p).p.getD 0 0 ≠ packetDataEnd from hend)]
        obtain ⟨hb, hlast⟩ := ih h
        rw [hanswers] at hb hlast
        exact ⟨hb, hlast.cons _⟩
    · -- a packet: its data are those of the buffer, whatever has arrived
      rw [receiveData_packet hread] at h
      simp only [receptions, hread]
      by_cases hinvalid : s.p.getD 0 0 = packetInvalid
      · rw [if_pos hinvalid] at h
        cases h
      rw [if_neg hinvalid, bind_eq_ok] at h
      obtain ⟨_, driver₁, hstep, h⟩ := h
      by_cases hlong : 4 + wordAt s.p 2 > s.p.length
      · rw [if_pos hlong] at h
        cases h
      rw [if_neg hlong, bind_eq_ok] at h
      obtain ⟨_, driver₂, happend, h⟩ := h
      have hanswers : driver₂.answers = s.answers := by
        have hfirst : driver₁.answers = s.answers := by
          rw [((step_ends _).of_ok hstep).2]
        rw [← hfirst]
        exact stepIf_answers happend
      by_cases hend : s.p.getD 0 0 = packetDataEnd
      · rw [if_pos hend] at h
        cases h
        rw [upToEnd_end _ (show (Reception.packet s.p).p.getD 0 0 = packetDataEnd from hend)]
        exact ⟨by simp [allData], _, rfl, hend⟩
      · rw [if_neg hend] at h
        rw [upToEnd_more _ (show (Reception.packet s.p).p.getD 0 0 ≠ packetDataEnd from hend)]
        obtain ⟨hb, hlast⟩ := ih h
        rw [hanswers] at hb hlast
        refine ⟨?_, hlast.cons _⟩
        rw [allData, ← List.append_assoc]
        exact hb

section
variable (h : getStringRegister call driver = some (.ok b, driver'))
include h

/-- Data that the function returns come from its loop. The guard is cleared behind it. -/
theorem getStringRegister_eq_ok :
    ∃ driver₁ driver₂, driver₁.answers = driver.answers ∧
      receiveData call (driver.answers.length + 1) 0 (request call) [] driver₁ =
        some (.ok b, driver₂) ∧
      driver' = { driver₂ with inFunction := false } := by
  rw [getStringRegister, get_bind_run] at h
  by_cases hguard : driver.inFunction = true
  · rw [if_pos hguard] at h
    cases h
  rw [if_neg hguard, transfer, modify_bind_run, bind_eq_ok] at h
  obtain ⟨_, driver₁, hnumber, h⟩ := h
  rw [bind_eq_ok] at h
  obtain ⟨_, driver₂, hwrite, h⟩ := h
  have hanswers : driver₂.answers = driver.answers := by
    rw [((step_ends _).of_ok hwrite).2]
    have hfirst := stepIf_answers hnumber
    exact hfirst
  rw [get_bind_run, bind_eq_ok] at h
  obtain ⟨b', driver₃, hloop, h⟩ := h
  rw [leave, modify_bind_run] at h
  cases h
  rw [hanswers] at hloop
  exact ⟨driver₂, driver₃, hanswers, hloop, rfl⟩

/-- Data that the function returns are those of all packets of the call. -/
theorem getStringRegister_allData :
    b = allData (receptionsOf call driver.answers) ∧
      StopsAtEnd (receptionsOf call driver.answers) := by
  obtain ⟨driver₁, driver₂, hanswers, hloop, -⟩ := getStringRegister_eq_ok h
  have hdata := receiveData_eq_ok hloop
  rw [hanswers, List.nil_append] at hdata
  exact hdata

end

/-! ### Calls with intact packets -/

section
variable {p bytes : List UInt8}

theorem Intact.length_ge (hintact : Intact bytes) : 6 ≤ bytes.length := by
  have hlength := hintact.2.1
  omega

theorem isData_putAt (p : List UInt8) (hintact : Intact bytes) :
    isData (putAt p 0 bytes) = isData bytes := by
  have hlength := hintact.length_ge
  rw [isData, isData, getD_putAt p (by omega)]

theorem header_putAt (p : List UInt8) (hintact : Intact bytes) :
    header (putAt p 0 bytes) = header bytes := by
  have hlength := hintact.length_ge
  rw [header, header, getD_putAt p (by omega), getD_putAt p (by omega)]

theorem dataField_putAt (p : List UInt8) (hintact : Intact bytes) :
    dataField (putAt p 0 bytes) = dataField bytes := by
  have hlength := hintact.2.1
  rw [dataField, dataField, wordAt_putAt p (by omega), take_drop_putAt p (by omega)]

theorem receptions_intact (answers : List Answer) (hintact : Intact bytes)
    (hroom : bytes.length ≤ p.length) (hsize : bytes.length ≤ PortType.usb.blocksize) (n : Nat) :
    receptions .usb (n + 1) { p := p, answers := .ok bytes :: answers } =
      .packet (putAt p 0 bytes) ::
        receptions .usb n { p := putAt p 0 bytes, answers := answers } := by
  rw [receptions, show retriesMax = 9 + 1 from rfl,
    readPacket_intact answers hintact hroom hsize]

theorem receiveData_intact {call : Call} (hport : call.port = .usb) (answers : List Answer)
    (hintact : Intact bytes) (hroom : bytes.length ≤ p.length)
    (hsize : bytes.length ≤ PortType.usb.blocksize) (fuel retries : Nat) (b : List UInt8)
    (guard : Bool) :
    receiveData call (fuel + 1) retries p b
        { inFunction := guard, answers := .ok bytes :: answers, steps := [] } =
      (if bytes.getD 0 0 = packetDataEnd then pure (b ++ dataField bytes)
        else receiveData call fuel retries (putAt p 0 bytes) (b ++ dataField bytes) :
        Comp Driver Int (List UInt8)) { inFunction := guard, answers := answers, steps := [] } := by
  have hlength := hintact.2.1
  have hread : readPacket call.port retriesMax 0 { p := p, answers := .ok bytes :: answers } =
      some (.ok (), { p := putAt p 0 bytes, answers := answers }) := by
    rw [hport]
    exact readPacket_intact answers hintact hroom hsize 9 0
  have hinvalid : ¬ bytes.getD 0 0 = packetInvalid := by
    intro hinvalid
    have hlong := hintact.1
    rw [hinvalid] at hlong
    cases hlong
  have hfits : ¬ 4 + wordAt bytes 2 > (putAt p 0 bytes).length := by
    rw [length_putAt p bytes hroom]
    omega
  have hstep : ∀ c, stepIf c { inFunction := guard, answers := answers, steps := [] } =
      some (.ok (), { inFunction := guard, answers := answers, steps := [] }) := by
    intro c
    cases c <;> rfl
  have hack : step { inFunction := guard, answers := answers, steps := [] } =
      some (.ok (), { inFunction := guard, answers := answers, steps := [] }) := rfl
  rw [receiveData_packet hread]
  dsimp only
  rw [getD_putAt p (by omega), if_neg hinvalid, bind_run_ok hack,
    wordAt_putAt p (by omega), if_neg hfits, bind_run_ok (hstep call.file),
    dataField_putAt p hintact]

end

/-- A packet that arrives intact at a USB port, and fits the buffer. -/
def FitsUsb (bytes : List UInt8) : Prop := Intact bytes ∧ bytes.length ≤ PortType.usb.blocksize

instance (bytes : List UInt8) : Decidable (FitsUsb bytes) := inferInstanceAs (Decidable (_ ∧ _))

/-- Packets up to a `DATA_END`. -/
def UpToEnd : List (List UInt8) → Prop
  | [] => False
  | bytes :: packets =>
    FitsUsb bytes ∧ if bytes.getD 0 0 = packetDataEnd then packets = [] else UpToEnd packets

instance decidableUpToEnd : (packets : List (List UInt8)) → Decidable (UpToEnd packets)
  | [] => inferInstanceAs (Decidable False)
  | bytes :: packets =>
    have := decidableUpToEnd packets
    inferInstanceAs (Decidable
      (FitsUsb bytes ∧ if bytes.getD 0 0 = packetDataEnd then packets = [] else UpToEnd packets))

theorem FitsUsb.room (h : FitsUsb bytes) (hp : p.length = packetBufferSize) :
    bytes.length ≤ p.length := by
  have hsize : PortType.usb.blocksize ≤ packetBufferSize := by decide
  have hfits := h.2
  omega

/-- The loop returns what is in the packets that arrive, as often as they arrive. -/
theorem receiveData_packets (hport : call.port = .usb) (guard : Bool)
    (retries : Nat) {packets : List (List UInt8)} (hend : UpToEnd packets) {fuel : Nat}
    (hfuel : packets.length ≤ fuel) (hp : p.length = packetBufferSize)
    (b : List UInt8) :
    receiveData call fuel retries p b
        { inFunction := guard, answers := packets.map .ok, steps := [] } =
      some (.ok (b ++ packets.flatMap dataField),
        { inFunction := guard, answers := [], steps := [] }) := by
  induction packets generalizing fuel p b with
  | nil => exact hend.elim
  | cons bytes packets ih =>
    obtain ⟨hfits, hrest⟩ := hend
    obtain ⟨fuel, rfl⟩ : ∃ n, fuel = n + 1 := ⟨fuel - 1, by simp at hfuel; omega⟩
    rw [List.map_cons, receiveData_intact hport _ hfits.1 (hfits.room hp) hfits.2,
      List.flatMap_cons, ← List.append_assoc]
    by_cases hlast : bytes.getD 0 0 = packetDataEnd
    · rw [if_pos hlast] at hrest ⊢
      cases hrest
      rw [List.flatMap_nil, List.append_nil]
      rfl
    · rw [if_neg hlast] at hrest ⊢
      have hlength : (putAt p 0 bytes).length = packetBufferSize := by
        rw [length_putAt p bytes (hfits.room hp), hp]
      exact ih hrest (by simpa using hfuel) hlength _

theorem distinctData_packets {packets : List (List UInt8)} (hend : UpToEnd packets) {n : Nat}
    (hn : packets.length ≤ n) (hp : p.length = packetBufferSize)
    (last : Option (UInt8 × UInt8)) :
    distinctData last (upToEnd (receptions .usb n { p := p, answers := packets.map .ok })) =
      distinctData last (packets.map .packet) := by
  induction packets generalizing n p last with
  | nil => exact hend.elim
  | cons bytes packets ih =>
    obtain ⟨hfits, hrest⟩ := hend
    obtain ⟨n, rfl⟩ : ∃ m, n = m + 1 := ⟨n - 1, by simp at hn; omega⟩
    have hpos : 0 < bytes.length := by
      have hlength := hfits.1.length_ge
      omega
    have hfirst : (Reception.packet (putAt p 0 bytes)).p.getD 0 0 = bytes.getD 0 0 :=
      getD_putAt p hpos
    rw [List.map_cons, receptions_intact _ hfits.1 (hfits.room hp) hfits.2, List.map_cons]
    by_cases hlast : bytes.getD 0 0 = packetDataEnd
    · rw [if_pos hlast] at hrest
      cases hrest
      rw [upToEnd_end _ (hfirst.trans hlast)]
      simp only [distinctData, isData_putAt p hfits.1, header_putAt p hfits.1,
        dataField_putAt p hfits.1, List.map_nil]
    · rw [if_neg hlast] at hrest
      have hmore : (Reception.packet (putAt p 0 bytes)).p.getD 0 0 ≠ packetDataEnd := by
        rw [hfirst]
        exact hlast
      have hlength : (putAt p 0 bytes).length = packetBufferSize := by
        rw [length_putAt p bytes (hfits.room hp), hp]
      rw [upToEnd_more _ hmore]
      simp only [distinctData, isData_putAt p hfits.1, header_putAt p hfits.1,
        dataField_putAt p hfits.1, ih hrest (by simpa using hn) hlength]

theorem length_request (call : Call) : (request call).length = packetBufferSize := by
  have hroom : 8 ≤ call.p.length := by
    rw [call.p_length]
    decide
  rw [← call.p_length]
  exact length_putAt call.p _ hroom

/-- The driver in front of a call, with the packets that come from the camera. -/
def cameraSends (packets : List (List UInt8)) : Driver where
  inFunction := false
  answers    := packets.map .ok
  steps      := []

/-- A call returns what is in the packets that arrive, as often as they arrive. -/
theorem getStringRegister_packets {call : Call} (hport : call.port = .usb)
    {packets : List (List UInt8)} (hend : UpToEnd packets) :
    getStringRegister call (cameraSends packets) =
      some (.ok (packets.flatMap dataField),
        { inFunction := false, answers := [], steps := [] }) := by
  have hnumber : stepIf (call.fnumber ≥ 0)
      { inFunction := true, answers := packets.map .ok, steps := [] } =
        some (.ok (), { inFunction := true, answers := packets.map .ok, steps := [] }) := by
    cases hc : decide (call.fnumber ≥ 0) <;> rfl
  have hwrite : step { inFunction := true, answers := packets.map .ok, steps := [] } =
      some (.ok (), { inFunction := true, answers := packets.map .ok, steps := [] }) := rfl
  have hfuel : packets.length ≤ (packets.map (Except.ok (ε := Int))).length + 1 := by
    rw [List.length_map]
    omega
  rw [getStringRegister, get_bind_run, if_neg (by simp [cameraSends]), transfer,
    modify_bind_run]
  dsimp only [cameraSends]
  rw [bind_run_ok hnumber, bind_run_ok hwrite, get_bind_run,
    bind_run_ok (receiveData_packets hport true 0 hend hfuel (length_request call) [])]
  rfl

/-- A call on a USB port. -/
def usbCall : Call where
  port        := .usb
  extProto    := false
  firstPacket := false
  reg         := 14
  fnumber     := -1
  file        := false
  p           := List.replicate packetBufferSize 0
  p_length    := List.length_replicate

/-- The packets `A` and `B`, numbered 0 and 1. -/
def packetA : List UInt8 := [0x02, 0, 1, 0, 0x41, 0x41, 0]

def packetB : List UInt8 := [0x03, 1, 1, 0, 0x42, 0x42, 0]

theorem upToEnd_packets : UpToEnd [packetA, packetB] := by decide +kernel

theorem upToEnd_resent : UpToEnd [packetA, packetA, packetB] := by decide +kernel

/-- **What a string register reads as.** A call that succeeds returns the data fields of the
distinct data packets, up to a `DATA_END` that it has received, just when the other packets have
empty data fields, and the loop does not end at a read that has failed. -/
theorem getStringRegister_distinct_iff (call : Call) (driver driver' : Driver) (b : List UInt8)
    (h : getStringRegister call driver = some (.ok b, driver')) :
    (b = distinctData none (receptionsOf call driver.answers) ∧
        EndsWithDataEnd (receptionsOf call driver.answers)) ↔
      (∀ p ∈ surplus none (receptionsOf call driver.answers), dataField p = []) ∧
        ∀ e p, (receptionsOf call driver.answers).getLast? ≠ some (.failed e p) := by
  obtain ⟨hdata, x, hlast, hend⟩ := getStringRegister_allData h
  rw [hdata, allData_eq_iff, hlast]
  refine and_congr_right fun _ => ?_
  cases x with
  | packet p =>
    constructor
    · intro _ e p' hx
      cases hx
    · intro _
      exact ⟨p, hlast, hend⟩
  | failed e p =>
    constructor
    · rintro ⟨p', hp', -⟩
      rw [hlast] at hp'
      cases hp'
    · intro hx
      exact absurd rfl (hx e p)

theorem getStringRegister_distinct_two :
    ([0x41, 0x42] = distinctData none
          (receptionsOf usbCall (cameraSends [packetA, packetB]).answers) ∧
        EndsWithDataEnd (receptionsOf usbCall (cameraSends [packetA, packetB]).answers)) ↔
      (∀ p ∈ surplus none (receptionsOf usbCall (cameraSends [packetA, packetB]).answers),
          dataField p = []) ∧
        ∀ e p, (receptionsOf usbCall (cameraSends [packetA, packetB]).answers).getLast? ≠
          some (.failed e p) :=
  getStringRegister_distinct_iff usbCall (cameraSends [packetA, packetB])
    { inFunction := false, answers := [], steps := [] } [0x41, 0x42]
    (getStringRegister_packets rfl upToEnd_packets)

/-- A data packet that the camera sends once more is counted twice. -/
theorem resent_counted_twice :
    getStringRegister usbCall (cameraSends [packetA, packetA, packetB]) =
        some (.ok [0x41, 0x41, 0x42], { inFunction := false, answers := [], steps := [] }) ∧
      distinctData none
          (receptionsOf usbCall (cameraSends [packetA, packetA, packetB]).answers) =
        [0x41, 0x42] := by
  constructor
  · rw [getStringRegister_packets rfl upToEnd_resent]
    rfl
  · exact (distinctData_packets upToEnd_resent (by decide) (length_request usbCall) none).trans
      (by decide +kernel)

/-! ### The guard -/

/-- How many steps the loop comes to when all of them succeed. -/
def stepsTaken (file : Bool) : Nat → List Reception → Nat
  | _, [] => 0
  | retries, .failed e p :: rs =>
    if e ≠ gpErrorTimeout ∨ retries + 1 > retriesMax then 0
    else if p.getD 0 0 = packetDataEnd then 1
    else 1 + stepsTaken file (retries + 1) rs
  | retries, .packet p :: rs =>
    if p.getD 0 0 = packetInvalid then 0
    else if p.getD 0 0 = packetDataEnd then 1 + file.toNat
    else 1 + file.toNat + stepsTaken file retries rs

/-- The loop comes to a read that fails, and not because of a timeout. -/
def brokenOff : Nat → List Reception → Bool
  | _, [] => false
  | retries, .failed e p :: rs =>
    if e ≠ gpErrorTimeout then true
    else if retries + 1 > retriesMax ∨ p.getD 0 0 = packetDataEnd then false
    else brokenOff (retries + 1) rs
  | retries, .packet p :: rs =>
    if p.getD 0 0 = packetInvalid ∨ p.getD 0 0 = packetDataEnd then false
    else brokenOff retries rs

/-- None of the next `n` steps fails. -/
def NoneFails (n : Nat) (steps : List (Option Int)) : Prop := ∀ i < n, steps[i]?.join = none

theorem noneFails_zero (steps : List (Option Int)) : NoneFails 0 steps := by
  intro i hi
  omega

theorem noneFails_succ (n : Nat) (steps : List (Option Int)) :
    NoneFails (1 + n) steps ↔ steps.head?.join = none ∧ NoneFails n steps.tail := by
  constructor
  · intro h
    refine ⟨?_, fun i hi => ?_⟩
    · rw [List.head?_eq_getElem?]
      exact h 0 (by omega)
    · rw [List.getElem?_tail]
      exact h (i + 1) (by omega)
  · rintro ⟨hfirst, hrest⟩ i hi
    cases i with
    | zero => rwa [← List.head?_eq_getElem?]
    | succ i =>
      rw [← List.getElem?_tail]
      exact hrest i (by omega)

/-- The function will leave, or has left, with the guard cleared. -/
def Cleared (result : Except Int (List UInt8)) (driver : Driver) : Prop :=
  (∃ b, result = .ok b) ∨ driver.inFunction = false

variable {result : Except Int (List UInt8)}

section
variable (hguard : driver.inFunction = true)
include hguard

theorem step_bind_cleared {k : Unit → Comp Driver Int (List UInt8)} {P : Prop}
    (h : (step >>= k) driver = some (result, driver'))
    (hk : ∀ driver₁, driver₁.inFunction = true → driver₁.answers = driver.answers →
      driver₁.steps = driver.steps.tail → k () driver₁ = some (result, driver') →
      (Cleared result driver' ↔ P)) :
    Cleared result driver' ↔ driver.steps.head?.join = none ∧ P := by
  rcases Comp.bind_eq_some.mp h with ⟨e, hstep, rfl⟩ | ⟨_, driver₁, hstep, hrest⟩
  · obtain ⟨hfails, rfl⟩ := (step_ends driver).of_error hstep
    constructor
    · rintro (⟨b, hb⟩ | hclear)
      · cases hb
      · rw [show driver.inFunction = false from hclear] at hguard
        cases hguard
    · rintro ⟨hnone, -⟩
      rw [hfails] at hnone
      cases hnone
  · obtain ⟨hnone, rfl⟩ := (step_ends driver).of_ok hstep
    rw [hk { driver with steps := driver.steps.tail } hguard rfl rfl hrest]
    exact ⟨fun hP => ⟨hnone, hP⟩, fun hP => hP.2⟩

theorem stepIf_bind_cleared {c : Bool} {k : Unit → Comp Driver Int (List UInt8)}
    {n : Nat} {P : Prop}
    (h : (stepIf c >>= k) driver = some (result, driver'))
    (hk : ∀ driver₁, driver₁.inFunction = true → driver₁.answers = driver.answers →
      k () driver₁ = some (result, driver') →
      (Cleared result driver' ↔ NoneFails n driver₁.steps ∧ P)) :
    Cleared result driver' ↔ NoneFails (c.toNat + n) driver.steps ∧ P := by
  cases c with
  | false =>
    have hn : false.toNat + n = n := Nat.zero_add n
    rw [hn]
    exact hk driver hguard rfl h
  | true =>
    show _ ↔ NoneFails (1 + n) driver.steps ∧ P
    rw [noneFails_succ, and_assoc]
    refine step_bind_cleared hguard h fun driver₁ hguard₁ hanswers hsteps hrest => ?_
    rw [← hsteps]
    exact hk driver₁ hguard₁ hanswers hrest

/-- The loop goes on to an exit that clears the guard just when no step fails and no read fails but
for a timeout. -/
theorem receiveData_cleared_iff {fuel retries : Nat}
    (h : receiveData call fuel retries p b driver = some (result, driver')) :
    let rs := receptions call.port fuel { p := p, answers := driver.answers }
    Cleared result driver' ↔
      NoneFails (stepsTaken call.file retries rs) driver.steps ∧ brokenOff retries rs = false := by
  induction fuel generalizing retries p b driver with
  | zero => cases h
  | succ fuel ih =>
    rcases hread : readPacket call.port retriesMax 0 { p := p, answers := driver.answers } with
      _ | ⟨e | _, s⟩
    · rw [receiveData_stuck hread] at h
      cases h
    · -- a read that failed: a timeout takes one step, too many of them clear the guard
      have hguard₀ : ({ driver with answers := s.answers } : Driver).inFunction = true := hguard
      rw [receiveData_failed hread] at h
      simp only [receptions, hread]
      by_cases htimeout : e ≠ gpErrorTimeout
      · rw [if_pos htimeout] at h
        cases h
        rw [brokenOff, if_pos htimeout]
        simp [Cleared, hguard]
      rw [if_neg htimeout] at h
      by_cases hretries : retries + 1 > retriesMax
      · rw [if_pos hretries] at h
        cases h
        rw [stepsTaken, if_pos (Or.inr hretries), brokenOff, if_neg htimeout,
          if_pos (Or.inl hretries)]
        simp [Cleared, noneFails_zero]
      rw [if_neg hretries] at h
      rw [stepsTaken, if_neg (not_or.mpr ⟨htimeout, hretries⟩), brokenOff, if_neg htimeout]
      by_cases hend : s.p.getD 0 0 = packetDataEnd
      · rw [if_pos hend, if_pos (Or.inr hend), noneFails_succ 0]
        rw [and_assoc]
        show _ ↔ ({ driver with answers := s.answers } : Driver).steps.head?.join = none ∧ _
        refine step_bind_cleared hguard₀ h fun driver₁ hguard₁ hanswers hsteps hrest => ?_
        rw [if_pos hend] at hrest
        cases hrest
        simp [Cleared, noneFails_zero]
      · rw [if_neg hend, if_neg (not_or.mpr ⟨hretries, hend⟩), noneFails_succ, and_assoc]
        show _ ↔ ({ driver with answers := s.answers } : Driver).steps.head?.join = none ∧ _
        refine step_bind_cleared hguard₀ h fun driver₁ hguard₁ hanswers hsteps hrest => ?_
        rw [if_neg hend] at hrest
        have hiff := ih hguard₁ hrest
        rw [hanswers, hsteps] at hiff
        exact hiff
    · -- a packet: it is acknowledged, and appended where the call wants a file
      have hguard₀ : ({ driver with answers := s.answers } : Driver).inFunction = true := hguard
      rw [receiveData_packet hread] at h
      simp only [receptions, hread]
      by_cases hinvalid : s.p.getD 0 0 = packetInvalid
      · rw [if_pos hinvalid] at h
        cases h
        rw [stepsTaken, if_pos hinvalid, brokenOff, if_pos (Or.inl hinvalid)]
        simp [Cleared, noneFails_zero]
      rw [if_neg hinvalid] at h
      rw [stepsTaken, if_neg hinvalid, brokenOff]
      by_cases hend : s.p.getD 0 0 = packetDataEnd
      · rw [if_pos hend, if_pos (Or.inr hend), noneFails_succ, and_assoc]
        show _ ↔ ({ driver with answers := s.answers } : Driver).steps.head?.join = none ∧ _
        refine step_bind_cleared hguard₀ h fun driver₁ hguard₁ hanswers hsteps hrest => ?_
        by_cases hlong : 4 + wordAt s.p 2 > s.p.length
        · rw [if_pos hlong] at hrest
          cases hrest
        rw [if_neg hlong] at hrest
        show _ ↔ NoneFails (call.file.toNat + 0) driver.steps.tail ∧ _
        rw [show driver.steps.tail = driver₁.steps from hsteps.symm]
        refine stepIf_bind_cleared hguard₁ hrest fun driver₂ _ _ hrest => ?_
        rw [if_pos hend] at hrest
        cases hrest
        simp [Cleared, noneFails_zero]
      · rw [if_neg hend, if_neg (not_or.mpr ⟨hinvalid, hend⟩), Nat.add_assoc, noneFails_succ,
          and_assoc]
        show _ ↔ ({ driver with answers := s.answers } : Driver).steps.head?.join = none ∧ _
        refine step_bind_cleared hguard₀ h fun driver₁ hguard₁ hanswers hsteps hrest => ?_
        by_cases hlong : 4 + wordAt s.p 2 > s.p.length
        · rw [if_pos hlong] at hrest
          cases hrest
        rw [if_neg hlong] at hrest
        rw [show driver.steps.tail = driver₁.steps from hsteps.symm]
        refine stepIf_bind_cleared hguard₁ hrest fun driver₂ hguard₂ hanswers₂ hrest => ?_
        rw [if_neg hend] at hrest
        have hiff := ih hguard₂ hrest
        rw [hanswers₂, hanswers] at hiff
        exact hiff

end

/-- All the steps that a call comes to succeed, and no read that it comes to fails but for a
timeout. -/
def Smooth (call : Call) (answers : List Answer) (steps : List (Option Int)) : Prop :=
  let rs := receptions call.port (answers.length + 1) { p := request call, answers := answers }
  NoneFails ((decide (call.fnumber ≥ 0)).toNat + (1 + stepsTaken call.file 0 rs)) steps ∧
    brokenOff 0 rs = false

/-- A call that returns leaves the guard cleared just when it is smooth. -/
theorem getStringRegister_cleared_iff (hfree : driver.inFunction = false)
    (h : getStringRegister call driver = some (result, driver')) :
    driver'.inFunction = false ↔ Smooth call driver.answers driver.steps := by
  have hclear : driver'.inFunction = false ↔ Cleared result driver' := by
    constructor
    · exact Or.inr
    · rintro (⟨b, rfl⟩ | hclear)
      · obtain ⟨_, driver₂, -, -, rfl⟩ := getStringRegister_eq_ok h
        rfl
      · exact hclear
  rw [hclear]
  have hguard : ¬ driver.inFunction = true := by
    rw [hfree]
    exact Bool.false_ne_true
  rw [getStringRegister, get_bind_run, if_neg hguard, transfer, modify_bind_run] at h
  show _ ↔ NoneFails _ ({ driver with inFunction := true } : Driver).steps ∧ _
  refine stepIf_bind_cleared rfl h fun driver₁ hguard₁ hanswers₁ h => ?_
  rw [noneFails_succ, and_assoc]
  refine step_bind_cleared hguard₁ h fun driver₂ hguard₂ hanswers₂ hsteps₂ h => ?_
  have hanswers : driver₂.answers = driver.answers := hanswers₂.trans hanswers₁
  rw [get_bind_run, hanswers] at h
  rw [← hsteps₂]
  rcases Comp.bind_eq_some.mp h with ⟨e, hloop, rfl⟩ | ⟨b, driver₃, hloop, hleave⟩
  · have hiff := receiveData_cleared_iff hguard₂ hloop
    rw [hanswers] at hiff
    exact hiff
  · have hiff := receiveData_cleared_iff hguard₂ hloop
    rw [hanswers] at hiff
    rw [leave, modify_bind_run] at hleave
    cases hleave
    exact iff_of_true (Or.inl ⟨b, rfl⟩) (hiff.mp (Or.inl ⟨b, rfl⟩))

/-- A smooth call that returns, with the port and the steps behaving in any way. -/
def Called (driver driver' : Driver) : Prop :=
  ∃ call answers steps result, Smooth call answers steps ∧
    getStringRegister call { driver with answers := answers, steps := steps } =
      some (result, driver')

/-- **The guard of the string registers.** After any run of smooth calls the guard is cleared, and
the next call does not fail because of it. -/
theorem runs_guard_cleared (driver driver' : Driver)
    (hrun : Relation.ReflTransGen Called driver driver') (h : driver.inFunction = false) :
    driver'.inFunction = false ∧
      ∀ call, getStringRegister call driver' = transfer call driver' := by
  have hstep : ∀ a b : Driver, a.inFunction = false → Called a b → b.inFunction = false := by
    intro a b ha hcalled
    obtain ⟨call, answers, steps, result, hsmooth, hcall⟩ := hcalled
    have hfree : ({ a with answers := answers, steps := steps } : Driver).inFunction = false := ha
    exact (getStringRegister_cleared_iff hfree hcall).mpr hsmooth
  have hfree := invariant_of_steps hstep hrun h
  refine ⟨hfree, fun call => ?_⟩
  have hguard : ¬ driver'.inFunction = true := by
    rw [hfree]
    exact Bool.false_ne_true
  rw [getStringRegister, get_bind_run, if_neg hguard]

theorem runs_guard_cleared_once :
    (cameraSends []).inFunction = false ∧
      ∀ call, getStringRegister call (cameraSends []) = transfer call (cameraSends []) := by
  have hcall := @getStringRegister_packets usbCall rfl _ upToEnd_packets
  have hcalled : Called (cameraSends []) (cameraSends []) :=
    ⟨usbCall, _, [], _, (getStringRegister_cleared_iff rfl hcall).mp rfl, hcall⟩
  exact runs_guard_cleared (cameraSends []) (cameraSends [])
    (Relation.ReflTransGen.single hcalled) rfl

/-- A call whose request fails keeps the guard, and the next call fails because of it. -/
theorem failed_request_keeps_guard :
    getStringRegister usbCall
        { inFunction := false, answers := [], steps := [some gpErrorIoWrite] } =
        some (.error gpErrorIoWrite, { inFunction := true, answers := [], steps := [] }) ∧
      getStringRegister usbCall { inFunction := true, answers := [], steps := [] } =
        some (.error gpError, { inFunction := true, answers := [], steps := [] }) :=
  ⟨rfl, rfl⟩

end GPhoto2.Sierra
