import GPhoto2.Proofs.Ptp.UsbFrame

/-!
# `GPhoto2.Proofs.Ptp.Packet`: the next packet

`nextPacket` reads off the buffer and the answers of the device what `ptp_usb_getpacket`
delivers (`getpacket_buffered`, `getpacket_read`). The copies of a container that stay within
the received bytes are slices of it (`copyOut_run`). Any loop that reads the payload ends once
the answers of the device are used up (`getdataLoop_ends`, `getdataUnknown_ends`).
-/

set_option autoImplicit false

namespace GPhoto2

open Lib
open Lib.Comp (bind_run_ok get_bind_run modify_bind_run pure_run)

variable {τ : Type}

/-! ### The answers of the device -/

/-- The bytes of the answers, and one for each answer. -/
def pendingBytes : List PortAnswer → Nat
  | [] => 0
  | .data bytes :: rest => bytes.length + 1 + pendingBytes rest
  | .error _ :: rest => 1 + pendingBytes rest

variable {bytes : List UInt8} {rest : List PortAnswer} (n : Nat) (reads : List PortAnswer)

theorem takeAnswer_pending (h : takeAnswer n reads = (.ok bytes, rest)) :
    bytes.length ≤ n ∧ pendingBytes rest + bytes.length ≤ pendingBytes reads := by
  rcases reads with _ | ⟨data | e, reads⟩
  · cases h
  · rw [takeAnswer] at h
    by_cases hle : data.length ≤ n
    · rw [if_pos hle] at h
      cases h
      refine ⟨hle, ?_⟩
      simp only [pendingBytes]
      omega
    · rw [if_neg hle] at h
      cases h
      simp only [pendingBytes, List.length_drop, List.length_take]
      omega
  · cases h

theorem takeAnswer_pending_le :
    pendingBytes (takeAnswer n reads).2 ≤ pendingBytes reads := by
  rcases hanswer : takeAnswer n reads with ⟨e | bytes, rest⟩
  · rcases reads with _ | ⟨data | e, reads⟩
    · cases hanswer
      exact Nat.le_refl _
    · rw [takeAnswer] at hanswer
      split at hanswer <;> cases hanswer
    · cases hanswer
      simp only [pendingBytes]
      omega
  · have := (takeAnswer_pending n reads hanswer).2
    dsimp only
    omega

theorem gpPortRead_run (w : UsbWorld τ) :
    gpPortRead n w =
      some (.ok (takeAnswer n w.reads).1, { w with reads := (takeAnswer n w.reads).2 }) := rfl

/-! ### The next packet -/

/-- A read for a packet, and a second one after a zero-length answer. -/
def readOnce (reads : List PortAnswer) : Except Int (List UInt8) × List PortAnswer :=
  match takeAnswer sizeofBulkContainer reads with
  | (.ok [], rest) => takeAnswer sizeofBulkContainer rest
  | answer => answer

/-- The answers of the device after a halt is cleared, or else as they are. -/
def readTwice (reads : List PortAnswer) : Except Int (List UInt8) × List PortAnswer :=
  if (readOnce reads).1 = .error gpErrorIoRead then readOnce (readOnce reads).2
  else readOnce reads

/-- The packet that is read, if one is. -/
def packetOf : Except Int (List UInt8) → Option (List UInt8)
  | .ok (b :: bytes) => some (b :: bytes)
  | _ => none

/-- What `ptp_usb_getpacket` returns for a packet, or for none. -/
def orIo : Option (List UInt8) → Except UInt16 (List UInt8)
  | some packet => .ok packet
  | none => .error ptpErrorIo

/-- The packet `ptp_usb_getpacket` delivers next. -/
def nextPacket (w : UsbWorld τ) : Option (List UInt8) :=
  if 0 < w.responsePacketSize then some (w.responsePacket.take w.responsePacketSize)
  else packetOf (readTwice w.reads).1

theorem readOnce_length_le {reads : List PortAnswer}
    (h : readOnce reads = (.ok bytes, rest)) : bytes.length ≤ sizeofBulkContainer := by
  unfold readOnce at h
  split at h
  · exact (takeAnswer_pending _ _ h).1
  · exact (takeAnswer_pending _ _ h).1

theorem readTwice_length_le {reads : List PortAnswer}
    (h : readTwice reads = (.ok bytes, rest)) : bytes.length ≤ sizeofBulkContainer := by
  unfold readTwice at h
  split at h
  · exact readOnce_length_le h
  · exact readOnce_length_le h

theorem readOnce_pending_le :
    pendingBytes (readOnce reads).2 ≤ pendingBytes reads := by
  have hle := takeAnswer_pending_le sizeofBulkContainer reads
  unfold readOnce
  split
  · rename_i rest hanswer
    rw [hanswer] at hle
    exact Nat.le_trans (takeAnswer_pending_le _ rest) hle
  · exact hle

theorem readTwice_pending_le :
    pendingBytes (readTwice reads).2 ≤ pendingBytes reads := by
  unfold readTwice
  split
  · exact Nat.le_trans (readOnce_pending_le _) (readOnce_pending_le _)
  · exact readOnce_pending_le _

variable {packet : List UInt8}

theorem packetOf_eq_some {result : Except Int (List UInt8)} :
    packetOf result = some packet ↔ result = .ok packet ∧ packet ≠ [] := by
  rcases result with e | (_ | ⟨b, bytes⟩)
  · simp [packetOf]
  · simp [packetOf]
  · constructor
    · intro h
      cases h
      exact ⟨rfl, List.cons_ne_nil _ _⟩
    · rintro ⟨h, -⟩
      cases h
      rfl

theorem getpacketOnce_run (w : UsbWorld τ) :
    getpacketOnce w =
      some (.ok (readOnce w.reads).1, { w with reads := (readOnce w.reads).2 }) := by
  unfold getpacketOnce readOnce
  rw [bind_run_ok (gpPortRead_run _ w)]
  rcases takeAnswer sizeofBulkContainer w.reads with ⟨e | (_ | ⟨b, bytes⟩), rest⟩
  · rfl
  · rfl
  · rfl

theorem packetRead_run (result : Except Int (List UInt8)) (w : UsbWorld τ) :
    packetRead result w = some (orIo (packetOf result), w) := by
  rcases result with e | (_ | ⟨b, bytes⟩) <;> rfl

variable {w : UsbWorld τ}

theorem getpacket_buffered (hsize : 0 < w.responsePacketSize)
    (hle : w.responsePacketSize ≤ sizeofBulkContainer) :
    ptpUsbGetpacket w = some (.ok (w.responsePacket.take w.responsePacketSize),
      { w with
        responsePacket := []
        responsePacketSize := 0
        log := w.log ++ [.copy w.responsePacketSize w.responsePacket.length
          sizeofBulkContainer] }) := by
  unfold ptpUsbGetpacket
  rw [get_bind_run, if_pos hsize]
  simp only [traceUsb, modify_bind_run, if_neg (Nat.not_lt.mpr hle), pure_run]

theorem getpacket_read (hsize : w.responsePacketSize = 0) :
    ptpUsbGetpacket w = some (orIo (packetOf (readTwice w.reads).1),
      { w with reads := (readTwice w.reads).2 }) := by
  unfold ptpUsbGetpacket getpacketRead readTwice
  rw [get_bind_run, if_neg (by omega), bind_run_ok (getpacketOnce_run w)]
  by_cases hhalt : (readOnce w.reads).1 = .error gpErrorIoRead
  · simp only [hhalt, if_true]
    rw [bind_run_ok (getpacketOnce_run _), packetRead_run]
  · simp only [hhalt, if_false]
    rw [packetRead_run]

/-! ### Lengths and copies -/

theorem lenSub_run {a b : Nat} (hle : b ≤ a) (w : UsbWorld τ) :
    lenSub a b w = some (.ok (a - b), { w with log := w.log ++ [.sub a b] }) := by
  unfold lenSub
  simp only [traceUsb, modify_bind_run, if_pos hle, pure_run]

theorem copyOut_run {off len room : Nat}
    (hle : off + len ≤ packet.length) (hsize : packet.length ≤ sizeofBulkContainer)
    (hroom : len ≤ room) (w : UsbWorld τ) :
    copyOut packet off len room w = some (.ok ((packet.drop off).take len),
      { w with log := w.log ++ [.copy len (packet.length - off) room] }) := by
  unfold copyOut
  simp only [traceUsb, modify_bind_run]
  rw [if_pos ⟨Nat.le_trans hle hsize, hroom⟩, List.drop_append_of_le_length (by omega),
    List.take_append_of_le_length (by rw [List.length_drop]; omega)]
  rfl

theorem saveResponse_run {off len : Nat}
    (hle : off + len ≤ packet.length) (hsize : packet.length ≤ sizeofBulkContainer)
    (w : UsbWorld τ) :
    saveResponse packet off len w = some (.ok (), { w with
      responsePacket := (packet.drop off).take len
      responsePacketSize := len
      log := w.log ++ [.copy len (packet.length - off) len] }) := by
  unfold saveResponse
  rw [bind_run_ok (copyOut_run hle hsize (Nat.le_refl len) w)]
  have hmod : len % 2 ^ 16 = len := by
    unfold sizeofBulkContainer at hsize
    omega
  rw [hmod]
  rfl

theorem putfunc_run (handler : PTPDataHandler τ) (bytes : List UInt8) (w : UsbWorld τ) :
    putfunc handler bytes w = some (.ok (handler.putfunc bytes w.priv).1, { w with
      priv := (handler.putfunc bytes w.priv).2
      handed := w.handed ++ bytes }) := rfl

theorem putPayload_run (handler : PTPDataHandler τ) {rlen : Nat}
    (hhdr : ptpUsbBulkHdrLen ≤ rlen) (hle : rlen ≤ packet.length)
    (hsize : packet.length ≤ sizeofBulkContainer) (w : UsbWorld τ) :
    putPayload handler packet rlen w = some (.ok (), { w with
      priv := (handler.putfunc ((packet.take rlen).drop ptpUsbBulkHdrLen) w.priv).2
      handed := w.handed ++ (packet.take rlen).drop ptpUsbBulkHdrLen
      log := w.log ++ [.sub rlen ptpUsbBulkHdrLen,
        .copy (rlen - ptpUsbBulkHdrLen) (packet.length - ptpUsbBulkHdrLen)
          (rlen - ptpUsbBulkHdrLen)] }) := by
  unfold putPayload
  rw [bind_run_ok (lenSub_run hhdr w),
    bind_run_ok (copyOut_run (by omega) hsize (Nat.le_refl _) _),
    bind_run_ok (putfunc_run handler _ _), ← List.drop_take]
  simp only [pure_run, List.append_assoc]
  rfl

/-! ### The loops -/

/-- The handler, the answers of the device and the like change, the buffered packet and the
trace do not. -/
structure SameBuffer (w w' : UsbWorld τ) : Prop where
  responsePacket : w'.responsePacket = w.responsePacket
  responsePacketSize : w'.responsePacketSize = w.responsePacketSize
  log : w'.log = w.log

theorem SameBuffer.trans {w' w'' : UsbWorld τ} (h : SameBuffer w w')
    (h' : SameBuffer w' w'') : SameBuffer w w'' := ⟨h'.1.trans h.1, h'.2.trans h.2, h'.3.trans h.3⟩

variable (handler : PTPDataHandler τ)
include handler

theorem getdataUnknown_ends {fuel : Nat}
    (hfuel : pendingBytes w.reads < fuel) :
    ∃ r w', getdataUnknown handler fuel w = some (r, w') ∧ SameBuffer w w' := by
  induction fuel generalizing w with
  | zero => omega
  | succ fuel ih =>
    rw [getdataUnknown, bind_run_ok (gpPortRead_run _ w)]
    rcases hanswer : takeAnswer ptpUsbBulkHsMaxPacketLenRead w.reads with ⟨e | data, rest⟩
    · exact ⟨_, _, rfl, rfl, rfl, rfl⟩
    · have hpending := (takeAnswer_pending _ _ hanswer).2
      simp only
      rw [bind_run_ok (putfunc_run handler data _)]
      by_cases hshort : data.length < ptpUsbBulkHsMaxPacketLenRead
      · rw [if_pos hshort]
        exact ⟨_, _, rfl, rfl, rfl, rfl⟩
      · rw [if_neg hshort]
        unfold ptpUsbBulkHsMaxPacketLenRead at hshort
        obtain ⟨r, w', hrun, hsame⟩ := ih (w := { w with
          reads := rest
          priv := (handler.putfunc data w.priv).2
          handed := w.handed ++ data }) (show pendingBytes rest < fuel by omega)
        exact ⟨r, w', hrun, hsame.1, hsame.2, hsame.3⟩

theorem getdataLoop_ends {fuel : Nat} (left curread : Nat)
    (res : Int) (hfuel : pendingBytes w.reads < fuel) :
    ∃ r w', getdataLoop handler fuel left curread res w = some (.ok r, w') ∧
      SameBuffer w w' ∧ pendingBytes w'.reads ≤ pendingBytes w.reads := by
  induction fuel generalizing left curread res w with
  | zero => omega
  | succ fuel ih =>
    rw [getdataLoop]
    by_cases hleft : left = 0
    · rw [if_pos hleft]
      exact ⟨_, _, rfl, ⟨rfl, rfl, rfl⟩, Nat.le_refl _⟩
    rw [if_neg hleft, get_bind_run, bind_run_ok (gpPortRead_run _ w)]
    have hle := takeAnswer_pending_le (bytesToRead w.maxpacketsize left) w.reads
    rcases hanswer : takeAnswer (bytesToRead w.maxpacketsize left) w.reads with
      ⟨e | (_ | ⟨b, bytes⟩), rest⟩
    · rw [hanswer] at hle
      exact ⟨_, _, rfl, ⟨rfl, rfl, rfl⟩, hle⟩
    · rw [hanswer] at hle
      exact ⟨_, _, rfl, ⟨rfl, rfl, rfl⟩, hle⟩
    · rw [hanswer] at hle
      have hpending := (takeAnswer_pending _ _ hanswer).2
      rw [List.length_cons] at hpending
      simp only
      rw [bind_run_ok (putfunc_run handler (b :: bytes) _)]
      simp only
      by_cases hret : (handler.putfunc (b :: bytes) w.priv).1.1 ≠ ptpRcOk
      · rw [if_pos hret]
        exact ⟨_, _, rfl, ⟨rfl, rfl, rfl⟩, hle⟩
      rw [if_neg hret]
      by_cases hwritten : (handler.putfunc (b :: bytes) w.priv).1.2 ≠ (b :: bytes).length
      · rw [if_pos hwritten]
        exact ⟨_, _, rfl, ⟨rfl, rfl, rfl⟩, hle⟩
      rw [if_neg hwritten, get_bind_run, modify_bind_run]
      by_cases hcancel : w.cancels.headD false = true
      · rw [if_pos hcancel]
        exact ⟨_, _, rfl, ⟨rfl, rfl, rfl⟩, hle⟩
      rw [if_neg hcancel]
      obtain ⟨r, w', hrun, hsame, hle'⟩ := ih (left - (b :: bytes).length)
        (curread + (b :: bytes).length) ((b :: bytes).length : Nat) (w := { w with
          reads := rest
          priv := (handler.putfunc (b :: bytes) w.priv).2
          handed := w.handed ++ (b :: bytes)
          cancels := w.cancels.tail }) (show pendingBytes rest < fuel by omega)
      exact ⟨r, w', hrun, ⟨hsame.1, hsame.2, hsame.3⟩, Nat.le_trans hle' hle⟩

theorem getdataRest_ends {fuel : Nat} (left : Nat)
    (hfuel : pendingBytes w.reads < fuel) :
    ∃ r w', getdataRest handler fuel left w = some (r, w') ∧ SameBuffer w w' := by
  have hend : ∀ (ret : UInt16) (w : UsbWorld τ), ∃ r, ioUnlessCancel ret w = some (r, w) := by
    intro ret w
    unfold ioUnlessCancel
    split_ifs <;> exact ⟨_, rfl⟩
  obtain ⟨⟨ret, curread, res⟩, w₁, hrun, hsame, hle⟩ :=
    getdataLoop_ends handler left 0 0 hfuel
  unfold getdataRest
  rw [bind_run_ok hrun]
  simp only
  by_cases hretry : res = gpErrorIoRead ∧ curread = 0
  · rw [if_pos hretry]
    obtain ⟨⟨ret', curread', res'⟩, w₂, hrun', hsame', -⟩ :=
      getdataLoop_ends handler left 0 0 (show pendingBytes w₁.reads < fuel by omega)
    rw [bind_run_ok hrun']
    obtain ⟨r, hr⟩ := hend ret' w₂
    exact ⟨r, w₂, hr, hsame.trans hsame'⟩
  · rw [if_neg hretry]
    obtain ⟨r, hr⟩ := hend ret w₁
    exact ⟨r, w₁, hr, hsame⟩

end GPhoto2
