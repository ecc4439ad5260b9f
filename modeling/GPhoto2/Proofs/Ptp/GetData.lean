import GPhoto2.Proofs.Ptp.PacketBounds

/-!
# `GPhoto2.Proofs.Ptp.GetData`: what `ptp_usb_getdata` hands on

The device sends a DATA container and the response to it as one stream of bytes, cut into
transfers in any way (`Chunked`). Whatever is read is a prefix of what is left of the stream
(`takeAnswer_chunked`). The loop for a known length reads exactly what is left of the payload
(`getdataLoop_chunked`). The loop for an unknown length reads up to the end of the first
transfer that is not a whole number of packets (`shortEnd`, `getdataUnknown_cases`).

`getdata_delivers_iff`: after `PTP_RC_OK` the handler has got exactly the payload, and what was
read of the response is held, if and only if the first read does not end within the header of
the response, and for an unknown length the payload ends where the loop does.
-/

set_option autoImplicit false

namespace GPhoto2

open Lib
open List (append_assoc length_append length_eq_zero_iff length_take)
open Lib.Comp (bind_eq_ok bind_run_none bind_run_ok get_bind_run)

variable {τ : Type}

/-! ### Streams -/

/-- The answers are these bytes, cut into transfers in some way. -/
def Chunked (reads : List PortAnswer) (bytes : List UInt8) : Prop :=
  ∃ chunks : List (List UInt8), reads = chunks.map PortAnswer.data ∧ chunks.flatten = bytes

variable {bytes : List UInt8} {reads : List PortAnswer}

section
variable (h : Chunked reads bytes)
include h

theorem Chunked.cons {chunk : List UInt8}
     : Chunked (.data chunk :: reads) (chunk ++ bytes) := by
  obtain ⟨chunks, rfl, rfl⟩ := h
  exact ⟨chunk :: chunks, rfl, rfl⟩

theorem Chunked.unique {bytes' : List UInt8}
    (h' : Chunked reads bytes') : bytes = bytes' := by
  obtain ⟨chunks, rfl, rfl⟩ := h
  obtain ⟨chunks', heq, rfl⟩ := h'
  rw [List.map_injective_iff.mpr (fun _ _ => PortAnswer.data.inj) heq]

theorem Chunked.cases :
    (reads = [] ∧ bytes = []) ∨ ∃ chunk reads' bytes', reads = .data chunk :: reads' ∧
      bytes = chunk ++ bytes' ∧ Chunked reads' bytes' := by
  obtain ⟨chunks, rfl, rfl⟩ := h
  rcases chunks with _ | ⟨chunk, chunks⟩
  · exact Or.inl ⟨rfl, rfl⟩
  · exact Or.inr ⟨chunk, _, _, rfl, rfl, chunks, rfl, rfl⟩

theorem takeAnswer_chunked {n : Nat} :
    (takeAnswer n reads = (.error gpErrorTimeout, []) ∧ bytes = []) ∨
    ∃ taken rest bytes', takeAnswer n reads = (.ok taken, rest) ∧ bytes = taken ++ bytes' ∧
      Chunked rest bytes' ∧ taken.length ≤ n := by
  rcases h.cases with ⟨rfl, rfl⟩ | ⟨chunk, reads', bytes', rfl, rfl, hrest⟩
  · exact Or.inl ⟨rfl, rfl⟩
  · right
    rw [takeAnswer]
    by_cases hle : chunk.length ≤ n
    · rw [if_pos hle]
      exact ⟨chunk, reads', bytes', rfl, rfl, hrest, hle⟩
    · rw [if_neg hle]
      refine ⟨chunk.take n, _, chunk.drop n ++ bytes', rfl, ?_, hrest.cons,
        List.length_take_le ..⟩
      rw [← append_assoc, List.take_append_drop]

theorem readTwice_chunked :
    ((readTwice reads).1 = .error gpErrorTimeout) ∨
    ∃ taken rest bytes', readTwice reads = (.ok taken, rest) ∧ bytes = taken ++ bytes' ∧
      Chunked rest bytes' := by
  have honce : (readOnce reads).1 = .error gpErrorTimeout ∨
      ∃ taken rest bytes', readOnce reads = (.ok taken, rest) ∧ bytes = taken ++ bytes' ∧
        Chunked rest bytes' := by
    unfold readOnce
    rcases takeAnswer_chunked (n := sizeofBulkContainer) h with ⟨hanswer, -⟩ |
      ⟨taken, rest, bytes', hanswer, hbytes, hrest, -⟩
    · rw [hanswer]
      exact Or.inl rfl
    · rw [hanswer]
      rcases taken with _ | ⟨b, taken⟩
      · rcases takeAnswer_chunked (n := sizeofBulkContainer) hrest with ⟨hanswer', -⟩ |
          ⟨taken', rest', bytes'', hanswer', hbytes', hrest', -⟩
        · dsimp only
          rw [hanswer']
          exact Or.inl rfl
        · dsimp only
          rw [hanswer']
          exact Or.inr ⟨taken', rest', bytes'', rfl, by rw [hbytes, hbytes']; rfl, hrest'⟩
      · exact Or.inr ⟨_, rest, bytes', rfl, hbytes, hrest⟩
  unfold readTwice
  rcases honce with herror | ⟨taken, rest, bytes', hanswer, hbytes, hrest⟩
  · rw [if_neg (by rw [herror]; decide)]
    exact Or.inl herror
  · rw [hanswer, if_neg (by simp)]
    exact Or.inr ⟨taken, rest, bytes', rfl, hbytes, hrest⟩

end

/-! ### A known length -/

/-- The loop for a known length hands on exactly the bytes that are left. -/
theorem getdataLoop_chunked (handler : PTPDataHandler τ) (fuel : Nat) {more : List UInt8}
    {curread : Nat} {res : Int} {w w' : UsbWorld τ} {ret : UInt16} {curread' : Nat} {res' : Int}
    (h : Chunked w.reads (bytes ++ more)) (hres : res ≠ gpErrorIoRead)
    (hrun : getdataLoop handler fuel bytes.length curread res w =
      some (.ok (ret, curread', res'), w')) :
    res' ≠ gpErrorIoRead ∧ (ret = ptpRcOk → w'.handed = w.handed ++ bytes ∧
      Chunked w'.reads more ∧ SameBuffer w w') := by
  induction fuel generalizing bytes curread res w with
  | zero => cases hrun
  | succ fuel ih =>
    rw [getdataLoop] at hrun
    by_cases hnil : bytes.length = 0
    · rw [if_pos hnil] at hrun
      cases hrun
      rw [length_eq_zero_iff] at hnil
      subst hnil
      exact ⟨hres, fun _ => ⟨(List.append_nil _).symm, h, SameBuffer.rfl⟩⟩
    rw [if_neg hnil, get_bind_run, bind_run_ok (gpPortRead_run _ w)] at hrun
    have hle : bytesToRead w.maxpacketsize bytes.length ≤ bytes.length := by
      unfold bytesToRead
      split_ifs <;> omega
    rcases takeAnswer_chunked (n := bytesToRead w.maxpacketsize bytes.length) h with
      ⟨hanswer, -⟩ | ⟨taken, rest, bytes', hanswer, hbytes, hrest, htaken⟩
    · rw [hanswer] at hrun
      cases hrun
      exact ⟨by decide, fun h => absurd h (by decide)⟩
    rw [hanswer] at hrun
    rcases taken with _ | ⟨b, taken⟩
    · cases hrun
      exact ⟨by decide, fun h => absurd h (by decide)⟩
    generalize htaken' : b :: taken = block at hbytes htaken hrun
    have hne : ((block.length : Nat) : Int) ≠ gpErrorIoRead := by
      unfold gpErrorIoRead
      omega
    simp only [← htaken'] at hrun
    simp only [htaken'] at hrun
    rw [bind_run_ok (putfunc_run handler block _)] at hrun
    simp only at hrun
    by_cases hret : (handler.putfunc block w.priv).1.1 ≠ ptpRcOk
    · rw [if_pos hret] at hrun
      cases hrun
      exact ⟨hne, fun h => absurd h hret⟩
    rw [if_neg hret] at hrun
    by_cases hwritten : (handler.putfunc block w.priv).1.2 ≠ block.length
    · rw [if_pos hwritten] at hrun
      cases hrun
      exact ⟨hne, fun h => absurd h (by decide)⟩
    rw [if_neg hwritten, get_bind_run, Comp.modify_bind_run] at hrun
    by_cases hcancel : w.cancels.headD false = true
    · rw [if_pos hcancel] at hrun
      cases hrun
      exact ⟨hne, fun h => absurd h (by decide)⟩
    rw [if_neg hcancel] at hrun
    -- the block is the start of the bytes that are left
    obtain ⟨left, rfl, rfl⟩ : ∃ left, bytes = block ++ left ∧ bytes' = left ++ more := by
      rcases List.append_eq_append_iff.mp hbytes with ⟨as, rfl, rfl⟩ | ⟨bs, rfl, rfl⟩
      · have : as = [] := by
          rw [length_append] at htaken
          exact length_eq_zero_iff.mp (by omega)
        subst this
        exact ⟨[], by simp, by simp⟩
      · exact ⟨bs, rfl, rfl⟩
    have hlen : (block ++ left).length - block.length = left.length := by
      rw [length_append]
      omega
    rw [hlen] at hrun
    obtain ⟨hres', hok⟩ := ih (w := { w with
      reads := rest
      priv := (handler.putfunc block w.priv).2
      handed := w.handed ++ block
      cancels := w.cancels.tail }) hrest hne hrun
    refine ⟨hres', fun hret => ?_⟩
    obtain ⟨hhanded, hchunked, hsame⟩ := hok hret
    exact ⟨by rw [hhanded, append_assoc], hchunked, ⟨hsame.1, hsame.2, hsame.3⟩⟩

theorem getdataRest_chunked (handler : PTPDataHandler τ) (fuel : Nat) {more : List UInt8}
    {w w' : UsbWorld τ} (h : Chunked w.reads (bytes ++ more))
    (hrun : getdataRest handler fuel bytes.length w = some (.ok (), w')) :
    w'.handed = w.handed ++ bytes ∧ Chunked w'.reads more ∧ SameBuffer w w' := by
  unfold getdataRest at hrun
  obtain ⟨⟨ret, curread, res⟩, w₁, hloop, hrun⟩ := bind_eq_ok.mp hrun
  obtain ⟨hres, hok⟩ := getdataLoop_chunked handler fuel h (by decide) hloop
  simp only at hrun
  rw [if_neg fun hretry => hres hretry.1] at hrun
  unfold ioUnlessCancel at hrun
  by_cases hret : ret = ptpRcOk
  · rw [if_pos hret] at hrun
    cases hrun
    exact hok hret
  · rw [if_neg hret] at hrun
    split at hrun <;> cases hrun

/-! ### An unknown length -/

/-- The bytes up to the end of the first transfer that is not a whole number of packets. -/
def shortEnd : List PortAnswer → Option Nat
  | .data chunk :: reads =>
    if chunk.length % ptpUsbBulkHsMaxPacketLenRead = 0 ∧ chunk ≠ [] then
      (shortEnd reads).map (chunk.length + ·)
    else some chunk.length
  | _ => none

/-- A read that is not short leaves the rest of the transfers to decide. -/
theorem shortEnd_read {rest : List PortAnswer} {taken : List UInt8}
    (h : Chunked reads bytes)
    (hanswer : takeAnswer ptpUsbBulkHsMaxPacketLenRead reads = (.ok taken, rest)) :
    shortEnd reads =
      if taken.length < ptpUsbBulkHsMaxPacketLenRead then some taken.length
      else (shortEnd rest).map (taken.length + ·) := by
  rcases h.cases with ⟨rfl, rfl⟩ | ⟨chunk, reads', bytes', rfl, -, -⟩
  · cases hanswer
  unfold ptpUsbBulkHsMaxPacketLenRead at *
  rw [takeAnswer] at hanswer
  rw [shortEnd]
  unfold ptpUsbBulkHsMaxPacketLenRead
  by_cases hle : chunk.length ≤ 512
  · rw [if_pos hle] at hanswer
    cases hanswer
    by_cases hshort : taken.length < 512
    · rw [if_pos hshort, if_neg]
      rintro ⟨hmod, hne⟩
      have := List.length_pos_iff.mpr hne
      omega
    · have hlen : taken.length = 512 := by omega
      rw [if_neg hshort, if_pos]
      exact ⟨by rw [hlen], fun hnil => by rw [hnil] at hlen; cases hlen⟩
  · rw [if_neg hle] at hanswer
    cases hanswer
    have htake : (chunk.take 512).length = 512 := by
      rw [length_take]
      omega
    have hdrop : (chunk.drop 512).length = chunk.length - 512 := List.length_drop ..
    have hne : chunk.drop 512 ≠ [] := fun hnil => by
      rw [hnil, List.length_nil] at hdrop
      omega
    have hne' : chunk ≠ [] := fun hnil => hle (by rw [hnil]; decide)
    rw [if_neg (show ¬ (chunk.take 512).length < 512 by omega), htake, shortEnd]
    unfold ptpUsbBulkHsMaxPacketLenRead
    by_cases hmod : chunk.length % 512 = 0
    · rw [if_pos ⟨hmod, hne'⟩, if_pos ⟨by rw [hdrop]; omega, hne⟩, Option.map_map]
      refine congrArg (Option.map · _) (funext fun k => ?_)
      simp only [Function.comp, hdrop]
      omega
    · rw [if_neg fun h => hmod h.1, if_neg fun h => hmod (by rw [hdrop] at h; omega),
        Option.map_some, hdrop]
      exact congrArg some (by omega)

/-- The loop for an unknown length hands on everything up to the first short end. -/
theorem getdataUnknown_cases (handler : PTPDataHandler τ) (fuel : Nat) {bytes : List UInt8}
    {w : UsbWorld τ} (h : Chunked w.reads bytes) :
    (getdataUnknown handler fuel w = none ∧ fuel ≤ pendingBytes w.reads) ∨
    (shortEnd w.reads = none ∧ ∃ e w', getdataUnknown handler fuel w = some (.error e, w')) ∨
    ∃ k w', shortEnd w.reads = some k ∧ k ≤ bytes.length ∧
      getdataUnknown handler fuel w = some (.ok (), w') ∧
      w'.handed = w.handed ++ bytes.take k ∧ Chunked w'.reads (bytes.drop k) ∧
      SameBuffer w w' := by
  induction fuel generalizing bytes w with
  | zero => exact Or.inl ⟨rfl, Nat.zero_le _⟩
  | succ fuel ih =>
    rw [getdataUnknown, bind_run_ok (gpPortRead_run _ w)]
    rcases takeAnswer_chunked (n := ptpUsbBulkHsMaxPacketLenRead) h with ⟨hanswer, hnil⟩ |
      ⟨taken, rest, bytes', hanswer, hbytes, hrest, htaken⟩
    · rw [hanswer]
      refine Or.inr (Or.inl ⟨?_, _, _, rfl⟩)
      rcases h.cases with ⟨hreads, -⟩ | ⟨chunk, reads', bytes'', hreads, -, -⟩
      · rw [hreads]
        rfl
      · rw [hreads, takeAnswer] at hanswer
        split at hanswer <;> cases hanswer
    have hend := shortEnd_read h hanswer
    have hpending := (takeAnswer_pending _ _ hanswer).2
    rw [hanswer]
    dsimp only
    rw [bind_run_ok (putfunc_run handler taken _)]
    by_cases hshort : taken.length < ptpUsbBulkHsMaxPacketLenRead
    · rw [if_pos hshort] at hend ⊢
      refine Or.inr (Or.inr ⟨taken.length, _, hend, ?_, rfl, ?_, ?_, rfl, rfl, rfl⟩)
      · rw [hbytes, length_append]
        omega
      · rw [hbytes, List.take_left]
      · rw [hbytes, List.drop_left]
        exact hrest
    · rw [if_neg hshort] at hend ⊢
      have hfull : 0 < taken.length := by
        unfold ptpUsbBulkHsMaxPacketLenRead at hshort
        omega
      rcases ih (w := { w with
        reads := rest
        priv := (handler.putfunc taken w.priv).2
        handed := w.handed ++ taken }) hrest with
        ⟨hnone, hfuel⟩ | ⟨hnone, e, w', hrun⟩ | ⟨k, w', hk, hle, hrun, hhanded, hchunked, hsame⟩
      · refine Or.inl ⟨hnone, ?_⟩
        dsimp only at hfuel
        omega
      · rw [show shortEnd rest = none from hnone] at hend
        exact Or.inr (Or.inl ⟨hend, e, w', hrun⟩)
      · rw [show shortEnd rest = some k from hk] at hend
        refine Or.inr (Or.inr ⟨taken.length + k, w', hend, ?_, hrun, ?_, ?_,
          hsame.1, hsame.2, hsame.3⟩)
        · rw [hbytes, length_append]
          omega
        · rw [hhanded, hbytes, List.take_length_add_append, append_assoc]
        · rw [hbytes, List.drop_length_add_append]
          exact hchunked

/-! ### The whole function -/

/-- The device sends a DATA container for the request, with the payload, and the response to it.
Nothing is buffered. -/
structure Sends (w : UsbWorld τ) (ptp : PTPContainer) (length : UInt32)
    (payload response : List UInt8) : Prop where
  /-- The length is announced, or it is not known. -/
  announced : length = 0xffffffff ∨ length.toNat = 12 + payload.length
  chunked : Chunked w.reads (containerHeader length ptpUsbContainerData ptp.code
    ptp.transactionID ++ (payload ++ response))
  responsePacket : w.responsePacket = []
  responsePacketSize : w.responsePacketSize = 0

/-- The handler got exactly the payload, and what was read of the response is what
`ptp_usb_getpacket` delivers before it reads the port again. -/
def Delivered (payload response : List UInt8) (w w' : UsbWorld τ) : Prop :=
  w'.handed = w.handed ++ payload ∧
  ∃ surplus rest, response = surplus ++ rest ∧ Chunked w'.reads rest ∧
    w'.responsePacket = surplus ∧ w'.responsePacketSize = surplus.length ∧
    (surplus ≠ [] → ∃ w'', ptpUsbGetpacket w' = some (.ok surplus, w'') ∧
      w''.reads = w'.reads)

/-- The first read does not end within the first 12 bytes of the response. For an unknown length
the payload ends at the first short end after it. -/
def EndsWell (length : UInt32) (payload : List UInt8) (reads : List PortAnswer) : Prop :=
  ∀ packet rest, readTwice reads = (.ok packet, rest) →
    if length = 0xffffffff then
      12 ≤ packet.length → ∀ k, shortEnd rest = some k →
        packet.length + k = 12 + payload.length
    else packet.length ≤ 12 + payload.length ∨ 12 + payload.length + 12 ≤ packet.length

section
variable {w w' : UsbWorld τ} {ptp : PTPContainer} {length : UInt32}
  {payload response packet : List UInt8} {handler : PTPDataHandler τ}

theorem putPayload_short {rlen : Nat} (h : rlen < 12) (w : UsbWorld τ) :
    putPayload handler packet rlen w = none := by
  obtain ⟨len, hlen⟩ : ∃ len, len = rlen + 2 ^ 64 - 12 := ⟨_, rfl⟩
  have hlarge : 1024 < len := by omega
  unfold putPayload lenSub ptpUsbBulkHdrLen
  simp only [traceUsb, Comp.bind_assoc, Comp.modify_bind_run, Comp.pure_bind_run]
  rw [if_neg (Nat.not_le.mpr h), ← hlen]
  refine bind_run_none ?_
  unfold copyOut sizeofBulkContainer
  simp only [traceUsb, Comp.modify_bind_run]
  rw [if_neg (by omega), Comp.stuck_run]

variable {trans : UInt32}

theorem header_prefix_type {h : List UInt8} {length : UInt32} {code : UInt16}
    (hpre : h <+: containerHeader length ptpUsbContainerData code trans) :
    dtoh16a h 4 ≠ ptpUsbContainerResponse := by
  obtain ⟨t, ht⟩ := hpre
  have hbyte : ∀ i, h.getD i 0 = (h ++ t).getD i 0 ∨ h.getD i 0 = 0 := by
    intro i
    by_cases hi : i < h.length
    · left
      rw [List.getD_eq_getElem?_getD, List.getD_eq_getElem?_getD, List.getElem?_append_left hi]
    · right
      rw [List.getD_eq_getElem?_getD, List.getElem?_eq_none (Nat.not_lt.mp hi)]
      rfl
  rw [ht] at hbyte
  have h4 : h.getD 4 0 = 2 ∨ h.getD 4 0 = 0 := hbyte 4
  have h5 : h.getD 5 0 = 0 ∨ h.getD 5 0 = 0 := hbyte 5
  unfold dtoh16a
  rcases h4 with h4 | h4 <;> rw [h4, or_self_iff.mp h5] <;> decide

theorem bufferSurplus_saves (packlen : Nat) (hsize : packet.length ≤ sizeofBulkContainer)
    (w : UsbWorld τ) :
    ∃ w₁, bufferSurplus packet packlen w = some (.ok (), w₁) ∧ w₁.reads = w.reads ∧
      w₁.handed = w.handed ∧
      w₁.responsePacket = (if packlen + 12 ≤ packet.length then packet.drop packlen
        else w.responsePacket) ∧
      w₁.responsePacketSize = (if packlen + 12 ≤ packet.length then packet.length - packlen
        else w.responsePacketSize) := by
  unfold bufferSurplus ptpUsbBulkHdrLen
  by_cases hsurplus : packlen < packet.length
  · rw [if_pos hsurplus, bind_run_ok (lenSub_run (Nat.le_of_lt hsurplus) w)]
    by_cases hhdr : packlen + 12 ≤ packet.length
    · have hend : packlen + (packet.length - packlen) ≤ packet.length := by omega
      rw [if_pos (by omega), saveResponse_run hend hsize, if_pos hhdr, if_pos hhdr]
      refine ⟨_, rfl, rfl, rfl, ?_, rfl⟩
      exact List.take_of_length_le (Nat.le_of_eq List.length_drop)
    · rw [if_neg (by omega), if_neg hhdr, if_neg hhdr]
      exact ⟨_, rfl, rfl, rfl, rfl, rfl⟩
  · rw [if_neg hsurplus, if_neg (by omega), if_neg (by omega)]
    exact ⟨w, rfl, rfl, rfl, rfl, rfl⟩

theorem getdataKnown_run (handler : PTPDataHandler τ) (fuel : Nat) {packlen : Nat}
    (hlen : 12 ≤ packet.length)
    (hsize : packet.length ≤ sizeofBulkContainer)
    (hpacklen : (dtoh32a packet 0).toNat = packlen) (hle : 12 ≤ packlen) (w : UsbWorld τ) :
    ∃ w₁ : UsbWorld τ, w₁.reads = w.reads ∧
      w₁.handed = w.handed ++ (packet.take packlen).drop 12 ∧
      w₁.responsePacket = (if packlen + 12 ≤ packet.length then packet.drop packlen
        else w.responsePacket) ∧
      w₁.responsePacketSize = (if packlen + 12 ≤ packet.length then packet.length - packlen
        else w.responsePacketSize) ∧
      getdataKnown fuel packet handler w =
        (if packlen ≤ packet.length then pure ()
        else getdataRest handler fuel (packlen - packet.length) : Usb τ Unit) w₁ := by
  subst hpacklen
  unfold getdataKnown
  generalize (dtoh32a packet 0).toNat = packlen at *
  obtain ⟨w₁, hrun₁, hreads₁, hhanded₁, hpacket₁, hsize₁⟩ := bufferSurplus_saves packlen hsize w
  have hle : ptpUsbBulkHdrLen ≤ packlen := hle
  rw [bind_run_ok hrun₁, bind_run_ok (lenSub_run hle w₁)]
  obtain ⟨w₂, hrun₂, hsame₂, hreads₂, hhanded₂, -⟩ := detectSplit_run packlen
    (min packet.length packlen) { w₁ with log := w₁.log ++ [.sub packlen ptpUsbBulkHdrLen] }
  have hhdr : ptpUsbBulkHdrLen ≤ min packet.length packlen := Nat.le_min.mpr ⟨hlen, hle⟩
  rw [bind_run_ok hrun₂,
    bind_run_ok (putPayload_run handler hhdr (Nat.min_le_left ..) hsize w₂)]
  have htake : packet.take (min packet.length packlen) = packet.take packlen := by
    rw [Nat.min_comm, ← List.take_eq_take_min]
  have hhanded : w₂.handed = w.handed := hhanded₂.trans hhanded₁
  have hresponse := hsame₂.responsePacket.trans hpacket₁
  have hresponseSize := hsame₂.responsePacketSize.trans hsize₁
  by_cases hall : packlen ≤ packet.length
  · rw [if_pos hall, if_pos (Nat.le_min.mpr ⟨hall, Nat.le_refl _⟩)]
    refine ⟨_, ?_, ?_, ?_, ?_, rfl⟩
    · exact hreads₂.trans hreads₁
    · dsimp only
      rw [hhanded, htake]
      rfl
    · exact hresponse
    · exact hresponseSize
  · have hmore : ¬ packlen ≤ min packet.length packlen := by omega
    have hmin : min packet.length packlen = packet.length := by omega
    have hleft : packlen - 12 - (packet.length - 12) = packlen - packet.length := by omega
    rw [if_neg hall, if_neg hmore, bind_run_ok (lenSub_run hhdr _),
      bind_run_ok (lenSub_run (by omega) _), hmin]
    refine ⟨_, ?_, ?_, ?_, ?_, congrFun (congrArg _ hleft) _⟩
    · exact hreads₂.trans hreads₁
    · dsimp only
      rw [hhanded, ← hmin, htake]
      rfl
    · exact hresponse
    · exact hresponseSize

variable {w₁ : UsbWorld τ}

/-- A packet without a whole header never leads to `PTP_RC_OK`. -/
theorem getdata_short {fuel : Nat}
    (hrun : ptpUsbGetpacket w = some (.ok packet, w₁))
    (hpre : packet <+: containerHeader length ptpUsbContainerData ptp.code trans)
    (hshort : packet.length < 12) : ptpUsbGetdata fuel ptp handler w ≠ some (.ok (), w') := by
  intro h
  unfold ptpUsbGetdata at h
  rw [bind_run_ok hrun, get_bind_run] at h
  by_cases htype : dtoh16a packet 4 ≠ ptpUsbContainerData
  · rw [if_pos htype, if_neg (header_prefix_type hpre)] at h
    cases h
  rw [if_neg htype] at h
  split_ifs at h
  · cases h
  · rw [bind_run_none (putPayload_short hshort _)] at h
    cases h
  · unfold getdataKnown at h
    obtain ⟨_, w₂, -, h⟩ := bind_eq_ok.mp h
    obtain ⟨_, w₃, -, h⟩ := bind_eq_ok.mp h
    obtain ⟨_, w₄, -, h⟩ := bind_eq_ok.mp h
    rw [bind_run_none (putPayload_short (Nat.lt_of_le_of_lt (Nat.min_le_left ..) hshort) _)]
      at h
    cases h

theorem getdata_of_header (handler : PTPDataHandler τ) {tail : List UInt8}
    (fuel : Nat)
    (hrun : ptpUsbGetpacket w =
      some (.ok (containerHeader length ptpUsbContainerData ptp.code trans ++ tail), w₁)) :
    dtoh32a (containerHeader length ptpUsbContainerData ptp.code trans ++ tail) 0 = length ∧
    ptpUsbGetdata fuel ptp handler w =
      (if length = 0xffffffff then
        putPayload handler (containerHeader length ptpUsbContainerData ptp.code trans ++ tail)
          (containerHeader length ptpUsbContainerData ptp.code trans ++ tail).length >>= fun _ =>
        getdataUnknown handler fuel
      else getdataKnown fuel
        (containerHeader length ptpUsbContainerData ptp.code trans ++ tail) handler) w₁ := by
  obtain ⟨hlength, htype, hcode, -⟩ :=
    containerHeader_fields length ptpUsbContainerData ptp.code trans tail
  refine ⟨hlength, ?_⟩
  unfold ptpUsbGetdata
  rw [bind_run_ok hrun, get_bind_run, if_neg (not_not_intro htype),
    if_neg fun h => h.1 hcode, hlength]

theorem getdata_unknown_iff {tail bytes : List UInt8}
    (hrun : ptpUsbGetpacket w =
      some (.ok (containerHeader 0xffffffff ptpUsbContainerData ptp.code trans ++ tail), w₁))
    (hsize : 12 + tail.length ≤ sizeofBulkContainer) (hhanded : w₁.handed = w.handed)
    (hpacket : w₁.responsePacket = []) (hpacketSize : w₁.responsePacketSize = 0)
    (hchunked : Chunked w₁.reads bytes) (hbytes : payload ++ response = tail ++ bytes) :
    (∀ fuel w', ptpUsbGetdata fuel ptp handler w = some (.ok (), w') →
      Delivered payload response w w') ↔
    ∀ k, shortEnd w₁.reads = some k → tail.length + k = payload.length := by
  generalize hpacketEq :
    containerHeader 0xffffffff ptpUsbContainerData ptp.code trans ++ tail = packet at hrun
  have hlen : packet.length = 12 + tail.length := by
    rw [← hpacketEq, length_append, length_containerHeader]
  have hdrop : (packet.take packet.length).drop ptpUsbBulkHdrLen = tail := by
    rw [List.take_length, ← hpacketEq]
    rfl
  obtain ⟨w₂, hput, hreads, hhanded₂, hpacket₂, hpacketSize₂⟩ : ∃ w₂ : UsbWorld τ,
      putPayload handler packet packet.length w₁ = some (.ok (), w₂) ∧
      w₂.reads = w₁.reads ∧ w₂.handed = w.handed ++ tail ∧ w₂.responsePacket = [] ∧
      w₂.responsePacketSize = 0 := by
    have hhdr : ptpUsbBulkHdrLen ≤ packet.length := hlen ▸ Nat.le_add_right 12 _
    refine ⟨_, putPayload_run handler hhdr (Nat.le_refl _) (by omega) w₁, rfl, ?_, hpacket,
      hpacketSize⟩
    dsimp only
    rw [hdrop, hhanded]
  have heq : ∀ fuel, ptpUsbGetdata fuel ptp handler w = getdataUnknown handler fuel w₂ := by
    intro fuel
    rw [(getdata_of_header handler fuel (hpacketEq ▸ hrun)).2, if_pos rfl,
      hpacketEq, bind_run_ok hput]
  rw [← hreads]
  have hcases := fun fuel => getdataUnknown_cases handler fuel (hreads ▸ hchunked)
  constructor
  · intro h k hk
    rcases hcases (pendingBytes w₂.reads + 1) with ⟨-, hfuel⟩ | ⟨hnone, -⟩ |
      ⟨k', w', hk', hle, hok, hgot, -⟩
    · omega
    · rw [hk] at hnone
      cases hnone
    · rw [hk] at hk'
      cases hk'
      obtain ⟨hpayload, -⟩ := h _ w' ((heq _).trans hok)
      rw [hgot, hhanded₂, append_assoc] at hpayload
      rw [← List.append_cancel_left hpayload, length_append, length_take]
      omega
  · intro h fuel w' hok
    rw [heq] at hok
    rcases hcases fuel with ⟨hnone, -⟩ | ⟨-, e, w'', herror⟩ |
      ⟨k, w'', hk, hle, hok', hgot, hrest, hsame⟩
    · rw [hok] at hnone
      cases hnone
    · rw [hok] at herror
      cases herror
    · rw [hok] at hok'
      cases hok'
      have hsum := h k hk
      -- the payload is what was read, and the response what was not
      have hsplit : payload = tail ++ bytes.take k ∧ response = bytes.drop k := by
        refine List.append_inj ?_ ?_
        · rw [hbytes, append_assoc, List.take_append_drop]
        · rw [length_append, length_take]
          omega
      refine ⟨?_, [], response, rfl, hsplit.2 ▸ hrest, ?_, ?_, fun hne => absurd rfl hne⟩
      · rw [hgot, hhanded₂, append_assoc, hsplit.1]
      · rw [hsame.responsePacket, hpacket₂]
      · rw [hsame.responsePacketSize, hpacketSize₂]
        rfl

theorem getdata_known_iff {tail bytes : List UInt8}
    (hrun : ptpUsbGetpacket w =
      some (.ok (containerHeader length ptpUsbContainerData ptp.code trans ++ tail), w₁))
    (hknown : length ≠ 0xffffffff) (hlength : length.toNat = 12 + payload.length)
    (hsize : 12 + tail.length ≤ sizeofBulkContainer) (hhanded : w₁.handed = w.handed)
    (hpacket : w₁.responsePacket = []) (hpacketSize : w₁.responsePacketSize = 0)
    (hchunked : Chunked w₁.reads bytes) (hbytes : payload ++ response = tail ++ bytes) :
    (∀ fuel w', ptpUsbGetdata fuel ptp handler w = some (.ok (), w') →
      Delivered payload response w w') ↔
    tail.length ≤ payload.length ∨ payload.length + 12 ≤ tail.length := by
  generalize hpacketEq :
    containerHeader length ptpUsbContainerData ptp.code trans ++ tail = packet at hrun
  have hlen : packet.length = 12 + tail.length := by
    rw [← hpacketEq, length_append, length_containerHeader]
  have hdrop : ∀ n, (packet.take (12 + n)).drop 12 = tail.take n := by
    intro n
    rw [← hpacketEq, List.take_append, length_containerHeader, Nat.add_sub_cancel_left,
      List.take_of_length_le (by rw [length_containerHeader]; omega)]
    rfl
  have hheader := fun fuel => getdata_of_header handler fuel (hpacketEq ▸ hrun)
  have hpacklen : (dtoh32a packet 0).toNat = 12 + payload.length := by
    rw [← hpacketEq, (hheader 0).1, hlength]
  have hstep := fun fuel => getdataKnown_run handler fuel
    (show 12 ≤ packet.length by omega) (by omega) hpacklen (Nat.le_add_right 12 _) w₁
  simp only [hdrop, hpacket, hpacketSize, hhanded] at hstep
  have heq : ∀ fuel, ptpUsbGetdata fuel ptp handler w = getdataKnown fuel packet handler w₁ := by
    intro fuel
    rw [(hheader fuel).2, if_neg hknown, hpacketEq]
  by_cases hmore : tail.length < payload.length
  · -- the rest of the payload is still to be read
    refine iff_of_true (fun fuel w' hok => ?_) (Or.inl (Nat.le_of_lt hmore))
    obtain ⟨w₂, hreads, hgot, hpacket₂, hpacketSize₂, hrest⟩ := hstep fuel
    rw [if_neg (by omega)] at hpacket₂ hpacketSize₂ hrest
    rw [heq, hrest] at hok
    obtain ⟨left, hpayload, hleft⟩ : ∃ left, payload = tail ++ left ∧ bytes = left ++ response := by
      rcases List.append_eq_append_iff.mp hbytes with ⟨as, htail, -⟩ | ⟨bs, hpayload, hrest⟩
      · rw [htail, length_append] at hmore
        omega
      · exact ⟨bs, hpayload, hrest⟩
    have hn : 12 + payload.length - packet.length = left.length := by
      rw [hpayload, length_append]
      omega
    rw [hn] at hok
    obtain ⟨hgot', hchunked', hsame⟩ :=
      getdataRest_chunked handler fuel (hreads ▸ hleft ▸ hchunked) hok
    refine ⟨?_, [], response, rfl, hchunked', ?_, ?_, fun hne => absurd rfl hne⟩
    · rw [hgot', hgot, List.take_of_length_le (Nat.le_of_lt hmore), hpayload, append_assoc]
    · rw [hsame.responsePacket, hpacket₂]
    · rw [hsame.responsePacketSize, hpacketSize₂]
      rfl
  · -- the first packet holds the payload, and maybe more
    obtain ⟨surplus, htail, hresponse⟩ : ∃ surplus, tail = payload ++ surplus ∧
        response = surplus ++ bytes := by
      rcases List.append_eq_append_iff.mp hbytes with ⟨as, htail, hrest⟩ | ⟨bs, hpayload, hrest⟩
      · exact ⟨as, htail, hrest⟩
      · have hnil : bs = [] := by
          rw [hpayload, length_append] at hmore
          exact length_eq_zero_iff.mp (by omega)
        subst hnil
        exact ⟨[], by rw [hpayload]; simp, by rw [hrest]; rfl⟩
    have hcount : tail.length = payload.length + surplus.length := by
      rw [htail, length_append]
    have htake : tail.take payload.length = payload := by rw [htail, List.take_left]
    have hsurplus : packet.drop (12 + payload.length) = surplus := by
      rw [← hpacketEq, htail, ← append_assoc]
      refine List.drop_left' ?_
      rw [length_append, length_containerHeader]
    rw [htake, hsurplus] at hstep
    have hrun' : ∀ fuel, ∃ w₂ : UsbWorld τ,
        ptpUsbGetdata fuel ptp handler w = some (.ok (), w₂) ∧ w₂.reads = w₁.reads ∧
        w₂.handed = w.handed ++ payload ∧
        w₂.responsePacket = (if 12 ≤ surplus.length then surplus else []) ∧
        w₂.responsePacketSize = (if 12 ≤ surplus.length then surplus.length else 0) := by
      intro fuel
      obtain ⟨w₂, hreads, hgot, hpacket₂, hpacketSize₂, hrest⟩ := hstep fuel
      rw [if_pos (by omega)] at hrest
      have hcond : 12 + payload.length + 12 ≤ packet.length ↔ 12 ≤ surplus.length := by omega
      have hn : packet.length - (12 + payload.length) = surplus.length := by omega
      simp only [hcond, hn] at hpacket₂ hpacketSize₂
      exact ⟨w₂, (heq fuel).trans hrest, hreads, hgot, hpacket₂, hpacketSize₂⟩
    constructor
    · intro h
      obtain ⟨w₂, hok, hreads, -, hpacket₂, -⟩ := hrun' 0
      obtain ⟨-, surplus', rest, hresponse', hrest, hheld, -⟩ := h 0 w₂ hok
      rw [hreads] at hrest
      obtain rfl := hrest.unique hchunked
      rw [hresponse] at hresponse'
      obtain rfl := List.append_cancel_right hresponse'
      rw [hpacket₂] at hheld
      by_cases hsaved : 12 ≤ surplus.length
      · exact Or.inr (by omega)
      · rw [if_neg hsaved] at hheld
        rw [← hheld, List.length_nil] at hcount
        exact Or.inl (by omega)
    · intro hcond fuel w' hok
      obtain ⟨w₂, hok', hreads, hgot, hpacket₂, hpacketSize₂⟩ := hrun' fuel
      rw [hok] at hok'
      cases hok'
      refine ⟨hgot, surplus, bytes, hresponse, hreads ▸ hchunked, ?_⟩
      by_cases hsaved : 12 ≤ surplus.length
      · rw [if_pos hsaved] at hpacket₂ hpacketSize₂
        refine ⟨hpacket₂, hpacketSize₂, fun _ => ?_⟩
        have hnext := getpacket_buffered (w := w') (by omega) (by omega)
        rw [hpacketSize₂, hpacket₂, List.take_length] at hnext
        exact ⟨_, hnext, rfl⟩
      · have hnil : surplus = [] := length_eq_zero_iff.mp (by omega)
        subst hnil
        exact ⟨hpacket₂, hpacketSize₂, fun hne => absurd rfl hne⟩

/-- `ptp_usb_getdata` delivers the payload, and keeps what it reads of the response, if and only
if its reads end well. -/
theorem getdata_delivers_iff (handler : PTPDataHandler τ) (ptp : PTPContainer)
    (length : UInt32) (payload response : List UInt8) (w : UsbWorld τ)
    (h : Sends w ptp length payload response) :
    (∀ fuel w', ptpUsbGetdata fuel ptp handler w = some (.ok (), w') →
      Delivered payload response w w') ↔ EndsWell length payload w.reads := by
  have hread := getpacket_read h.responsePacketSize
  rcases readTwice_chunked h.chunked with herror | ⟨packet, rest, bytes, hanswer, hbytes, hrest⟩
  · -- nothing arrives
    rw [herror] at hread
    refine iff_of_true (fun fuel w' hok => ?_) fun packet rest hpacket => ?_
    · rw [ptpUsbGetdata, Comp.bind_run_error hread] at hok
      cases hok
    · rw [hpacket] at herror
      cases herror
  have hends : EndsWell length payload w.reads ↔
      if length = 0xffffffff then
        12 ≤ packet.length → ∀ k, shortEnd rest = some k →
          packet.length + k = 12 + payload.length
      else packet.length ≤ 12 + payload.length ∨ 12 + payload.length + 12 ≤ packet.length := by
    refine ⟨fun hends => hends packet rest hanswer, fun hends packet' rest' hanswer' => ?_⟩
    rw [hanswer] at hanswer'
    cases hanswer'
    exact hends
  rw [hends]
  rw [hanswer] at hread
  have hsize : packet.length ≤ sizeofBulkContainer := readTwice_length_le hanswer
  by_cases hshort : packet.length < 12
  · -- the header does not arrive whole
    refine iff_of_true (fun fuel w' hok => ?_) ?_
    · rcases packet with _ | ⟨b, packet⟩
      · rw [ptpUsbGetdata, Comp.bind_run_error hread] at hok
        cases hok
      · have hpre : b :: packet <+: containerHeader length ptpUsbContainerData ptp.code
            ptp.transactionID :=
          List.prefix_of_prefix_length_le ⟨bytes, hbytes.symm⟩ (List.prefix_append ..)
            (Nat.le_of_lt hshort)
        exact absurd hok (getdata_short hread hpre hshort)
    · split
      · intro hle
        omega
      · exact Or.inl (by omega)
  obtain ⟨tail, rfl⟩ : containerHeader length ptpUsbContainerData ptp.code
      ptp.transactionID <+: packet :=
    List.prefix_of_prefix_length_le (List.prefix_append ..) ⟨bytes, hbytes.symm⟩
      (Nat.not_lt.mp hshort)
  rw [append_assoc] at hbytes
  have hpayload := List.append_cancel_left hbytes
  rw [length_append, length_containerHeader] at hsize ⊢
  have hsome : packetOf (.ok (containerHeader length ptpUsbContainerData ptp.code
      ptp.transactionID ++ tail)) = some (containerHeader length ptpUsbContainerData ptp.code
      ptp.transactionID ++ tail) :=
    packetOf_eq_some.mpr ⟨rfl, List.append_ne_nil_of_left_ne_nil (List.cons_ne_nil _ _) _⟩
  rw [hsome] at hread
  by_cases hunknown : length = 0xffffffff
  · subst hunknown
    rw [if_pos rfl, getdata_unknown_iff hread hsize rfl h.responsePacket h.responsePacketSize
      hrest hpayload]
    constructor
    · intro hends _ k hk
      rw [Nat.add_assoc, hends k hk]
    · intro hends k hk
      have := hends (Nat.le_add_right ..) k hk
      omega
  · rw [if_neg hunknown, getdata_known_iff hread hunknown
      (h.announced.resolve_left hunknown) hsize rfl h.responsePacket h.responsePacketSize hrest
      hpayload]
    omega

/-- A container with two bytes and the response to it, each in a transfer of its own. -/
def twoTransfers (length : UInt32) : UsbWorld PTPMemHandlerPrivate :=
  { UsbWorld.start (⟨[], 0⟩ : PTPMemHandlerPrivate) with
    reads := [.data (containerHeader length ptpUsbContainerData 0 0 ++ [1, 2]),
      .data (containerHeader 12 ptpUsbContainerResponse ptpRcOk 0)] }

theorem twoTransfers_sends {length : UInt32}
    (hlength : length = 0xffffffff ∨ length.toNat = 12 + 2) :
    Sends (twoTransfers length) .zero length [1, 2]
      (containerHeader 12 ptpUsbContainerResponse ptpRcOk 0) :=
  ⟨hlength, ⟨[_, _], rfl, rfl⟩, rfl, rfl⟩

/-- The length is announced. -/
theorem getdata_delivers_two :
    (∀ fuel w', ptpUsbGetdata fuel .zero memoryHandler (twoTransfers 14) = some (.ok (), w') →
      Delivered [1, 2] (containerHeader 12 ptpUsbContainerResponse ptpRcOk 0)
        (twoTransfers 14) w') ↔ EndsWell 14 [1, 2] (twoTransfers 14).reads :=
  getdata_delivers_iff memoryHandler .zero 14 [1, 2]
    (containerHeader 12 ptpUsbContainerResponse ptpRcOk 0) (twoTransfers 14)
    (twoTransfers_sends (Or.inr rfl))

/-- The length is not known, and the response is handed on as data. -/
theorem response_taken_for_data :
    ¬ ∀ (handler : PTPDataHandler PTPMemHandlerPrivate) (ptp : PTPContainer)
      (length : UInt32) (payload response : List UInt8) (w : UsbWorld PTPMemHandlerPrivate),
      Sends w ptp length payload response →
      ∀ fuel w', ptpUsbGetdata fuel ptp handler w = some (.ok (), w') →
        Delivered payload response w w' := by
  intro h
  obtain ⟨hhanded, -⟩ := h memoryHandler .zero 0xffffffff [1, 2]
    (containerHeader 12 ptpUsbContainerResponse ptpRcOk 0) (twoTransfers 0xffffffff)
    (twoTransfers_sends (Or.inl rfl)) 1 _ rfl
  exact absurd (congrArg List.length hhanded) (by decide)

end

end GPhoto2
