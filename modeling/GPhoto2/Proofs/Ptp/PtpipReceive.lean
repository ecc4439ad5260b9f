import GPhoto2.Proofs.Ptp.PtpipParsers

/-!
# `GPhoto2.Proofs.Ptp.PtpipReceive`: the data phase from a PTP/IP camera

The loop of `ptp_ptpip_getdata` ends with the packet that makes up the total, whatever its type
is (`Fills`). `getdata_phase_iff`: what it returns with `PTP_RC_OK` is a legal data phase, read up
to its `END_DATA` packet, exactly if the packets that make up the total always are the ones of
such a phase. An empty `END_DATA` packet is not one of them.
-/

set_option autoImplicit false

namespace GPhoto2.Ptpip

open Lib

variable {τ : Type}

/-- `ptp_ptpip_getdata` ends. What it returns with `PTP_RC_OK` is a legal data phase: the handler
has received its payload, and the packets behind its `END_DATA` packet are still to be read. -/
def ReceivesPhase (handler : Handler τ) (packets : List Packet) (w : World τ) : Prop :=
  ∃ ret w', ptpPtpipGetdata handler w = some (ret, w') ∧
    (ret = ptpRcOk → ∃ payload rest, DataPhase packets payload rest ∧
      w'.handed = w.handed ++ payload ∧ Framed (arriving w'.cmd) rest)

/-! ### What the loop takes -/

/-- A packet whose payload goes to the handler. -/
def Packet.IsData (p : Packet) : Prop := p.type = ptpipEndDataPacket ∨ p.type = ptpipDataPacket

instance (p : Packet) : Decidable p.IsData := inferInstanceAs (Decidable (_ ∨ _))

/-- The bytes of a packet that go to the handler: as many as its length field says, whatever the
length of its body is. -/
def Packet.passed (beyond : Nat → UInt8) (p : Packet) : List UInt8 :=
  if p.IsData then peek beyond p.body 4 (p.header.length - 8 - 4).toNat else []

/-- Packets that make up what is left of the total, as the handler counts. Those of other types
are passed over. -/
inductive Fills (handler : Handler τ) (beyond : Nat → UInt8) : Nat → τ → List Packet → Prop
  | done {priv : τ} : Fills handler beyond 0 priv []
  | data {left : Nat} {priv : τ} {p : Packet} {packets : List Packet} (hleft : 0 < left)
      (htype : p.IsData) (hfits : (p.passed beyond).length ≤ left)
      (hrest : Fills handler beyond (left - (handler.putfunc (p.passed beyond) priv).1.2)
        (handler.putfunc (p.passed beyond) priv).2 packets) :
      Fills handler beyond left priv (p :: packets)
  | other {left : Nat} {priv : τ} {p : Packet} {packets : List Packet} (hleft : 0 < left)
      (htype : ¬ p.IsData) (hrest : Fills handler beyond left priv packets) :
      Fills handler beyond left priv (p :: packets)

variable (beyond : Nat → UInt8) (data : List UInt8)

theorem length_peek (off len : Nat) :
    (peek beyond data off len).length = len := by
  rw [peek, List.length_map, List.length_range]

theorem peek_inside (off : Nat) :
    peek beyond data off (data.length - off) = data.drop off := by
  unfold peek
  apply List.ext_getElem
  · rw [List.length_map, List.length_range, List.length_drop]
  · intro i h₁ h₂
    have hi : off + i < data.length := by
      rw [List.length_drop] at h₂
      omega
    rw [List.getElem_drop, List.getElem_map, List.getElem_range, List.getElem?_eq_getElem hi]
    rfl

theorem Packet.passed_eq {p : Packet} (hdata : p.IsData)
    (h4 : 4 ≤ p.body.length) : p.passed beyond = p.payload := by
  have hlength := p.header_length
  have h8 : (8 : UInt32) ≤ p.header.length := by
    rw [UInt32.le_iff_toNat_le, hlength]
    exact Nat.le_add_left _ _
  have hsub : (p.header.length - 8).toNat = p.body.length := by
    rw [UInt32.toNat_sub_of_le _ _ h8, hlength]
    rfl
  have hsub' : (p.header.length - 8 - 4).toNat = p.body.length - 4 := by
    rw [UInt32.toNat_sub_of_le _ _ (by rw [UInt32.le_iff_toNat_le, hsub]; exact h4), hsub]
    rfl
  rw [Packet.passed, if_pos hdata, hsub', peek_inside]
  rfl

/-! ### The loop -/

/-- A read of the command socket leaves what belongs to the data phase. -/
structure SameData (w w' : World τ) : Prop where
  priv : w'.priv = w.priv
  handed : w'.handed = w.handed
  beyond : w'.beyond = w.beyond

theorem cmdRead_cases {w : World τ} {packets : List Packet}
    (h : Framed (arriving w.cmd) packets) :
    (packets = [] ∧ ∃ w', cmdRead w = (.error ptpRcGeneralError, w')) ∨
    ∃ p rest w', packets = p :: rest ∧ cmdRead w = (.ok (p.header, p.body), w') ∧
      SameData w w' ∧ Framed (arriving w'.cmd) rest ∧
      (arriving w'.cmd).length < (arriving w.cmd).length := by
  obtain ⟨selects, evt, events, new, -, hcmd⟩ := cmdRead_frame w
  cases packets with
  | nil =>
    rw [genericRead_framed_nil h] at hcmd
    exact .inl ⟨rfl, _, hcmd⟩
  | cons p rest =>
    obtain ⟨hread, hrest⟩ := genericRead_framed h
    rw [hread] at hcmd
    refine .inr ⟨p, rest, _, rfl, hcmd, ⟨rfl, rfl, rfl⟩, hrest, ?_⟩
    obtain ⟨bytes, hbytes, -⟩ := h.of_cons
    show (arriving (genericRead w.cmd).2).length < _
    rw [(genericRead_encode hbytes).2, hbytes, List.length_append, p.encode_length]
    omega

/-- The state after the bytes of a packet have gone to the handler. -/
def pass (handler : Handler τ) (p : Packet) (w : World τ) : World τ :=
  { w with
    priv := (handler.putfunc (p.passed w.beyond) w.priv).2
    handed := w.handed ++ p.passed w.beyond
    log := w.log ++ [.read .getdata 4 (p.passed w.beyond).length p.body.length] }

theorem getdataLoop_packet {handler : Handler τ} {toread fuel curread : Nat} {w w' : World τ}
    {p : Packet} (hlt : curread < toread) (hcmd : cmdRead w = (.ok (p.header, p.body), w')) :
    getdataLoop handler toread (fuel + 1) curread w =
      if p.IsData then
        if toread - curread < (p.passed w'.beyond).length then some (ptpRcGeneralError, w')
        else getdataLoop handler toread fuel
          (curread + (handler.putfunc (p.passed w'.beyond) w'.priv).1.2) (pass handler p w')
      else getdataLoop handler toread fuel curread w' := by
  rw [getdataLoop, if_pos hlt, hcmd]
  by_cases hdata : p.IsData
  · have htype : p.header.type = ptpipEndDataPacket ∨ p.header.type = ptpipDataPacket := hdata
    have hpassed : p.passed w'.beyond =
        peek w'.beyond p.body 4 (p.header.length - 8 - 4).toNat := if_pos hdata
    simp only [if_pos htype, if_pos hdata]
    unfold pass getdataResult
    rw [hpassed, length_peek, if_neg (result_ne _), if_pos hlt]
  · have htype : ¬ (p.header.type = ptpipEndDataPacket ∨ p.header.type = ptpipDataPacket) := hdata
    simp only [if_neg htype, if_neg hdata]

/-- What the loop has read when it returns `PTP_RC_OK` makes up the total. -/
theorem getdataLoop_fills {handler : Handler τ} {toread fuel curread : Nat} {w w' : World τ}
    {packets : List Packet} (hframed : Framed (arriving w.cmd) packets)
    (h : getdataLoop handler toread fuel curread w = some (ptpRcOk, w'))
    (hle : curread ≤ toread) :
    ∃ taken rest, packets = taken ++ rest ∧
      Fills handler w.beyond (toread - curread) w.priv taken ∧
      w'.handed = w.handed ++ taken.flatMap (Packet.passed w.beyond) ∧
      Framed (arriving w'.cmd) rest := by
  induction fuel generalizing curread w packets with
  | zero => cases h
  | succ fuel ih =>
    by_cases hlt : curread < toread
    · obtain ⟨-, w₁, hcmd⟩ | ⟨p, rest, w₁, rfl, hcmd, hsame, hrest, -⟩ := cmdRead_cases hframed
      · -- no packet comes
        rw [getdataLoop, if_pos hlt, hcmd] at h
        exact absurd (Prod.mk.inj (Option.some.inj h)).1 (by decide)
      · rw [getdataLoop_packet hlt hcmd, hsame.beyond, hsame.priv] at h
        by_cases hdata : p.IsData
        · rw [if_pos hdata] at h
          by_cases hmuch : toread - curread < (p.passed w.beyond).length
          · rw [if_pos hmuch] at h
            exact absurd (Prod.mk.inj (Option.some.inj h)).1 (by decide)
          · rw [if_neg hmuch] at h
            have hwritten := handler.putfunc_le (p.passed w.beyond) w.priv
            obtain ⟨taken, left, rfl, hfills, hhanded, hleft⟩ :=
              @ih _ (pass handler p w₁) _ hrest h (by omega)
            have hpriv : (pass handler p w₁).priv =
                (handler.putfunc (p.passed w.beyond) w.priv).2 := by
              rw [← hsame.beyond, ← hsame.priv]
              rfl
            have hpassed : (pass handler p w₁).handed = w.handed ++ p.passed w.beyond := by
              rw [← hsame.beyond, ← hsame.handed]
              rfl
            have hbeyond : (pass handler p w₁).beyond = w.beyond := hsame.beyond
            rw [hpriv, hbeyond, ← Nat.sub_sub] at hfills
            refine ⟨p :: taken, left, rfl, .data (by omega) hdata (by omega) hfills, ?_, hleft⟩
            rw [hhanded, hpassed, hbeyond, List.flatMap_cons, List.append_assoc]
        · rw [if_neg hdata] at h
          obtain ⟨taken, left, rfl, hfills, hhanded, hleft⟩ := ih hrest h hle
          rw [hsame.beyond, hsame.priv] at hfills
          refine ⟨p :: taken, left, rfl, .other (by omega) hdata hfills, ?_, hleft⟩
          have hnone : p.passed w.beyond = [] := if_neg hdata
          rw [hhanded, List.flatMap_cons, hnone, List.nil_append, hsame.beyond, hsame.handed]
    · have heq : toread - curread = 0 := by omega
      rw [getdataLoop, if_neg hlt, getdataResult, if_neg hlt] at h
      cases h
      refine ⟨[], packets, rfl, ?_, (List.append_nil _).symm, hframed⟩
      rw [heq]
      exact .done

/-- Packets that make up the total let the loop return `PTP_RC_OK`. -/
theorem Fills.getdataLoop {handler : Handler τ} {beyond : Nat → UInt8} {left : Nat} {priv : τ}
    {taken : List Packet} (hfills : Fills handler beyond left priv taken)
    {toread fuel curread : Nat} {w : World τ} {rest : List Packet}
    (hframed : Framed (arriving w.cmd) (taken ++ rest))
    (hbeyond : w.beyond = beyond) (hpriv : w.priv = priv) (hle : curread ≤ toread)
    (hleft : toread - curread = left) (hfuel : (arriving w.cmd).length < fuel) :
    ∃ w', getdataLoop handler toread fuel curread w = some (ptpRcOk, w') ∧
      w'.handed = w.handed ++ taken.flatMap (Packet.passed beyond) ∧
      Framed (arriving w'.cmd) rest := by
  induction hfills generalizing fuel curread w with
  | done =>
    obtain ⟨fuel, rfl⟩ := Nat.exists_eq_succ_of_ne_zero (Nat.ne_zero_of_lt hfuel)
    have hlt : ¬ curread < toread := by omega
    refine ⟨w, ?_, (List.append_nil _).symm, hframed⟩
    rw [Ptpip.getdataLoop, if_neg hlt, getdataResult, if_neg hlt]
  | @data left priv p packets hpos htype hfits _ ih =>
    obtain ⟨fuel, rfl⟩ := Nat.exists_eq_succ_of_ne_zero (Nat.ne_zero_of_lt hfuel)
    obtain ⟨hnil, -⟩ | ⟨q, qs, w₁, hcons, hcmd, hsame, hrest, hshort⟩ := cmdRead_cases hframed
    · cases hnil
    · cases hcons
      have hwritten := handler.putfunc_le (p.passed beyond) priv
      have hpassed : p.passed w₁.beyond = p.passed beyond := by rw [hsame.beyond, hbeyond]
      have hpriv₁ : w₁.priv = priv := hsame.priv.trans hpriv
      rw [getdataLoop_packet (by omega) hcmd, if_pos htype, hpassed, hpriv₁, if_neg (by omega)]
      obtain ⟨w', hloop, hhanded, hleft'⟩ := @ih fuel
        (curread + (handler.putfunc (p.passed beyond) priv).1.2) (pass handler p w₁)
        hrest (hsame.beyond.trans hbeyond) (by rw [← hpassed, ← hpriv₁]; rfl) (by omega) (by omega)
        (by
          show (arriving w₁.cmd).length < fuel
          omega)
      have hpass : (pass handler p w₁).handed = w.handed ++ p.passed beyond := by
        rw [← hpassed, ← hsame.handed]
        rfl
      refine ⟨w', hloop, ?_, hleft'⟩
      rw [hhanded, hpass, List.flatMap_cons, List.append_assoc]
  | @other left priv p packets hpos htype _ ih =>
    obtain ⟨fuel, rfl⟩ := Nat.exists_eq_succ_of_ne_zero (Nat.ne_zero_of_lt hfuel)
    obtain ⟨hnil, -⟩ | ⟨q, qs, w₁, hcons, hcmd, hsame, hrest, hshort⟩ := cmdRead_cases hframed
    · cases hnil
    · cases hcons
      rw [getdataLoop_packet (by omega) hcmd, if_neg htype]
      obtain ⟨w', hloop, hhanded, hleft'⟩ := @ih fuel curread w₁ hrest
        (hsame.beyond.trans hbeyond) (hsame.priv.trans hpriv) hle hleft (by omega)
      have hnone : p.passed beyond = [] := if_neg htype
      refine ⟨w', hloop, ?_, hleft'⟩
      rw [hhanded, List.flatMap_cons, hnone, List.nil_append, hsame.handed]

theorem getdataLoop_ends {handler : Handler τ} {toread fuel curread : Nat} {w : World τ}
    (hfuel : (arriving w.cmd).length < fuel) :
    ∃ ret w', getdataLoop handler toread fuel curread w = some (ret, w') := by
  induction fuel generalizing curread w with
  | zero => exact absurd hfuel (Nat.not_lt_zero _)
  | succ fuel ih =>
    by_cases hlt : curread < toread
    · obtain ⟨packets, hframed⟩ := exists_framed (arriving w.cmd)
      obtain ⟨-, w₁, hcmd⟩ | ⟨p, rest, w₁, -, hcmd, -, -, hshort⟩ := cmdRead_cases hframed
      · exact ⟨_, _, by rw [getdataLoop, if_pos hlt, hcmd]⟩
      · rw [getdataLoop_packet hlt hcmd]
        by_cases hdata : p.IsData
        · rw [if_pos hdata]
          by_cases hmuch : toread - curread < (p.passed w₁.beyond).length
          · rw [if_pos hmuch]
            exact ⟨_, _, rfl⟩
          · rw [if_neg hmuch]
            exact ih (by
              show (arriving w₁.cmd).length < fuel
              omega)
        · rw [if_neg hdata]
          exact ih (by omega)
    · exact ⟨_, _, by rw [getdataLoop, if_neg hlt]⟩

/-! ### The whole phase -/

/-- The total that is read from a `START_DATA` packet, whatever the length of its body is. -/
def Packet.announced (beyond : Nat → UInt8) (p : Packet) : Nat :=
  (dtoh32a (peek beyond p.body 4 4) 0).toNat

/-- Behind a `START_DATA` packet the loop begins. -/
theorem getdata_start {handler : Handler τ} {w w' : World τ} {p : Packet}
    (hcmd : cmdRead w = (.ok (p.header, p.body), w')) (htype : p.type = ptpipStartDataPacket) :
    ptpPtpipGetdata handler w =
      getdataLoop handler (p.announced w'.beyond) ((arriving w'.cmd).length + 1) 0
        { w' with log := w'.log ++ [.read .getdata 4 4 p.body.length] } := by
  have hstart : p.header.type = ptpipStartDataPacket := htype
  have hresponse : ptpipStartDataPacket ≠ ptpipCmdResponse := by decide
  rw [ptpPtpipGetdata, hcmd]
  simp only [hstart, if_neg hresponse, ne_eq, not_true_eq_false, if_false]
  rfl

/-- Anything else than a `START_DATA` packet is an error. -/
theorem getdata_other {handler : Handler τ} {w w' : World τ} {p : Packet}
    (hcmd : cmdRead w = (.ok (p.header, p.body), w')) (htype : p.type ≠ ptpipStartDataPacket) :
    ∃ w'', ptpPtpipGetdata handler w = some (ptpRcGeneralError, w'') := by
  have hstart : p.header.type ≠ ptpipStartDataPacket := htype
  rw [ptpPtpipGetdata, hcmd]
  by_cases hresponse : p.header.type = ptpipCmdResponse
  · exact ⟨_, by simp only [if_pos hresponse]; rfl⟩
  · exact ⟨_, by simp only [if_neg hresponse, if_pos hstart]; rfl⟩

theorem DataPackets.flatMap_passed {datas : List Packet} (h : DataPackets datas)
    (beyond : Nat → UInt8) :
    datas.flatMap (Packet.passed beyond) = datas.flatMap Packet.payload := by
  obtain ⟨firsts, last, rfl, hfirsts, hlast, h4⟩ := h
  apply List.flatMap_congr
  intro p hp
  obtain hp | hp := List.mem_append.mp hp
  · exact Packet.passed_eq beyond (.inr (hfirsts p hp).1) (hfirsts p hp).2
  · rw [List.mem_singleton.mp hp]
    exact Packet.passed_eq beyond (.inl hlast) h4

/-- The packets that make up the total are those of a data phase, if what is returned with
`PTP_RC_OK` is one. -/
theorem ReceivesPhase.closed {handler : Handler τ} {w : World τ} {packets : List Packet}
    (hframed : Framed (arriving w.cmd) packets) (h : ReceivesPhase handler packets w)
    {start : Packet} {taken rest : List Packet} (hpackets : packets = start :: taken ++ rest)
    (htype : start.type = ptpipStartDataPacket)
    (hfills : Fills handler w.beyond (start.announced w.beyond) w.priv taken) :
    8 ≤ start.body.length ∧ DataPackets taken ∧
      (taken.flatMap Packet.payload).length = start.total := by
  obtain ⟨ret, w', hrun, hok⟩ := h
  obtain ⟨hnil, -⟩ | ⟨p, ps, w₁, hcons, hcmd, hsame, hrest, -⟩ := cmdRead_cases hframed
  · cases hpackets.symm.trans hnil
  · obtain ⟨rfl, rfl⟩ := List.cons.inj (hpackets.symm.trans hcons)
    have hannounced : start.announced w₁.beyond = start.announced w.beyond := by
      rw [hsame.beyond]
    rw [getdata_start hcmd htype, hannounced] at hrun
    obtain ⟨w₂, hloop, -, hleft⟩ := hfills.getdataLoop
      (w := { w₁ with log := w₁.log ++ [.read .getdata 4 4 start.body.length] }) hrest
      hsame.beyond hsame.priv (Nat.zero_le (start.announced w.beyond)) (Nat.sub_zero _)
      (Nat.lt_succ_self _)
    cases hloop.symm.trans hrun
    obtain ⟨payload, rest', ⟨start', datas, hsplit, -, h8, hdatas, rfl, hlength⟩, -, hleft'⟩ :=
      hok rfl
    cases hleft.unique hleft'
    rw [hpackets] at hsplit
    obtain ⟨rfl, htaken⟩ := List.cons.inj hsplit
    obtain rfl := List.append_cancel_right htaken
    exact ⟨h8, hdatas, hlength⟩

/-- What `ptp_ptpip_getdata` returns with `PTP_RC_OK` is a legal data phase, read up to its
`END_DATA` packet, exactly if packets that make up the announced total always are the ones of
such a phase. -/
theorem getdata_phase_iff {handler : Handler τ} {w : World τ} {packets : List Packet}
    (hframed : Framed (arriving w.cmd) packets) :
    ReceivesPhase handler packets w ↔
      ∀ start taken rest, packets = start :: taken ++ rest → start.type = ptpipStartDataPacket →
        Fills handler w.beyond (start.announced w.beyond) w.priv taken →
        8 ≤ start.body.length ∧ DataPackets taken ∧
          (taken.flatMap Packet.payload).length = start.total := by
  constructor
  · intro h start taken rest hpackets htype hfills
    exact h.closed hframed hpackets htype hfills
  · intro h
    obtain ⟨-, w₁, hcmd⟩ | ⟨p, ps, w₁, rfl, hcmd, hsame, hrest, -⟩ := cmdRead_cases hframed
    · refine ⟨ptpRcGeneralError, w₁, ?_, fun hok => absurd hok (by decide)⟩
      rw [ptpPtpipGetdata, hcmd]
    · by_cases htype : p.type = ptpipStartDataPacket
      · obtain ⟨ret, w', hloop⟩ : ∃ ret w', getdataLoop handler (p.announced w₁.beyond)
            ((arriving w₁.cmd).length + 1) 0
            { w₁ with log := w₁.log ++ [.read .getdata 4 4 p.body.length] } = some (ret, w') :=
          getdataLoop_ends (Nat.lt_succ_self _)
        refine ⟨ret, w', (getdata_start hcmd htype).trans hloop, ?_⟩
        rintro rfl
        obtain ⟨taken, rest, rfl, hfills, hhanded, hleft⟩ :=
          getdataLoop_fills (w := { w₁ with
            log := w₁.log ++ [.read .getdata 4 4 p.body.length] }) hrest hloop (Nat.zero_le _)
        rw [Nat.sub_zero] at hfills
        simp only [hsame.beyond, hsame.priv] at hfills hhanded
        obtain ⟨h8, hdatas, hlength⟩ := h p taken rest rfl htype hfills
        refine ⟨_, rest, ⟨p, taken, rfl, htype, h8, hdatas, rfl, hlength⟩, ?_, hleft⟩
        rw [hhanded, hdatas.flatMap_passed, hsame.handed]
      · obtain ⟨w', hrun⟩ := getdata_other hcmd htype
        exact ⟨_, w', hrun, fun hok => absurd hok (by decide)⟩

theorem incomplete_nil : Incomplete [] := fun p rest h => by
  have hlength := congrArg List.length h
  rw [List.length_append, p.encode_length, List.length_nil] at hlength
  omega

theorem framed_received {packets : List Packet} {bytes : List UInt8}
    (hbytes : packets.flatMap Packet.encode = bytes) (hne : bytes ≠ []) :
    Framed (arriving (World.received bytes ()).cmd) packets := by
  refine ⟨[], ?_, incomplete_nil⟩
  show arriving [.data bytes] = _
  rw [arriving_data _ _ hne, arriving_nil, hbytes]

/-- One byte in an `END_DATA` packet. -/
theorem getdata_phase_one :
    ReceivesPhase Handler.sink [⟨9, [0, 0, 0, 0, 1, 0, 0, 0, 0, 0, 0, 0], by decide⟩,
      ⟨12, [0, 0, 0, 0, 7], by decide⟩] (World.received
        [20, 0, 0, 0, 9, 0, 0, 0, 0, 0, 0, 0, 1, 0, 0, 0, 0, 0, 0, 0,
          13, 0, 0, 0, 12, 0, 0, 0, 0, 0, 0, 0, 7] ()) := by
  refine (getdata_phase_iff (framed_received (by decide) (by decide))).mpr ?_
  intro start taken rest hpackets _ hfills
  obtain ⟨rfl, htaken⟩ := List.cons.inj hpackets
  cases taken with
  | nil => cases hfills
  | cons last others =>
    obtain ⟨rfl, hothers⟩ := List.cons.inj htaken
    obtain ⟨rfl, -⟩ := List.append_eq_nil_iff.mp hothers.symm
    refine ⟨by decide, ⟨[], _, rfl, ?_, rfl, by decide⟩, by decide⟩
    intro d hd
    cases hd

/-- Without a payload, the `END_DATA` packet is left for the response. -/
theorem getdata_leaves_end : ¬ ∀ (τ : Type) (handler : Handler τ) (w : World τ)
    (packets : List Packet), Framed (arriving w.cmd) packets → ReceivesPhase handler packets w := by
  intro h
  have hframed : Framed (arriving (World.received
      [20, 0, 0, 0, 9, 0, 0, 0, 0, 0, 0, 0, 0, 0, 0, 0, 0, 0, 0, 0,
        12, 0, 0, 0, 12, 0, 0, 0, 0, 0, 0, 0] ()).cmd)
      [⟨9, [0, 0, 0, 0, 0, 0, 0, 0, 0, 0, 0, 0], by decide⟩, ⟨12, [0, 0, 0, 0], by decide⟩] :=
    framed_received (by decide) (by decide)
  have hfills : Fills Handler.sink (fun _ => 0) (Packet.announced (fun _ => 0)
      ⟨9, [0, 0, 0, 0, 0, 0, 0, 0, 0, 0, 0, 0], by decide⟩) () [] := by
    have hzero : Packet.announced (fun _ => 0)
        ⟨9, [0, 0, 0, 0, 0, 0, 0, 0, 0, 0, 0, 0], by decide⟩ = 0 := by decide
    rw [hzero]
    exact .done
  obtain ⟨-, hdatas, -⟩ :=
    (h Unit Handler.sink _ _ hframed).closed hframed (List.nil_append _).symm rfl hfills
  obtain ⟨datas, last, hnil, -⟩ := hdatas
  exact absurd hnil (by simp)

end GPhoto2.Ptpip
