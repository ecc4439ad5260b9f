import GPhoto2.Proofs.Konica.Packet

/-!
# `GPhoto2.Proofs.Konica.RoundTrip`: which packets come back as they were sent

A packet comes back if and only if neither byte of its length is `ESC` (`roundTrip_iff`). With an
`ESC` there, `l_receive` takes one byte of the data for a part of the length. Where that happens to
give the right length (`misread`), the `ETX` behind the data is read as the last byte of them, which
`Decodes.unique` shows not to be the data. There is no second try, since no `STX` follows.
-/

set_option autoImplicit false

namespace GPhoto2.Konica

open Lib
open List (append_assoc cons_append mem_cons)
open Lib.Comp (bind_eq_ok bind_run_ok)

/-! ### What the receiver takes for data -/

/-- The data that `l_receive` makes of some bytes. It takes more of them unquoted than `l_send`. -/
inductive Decodes : List UInt8 → List UInt8 → Prop
  | nil : Decodes [] []
  | plain (c : UInt8) (raw data : List UInt8) (control : ¬ (c = stx ∨ c = xoff ∨ c = xon))
      (unquoted : c ≠ esc) (rest : Decodes raw data) : Decodes (c :: raw) (c :: data)
  | quote (c : UInt8) (raw data : List UInt8) (rest : Decodes raw data) :
      Decodes (esc :: c :: raw) (~~~c :: data)

namespace Decodes

variable {raw raw' data data' rest rest' : List UInt8}

theorem append (h : Decodes raw data) (h' : Decodes raw' data') :
    Decodes (raw ++ raw') (data ++ data') := by
  induction h with
  | nil => exact h'
  | plain c raw data control unquoted _ ih => exact .plain c _ _ control unquoted ih
  | quote c raw data _ ih => exact .quote c _ _ ih

theorem stuff (data : List UInt8) : Decodes (escaping.stuff data) data := by
  induction data with
  | nil => exact .nil
  | cons b data ih =>
    rw [Stuffing.stuff_cons]
    cases hb : quoted b with
    | true =>
      rw [stuffByte_quoted hb]
      have h : Decodes (esc :: ~~~b :: escaping.stuff data) (~~~ ~~~b :: data) := .quote _ _ _ ih
      rwa [UInt8.not_not] at h
    | false =>
      rw [stuffByte_plain hb]
      refine .plain b _ _ ?_ (ne_of_plain hb rfl) ih
      rintro (h | h | h)
      · exact ne_of_plain hb rfl h
      · exact ne_of_plain hb rfl h
      · exact ne_of_plain hb rfl h

theorem unique (h : Decodes raw data) (h' : Decodes raw' data') (hraw : raw ++ rest = raw' ++ rest')
    (hlen : data.length = data'.length) : data = data' := by
  induction h generalizing raw' data' with
  | nil => exact (List.eq_nil_of_length_eq_zero hlen.symm).symm
  | plain c raw data control unquoted _ ih =>
    cases h' with
    | nil => cases hlen
    | plain c' raw' data' _ _ hrest =>
      simp only [cons_append, List.cons.injEq] at hraw
      rw [hraw.1, ih hrest hraw.2 (Nat.succ.inj hlen)]
    | quote c' raw' data' hrest =>
      simp only [cons_append, List.cons.injEq] at hraw
      exact absurd hraw.1 unquoted
  | quote c raw data _ ih =>
    cases h' with
    | nil => cases hlen
    | plain c' raw' data' _ unquoted hrest =>
      simp only [cons_append, List.cons.injEq] at hraw
      exact absurd hraw.1.symm unquoted
    | quote c' raw' data' hrest =>
      simp only [cons_append, List.cons.injEq, true_and] at hraw
      rw [hraw.1, ih hrest hraw.2 (Nat.succ.inj hlen)]

end Decodes

variable {s s' : Port}

theorem readByte_ok {b : UInt8} (h : readByte s = some (.ok b, s')) :
    s.incoming = b :: s'.incoming := by
  rw [readByte, bind_eq_ok] at h
  obtain ⟨bytes, s₁, hread, h⟩ := h
  obtain ⟨hlen, hline, -⟩ := Line.read_ok hread
  obtain ⟨c, rfl⟩ := List.length_eq_one_iff.mp hlen
  cases h
  exact hline

theorem unescape_ok {chunk rb rb' : List UInt8} {sum sum' : UInt8}
    (h : unescape chunk rb sum s = some (.ok (some (rb', sum')), s')) :
    ∃ raw data, chunk ++ s.incoming = raw ++ s'.incoming ∧ Decodes raw data ∧ rb' = rb ++ data ∧
      data.length ≤ chunk.length := by
  induction chunk, rb, sum using unescape.induct with
  | case1 rb sum =>
    cases h
    exact ⟨[], [], rfl, .nil, by simp, Nat.le_refl _⟩
  | case2 c rb sum hcontrol =>
    rw [unescape, if_pos hcontrol] at h
    cases h
  | case3 rb sum hcontrol =>
    -- the escape was the last byte that came
    rw [unescape, if_neg hcontrol, if_pos rfl, bind_eq_ok] at h
    obtain ⟨b, s₁, hread, h⟩ := h
    by_cases hb : quoted (~~~b) = true
    · rw [if_pos hb] at h
      cases h
      exact ⟨[esc, b], [~~~b], by rw [readByte_ok hread]; rfl, .quote b [] [] .nil, rfl,
        Nat.le_refl _⟩
    · rw [if_neg hb] at h
      cases h
  | case4 c rb sum hcontrol hesc =>
    rw [unescape, if_neg hcontrol, if_neg hesc] at h
    cases h
    exact ⟨[c], [c], rfl, .plain c [] [] hcontrol hesc .nil, rfl, Nat.le_refl _⟩
  | case5 c b chunk rb sum hcontrol =>
    rw [unescape, if_pos hcontrol] at h
    cases h
  | case6 b chunk rb sum c hb hcontrol ih =>
    rw [unescape, if_neg hcontrol, if_pos rfl, if_pos hb] at h
    obtain ⟨raw, data, hraw, hdata, hrb, hlen⟩ := ih h
    refine ⟨esc :: b :: raw, ~~~b :: data, by rw [cons_append, cons_append, hraw]; rfl,
      .quote b raw data hdata, by rw [hrb, append_assoc]; rfl, ?_⟩
    simp only [List.length_cons]
    omega
  | case7 b chunk rb sum c hb hcontrol =>
    rw [unescape, if_neg hcontrol, if_pos rfl, if_neg hb] at h
    cases h
  | case8 c b chunk rb sum hcontrol hesc ih =>
    rw [unescape, if_neg hcontrol, if_neg hesc] at h
    obtain ⟨raw, data, hraw, hdata, hrb, hlen⟩ := ih h
    refine ⟨c :: raw, c :: data, by rw [cons_append, hraw]; rfl,
      .plain c raw data hcontrol hesc hdata, by rw [hrb, append_assoc]; rfl, ?_⟩
    simp only [List.length_cons] at hlen ⊢
    omega

theorem readData_ok {n fuel : Nat} {rb rb' : List UInt8} {sum sum' : UInt8}
    (hle : rb.length ≤ n) (h : readData n fuel rb sum s = some (.ok (some (rb', sum')), s')) :
    ∃ raw data, s.incoming = raw ++ s'.incoming ∧ Decodes raw data ∧ rb' = rb ++ data ∧
      rb'.length = n := by
  induction fuel generalizing rb sum s with
  | zero => cases h
  | succ fuel ih =>
    rw [readData] at h
    by_cases hlt : rb.length < n
    · rw [if_pos hlt, bind_eq_ok] at h
      obtain ⟨result, s₁, hread, h⟩ := h
      obtain ⟨result', hread, hresult⟩ := Comp.attempt_eq_some.mp hread
      cases hresult
      cases result with
      | error e => cases h
      | ok chunk =>
        obtain ⟨hchunk, hline, -⟩ := Line.read_ok hread
        obtain ⟨got, s₂, hgot, h⟩ := bind_eq_ok.mp h
        cases got with
        | none => cases h
        | some p =>
          obtain ⟨raw, data, hraw, hdata, hrb, hlen⟩ := unescape_ok hgot
          have hroom : p.1.length ≤ n := by
            rw [hrb, List.length_append]
            omega
          obtain ⟨raw', data', hraw', hdata', hrb', hlen'⟩ := ih hroom h
          refine ⟨raw ++ raw', data ++ data', ?_, hdata.append hdata', ?_, hlen'⟩
          · rw [hline, hraw, hraw', append_assoc]
          · rw [hrb', hrb, append_assoc]
    · rw [if_neg hlt] at h
      cases h
      exact ⟨[], [], rfl, .nil, by simp, by omega⟩

theorem readBody_ok {n : Nat} {sum d : UInt8} {rb : List UInt8}
    (h : readBody n sum s = some (.ok (some (rb, d)), s')) :
    ∃ raw rest, s.incoming = raw ++ rest ∧ Decodes raw rb ∧ rb.length = n := by
  rw [readBody, bind_eq_ok] at h
  obtain ⟨got, s₁, hgot, h⟩ := h
  cases got with
  | none =>
    obtain ⟨c, s₂, hc, h⟩ := bind_eq_ok.mp h
    cases h
  | some p =>
    obtain ⟨raw, data, hraw, hdata, hrb, hlen⟩ := readData_ok (Nat.zero_le n) hgot
    obtain ⟨d', s₂, hd', h⟩ := bind_eq_ok.mp h
    obtain ⟨s₃, s₄, hget, h⟩ := bind_eq_ok.mp h
    obtain ⟨u, s₅, hskip, h⟩ := bind_eq_ok.mp h
    obtain ⟨c, s₆, hc, h⟩ := bind_eq_ok.mp h
    by_cases hend : c = p.2 + d' ∧ (d' = etx ∨ d' = etb)
    · rw [if_pos hend] at h
      cases h
      rw [List.nil_append] at hrb
      exact ⟨raw, s₁.incoming, hraw, hrb ▸ hdata, hlen⟩
    · rw [if_neg hend] at h
      cases h

/-! ### No second try -/

/-- No packet begins on the line. -/
def NoStx (s : Port) : Prop := stx ∉ s.incoming

/-- `m` does not bring an `STX` onto the line. -/
abbrev KeepsNoStx {α : Type} (m : Comp Port Int α) : Prop := Comp.Keeps NoStx (fun _ _ => True) m

variable (n fuel : Nat) (rb : List UInt8) (sum b : UInt8)

theorem read_keeps : KeepsNoStx (read n) := by
  intro s r s' hs h
  refine ⟨?_, trivial⟩
  by_cases hn : n ≤ s.incoming.length
  · rw [read, Line.read, if_pos hn] at h
    cases h
    exact fun hmem => hs (List.mem_of_mem_drop hmem)
  · rw [read, Line.read, if_neg hn] at h
    cases h
    exact List.not_mem_nil

theorem readByte_keeps : KeepsNoStx readByte := (read_keeps 1).bind fun _ => .pure _

theorem escRead_keeps : KeepsNoStx escRead := by
  refine readByte_keeps.bind fun c => .ite (fun _ => ?_) fun _ => .pure _
  exact readByte_keeps.bind fun _ => .pure _

theorem unescape_keeps (chunk rb : List UInt8) (sum : UInt8) :
    KeepsNoStx (unescape chunk rb sum) := by
  induction chunk, rb, sum using unescape.induct with
  | case1 rb sum => exact .pure _
  | case2 c rb sum hcontrol =>
    rw [unescape, if_pos hcontrol]
    exact .pure _
  | case3 rb sum hcontrol =>
    rw [unescape, if_neg hcontrol, if_pos rfl]
    refine readByte_keeps.bind fun c => ?_
    exact .ite (fun _ => .pure _) fun _ => .pure _
  | case4 c rb sum hcontrol hesc =>
    rw [unescape, if_neg hcontrol, if_neg hesc]
    exact .pure _
  | case5 c b chunk rb sum hcontrol =>
    rw [unescape, if_pos hcontrol]
    exact .pure _
  | case6 b chunk rb sum c hb hcontrol ih =>
    rw [unescape, if_neg hcontrol, if_pos rfl, if_pos hb]
    exact ih
  | case7 b chunk rb sum c hb hcontrol =>
    rw [unescape, if_neg hcontrol, if_pos rfl, if_neg hb]
    exact .pure _
  | case8 c b chunk rb sum hcontrol hesc ih =>
    rw [unescape, if_neg hcontrol, if_neg hesc]
    exact ih

theorem readData_keeps :
    KeepsNoStx (readData n fuel rb sum) := by
  induction fuel generalizing rb sum with
  | zero => exact .stuck
  | succ fuel ih =>
    rw [readData]
    refine .ite (fun _ => ?_) fun _ => .pure _
    refine (read_keeps _).attempt.bind fun result => ?_
    cases result with
    | error e => exact .pure _
    | ok chunk =>
      refine (unescape_keeps chunk rb sum).bind fun got => ?_
      cases got with
      | none => exact .pure _
      | some p => exact ih p.1 p.2

theorem skipToEnd_keeps (d : UInt8) : KeepsNoStx (skipToEnd fuel d) := by
  induction fuel generalizing d with
  | zero => exact .stuck
  | succ fuel ih =>
    rw [skipToEnd]
    refine .ite (fun _ => ?_) fun _ => .pure _
    exact readByte_keeps.bind fun c => ih c

theorem readBody_keeps : KeepsNoStx (readBody n sum) := by
  refine (readData_keeps n _ [] sum).bind fun got => ?_
  cases got with
  | none => exact escRead_keeps.bind fun _ => .pure _
  | some p =>
    refine readByte_keeps.bind fun d => Comp.Keeps.get.bind fun s => ?_
    refine (skipToEnd_keeps _ d).bind fun _ => escRead_keeps.bind fun c => ?_
    exact .ite (fun _ => .pure _) fun _ => .pure _

/-- Without an `STX` there is no packet. -/
theorem recvPacket_noStx {fuel j : Nat} {packet : List UInt8 × UInt8} (hs : NoStx s) :
    recvPacket fuel j s ≠ some (.ok packet, s') := by
  induction fuel generalizing j s with
  | zero =>
    intro h
    cases h
  | succ fuel ih =>
    intro h
    rw [recvPacket, bind_eq_ok] at h
    obtain ⟨c, s₁, hread, h⟩ := h
    have hline := readByte_ok hread
    by_cases hc : c ≠ stx
    · rw [if_pos hc] at h
      exact ih (fun hmem => hs (by rw [hline]; exact List.mem_cons_of_mem c hmem)) h
    · refine hs ?_
      rw [hline, not_not.mp hc]
      exact List.mem_cons_self

theorem not_ne_stx {b : UInt8} (hb : quoted b = true) : ~~~b ≠ stx := by
  intro h
  have hb' : b = ~~~stx := by rw [← h, UInt8.not_not]
  rw [hb'] at hb
  cases hb

theorem stx_notMem_stuffByte : stx ∉ escaping.stuffByte b := by
  cases hb : quoted b with
  | true =>
    rw [stuffByte_quoted hb]
    simpa [stx, esc] using (not_ne_stx hb).symm
  | false =>
    rw [stuffByte_plain hb]
    simpa using (ne_of_plain hb rfl : b ≠ stx).symm

theorem stx_notMem_stuff (data : List UInt8) : stx ∉ escaping.stuff data := by
  intro h
  obtain ⟨b, -, hb⟩ := List.mem_flatMap.mp h
  exact stx_notMem_stuffByte b hb

/-! ### A length with an `ESC` in it -/

/-- The part of a packet behind the number of its bytes. -/
def body (payload : List UInt8) (checksum : UInt8) : List UInt8 :=
  escaping.stuff payload ++ etx :: escaping.stuffByte checksum

theorem stx_notMem_body (payload : List UInt8) (checksum : UInt8) :
    stx ∉ body payload checksum := by
  rw [body, List.mem_append, mem_cons]
  rintro (h | h | h)
  · exact stx_notMem_stuff payload h
  · cases h
  · exact stx_notMem_stuffByte checksum h

theorem toNat_not : (~~~b).toNat = 255 - b.toNat := by
  rw [UInt8.toNat_not]
  rfl

variable {payload : List UInt8}

/-- With an `ESC` in the length, a byte of the data becomes a part of it. The length that comes out
is right only for data that begin with the complement of `ESC`, which is then missing. -/
theorem misread (hlen : payload.length ≤ 65535)
    (hesc : ¬ Plain payload.length) (checksum : UInt8) (written : List UInt8) :
    ∃ n sum line,
      readPacket ⟨frame payload etx checksum, written⟩ = readBody n sum ⟨line, written⟩ ∧
      stx ∉ line ∧
      (n = payload.length → ∃ tail, payload = ~~~esc :: tail ∧ line = body tail checksum) := by
  have hnumber := lo_hi hlen
  obtain ⟨b, tail, rfl⟩ : ∃ b tail, payload = b :: tail := by
    cases payload with
    | nil => exact absurd (show Plain 0 from ⟨by decide, by decide⟩) hesc
    | cons b tail => exact ⟨b, tail, rfl⟩
  have hframe : frame (b :: tail) etx checksum = lo (b :: tail).length :: hi (b :: tail).length ::
      (escaping.stuffByte b ++ body tail checksum) := by
    rw [frame, body, Stuffing.stuff_cons, append_assoc]
  have hescNat : esc.toNat = 27 := rfl
  rw [hframe]
  generalize (b :: tail).length = n at *
  by_cases hlo : lo n = esc
  · -- the high byte is taken for the low one, and the first byte of the data for the high one
    refine ⟨(~~~(hi n)).toNat + 256 * b.toNat, ~~~(hi n) + b, body tail checksum, ?_,
      stx_notMem_body tail checksum, ?_⟩
    · rw [readPacket, hlo, bind_run_ok (escRead_esc _ _ _),
        bind_run_ok (escRead_stuffByte _ _ _)]
    · intro hn
      have hbyte := b.toNat_lt
      have hhigh := (hi n).toNat_lt
      rw [toNat_not] at hn
      rw [hlo] at hnumber
      have hb : b = ~~~esc := by
        apply UInt8.toNat_inj.mp
        rw [toNat_not]
        omega
      exact ⟨tail, by rw [hb], rfl⟩
  · have hhi : hi n = esc := by
      by_contra hne
      exact hesc ⟨hlo, hne⟩
    rw [hhi] at hnumber ⊢
    have hlow := (lo n).toNat_lt
    cases hb : quoted b with
    | false =>
      refine ⟨(lo n).toNat + 256 * (~~~b).toNat, lo n + ~~~b, body tail checksum, ?_,
        stx_notMem_body tail checksum, ?_⟩
      · rw [stuffByte_plain hb, readPacket, bind_run_ok (escRead_plain hlo _ _)]
        show ((escRead >>= fun d => _) : Comp Port Int _)
          ⟨esc :: b :: body tail checksum, written⟩ = _
        rw [bind_run_ok (escRead_esc _ _ _)]
      · intro hn
        have hbyte := b.toNat_lt
        rw [toNat_not] at hn
        have hb' : b = ~~~esc := by
          apply UInt8.toNat_inj.mp
          rw [toNat_not]
          omega
        exact ⟨tail, by rw [hb'], rfl⟩
    | true =>
      refine ⟨(lo n).toNat + 256 * (~~~esc).toNat, lo n + ~~~esc, ~~~b :: body tail checksum, ?_,
        ?_, ?_⟩
      · rw [stuffByte_quoted hb, readPacket, bind_run_ok (escRead_plain hlo _ _)]
        show ((escRead >>= fun d => _) : Comp Port Int _)
          ⟨esc :: esc :: ~~~b :: body tail checksum, written⟩ = _
        rw [bind_run_ok (escRead_esc _ _ _)]
      · rw [mem_cons]
        rintro (h | h)
        · exact not_ne_stx hb h.symm
        · exact stx_notMem_body tail checksum h
      · intro hn
        rw [toNat_not] at hn
        omega

/-! ### Round trips -/

/-- The loop of `l_receive` that reads one packet. -/
def recvOne : Comp Port Int (List UInt8 × UInt8) := fun s =>
  recvPacket (s.incoming.length + 1) 0 s

/-- The packet that `l_send` writes, `l_receive` reads back. -/
def RoundTrip (payload : List UInt8) : Prop :=
  ∃ packet,
    (∀ rest written, send payload ⟨ack :: ack :: rest, written⟩ =
      some (.ok (), ⟨rest, written ++ (enq :: packet ++ [eot])⟩)) ∧
    ∀ rest written, recvOne ⟨packet ++ rest, written⟩ =
      some (.ok (payload, etx), ⟨rest, written ++ [ack]⟩)

theorem roundTrip_of_plain (hlen : payload.length ≤ 65535)
    (hplain : Plain payload.length) : RoundTrip payload := by
  refine ⟨sendBytes payload, send_run payload, fun rest written => ?_⟩
  rw [sendBytes_eq]
  show recvPacket (_ + 1) 0
    ⟨stx :: (frame payload etx (checksumOf payload etx) ++ rest), written⟩ = _
  rw [recvPacket, bind_run_ok (readByte_run _ _ _), if_neg (by simp),
    bind_run_ok (readPacket_frame hlen hplain (Or.inl rfl) _ _ _), if_pos rfl]
  rfl

/-- Data that begin with a byte which is not `ETX` do not end with `ETX` behind all the others. -/
theorem append_ne_cons {α : Type} [DecidableEq α] {b c : α} (tail : List α) (hbc : b ≠ c) :
    tail ++ [c] ≠ b :: tail := by
  intro h
  have hcount := congrArg (List.count b) h
  rw [List.count_append, List.count_cons_self, List.count_singleton] at hcount
  simp [hbc.symm] at hcount

theorem RoundTrip.plain (hlen : payload.length ≤ 65535)
    (h : RoundTrip payload) : Plain payload.length := by
  by_contra hesc
  obtain ⟨packet, hsend, hrecv⟩ := h
  have hpacket : packet = sendBytes payload := by
    have hboth := (hsend [] []).symm.trans (send_run payload [] [])
    simpa using hboth
  obtain ⟨n, sum, line, hmisread, hline, hright⟩ :=
    misread hlen hesc (checksumOf payload etx) []
  have hrun := hrecv [] []
  rw [hpacket, sendBytes_eq, List.append_nil] at hrun
  unfold recvOne at hrun
  rw [recvPacket, bind_run_ok (readByte_run _ _ _), if_neg (by simp), bind_eq_ok,
    hmisread] at hrun
  obtain ⟨got, s₁, hgot, hrun⟩ := hrun
  have hs₁ : NoStx s₁ := (readBody_keeps n sum ⟨line, []⟩ _ _ hline hgot).1
  cases got with
  | none =>
    have hagain : ((if (0 : Nat) = 2 then Comp.throw gpErrorCorruptedData else do
        write [nack]
        recvPacket _ (0 + 1)) : Comp Port Int _) s₁ = _ := hrun
    rw [if_neg (by decide)] at hagain
    exact recvPacket_noStx (s := ⟨s₁.incoming, s₁.written ++ [nack]⟩) hs₁ hagain
  | some p =>
    have hp : p = (payload, etx) := by
      have hdone : some (Except.ok p, (⟨s₁.incoming, s₁.written ++ [ack]⟩ : Port)) = _ := hrun
      simp only [Option.some.injEq, Prod.mk.injEq, Except.ok.injEq] at hdone
      exact hdone.1
    subst hp
    obtain ⟨raw, rest, hraw, hdata, hlength⟩ := readBody_ok hgot
    obtain ⟨tail, htail, hbody⟩ := hright hlength.symm
    -- the `ETX` is read as the last byte of the data
    have hread : Decodes (escaping.stuff tail ++ [etx]) (tail ++ [etx]) :=
      (Decodes.stuff tail).append (.plain etx [] [] (by decide) (by decide) .nil)
    have hline' : raw ++ rest = (escaping.stuff tail ++ [etx]) ++
        escaping.stuffByte (checksumOf payload etx) := by
      rw [← hraw, hbody, body, append_assoc]
      rfl
    have hsame := hdata.unique hread hline' (by rw [htail]; simp)
    exact append_ne_cons tail (by decide) (hsame.symm.trans htail)

/-- Which packets come back, and that a message is put together from its packets, each of them
asked for up to three times. -/
theorem roundTrip_iff (payload : List UInt8) (hlen : payload.length ≤ 65535) (parts : List Part)
    (hparts : parts ≠ []) (hsound : ∀ p ∈ parts, p.Sound) (rest written : List UInt8) :
    (RoundTrip payload ↔ Plain payload.length) ∧
      ∃ written', receive ⟨enq :: messageBytes parts ++ rest, written⟩ =
        some (.ok (parts.flatMap Part.payload), ⟨rest, written'⟩) :=
  ⟨⟨fun h => h.plain hlen, roundTrip_of_plain hlen⟩,
    receive_message parts hparts hsound rest written⟩

theorem roundTrip_iff_controls :
    (RoundTrip [0x02, 0x03, 0x1b] ↔ Plain 3) ∧
      ∃ written', receive ⟨enq :: messageBytes
          [⟨[⟨[0x1b], etb, 0⟩], [0x1b]⟩, ⟨[], [0x03]⟩] ++ [], []⟩ =
        some (.ok [0x1b, 0x03], ⟨[], written'⟩) :=
  roundTrip_iff [0x02, 0x03, 0x1b] (by decide) [⟨[⟨[0x1b], etb, 0⟩], [0x1b]⟩, ⟨[], [0x03]⟩]
    (by simp)
    (by
      intro p hp
      simp only [mem_cons, List.not_mem_nil, or_false] at hp
      rcases hp with rfl | rfl
      · refine ⟨by decide, ?_, by decide, ⟨by decide, by decide⟩⟩
        intro a ha
        rw [List.mem_singleton.mp ha]
        exact ⟨by decide, ⟨by decide, by decide⟩, Or.inr rfl, by decide⟩
      · exact ⟨by decide, by simp, by decide, ⟨by decide, by decide⟩⟩)
    [] []

/-- A packet of 27 bytes does not come back. -/
theorem not_roundTrip_27 : ¬ RoundTrip (List.replicate 27 0) := by
  intro h
  exact absurd (h.plain (by decide)).1 (by decide)

end GPhoto2.Konica
