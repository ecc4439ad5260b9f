import GPhoto2.Konica.LowLevel

/-!
# `GPhoto2.Proofs.Konica.Packet`: reading the packets of the Konica cameras

`readPacket_frame` says what `l_receive` makes of a packet with a right or a wrong checksum, and
`receive_message` what it makes of a whole message. Both are for packets whose number of bytes has
no `ESC` in it: `l_send` does not quote these two bytes (`sendBytes_eq`), and `l_receive` takes an
`ESC` there for a quote.
-/

set_option autoImplicit false

namespace GPhoto2.Konica

open Lib
open List (append_assoc flatMap_cons length_append length_cons)
open Lib.Comp (bind_run_ok get_bind_run)

/-- The sum over some bytes. -/
def sums (checksum : UInt8) (bytes : List UInt8) : UInt8 := bytes.foldl (· + ·) checksum

variable (checksum : UInt8)

@[simp] theorem sums_nil : sums checksum [] = checksum := rfl

@[simp] theorem sums_cons (b : UInt8) (bytes : List UInt8) :
    sums checksum (b :: bytes) = sums (checksum + b) bytes := rfl

theorem sums_append (xs ys : List UInt8) :
    sums checksum (xs ++ ys) = sums (sums checksum xs) ys := List.foldl_append

variable {b : UInt8}

theorem stuffByte_quoted (h : quoted b = true) :
    escaping.stuffByte b = [esc, ~~~b] := escaping.stuffByte_special h

theorem stuffByte_plain (h : quoted b = false) : escaping.stuffByte b = [b] :=
  escaping.stuffByte_plain h

theorem ne_of_plain {c : UInt8} (hb : quoted b = false) (hc : quoted c = true) : b ≠ c := by
  rintro rfl
  rw [hb] at hc
  cases hc

/-! ### Packets on the line -/

/-- The low byte of the number of bytes. -/
def lo (n : Nat) : UInt8 := UInt8.ofNat n

/-- The high byte. -/
def hi (n : Nat) : UInt8 := UInt8.ofNat (n / 256)

theorem lo_hi {n : Nat} (h : n ≤ 65535) : (lo n).toNat + 256 * (hi n).toNat = n := by
  rw [lo, hi, UInt8.toNat_ofNat', UInt8.toNat_ofNat']
  omega

/-- Neither byte of a number is `ESC`. -/
def Plain (n : Nat) : Prop := lo n ≠ esc ∧ hi n ≠ esc

/-- The checksum of a packet. -/
def checksumOf (payload : List UInt8) (d : UInt8) : UInt8 :=
  sums (lo payload.length + hi payload.length) payload + d

/-- A packet with any checksum, behind its `STX`. -/
def frame (payload : List UInt8) (d checksum : UInt8) : List UInt8 :=
  lo payload.length :: hi payload.length ::
    (escaping.stuff payload ++ d :: escaping.stuffByte checksum)

theorem escapeLoop_eq (sb bytes : List UInt8) (checksum : UInt8) :
    escapeLoop sb bytes checksum = (sb ++ escaping.stuff bytes, sums checksum bytes) := by
  induction bytes generalizing sb checksum with
  | nil => simp [escapeLoop]
  | cons b bytes ih =>
    cases hb : quoted b with
    | true =>
      rw [escapeLoop, if_pos hb, ih, Stuffing.stuff_cons, stuffByte_quoted hb, append_assoc]
      rfl
    | false =>
      rw [escapeLoop, if_neg (by simp [hb]), ih, Stuffing.stuff_cons, stuffByte_plain hb,
        append_assoc]
      rfl

/-- What `l_send` writes. -/
theorem sendBytes_eq (payload : List UInt8) :
    sendBytes payload = stx :: frame payload etx (checksumOf payload etx) := by
  show (if quoted ((escapeLoop _ payload _).2 + etx) then _ else _ : List UInt8) = _
  rw [escapeLoop_eq]
  show (if quoted (checksumOf payload etx) then _ else _ : List UInt8) = _
  cases hsum : quoted (checksumOf payload etx) with
  | true =>
    rw [if_pos rfl, frame, stuffByte_quoted hsum]
    simp [lo, hi, checksumOf]
  | false =>
    rw [if_neg (by simp), frame, stuffByte_plain hsum]
    simp [lo, hi, checksumOf]

/-- `l_send` with a camera that answers at once. -/
theorem send_run (payload rest written : List UInt8) :
    send payload ⟨ack :: ack :: rest, written⟩ =
      some (.ok (), ⟨rest, written ++ (enq :: sendBytes payload ++ [eot])⟩) := by
  show some (Except.ok (), (⟨rest, _ ++ [enq] ++ _ ++ _⟩ : Port)) = _
  simp

/-! ### Reading -/

theorem readByte_run (b : UInt8) (rest written : List UInt8) :
    readByte ⟨b :: rest, written⟩ = some (.ok b, ⟨rest, written⟩) := by
  have hread : read 1 ⟨b :: rest, written⟩ = some (.ok [b], ⟨rest, written⟩) :=
    Line.read_one _ _ _ _
  rw [readByte, bind_run_ok hread]
  rfl

theorem escRead_plain (h : b ≠ esc) (rest written : List UInt8) :
    escRead ⟨b :: rest, written⟩ = some (.ok b, ⟨rest, written⟩) := by
  rw [escRead, bind_run_ok (readByte_run _ _ _), if_neg h]
  rfl

theorem escRead_esc (b : UInt8) (rest written : List UInt8) :
    escRead ⟨esc :: b :: rest, written⟩ = some (.ok (~~~b), ⟨rest, written⟩) := by
  rw [escRead, bind_run_ok (readByte_run _ _ _), if_pos rfl,
    bind_run_ok (readByte_run _ _ _)]
  rfl

/-- `l_esc_read` reads what `l_send` makes of a byte. -/
theorem escRead_stuffByte (b : UInt8) (rest written : List UInt8) :
    escRead ⟨escaping.stuffByte b ++ rest, written⟩ = some (.ok b, ⟨rest, written⟩) := by
  cases hb : quoted b with
  | true =>
    rw [stuffByte_quoted hb]
    show escRead ⟨esc :: ~~~b :: rest, written⟩ = _
    rw [escRead_esc, UInt8.not_not]
  | false =>
    rw [stuffByte_plain hb]
    exact escRead_plain (ne_of_plain hb rfl) rest written

theorem unescape_plain (hb : quoted b = false) (chunk rb : List UInt8)
    (checksum : UInt8) :
    unescape (b :: chunk) rb checksum = unescape chunk (rb ++ [b]) (checksum + b) := by
  have hcontrol : ¬ (b = stx ∨ b = xoff ∨ b = xon) := by
    rintro (h | h | h)
    · exact ne_of_plain hb rfl h
    · exact ne_of_plain hb rfl h
    · exact ne_of_plain hb rfl h
  have hesc : b ≠ esc := ne_of_plain hb rfl
  cases chunk with
  | nil => simp only [unescape, if_neg hcontrol, if_neg hesc]
  | cons c chunk => rw [unescape, if_neg hcontrol, if_neg hesc]

theorem unescape_quoted (hb : quoted b = true) (chunk rb : List UInt8)
    (checksum : UInt8) :
    unescape (esc :: ~~~b :: chunk) rb checksum = unescape chunk (rb ++ [b]) (checksum + b) := by
  rw [unescape, if_neg (by decide), if_pos rfl]
  show (if quoted (~~~ ~~~b) then _ else _ : Comp Port Int _) = _
  rw [UInt8.not_not, if_pos hb]

/-- The loop over bytes that a sender has quoted, up to a `tail` that it has not come to. -/
theorem unescape_stuff (done tail rb : List UInt8) (checksum : UInt8) :
    unescape (escaping.stuff done ++ tail) rb checksum =
      unescape tail (rb ++ done) (sums checksum done) := by
  induction done generalizing rb checksum with
  | nil => simp
  | cons b done ih =>
    rw [Stuffing.stuff_cons, append_assoc]
    cases hb : quoted b with
    | true =>
      rw [stuffByte_quoted hb]
      show unescape (esc :: ~~~b :: (escaping.stuff done ++ tail)) rb checksum = _
      rw [unescape_quoted hb, ih, sums_cons, append_assoc]
      rfl
    | false =>
      rw [stuffByte_plain hb]
      show unescape (b :: (escaping.stuff done ++ tail)) rb checksum = _
      rw [unescape_plain hb, ih, sums_cons, append_assoc]
      rfl

/-- An `ESC` at the end of what was read: the byte behind it is read on its own. -/
theorem unescape_esc (hb : quoted b = true) (rb : List UInt8) (checksum : UInt8)
    (rest written : List UInt8) :
    unescape [esc] rb checksum ⟨~~~b :: rest, written⟩ =
      some (.ok (some (rb ++ [b], checksum + b)), ⟨rest, written⟩) := by
  rw [unescape, if_neg (by decide), if_pos rfl, bind_run_ok (readByte_run _ _ _)]
  show (if quoted (~~~ ~~~b) then _ else _ : Comp Port Int _) _ = _
  rw [UInt8.not_not, if_pos hb]
  rfl

theorem readData_run {n : Nat} (fuel : Nat) {rb left : List UInt8} (checksum : UInt8)
    (hlen : rb.length + left.length = n) (hfuel : left.length < fuel) (rest written : List UInt8) :
    readData n fuel rb checksum ⟨escaping.stuff left ++ rest, written⟩ =
      some (.ok (some (rb ++ left, sums checksum left)), ⟨rest, written⟩) := by
  induction fuel generalizing rb left checksum with
  | zero => omega
  | succ fuel ih =>
    by_cases hleft : left = []
    · subst hleft
      rw [List.length_nil] at hlen
      rw [readData, if_neg (by omega)]
      simp
    · have hpos : 0 < left.length := List.length_pos_iff.mpr hleft
      have hcount : ((escaping.stuff left).take left.length).length = n - rb.length := by
        rw [List.length_take_of_le (escaping.length_le_length_stuff left)]
        omega
      have hread : Comp.attempt (read (n - rb.length)) ⟨escaping.stuff left ++ rest, written⟩ =
          some (.ok (.ok ((escaping.stuff left).take left.length)),
            ⟨(escaping.stuff left).drop left.length ++ rest, written⟩) := by
        have hsplit : escaping.stuff left ++ rest = (escaping.stuff left).take left.length ++
            ((escaping.stuff left).drop left.length ++ rest) := by
          rw [← append_assoc, List.take_append_drop]
        rw [Comp.attempt, hsplit, read, Line.read_run _ hcount]
      rw [readData, if_pos (by omega), bind_run_ok hread]
      have hround : ∃ done behind, left = done ++ behind ∧ done ≠ [] ∧
          unescape ((escaping.stuff left).take left.length) rb checksum
              ⟨(escaping.stuff left).drop left.length ++ rest, written⟩ =
            some (.ok (some (rb ++ done, sums checksum done)),
              ⟨escaping.stuff behind ++ rest, written⟩) := by
        cases escaping.stuff_cut (List.take_append_drop left.length _).symm with
        | between done behind hdata hbefore hbehind =>
          refine ⟨done, behind, hdata, ?_, ?_⟩
          · rintro rfl
            rw [hbefore, Stuffing.stuff_nil, List.length_nil] at hcount
            omega
          · rw [hbefore, hbehind, ← List.append_nil (escaping.stuff done), unescape_stuff]
            rfl
        | escape done b behind hdata hspecial hbefore hbehind =>
          refine ⟨done ++ [b], behind, by rw [hdata, append_assoc]; rfl, by simp, ?_⟩
          rw [hbefore, hbehind, unescape_stuff]
          show unescape [esc] _ _ ⟨~~~b :: (escaping.stuff behind ++ rest), written⟩ = _
          rw [unescape_esc hspecial, append_assoc, sums_append]
          rfl
      obtain ⟨done, behind, hdata, hdone, hrun⟩ := hround
      have hdonePos : 0 < done.length := List.length_pos_iff.mpr hdone
      have hlength : left.length = done.length + behind.length := by
        rw [hdata, length_append]
      show ((unescape _ rb checksum >>= fun r => _) : Comp Port Int _) _ = _
      rw [bind_run_ok hrun]
      show readData n fuel (rb ++ done) (sums checksum done) _ = _
      rw [ih _ (by rw [length_append]; omega) (by omega), hdata, append_assoc, sums_append]

variable {payload : List UInt8}

theorem readBody_run {d : UInt8} (hd : d = etx ∨ d = etb)
    (sum checksum : UInt8) (rest written : List UInt8) :
    readBody payload.length sum
        ⟨escaping.stuff payload ++ (d :: escaping.stuffByte checksum ++ rest), written⟩ =
      some (.ok (if checksum = sums sum payload + d then some (payload, d) else none),
        ⟨rest, written⟩) := by
  have hskip : ∀ (fuel : Nat) (s : Port), skipToEnd (fuel + 1) d s = some (.ok (), s) := by
    intro fuel s
    rw [skipToEnd, if_neg (by rintro ⟨hetx, hetb⟩; exact hd.elim hetx hetb)]
    rfl
  rw [readBody, bind_run_ok (readData_run _ _ (by simp) (Nat.lt_succ_self _) _ _)]
  show ((readByte >>= fun d => _) : Comp Port Int _)
    ⟨d :: (escaping.stuffByte checksum ++ rest), written⟩ = _
  rw [bind_run_ok (readByte_run _ _ _), get_bind_run, bind_run_ok (hskip _ _),
    bind_run_ok (escRead_stuffByte _ _ _)]
  by_cases hsum : checksum = sums sum payload + d
  · rw [if_pos ⟨hsum, hd⟩, if_pos hsum]
    rfl
  · rw [if_neg fun h => hsum h.1, if_neg hsum]
    rfl

theorem readPacket_frame (hlen : payload.length ≤ 65535)
    (hplain : Plain payload.length) {d : UInt8} (hd : d = etx ∨ d = etb) (checksum : UInt8)
    (rest written : List UInt8) :
    readPacket ⟨frame payload d checksum ++ rest, written⟩ =
      some (.ok (if checksum = checksumOf payload d then some (payload, d) else none),
        ⟨rest, written⟩) := by
  show readPacket ⟨lo payload.length :: hi payload.length ::
    ((escaping.stuff payload ++ d :: escaping.stuffByte checksum) ++ rest), written⟩ = _
  rw [readPacket, bind_run_ok (escRead_plain hplain.1 _ _),
    bind_run_ok (escRead_plain hplain.2 _ _), append_assoc, lo_hi hlen]
  exact readBody_run hd _ checksum rest written

/-! ### Messages -/

/-- A packet as it arrives. -/
structure Arrival where
  payload : List UInt8
  d : UInt8
  checksum : UInt8

namespace Arrival

def bytes (a : Arrival) : List UInt8 := stx :: frame a.payload a.d a.checksum

/-- It arrives with a wrong checksum. -/
structure Wrong (a : Arrival) : Prop where
  length : a.payload.length ≤ 65535
  plain : Plain a.payload.length
  finish : a.d = etx ∨ a.d = etb
  checksum : a.checksum ≠ checksumOf a.payload a.d

end Arrival

/-- A packet of a message, and what arrives before it does. -/
structure Part where
  wrong : List Arrival
  payload : List UInt8

namespace Part

def bytes (p : Part) (d : UInt8) : List UInt8 :=
  p.wrong.flatMap Arrival.bytes ++
    (stx :: frame p.payload d (checksumOf p.payload d) ++ [eot])

/-- It arrives intact at the third time, or before. -/
structure Sound (p : Part) : Prop where
  few : p.wrong.length ≤ 2
  arrivals : ∀ a ∈ p.wrong, a.Wrong
  length : p.payload.length ≤ 65535
  plain : Plain p.payload.length

end Part

variable (parts : List Part)

/-- What a camera sends for a message, once it has said that it would like to. -/
def messageBytes : List Part → List UInt8
  | [] => []
  | [p] => p.bytes etx
  | p :: q :: parts => p.bytes etb ++ enq :: messageBytes (q :: parts)

/-- A packet is asked for again until it arrives intact, and is returned once. -/
theorem recvPacket_run (hlen : payload.length ≤ 65535)
    (hplain : Plain payload.length) {d : UInt8} (hd : d = etx ∨ d = etb) (bads : List Arrival)
    (hbads : ∀ a ∈ bads, a.Wrong) {fuel j : Nat} (hfuel : bads.length < fuel)
    (hj : j + bads.length ≤ 2) (rest written : List UInt8) :
    ∃ written', recvPacket fuel j ⟨bads.flatMap Arrival.bytes ++
        (stx :: frame payload d (checksumOf payload d) ++ rest), written⟩ =
      some (.ok (payload, d), ⟨rest, written'⟩) := by
  induction bads generalizing fuel j written with
  | nil =>
    obtain ⟨fuel, rfl⟩ : ∃ n, fuel = n + 1 := ⟨fuel - 1, by omega⟩
    refine ⟨written ++ [ack], ?_⟩
    show recvPacket (fuel + 1) j
      ⟨stx :: (frame payload d (checksumOf payload d) ++ rest), written⟩ = _
    rw [recvPacket, bind_run_ok (readByte_run _ _ _), if_neg (by simp),
      bind_run_ok (readPacket_frame hlen hplain hd _ _ _), if_pos rfl]
    rfl
  | cons a bads ih =>
    rw [length_cons] at hfuel hj
    obtain ⟨fuel, rfl⟩ : ∃ n, fuel = n + 1 := ⟨fuel - 1, by omega⟩
    have ha := hbads a (by simp)
    obtain ⟨written', hrest⟩ := @ih (fun b hb => hbads b (by simp [hb])) fuel (j + 1) (by omega)
      (by omega) (written ++ [nack])
    refine ⟨written', ?_⟩
    rw [flatMap_cons, append_assoc]
    show recvPacket (fuel + 1) j ⟨stx :: (frame a.payload a.d a.checksum ++ _), written⟩ = _
    rw [recvPacket, bind_run_ok (readByte_run _ _ _), if_neg (by simp),
      bind_run_ok (readPacket_frame ha.length ha.plain ha.finish _ _ _), if_neg ha.checksum]
    show ((if j = 2 then _ else _ : Comp Port Int _) _) = _
    rw [if_neg (by omega)]
    exact hrest

theorem Part.recv_run (p : Part) (hp : p.Sound) {d : UInt8} (hd : d = etx ∨ d = etb)
    (rest written : List UInt8) :
    ∃ written', recvPacket ((p.bytes d ++ rest).length + 1) 0 ⟨p.bytes d ++ rest, written⟩ =
      some (.ok (p.payload, d), ⟨eot :: rest, written'⟩) := by
  have hfuel : p.wrong.length < (p.bytes d ++ rest).length + 1 := by
    have hcount : p.wrong.length ≤ (p.wrong.flatMap Arrival.bytes).length := by
      generalize p.wrong = bads
      induction bads with
      | nil => simp
      | cons a bads ih =>
        rw [flatMap_cons, length_append, length_cons, Arrival.bytes, length_cons]
        omega
    rw [Part.bytes, length_append, length_append]
    omega
  have hbytes : p.bytes d ++ rest = p.wrong.flatMap Arrival.bytes ++
      (stx :: frame p.payload d (checksumOf p.payload d) ++ (eot :: rest)) := by
    simp [Part.bytes]
  obtain ⟨written', hrun⟩ := recvPacket_run (j := 0) hp.length hp.plain hd p.wrong hp.arrivals
    hfuel (by rw [Nat.zero_add]; exact hp.few) (eot :: rest) written
  exact ⟨written', by rw [← hbytes] at hrun; exact hrun⟩

theorem recvPackets_run (hne : parts ≠ []) (hparts : ∀ p ∈ parts, p.Sound)
    {fuel : Nat} (hfuel : parts.length ≤ fuel) (rb rest written : List UInt8) :
    ∃ written', recvPackets fuel rb ⟨messageBytes parts ++ rest, written⟩ =
      some (.ok (rb ++ parts.flatMap Part.payload), ⟨rest, written'⟩) := by
  induction parts generalizing fuel rb written with
  | nil => exact absurd rfl hne
  | cons p parts ih =>
    rw [length_cons] at hfuel
    obtain ⟨fuel, rfl⟩ : ∃ n, fuel = n + 1 := ⟨fuel - 1, by omega⟩
    have hp := hparts p (by simp)
    cases parts with
    | nil =>
      obtain ⟨written', hrun⟩ := p.recv_run hp (Or.inl rfl) rest written
      refine ⟨written', ?_⟩
      show recvPackets (fuel + 1) rb ⟨p.bytes etx ++ rest, written⟩ = _
      rw [recvPackets, get_bind_run, bind_run_ok hrun,
        bind_run_ok (readByte_run _ _ _), if_neg (by simp), if_pos rfl]
      simp
    | cons q parts =>
      obtain ⟨written₁, hrun⟩ := p.recv_run hp (Or.inr rfl)
        (enq :: (messageBytes (q :: parts) ++ rest)) written
      obtain ⟨written', hrest⟩ := @ih (by simp) (fun r hr => hparts r (by simp [hr])) fuel
        (by omega) (rb ++ p.payload) (written₁ ++ [ack])
      refine ⟨written', ?_⟩
      have hbytes : messageBytes (p :: q :: parts) ++ rest =
          p.bytes etb ++ enq :: (messageBytes (q :: parts) ++ rest) := by
        simp [messageBytes]
      rw [hbytes, recvPackets, get_bind_run, bind_run_ok hrun,
        bind_run_ok (readByte_run _ _ _), if_neg (by simp),
        if_neg (show ¬ etb = etx by decide), bind_run_ok (readByte_run _ _ _),
        if_neg (by simp), flatMap_cons,
        ← append_assoc]
      exact hrest

theorem receive_message (hne : parts ≠ []) (hparts : ∀ p ∈ parts, p.Sound)
    (rest written : List UInt8) :
    ∃ written', receive ⟨enq :: messageBytes parts ++ rest, written⟩ =
      some (.ok (parts.flatMap Part.payload), ⟨rest, written'⟩) := by
  have hcount : parts.length ≤ (messageBytes parts ++ rest).length + 1 := by
    rw [length_append]
    clear hne hparts
    induction parts with
    | nil => simp
    | cons p parts ih =>
      cases parts with
      | nil =>
        rw [List.length_singleton]
        omega
      | cons q parts =>
        simp only [messageBytes, length_append, length_cons] at ih ⊢
        omega
  obtain ⟨written', hrun⟩ := recvPackets_run parts hne hparts hcount [] rest (written ++ [ack])
  refine ⟨written', ?_⟩
  show receive ⟨enq :: (messageBytes parts ++ rest), written⟩ = _
  have hwait : waitEnq 10 ⟨enq :: (messageBytes parts ++ rest), written⟩ =
      some (.ok (), ⟨messageBytes parts ++ rest, written⟩) := by
    rw [waitEnq, bind_run_ok (readByte_run _ _ _), if_pos rfl]
    rfl
  rw [receive, bind_run_ok hwait]
  exact hrun

end GPhoto2.Konica
