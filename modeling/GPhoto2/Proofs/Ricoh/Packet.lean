import GPhoto2.Ricoh.Packet

/-!
# `GPhoto2.Proofs.Ricoh.Packet`: a packet comes back as it was sent

`send_run` says what `ricoh_send` writes. `recvData_run` says that `ricoh_recv` gets the data out of
it, wherever its reads end: `Pending` is what holds between two reads, and `Pending.round` what one
read makes of it.

All of this is for data of at most 253 bytes. A longer packet is never accepted, since the footer
holds the length plus 2 in one byte.
-/

set_option autoImplicit false

namespace GPhoto2.Ricoh

open Lib
open List (append_assoc cons_append length_append length_cons length_drop length_nil nil_append
  take_append_drop)
open Lib.Comp (bind_run_ok)

variable (crc : UInt32) (cmd number b : UInt8) (rest written data : List UInt8)

@[simp] theorem updcrcs_nil : updcrcs crc [] = crc := rfl

@[simp] theorem updcrcs_cons (bytes : List UInt8) :
    updcrcs crc (b :: bytes) = updcrcs (updcrc b crc) bytes := rfl

theorem updcrcs_append (xs ys : List UInt8) :
    updcrcs crc (xs ++ ys) = updcrcs (updcrcs crc xs) ys := List.foldl_append

theorem special_iff : escaping.special b = true ↔ b = dle := by
  show (b == dle) = true ↔ _
  exact beq_iff_eq

theorem stuffByte_dle : escaping.stuffByte dle = [dle, dle] := rfl

theorem stuffByte_ne {b : UInt8} (h : b ≠ dle) : escaping.stuffByte b = [b] := by
  refine escaping.stuffByte_plain ?_
  show (b == dle) = false
  simpa using h

/-! ### Sending -/

/-- What a packet is on the line. -/
def frame (cmd number : UInt8) (data : List UInt8) : List UInt8 :=
  let len := UInt8.ofNat data.length
  let crc := updcrcs (updcrc len (updcrc cmd 0)) data
  [dle, stx, cmd, len] ++ (escaping.stuff data ++
    [dle, etx, crc.toUInt8, (crc >>> 8).toUInt8, len + 2, number])

theorem sendData_run (chunk data : List UInt8) (crc : UInt32) (incoming written : List UInt8) :
    sendData chunk data crc ⟨incoming, written⟩ =
      some (.ok (updcrcs crc data), ⟨incoming, written ++ (chunk ++ escaping.stuff data)⟩) := by
  induction data generalizing chunk crc written with
  | nil =>
    cases chunk with
    | nil => simp [sendData]
    | cons b chunk =>
      show some (Except.ok crc, (⟨incoming, written ++ b :: chunk⟩ : Port)) = _
      simp
  | cons b data ih =>
    by_cases hb : b = dle
    · rw [sendData, if_pos hb]
      show sendData [] data _ ⟨incoming, written ++ (chunk ++ [b]) ++ [dle]⟩ = _
      rw [ih, hb, Stuffing.stuff_cons, stuffByte_dle]
      simp
    · rw [sendData, if_neg hb, ih, Stuffing.stuff_cons, stuffByte_ne hb]
      simp

/-- `ricoh_send` drops what comes in, and writes the packet. -/
theorem send_run (s : Port) :
    send cmd number data s = some (.ok (), ⟨[], s.written ++ frame cmd number data⟩) := by
  show ((sendData [] data _ >>= fun crc => write _) : Comp Port Int Unit)
    ⟨[], s.written ++ [dle, stx, cmd, UInt8.ofNat data.length]⟩ = _
  rw [bind_run_ok (sendData_run _ _ _ _ _)]
  show some (Except.ok (), (⟨[], _ ++ _⟩ : Port)) = _
  simp [frame]

/-! ### Taking the escapes out -/

theorem memmove_run (out raw junk : List UInt8) (b : UInt8) :
    ∃ junk', junk'.length = junk.length + 1 ∧
      memmove (out ++ b :: (raw ++ junk)) out.length (out.length + 1) raw.length =
        out ++ (raw ++ junk') := by
  refine ⟨(out ++ b :: (raw ++ junk)).drop (out.length + raw.length), ?_, ?_⟩
  · simp only [length_drop, length_append, length_cons]
    omega
  · have hfirst : (out ++ b :: (raw ++ junk)).take out.length = out := by simp
    have hsecond : ((out ++ b :: (raw ++ junk)).drop (out.length + 1)).take raw.length = raw := by
      simp
    rw [memmove, hfirst, hsecond, append_assoc]

section

variable {len i fuel : Nat} {out : List UInt8} {crc : UInt32}

theorem getD_next (out more : List UInt8) (b : UInt8) :
    (out ++ b :: more).getD out.length 0 = b := by simp

variable (more : List UInt8) (b : UInt8) (flag : Bool)

theorem Got.count_run (hi : i ≠ len) :
    Got.count len i ⟨out ++ b :: more, out.length, flag, crc⟩ =
      ⟨out ++ b :: more, out.length + 1, flag, updcrc b crc⟩ := by
  simp only [Got.count, getD_next, if_pos hi]

theorem Got.count_last :
    Got.count len len ⟨out ++ b :: more, out.length, flag, crc⟩ =
      ⟨out ++ b :: more, out.length, true, updcrc b crc⟩ := by
  simp only [Got.count, getD_next, ne_eq, not_true_eq_false, if_false]

theorem unescape_end (g : Got) (hi : len ≤ i) (s : Port) :
    unescape len (fuel + 1) i g s = some (.ok g, s) := by
  rw [unescape, if_neg (by omega)]
  rfl

theorem unescape_plain {b : UInt8} (hb : b ≠ dle) (hi : i < len)
    (hlen : len ≤ 253) (flag : Bool) :
    unescape len (fuel + 1) i ⟨out ++ b :: more, out.length, flag, crc⟩ =
      unescape len fuel (i + 1) ⟨out ++ b :: more, out.length + 1, flag, updcrc b crc⟩ := by
  rw [unescape, if_pos hi, getD_next, if_neg hb, Nat.mod_eq_of_lt (by omega),
    Got.count_run _ _ _ (by omega)]

/-- Two `DLE`s in a row. -/
theorem unescape_pair (raw junk : List UInt8) (hi : i + (raw.length + 2) = len) (hlen : len ≤ 253)
    (flag : Bool) :
    ∃ junk', junk'.length = junk.length + 1 ∧
      unescape len (fuel + 1) i ⟨out ++ dle :: (dle :: raw ++ junk), out.length, flag, crc⟩ =
        unescape len fuel (i + 2)
          ⟨out ++ (dle :: raw ++ junk'), out.length + 1, flag, updcrc dle crc⟩ := by
  obtain ⟨junk', hjunk, hmove⟩ := memmove_run out (dle :: raw) junk dle
  have hsize : ¬ out.length + (len - i) > (out ++ dle :: (dle :: raw ++ junk)).length := by
    simp only [length_append, length_cons]
    omega
  have hnext : (out ++ dle :: (dle :: raw ++ junk)).getD (out.length + 1) 0 = dle := by simp
  have hcount : len - i - 1 = (dle :: raw).length := by
    rw [length_cons]
    omega
  refine ⟨junk', hjunk, ?_⟩
  rw [unescape, if_pos (by omega), getD_next, if_pos rfl, hnext, if_neg (by simp), if_neg hsize,
    hcount, hmove, Nat.mod_eq_of_lt (by omega)]
  show unescape len fuel (i + 2) (Got.count len (i + 1) ⟨out ++ dle :: (raw ++ junk'), _, _, _⟩) = _
  rw [Got.count_run _ _ _ (by omega)]
  rfl

/-- A `DLE` at the end of what was read. -/
theorem unescape_last (junk : List UInt8) (hi : i + 1 = len) (hlen : len ≤ 253)
    (flag : Bool) :
    ∃ junk', junk'.length = junk.length + 1 ∧
      ∀ s, unescape len (fuel + 2) i ⟨out ++ dle :: junk, out.length, flag, crc⟩ s =
        some (.ok ⟨out ++ junk', out.length, true, updcrc dle crc⟩, s) := by
  have hsize : ¬ out.length + (len - i) > (out ++ dle :: junk).length := by
    simp only [length_append, length_cons]
    omega
  have hmove : memmove (out ++ dle :: junk) out.length (out.length + 1) (len - i - 1) =
      out ++ dle :: junk := by
    have hnone : len - i - 1 = 0 := by omega
    simp [memmove, hnone]
  refine ⟨dle :: junk, rfl, fun s => ?_⟩
  rw [unescape, if_pos (by omega), getD_next, if_pos rfl, if_neg (by simp [hi]), if_neg hsize,
    hmove, hi, Got.count_last, Nat.mod_eq_of_lt (by omega), unescape_end _ (by omega)]

/-- The inner loop over data that are escaped, up to a `tail` that it has not come to. -/
theorem unescape_stuff (done tail junk : List UInt8) (flag : Bool)
    (hi : i + ((escaping.stuff done).length + tail.length) = len) (hlen : len ≤ 253) :
    ∃ junk', (done ++ junk').length = (escaping.stuff done ++ junk).length ∧
      unescape len (fuel + done.length) i
          ⟨out ++ (escaping.stuff done ++ (tail ++ junk)), out.length, flag, crc⟩ =
        unescape len fuel (len - tail.length)
          ⟨(out ++ done) ++ (tail ++ junk'), (out ++ done).length, flag, updcrcs crc done⟩ := by
  induction done generalizing i out crc junk with
  | nil =>
    have hstart : i = len - tail.length := by
      simp only [Stuffing.stuff_nil, length_nil] at hi
      omega
    refine ⟨junk, rfl, ?_⟩
    rw [hstart]
    simp
  | cons b done ih =>
    have hfuel : fuel + (b :: done).length = (fuel + done.length) + 1 := by
      rw [length_cons]
      omega
    have hlength : out.length + 1 = (out ++ [b]).length := by simp
    by_cases hb : b = dle
    · subst hb
      rw [Stuffing.stuff_cons, stuffByte_dle] at hi ⊢
      simp only [length_append, length_cons, length_nil] at hi
      obtain ⟨junk₁, hjunk₁, hrun⟩ := @unescape_pair len i (fuel + done.length) out crc
        (escaping.stuff done ++ tail) junk (by simp; omega) hlen flag
      obtain ⟨junk', hjunk', hrest⟩ := @ih (i + 2) (out ++ [dle]) (updcrc dle crc) junk₁ (by omega)
      refine ⟨junk', ?_, ?_⟩
      · simp only [length_append, length_cons, length_nil] at hjunk' ⊢
        omega
      · rw [hfuel]
        simp only [cons_append, nil_append, append_assoc] at hrun hrest ⊢
        rw [hrun, hlength, hrest]
        simp
    · rw [Stuffing.stuff_cons, stuffByte_ne hb] at hi ⊢
      simp only [length_append, length_cons, length_nil] at hi
      obtain ⟨junk', hjunk', hrest⟩ := @ih (i + 1) (out ++ [b]) (updcrc b crc) junk (by omega)
      refine ⟨junk', ?_, ?_⟩
      · simp only [length_append, length_cons, length_nil] at hjunk' ⊢
        omega
      · rw [hfuel]
        simp only [cons_append, nil_append, append_assoc] at hrest ⊢
        rw [unescape_plain _ hb (by omega) hlen, hlength, hrest]
        simp

end

/-! ### Between two reads -/

/-- What is in the buffer, and what of the data is still on the line. Where the last read ended
behind an escape, the byte itself counts for the checksum already, but not for `r`. -/
inductive Pending (payload : List UInt8) (crc : UInt32) : Got → List UInt8 → Prop
  | between (done left junk : List UInt8) (hpayload : payload = done ++ left) :
      Pending payload crc ⟨done ++ junk, done.length, false, updcrcs crc done⟩ (escaping.stuff left)
  | escaped (done left junk : List UInt8) (hpayload : payload = done ++ dle :: left) :
      Pending payload crc ⟨done ++ junk, done.length, true, updcrcs crc (done ++ [dle])⟩
        (dle :: escaping.stuff left)

section

variable {payload : List UInt8} {crc : UInt32}

/-- The inner loop over a part of the data, read as far as they could reach. -/
theorem unescape_chunk {out left chunk more : List UInt8} (junk : List UInt8)
    (hpayload : payload = out ++ left) (hlen : payload.length ≤ 253)
    (hchunk : chunk.length = left.length) (hcut : escaping.stuff left = chunk ++ more) :
    ∃ g, (∀ s, unescape payload.length 256 out.length
          ⟨out ++ (chunk ++ junk), out.length, false, updcrcs crc out⟩ s = some (.ok g, s)) ∧
      Pending payload crc g more ∧ g.data.length = (out ++ (chunk ++ junk)).length := by
  have hlength : payload.length = out.length + left.length := by rw [hpayload, length_append]
  cases escaping.stuff_cut hcut with
  | between done behind hdata hbefore hbehind =>
    have hdone : left.length = done.length + behind.length := by rw [hdata, length_append]
    obtain ⟨junk', hjunk, hrun⟩ := @unescape_stuff payload.length out.length (256 - done.length) out
      (updcrcs crc out) done [] junk false (by rw [← hbefore, hchunk, hlength]; rfl) hlen
    obtain ⟨fuel, hfuel⟩ : ∃ fuel, 256 - done.length = fuel + 1 :=
      ⟨255 - done.length, by omega⟩
    refine ⟨⟨(out ++ done) ++ junk', (out ++ done).length, false, updcrcs crc (out ++ done)⟩,
      ?_, ?_, ?_⟩
    · have hall : 256 - done.length + done.length = 256 := by omega
      rw [hall, hfuel, nil_append, ← hbefore] at hrun
      intro s
      rw [hrun, unescape_end _ (by simp), updcrcs_append]
      rfl
    · rw [hbehind]
      exact .between (out ++ done) behind junk' (by rw [hpayload, hdata, append_assoc])
    · rw [hbefore]
      simp only [length_append] at hjunk ⊢
      omega
  | escape done b behind hdata hspecial hbefore hbehind =>
    obtain rfl : b = dle := (special_iff b).mp hspecial
    have hdone : left.length = done.length + (behind.length + 1) := by
      rw [hdata, length_append, length_cons]
    have hread : chunk.length = (escaping.stuff done).length + 1 := by
      rw [hbefore, length_append]
      rfl
    obtain ⟨junk₁, hjunk₁, hrun⟩ := @unescape_stuff payload.length out.length (256 - done.length)
      out (updcrcs crc out) done [dle] junk false
      (by rw [List.length_singleton, ← hread, hchunk, hlength]) hlen
    obtain ⟨fuel, hfuel⟩ : ∃ fuel, 256 - done.length = fuel + 2 :=
      ⟨254 - done.length, by omega⟩
    obtain ⟨junk', hjunk', hlast⟩ := @unescape_last payload.length (payload.length - 1) fuel
      (out ++ done) (updcrcs (updcrcs crc out) done) junk₁ (by omega) hlen false
    refine ⟨⟨(out ++ done) ++ junk', (out ++ done).length, true,
      updcrcs crc ((out ++ done) ++ [dle])⟩, ?_, ?_, ?_⟩
    · have hall : 256 - done.length + done.length = 256 := by omega
      have hchunk' : chunk ++ junk = escaping.stuff done ++ ([dle] ++ junk) := by
        rw [hbefore, append_assoc]
        rfl
      rw [hall, hfuel, ← hchunk'] at hrun
      intro s
      rw [hrun, updcrcs_append, updcrcs_append]
      exact hlast s
    · rw [hbehind]
      exact .escaped (out ++ done) behind junk' (by rw [hpayload, hdata, append_assoc])
    · rw [hbefore]
      simp only [length_append, length_cons, length_nil] at hjunk₁ hjunk' ⊢
      omega

theorem Pending.round {g : Got} {pending : List UInt8} (h : Pending payload crc g pending)
    (hlen : payload.length ≤ 253) (hsize : payload.length ≤ g.data.length)
    (hr : g.r < payload.length) :
    ∃ chunk more, pending = chunk ++ more ∧ chunk.length = payload.length - g.r ∧
      ∃ g', (∀ s, unescape payload.length 256 (g.take payload.length chunk).r
          (g.take payload.length chunk) s = some (.ok g', s)) ∧
        Pending payload crc g' more ∧ g'.data.length = g.data.length := by
  cases h with
  | between done left junk hpayload =>
    have hlength : payload.length = done.length + left.length := by
      rw [hpayload, length_append]
    have hchunk : ((escaping.stuff left).take left.length).length = left.length :=
      List.length_take_of_le (escaping.length_le_length_stuff left)
    have htake : Got.take payload.length ((escaping.stuff left).take left.length)
        ⟨done ++ junk, done.length, false, updcrcs crc done⟩ =
        ⟨done ++ ((escaping.stuff left).take left.length ++ junk.drop left.length), done.length,
          false, updcrcs crc done⟩ := by
      simp [Got.take, hlength, List.drop_append]
    refine ⟨_, _, (take_append_drop left.length _).symm, ?_, ?_⟩
    · show _ = payload.length - done.length
      omega
    · obtain ⟨g', hrun, hpending, hdata⟩ := unescape_chunk (junk.drop left.length) hpayload hlen
        hchunk (take_append_drop left.length _).symm
      rw [htake]
      refine ⟨g', hrun, hpending, ?_⟩
      rw [hdata]
      simp only [length_append, length_drop] at hsize ⊢
      omega
  | escaped done left junk hpayload =>
    have hlength : payload.length = done.length + (left.length + 1) := by
      rw [hpayload, length_append, length_cons]
    have hchunk : ((escaping.stuff left).take left.length).length = left.length :=
      List.length_take_of_le (escaping.length_le_length_stuff left)
    have htake : Got.take payload.length (dle :: (escaping.stuff left).take left.length)
        ⟨done ++ junk, done.length, true, updcrcs crc (done ++ [dle])⟩ =
        ⟨(done ++ [dle]) ++ ((escaping.stuff left).take left.length ++ junk.drop (left.length + 1)),
          (done ++ [dle]).length, false, updcrcs crc (done ++ [dle])⟩ := by
      simp [Got.take, hlength, List.drop_append]
    refine ⟨dle :: (escaping.stuff left).take left.length, (escaping.stuff left).drop left.length,
      ?_, ?_, ?_⟩
    · rw [cons_append, take_append_drop]
    · show _ = payload.length - done.length
      rw [length_cons]
      omega
    · have hpayload' : payload = (done ++ [dle]) ++ left := by
        rw [hpayload, append_assoc]
        rfl
      obtain ⟨g', hrun, hpending, hdata⟩ := unescape_chunk (junk.drop (left.length + 1)) hpayload'
        hlen hchunk (take_append_drop left.length _).symm
      rw [htake]
      refine ⟨g', hrun, hpending, ?_⟩
      rw [hdata]
      simp only [length_append, length_drop, List.length_singleton] at hsize ⊢
      omega

theorem recvData_run (hlen : payload.length ≤ 253) (fuel : Nat) {g : Got} {pending : List UInt8}
    (h : Pending payload crc g pending) (hsize : payload.length ≤ g.data.length)
    (hfuel : pending.length < fuel) (rest written : List UInt8) :
    ∃ g', recvData payload.length fuel g ⟨pending ++ rest, written⟩ =
        some (.ok g', ⟨rest, written⟩) ∧
      g'.data.take payload.length = payload ∧ g'.crc = updcrcs crc payload ∧
      g'.data.length = g.data.length := by
  induction fuel generalizing g pending with
  | zero => omega
  | succ fuel ih =>
    by_cases hr : g.r < payload.length
    · obtain ⟨chunk, more, rfl, hchunk, g₁, hrun, hpending, hdata⟩ :=
        h.round hlen hsize hr
      rw [length_append] at hfuel
      obtain ⟨g', hrest, htake, hcrc, hdata'⟩ := ih hpending (by omega) (by omega)
      refine ⟨g', ?_, htake, hcrc, hdata'.trans hdata⟩
      rw [recvData, if_pos hr, append_assoc, read,
        bind_run_ok (Line.read_run _ hchunk _ _), bind_run_ok (hrun _)]
      exact hrest
    · -- with all of the data in the buffer, nothing of them is left on the line
      rw [recvData, if_neg hr]
      cases h with
      | between done left junk hpayload =>
        have hnone : left = [] := by
          have hlength : payload.length = done.length + left.length := by
            rw [hpayload, length_append]
          have hdone : ¬ done.length < payload.length := hr
          exact List.eq_nil_of_length_eq_zero (by omega)
        subst hnone
        rw [List.append_nil] at hpayload
        subst hpayload
        exact ⟨_, rfl, List.take_left, rfl, rfl⟩
      | escaped done left junk hpayload =>
        have hdone : ¬ done.length < payload.length := hr
        rw [hpayload, length_append, length_cons] at hdone
        omega

end

/-! ### Whole packets -/

theorem read_run {n : Nat} {bytes : List UInt8} (h : bytes.length = n) (rest written : List UInt8) :
    read n ⟨bytes ++ rest, written⟩ = some (.ok bytes, ⟨rest, written⟩) := Line.read_run _ h _ _

theorem read_one :
    read 1 ⟨b :: rest, written⟩ = some (.ok [b], ⟨rest, written⟩) := Line.read_one _ _ _ _

theorem recvHeader_run (n : Nat) (rest written : List UInt8) :
    recvHeader (n + 1) ⟨dle :: stx :: rest, written⟩ = some (.ok stx, ⟨rest, written⟩) := by
  have hread : read 2 ⟨dle :: stx :: rest, written⟩ = some (.ok [dle, stx], ⟨rest, written⟩) :=
    @read_run 2 [dle, stx] rfl rest written
  rw [recvHeader, bind_run_ok hread]
  rfl

/-- A round of `ricoh_recv` that finds a packet: it is acknowledged, and it is the result unless
the camera is busy. -/
theorem recvLoop_frame (cmd number : UInt8) {payload buffer : List UInt8}
    (hlen : payload.length ≤ 253) (hroom : payload.length ≤ buffer.length) (fuel ii : Nat)
    (rest written : List UInt8) :
    ∃ buffer', buffer'.length = buffer.length ∧
      recvLoop (fuel + 1) ii buffer ⟨frame cmd number payload ++ rest, written⟩ =
        (if payload = busy then
          if ii ≥ 4 then Comp.throw gpError else recvLoop fuel ((ii + 1) % 256) buffer'
        else
          pure ⟨cmd, number, payload⟩ : Comp Port Int Packet) ⟨rest, written ++ [dle, ack]⟩ := by
  have hbyte : (UInt8.ofNat payload.length).toNat = payload.length := by
    rw [UInt8.toNat_ofNat']
    omega
  have hbyte2 : (UInt8.ofNat payload.length + 2).toNat = payload.length + 2 := by
    rw [UInt8.toNat_add, hbyte]
    show (payload.length + 2) % 256 = _
    omega
  obtain ⟨crc, hcrc⟩ : ∃ crc, updcrc (UInt8.ofNat payload.length) (updcrc cmd 0) = crc := ⟨_, rfl⟩
  obtain ⟨sum, hsum⟩ : ∃ sum, updcrcs crc payload = sum := ⟨_, rfl⟩
  let footer := [dle, etx, sum.toUInt8, (sum >>> 8).toUInt8, UInt8.ofNat payload.length + 2, number]
  have hframe : frame cmd number payload ++ rest =
      dle :: stx :: cmd :: UInt8.ofNat payload.length ::
        (escaping.stuff payload ++ (footer ++ rest)) := by
    simp [frame, hcrc, hsum, footer]
  have hpending : Pending payload crc ⟨buffer, 0, false, crc⟩ (escaping.stuff payload) :=
    Pending.between [] payload buffer rfl
  obtain ⟨g, hdata, htake, hgcrc, hlength⟩ := recvData_run hlen
    ((escaping.stuff payload ++ (footer ++ rest)).length + 1) hpending hroom
    (by rw [length_append]; omega) (footer ++ rest) written
  rw [hsum] at hgcrc
  refine ⟨g.data, hlength, ?_⟩
  rw [hframe, recvLoop, bind_run_ok (recvHeader_run _ _ _), if_neg (by simp),
    bind_run_ok (read_one _ _ _), bind_run_ok (read_one _ _ _)]
  simp only [List.getD_cons_zero, hbyte, hcrc]
  rw [if_neg (by omega), Comp.get_bind_run, bind_run_ok hdata,
    bind_run_ok (@read_run 6 footer rfl rest written), if_neg (by simp [footer]),
    if_neg (by simp [footer, hgcrc, hbyte2]), htake]
  rfl

/-- A run of `ricoh_recv`: the answers of a busy camera are acknowledged and dropped, and the packet
behind them is returned. -/
theorem recvLoop_run (busies : List (UInt8 × UInt8)) (cmd number : UInt8)
    {payload buffer : List UInt8} (hlen : payload.length ≤ 253) (hne : payload ≠ busy)
    (hroom : payload.length ≤ buffer.length) (hbusy : busies ≠ [] → busy.length ≤ buffer.length)
    {fuel ii : Nat} (hfuel : busies.length < fuel) (hii : ii + busies.length ≤ 4)
    (rest written : List UInt8) :
    recvLoop fuel ii buffer
        ⟨busies.flatMap (fun p => frame p.1 p.2 busy) ++ (frame cmd number payload ++ rest),
          written⟩ =
      some (.ok ⟨cmd, number, payload⟩,
        ⟨rest, written ++ (busies.flatMap (fun _ => [dle, ack]) ++ [dle, ack])⟩) := by
  induction busies generalizing fuel ii buffer written with
  | nil =>
    obtain ⟨fuel, rfl⟩ : ∃ n, fuel = n + 1 := ⟨fuel - 1, by omega⟩
    obtain ⟨buffer', -, hrun⟩ := recvLoop_frame cmd number hlen hroom fuel ii rest written
    rw [List.flatMap_nil, nil_append, hrun, if_neg hne]
    rfl
  | cons p busies ih =>
    obtain ⟨fuel, rfl⟩ : ∃ n, fuel = n + 1 := ⟨fuel - 1, by omega⟩
    rw [length_cons] at hfuel hii
    obtain ⟨buffer', hbuffer, hrun⟩ := recvLoop_frame p.1 p.2 (by decide) (hbusy (by simp)) fuel ii
      (busies.flatMap (fun p => frame p.1 p.2 busy) ++ (frame cmd number payload ++ rest)) written
    rw [List.flatMap_cons, append_assoc, hrun, if_pos rfl, if_neg (by omega),
      ih (by omega) (fun _ => by rw [hbuffer]; exact hbusy (by simp)) (by omega) (by omega)]
    simp

theorem sent_send :
    Line.sent (send cmd number data) = frame cmd number data :=
  Line.sent_eq (send_run cmd number data ⟨[], []⟩)

theorem length_le_flatMap {α β : Type} {f : α → List β} (h : ∀ a, 1 ≤ (f a).length) (l : List α) :
    l.length ≤ (l.flatMap f).length := by
  induction l with
  | nil => simp
  | cons a l ih =>
    have ha := h a
    rw [List.flatMap_cons, length_append, length_cons]
    omega

/-- What `ricoh_send` writes, `ricoh_recv` returns. Up to four answers of a busy camera may come
before it; they are acknowledged and dropped. -/
theorem recv_sent (busies : List (UInt8 × UInt8)) (cmd number : UInt8) (payload buffer : List UInt8)
    (hbusies : busies.length ≤ 4) (hlen : payload.length ≤ 253) (hne : payload ≠ busy)
    (hroom : payload.length ≤ buffer.length) (hbusy : busies ≠ [] → busy.length ≤ buffer.length)
    (rest written : List UInt8) :
    (∀ s, ∃ s', send cmd number payload s = some (.ok (), s') ∧
      s'.written = s.written ++ Line.sent (send cmd number payload)) ∧
    recv buffer ⟨busies.flatMap (fun p => Line.sent (send p.1 p.2 busy)) ++
        (Line.sent (send cmd number payload) ++ rest), written⟩ =
      some (.ok ⟨cmd, number, payload⟩,
        ⟨rest, written ++ (busies.flatMap (fun _ => [dle, ack]) ++ [dle, ack])⟩) := by
  simp only [sent_send]
  refine ⟨fun s => ⟨_, send_run cmd number payload s, rfl⟩, ?_⟩
  have hcount : busies.length ≤ (busies.flatMap (fun p => frame p.1 p.2 busy)).length :=
    length_le_flatMap (fun p => by simp [frame]) busies
  exact recvLoop_run busies cmd number hlen hne hroom hbusy
    (by rw [length_append]; omega) (by omega) rest written

theorem recv_sent_busy_first :
    (∀ s, ∃ s', send 0x95 0 [0x10, 0x10, 0x07] s = some (.ok (), s') ∧
      s'.written = s.written ++ Line.sent (send 0x95 0 [0x10, 0x10, 0x07])) ∧
    recv [0, 0, 0] ⟨[((0x95 : UInt8), (0 : UInt8))].flatMap
        (fun p => Line.sent (send p.1 p.2 busy)) ++
        (Line.sent (send 0x95 0 [0x10, 0x10, 0x07]) ++ []), []⟩ =
      some (.ok ⟨0x95, 0, [0x10, 0x10, 0x07]⟩,
        ⟨[], [] ++
          ([((0x95 : UInt8), (0 : UInt8))].flatMap (fun _ => [dle, ack]) ++ [dle, ack])⟩) :=
  recv_sent [(0x95, 0)] 0x95 0 [0x10, 0x10, 0x07] [0, 0, 0] (by decide) (by decide) (by decide)
    (by decide) (by decide) [] []

/-- The answer of a busy camera is not returned, however it is sent. -/
theorem busy_not_returned :
    recv (List.replicate 255 0) ⟨Line.sent (send 0x95 0 [0x00, 0x04, 0xff]), []⟩ =
      some (.error gpErrorTimeout, ⟨[], [dle, ack]⟩) := by
  obtain ⟨buffer', -, hrun⟩ := @recvLoop_frame 0x95 0 busy (List.replicate 255 0) (by decide)
    (by rw [List.length_replicate]; decide) (frame 0x95 0 busy).length 0 [] []
  rw [List.append_nil] at hrun
  show recv _ ⟨Line.sent (send 0x95 0 busy), []⟩ = _
  rw [sent_send, recv, Comp.get_bind_run, hrun, if_pos rfl, if_neg (by decide)]
  rfl

end GPhoto2.Ricoh
