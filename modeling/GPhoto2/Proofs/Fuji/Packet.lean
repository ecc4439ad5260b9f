import GPhoto2.Fuji.Packet

/-!
# `GPhoto2.Proofs.Fuji.Packet`: which packets come back as they were sent

`fuji_send` stays in its buffer if and only if the command fits into it with every `ESC` counted
twice (`send_ne_none_iff`). What it sends is read back by `fuji_recv` if none of the first four
bytes is `ESC` (`recv_frame`). With an `ESC` among them it is not: the data that `fuji_recv` returns
settle how long the packet was on the line, with four bytes for the header (`recv_consumes`).
-/

set_option autoImplicit false

namespace GPhoto2.Fuji

open Lib
open List (append_assoc length_append length_cons length_nil)
open Stuffing (stuff_append stuff_cons)
open Lib.Comp (bind_eq_ok bind_run_ok)

/-- The checksum over some bytes. -/
def xors (check : UInt8) (bytes : List UInt8) : UInt8 := bytes.foldl (· ^^^ ·) check

variable (bytes done cmd : List UInt8) (last : Bool) (check : UInt8) (s : Port)

@[simp] theorem xors_nil : xors check [] = check := rfl

@[simp] theorem xors_cons (b : UInt8) (bytes : List UInt8) :
    xors check (b :: bytes) = xors (check ^^^ b) bytes := rfl

theorem xors_xor (c : UInt8) (bytes : List UInt8) :
    xors (check ^^^ c) bytes = xors check bytes ^^^ c := by
  induction bytes generalizing check with
  | nil => rfl
  | cons b bytes ih =>
    rw [xors_cons, xors_cons, ← ih, UInt8.xor_assoc, UInt8.xor_comm c, UInt8.xor_assoc]

theorem stuffByte_esc : escaping.stuffByte esc = [esc, esc] := rfl

variable {b : UInt8}

theorem stuffByte_ne (h : b ≠ esc) : escaping.stuffByte b = [b] := by
  refine escaping.stuffByte_plain ?_
  show (b == esc) = false
  simpa using h

theorem length_stuff :
    (escaping.stuff bytes).length = bytes.length + bytes.count esc := escaping.length_stuff bytes

/-! ### Sending -/

/-- What a command is on the line. -/
def frame (cmd : List UInt8) (last : Bool) : List UInt8 :=
  [esc, stx] ++ (escaping.stuff cmd ++ [esc, footerByte last, xors (footerByte last) cmd])

theorem escapeLoop_fits (h : done.length + (escaping.stuff cmd).length ≤ sendBufferSize) :
    escapeLoop done cmd check s = some (.ok (done ++ escaping.stuff cmd, xors check cmd), s) := by
  induction cmd generalizing done check with
  | nil => simp [escapeLoop]
  | cons b cmd ih =>
    rw [stuff_cons] at h
    by_cases hb : b = esc
    · subst hb
      rw [stuffByte_esc] at h
      simp only [length_append, length_cons, length_nil] at h
      have hle := escaping.length_le_length_stuff cmd
      rw [escapeLoop, if_pos rfl, if_neg (by omega), ih _ _ (by simp; omega), stuff_cons,
        stuffByte_esc, append_assoc]
      rfl
    · rw [stuffByte_ne hb] at h
      simp only [length_append, length_cons, length_nil] at h
      rw [escapeLoop, if_neg hb, ih _ _ (by simp; omega), stuff_cons, stuffByte_ne hb,
        append_assoc]
      rfl

theorem escapeLoop_overrun (hstart : done.length + cmd.length ≤ sendBufferSize)
    (h : sendBufferSize < done.length + (escaping.stuff cmd).length) :
    escapeLoop done cmd check s = none := by
  induction cmd generalizing done check with
  | nil =>
    simp only [Stuffing.stuff_nil, length_nil] at h hstart
    omega
  | cons b cmd ih =>
    rw [stuff_cons] at h
    rw [length_cons] at hstart
    by_cases hb : b = esc
    · subst hb
      rw [stuffByte_esc] at h
      simp only [length_append, length_cons, length_nil] at h
      by_cases hroom : done.length + cmd.length + 2 > sendBufferSize
      · rw [escapeLoop, if_pos rfl, if_pos hroom]
        rfl
      · rw [escapeLoop, if_pos rfl, if_neg hroom]
        exact ih _ _ (by simp; omega) (by simp; omega)
    · rw [stuffByte_ne hb] at h
      simp only [length_append, length_cons, length_nil] at h
      rw [escapeLoop, if_neg hb]
      exact ih _ _ (by simp; omega) (by simp; omega)

theorem send_fits {cmd : List UInt8}
    (h : (escaping.stuff cmd).length ≤ sendBufferSize) :
    send cmd last s = some (.ok (), ⟨s.incoming, s.written ++ frame cmd last⟩) := by
  have hle := escaping.length_le_length_stuff cmd
  show ((if cmd.length > sendBufferSize then _ else _ : Comp Port Int Unit)
    ⟨s.incoming, s.written ++ [esc, stx]⟩) = _
  rw [if_neg (by omega), bind_run_ok (escapeLoop_fits [] cmd _ _ (by simpa using h))]
  show some (Except.ok (), (⟨_, _ ++ _ ++ _⟩ : Port)) = _
  simp [frame]

theorem send_overrun {cmd : List UInt8}
    (h : sendBufferSize < (escaping.stuff cmd).length) : send cmd last s = none := by
  show ((if cmd.length > sendBufferSize then _ else _ : Comp Port Int Unit)
    ⟨s.incoming, s.written ++ [esc, stx]⟩) = _
  by_cases hcmd : cmd.length > sendBufferSize
  · rw [if_pos hcmd]
    rfl
  · rw [if_neg hcmd]
    exact Comp.bind_run_none
      (escapeLoop_overrun [] cmd _ _ (by simpa using hcmd) (by simpa using h))

/-- When `fuji_send` stays in its buffer. -/
theorem send_ne_none_iff :
    send cmd last s ≠ none ↔ cmd.length + cmd.count esc ≤ sendBufferSize := by
  rw [← length_stuff]
  by_cases h : (escaping.stuff cmd).length ≤ sendBufferSize
  · rw [send_fits last s h]
    exact ⟨fun _ => h, fun _ => by simp⟩
  · rw [send_overrun last s (by omega)]
    exact ⟨fun hne => absurd rfl hne, fun hle => absurd hle h⟩

/-! ### Receiving -/

theorem read_run {n : Nat} {bytes : List UInt8} (h : bytes.length = n) (rest written : List UInt8) :
    read n ⟨bytes ++ rest, written⟩ = some (.ok bytes, ⟨rest, written⟩) := Line.read_run _ h _ _

theorem read_one (b : UInt8) (rest written : List UInt8) :
    read 1 ⟨b :: rest, written⟩ = some (.ok [b], ⟨rest, written⟩) := Line.read_one _ _ _ _

theorem recvData_run (buf data : List UInt8) (check : UInt8) (rest written : List UInt8) :
    recvData data.length buf check ⟨escaping.stuff data ++ rest, written⟩ =
      some (.ok (buf ++ data, xors check data), ⟨rest, written⟩) := by
  induction data generalizing buf check with
  | nil => simp [recvData]
  | cons b data ih =>
    by_cases hb : b = esc
    · subst hb
      rw [length_cons, recvData, stuff_cons, stuffByte_esc]
      show ((read 1 >>= fun c => _) : Comp Port Int _)
        ⟨esc :: esc :: (escaping.stuff data ++ rest), written⟩ = _
      rw [bind_run_ok (read_one _ _ _)]
      show ((read 1 >>= fun c => _) : Comp Port Int _)
        ⟨esc :: (escaping.stuff data ++ rest), written⟩ = _
      rw [bind_run_ok (read_one _ _ _)]
      show recvData data.length (buf ++ [esc]) _ _ = _
      rw [ih, xors_cons, append_assoc]
      rfl
    · rw [length_cons, recvData, stuff_cons, stuffByte_ne hb]
      show ((read 1 >>= fun c => _) : Comp Port Int _)
        ⟨b :: (escaping.stuff data ++ rest), written⟩ = _
      rw [bind_run_ok (read_one _ _ _)]
      show (if b = esc then _ else _ : Comp Port Int _) _ = _
      rw [if_neg hb, ih, xors_cons, append_assoc]
      rfl

theorem recvData_ok {n : Nat} {buf got : List UInt8} {check check' : UInt8} {s s' : Port}
    (h : recvData n buf check s = some (.ok (got, check'), s')) :
    ∃ data, got = buf ++ data ∧ s.incoming = escaping.stuff data ++ s'.incoming := by
  induction n generalizing buf check s with
  | zero =>
    cases h
    exact ⟨[], by simp, rfl⟩
  | succ n ih =>
    rw [recvData, bind_eq_ok] at h
    obtain ⟨bytes, s₁, hread, h⟩ := h
    obtain ⟨hlen, hline, -⟩ := Line.read_ok hread
    obtain ⟨b, rfl⟩ := List.length_eq_one_iff.mp hlen
    rw [List.getD_cons_zero] at h
    by_cases hb : b = esc
    · rw [if_pos hb, bind_eq_ok] at h
      obtain ⟨bytes, s₂, hread', h⟩ := h
      obtain ⟨hlen', hline', -⟩ := Line.read_ok hread'
      obtain ⟨c, rfl⟩ := List.length_eq_one_iff.mp hlen'
      rw [List.getD_cons_zero] at h
      by_cases hc : c = esc
      · rw [if_neg (by simpa using hc)] at h
        obtain ⟨data, hgot, hrest⟩ := ih h
        refine ⟨c :: data, by rw [hgot, append_assoc]; rfl, ?_⟩
        rw [hline, hline', hrest, hb, hc, stuff_cons, stuffByte_esc]
        rfl
      · rw [if_pos hc] at h
        cases h
    · rw [if_neg hb] at h
      obtain ⟨data, hgot, hrest⟩ := ih h
      refine ⟨b :: data, by rw [hgot, append_assoc]; rfl, ?_⟩
      rw [hline, hrest, stuff_cons, stuffByte_ne hb]
      rfl

variable {data : List UInt8}

theorem recv_consumes {last : Bool} {s s' : Port}
    (h : recv s = some (.ok (data, last), s')) :
    s.incoming.length = 9 + (escaping.stuff data).length + s'.incoming.length := by
  rw [recv, bind_eq_ok] at h
  obtain ⟨head, s₁, hhead, h⟩ := h
  obtain ⟨hheadLen, hheadLine, -⟩ := Line.read_ok hhead
  by_cases hstart : head.getD 0 0 ≠ esc ∨ head.getD 1 0 ≠ stx
  · rw [if_pos hstart] at h
    cases h
  rw [if_neg hstart, bind_eq_ok] at h
  obtain ⟨⟨got, check⟩, s₂, hdata, h⟩ := h
  obtain ⟨data', hgot, hdataLine⟩ := recvData_ok hdata
  rw [bind_eq_ok] at h
  obtain ⟨foot, s₃, hfoot, h⟩ := h
  obtain ⟨hfootLen, hfootLine, -⟩ := Line.read_ok hfoot
  have hend : data = got ∧ s' = s₃ := by
    by_cases hesc : foot.getD 0 0 ≠ esc
    · rw [if_pos hesc] at h
      cases h
    rw [if_neg hesc] at h
    by_cases hkind : foot.getD 1 0 ≠ etx ∧ foot.getD 1 0 ≠ etb
    · rw [if_pos hkind] at h
      cases h
    rw [if_neg hkind] at h
    by_cases hcheck : check ^^^ foot.getD 1 0 ≠ foot.getD 2 0
    · rw [if_pos hcheck] at h
      cases h
    rw [if_neg hcheck] at h
    cases h
    exact ⟨rfl, rfl⟩
  obtain ⟨rfl, rfl⟩ := hend
  rw [hheadLine, hdataLine, hfootLine, hgot, List.nil_append]
  simp only [length_append]
  omega

/-! ### Round trips -/

theorem frame_plain {a : UInt8}
    (hplain : esc ∉ (packet a b data).take 4) :
    frame (packet a b data) last =
      [esc, stx, a, b, UInt8.ofNat data.length, UInt8.ofNat (data.length / 256)] ++
        (escaping.stuff data ++
          [esc, footerByte last, xors (footerByte last) (packet a b data)]) := by
  have hhead : ∀ c ∈ (packet a b data).take 4, escaping.special c = false := by
    intro c hc
    show (c == esc) = false
    rw [beq_eq_false_iff_ne]
    rintro rfl
    exact hplain hc
  have hsplit : packet a b data = (packet a b data).take 4 ++ data := rfl
  rw [frame, hsplit, stuff_append, escaping.stuff_plain hhead]
  simp [packet]

/-- A packet without `ESC` in front of its data is read back. -/
theorem recv_frame {a : UInt8} (hlen : data.length < 65536)
    (hplain : esc ∉ (packet a b data).take 4) (rest written : List UInt8) :
    recv ⟨frame (packet a b data) last ++ rest, written⟩ =
      some (.ok (data, last), ⟨rest, written⟩) := by
  let lo := UInt8.ofNat data.length
  let hi := UInt8.ofNat (data.length / 256)
  have hcount : lo.toNat + 256 * hi.toNat = data.length := by
    show (UInt8.ofNat data.length).toNat + 256 * (UInt8.ofNat (data.length / 256)).toNat = _
    rw [UInt8.toNat_ofNat', UInt8.toNat_ofNat']
    omega
  have hcheck : xors (a ^^^ b ^^^ lo ^^^ hi) data ^^^ footerByte last =
      xors (footerByte last) (packet a b data) := by
    show _ = xors (footerByte last ^^^ a ^^^ b ^^^ lo ^^^ hi) data
    rw [← xors_xor]
    congr 1
    ac_rfl
  have hfooter : ¬ (footerByte last ≠ etx ∧ footerByte last ≠ etb) := by cases last <;> decide
  have hlast : decide (footerByte last = etx) = last := by cases last <;> decide
  rw [frame_plain last hplain, append_assoc, append_assoc, recv,
    bind_run_ok (read_run (by rfl) _ _)]
  show ((recvData (lo.toNat + 256 * hi.toNat) [] (a ^^^ b ^^^ lo ^^^ hi) >>= fun got => _) :
    Comp Port Int _) _ = _
  rw [hcount, bind_run_ok (recvData_run _ _ _ _ _), bind_run_ok (read_run (by rfl) _ _)]
  show (if footerByte last ≠ etx ∧ footerByte last ≠ etb then _
    else if xors (a ^^^ b ^^^ lo ^^^ hi) data ^^^ footerByte last ≠
      xors (footerByte last) (packet a b data) then _
    else pure (data, decide (footerByte last = etx)) : Comp Port Int _) _ = _
  rw [if_neg hfooter, if_neg (by rw [hcheck]; simp), hlast]
  rfl

/-- What `fuji_send` makes of a command with data, `fuji_recv` reads back. -/
def RoundTrip (a b : UInt8) (data : List UInt8) (last : Bool) : Prop :=
  ∃ s, send (packet a b data) last ⟨[], []⟩ = some (.ok (), s) ∧
    ∀ rest written, recv ⟨s.written ++ rest, written⟩ = some (.ok (data, last), ⟨rest, written⟩)

theorem roundTrip_of_plain {a : UInt8}
    (hplain : esc ∉ (packet a b data).take 4)
    (hfits : (packet a b data).length + (packet a b data).count esc ≤ sendBufferSize) :
    RoundTrip a b data last := by
  rw [← length_stuff] at hfits
  have hlen : data.length < 65536 := by
    have hle := escaping.length_le_length_stuff (packet a b data)
    have hlength : (packet a b data).length = data.length + 4 := rfl
    have hsize : sendBufferSize = 1024 := rfl
    omega
  exact ⟨_, send_fits last _ hfits, fun rest written => recv_frame last hlen hplain rest written⟩

/-- An `ESC` in front of the data makes the packet longer than `fuji_recv` expects. -/
theorem RoundTrip.plain {a : UInt8} {last : Bool}
    (h : RoundTrip a b data last) : esc ∉ (packet a b data).take 4 := by
  obtain ⟨s, hsend, hrecv⟩ := h
  have hfits : (escaping.stuff (packet a b data)).length ≤ sendBufferSize := by
    rw [length_stuff, ← send_ne_none_iff _ last ⟨[], []⟩, hsend]
    simp
  rw [send_fits last _ hfits] at hsend
  cases hsend
  have hconsumed := recv_consumes (hrecv [] [])
  have hsplit : packet a b data = (packet a b data).take 4 ++ data := rfl
  have hhead := length_stuff ((packet a b data).take 4)
  have htake : ((packet a b data).take 4).length = 4 := rfl
  rw [List.nil_append, List.append_nil, frame, hsplit, stuff_append] at hconsumed
  simp only [length_append, length_cons, length_nil] at hconsumed
  rw [← List.count_eq_zero]
  omega

/-- The round trip of a packet, and the buffer of `fuji_send` for any command. -/
theorem send_recv_iff (cmd : List UInt8) (s : Port) (a b : UInt8) (data : List UInt8)
    (last : Bool) :
    (send cmd last s ≠ none ↔ cmd.length + cmd.count esc ≤ sendBufferSize) ∧
      (RoundTrip a b data last ↔
        esc ∉ (packet a b data).take 4 ∧
          (packet a b data).length + (packet a b data).count esc ≤ sendBufferSize) := by
  refine ⟨send_ne_none_iff cmd last s, fun h => ⟨h.plain, ?_⟩, ?_⟩
  · obtain ⟨s, hsend, -⟩ := h
    rw [← send_ne_none_iff _ last ⟨[], []⟩, hsend]
    simp
  · rintro ⟨hplain, hfits⟩
    exact roundTrip_of_plain last hplain hfits

theorem length_packet (a b : UInt8) (data : List UInt8) :
    (packet a b data).length = data.length + 4 := rfl

theorem uploadCommands_one (hpos : 0 < data.length)
    (hone : data.length ≤ chunkSize) : uploadCommands data = [(packet 0 cmdUpload data, true)] := by
  have hsize : chunkSize = 512 := rfl
  have hcount : (data.length + chunkSize - 1) / chunkSize = 1 := by
    rw [hsize]
    omega
  have hlast : ¬ 0 * chunkSize + chunkSize < data.length := by omega
  rw [uploadCommands, hcount]
  show [uploadCommand data (0 * chunkSize)] = _
  rw [uploadCommand, decide_eq_true hlast, Nat.zero_mul, List.drop_zero, Nat.sub_zero,
    Nat.min_eq_right hone, List.take_length]

/-- The upload of 16 bytes passes a command whose length does not come back, and one of 512 times
`ESC` leaves the buffer. -/
theorem upload_not_recv :
    uploadCommands (List.replicate 16 0) = [(packet 0 cmdUpload (List.replicate 16 0), true)] ∧
    ¬ RoundTrip 0 cmdUpload (List.replicate 16 0) true ∧
    uploadCommands (List.replicate 512 esc) =
      [(packet 0 cmdUpload (List.replicate 512 esc), true)] ∧
    ∀ s, send (packet 0 cmdUpload (List.replicate 512 esc)) true s = none := by
  have hlength : (List.replicate 512 esc).length = 512 := List.length_replicate
  refine ⟨rfl, fun h => absurd h.plain (by decide),
    uploadCommands_one (by omega) (Nat.le_of_eq hlength), fun s => send_overrun true s ?_⟩
  have hcount : 512 ≤ (packet 0 cmdUpload (List.replicate 512 esc)).count esc := by
    have hall : (List.replicate 512 esc).count esc = 512 := List.count_replicate_self
    have htail := List.Sublist.count_le esc
      (List.sublist_append_right [0, cmdUpload, UInt8.ofNat 512, UInt8.ofNat (512 / 256)]
        (List.replicate 512 esc))
    rw [hall] at htail
    rw [packet, hlength]
    exact htail
  have hsize : sendBufferSize = 1024 := rfl
  rw [length_stuff, length_packet]
  omega

/-! ## When a download of a Fuji camera is whole

`Steps` says which arrivals the loop of `fuji_transmit` leaves behind, and with what in the buffer.
`transmitLoop_ends` follows the loop over arrivals that fit, none of which is a broken packet that
passes for the last one, and `transmitLoop_safe` shows that these conditions are needed.
-/

open Lib Comp

/-! ### Arrivals -/

/-- The packet is broken. -/
def Arrival.isBad (a : Arrival) : Bool := a.failed.isSome

/-- What a call adds to the download. -/
def Arrival.chunk (a : Arrival) : List UInt8 := if a.isBad then [] else a.data

/-- The data of the good packets, in their order. -/
def chunks (arrivals : List Arrival) : List UInt8 := arrivals.flatMap Arrival.chunk

/-- The call sets `last`. -/
def Arrival.IsLast (a : Arrival) : Prop := a.last = some true

/-- The download goes on behind these arrivals: one of them at most is broken, none is the last
one, and nothing ends it. -/
structure GoesOn (pre : List Arrival) : Prop where
  stop  : ∀ a ∈ pre, a.stop = none
  open' : ∀ a ∈ pre, ¬ a.IsLast
  bad   : pre.countP Arrival.isBad ≤ 1

/-- Whatever arrives fits into the rest of the buffer, and the first broken packet does not pass for
the last one, unless something ends the download there. -/
structure ArrivalsFit (bufLen : Nat) (arrivals : List Arrival) : Prop where
  inside : ∀ pre a post, arrivals = pre ++ a :: post → GoesOn pre →
    (chunks pre).length + a.data.length ≤ bufLen
  open' : ∀ pre a post, arrivals = pre ++ a :: post → GoesOn pre →
    pre.countP Arrival.isBad = 0 → a.isBad = true → a.stop = none → ¬ a.IsLast

/-- The function stays inside the buffer, and where it succeeds, the buffer holds the data of each
good packet once, in their order, up to a good packet that is the last one. -/
def TransmitsWhole (bufLen : Nat) (arrivals : List Arrival) : Prop :=
  Ends (fun result rest => ∃ pre a, arrivals = pre ++ a :: rest ∧ a.isBad = false ∧ a.IsLast ∧
      (∀ b ∈ pre, ¬ b.IsLast) ∧ result.2 = (chunks (pre ++ [a])).length ∧
        result.1.take result.2 = (chunks (pre ++ [a])).map some)
    (fun _ _ => True) (transmit bufLen arrivals)

theorem chunks_append (xs ys : List Arrival) : chunks (xs ++ ys) = chunks xs ++ chunks ys :=
  List.flatMap_append

theorem chunks_singleton (a : Arrival) : chunks [a] = a.chunk :=
  List.flatMap_singleton Arrival.chunk a

theorem length_chunk_le (a : Arrival) : a.chunk.length ≤ a.data.length := by
  rw [Arrival.chunk]
  by_cases hbad : a.isBad = true
  · rw [if_pos hbad]
    exact Nat.zero_le _
  · exact Nat.le_of_eq (congrArg List.length (if_neg hbad))

/-- What is in the buffer behind some arrivals. -/
structure HoldsChunks (bufLen : Nat) (pre : List Arrival) (buf : Cells UInt8) : Prop where
  length_buf : buf.length = bufLen
  inside     : (chunks pre).length ≤ bufLen
  front      : buf.take (chunks pre).length = (chunks pre).map some

theorem HoldsChunks.start (bufLen : Nat) : HoldsChunks bufLen [] (List.replicate bufLen none) where
  length_buf := List.length_replicate
  inside     := Nat.zero_le _
  front      := rfl

section

variable {bufLen : Nat} {pre : List Arrival} {buf buf' : Cells UInt8} {a : Arrival}

theorem HoldsChunks.snoc (h : HoldsChunks bufLen pre buf)
    (hstore : storeAt (chunks pre).length buf a.data = some buf') :
    HoldsChunks bufLen (pre ++ [a]) buf' := by
  have hlength := length_storeAt hstore
  have hfits := (storeAt_eq_some hstore).1
  have hbuf := h.length_buf
  have hinside := h.inside
  have hin : (chunks pre).length ≤ buf.length := by omega
  have hchunks : chunks (pre ++ [a]) = chunks pre ++ a.chunk := by
    rw [chunks_append, chunks_singleton]
  have hle := length_chunk_le a
  refine ⟨hlength.trans hbuf, ?_, ?_⟩
  · rw [hchunks, List.length_append]
    omega
  · rw [hchunks]
    rw [Arrival.chunk]
    by_cases hbad : a.isBad = true
    · rw [if_pos hbad, List.append_nil, take_storeAt_front hstore (Nat.le_refl _) hin, h.front]
    · rw [if_neg hbad, List.length_append, take_storeAt hstore hin, h.front, List.map_append]

theorem GoesOn.nil : GoesOn [] where
  stop  := fun _ ha => absurd ha List.not_mem_nil
  open' := fun _ ha => absurd ha List.not_mem_nil
  bad   := Nat.zero_le 1

theorem GoesOn.snoc (h : GoesOn pre) (hstop : a.stop = none) (hopen : ¬ a.IsLast)
    (hbad : (pre ++ [a]).countP Arrival.isBad ≤ 1) : GoesOn (pre ++ [a]) where
  stop := by
    intro b hb
    rcases List.mem_append.mp hb with hb | hb
    · exact h.stop b hb
    · rw [List.mem_singleton.mp hb]
      exact hstop
  open' := by
    intro b hb
    rcases List.mem_append.mp hb with hb | hb
    · exact h.open' b hb
    · rw [List.mem_singleton.mp hb]
      exact hopen
  bad := hbad

/-! ### The loop -/

theorem transmitLoop_last (arrivals : List Arrival) (retries n : Nat) :
    transmitLoop arrivals true retries buf n = some (.ok (buf, n), arrivals) := by
  cases arrivals with
  | nil => rfl
  | cons a arrivals => rfl

variable {post : List Arrival}

theorem transmitLoop_stuck {retries n : Nat}
    (hlarge : buf.length - n < a.data.length) :
    transmitLoop (a :: post) false retries buf n = none := by
  rw [transmitLoop, storeAt_of_lt hlarge]
  rfl

theorem transmitLoop_good {retries n : Nat}
    (hstore : storeAt n buf a.data = some buf') (hgood : a.failed = none) (hstop : a.stop = none) :
    transmitLoop (a :: post) false retries buf n =
      transmitLoop post (a.last.getD false) retries buf' (n + a.data.length) := by
  rw [transmitLoop, hstore, hgood, hstop]
  rfl

theorem transmitLoop_bad {n : Nat} {e : Int}
    (hstore : storeAt n buf a.data = some buf') (hbad : a.failed = some e) (hstop : a.stop = none) :
    transmitLoop (a :: post) false 0 buf n = transmitLoop post (a.last.getD false) 2 buf' n := by
  rw [transmitLoop, hstore, hbad, hstop]
  rfl

/-- The loop at a packet that fits, behind which the download ends with an error. -/
theorem transmitLoop_error {retries n : Nat}
    (hstore : storeAt n buf a.data = some buf')
    (hend : a.stop ≠ none ∨ (a.failed ≠ none ∧ 0 < retries)) :
    ∃ e, transmitLoop (a :: post) false retries buf n = some (.error e, post) := by
  rw [transmitLoop, hstore]
  cases hfailed : a.failed with
  | none =>
    cases hstop : a.stop with
    | none => simp [hfailed, hstop] at hend
    | some e => exact ⟨e, rfl⟩
  | some e =>
    by_cases hretries : retries + 2 > 2
    · exact ⟨e, if_pos hretries⟩
    · cases hstop : a.stop with
      | none =>
        rw [hstop] at hend
        exact absurd hend (by simp; omega)
      | some e' => exact ⟨e', if_neg hretries⟩

theorem countP_snoc (pre : List Arrival) (a : Arrival) :
    (pre ++ [a]).countP Arrival.isBad =
      pre.countP Arrival.isBad + if a.isBad = true then 1 else 0 := by
  rw [List.countP_append, List.countP_singleton]

theorem transmitLoop_goesOn
    (hstore : storeAt (chunks pre).length buf a.data = some buf') (hgo : GoesOn (pre ++ [a])) :
    transmitLoop (a :: post) false (2 * pre.countP Arrival.isBad) buf (chunks pre).length =
      transmitLoop post false (2 * (pre ++ [a]).countP Arrival.isBad) buf'
        (chunks (pre ++ [a])).length := by
  have hmem : a ∈ pre ++ [a] := List.mem_append_right _ (List.mem_singleton.mpr rfl)
  have hstop := hgo.stop a hmem
  have hopen := hgo.open' a hmem
  have hbad := hgo.bad
  rw [countP_snoc] at hbad ⊢
  have hlast : a.last.getD false = false := by
    cases hl : a.last with
    | none => rfl
    | some last =>
      cases last with
      | false => rfl
      | true => exact absurd hl hopen
  have hchunks : (chunks (pre ++ [a])).length = (chunks pre).length + a.chunk.length := by
    rw [chunks_append, chunks_singleton, List.length_append]
  rw [hchunks, Arrival.chunk]
  cases hfailed : a.failed with
  | none =>
    have hgood : ¬ a.isBad = true := by simp [Arrival.isBad, hfailed]
    rw [transmitLoop_good hstore hfailed hstop, hlast, if_neg hgood, if_neg hgood, Nat.add_zero]
  | some e =>
    have hbroken : a.isBad = true := by simp [Arrival.isBad, hfailed]
    rw [if_pos hbroken] at hbad
    have hzero : pre.countP Arrival.isBad = 0 := by omega
    rw [hzero, transmitLoop_bad hstore hfailed hstop, hlast, if_pos hbroken, if_pos hbroken]
    rfl

/-- A download that the loop returns. -/
def Whole (all : List Arrival) (result : Cells UInt8 × Nat) (rest : List Arrival) : Prop :=
  ∃ pre a, all = pre ++ a :: rest ∧ a.isBad = false ∧ a.IsLast ∧ (∀ b ∈ pre, ¬ b.IsLast) ∧
    result.2 = (chunks (pre ++ [a])).length ∧
      result.1.take result.2 = (chunks (pre ++ [a])).map some

/-- Over arrivals that fit, the download is whole. The induction is on what is left of them. -/
theorem transmitLoop_ends {post : List Arrival} (hfit : ArrivalsFit bufLen (pre ++ post))
    (hgo : GoesOn pre) (h : HoldsChunks bufLen pre buf) :
    Ends (Whole (pre ++ post)) (fun _ _ => True)
      (transmitLoop post false (2 * pre.countP Arrival.isBad) buf (chunks pre).length) := by
  induction post generalizing pre buf with
  | nil => trivial
  | cons a post ih =>
    have hinside := hfit.inside pre a post rfl hgo
    obtain ⟨buf', hstore⟩ := storeAt_of_le
      (show a.data.length ≤ buf.length - (chunks pre).length by rw [h.length_buf]; omega)
    by_cases hend : a.stop ≠ none ∨ (a.failed ≠ none ∧ 0 < 2 * pre.countP Arrival.isBad)
    · obtain ⟨e, hrun⟩ := transmitLoop_error hstore hend
      rw [hrun]
      trivial
    · rw [not_or, not_not, not_and] at hend
      obtain ⟨hstop, hretry⟩ := hend
      by_cases hlast : a.IsLast
      · -- a broken packet does not pass for the last one
        have hgood : a.failed = none := by
          by_contra hfailed
          have hbroken : a.isBad = true := Option.isSome_iff_ne_none.mpr hfailed
          have hzero := hretry hfailed
          exact hfit.open' pre a post rfl hgo (by omega) hbroken hstop hlast
        have hnext := h.snoc hstore
        have hbad : a.isBad = false := by rw [Arrival.isBad, hgood]; rfl
        have hchunks : (chunks (pre ++ [a])).length = (chunks pre).length + a.data.length := by
          rw [chunks_append, chunks_singleton, List.length_append, Arrival.chunk, hbad,
            if_neg Bool.false_ne_true]
        have htrue : a.last.getD false = true := by
          rw [show a.last = some true from hlast]
          rfl
        rw [transmitLoop_good hstore hgood hstop, htrue, transmitLoop_last, ← hchunks]
        exact ⟨pre, a, rfl, hbad, hlast, hgo.open', rfl, hnext.front⟩
      · have hcount : (pre ++ [a]).countP Arrival.isBad ≤ 1 := by
          rw [countP_snoc]
          by_cases hbroken : a.isBad = true
          · have hzero := hretry (Option.isSome_iff_ne_none.mp hbroken)
            rw [if_pos hbroken]
            omega
          · rw [if_neg hbroken]
            exact hgo.bad
        have hgo' := hgo.snoc hstop hlast hcount
        rw [transmitLoop_goesOn hstore hgo']
        have hall : pre ++ a :: post = (pre ++ [a]) ++ post := by
          rw [List.append_assoc]
          rfl
        rw [hall] at hfit ⊢
        exact ih hfit hgo' (h.snoc hstore)

theorem transmitLoop_safe {post : List Arrival} (hgo : GoesOn pre) (h : HoldsChunks bufLen pre buf)
    (hends : Ends (Whole (pre ++ post)) (fun _ _ => True)
      (transmitLoop post false (2 * pre.countP Arrival.isBad) buf (chunks pre).length))
    (more : List Arrival) (a : Arrival) (rest : List Arrival) (hpost : post = more ++ a :: rest)
    (hmore : GoesOn (pre ++ more)) :
    (chunks (pre ++ more)).length + a.data.length ≤ bufLen ∧
      ((pre ++ more).countP Arrival.isBad = 0 → a.isBad = true → a.stop = none → ¬ a.IsLast) := by
  induction more generalizing pre buf post with
  | nil =>
    rw [List.append_nil]
    obtain rfl : post = a :: rest := hpost
    have hinside := h.inside
    have hfits : a.data.length ≤ buf.length - (chunks pre).length := by
      by_contra hlarge
      rw [transmitLoop_stuck (Nat.not_le.mp hlarge)] at hends
      exact hends
    rw [h.length_buf] at hfits
    refine ⟨by omega, fun hzero hbroken hstop hlast => ?_⟩
    -- the loop takes the broken packet for the last one
    obtain ⟨buf', hstore⟩ := storeAt_of_le
      (show a.data.length ≤ buf.length - (chunks pre).length by rw [h.length_buf]; omega)
    obtain ⟨e, hfailed⟩ := Option.isSome_iff_exists.mp hbroken
    have htrue : a.last.getD false = true := by
      rw [show a.last = some true from hlast]
      rfl
    rw [hzero, Nat.mul_zero, transmitLoop_bad hstore hfailed hstop, htrue,
      transmitLoop_last] at hends
    obtain ⟨pre', a', hsame, hgood, -⟩ := hends
    have hcut := List.append_inj hsame (by
      have hlength := congrArg List.length hsame
      simp only [List.length_append, List.length_cons] at hlength
      omega)
    rw [(List.cons.inj hcut.2).1, hgood] at hbroken
    cases hbroken
  | cons b more ih =>
    obtain rfl : post = b :: (more ++ a :: rest) := hpost
    have hall : pre ++ b :: more = (pre ++ [b]) ++ more := by
      rw [List.append_assoc]
      rfl
    have hgo' : GoesOn (pre ++ [b]) := by
      rw [hall] at hmore
      refine ⟨fun c hc => hmore.stop c (List.mem_append_left _ hc),
        fun c hc => hmore.open' c (List.mem_append_left _ hc), ?_⟩
      have hbad := hmore.bad
      rw [List.countP_append] at hbad
      omega
    have hfits : b.data.length ≤ buf.length - (chunks pre).length := by
      by_contra hlarge
      rw [transmitLoop_stuck (Nat.not_le.mp hlarge)] at hends
      exact hends
    obtain ⟨buf', hstore⟩ := storeAt_of_le hfits
    rw [transmitLoop_goesOn hstore hgo'] at hends
    have hall' : pre ++ b :: (more ++ a :: rest) = (pre ++ [b]) ++ (more ++ a :: rest) := by
      rw [List.append_assoc]
      rfl
    rw [hall'] at hends
    rw [hall] at hmore ⊢
    exact ih hgo' (h.snoc hstore) hends rfl hmore

end

/-- **A download is whole just as long as its arrivals fit.** -/
theorem transmitsWhole_iff (bufLen : Nat) (arrivals : List Arrival) :
    TransmitsWhole bufLen arrivals ↔ ArrivalsFit bufLen arrivals := by
  constructor
  · intro hwhole
    have hsafe := fun pre a post hsplit =>
      @transmitLoop_safe bufLen [] _ arrivals GoesOn.nil (HoldsChunks.start bufLen) hwhole pre a
        post hsplit
    exact ⟨fun pre a post hsplit hgo => (hsafe pre a post hsplit hgo).1,
      fun pre a post hsplit hgo => (hsafe pre a post hsplit hgo).2⟩
  · intro hfit
    exact @transmitLoop_ends bufLen [] _ arrivals hfit GoesOn.nil (HoldsChunks.start bufLen)

end GPhoto2.Fuji
