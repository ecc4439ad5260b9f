import GPhoto2.Lib.Qsort
import GPhoto2.Ptp.Ptpip

/-!
# `GPhoto2.Proofs.Ptp.PtpipParsers`: what the PTP/IP parsers read of a packet

`ptp_ptpip_getresp` takes the next packet for a response whatever its type is, and neither it nor
`ptp_ptpip_event` looks whether a packet is long enough for its code and transaction.
`ptp_ptpip_init_command_ack` looks at the type, but not for the end of the body.
`parsers_safe_iff` says for each of them which packets it handles as it should.
-/

set_option autoImplicit false

/-! ## Packets on a PTP/IP socket

`Packet.encode` is a packet on the wire. `genericRead_encode`, `genericRead_eq_ok`:
`ptp_ptpip_generic_read` reads a packet exactly if the bytes that arrive start with one, however
they are cut into pieces. `DataPhase` is a legal packetisation of a data phase: `START_DATA`, any
number of `DATA` packets, and an `END_DATA` packet, with payloads that make up the announced
total.
-/

namespace GPhoto2.Ptpip

open Lib
open List (append_assoc flatMap_cons length_append)

/-- An `uint16_t` in an `int` is never -1. -/
theorem result_ne (result : UInt16) : (result.toNat : Int) ≠ -1 := by omega

/-- A packet of less than 2 GiB. -/
structure Packet where
  type : UInt32
  body : List UInt8
  isInt : body.length < 2 ^ 31

/-- The header of a packet. -/
def Packet.header (p : Packet) : PTPIPHeader := ⟨UInt32.ofNat (p.body.length + 8), p.type⟩

/-- A packet on the wire. -/
def Packet.encode (p : Packet) : List UInt8 :=
  htod32a p.header.length ++ htod32a p.type ++ p.body

theorem Packet.header_length (p : Packet) : p.header.length.toNat = p.body.length + 8 := by
  have h := p.isInt
  show (UInt32.ofNat _).toNat = _
  rw [UInt32.toNat_ofNat']
  exact Nat.mod_eq_of_lt (by omega)

@[simp] theorem length_htod32a (x : UInt32) : (htod32a x).length = 4 := rfl

theorem Packet.encode_length (p : Packet) : p.encode.length = p.body.length + 8 := by
  unfold Packet.encode
  simp only [length_append, length_htod32a]
  omega

theorem htod32a_dtoh32a (a b c d : UInt8) : htod32a (dtoh32a [a, b, c, d] 0) = [a, b, c, d] := by
  have ha := a.toNat_lt
  have hb := b.toNat_lt
  have hc := c.toNat_lt
  have hd := d.toNat_lt
  have hn : (dtoh32a [a, b, c, d] 0).toNat =
      a.toNat + 2 ^ 8 * b.toNat + 2 ^ 16 * c.toNat + 2 ^ 24 * d.toNat := by
    show (UInt32.ofNat (a.toNat + 2 ^ 8 * b.toNat + 2 ^ 16 * c.toNat + 2 ^ 24 * d.toNat)).toNat =
      a.toNat + 2 ^ 8 * b.toNat + 2 ^ 16 * c.toNat + 2 ^ 24 * d.toNat
    rw [UInt32.toNat_ofNat']
    exact Nat.mod_eq_of_lt (by omega)
  have hbyte (n : Nat) (x : UInt8) (h : n % 256 = x.toNat) : UInt8.ofNat n = x := by
    rw [← UInt8.toNat_inj, UInt8.toNat_ofNat']
    exact h
  unfold htod32a
  rw [hn, hbyte _ a (by omega), hbyte _ b (by omega), hbyte _ c (by omega), hbyte _ d (by omega)]

theorem dtoh32a_first (x y : UInt32) : dtoh32a (htod32a x ++ htod32a y) 0 = x :=
  toUInt32_bytes x

theorem dtoh32a_second (x y : UInt32) : dtoh32a (htod32a x ++ htod32a y) 4 = y :=
  toUInt32_bytes y

/-- The length of a body, as `ptp_ptpip_generic_read` computes it. -/
theorem bodyLength (p : Packet) : (p.header.length - 8).toInt32.toInt = p.body.length := by
  have h := p.header_length
  have hint := p.isInt
  rw [sub_toInt, h]
  have h8 : (8 : UInt32).toNat = 8 := rfl
  rw [h8, if_pos (by omega), if_pos (by omega), Nat.add_sub_cancel]

variable {socket : List (Piece UInt8)} {p : Packet}

theorem genericRead_encode {rest : List UInt8}
    (h : arriving socket = p.encode ++ rest) :
    (genericRead socket).1 = .ok (p.header, p.body) ∧ arriving (genericRead socket).2 = rest := by
  have hlength : (arriving socket).length = p.body.length + 8 + rest.length := by
    rw [h, length_append, p.encode_length]
  obtain ⟨hxhdr, harriving⟩ := @readFull_of_le _ 8 socket (by omega)
  have hbytes : arriving socket =
      (htod32a p.header.length ++ htod32a p.type) ++ (p.body ++ rest) := by
    rw [h, Packet.encode]
    simp only [append_assoc]
  have htake : (arriving socket).take 8 = htod32a p.header.length ++ htod32a p.type := by
    rw [hbytes]
    rfl
  have hdrop : (arriving socket).drop 8 = p.body ++ rest := by
    rw [hbytes]
    rfl
  rw [htake] at hxhdr
  rw [hdrop] at harriving
  unfold genericRead
  generalize readFull 8 socket = first at *
  obtain ⟨xhdr, socket₁⟩ := first
  cases hxhdr
  obtain ⟨hdata, hrest⟩ := @readFull_of_le _ p.body.length socket₁ (by
    rw [harriving, length_append]
    omega)
  rw [harriving, List.take_left] at hdata
  rw [harriving, List.drop_left] at hrest
  simp only [dtoh32a_first, dtoh32a_second, bodyLength]
  rw [if_neg (by omega), Int.toNat_natCast]
  generalize readFull p.body.length socket₁ = second at *
  obtain ⟨data, socket₂⟩ := second
  cases hdata
  exact ⟨rfl, hrest⟩

/-- The length of a body that is read, in terms of the one in the header. -/
theorem toNat_of_bodyLength {length : UInt32} {n : Nat}
    (hneg : ¬ (length - 8).toInt32.toInt < 0) (hn : n = (length - 8).toInt32.toInt.toNat) :
    length.toNat = n + 8 ∧ n < 2 ^ 31 := by
  have hlt := length.toNat_lt
  have h8 : (8 : UInt32).toNat = 8 := rfl
  rw [sub_toInt, h8] at hneg hn
  split_ifs at hneg hn with h₁ h₂ h₂
  · rw [Int.toNat_natCast] at hn
    omega
  · omega
  · omega
  · omega

/-- The eight bytes of a header are the numbers that are read from them. -/
theorem header_bytes {xhdr : List UInt8} (h : xhdr.length = 8) :
    htod32a (dtoh32a xhdr 0) ++ htod32a (dtoh32a xhdr 4) = xhdr := by
  match xhdr, h with
  | [a, b, c, d, a', b', c', d'], _ =>
    exact congrArg₂ (· ++ ·) (htod32a_dtoh32a a b c d) (htod32a_dtoh32a a' b' c' d')

theorem genericRead_eq_ok {socket' : List (Piece UInt8)} {hdr : PTPIPHeader}
    {data : List UInt8} (h : genericRead socket = (.ok (hdr, data), socket')) :
    ∃ p : Packet, p.header = hdr ∧ p.body = data ∧
      arriving socket = p.encode ++ arriving socket' := by
  unfold genericRead at h
  cases hfirst : readFull 8 socket with
  | mk xhdr socket₁ =>
    rw [hfirst] at h
    cases xhdr with
    | none => cases h
    | some xhdr =>
      simp only at h
      by_cases hneg : (dtoh32a xhdr 0 - 8).toInt32.toInt < 0
      · rw [if_pos hneg] at h
        cases h
      · rw [if_neg hneg] at h
        cases hsecond : readFull (dtoh32a xhdr 0 - 8).toInt32.toInt.toNat socket₁ with
        | mk body socket₂ =>
          rw [hsecond] at h
          cases body with
          | none => cases h
          | some body =>
            cases h
            obtain ⟨h8, harriving⟩ := readFull_eq_some hfirst
            obtain ⟨hlength, hrest⟩ := readFull_eq_some hsecond
            obtain ⟨hnat, hint⟩ := toNat_of_bodyLength hneg hlength
            have hheader : UInt32.ofNat (data.length + 8) = dtoh32a xhdr 0 := by
              rw [← hnat, UInt32.ofNat_toNat]
            refine ⟨⟨dtoh32a xhdr 4, data, hint⟩, ?_, rfl, ?_⟩
            · rw [Packet.header, hheader]
            · rw [harriving, hrest, Packet.encode, Packet.header, hheader, header_bytes h8,
                append_assoc]

theorem genericRead_error {socket' : List (Piece UInt8)} {ret : UInt16}
    (h : genericRead socket = (.error ret, socket')) : ret = ptpRcGeneralError := by
  unfold genericRead at h
  cases hfirst : readFull 8 socket with
  | mk xhdr socket₁ =>
    rw [hfirst] at h
    cases xhdr with
    | none =>
      cases h
      rfl
    | some xhdr =>
      simp only at h
      by_cases hneg : (dtoh32a xhdr 0 - 8).toInt32.toInt < 0
      · rw [if_pos hneg] at h
        cases h
        rfl
      · rw [if_neg hneg] at h
        cases hsecond : readFull (dtoh32a xhdr 0 - 8).toInt32.toInt.toNat socket₁ with
        | mk body socket₂ =>
          rw [hsecond] at h
          cases body with
          | none =>
            cases h
            rfl
          | some body => cases h

/-! ### Sequences of packets -/

/-- Bytes that do not start with a packet. -/
def Incomplete (tail : List UInt8) : Prop :=
  ∀ (p : Packet) (rest : List UInt8), tail ≠ p.encode ++ rest

/-- The packets that bytes consist of, up to an incomplete one. -/
def Framed (bytes : List UInt8) (packets : List Packet) : Prop :=
  ∃ tail, bytes = packets.flatMap Packet.encode ++ tail ∧ Incomplete tail

theorem Packet.eq_of_header {q : Packet} (hheader : p.header = q.header)
    (hbody : p.body = q.body) : p = q := by
  have htype : p.type = q.type := congrArg PTPIPHeader.type hheader
  cases p
  cases q
  cases htype
  cases hbody
  rfl

theorem encode_inj {q : Packet} {rest rest' : List UInt8}
    (h : p.encode ++ rest = q.encode ++ rest') : p = q ∧ rest = rest' := by
  have hpos : p.encode ++ rest ≠ [] := by
    rw [← List.length_pos_iff, length_append, p.encode_length]
    omega
  have harriving : arriving [.data (p.encode ++ rest)] = p.encode ++ rest := by
    rw [arriving_data _ _ hpos, arriving_nil, List.append_nil]
  obtain ⟨hread, hrest⟩ := genericRead_encode harriving
  obtain ⟨hread', hrest'⟩ := genericRead_encode (harriving.trans h)
  have hsame := Except.ok.inj (hread.symm.trans hread')
  exact ⟨Packet.eq_of_header (congrArg Prod.fst hsame) (congrArg Prod.snd hsame),
    hrest.symm.trans hrest'⟩

theorem Framed.unique {bytes : List UInt8} {ps qs : List Packet} (h : Framed bytes ps)
    (h' : Framed bytes qs) : ps = qs := by
  induction ps generalizing bytes qs with
  | nil =>
    obtain ⟨tail, rfl, htail⟩ := h
    obtain ⟨tail', htail', -⟩ := h'
    cases qs with
    | nil => rfl
    | cons q qs =>
      rw [flatMap_cons, append_assoc] at htail'
      exact absurd htail' (htail q _)
  | cons p ps ih =>
    obtain ⟨tail, rfl, htail⟩ := h
    obtain ⟨tail', hbytes, htail'⟩ := h'
    rw [flatMap_cons, append_assoc] at hbytes
    cases qs with
    | nil => exact absurd hbytes.symm (htail' p _)
    | cons q qs =>
      rw [flatMap_cons, append_assoc] at hbytes
      obtain ⟨rfl, hrest⟩ := encode_inj hbytes
      rw [ih ⟨tail, rfl, htail⟩ ⟨tail', hrest, htail'⟩]

theorem exists_framed (bytes : List UInt8) : ∃ packets, Framed bytes packets := by
  induction hn : bytes.length using Nat.strongRecOn generalizing bytes with
  | ind n ih =>
    by_cases hincomplete : Incomplete bytes
    · exact ⟨[], bytes, rfl, hincomplete⟩
    · simp only [Incomplete, ne_eq, not_forall, not_not] at hincomplete
      obtain ⟨p, rest, rfl⟩ := hincomplete
      have hlt : rest.length < n := by
        rw [← hn, length_append, p.encode_length]
        omega
      obtain ⟨packets, tail, hrest, htail⟩ := ih rest.length hlt rest rfl
      refine ⟨p :: packets, tail, ?_, htail⟩
      rw [flatMap_cons, append_assoc, hrest]

theorem Framed.of_cons {bytes : List UInt8} {ps : List Packet}
    (h : Framed bytes (p :: ps)) : ∃ rest, bytes = p.encode ++ rest ∧ Framed rest ps := by
  obtain ⟨tail, rfl, htail⟩ := h
  exact ⟨ps.flatMap Packet.encode ++ tail, by rw [flatMap_cons, append_assoc], tail, rfl,
    htail⟩

theorem genericRead_framed {ps : List Packet}
    (h : Framed (arriving socket) (p :: ps)) :
    (genericRead socket).1 = .ok (p.header, p.body) ∧
      Framed (arriving (genericRead socket).2) ps := by
  obtain ⟨rest, hbytes, hrest⟩ := h.of_cons
  obtain ⟨hread, hleft⟩ := genericRead_encode hbytes
  exact ⟨hread, hleft ▸ hrest⟩

theorem genericRead_framed_nil (h : Framed (arriving socket) []) :
    (genericRead socket).1 = .error ptpRcGeneralError := by
  obtain ⟨tail, hbytes, htail⟩ := h
  cases hread : genericRead socket with
  | mk result rest =>
    match result with
    | .error ret => exact congrArg Except.error (genericRead_error hread)
    | .ok (hdr, data) =>
      obtain ⟨p, -, -, harriving⟩ := genericRead_eq_ok hread
      exact absurd (hbytes.symm.trans harriving) (htail p _)

/-! ### Data phases -/

/-- The payload of a `DATA` or `END_DATA` packet, which comes behind its transaction. -/
def Packet.payload (p : Packet) : List UInt8 := p.body.drop 4

/-- The total that a `START_DATA` packet announces. -/
def Packet.total (p : Packet) : Nat := (dtoh32a p.body 4).toNat

/-- `DATA` packets and a last `END_DATA` packet. -/
def DataPackets (packets : List Packet) : Prop :=
  ∃ datas last, packets = datas ++ [last] ∧
    (∀ d ∈ datas, d.type = ptpipDataPacket ∧ 4 ≤ d.body.length) ∧
    last.type = ptpipEndDataPacket ∧ 4 ≤ last.body.length

/-- A sequence of packets starts with a legal data phase, which has a payload and leaves a rest. -/
def DataPhase (packets : List Packet) (payload : List UInt8) (rest : List Packet) : Prop :=
  ∃ start datas, packets = start :: datas ++ rest ∧
    start.type = ptpipStartDataPacket ∧ 8 ≤ start.body.length ∧ DataPackets datas ∧
    payload = datas.flatMap Packet.payload ∧ payload.length = start.total

open List (append_nil length_cons mem_cons mem_map)

variable {τ : Type}

/-! ### Traces -/

/-- A read within the received body, or a parameter count that is not negative. -/
def Trace.Inside : Trace → Prop
  | .read _ off len received => off + len ≤ received
  | .params _ n => 0 ≤ n

def Trace.reader : Trace → Reader
  | .read reader _ _ _ => reader
  | .params reader _ => reader

/-- The trace of a reader between two states. -/
def traceOf (reader : Reader) (w w' : World τ) : List Trace :=
  (w'.log.drop w.log.length).filter fun t => t.reader = reader

/-- The parameters of a body that has room for its code and transaction. -/
theorem paramCount_of_le {p : Packet} (h : 6 ≤ p.body.length) :
    paramCount p.header = ((p.body.length - 6) / 4 : Nat) := by
  have hlength := p.header_length
  have hint := p.isInt
  have h64 : p.header.length.toUInt64.toNat = p.body.length + 8 := by
    rw [UInt32.toNat_toUInt64, hlength]
  have h8 : (p.header.length.toUInt64 - 8).toNat = p.body.length := by
    rw [UInt64.toNat_sub_of_le _ _ (by rw [UInt64.le_iff_toNat_le, h64]; exact Nat.le_add_left _ _),
      h64]
    rfl
  have h6 : (p.header.length.toUInt64 - 8 - 6).toNat = p.body.length - 6 := by
    rw [UInt64.toNat_sub_of_le _ _ (by rw [UInt64.le_iff_toNat_le, h8]; exact h), h8]
    rfl
  have hdiv : ((p.header.length.toUInt64 - 8 - 6) / 4).toNat = (p.body.length - 6) / 4 := by
    rw [UInt64.toNat_div, h6]
    rfl
  have h32 : ((p.header.length.toUInt64 - 8 - 6) / 4).toUInt32.toNat = (p.body.length - 6) / 4 := by
    rw [UInt64.toNat_toUInt32, hdiv]
    exact Nat.mod_eq_of_lt (by omega)
  show (((p.header.length.toUInt64 - 8 - 6) / 4).toUInt32).toBitVec.toInt = _
  rw [BitVec.toInt_eq_toNat_of_lt]
  · exact congrArg Nat.cast h32
  · show 2 * (((p.header.length.toUInt64 - 8 - 6) / 4).toUInt32).toNat < 2 ^ 32
    rw [h32]
    omega

/-- All of the trace is inside exactly if there is room for the code and the transaction. -/
theorem fillTrace_inside_iff (reader : Reader) (limit : Nat) (p : Packet) :
    (∀ t ∈ fillTrace reader limit p.header p.body, t.Inside) ↔ 6 ≤ p.body.length := by
  constructor
  · intro h
    exact h (.read reader 2 4 p.body.length) (by simp [fillTrace])
  · intro h t ht
    unfold fillTrace at ht
    rw [paramCount_of_le h] at ht
    simp only [mem_cons] at ht
    obtain rfl | rfl | rfl | ht := ht
    · show 0 + 2 ≤ p.body.length
      omega
    · exact h
    · exact Int.natCast_nonneg _
    · by_cases hlimit : (((p.body.length - 6) / 4 : Nat) : Int) ≤ limit
      · rw [if_pos hlimit, Int.toNat_natCast] at ht
        obtain ⟨k, hk, rfl⟩ := mem_map.mp ht
        have hlt : k < (p.body.length - 6) / 4 := by simpa using hk
        show 6 + 4 * k + 4 ≤ p.body.length
        omega
      · rw [if_neg hlimit] at ht
        cases ht

theorem fillTrace_reader (reader : Reader) (limit : Nat) (hdr : PTPIPHeader) (data : List UInt8) :
    ∀ t ∈ fillTrace reader limit hdr data, t.reader = reader := by
  intro t ht
  unfold fillTrace at ht
  simp only [mem_cons] at ht
  obtain rfl | rfl | rfl | ht := ht
  · rfl
  · rfl
  · rfl
  · split at ht
    · obtain ⟨k, -, rfl⟩ := mem_map.mp ht
      rfl
    · cases ht

/-! ### Traces of a call -/

theorem traceOf_append {reader : Reader} {w w' : World τ} {new : List Trace}
    (h : w'.log = w.log ++ new) (hnew : ∀ t ∈ new, t.reader = reader) :
    traceOf reader w w' = new := by
  unfold traceOf
  rw [h, List.drop_left]
  exact List.filter_eq_self.mpr fun t ht => decide_eq_true (hnew t ht)

theorem traceOf_append_append {reader : Reader} {w w' : World τ} {old new : List Trace}
    (h : w'.log = w.log ++ old ++ new) (hold : ∀ t ∈ old, t.reader ≠ reader)
    (hnew : ∀ t ∈ new, t.reader = reader) : traceOf reader w w' = new := by
  unfold traceOf
  rw [h, List.append_assoc, List.drop_left, List.filter_append,
    List.filter_eq_nil_iff.mpr fun t ht => by simpa using hold t ht, List.nil_append]
  exact List.filter_eq_self.mpr fun t ht => decide_eq_true (hnew t ht)

/-! ### The event reader -/

/-- The event packet that the reader comes to: those before it are of another type, and `select`
is ready for each. -/
inductive ComesTo : List SelectAnswer → List (Piece UInt8) → PTPIPHeader → List UInt8 → Prop
  | here {selects : List SelectAnswer} {evt evt' : List (Piece UInt8)} {hdr : PTPIPHeader}
      {data : List UInt8} (hread : genericRead evt = (.ok (hdr, data), evt'))
      (htype : hdr.type = ptpipEvent) : ComesTo (.ready :: selects) evt hdr data
  | pass {selects : List SelectAnswer} {evt evt' : List (Piece UInt8)} {hdr hdr' : PTPIPHeader}
      {data data' : List UInt8} (hread : genericRead evt = (.ok (hdr', data'), evt'))
      (htype : hdr'.type ≠ ptpipEvent) (hrest : ComesTo selects evt' hdr data) :
      ComesTo (.ready :: selects) evt hdr data

variable {selects : List SelectAnswer} {evt : List (Piece UInt8)} {data : List UInt8}

theorem eventRead_eq_ok {selects' : List SelectAnswer} {evt' : List (Piece UInt8)}
    {hdr : PTPIPHeader}
    (h : eventRead selects evt = (.ok (hdr, data), selects', evt')) :
    ComesTo selects evt hdr data := by
  induction selects generalizing evt with
  | nil => cases h
  | cons answer selects ih =>
    cases answer with
    | error => cases h
    | timeout => cases h
    | ready =>
      rw [eventRead] at h
      cases hread : genericRead evt with
      | mk result rest =>
        rw [hread] at h
        match result with
        | .error ret => cases h
        | .ok (hdr', data') =>
          simp only at h
          by_cases htype : hdr'.type = ptpipEvent
          · rw [if_pos htype] at h
            cases h
            exact .here hread htype
          · rw [if_neg htype] at h
            exact .pass hread htype (ih h)

theorem ComesTo.eventRead {hdr : PTPIPHeader} (h : ComesTo selects evt hdr data) :
    (eventRead selects evt).1 = .ok (hdr, data) := by
  induction h with
  | here hread htype =>
    rw [Ptpip.eventRead, hread]
    simp only [if_pos htype]
  | pass hread htype _ ih =>
    rw [Ptpip.eventRead, hread]
    simp only [if_neg htype]
    exact ih

theorem ComesTo.packet {hdr : PTPIPHeader} (h : ComesTo selects evt hdr data) :
    ∃ p : Packet, p.header = hdr ∧ p.body = data ∧ p.type = ptpipEvent := by
  induction h with
  | here hread htype =>
    obtain ⟨p, rfl, hdata, -⟩ := genericRead_eq_ok hread
    exact ⟨p, rfl, hdata, htype⟩
  | pass _ _ _ ih => exact ih

/-- The event reader reads nothing outside of a body. What it returns with `PTP_RC_OK` is from
the event packet it has come to, which has room for a code and a transaction; otherwise the
event of the caller stays as it is. -/
def EventSafe (event : PTPContainer) (w : World τ) : Prop :=
  let ((ret, event'), w') := ptpPtpipEvent event w
  (∀ t ∈ traceOf .event w w', t.Inside) ∧
  (ret = ptpRcOk → ∃ hdr data, ComesTo w.selects w.evt hdr data ∧ 6 ≤ data.length ∧
    event' = fillContainer 3 w.beyond hdr data event) ∧
  (ret ≠ ptpRcOk → event' = event)

theorem eventRead_error {ret : UInt16}
    (h : (eventRead selects evt).1 = .error ret) : ret ≠ ptpRcOk := by
  induction selects generalizing evt with
  | nil =>
    cases h
    decide
  | cons answer selects ih =>
    cases answer with
    | error =>
      cases h
      decide
    | timeout =>
      cases h
      decide
    | ready =>
      rw [eventRead] at h
      cases hread : genericRead evt with
      | mk result rest =>
        rw [hread] at h
        match result with
        | .error ret' =>
          cases h
          rw [genericRead_error hread]
          decide
        | .ok (hdr, data) =>
          simp only at h
          by_cases htype : hdr.type = ptpipEvent
          · rw [if_pos htype] at h
            cases h
          · rw [if_neg htype] at h
            exact ih h

theorem event_safe_iff (event : PTPContainer) (w : World τ) :
    EventSafe event w ↔ ∀ hdr data, ComesTo w.selects w.evt hdr data → 6 ≤ data.length := by
  unfold EventSafe ptpPtpipEvent
  cases hread : eventRead w.selects w.evt with
  | mk result rest =>
    obtain ⟨selects, evt⟩ := rest
    match result with
    | .error ret =>
      have hret : ret ≠ ptpRcOk := eventRead_error (congrArg Prod.fst hread)
      refine iff_of_true ⟨?_, fun hok => absurd hok hret, fun _ => rfl⟩ ?_
      · have htrace : traceOf .event w { w with selects := selects, evt := evt } = [] :=
          traceOf_append (append_nil _).symm fun t ht => by cases ht
        rw [htrace]
        intro t ht
        cases ht
      · intro hdr data hcomes
        have hok := hcomes.eventRead
        rw [hread] at hok
        cases hok
    | .ok (hdr, data) =>
      have hcomes := eventRead_eq_ok hread
      obtain ⟨p, rfl, rfl, -⟩ := hcomes.packet
      simp only
      rw [traceOf_append rfl (fillTrace_reader .event 3 p.header p.body), fillTrace_inside_iff]
      constructor
      · rintro ⟨h6, -⟩ hdr' data' hcomes'
        have hsame := hcomes.eventRead.symm.trans hcomes'.eventRead
        cases hsame
        exact h6
      · intro h
        have h6 := h _ _ hcomes
        exact ⟨h6, fun _ => ⟨p.header, p.body, hcomes, h6, rfl⟩, fun hne => absurd rfl hne⟩

/-! ### Responses -/

/-- `ptp_ptpip_getresp` reads nothing outside of the body. What it returns with `PTP_RC_OK` is from
a response that has room for a code and a transaction; otherwise the container of the caller
stays as it is. -/
def RespSafe (resp : PTPContainer) (w : World τ) : Prop :=
  let ((ret, resp'), w') := ptpPtpipGetresp resp w
  (∀ t ∈ traceOf .getresp w w', t.Inside) ∧
  (ret = ptpRcOk → ∃ hdr data rest, genericRead w.cmd = (.ok (hdr, data), rest) ∧
    hdr.type = ptpipCmdResponse ∧ 6 ≤ data.length ∧
    resp' = fillContainer 5 w.beyond hdr data resp) ∧
  (ret ≠ ptpRcOk → resp' = resp)

variable (a b : UInt8) (w : World τ)

theorem checkEvent_frame :
    ∃ selects evt events new, (∀ t ∈ new, t.reader = .event) ∧
      checkEvent w = { w with
        selects := selects, evt := evt, events := events, log := w.log ++ new } := by
  unfold checkEvent ptpPtpipEvent
  cases eventRead w.selects w.evt with
  | mk result rest =>
    obtain ⟨selects, evt⟩ := rest
    match result with
    | .error ret =>
      refine ⟨selects, evt, w.events, [], ?_, ?_⟩
      · intro t ht
        cases ht
      · simp only [PTPContainer.zero, if_true, ite_self, append_nil]
    | .ok (hdr, data) =>
      simp only [ne_eq, not_true_eq_false, if_false]
      by_cases hcode : (fillContainer 3 w.beyond hdr data .zero).code = 0
      · rw [if_pos hcode]
        exact ⟨selects, evt, w.events, _, fillTrace_reader .event 3 hdr data, rfl⟩
      · rw [if_neg hcode]
        exact ⟨selects, evt, _, _, fillTrace_reader .event 3 hdr data, rfl⟩

theorem cmdRead_frame :
    ∃ selects evt events new, (∀ t ∈ new, t.reader = .event) ∧
      cmdRead w = ((genericRead w.cmd).1, { w with
        cmd := (genericRead w.cmd).2, selects := selects, evt := evt, events := events
        log := w.log ++ new }) := by
  obtain ⟨selects, evt, events, new, hnew, hcheck⟩ := checkEvent_frame w
  refine ⟨selects, evt, events, new, hnew, ?_⟩
  rw [cmdRead, hcheck]

theorem resp_safe_iff (resp : PTPContainer) (w : World τ) :
    RespSafe resp w ↔ ∀ hdr data rest, genericRead w.cmd = (.ok (hdr, data), rest) →
      hdr.type = ptpipCmdResponse ∧ 6 ≤ data.length := by
  obtain ⟨selects, evt, events, new, hnew, hcmd⟩ := cmdRead_frame w
  have hother : ∀ t ∈ new, t.reader ≠ .getresp := fun t ht heq => by
    rw [hnew t ht] at heq
    cases heq
  unfold RespSafe ptpPtpipGetresp
  rw [hcmd]
  cases hread : genericRead w.cmd with
  | mk result cmd =>
    match result with
    | .error ret =>
      have hret : ret ≠ ptpRcOk := by
        rw [genericRead_error hread]
        decide
      refine iff_of_true ⟨?_, fun hok => absurd hok hret, fun _ => rfl⟩ ?_
      · have htrace : traceOf .getresp w { w with
            selects := selects, evt := evt, events := events, log := w.log ++ new, cmd := cmd } =
            [] :=
          traceOf_append_append (append_nil _).symm hother fun t ht => by cases ht
        rw [htrace]
        intro t ht
        cases ht
      · intro hdr data rest hok
        cases hok
    | .ok (hdr, data) =>
      obtain ⟨p, rfl, rfl, -⟩ := genericRead_eq_ok hread
      simp only
      rw [traceOf_append_append rfl hother (fillTrace_reader .getresp 5 p.header p.body),
        fillTrace_inside_iff]
      constructor
      · rintro ⟨-, hok, -⟩ hdr data rest heq
        obtain ⟨hdr', data', rest', heq', htype, h6, -⟩ := hok trivial
        cases heq.symm.trans heq'
        exact ⟨htype, h6⟩
      · intro h
        obtain ⟨htype, h6⟩ := h _ _ _ rfl
        exact ⟨h6, fun _ => ⟨_, _, _, rfl, htype, h6, rfl⟩, fun hne => absurd rfl hne⟩

/-! ### Acknowledgements -/

/-- A 16-bit zero ends the name within the body. -/
def NameEnds (data : List UInt8) : Prop :=
  ∃ i, 20 + 2 * i + 2 ≤ data.length ∧ data[20 + 2 * i]? = some 0 ∧ data[20 + 2 * i + 1]? = some 0

/-- `ptp_ptpip_init_command_ack` reads nothing outside of the body. What it stores with
`PTP_RC_OK` is from an acknowledgement; otherwise nothing is stored. -/
def AckSafe (w : World τ) : Prop :=
  ∃ ret w', ptpPtpipInitCommandAck w = some (ret, w') ∧
    (∀ t ∈ traceOf .initCommandAck w w', t.Inside) ∧
    (ret = ptpRcOk → ∃ hdr data rest, genericRead w.cmd = (.ok (hdr, data), rest) ∧
      hdr.type = ptpipInitCommandAck ∧ 20 ≤ data.length) ∧
    (ret ≠ ptpRcOk → w'.eventpipeid = w.eventpipeid ∧ w'.cameraguid = w.cameraguid ∧
      w'.cameraname = w.cameraname)

theorem scanName_cons (rest : List UInt8) :
    scanName (a :: b :: rest) =
      if dtoh16a [a, b] 0 = 0 then some [] else (scanName rest).map (dtoh16a [a, b] 0 :: ·) := rfl

theorem dtoh16a_eq_zero_iff : dtoh16a [a, b] 0 = 0 ↔ a = 0 ∧ b = 0 := by
  have ha := a.toNat_lt
  have hb := b.toNat_lt
  have h0 : (0 : UInt8).toNat = 0 := rfl
  show UInt16.ofNat (a.toNat + 2 ^ 8 * b.toNat) = 0 ↔ _
  rw [← UInt16.toNat_inj, UInt16.toNat_ofNat', Nat.mod_eq_of_lt (by omega), ← UInt8.toNat_inj,
    ← UInt8.toNat_inj, h0]
  show a.toNat + 2 ^ 8 * b.toNat = 0 ↔ _
  omega

theorem scanName_length {data : List UInt8} {name : List UInt16}
    (h : scanName data = some name) : 2 * (name.length + 1) ≤ data.length := by
  match data with
  | [] => cases h
  | [a] => cases h
  | a :: b :: rest =>
    rw [scanName_cons] at h
    rw [length_cons, length_cons]
    by_cases hzero : dtoh16a [a, b] 0 = 0
    · rw [if_pos hzero] at h
      cases h
      show 2 * (0 + 1) ≤ _
      omega
    · rw [if_neg hzero] at h
      obtain ⟨name', hname', rfl⟩ := Option.map_eq_some_iff.mp h
      have := scanName_length hname'
      rw [length_cons]
      omega

theorem scanName_isSome_iff (data : List UInt8) :
    (scanName data).isSome ↔
      ∃ i, 2 * i + 2 ≤ data.length ∧ data[2 * i]? = some 0 ∧ data[2 * i + 1]? = some 0 := by
  match data with
  | [] => simp [scanName]
  | [a] =>
    refine iff_of_false (by simp [scanName]) ?_
    rintro ⟨i, hlt, -⟩
    rw [List.length_singleton] at hlt
    omega
  | a :: b :: rest =>
    rw [scanName_cons]
    by_cases hzero : dtoh16a [a, b] 0 = 0
    · rw [if_pos hzero]
      obtain ⟨rfl, rfl⟩ := (dtoh16a_eq_zero_iff a b).mp hzero
      refine iff_of_true rfl ⟨0, ?_, rfl, rfl⟩
      rw [length_cons, length_cons]
      omega
    · rw [if_neg hzero, Option.isSome_map, scanName_isSome_iff rest]
      constructor
      · rintro ⟨i, hlt, h₁, h₂⟩
        refine ⟨i + 1, ?_, h₁, h₂⟩
        rw [length_cons, length_cons]
        omega
      · rintro ⟨i, hlt, h₁, h₂⟩
        rw [length_cons, length_cons] at hlt
        cases i with
        | zero =>
          exact absurd ((dtoh16a_eq_zero_iff a b).mpr
            ⟨Option.some.inj h₁, Option.some.inj h₂⟩) hzero
        | succ i => exact ⟨i, by omega, h₁, h₂⟩

theorem nameEnds_iff (data : List UInt8) : NameEnds data ↔ (scanName (data.drop 20)).isSome := by
  rw [scanName_isSome_iff]
  unfold NameEnds
  simp only [List.getElem?_drop, List.length_drop, Nat.add_assoc]
  refine exists_congr fun i => and_congr_left fun _ => ?_
  omega

theorem ack_safe_iff :
    AckSafe w ↔ ∀ hdr data rest, genericRead w.cmd = (.ok (hdr, data), rest) →
      hdr.type = ptpipInitCommandAck → NameEnds data := by
  unfold AckSafe ptpPtpipInitCommandAck
  cases hread : genericRead w.cmd with
  | mk result cmd =>
    have hquiet : ∀ t ∈ traceOf .initCommandAck w { w with cmd := cmd }, t.Inside := by
      have htrace : traceOf .initCommandAck w { w with cmd := cmd } = [] :=
        traceOf_append (append_nil _).symm fun t ht => by cases ht
      rw [htrace]
      intro t ht
      cases ht
    match result with
    | .error ret =>
      have hret : ret ≠ ptpRcOk := by
        rw [genericRead_error hread]
        decide
      refine iff_of_true ⟨ret, _, rfl, hquiet, fun hok => absurd hok hret, fun _ =>
        ⟨rfl, rfl, rfl⟩⟩ ?_
      intro hdr data rest hok
      cases hok
    | .ok (hdr, data) =>
      by_cases htype : hdr.type = ptpipInitCommandAck
      · simp only [htype, ne_eq, not_true_eq_false, if_false]
        constructor
        · rintro ⟨ret, w', h, -⟩ hdr' data' rest heq -
          cases heq
          obtain ⟨name, hname, -⟩ := Option.map_eq_some_iff.mp h
          exact (nameEnds_iff data).mpr (Option.isSome_of_eq_some hname)
        · intro h
          obtain ⟨name, hname⟩ := Option.isSome_iff_exists.mp
            ((nameEnds_iff data).mp (h hdr data cmd rfl htype))
          have hlength := scanName_length hname
          rw [List.length_drop] at hlength
          rw [hname]
          refine ⟨_, _, rfl, ?_, fun _ => ⟨hdr, data, cmd, rfl, htype, by omega⟩,
            fun hne => absurd rfl hne⟩
          rw [traceOf_append rfl]
          · intro t ht
            simp only [mem_cons, mem_map, List.mem_range] at ht
            obtain rfl | rfl | ⟨i, hi, rfl⟩ := ht
            · show 0 + 4 ≤ data.length
              omega
            · show 4 + 16 ≤ data.length
              omega
            · show 20 + 2 * i + 2 ≤ data.length
              omega
          · intro t ht
            simp only [mem_cons, mem_map, List.mem_range] at ht
            obtain rfl | rfl | ⟨i, -, rfl⟩ := ht <;> rfl
      · simp only [ne_eq, htype, not_false_eq_true, if_true]
        refine iff_of_true ⟨_, _, rfl, hquiet, fun hok => absurd hok (by decide), fun _ =>
          ⟨rfl, rfl, rfl⟩⟩ ?_
        intro hdr' data' rest heq htype'
        cases heq
        exact absurd htype' htype

/-! ### All three -/

/-- Which packets the parsers handle as they should: `ptp_ptpip_getresp` responses with room for a
code and a transaction, the event reader event packets with such room, and
`ptp_ptpip_init_command_ack` those of another type, and acknowledgements whose name ends. -/
theorem parsers_safe_iff (c : PTPContainer) (w : World τ) :
    (RespSafe c w ↔ ∀ hdr data rest, genericRead w.cmd = (.ok (hdr, data), rest) →
      hdr.type = ptpipCmdResponse ∧ 6 ≤ data.length) ∧
    (EventSafe c w ↔ ∀ hdr data, ComesTo w.selects w.evt hdr data → 6 ≤ data.length) ∧
    (AckSafe w ↔ ∀ hdr data rest, genericRead w.cmd = (.ok (hdr, data), rest) →
      hdr.type = ptpipInitCommandAck → NameEnds data) :=
  ⟨resp_safe_iff c w, event_safe_iff c w, ack_safe_iff w⟩

/-- A connection on which some bytes have come. -/
def World.received (cmd : List UInt8) (priv : τ) : World τ where
  cmd := [.data cmd]
  evt := []
  selects := []
  writes := fun _ => none
  nwrites := 0
  wire := []
  events := []
  eventpipeid := 0
  cameraguid := []
  cameraname := []
  priv := priv
  handed := []
  gets := []
  beyond := fun _ => 0
  log := []

/-- A handler that takes all it is given, and has nothing to send. -/
def Handler.sink : Handler Unit where
  getfunc _ _ := ((ptpRcOk, []), ())
  putfunc bytes _ := ((ptpRcOk, bytes.length), ())
  getfunc_le _ _ := Nat.zero_le _
  putfunc_le bytes _ := Nat.le_refl bytes.length

/-- A packet without a body is taken for a response with -2 parameters. -/
theorem resp_unsafe :
    ¬ ∀ (τ : Type) (c : PTPContainer) (w : World τ), RespSafe c w ∧ EventSafe c w ∧ AckSafe w := by
  intro h
  obtain ⟨htrace, -⟩ := (h Unit .zero (.received [8, 0, 0, 0, 7, 0, 0, 0] ())).1
  have hinside : (0 : Int) ≤ -2 := htrace (.params .getresp (-2)) (by decide)
  exact absurd hinside (by decide)

end GPhoto2.Ptpip
