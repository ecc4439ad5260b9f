import GPhoto2.Proofs.Canon.Serial
import GPhoto2.Topfield.Packet

/-!
# `GPhoto2.Proofs.Topfield.Wire`: packets there and back

Swapping the bytes in pairs is its own inverse (`byteSwap_byteSwap`), so what `send_tf_packet`
writes is read back by `get_tf_packet` (`getTfPacket_send`). A packet that was received up to its
length, rounded up to whole pairs, is read without a look at what was in the buffer before.
-/

set_option autoImplicit false

namespace GPhoto2.Topfield

open Lib
open Canon (DifferInBurst feed_ne_of_differInBurst lineBits lineBits_cons table_step)
open List (append_assoc drop_left' drop_take length_append length_drop length_take length_take_le
  take_left' take_take)

/-! ### Swapping -/

@[simp] theorem length_byteSwap (l : List UInt8) : (byteSwap l).length = l.length := by
  induction l using byteSwap.induct with
  | case1 a b d ih => simp [byteSwap, ih]
  | case2 d h => rw [byteSwap]; exact h

theorem byteSwap_byteSwap (l : List UInt8) : byteSwap (byteSwap l) = l := by
  induction l using byteSwap.induct with
  | case1 a b d ih => simp only [byteSwap, ih]
  | case2 d h =>
    have hself : byteSwap d = d := by
      rw [byteSwap]
      exact h
    rw [hself, hself]

variable {p : List UInt8}

theorem exists_cons_cons (h : 2 ≤ p.length) : ∃ a b d, p = a :: b :: d := by
  rcases p with _ | ⟨a, _ | ⟨b, d⟩⟩
  · exact absurd h (by simp)
  · exact absurd h (by simp)
  · exact ⟨a, b, d, rfl⟩

theorem getU16_eq (p : List UInt8) (h : 2 ≤ p.length) :
    getU16 p 0 = 256 * (p.getD 0 0).toNat + (p.getD 1 0).toNat := by
  obtain ⟨a, b, d, rfl⟩ := exists_cons_cons h
  simp [getU16, getBytes, ByteOrder.decode, ofBytes]
  omega

theorem getU16_take {i n : Nat} (h : i + 2 ≤ n) :
    getU16 (p.take n) i = getU16 p i := by
  have hmin : min 2 (n - i) = 2 := by omega
  rw [getU16, getU16, getBytes, getBytes, drop_take, take_take, hmin]

theorem getU16_append {rest : List UInt8} {i : Nat} (h : i + 2 ≤ p.length) :
    getU16 (p ++ rest) i = getU16 p i := by
  rw [← getU16_take (p := p ++ rest) h, List.take_left]

theorem getU16Raw_byteSwap (l rest : List UInt8) (h : 2 ≤ l.length) :
    getU16Raw (byteSwap l ++ rest) = getU16 l 0 := by
  obtain ⟨a, b, d, rfl⟩ := exists_cons_cons h
  rw [getU16_eq _ h]
  rfl

theorem getU16_lt (p : List UInt8) (i : Nat) : getU16 p i < 65536 := by
  have hlt := ByteOrder.decode_lt .big ((p.drop i).take 2)
  have hlength : ((p.drop i).take 2).length ≤ 2 := length_take_le _ _
  have hpow : 256 ^ ((p.drop i).take 2).length ≤ 256 ^ 2 := Nat.pow_le_pow_right (by omega) hlength
  exact Nat.lt_of_lt_of_le hlt hpow

/-! ### The field of the checksum -/

section

variable {p : List UInt8} {value : Nat}

variable (h : 4 ≤ p.length)
include h

theorem length_putU16 : (putU16 p 2 value).length = p.length := by
  simp only [putU16, length_append, length_take, ByteOrder.length_encode,
    length_drop]
  omega

theorem take_putU16 : (putU16 p 2 value).take 2 = p.take 2 := by
  have hlength : (p.take 2).length = 2 := by
    rw [length_take]
    omega
  rw [putU16, append_assoc, take_left' hlength]

theorem drop_putU16 : (putU16 p 2 value).drop 4 = p.drop 4 := by
  have hlength : (p.take 2 ++ ByteOrder.big.encode 2 value).length = 4 := by
    rw [length_append, length_take, ByteOrder.length_encode]
    omega
  rw [putU16, drop_left' hlength]

theorem getU16_putU16_zero : getU16 (putU16 p 2 value) 0 = getU16 p 0 := by
  have htwo : 0 + 2 ≤ 2 := Nat.le_refl 2
  rw [← getU16_take (p := putU16 p 2 value) htwo, take_putU16 h, getU16_take htwo]

theorem getU16_putU16 (hvalue : value < 65536) :
    getU16 (putU16 p 2 value) 2 = value := by
  have hlength : (p.take 2).length = 2 := by
    rw [length_take]
    omega
  have hencode : (ByteOrder.big.encode 2 value).length = 2 := ByteOrder.length_encode _ _ _
  rw [getU16, getBytes, putU16, append_assoc, drop_left' hlength,
    take_left' hencode, ByteOrder.decode_encode _ hvalue]

end

/-! ### The checksum -/

/-- The polynomial of the checksum, the low bit first. -/
def crc16Poly : BitVec 16 := 0xa001

theorem crc16Table_eq : ∀ i : Fin 256,
    crc16Table.getD i.val 0 = ⟨Crc.tableWord crc16Poly (BitVec.ofNat 8 i.val)⟩ := by
  decide +kernel

theorem crc16Ansi_ne_of_burst {s t : List UInt8} (hlen : s.length = t.length) (hne : s ≠ t)
    (hburst : DifferInBurst s t) : crc16Ansi s ≠ crc16Ansi t := by
  have hfeed : ∀ (s : List UInt8) crc, (s.foldl crc16Step crc).toBitVec =
      Crc.feed crc16Poly crc.toBitVec (lineBits s) := by
    intro s
    induction s with
    | nil => exact fun _ => rfl
    | cons b s ih =>
      intro crc
      rw [List.foldl_cons, ih, crc16Step, table_step _ _ crc16Table_eq, lineBits_cons,
        Crc.feed_append]
  intro heq
  have hregister := congrArg UInt16.toBitVec heq
  rw [crc16Ansi, crc16Ansi, hfeed, hfeed] at hregister
  exact feed_ne_of_differInBurst (by decide) hlen hne hburst _ hregister

/-! ### Sending and receiving -/

/-- The packet that `get_tf_packet` leaves in the buffer `old`. -/
def receivedPacket (old bytes : List UInt8) : List UInt8 :=
  swapInPacket (bytes.take maximumPacketSize ++
    old.drop (bytes.take maximumPacketSize).length)

theorem getTfPacket_eq (old bytes : List UInt8) (answers : List Answer) :
    getTfPacket { packet := old, answers := .ok bytes :: answers } =
      if (bytes.take maximumPacketSize).length < packetHeadSize then
        some (.error gpError, ⟨bytes.take maximumPacketSize ++
          old.drop (bytes.take maximumPacketSize).length, answers⟩)
      else if getU16 (receivedPacket old bytes) 0 < packetHeadSize then
        some (.error gpError, ⟨receivedPacket old bytes, answers⟩)
      else
        some (.ok (bytes.take maximumPacketSize).length, ⟨receivedPacket old bytes, answers⟩) :=
  rfl

theorem length_swapInPacket (p : List UInt8) : (swapInPacket p).length = p.length := by
  have hany : ∀ size, (byteSwap (p.take size) ++ p.drop size).length = p.length := by
    intro size
    rw [length_append, length_byteSwap, length_take, length_drop]
    omega
  exact hany _

theorem length_receivedPacket {old : List UInt8} (h : old.length = maximumPacketSize)
    (bytes : List UInt8) : (receivedPacket old bytes).length = maximumPacketSize := by
  have htake : (bytes.take maximumPacketSize).length ≤ maximumPacketSize := length_take_le _ _
  rw [receivedPacket, length_swapInPacket, length_append, length_drop, h]
  omega

/-- A packet that fits is swapped up to its length, rounded up to whole pairs. -/
theorem swapInPacket_eq (h : paddedLength (getU16Raw p) ≤ maximumPacketSize) :
    swapInPacket p = byteSwap (p.take (paddedLength (getU16Raw p))) ++
      p.drop (paddedLength (getU16Raw p)) := by
  have hnot : ¬ (getU16Raw p + 1) / 2 * 2 > maximumPacketSize := Nat.not_lt.mpr h
  simp only [swapInPacket, if_neg hnot]
  rfl

theorem getU16Raw_append {rest : List UInt8} (h : 2 ≤ p.length) :
    getU16Raw (p ++ rest) = getU16Raw p := by
  obtain ⟨a, b, d, rfl⟩ := exists_cons_cons h
  rfl

theorem getU16_swapInPacket (h : 2 ≤ p.length) :
    getU16 (swapInPacket p) 0 = getU16Raw p := by
  obtain ⟨a, b, d, rfl⟩ := exists_cons_cons h
  have hany : ∀ size, 2 ≤ size →
      getU16 (byteSwap ((a :: b :: d).take size) ++ (a :: b :: d).drop size) 0 =
        getU16Raw (a :: b :: d) := by
    intro size hsize
    obtain ⟨n, rfl⟩ := Nat.exists_eq_add_of_le' hsize
    rw [List.take_succ_cons, List.take_succ_cons, byteSwap, getU16_append (by simp),
      getU16_eq _ (by simp)]
    rfl
  by_cases hzero : getU16Raw (a :: b :: d) = 0
  · -- nothing is swapped, and both bytes are zero
    have hbytes : 256 * b.toNat + a.toNat = 0 := hzero
    have hsize : swapInPacket (a :: b :: d) = a :: b :: d := by
      rw [swapInPacket_eq (by rw [hzero]; exact Nat.zero_le _), hzero]
      rfl
    rw [hsize, getU16_eq _ h, hzero]
    show 256 * a.toNat + b.toNat = 0
    omega
  · have hmaximum : maximumPacketSize = 65535 := rfl
    by_cases hlarge : (getU16Raw (a :: b :: d) + 1) / 2 * 2 > maximumPacketSize
    · simp only [swapInPacket, if_pos hlarge]
      exact hany _ (by omega)
    · simp only [swapInPacket, if_neg hlarge]
      exact hany _ (by omega)

/-- A packet that arrives whole, in the pairs of the wire. -/
theorem getTfPacket_byteSwap {q : List UInt8} (hq : q.length = paddedLength (getU16 q 0))
    (hhead : packetHeadSize ≤ getU16 q 0) (hfits : getU16 q 0 < maximumPacketSize)
    (old : List UInt8) (answers : List Answer) :
    getTfPacket ⟨old, .ok (byteSwap q) :: answers⟩ =
      some (.ok q.length, ⟨q ++ old.drop q.length, answers⟩) := by
  have hmaximum : maximumPacketSize = 65535 := rfl
  have hheadsize : packetHeadSize = 8 := rfl
  have hpadded : getU16 q 0 ≤ q.length ∧ q.length ≤ maximumPacketSize := by
    rw [hq, paddedLength]
    omega
  obtain ⟨hge, hle⟩ := hpadded
  have hall : (byteSwap q).take maximumPacketSize = byteSwap q :=
    List.take_of_length_le (by rw [length_byteSwap]; exact hle)
  have hraw : getU16Raw (byteSwap q ++ old.drop q.length) = getU16 q 0 :=
    getU16Raw_byteSwap _ _ (by omega)
  have hpacket : receivedPacket old (byteSwap q) = q ++ old.drop q.length := by
    rw [receivedPacket, hall, length_byteSwap, swapInPacket_eq (by rw [hraw, ← hq]; exact hle),
      hraw, ← hq, take_left' (length_byteSwap q), drop_left' (length_byteSwap q),
      byteSwap_byteSwap]
  rw [getTfPacket_eq, hpacket, getU16_append (by omega), hall, length_byteSwap,
    if_neg (by omega), if_neg (by omega)]

/-- What follows the field for the checksum, up to the length of the packet. -/
def content (p : List UInt8) : List UInt8 := (p.drop 4).take (getU16 p 0 - 4)

theorem getCrc_content {known : Nat} (hfour : 4 ≤ getU16 p 0) (hknown : getU16 p 0 ≤ known) :
    getCrc known p = some (crc16Ansi (content p)) := if_pos ⟨hfour, hknown⟩

theorem getCrc_arrived {q : List UInt8} (hfour : 4 ≤ getU16 q 0) (hknown : getU16 q 0 ≤ q.length)
    (rest : List UInt8) : getCrc q.length (q ++ rest) = some (crc16Ansi (content q)) := by
  have hzero : getU16 (q ++ rest) 0 = getU16 q 0 := getU16_append (by omega)
  rw [getCrc_content (by omega) (by omega), content, hzero,
    List.drop_append_of_le_length (by omega),
    List.take_append_of_le_length (by rw [length_drop]; omega), content]

section

variable (hp : p.length = maximumPacketSize) (hhead : packetHeadSize ≤ getU16 p 0)
  (hfits : getU16 p 0 < maximumPacketSize)
include hp hhead hfits

/-- What `send_tf_packet` writes, as a packet. -/
theorem sendTfPacket_eq : ∃ q, sendTfPacket p = some (byteSwap q) ∧
    q = (putU16 p 2 (crc16Ansi (content p)).toNat).take (paddedLength (getU16 p 0)) ∧
      q.length = paddedLength (getU16 q 0) ∧ getU16 q 0 = getU16 p 0 ∧
        getU16 q 2 = (crc16Ansi (content p)).toNat ∧ content q = content p := by
  have hmaximum : maximumPacketSize = 65535 := rfl
  have hheadsize : packetHeadSize = 8 := rfl
  have hfour : 4 ≤ p.length := by omega
  obtain ⟨n, hn⟩ : ∃ n, n = paddedLength (getU16 p 0) := ⟨_, rfl⟩
  have hpadded : getU16 p 0 ≤ n ∧ 8 ≤ n ∧ n ≤ maximumPacketSize := by
    rw [hn, paddedLength]
    omega
  obtain ⟨hge, height, hle⟩ := hpadded
  obtain ⟨q, hq⟩ : ∃ q, q = (putU16 p 2 (crc16Ansi (content p)).toNat).take n := ⟨_, rfl⟩
  have hlength : getU16 q 0 = getU16 p 0 := by
    rw [hq, getU16_take (by omega), getU16_putU16_zero hfour]
  have hmin : min (getU16 p 0 - 4) (n - 4) = getU16 p 0 - 4 := by omega
  refine ⟨q, ?_, by rw [hq, hn], ?_, hlength, ?_, ?_⟩
  · rw [sendTfPacket, getCrc_content (by omega) (by omega), Option.bind_some, ← hn, if_pos hle, hq]
  · rw [hlength, ← hn, hq, length_take, length_putU16 hfour]
    omega
  · rw [hq, getU16_take (by omega), getU16_putU16 hfour (UInt16.toNat_lt _)]
  · rw [content, hlength, hq, drop_take, drop_putU16 hfour, take_take, hmin, content]

/-- **What `send_tf_packet` writes is read back**, for every packet that fits with its length
rounded up. -/
theorem getTfPacket_send (old : List UInt8) (answers : List Answer) :
    ∃ crc bytes packet, getCrc maximumPacketSize p = some crc ∧ sendTfPacket p = some bytes ∧
      getTfPacket ⟨old, .ok bytes :: answers⟩ = some (.ok bytes.length, ⟨packet, answers⟩) ∧
        packet.take (getU16 p 0) = (putU16 p 2 crc.toNat).take (getU16 p 0) ∧
          getU16 packet 2 = crc.toNat ∧ getCrc bytes.length packet = some crc := by
  obtain ⟨q, hsend, htake, hq, hlength, hcrc, hcontent⟩ := sendTfPacket_eq hp hhead hfits
  have hheadsize : packetHeadSize = 8 := rfl
  have hpadded : getU16 p 0 ≤ q.length := by
    rw [hq, paddedLength]
    omega
  refine ⟨_, _, q ++ old.drop q.length, getCrc_content (by omega) (by omega), hsend, ?_, ?_, ?_,
    ?_⟩
  · rw [getTfPacket_byteSwap hq (by omega) (by omega), length_byteSwap]
  · rw [List.take_append_of_le_length hpadded, htake, take_take,
      Nat.min_eq_left (by rw [← hlength, ← hq]; omega)]
  · rw [getU16_append (by omega), hcrc]
  · rw [length_byteSwap, ← hcontent]
    exact getCrc_arrived (by omega) (by omega) _

/-- **A burst is noticed.** What is sent is `s`, and `q` arrives instead, with the length and the
checksum of `s`, but with other contents behind them. If these differ within 16 bits in a row, the
packet is returned, and its checksum is wrong. -/
theorem burst_noticed {s q : List UInt8} (hsend : sendTfPacket p = some (byteSwap s))
    (hlength : q.length = s.length) (hfields : q.take 4 = s.take 4) (hne : content q ≠ content s)
    (hburst : DifferInBurst (content q) (content s)) (old : List UInt8) (answers : List Answer) :
    ∃ packet crc, getTfPacket ⟨old, .ok (byteSwap q) :: answers⟩ =
      some (.ok q.length, ⟨packet, answers⟩) ∧ packet.take q.length = q ∧
        getCrc q.length packet = some crc ∧ getU16 packet 2 ≠ crc.toNat := by
  obtain ⟨s', hsend', -, hs, hzero, hcrc, hcontent⟩ := sendTfPacket_eq hp hhead hfits
  obtain rfl : s' = s := by
    rw [hsend'] at hsend
    rw [← byteSwap_byteSwap s', Option.some.inj hsend, byteSwap_byteSwap]
  have hq : ∀ i, i + 2 ≤ 4 → getU16 q i = getU16 s' i := by
    intro i hi
    rw [← getU16_take hi, hfields, getU16_take hi]
  have hq0 := hq 0 (by decide)
  have hheadsize : packetHeadSize = 8 := rfl
  have hpadded : getU16 q 0 ≤ q.length := by
    rw [hlength, hs, paddedLength]
    omega
  refine ⟨q ++ old.drop q.length, _,
    getTfPacket_byteSwap (by rw [hlength, hs, hq0]) (by omega) (by omega) old answers,
    List.take_left, getCrc_arrived (by omega) hpadded _, ?_⟩
  rw [getU16_append (by omega), hq 2 (by decide), hcrc, ← hcontent]
  intro heq
  refine crc16Ansi_ne_of_burst ?_ hne hburst (UInt16.toNat_inj.mp heq).symm
  rw [content, content, length_take, length_take, length_drop, length_drop, hlength, hq0]

end

theorem getTfPacket_eq_ok {old bytes : List UInt8} {answers : List Answer} {r : Nat} {s : Line} :
    getTfPacket ⟨old, .ok bytes :: answers⟩ = some (.ok r, s) ↔
      packetHeadSize ≤ (bytes.take maximumPacketSize).length ∧
        packetHeadSize ≤ getU16 (receivedPacket old bytes) 0 ∧
          r = (bytes.take maximumPacketSize).length ∧
            s = ⟨receivedPacket old bytes, answers⟩ := by
  rw [getTfPacket_eq]
  by_cases hshort : (bytes.take maximumPacketSize).length < packetHeadSize
  · rw [if_pos hshort]
    constructor
    · intro h
      cases h
    · intro h
      omega
  rw [if_neg hshort]
  by_cases hbad : getU16 (receivedPacket old bytes) 0 < packetHeadSize
  · rw [if_pos hbad]
    constructor
    · intro h
      cases h
    · intro h
      omega
  rw [if_neg hbad]
  constructor
  · intro h
    cases h
    exact ⟨Nat.not_lt.mp hshort, Nat.not_lt.mp hbad, rfl, rfl⟩
  · intro h
    obtain ⟨-, -, rfl, rfl⟩ := h
    rfl

/-- A packet that was received up to its length is what was received, whatever was in the buffer
before. -/
theorem receivedPacket_eq {old bytes : List UInt8}
    (hhead : packetHeadSize ≤ (bytes.take maximumPacketSize).length)
    (hwhole : paddedLength (getU16 (receivedPacket old bytes) 0) ≤
      (bytes.take maximumPacketSize).length) :
    receivedPacket old bytes = swapInPacket (bytes.take maximumPacketSize) ++
      old.drop (bytes.take maximumPacketSize).length := by
  rw [receivedPacket] at hwhole ⊢
  have hheadsize : packetHeadSize = 8 := rfl
  have hlength : (bytes.take maximumPacketSize).length ≤ maximumPacketSize :=
    length_take_le _ _
  generalize bytes.take maximumPacketSize = received at *
  rw [getU16_swapInPacket (by rw [length_append]; omega),
    getU16Raw_append (by omega)] at hwhole
  rw [swapInPacket_eq (by rw [getU16Raw_append (by omega)]; omega),
    swapInPacket_eq (by omega), getU16Raw_append (by omega),
    List.take_append_of_le_length hwhole, List.drop_append_of_le_length hwhole, append_assoc]

/-! ### Directories -/

/-- Each entry of the packet has the end of its name in the field for it. -/
def NamesEnd (packet : List UInt8) : Prop :=
  ∀ i < entryCount packet, 0 ∈ (packet.drop (entryAt i + 14)).take 95

section

variable {known : Nat} {packet : List UInt8}

theorem length_takeWhile_lt {l : List UInt8} (h : 0 ∈ l) :
    (l.takeWhile (· ≠ 0)).length < l.length := by
  induction l with
  | nil => cases h
  | cons b l ih =>
    by_cases hzero : b = 0
    · rw [hzero, List.takeWhile_cons_of_neg (by simp)]
      exact Nat.succ_pos _
    · rw [List.takeWhile_cons_of_pos (by simpa using hzero), List.length_cons, List.length_cons]
      have hrest := ih ((List.mem_cons.mp h).resolve_left fun heq => hzero heq.symm)
      omega

theorem readString_of_end {i : Nat} (hin : i + 95 ≤ known)
    (hend : 0 ∈ (packet.drop i).take 95) : ∃ name, readString known packet i = some name := by
  have hmem : 0 ∈ (packet.take known).drop i := by
    have hmin : min 95 (known - i) = 95 := by omega
    rw [drop_take]
    apply List.mem_of_mem_take (i := 95)
    rw [take_take, hmin]
    exact hend
  have hlt := length_takeWhile_lt hmem
  rw [length_drop] at hlt
  simp only [readString]
  rw [if_pos (by omega)]
  exact ⟨_, rfl⟩

theorem forEntries_isSome {α : Type} {filetype : UInt8} {read : Nat → Option α} {n i : Nat}
    (hknown : known ≤ packet.length) (hin : entryAt (i + n) ≤ known)
    (hread : ∀ j, i ≤ j → j < i + n → ∃ a, read (entryAt j) = some a) :
    ∃ l, forEntries known packet filetype read n i = some l := by
  induction n generalizing i with
  | zero => exact ⟨[], rfl⟩
  | succ n ih =>
    have hentry : entryAt (i + (n + 1)) = entryAt i + 114 * (n + 1) := by
      simp only [entryAt, typefileSize]
      omega
    have htype : readFiletype known packet i = some (packet.getD (entryAt i + 5) 0) := by
      rw [readFiletype, List.getElem?_take_of_lt (by omega), List.getD_eq_getElem?_getD,
        List.getElem?_eq_getElem (by omega)]
      rfl
    obtain ⟨rest, hrest⟩ := ih (show entryAt (i + 1 + n) ≤ known by
        rwa [Nat.add_assoc, Nat.add_comm 1 n]) fun j hj hlt => hread j (by omega) (by omega)
    obtain ⟨a, ha⟩ := hread i (Nat.le_refl i) (by omega)
    rw [forEntries, htype]
    simp only [Option.bind_eq_bind, Option.bind_some, ha, hrest]
    by_cases hfound : packet.getD (entryAt i + 5) 0 = filetype
    · rw [if_pos hfound]
      exact ⟨_, rfl⟩
    · rw [if_neg hfound]
      exact ⟨_, rfl⟩

theorem entryAt_entryCount (h : packetHeadSize ≤ getU16 packet 0) :
    entryAt (entryCount packet) ≤ getU16 packet 0 := by
  have hdiv := Nat.mul_div_le (getU16 packet 0 - packetHeadSize) typefileSize
  rw [entryAt, entryCount]
  omega

theorem entryAt_succ_le {i : Nat} (hi : i < entryCount packet)
    (h : packetHeadSize ≤ getU16 packet 0) : entryAt i + 114 ≤ getU16 packet 0 := by
  have hlast := entryAt_entryCount h
  have hmono : typefileSize * (i + 1) ≤ typefileSize * entryCount packet :=
    Nat.mul_le_mul_left _ hi
  have hsize : typefileSize = 114 := rfl
  rw [Nat.mul_add, Nat.mul_one] at hmono
  simp only [entryAt] at hlast ⊢
  omega

/-- The decoders of a directory stay within the packet if the names in it end in their fields. -/
theorem decoders_read (hknown : known ≤ packet.length) (hin : getU16 packet 0 ≤ known)
    (hhead : packetHeadSize ≤ getU16 packet 0) (hends : NamesEnd packet) :
    (∀ listdirs, ∃ names, decodeDir known packet listdirs = some names) ∧
      ∃ files, decodeAndGetInfo known packet = some files := by
  have hall : entryAt (0 + entryCount packet) ≤ known := by
    rw [Nat.zero_add]
    exact Nat.le_trans (entryAt_entryCount hhead) hin
  have hname : ∀ j, 0 ≤ j → j < 0 + entryCount packet →
      ∃ name, readString known packet (entryAt j + 14) = some name := by
    intro j _ hj
    rw [Nat.zero_add] at hj
    have hentry := entryAt_succ_le hj hhead
    exact readString_of_end (by omega) (hends j hj)
  constructor
  · intro listdirs
    cases listdirs with
    | true =>
      obtain ⟨l, hl⟩ := @forEntries_isSome known packet _ 1
        (fun entry => readString known packet (entry + 14)) _ _ hknown hall hname
      exact ⟨_, by rw [decodeDir, if_pos rfl, hl]; rfl⟩
    | false =>
      obtain ⟨l, hl⟩ := @forEntries_isSome known packet _ 2
        (fun entry => readString known packet (entry + 14)) _ _ hknown hall hname
      exact ⟨_, by rw [decodeDir, if_neg Bool.false_ne_true, hl]⟩
  · refine forEntries_isSome hknown hall fun j hj hlt => ?_
    obtain ⟨name, hread⟩ := hname j hj hlt
    rw [Nat.zero_add] at hlt
    have hentry := entryAt_succ_le hlt hhead
    have hsize : readBytes known packet (entryAt j + 6) 8 =
        some ((packet.drop (entryAt j + 6)).take 8) := if_pos (by omega)
    have hstamp : readBytes known packet (entryAt j) 5 =
        some ((packet.drop (entryAt j)).take 5) := if_pos (by omega)
    rw [readTypefile, hread, hsize, hstamp]
    exact ⟨_, rfl⟩

end

/-- A buffer of zeros. -/
def zeroBuffer : List UInt8 := List.replicate maximumPacketSize 0

theorem length_zeroBuffer : zeroBuffer.length = maximumPacketSize := List.length_replicate

/-- A packet of a header, with the command 2. -/
def headPacket : List UInt8 := [0, 8, 0, 0, 0, 0, 0, 2] ++ zeroBuffer.drop 8

theorem length_headPacket : headPacket.length = maximumPacketSize := by
  rw [headPacket, length_append, length_drop, length_zeroBuffer]
  rfl

theorem getU16_headPacket : getU16 headPacket 0 = 8 := rfl

/-- One byte altered. -/
theorem burst_noticed_head : ∃ packet crc,
    getTfPacket ⟨zeroBuffer, [.ok [8, 0, 0x81, 0xc1, 0, 1, 2, 0]]⟩ =
      some (.ok 8, ⟨packet, []⟩) ∧ packet.take 8 = [0, 8, 0xc1, 0x81, 1, 0, 0, 2] ∧
        getCrc 8 packet = some crc ∧ getU16 packet 2 ≠ crc.toNat := by
  refine burst_noticed (s := [0, 8, 0xc1, 0x81, 0, 0, 0, 2]) (q := [0, 8, 0xc1, 0x81, 1, 0, 0, 2])
    length_headPacket (Nat.le_refl 8) (by decide) ?_ rfl rfl (by decide) ⟨0, ?_⟩ zeroBuffer []
  · decide +kernel
  · intro i hdiff
    by_contra hout
    obtain ⟨j, rfl⟩ := Nat.exists_eq_add_of_le' (show 8 ≤ i by omega)
    exact hdiff rfl

end GPhoto2.Topfield
