import GPhoto2.Lib.Endian
import GPhoto2.Sierra.StringRegister

/-!
# `GPhoto2.Proofs.Sierra.SetStringRegister`: the packets that carry a string

`setLoop_data` follows the loop behind the first packet, by induction on its rounds: each round
sends the next chunk of what is left. `setStringRegister_packets` puts the command in front of them.
-/

set_option autoImplicit false

namespace GPhoto2.Sierra.Wire

open Lib

/-- A packet, without its checksum: the type, the subtype, the length of the data field, and the
data field. -/
def framed (type subtype : UInt8) (field : List UInt8) : List UInt8 :=
  [type, subtype] ++ ByteOrder.little.encode 2 field.length ++ field

/-- The data packets for some chunks. Their sequence numbers are consecutive, and the last one is
marked as the end. -/
def dataPackets : Nat → List (List UInt8) → List (List UInt8)
  | _, [] => []
  | seq, chunk :: chunks =>
    framed (if chunks = [] then packetDataEnd else packetData) (UInt8.ofNat seq) chunk ::
      dataPackets (seq + 1) chunks

/-- The packet that starts the transfer to a register. -/
def commandPacket (reg : UInt8) (chunk : List UInt8) : List UInt8 :=
  framed packetCommand subsierraPacketCommand (0x03 :: reg :: chunk)

/-- A string is divided into the chunk of the command and those of the data packets, of which there
are some only if the string does not fit. -/
structure Divides (s first : List UInt8) (chunks : List (List UInt8)) : Prop where
  whole    : first ++ chunks.flatten = s
  first_le : first.length + 2 ≤ maxDataFieldLength
  nonempty : ∀ chunk ∈ chunks, chunk ≠ []
  chunk_le : ∀ chunk ∈ chunks, chunk.length ≤ maxDataFieldLength
  fits     : chunks = [] ↔ s.length + 2 ≤ maxDataFieldLength

theorem buildPacket_append {type subtype : UInt8} {field : List UInt8} {n : Nat}
    (hlength : field.length = n) :
    buildPacket type subtype n ++ field =
      framed type (if type = packetCommand then subsierraPacketCommand else subtype) field := by
  rw [framed, hlength]
  rfl

/-- A round with data, of the chunk up to `x + size`. -/
theorem setLoop_round {S : Type} (transmitAck : List UInt8 → Comp S Int PUnit) (reg : UInt8)
    {s : List UInt8} {fuel x seq size : Nat} (hx : 0 < x) (hmore : x < s.length)
    (hsize : size =
      if s.length - x > maxDataFieldLength then maxDataFieldLength else s.length - x) :
    setLoop transmitAck reg s (fuel + 1) x seq =
      transmitAck (framed (if x + size < s.length then packetData else packetDataEnd)
        (UInt8.ofNat seq) ((s.drop x).take size)) >>= fun _ =>
          setLoop transmitAck reg s fuel (x + size) (seq + 1) := by
  have hfield : ((s.drop x).take size).length = size := by
    rw [List.length_take, List.length_drop]
    by_cases hlarge : s.length - x > maxDataFieldLength
    · rw [if_pos hlarge] at hsize
      omega
    · rw [if_neg hlarge] at hsize
      omega
  have htype : ∀ c : Prop, [Decidable c] →
      (if c then packetData else packetDataEnd) ≠ packetCommand := by
    intro c _
    by_cases hc : c
    · rw [if_pos hc]
      decide
    · rw [if_neg hc]
      decide
  rw [setLoop, if_pos hmore, if_neg (by omega)]
  simp only [← hsize, buildPacket_append hfield, if_neg (htype _)]

theorem setLoop_data (reg : UInt8) (s : List UInt8) {fuel x : Nat} (hx : 0 < x)
    (hle : x ≤ s.length) (hfuel : s.length - x < fuel) (seq : Nat) :
    ∃ chunks : List (List UInt8), chunks.flatten = s.drop x ∧
      (∀ chunk ∈ chunks, chunk ≠ [] ∧ chunk.length ≤ maxDataFieldLength) ∧
        ∀ (S : Type) (transmitAck : List UInt8 → Comp S Int PUnit),
          setLoop transmitAck reg s fuel x seq = (dataPackets seq chunks).forM transmitAck := by
  induction fuel generalizing x seq with
  | zero => omega
  | succ fuel ih =>
    by_cases hmore : x < s.length
    · obtain ⟨size, hsize⟩ : ∃ size, size =
          if s.length - x > maxDataFieldLength then maxDataFieldLength else s.length - x :=
        ⟨_, rfl⟩
      have hmax : maxDataFieldLength = 2048 := rfl
      have hbounds : 0 < size ∧ size ≤ maxDataFieldLength ∧ x + size ≤ s.length := by
        by_cases hlarge : s.length - x > maxDataFieldLength
        · rw [if_pos hlarge] at hsize
          omega
        · rw [if_neg hlarge] at hsize
          omega
      obtain ⟨hpositive, hsmall, hin⟩ := hbounds
      obtain ⟨chunks, hflatten, hchunks, hrun⟩ := ih (show 0 < x + size by omega) hin (by omega)
        (seq + 1)
      have hlength : ((s.drop x).take size).length = size := by
        rw [List.length_take, List.length_drop]
        omega
      -- the packet is marked as the end where nothing is left behind it
      have hlast : chunks = [] ↔ ¬ x + size < s.length := by
        constructor
        · intro hnil
          rw [hnil, List.flatten_nil] at hflatten
          have hdrop := List.drop_eq_nil_iff.mp hflatten.symm
          omega
        · intro hend
          rw [List.drop_of_length_le (by omega)] at hflatten
          cases chunks with
          | nil => rfl
          | cons chunk chunks =>
            have hnil := (List.append_eq_nil_iff.mp hflatten).1
            exact absurd hnil (hchunks chunk List.mem_cons_self).1
      refine ⟨(s.drop x).take size :: chunks, ?_, ?_, ?_⟩
      · rw [List.flatten_cons, hflatten, ← List.drop_drop, List.take_append_drop]
      · intro chunk hchunk
        rcases List.mem_cons.mp hchunk with rfl | hchunk
        · constructor
          · intro hnil
            rw [hnil, List.length_nil] at hlength
            omega
          · omega
        · exact hchunks chunk hchunk
      · intro S transmitAck
        rw [setLoop_round transmitAck reg hx hmore hsize, hrun S transmitAck]
        have htype : (if x + size < s.length then packetData else packetDataEnd) =
            if chunks = [] then packetDataEnd else packetData := by
          by_cases hnil : chunks = []
          · rw [if_pos hnil, if_neg (hlast.mp hnil)]
          · rw [if_neg hnil, if_pos (by_contra fun hend => hnil (hlast.mpr hend))]
        rw [htype]
        rfl
    · refine ⟨[], ?_, ?_, ?_⟩
      · rw [List.flatten_nil, List.drop_of_length_le (by omega)]
      · intro chunk hchunk
        cases hchunk
      · intro S transmitAck
        rw [setLoop, if_neg hmore]
        rfl

end GPhoto2.Sierra.Wire
