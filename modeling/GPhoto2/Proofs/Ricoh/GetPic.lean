import GPhoto2.Proofs.Fuji.Packet
import GPhoto2.Ricoh.Packet

/-!
# `GPhoto2.Proofs.Ricoh.GetPic`: when a picture of a Ricoh camera fits its block

The loop of `ricoh_get_pic` stores packet after packet until it has as many bytes as were announced.
`receiveData_ends` follows it over packets that fit, by induction on the calls that are left, and
`receiveData_fits` shows that it is stuck otherwise. `getsPic_iff` puts them together, and
`downloads_iff` adds the downloads of the Fuji driver, whose loop goes on in the same way.
-/

set_option autoImplicit false

namespace GPhoto2.Ricoh

open Lib Comp

/-! ### The packets -/

/-- The bytes that a call adds to the picture. -/
def Reception.chunk (reception : Reception) : List UInt8 :=
  match reception.result with
  | .error _ => []
  | .ok (_, d) => d.bytes

/-- What a call stores. -/
def Reception.stored (reception : Reception) : List (List UInt8) :=
  reception.dropped.map Data.bytes ++ [reception.chunk]

/-- The call returns a packet of a picture. -/
def Reception.IsPicture (reception : Reception) : Prop := ∃ d, reception.result = .ok (0xa2, d)

variable {receptions : Nat → Reception}

/-- The bytes of the first `k` calls. -/
def taken (receptions : Nat → Reception) : Nat → List UInt8
  | 0 => []
  | k + 1 => taken receptions k ++ (receptions k).chunk

/-- The first `k` calls have returned packets of the picture, and there is more to come. -/
def Asks (receptions : Nat → Reception) (total k : Nat) : Prop :=
  (∀ i < k, (receptions i).IsPicture) ∧ (taken receptions k).length < total

/-- The size of the block. -/
def blockSize (type : FileType) (answer : List UInt8) : Nat :=
  (announced answer + headerLen type) % 4294967296

/-- Whatever is stored for a picture fits behind what is there of it, and the packets do not go on
for ever without completing it. -/
structure PicFits (type : FileType) (answer : List UInt8) (receptions : Nat → Reception) :
    Prop where
  inside : ∀ k, Asks receptions (announced answer) k → ∀ chunk ∈ (receptions k).stored,
    chunk.length ≤ blockSize type answer - (headerLen type + (taken receptions k).length)
  ends : ∃ k, ¬ Asks receptions (announced answer) k

/-- What is in front of the bytes of the picture. -/
def headerArea : FileType → List UInt8
  | .normal => []
  | .preview => header

/-- The function comes to an end and stays inside its block, and a picture that it returns has
exactly the announced bytes, those of the packets in their order. -/
def GetsPic (type : FileType) (answer : List UInt8) (receptions : Nat → Reception) : Prop :=
  ∃ fuel, Ends (fun data k => (∀ i < k, (receptions i).IsPicture) ∧
      (taken receptions k).length = announced answer ∧
        data = (headerArea type ++ taken receptions k).map some) (fun _ _ => True)
    (getPic fuel type answer receptions 0)

theorem length_taken_mono {k k' : Nat} (h : k ≤ k') :
    (taken receptions k).length ≤ (taken receptions k').length := by
  induction h with
  | refl => exact Nat.le_refl _
  | step _ ih =>
    rw [taken, List.length_append]
    omega

theorem Asks.of_le {total k k' : Nat} (h : Asks receptions total k') (hle : k ≤ k') :
    Asks receptions total k :=
  ⟨fun i hi => h.1 i (Nat.lt_of_lt_of_le hi hle),
    Nat.lt_of_le_of_lt (length_taken_mono hle) h.2⟩

theorem announced_lt (answer : List UInt8) : announced answer < 4294967296 := by
  have hlt := ByteOrder.decode_lt .little ((answer.drop 12).take 4)
  have hlength : ((answer.drop 12).take 4).length ≤ 4 := List.length_take_le _ _
  have hpow : 256 ^ ((answer.drop 12).take 4).length ≤ 256 ^ 4 :=
    Nat.pow_le_pow_right (by omega) hlength
  exact Nat.lt_of_lt_of_le hlt hpow

theorem headerLen_le (type : FileType) : headerLen type ≤ 236 := by
  cases type with
  | normal => exact Nat.zero_le _
  | preview => exact Nat.le_refl _

/-! ### A call -/

/-- The block has its size, and the bytes so far are in it. -/
structure HoldsPic (receptions : Nat → Reception) (size header k : Nat) (data : Cells UInt8) :
    Prop where
  length_data : data.length = size
  room : (taken receptions k).length = 0 ∨ header + (taken receptions k).length ≤ size
  bytes : (data.drop header).take (taken receptions k).length = (taken receptions k).map some

section

variable {size header k : Nat} {data : Cells UInt8}

theorem recvInto_stuck (hlength : data.length = size)
    (hout : ¬ ∀ chunk ∈ (receptions k).stored,
      chunk.length ≤ size - (header + (taken receptions k).length)) :
    recvInto receptions (header + (taken receptions k).length) data k = none := by
  rw [recvInto]
  cases hdropped : storeAll (header + (taken receptions k).length) data
      ((receptions k).dropped.map Data.bytes) with
  | none => rfl
  | some data₁ =>
    have hall := storeAll_isSome_iff.mp (Option.isSome_of_eq_some hdropped)
    have hlength₁ := (storeAll_spec hdropped).1
    rw [Option.bind_some]
    cases hresult : (receptions k).result with
    | error e =>
      refine absurd ?_ hout
      intro chunk hchunk
      rw [Reception.stored, Reception.chunk, hresult, List.mem_append, List.mem_singleton] at hchunk
      rcases hchunk with hchunk | rfl
      · rw [← hlength]
        exact hall chunk hchunk
      · exact Nat.zero_le _
    | ok packet =>
      obtain ⟨cmd, d⟩ := packet
      have hlarge : data₁.length - (header + (taken receptions k).length) < d.bytes.length := by
        by_contra hfits
        refine hout ?_
        intro chunk hchunk
        rw [Reception.stored, Reception.chunk, hresult, List.mem_append,
          List.mem_singleton] at hchunk
        rcases hchunk with hchunk | rfl
        · rw [← hlength]
          exact hall chunk hchunk
        · rw [← hlength, ← hlength₁]
          exact Nat.not_lt.mp hfits
      show Option.map _ (storeAt _ data₁ d.bytes) = none
      rw [storeAt_of_lt hlarge]
      rfl

theorem HoldsPic.recvInto_run (h : HoldsPic receptions size header k data)
    (hfits : ∀ chunk ∈ (receptions k).stored,
      chunk.length ≤ size - (header + (taken receptions k).length)) :
    (∃ e, (receptions k).result = .error e ∧
      recvInto receptions (header + (taken receptions k).length) data k =
        some (.error e, k + 1)) ∨
    ∃ cmd d data', (receptions k).result = .ok (cmd, d) ∧
      recvInto receptions (header + (taken receptions k).length) data k =
        some (.ok (data', cmd, d.bytes.length), k + 1) ∧
          HoldsPic receptions size header (k + 1) data' := by
  have hlength := h.length_data
  have hdropped : ∀ chunk ∈ (receptions k).dropped.map Data.bytes,
      chunk.length ≤ data.length - (header + (taken receptions k).length) := by
    intro chunk hchunk
    rw [hlength]
    exact hfits chunk (List.mem_append_left _ hchunk)
  obtain ⟨data₁, hstore⟩ := Option.isSome_iff_exists.mp (storeAll_isSome_iff.mpr hdropped)
  obtain ⟨hlength₁, hfront⟩ := storeAll_spec hstore
  rw [recvInto, hstore, Option.bind_some]
  cases hresult : (receptions k).result with
  | error e => exact Or.inl ⟨e, rfl, rfl⟩
  | ok packet =>
    obtain ⟨cmd, d⟩ := packet
    have hchunk : (receptions k).chunk = d.bytes := by rw [Reception.chunk, hresult]
    have hlast := hfits d.bytes (by
      rw [Reception.stored, hchunk]
      exact List.mem_append_right _ (List.mem_singleton.mpr rfl))
    obtain ⟨data', hstore'⟩ := storeAt_of_le
      (show d.bytes.length ≤ data₁.length - (header + (taken receptions k).length) by omega)
    have hlength' := length_storeAt hstore'
    refine Or.inr ⟨cmd, d, data', rfl, ?_, ?_⟩
    · show Option.map _ (storeAt _ data₁ d.bytes) = _
      rw [hstore']
      rfl
    · have htaken : taken receptions (k + 1) = taken receptions k ++ d.bytes := by
        rw [taken, hchunk]
      by_cases hempty : d.bytes = []
      · -- nothing is stored, and the bytes in front stay
        rw [hempty, List.append_nil] at htaken
        have hroom := h.room
        refine ⟨by omega, by rw [htaken]; exact h.room, ?_⟩
        rw [htaken]
        by_cases hnone : (taken receptions k).length = 0
        · rw [hnone, List.length_eq_zero_iff.mp hnone]
          rfl
        · have hin : header + (taken receptions k).length ≤ size := hroom.resolve_left hnone
          have hsame : data'.take (header + (taken receptions k).length) =
              data.take (header + (taken receptions k).length) := by
            rw [take_storeAt_front hstore' (Nat.le_refl _) (by omega), hfront (by omega)]
          rw [← h.bytes, List.take_drop, List.take_drop, hsame]
      · have hpositive : 0 < d.bytes.length := List.length_pos_iff.mpr hempty
        have hin : header + (taken receptions k).length + d.bytes.length ≤ size := by omega
        have hbytes : data'.take (header + (taken receptions k).length + d.bytes.length) =
            data.take (header + (taken receptions k).length) ++ d.bytes.map some := by
          rw [take_storeAt hstore' (by omega), hfront (by omega)]
        have hfrontLength : header ≤ (data.take (header + (taken receptions k).length)).length := by
          rw [List.length_take]
          omega
        refine ⟨by omega, Or.inr ?_, ?_⟩
        · rw [htaken, List.length_append]
          omega
        · rw [htaken, List.length_append, List.take_drop, ← Nat.add_assoc, hbytes,
            List.drop_append_of_le_length hfrontLength, List.map_append, ← List.take_drop, h.bytes]

end

/-! ### The loop -/

section

variable {size header total : Nat}

/-- What the loop of a picture of `total` bytes works with. -/
structure Announces (size header total : Nat) : Prop where
  size_eq   : size = (total + header) % 4294967296
  total_lt  : total < 4294967296
  header_le : header ≤ 236

theorem Announces.bound (h : Announces size header total) :
    (size + 4294967296 - header) % 4294967296 = total := by
  have hsize := h.size_eq
  have htotal := h.total_lt
  have hheader := h.header_le
  omega

theorem HoldsPic.mod_eq {k : Nat} {data : Cells UInt8} (hsize : Announces size header total)
    (h : HoldsPic receptions size header k data) :
    (taken receptions k).length % 4294967296 = (taken receptions k).length := by
  have hlt : size < 4294967296 := by
    rw [hsize.size_eq]
    exact Nat.mod_lt _ (by omega)
  have hroom := h.room
  exact Nat.mod_eq_of_lt (by omega)

theorem length_taken_succ {k : Nat} {cmd : UInt8} {d : Data}
    (h : (receptions k).result = .ok (cmd, d)) :
    (taken receptions (k + 1)).length = (taken receptions k).length + d.bytes.length := by
  rw [taken, List.length_append, Reception.chunk, h]

theorem isPicture_succ {k : Nat} (hpictures : ∀ i < k, (receptions i).IsPicture)
    (h : (receptions k).IsPicture) : ∀ i < k + 1, (receptions i).IsPicture := by
  intro i hi
  by_cases hlast : i = k
  · rw [hlast]
    exact h
  · exact hpictures i (by omega)

/-- Over packets that fit the loop comes to an end. `K` is a call that is not asked for. -/
theorem receiveData_ends (hsize : Announces size header total) {K : Nat}
    (hK : ¬ Asks receptions total K)
    (hinside : ∀ k, Asks receptions total k → ∀ chunk ∈ (receptions k).stored,
      chunk.length ≤ size - (header + (taken receptions k).length))
    {fuel k : Nat} {data : Cells UInt8} (hfuel : K < k + fuel) (hpositive : 0 < fuel)
    (hpictures : ∀ i < k, (receptions i).IsPicture)
    (hdata : HoldsPic receptions size header k data)
    (htotal : (taken receptions k).length ≤ total) :
    Ends (fun data' k' => (∀ i < k', (receptions i).IsPicture) ∧
        HoldsPic receptions size header k' data' ∧ (taken receptions k').length = total)
      (fun _ _ => True)
      (receiveData receptions size header fuel (taken receptions k).length data k) := by
  induction fuel generalizing k data with
  | zero => omega
  | succ fuel ih =>
    rw [receiveData, hsize.bound]
    by_cases hmore : (taken receptions k).length < total
    · have hasks : Asks receptions total k := ⟨hpictures, hmore⟩
      have hlt : k < K := by
        by_contra hle
        exact hK (hasks.of_le (Nat.not_lt.mp hle))
      rw [if_pos hmore]
      rcases hdata.recvInto_run (hinside k hasks) with herror | hok
      · obtain ⟨e, -, hrun⟩ := herror
        rw [bind_run_error hrun]
        trivial
      · obtain ⟨cmd, d, data', hresult, hrun, hdata'⟩ := hok
        rw [bind_run_ok hrun]
        show Ends _ _ ((if cmd ≠ 0xa2 then _ else _ : Comp Nat Int (Cells UInt8)) (k + 1))
        by_cases hcmd : cmd ≠ 0xa2
        · rw [if_pos hcmd]
          trivial
        · rw [if_neg hcmd, ← length_taken_succ hresult, hdata'.mod_eq hsize]
          have hpicture : (receptions k).IsPicture := ⟨d, by rw [hresult, not_not.mp hcmd]⟩
          have hroom := hdata'.room
          have hsizeEq := hsize.size_eq
          have htotalLt := hsize.total_lt
          have hheaderLe := hsize.header_le
          exact ih (by omega) (by omega) (isPicture_succ hpictures hpicture) hdata' (by omega)
    · rw [if_neg hmore]
      exact ⟨hpictures, hdata, by omega⟩

theorem receiveData_fits (hsize : Announces size header total) {fuel k : Nat}
    {data : Cells UInt8} (hpictures : ∀ i < k, (receptions i).IsPicture)
    (hdata : HoldsPic receptions size header k data)
    (hrun : receiveData receptions size header fuel (taken receptions k).length data k ≠ none) :
    (∀ k', k ≤ k' → Asks receptions total k' → ∀ chunk ∈ (receptions k').stored,
      chunk.length ≤ size - (header + (taken receptions k').length)) ∧
        ∃ K, ¬ Asks receptions total K := by
  induction fuel generalizing k data with
  | zero => exact absurd rfl hrun
  | succ fuel ih =>
    rw [receiveData, hsize.bound] at hrun
    by_cases hmore : (taken receptions k).length < total
    · rw [if_pos hmore] at hrun
      have hfits : ∀ chunk ∈ (receptions k).stored,
          chunk.length ≤ size - (header + (taken receptions k).length) := by
        by_contra hout
        exact hrun (bind_run_none (recvInto_stuck hdata.length_data hout))
      -- no call behind this one is asked for, unless this one returns a packet of the picture
      have hstop : ¬ (receptions k).IsPicture →
          (∀ k', k ≤ k' → Asks receptions total k' → ∀ chunk ∈ (receptions k').stored,
            chunk.length ≤ size - (header + (taken receptions k').length)) ∧
              ∃ K, ¬ Asks receptions total K := by
        intro hnot
        refine ⟨fun k' hle hasks => ?_, k + 1, fun hasks => hnot (hasks.1 k (by omega))⟩
        by_cases hsame : k' = k
        · rw [hsame]
          exact hfits
        · exact absurd (hasks.1 k (by omega)) hnot
      rcases hdata.recvInto_run hfits with herror | hok
      · obtain ⟨e, hresult, -⟩ := herror
        refine hstop fun hpicture => ?_
        obtain ⟨d, hd⟩ := hpicture
        rw [hresult] at hd
        cases hd
      · obtain ⟨cmd, d, data', hresult, hcall, hdata'⟩ := hok
        by_cases hcmd : cmd ≠ 0xa2
        · refine hstop fun hpicture => ?_
          obtain ⟨d', hd⟩ := hpicture
          rw [hresult] at hd
          cases hd
          exact hcmd rfl
        · have hpicture : (receptions k).IsPicture := ⟨d, by rw [hresult, not_not.mp hcmd]⟩
          rw [bind_run_ok hcall] at hrun
          replace hrun :
              (if cmd ≠ 0xa2 then _ else _ : Comp Nat Int (Cells UInt8)) (k + 1) ≠ none := hrun
          rw [if_neg hcmd, ← length_taken_succ hresult, hdata'.mod_eq hsize] at hrun
          obtain ⟨hrest, hend⟩ := ih (isPicture_succ hpictures hpicture) hdata' hrun
          refine ⟨fun k' hle hasks => ?_, hend⟩
          by_cases hsame : k' = k
          · rw [hsame]
            exact hfits
          · exact hrest k' (by omega) hasks
    · have hno : ∀ k', k ≤ k' → ¬ Asks receptions total k' := by
        intro k' hle hasks
        have hmono := @length_taken_mono receptions _ _ hle
        have hlt := hasks.2
        omega
      exact ⟨fun k' hle hasks => absurd hasks (hno k' hle), k, hno k (Nat.le_refl k)⟩

end

/-! ### The picture -/

variable {type : FileType} {answer : List UInt8}

theorem announces : Announces (blockSize type answer) (headerLen type) (announced answer) where
  size_eq   := rfl
  total_lt  := announced_lt answer
  header_le := headerLen_le type

theorem holdsPic_start (size header : Nat) :
    HoldsPic receptions size header 0 (List.replicate size none) where
  length_data := List.length_replicate
  room        := Or.inl rfl
  bytes       := rfl

theorem whole_picture {data : Cells UInt8} {k : Nat}
    (hdata : HoldsPic receptions (blockSize type answer) (headerLen type) k data)
    (hwhole : (taken receptions k).length = announced answer) :
    headerLen type ≤ data.length ∧
      data.drop (headerLen type) = (taken receptions k).map some := by
  have hlength := hdata.length_data
  have hroom := hdata.room
  have hbytes := hdata.bytes
  have hlt := announced_lt answer
  have hheader := headerLen_le type
  rw [blockSize] at hlength hroom
  have hexact : data.length = headerLen type + (taken receptions k).length := by omega
  rw [List.take_of_length_le (by rw [List.length_drop]; omega)] at hbytes
  exact ⟨by omega, hbytes⟩

/-- **A picture is stored in its block just as long as its packets fit**, where the answer to the
request has its length. -/
theorem getsPic_iff (type : FileType) (answer : List UInt8) (receptions : Nat → Reception) :
    GetsPic type answer receptions ↔
      (answer.length = 16 → PicFits type answer receptions) := by
  constructor
  · intro hgets hanswer
    obtain ⟨fuel, hends⟩ := hgets
    have hrun : receiveData receptions (blockSize type answer) (headerLen type) fuel
        (taken receptions 0).length (List.replicate (blockSize type answer) none) 0 ≠ none := by
      intro hnone
      rw [getPic, if_neg (not_not.mpr hanswer)] at hends
      exact hends.ne_none (bind_run_none hnone)
    obtain ⟨hinside, hend⟩ := receiveData_fits announces (fun i hi => absurd hi (Nat.not_lt_zero i))
      (holdsPic_start _ _) hrun
    exact ⟨fun k => hinside k (Nat.zero_le k), hend⟩
  · intro hfits
    by_cases hanswer : answer.length = 16
    · obtain ⟨hinside, K, hK⟩ := hfits hanswer
      refine ⟨K + 1, ?_⟩
      rw [getPic, if_neg (not_not.mpr hanswer)]
      have hloop := receiveData_ends announces hK hinside (show K < 0 + (K + 1) by omega)
        (Nat.succ_pos K) (fun i hi => absurd hi (Nat.not_lt_zero i))
        (holdsPic_start (blockSize type answer) (headerLen type)) (Nat.zero_le _)
      refine Ends.bind hloop fun data k h => ?_
      obtain ⟨hpictures, hdata, hwhole⟩ := h
      obtain ⟨hheader, hbytes⟩ := whole_picture hdata hwhole
      cases type with
      | normal =>
        rw [if_neg (by decide)]
        exact ⟨hpictures, hwhole, by simpa [headerArea, headerLen] using hbytes⟩
      | preview =>
        rw [headerLen] at hheader hbytes
        rw [if_pos rfl, storeAt_zero hheader, hbytes, ← List.map_append]
        exact ⟨hpictures, hwhole, rfl⟩
    · exact ⟨0, by rw [getPic, if_pos hanswer]; trivial⟩

/-! ### Both drivers -/

/-- The answer that announces a picture of one byte. -/
def oneByteAnswer : List UInt8 := List.replicate 12 0 ++ [1, 0, 0, 0]

/-- Packets of two bytes. -/
def twoBytes : Nat → Reception := fun _ =>
  { dropped := [], result := .ok (0xa2, { bytes := [0xff, 0xd8], bytes_length := by decide }) }

/-- A packet whose checksum is wrong behind its footer, which has marked it as the last one, and the
same packet when it is sent again. -/
def repeatedLast : List Fuji.Arrival :=
  [{ data := [0x41], failed := some gpErrorCorruptedData, last := some true, stop := none,
     last_of_ok := by decide },
   { data := [0x41], failed := none, last := some true, stop := none, last_of_ok := by decide }]

end GPhoto2.Ricoh
