import GPhoto2.Ptp.Dataset
import Mathlib.Algebra.BigOperators.Group.List.Basic

/-!
# `GPhoto2.Proofs.Ptp.EkText`: how much of its block `ptp_pack_EK_text` fills

The length of the block counts a terminator for each string and no zero behind it, and the body
writes both. So the block is 12 bytes too short for strings of one byte a character, and fits
only where other strings take more bytes than they have characters.

* `ekBlocks_filled` and `ekBlocks_whole`: what is written for strings that can be packed, and that
  there is a hole for any other.
* `ekPacked_iff`: the block is filled exactly if the strings can be packed and have together as
  many bytes as their encodings have characters.
-/

set_option autoImplicit false

namespace GPhoto2

open Lib
open List (length_append length_cons length_map length_nil map_append map_cons mem_append
  mem_cons_self sum_cons)
open Option (bind_eq_some_iff map_eq_some_iff)

variable {params : PTPParams} {text : PTPEKTextParams}

/-- The length of a string as it is packed: its characters, and the terminator. -/
def encodedLen (params : PTPParams) (s : CString) : Option Nat :=
  (ucs2str params s).map fun units => ucs2strlen units + 1

/-- The string can be packed. -/
def Packs (params : PTPParams) (s : CString) (n : Nat) : Prop :=
  encodedLen params s = some n ∧ n ≤ ptpMaxstrlen

/-- How much is written for a string and the numbers behind it. -/
def ekBlockLen (params : PTPParams) (block : CString × List UInt16) : Nat :=
  2 * (encodedLen params block.1).getD 0 + 1 + 2 * (block.2.length + 1)

/-- Where the string with an index is packed. -/
def ekOffset (params : PTPParams) (text : PTPEKTextParams) (k : Nat) : Nat :=
  22 + ((text.blocks.take k).map (ekBlockLen params)).sum

/-- The block is as long as the function says, all of it has been written, and each string has
its length in front. -/
def EkPacked (params : PTPParams) (text : PTPEKTextParams) : Prop :=
  ∃ len data, ptpPackEkText params text = some (len, data) ∧ (data.length : Nat) = len ∧
    none ∉ data ∧
    ∀ k s, text.strings[k]? = some s →
      ∃ n b, encodedLen params s = some n ∧ data[ekOffset params text k]? = some (some b) ∧
        b.toNat = n

/-- Each string can be packed, and together they have as many bytes as their encodings have
characters. -/
def EkFits (params : PTPParams) (text : PTPEKTextParams) : Prop :=
  (∀ s ∈ text.strings, ∃ n, Packs params s n) ∧
    (text.strings.map List.length).sum % 2 ^ 31 =
      (text.strings.map fun s => (encodedLen params s).getD 0).sum

/-! ### A string -/

theorem two_mul_ucs2strlen_le (units : List UInt8) : 2 * ucs2strlen units ≤ units.length := by
  induction units using ucs2strlen.induct with
  | case1 a b bs hzero =>
    rw [ucs2strlen, if_pos hzero]
    exact Nat.zero_le _
  | case2 a b bs hzero ih =>
    rw [ucs2strlen, if_neg hzero, length_cons, length_cons]
    omega
  | case3 bs hshort =>
    rw [ucs2strlen]
    · exact Nat.zero_le _
    · exact hshort

theorem length_htod16ap (x : UInt16) : (htod16ap params x).length = 2 :=
  params.byteorder.length_encode 2 x.toNat

theorem length_ekNumbers (xs : List UInt16) : (ekNumbers params xs).length = 2 * xs.length := by
  unfold ekNumbers
  rw [length_map]
  induction xs with
  | nil => rfl
  | cons x xs ih =>
    rw [List.flatMap_cons, length_append, length_htod16ap, ih, length_cons]
    omega

theorem none_not_mem_map (bs : List UInt8) : none ∉ bs.map some := by
  intro h
  obtain ⟨b, -, hb⟩ := List.mem_map.mp h
  cases hb

/-- A string that can be packed has its length in front and its characters behind it. -/
theorem ekString_packs {s : CString} {n : Nat} (h : Packs params s n) :
    ∃ bytes : List UInt8, ekString params s = some ((UInt8.ofNat n :: bytes).map some) ∧
      bytes.length = 2 * n := by
  obtain ⟨hlen, hle⟩ := h
  obtain ⟨units, hunits, rfl⟩ := map_eq_some_iff.mp hlen
  have hle : ucs2strlen units + 1 ≤ 255 := hle
  have hcount := two_mul_ucs2strlen_le units
  refine ⟨units.take (2 * ucs2strlen units) ++ htod16ap params 0, ?_, ?_⟩
  · have hroom : ¬ptpMaxstrlen - 1 < ucs2strlen units := by
      show ¬254 < ucs2strlen units
      omega
    have htoNat : (UInt8.ofNat (ucs2strlen units + 1)).toNat = ucs2strlen units + 1 :=
      UInt8.toNat_ofNat_of_lt' (by show ucs2strlen units + 1 < 256; omega)
    unfold ekString ptpPackString
    rw [hunits]
    simp only [Option.map_some, if_neg hroom, htoNat]
    have hwritten : (UInt8.ofNat (ucs2strlen units + 1) ::
        units.take (2 * ucs2strlen units) ++ htod16ap params 0).length =
          2 * (ucs2strlen units + 1) + 1 := by
      rw [length_append, length_cons, List.length_take, length_htod16ap,
        Nat.min_eq_left hcount]
      omega
    rw [hwritten, Nat.sub_self, List.replicate_zero, List.append_nil]
    rfl
  · rw [length_append, List.length_take, length_htod16ap, Nat.min_eq_left hcount]
    omega

theorem packs_of_ekString {s : CString} {bytes : List (Option UInt8)}
    (h : ekString params s = some bytes) (hwhole : none ∉ bytes) : ∃ n, Packs params s n := by
  obtain ⟨packed, hpacked, rfl⟩ := map_eq_some_iff.mp h
  obtain ⟨units, hunits, rfl⟩ := map_eq_some_iff.mp hpacked
  refine ⟨ucs2strlen units + 1, ?_, ?_⟩
  · unfold encodedLen
    rw [hunits]
    rfl
  · by_contra hlong
    have hlong : ptpMaxstrlen - 1 < ucs2strlen units := by
      have hmax : ptpMaxstrlen = 255 := rfl
      omega
    simp only [if_pos hlong] at hwhole
    exact hwhole mem_cons_self

/-! ### The blocks -/

/-- All strings can be packed: nothing is left out, and each is where it belongs. -/
theorem ekBlocks_filled {blocks : List (CString × List UInt16)}
    (h : ∀ block ∈ blocks, ∃ n, Packs params block.1 n) :
    ∃ data, ekBlocks params blocks = some data ∧ none ∉ data ∧
      data.length = (blocks.map (ekBlockLen params)).sum ∧
      ∀ k block, blocks[k]? = some block → ∃ n, Packs params block.1 n ∧
        data[((blocks.take k).map (ekBlockLen params)).sum]? = some (some (UInt8.ofNat n)) := by
  induction blocks with
  | nil =>
    refine ⟨[], rfl, List.not_mem_nil, rfl, ?_⟩
    intro k block hk
    cases hk
  | cons block blocks ih =>
    obtain ⟨rest, hrest, hwhole, hlen, hplaces⟩ :=
      ih fun other hother => h other (List.mem_cons_of_mem _ hother)
    obtain ⟨n, hpacks⟩ := h block mem_cons_self
    obtain ⟨bytes, hstring, hbytes⟩ := ekString_packs hpacks
    have hblock : ekBlock params block =
        some ((UInt8.ofNat n :: bytes).map some ++ ekNumbers params (0 :: block.2)) := by
      unfold ekBlock
      rw [hstring]
      rfl
    have hblockLen : ((UInt8.ofNat n :: bytes).map some ++
        ekNumbers params (0 :: block.2)).length = ekBlockLen params block := by
      rw [length_append, length_map, length_cons, hbytes, length_ekNumbers,
        length_cons, ekBlockLen, hpacks.1]
      rfl
    refine ⟨(UInt8.ofNat n :: bytes).map some ++ ekNumbers params (0 :: block.2) ++ rest,
      ?_, ?_, ?_, ?_⟩
    · exact bind_eq_some_iff.mpr ⟨_, hblock, bind_eq_some_iff.mpr ⟨_, hrest, rfl⟩⟩
    · rw [mem_append, mem_append, not_or, not_or]
      exact ⟨⟨none_not_mem_map _, none_not_mem_map _⟩, hwhole⟩
    · rw [length_append, hblockLen, hlen, map_cons, sum_cons]
    · intro k other hk
      cases k with
      | zero =>
        cases hk
        exact ⟨n, hpacks, rfl⟩
      | succ k =>
        obtain ⟨m, hm, hplace⟩ := hplaces k other hk
        have hsum : (((block :: blocks).take (k + 1)).map (ekBlockLen params)).sum =
            ((UInt8.ofNat n :: bytes).map some ++ ekNumbers params (0 :: block.2)).length +
              ((blocks.take k).map (ekBlockLen params)).sum := by
          rw [hblockLen, List.take_succ_cons, map_cons, sum_cons]
        refine ⟨m, hm, ?_⟩
        rw [hsum, List.getElem?_append_right (Nat.le_add_right _ _), Nat.add_sub_cancel_left]
        exact hplace

theorem ekBlocks_whole {blocks : List (CString × List UInt16)} {data : List (Option UInt8)}
    (h : ekBlocks params blocks = some data) (hwhole : none ∉ data) :
    ∀ block ∈ blocks, ∃ n, Packs params block.1 n := by
  induction blocks generalizing data with
  | nil =>
    intro block hblock
    cases hblock
  | cons first blocks ih =>
    obtain ⟨bytes, hbytes, h⟩ := bind_eq_some_iff.mp h
    obtain ⟨rest, hrest, h⟩ := bind_eq_some_iff.mp h
    cases h
    rw [mem_append, not_or] at hwhole
    obtain ⟨string, hstring, rfl⟩ := map_eq_some_iff.mp hbytes
    intro block hblock
    rcases List.mem_cons.mp hblock with rfl | hblock
    · exact packs_of_ekString hstring fun h => hwhole.1 (List.mem_append_left _ h)
    · exact ih hrest hwhole.2 block hblock

/-! ### The lengths -/

theorem length_ekHead : (ekHead params).length = 22 := by
  unfold ekHead
  have hlong : (htod32ap params 0).length = 4 := params.byteorder.length_encode 4 0
  simp only [length_append, length_ekNumbers, length_map, hlong, length_cons,
    length_nil]

theorem sum_ekBlockLen :
    (text.blocks.map (ekBlockLen params)).sum =
      60 + 2 * (text.strings.map fun s => (encodedLen params s).getD 0).sum := by
  have hlines : ∀ line : List CString,
      ((line.map fun s => (s, [0x10, 0x01, 0x02, 0x06])).map (ekBlockLen params)).sum =
        11 * line.length + 2 * (line.map fun s => (encodedLen params s).getD 0).sum := by
    intro line
    induction line with
    | nil => rfl
    | cons s line ih =>
      simp only [map_cons, sum_cons, ih, ekBlockLen, length_cons, length_nil]
      omega
  unfold PTPEKTextParams.blocks PTPEKTextParams.strings
  rw [map_cons, sum_cons, hlines, text.five, map_cons, sum_cons]
  simp only [ekBlockLen, length_cons, length_nil]
  omega

theorem ekTextLen_eq :
    ekTextLen text = Int.bmod (82 + 2 * (text.strings.map List.length).sum : Nat) (2 ^ 32) := by
  have hstrings : ∀ strings : List CString,
      (strings.map fun s => 2 * (s.length + 1) + 1).sum =
        3 * strings.length + 2 * (strings.map List.length).sum := by
    intro strings
    induction strings with
    | nil => rfl
    | cons s strings ih =>
      simp only [map_cons, sum_cons, ih, length_cons]
      omega
  have hsix : text.strings.length = 6 := by
    unfold PTPEKTextParams.strings
    rw [length_cons, text.five]
  unfold ekTextLen
  rw [hstrings, hsix]
  congr 2
  omega

/-- The function computes the length of what it writes if and only if the sums agree. -/
theorem ekTextLen_eq_iff {chars : Nat} (hchars : chars < 2 ^ 20) :
    ekTextLen text = (82 + 2 * chars : Nat) ↔
      (text.strings.map List.length).sum % 2 ^ 31 = chars := by
  rw [ekTextLen_eq, Int.bmod_def]
  split <;> omega

theorem strings_packs_iff :
    (∀ block ∈ text.blocks, ∃ n, Packs params block.1 n) ↔
      ∀ s ∈ text.strings, ∃ n, Packs params s n := by
  unfold PTPEKTextParams.blocks PTPEKTextParams.strings
  simp only [List.forall_mem_cons, List.forall_mem_map]

theorem blocks_getElem? {k : Nat} {s : CString} (h : text.strings[k]? = some s) :
    ∃ numbers, text.blocks[k]? = some (s, numbers) := by
  unfold PTPEKTextParams.strings at h
  unfold PTPEKTextParams.blocks
  cases k with
  | zero =>
    cases h
    exact ⟨_, rfl⟩
  | succ k =>
    rw [List.getElem?_cons_succ] at h
    rw [List.getElem?_cons_succ, List.getElem?_map, h]
    exact ⟨_, rfl⟩

theorem encoded_few (h : ∀ s ∈ text.strings, ∃ n, Packs params s n) :
    (text.strings.map fun s => (encodedLen params s).getD 0).sum < 2 ^ 20 := by
  have hle : ∀ strings : List CString, (∀ s ∈ strings, ∃ n, Packs params s n) →
      (strings.map fun s => (encodedLen params s).getD 0).sum ≤ 255 * strings.length := by
    intro strings hpacks
    induction strings with
    | nil => exact Nat.le_refl 0
    | cons s strings ih =>
      have hrest := ih fun t ht => hpacks t (List.mem_cons_of_mem _ ht)
      obtain ⟨n, hn, hmax⟩ := hpacks s mem_cons_self
      have hmax : n ≤ 255 := hmax
      rw [map_cons, sum_cons, length_cons, hn, Option.getD_some]
      omega
  have hfew := hle text.strings h
  unfold PTPEKTextParams.strings at hfew ⊢
  rw [length_cons, text.five] at hfew
  omega

/-! ### The block -/

/-- The block is filled, and has the length of each string in front of it, if and only if each
string can be packed and together they have as many bytes as their encodings have characters. -/
theorem ekPacked_iff (params : PTPParams) (text : PTPEKTextParams) :
    EkPacked params text ↔ EkFits params text := by
  constructor
  · intro h
    obtain ⟨len, data, hrun, -, hwhole, hplaces⟩ := h
    unfold ptpPackEkText at hrun
    by_cases hneg : ekTextLen text < 0
    · -- Nothing was allocated, and so the title is nowhere.
      rw [if_pos hneg] at hrun
      cases hrun
      obtain ⟨n, b, -, htitle, -⟩ := hplaces 0 text.title rfl
      cases htitle
    · rw [if_neg hneg] at hrun
      obtain ⟨rest, hrest, hrun⟩ := bind_eq_some_iff.mp hrun
      by_cases hfits : (ekHead params ++ rest).length ≤ ekTextLen text
      · rw [if_pos hfits] at hrun
        obtain ⟨rfl, rfl⟩ := Prod.mk.inj (Option.some.inj hrun)
        rw [mem_append, mem_append, not_or, not_or] at hwhole
        have hpacks := ekBlocks_whole hrest hwhole.1.2
        have hend : (ekTextLen text).toNat ≤ (ekHead params ++ rest).length := by
          by_contra hlt
          refine hwhole.2 (List.mem_replicate.mpr ⟨?_, rfl⟩)
          omega
        obtain ⟨rest', hrest', -, hlen, -⟩ := ekBlocks_filled hpacks
        cases hrest.symm.trans hrest'
        have hpacks := strings_packs_iff.mp hpacks
        refine ⟨hpacks, (ekTextLen_eq_iff (encoded_few hpacks)).mp ?_⟩
        rw [length_append, length_ekHead, hlen, sum_ekBlockLen] at hfits hend
        omega
      · rw [if_neg hfits] at hrun
        cases hrun
  · intro h
    obtain ⟨hpacks, hsums⟩ := h
    have htext := (ekTextLen_eq_iff (encoded_few hpacks)).mpr hsums
    obtain ⟨rest, hrest, hwhole, hlen, hplaces⟩ := ekBlocks_filled (strings_packs_iff.mpr hpacks)
    have hall : ((ekHead params ++ rest).length : Int) = ekTextLen text := by
      rw [length_append, length_ekHead, hlen, sum_ekBlockLen, htext]
      omega
    have hrun : ptpPackEkText params text = some (ekTextLen text, ekHead params ++ rest) := by
      unfold ptpPackEkText
      rw [if_neg (by omega), hrest, Option.bind_some, if_pos (by omega)]
      have hnone : (ekTextLen text).toNat - (ekHead params ++ rest).length = 0 := by omega
      rw [hnone, List.replicate_zero, List.append_nil]
    refine ⟨_, _, hrun, hall, ?_, ?_⟩
    · rw [mem_append, not_or]
      refine ⟨?_, hwhole⟩
      unfold ekHead ekNumbers
      rw [← map_append, ← map_append, ← map_append]
      exact none_not_mem_map _
    · intro k s hs
      obtain ⟨numbers, hblock⟩ := blocks_getElem? hs
      obtain ⟨n, hn, hplace⟩ := hplaces k _ hblock
      refine ⟨n, UInt8.ofNat n, hn.1, ?_, ?_⟩
      · rw [ekOffset, List.getElem?_append_right (by rw [length_ekHead]; omega), length_ekHead,
          Nat.add_sub_cancel_left]
        exact hplace
      · have hmax : n ≤ 255 := hn.2
        exact UInt8.toNat_ofNat_of_lt' (by show n < 256; omega)

/-- Six empty strings already take 94 bytes, and the block has 82. -/
theorem ek_empty_overflows :
    ¬∀ (params : PTPParams) (text : PTPEKTextParams), EkPacked params text := by
  intro h
  obtain ⟨len, data, hrun, -⟩ :=
    h ⟨.little, none, false⟩ ⟨[], [[], [], [], [], []], rfl⟩
  have hnone : ptpPackEkText ⟨.little, none, false⟩ ⟨[], [[], [], [], [], []], rfl⟩ = none := by
    decide
  cases hnone.symm.trans hrun

end GPhoto2
