import GPhoto2.Proofs.Ptp.CanonIsolation
import GPhoto2.Ptp.CustomFunc

/-!
# `GPhoto2.Proofs.Ptp.CustomFunc`: the text of the custom functions read back

`strtoul16_hexadecimal` and `strtoulEnd_hexadecimal` read one word of the text, and
`packWords_printed` all of them. `packsBack_iff` says of which payloads the text comes back as
the same words: of all but the empty one, whose text has no terminator, and those so long that
the size of the buffer overflows.
-/

set_option autoImplicit false

namespace GPhoto2

open Lib

/-! ### A word -/

theorem hexDigit_digitChar {n : Nat} (hn : n < 16) : hexDigit n.digitChar = some n := by
  have hall : ∀ k : Fin 16, hexDigit k.val.digitChar = some k.val := by decide
  exact hall ⟨n, hn⟩

/-- All of the characters are hexadecimal digits. -/
def AllHex (s : CString) : Prop := ∀ c ∈ s, (hexDigit c).isSome

theorem allHex_toDigits (n : Nat) : AllHex (Nat.toDigits 16 n) := by
  induction n using Nat.strongRecOn with
  | ind n ih =>
    rw [Nat.toDigits_eq_if (by decide)]
    intro c hc
    by_cases hn : n < 16
    · rw [if_pos hn, List.mem_singleton] at hc
      rw [hc, hexDigit_digitChar hn]
      rfl
    · rw [if_neg hn, List.mem_append, List.mem_singleton] at hc
      rcases hc with hc | rfl
      · exact ih (n / 16) (by omega) c hc
      · rw [hexDigit_digitChar (Nat.mod_lt n (by decide))]
        rfl

theorem hexNumber_append {s : CString} (h : AllHex s) (n : Nat) (t : CString) :
    hexNumber n (s ++ t) = hexNumber (hexNumber n s) t := by
  induction s generalizing n with
  | nil => rfl
  | cons c s ih =>
    obtain ⟨d, hd⟩ := Option.isSome_iff_exists.mp (h c List.mem_cons_self)
    have hrest : AllHex s := fun c hc => h c (List.mem_cons_of_mem _ hc)
    simp only [List.cons_append, hexNumber, hd]
    exact ih hrest _

theorem hexNumber_toDigits (n : Nat) : hexNumber 0 (Nat.toDigits 16 n) = n := by
  induction n using Nat.strongRecOn with
  | ind n ih =>
    rw [Nat.toDigits_eq_if (by decide)]
    by_cases hn : n < 16
    · rw [if_pos hn]
      simp [hexNumber, hexDigit_digitChar hn]
    · rw [if_neg hn, hexNumber_append (allHex_toDigits _), ih (n / 16) (by omega)]
      simp only [hexNumber, hexDigit_digitChar (Nat.mod_lt n (by decide : 0 < 16))]
      omega

theorem hexDigit_ne {c d : Char} (hc : (hexDigit c).isSome) (hd : hexDigit d = none) : c ≠ d := by
  intro h
  rw [h, hd] at hc
  cases hc

section
variable {s : CString} (h : AllHex s) (hne : s ≠ []) (rest : CString)

include h hne

theorem dropWhile_isSpace_hex : (s ++ rest).dropWhile isSpace = s ++ rest := by
  obtain ⟨c, s, rfl⟩ := List.exists_cons_of_ne_nil hne
  have hc := h c List.mem_cons_self
  have hspace : isSpace c = false := by
    by_contra hspace
    have hspace : isSpace c = true := by simpa using hspace
    simp only [isSpace, Bool.or_eq_true, decide_eq_true_eq, Bool.and_eq_true] at hspace
    rcases hspace with hspace | ⟨hle, hge⟩
    · exact hexDigit_ne hc (by decide) hspace
    · have hnone : hexDigit c = none := by
        have hbelow : ¬('0' ≤ c ∧ c ≤ '9') ∧ ¬('a' ≤ c ∧ c ≤ 'f') ∧ ¬('A' ≤ c ∧ c ≤ 'F') := by
          have hmax : c.toNat ≤ 13 := hge
          refine ⟨?_, ?_, ?_⟩
          · intro hdigit
            have hmin : 48 ≤ c.toNat := hdigit.1
            omega
          · intro hdigit
            have hmin : 97 ≤ c.toNat := hdigit.1
            omega
          · intro hdigit
            have hmin : 65 ≤ c.toNat := hdigit.1
            omega
        unfold hexDigit
        rw [if_neg hbelow.1, if_neg hbelow.2.1, if_neg hbelow.2.2]
      rw [hnone] at hc
      cases hc
  rw [List.cons_append, List.dropWhile_cons, hspace]
  rfl

theorem skipHexMark_hex : skipHexMark (s ++ ',' :: rest) = s ++ ',' :: rest := by
  obtain ⟨c, s, rfl⟩ := List.exists_cons_of_ne_nil hne
  have hmark : ∀ x : Char, (hexDigit x).isSome ∨ x = ',' → ¬(x = 'x' ∨ x = 'X') := by
    intro x hx heq
    rcases hx with hx | rfl
    · rcases heq with rfl | rfl
      · cases hx
      · cases hx
    · rcases heq with heq | heq
      · cases heq
      · cases heq
  unfold skipHexMark
  split
  · rename_i x d t heq
    have hx : (hexDigit x).isSome ∨ x = ',' := by
      cases s with
      | nil =>
        obtain ⟨-, heq⟩ := List.cons.inj heq
        exact Or.inr (List.cons.inj heq).1.symm
      | cons y s =>
        obtain ⟨-, heq⟩ := List.cons.inj heq
        obtain ⟨rfl, -⟩ := List.cons.inj heq
        exact Or.inl (h y (List.mem_cons_of_mem _ List.mem_cons_self))
    rw [if_neg fun hboth => hmark x hx hboth.1]
    exact heq.symm
  · rfl

theorem hex_no_sign : skipSign (s ++ rest) = s ++ rest ∧
    ∀ t, s ++ rest ≠ '-' :: t ∧ s ++ rest ≠ '+' :: t := by
  obtain ⟨c, s, rfl⟩ := List.exists_cons_of_ne_nil hne
  have hc := h c List.mem_cons_self
  have hplain : ∀ t, c :: s ++ rest ≠ '-' :: t ∧ c :: s ++ rest ≠ '+' :: t := by
    intro t
    refine ⟨?_, ?_⟩
    · intro heq
      exact hexDigit_ne hc (by decide) (List.cons.inj heq).1
    · intro heq
      exact hexDigit_ne hc (by decide) (List.cons.inj heq).1
  refine ⟨?_, hplain⟩
  unfold skipSign
  split
  · rename_i t heq
    exact absurd heq (hplain t).1
  · rename_i t heq
    exact absurd heq (hplain t).2
  · rfl

end

theorem strtoul16_hexadecimal (w : UInt32) (rest : CString) :
    strtoul16 (hexadecimal w ++ ',' :: rest) = w.toNat := by
  have hhex : AllHex (hexadecimal w) := allHex_toDigits w.toNat
  have hne : hexadecimal w ≠ [] := Nat.toDigits_ne_nil
  have hlt := w.toNat_lt
  have hnumber : hexNumber 0 (hexadecimal w ++ ',' :: rest) = w.toNat := by
    rw [hexNumber_append hhex, hexadecimal, hexNumber_toDigits]
    rfl
  have hdigits : strtoulDigits false (hexadecimal w ++ ',' :: rest) = w.toNat := by
    unfold strtoulDigits
    simp only [skipHexMark_hex hhex hne, hnumber]
    rw [if_neg (by omega)]
    rfl
  unfold strtoul16
  rw [dropWhile_isSpace_hex hhex hne]
  obtain ⟨-, hplain⟩ := hex_no_sign hhex hne (',' :: rest)
  split
  · rename_i t heq
    exact absurd heq (hplain t).1
  · rename_i t heq
    exact absurd heq (hplain t).2
  · exact hdigits

theorem strtoulEnd_hexadecimal (w : UInt32) (rest : CString) :
    strtoulEnd (hexadecimal w ++ ',' :: rest) = ',' :: rest := by
  have hhex : AllHex (hexadecimal w) := allHex_toDigits w.toNat
  have hne : hexadecimal w ≠ [] := Nat.toDigits_ne_nil
  have hhead : ((hexadecimal w ++ ',' :: rest).head?.bind hexDigit).isSome := by
    obtain ⟨c, s, hcs⟩ := List.exists_cons_of_ne_nil hne
    rw [hcs]
    exact hhex c (by rw [hcs]; exact List.mem_cons_self)
  unfold strtoulEnd
  simp only [dropWhile_isSpace_hex hhex hne, (hex_no_sign hhex hne (',' :: rest)).1, hhead,
    if_true, skipHexMark_hex hhex hne]
  rw [List.dropWhile_append_of_pos hhex]
  rfl

/-! ### The payload -/

section
variable {params : PTPParams} {data : List UInt8} {off : Nat}

theorem printedWords_cons (w : UInt32) (words : List UInt32) :
    printedWords (w :: words) = hexadecimal w ++ ',' :: printedWords words := by
  unfold printedWords
  rw [List.flatMap_cons, List.append_assoc]
  rfl

theorem packWords_printed (words : List UInt32) :
    packWords params words.length (printedWords words) =
      some (words.flatMap (htod32ap params)) := by
  induction words with
  | nil => rfl
  | cons w words ih =>
    rw [printedWords_cons, List.length_cons, packWords, strtoulEnd_hexadecimal,
      strtoul16_hexadecimal, UInt32.ofNat_toNat]
    simp only [ih, Option.map_some, List.flatMap_cons]

/-- The words of a payload. -/
def payloadWords (params : PTPParams) (data : List UInt8) (off n : Nat) : List UInt32 :=
  (List.range n).map fun i => (dtoh32ap params data (off + 4 * i)).getD 0

/-- How many hexadecimal digits a word has. -/
def hexDigits (w : UInt32) : Nat := (hexadecimal w).length

/-- The text comes with its terminator, and is packed to the payload it was printed from. -/
def PacksBack (params : PTPParams) (data : List UInt8) (off : Nat) (s : UInt32) : Prop :=
  ∃ text, ptpUnpackEOSCustomFuncEx params data off = some text ∧
    ptpPackEOSCustomFuncEx params text = some (s, (data.drop off).take s.toNat)

theorem length_printedWords (words : List UInt32) :
    (printedWords words).length = (words.map fun w => hexDigits w + 1).sum := by
  induction words with
  | nil => rfl
  | cons w words ih =>
    rw [printedWords_cons, List.length_append, List.length_cons, ih, List.map_cons,
      List.sum_cons, hexDigits]
    omega

theorem payloadWords_read {n : Nat} (h : off + 4 * n ≤ data.length) :
    ((List.range n).mapM fun i => dtoh32ap params data (off + 4 * i)) =
      some (payloadWords params data off n) := by
  unfold payloadWords
  rw [mapM_eq_some_iff, List.map_map]
  refine List.map_congr_left ?_
  intro i hi
  have hi := List.mem_range.mp hi
  obtain ⟨x, hx⟩ := Option.isSome_iff_exists.mp
    ((@dtoh32ap_isSome params data (off + 4 * i)).mpr (by omega))
  simp only [Function.comp_apply, hx, Option.getD_some]

theorem payloadWords_bytes {n : Nat} (h : off + 4 * n ≤ data.length) :
    (payloadWords params data off n).flatMap (htod32ap params) =
      (data.drop off).take (4 * n) := by
  induction n with
  | zero => rfl
  | succ n ih =>
    obtain ⟨x, hx⟩ := Option.isSome_iff_exists.mp
      ((@dtoh32ap_isSome params data (off + 4 * n)).mpr (by omega))
    obtain ⟨-, hslice⟩ := slice_eq_some.mp (dtoh32ap_eq_some.mp hx)
    have hlast : payloadWords params data off (n + 1) = payloadWords params data off n ++ [x] := by
      unfold payloadWords
      rw [List.range_succ, List.map_append, List.map_singleton, hx]
      rfl
    rw [hlast, List.flatMap_append, ih (by omega), List.flatMap_singleton, ← hslice,
      Nat.mul_succ, List.take_add, List.drop_drop]

theorem payloadWords_head {s : UInt32} {n : Nat} (hs : dtoh32ap params data off = some s) :
    payloadWords params data off (n + 1) =
      s :: (payloadWords params data off (n + 1)).tail := by
  unfold payloadWords
  rw [List.range_succ_eq_map, List.map_cons, Nat.mul_zero, Nat.add_zero, hs]
  rfl

/-- The text of a payload comes back as the payload if and only if there is any word in it and
the text fits into the buffer, whose size is a number of 32 bits. -/
theorem packsBack_iff {s : UInt32} (hs : dtoh32ap params data off = some s)
    (hfour : s.toNat % 4 = 0) (hall : off + s.toNat ≤ data.length) :
    PacksBack params data off s ↔ s ≠ 0 ∧
      ((payloadWords params data off (s.toNat / 4)).map fun w => hexDigits w + 1).sum <
        (s * 2 + s / 4 + 1).toNat := by
  have hn : (s / 4).toNat = s.toNat / 4 := UInt32.toNat_div s 4
  have hfits : off + 4 * (s.toNat / 4) ≤ data.length := by omega
  have hrun : ptpUnpackEOSCustomFuncEx params data off =
      if s / 4 = 0 then none
      else sprintf (s * 2 + s / 4 + 1).toNat
        (printedWords (payloadWords params data off (s.toNat / 4))) := by
    unfold ptpUnpackEOSCustomFuncEx
    simp only [Option.bind_eq_bind, hs, Option.bind_some, hn, payloadWords_read hfits]
    rfl
  have hzero : s / 4 = 0 ↔ s = 0 := by
    rw [← UInt32.toNat_inj, ← UInt32.toNat_inj, hn]
    show s.toNat / 4 = 0 ↔ s.toNat = 0
    omega
  rw [PacksBack, hrun]
  by_cases hempty : s = 0
  · rw [if_pos (hzero.mpr hempty)]
    refine iff_of_false ?_ fun h => h.1 hempty
    intro h
    obtain ⟨text, htext, -⟩ := h
    cases htext
  rw [if_neg fun h => hempty (hzero.mp h), ← length_printedWords, sprintf]
  by_cases hroom : (printedWords (payloadWords params data off (s.toNat / 4))).length <
      (s * 2 + s / 4 + 1).toNat
  · rw [if_pos hroom]
    refine iff_of_true ⟨_, rfl, ?_⟩ ⟨hempty, hroom⟩
    have hpos : s.toNat ≠ 0 := fun h => hempty (UInt32.toNat_inj.mp h)
    obtain ⟨n, hcount⟩ : ∃ n, s.toNat / 4 = n + 1 := ⟨s.toNat / 4 - 1, by omega⟩
    have hfirst : UInt32.ofNat (strtoul16 (printedWords
        (payloadWords params data off (s.toNat / 4)))) = s := by
      rw [hcount, payloadWords_head hs, printedWords_cons, strtoul16_hexadecimal,
        UInt32.ofNat_toNat]
    have hlen : (payloadWords params data off (s.toNat / 4)).length = s.toNat / 4 := by
      unfold payloadWords
      rw [List.length_map, List.length_range]
    have hback := @packWords_printed params (payloadWords params data off (s.toNat / 4))
    rw [hlen, payloadWords_bytes hfits] at hback
    unfold ptpPackEOSCustomFuncEx
    rw [hfirst, hn, hback, Option.map_some]
    have hwhole : 4 * (s.toNat / 4) = s.toNat := by omega
    rw [hwhole]
  · rw [if_neg hroom]
    refine iff_of_false ?_ fun h => hroom h.2
    intro h
    obtain ⟨text, htext, -⟩ := h
    cases htext

/-- A payload of two words. -/
theorem packsBack_two :
    PacksBack ⟨.little, none, false⟩ [8, 0, 0, 0, 0xff, 0, 0, 0] 0 8 ↔ (8 : UInt32) ≠ 0 ∧
      ((payloadWords ⟨.little, none, false⟩ [8, 0, 0, 0, 0xff, 0, 0, 0] 0
        ((8 : UInt32).toNat / 4)).map fun w => hexDigits w + 1).sum <
        ((8 : UInt32) * 2 + 8 / 4 + 1).toNat :=
  packsBack_iff (by decide) (by decide) (by decide)

/-- The empty payload has a text without a terminator. -/
theorem empty_payload_unterminated :
    ¬∀ (params : PTPParams) (data : List UInt8) (off : Nat) (s : UInt32),
      dtoh32ap params data off = some s → s.toNat % 4 = 0 → off + s.toNat ≤ data.length →
        PacksBack params data off s := by
  intro h
  obtain ⟨text, htext, -⟩ :=
    h ⟨.little, none, false⟩ [0, 0, 0, 0] 0 0 (by decide) (by decide) (by decide)
  have hnone : ptpUnpackEOSCustomFuncEx ⟨.little, none, false⟩ [0, 0, 0, 0] 0 = none := by decide
  cases hnone.symm.trans htext

end

end GPhoto2
