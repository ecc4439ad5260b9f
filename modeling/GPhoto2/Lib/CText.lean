import Mathlib.Data.List.TakeWhile

/-!
# `GPhoto2.Lib.CText`: reading text with the C library

`fgets` takes the next line out of a stream, or as much of it as there is room for, and
`fgetsLines` is what a loop around it sees. `cstr` is the string in a buffer and `strtok` takes
the next token off a string.

`fgetsLines_line` and `strtok_token` find again a line and a token that were written;
`newline_not_mem_fgetsLines` and `strtok_eq_some` say what any text gives.
-/

set_option autoImplicit false

namespace GPhoto2.Lib

/-- The C string in a buffer. -/
def cstr (buf : List Char) : List Char := buf.takeWhile (· ≠ '\x00')

/-- `fgets`, with room for the given number of characters: the line and the rest of the
stream. -/
def fgets : Nat → List Char → List Char × List Char
  | 0, s => ([], s)
  | _ + 1, [] => ([], [])
  | n + 1, c :: s => if c = '\n' then ([c], s) else (c :: (fgets n s).1, (fgets n s).2)

/-- What `fgets` gives until the stream has ended, in at most so many calls. -/
def fgetsAll (n : Nat) : Nat → List Char → List (List Char)
  | 0, _ => []
  | calls + 1, s => if s = [] then [] else (fgets n s).1 :: fgetsAll n calls (fgets n s).2

/-- What `fgets` gives until the stream has ended. Each call takes at least one character. -/
def fgetsLines (n : Nat) (s : List Char) : List (List Char) := fgetsAll n s.length s

/-- `strtok`: the token, and what is left behind the delimiter that ended it. -/
def strtok (delim s : List Char) : Option (List Char × List Char) :=
  let s := s.dropWhile (· ∈ delim)
  if s = [] then none
  else some (s.takeWhile (· ∉ delim), (s.dropWhile (· ∉ delim)).tail)

/-! ### `cstr` -/

variable {s : List Char}

theorem cstr_eq_self (h : '\x00' ∉ s) : cstr s = s := by
  refine List.takeWhile_eq_self_iff.mpr fun c hc => ?_
  simp only [decide_eq_true_eq]
  intro he
  exact h (he ▸ hc)

theorem cstr_prefix (s : List Char) : cstr s <+: s := List.takeWhile_prefix _

theorem nul_not_mem_cstr (s : List Char) : '\x00' ∉ cstr s := by
  intro h
  have hne := List.mem_takeWhile_imp h
  simp at hne

/-! ### `fgets` -/

theorem fgets_append (n : Nat) (s : List Char) : (fgets n s).1 ++ (fgets n s).2 = s := by
  induction n generalizing s with
  | zero => rfl
  | succ n ih =>
    cases s with
    | nil => rfl
    | cons c s =>
      unfold fgets
      by_cases hc : c = '\n'
      · simp [hc]
      · simp [hc, ih]

variable {n : Nat}

/-- A call with some room takes something. -/
theorem fgets_rest_length (hn : 0 < n) (hs : s ≠ []) :
    (fgets n s).2.length < s.length := by
  obtain ⟨c, s, rfl⟩ := List.exists_cons_of_ne_nil hs
  obtain ⟨n, rfl⟩ := Nat.exists_eq_succ_of_ne_zero (Nat.ne_of_gt hn)
  unfold fgets
  by_cases hc : c = '\n'
  · simp [hc]
  · have hlen := congrArg List.length (fgets_append n s)
    rw [List.length_append] at hlen
    simp only [if_neg hc, List.length_cons]
    omega

/-- A line that was written is read back. -/
theorem fgets_line {l : List Char} (hl : '\n' ∉ l) (hn : l.length < n)
    (rest : List Char) : fgets n (l ++ '\n' :: rest) = (l ++ ['\n'], rest) := by
  induction l generalizing n with
  | nil =>
    obtain ⟨n, rfl⟩ := Nat.exists_eq_succ_of_ne_zero (Nat.ne_of_gt hn)
    rfl
  | cons c l ih =>
    obtain ⟨n, rfl⟩ := Nat.exists_eq_succ_of_ne_zero (Nat.ne_of_gt (Nat.lt_of_le_of_lt
      (Nat.zero_le _) hn))
    rw [List.mem_cons, not_or] at hl
    have hlen : l.length < n := by simpa using hn
    show (if c = '\n' then _ else (c :: (fgets n (l ++ _)).1, (fgets n (l ++ _)).2)) = _
    rw [if_neg (Ne.symm hl.1), ih hl.2 hlen]
    rfl

/-- A newline ends the line. -/
theorem newline_not_mem_fgets (n : Nat) (s : List Char) : '\n' ∉ (fgets n s).1.dropLast := by
  induction n generalizing s with
  | zero => exact List.not_mem_nil
  | succ n ih =>
    cases s with
    | nil => exact List.not_mem_nil
    | cons c s =>
      unfold fgets
      by_cases hc : c = '\n'
      · simp [hc]
      · intro hmem
        simp only [if_neg hc] at hmem
        cases hrest : (fgets n s).1 with
        | nil =>
          rw [hrest] at hmem
          exact List.not_mem_nil hmem
        | cons d l =>
          rw [hrest, List.dropLast_cons_cons, List.mem_cons] at hmem
          have hih := ih s
          rw [hrest] at hih
          exact hmem.elim (fun h => hc h.symm) hih

/-! ### The loop around `fgets` -/

/-- Further calls find the stream at its end. -/
theorem fgetsAll_enough (hn : 0 < n) {a b : Nat}
    (ha : s.length ≤ a) (hb : s.length ≤ b) : fgetsAll n a s = fgetsAll n b s := by
  induction a generalizing b s with
  | zero =>
    rw [List.length_eq_zero_iff.mp (Nat.le_zero.mp ha)]
    cases b with
    | zero => rfl
    | succ b => rfl
  | succ a ih =>
    by_cases hs : s = []
    · subst hs
      cases b with
      | zero => rfl
      | succ b => rfl
    · have hlt := fgets_rest_length hn hs
      obtain ⟨b, rfl⟩ : ∃ k, b = k + 1 := ⟨b - 1, by omega⟩
      show (if s = [] then _ else _) = if s = [] then _ else _
      rw [if_neg hs, if_neg hs, ih (b := b) (by omega) (by omega)]

theorem fgetsLines_cons (hn : 0 < n) (hs : s ≠ []) :
    fgetsLines n s = (fgets n s).1 :: fgetsLines n (fgets n s).2 := by
  have hlt := fgets_rest_length hn hs
  obtain ⟨k, hk⟩ : ∃ k, s.length = k + 1 := ⟨s.length - 1, by omega⟩
  unfold fgetsLines
  rw [hk]
  show (if s = [] then _ else _) = _
  rw [if_neg hs, fgetsAll_enough hn (b := (fgets n s).2.length) (by omega) (Nat.le_refl _)]

/-- A line that was written is the next one read. -/
theorem fgetsLines_line {l : List Char} (hl : '\n' ∉ l) (hn : l.length < n)
    (rest : List Char) :
    fgetsLines n (l ++ '\n' :: rest) = (l ++ ['\n']) :: fgetsLines n rest := by
  have hne : l ++ '\n' :: rest ≠ [] := by simp
  rw [fgetsLines_cons (Nat.lt_of_le_of_lt (Nat.zero_le _) hn) hne, fgets_line hl hn]

/-- What was read is what is in the stream, line by line. -/
theorem newline_not_mem_fgetsLines {l : List Char} (h : l ∈ fgetsLines n s) :
    '\n' ∉ l.dropLast := by
  unfold fgetsLines at h
  generalize s.length = calls at h
  induction calls generalizing s with
  | zero => exact absurd h List.not_mem_nil
  | succ calls ih =>
    unfold fgetsAll at h
    by_cases hs : s = []
    · rw [if_pos hs] at h
      exact absurd h List.not_mem_nil
    · rw [if_neg hs, List.mem_cons] at h
      rcases h with rfl | h
      · exact newline_not_mem_fgets n s
      · exact ih h

/-! ### `strtok` -/

section
variable {delim t : List Char}

/-- Nothing is skipped ahead of a token. -/
theorem dropWhile_token (hne : t ≠ []) (ht : ∀ c ∈ t, c ∉ delim) (rest : List Char) :
    (t ++ rest).dropWhile (· ∈ delim) = t ++ rest := by
  obtain ⟨c, t, rfl⟩ := List.exists_cons_of_ne_nil hne
  have hc := ht c List.mem_cons_self
  simp [hc]

/-- A token that was written, with a delimiter behind it, is read back. -/
theorem strtok_token (hne : t ≠ []) (ht : ∀ c ∈ t, c ∉ delim) {d : Char} (hd : d ∈ delim)
    (rest : List Char) :
    strtok delim (t ++ d :: rest) = some (t, rest) := by
  have ht' : ∀ c ∈ t, decide (c ∉ delim) = true := fun c hc => by simpa using ht c hc
  unfold strtok
  simp only [dropWhile_token hne ht]
  rw [if_neg (by simp), List.takeWhile_append_of_pos ht', List.dropWhile_append_of_pos ht']
  simp [hd]

/-- So is one at the end. -/
theorem strtok_last (hne : t ≠ []) (ht : ∀ c ∈ t, c ∉ delim) : strtok delim t = some (t, []) := by
  have ht' : ∀ c ∈ t, decide (c ∉ delim) = true := fun c hc => by simpa using ht c hc
  have hskip := dropWhile_token hne ht []
  rw [List.append_nil] at hskip
  unfold strtok
  simp only [hskip]
  rw [if_neg hne, List.takeWhile_eq_self_iff.mpr ht', List.dropWhile_eq_nil_iff.mpr ht']
  rfl

end

/-- Without delimiters the token is the whole string. -/
theorem strtok_nil (s : List Char) : strtok [] s = if s = [] then none else some (s, []) := by
  by_cases hs : s = []
  · subst hs
    rfl
  · rw [if_neg hs, strtok_last hs fun _ _ => List.not_mem_nil]

/-- A token is not empty, holds no delimiter, and comes from the string. -/
theorem strtok_eq_some {delim t rest : List Char} (h : strtok delim s = some (t, rest)) :
    t ≠ [] ∧ (∀ c ∈ t, c ∉ delim) ∧ t ⊆ s ∧ rest ⊆ s := by
  unfold strtok at h
  have hskip : s.dropWhile (· ∈ delim) ⊆ s := (List.dropWhile_suffix _).subset
  have hhead : ∀ c l, s.dropWhile (· ∈ delim) = c :: l → c ∉ delim := by
    intro c l he
    have hhead := List.head?_dropWhile_not (fun c => decide (c ∈ delim)) s
    rw [he] at hhead
    simpa using hhead
  cases hs : s.dropWhile (· ∈ delim) with
  | nil =>
    simp only [hs, if_pos] at h
    cases h
  | cons c l =>
    simp only [hs, reduceCtorEq, if_false, Option.some.injEq, Prod.mk.injEq] at h
    obtain ⟨rfl, rfl⟩ := h
    rw [hs] at hskip
    have hc := hhead c l hs
    refine ⟨by simp [hc], fun d hd => ?_, fun d hd => ?_, fun d hd => ?_⟩
    · simpa using List.mem_takeWhile_imp hd
    · exact hskip ((List.takeWhile_prefix _).subset hd)
    · exact hskip ((List.dropWhile_suffix _).subset (List.mem_of_mem_tail hd))

end GPhoto2.Lib
