import GPhoto2.Proofs.Sierra.StringRegister
import Mathlib.Data.Nat.Find

/-!
# `GPhoto2.Proofs.Sierra.ReadPacket`: when a packet is read as it should be

A try reads until it has as many bytes as the header announces. `gathered` is what it has behind
some of these reads, and `Wants` says that it goes on. `readRest_rounds` is the loop over reads that
fit, `readRest_ends` and `readRest_fits` follow it in both directions. `tryPacket_iff` puts a try
together, and `readPacket_iff` the tries of a run.
-/

set_option autoImplicit false

namespace GPhoto2.Sierra.Endless

open Lib Comp
open List (cons_append length_append length_replicate length_take_le nil_append take_nil)

variable {answers : Nat → Answer}

/-- The bytes of an answer. An error brings none. -/
def bytesOf : Answer → List UInt8
  | .error _ => []
  | .ok bytes => bytes

/-- The answer is not an error. -/
def IsRead (a : Answer) : Prop := ∃ bytes, a = .ok bytes

theorem attempt_run {S ε α : Type} {m : Comp S ε α} {r : Except ε α} {s s' : S}
    (h : m s = some (r, s')) : attempt m s = some (.ok r, s') := by
  rw [Comp.attempt, h]

theorem attempt_none {S ε α : Type} {m : Comp S ε α} {s : S} (h : m s = none) :
    attempt m s = none := by
  rw [Comp.attempt, h]

/-! ### Reads -/

section

variable {offset n : Nat} {s : Reader} {bytes : List UInt8} {e : Int}

theorem readInto_error (h : answers s.used = .error e) :
    readInto answers offset n s = some (.error e, { s with used := s.used + 1 }) := by
  rw [readInto, h]

theorem readInto_ok (h : answers s.used = .ok bytes)
    (hfits : offset + (bytes.take n).length ≤ s.p.length) :
    readInto answers offset n s = some (.ok (bytes.take n).length,
      ⟨putAt s.p offset (bytes.take n), s.used + 1, s.received ++ bytes.take n⟩) := by
  rw [readInto, h]
  exact if_neg (Nat.not_lt.mpr hfits)

theorem readInto_stuck (h : answers s.used = .ok bytes)
    (hlarge : s.p.length < offset + (bytes.take n).length) :
    readInto answers offset n s = none := by
  rw [readInto, h]
  exact if_pos hlarge

end

theorem putAt_putAt {p xs ys : List UInt8} :
    putAt (putAt p 0 xs) xs.length ys = putAt p 0 (xs ++ ys) := by
  simp only [putAt, List.take_zero, nil_append, Nat.zero_add, length_append]
  rw [List.take_left, List.drop_append, List.drop_of_length_le (by omega), nil_append,
    List.drop_drop]
  congr 2
  omega

theorem take_putAt {p xs : List UInt8} : (putAt p 0 xs).take xs.length = xs := by
  rw [putAt, List.take_zero, nil_append, List.take_left]

/-! ### The loop that dumps what comes in -/

theorem drain_ends {count : Nat} {s : Reader} (h : drain answers count s ≠ none) :
    ∃ j, bytesOf (answers (s.used + j)) = [] := by
  induction count generalizing s with
  | zero => exact absurd rfl h
  | succ count ih =>
    cases hanswer : answers s.used with
    | error e => exact ⟨0, by rw [Nat.add_zero, hanswer, bytesOf]⟩
    | ok bytes =>
      cases bytes with
      | nil => exact ⟨0, by rw [Nat.add_zero, hanswer, bytesOf]⟩
      | cons b bytes =>
        by_cases hfits : 0 + ((b :: bytes).take 1).length ≤ s.p.length
        · rw [drain, bind_run_ok (attempt_run (readInto_ok hanswer hfits))] at h
          obtain ⟨j, hj⟩ := ih h
          exact ⟨1 + j, by rw [← Nat.add_assoc]; exact hj⟩
        · refine absurd ?_ h
          rw [drain]
          exact bind_run_none (attempt_none (readInto_stuck hanswer (Nat.not_le.mp hfits)))

theorem drain_run {j : Nat} {s : Reader} (hp : 0 < s.p.length)
    (hj : bytesOf (answers (s.used + j)) = []) :
    ∃ count s', drain answers count s = some (.ok (), s') := by
  induction j generalizing s with
  | zero =>
    cases hanswer : answers s.used with
    | error e =>
      exact ⟨1, _, by rw [drain, bind_run_ok (attempt_run (readInto_error hanswer))]; rfl⟩
    | ok bytes =>
      rw [Nat.add_zero, hanswer, bytesOf] at hj
      rw [hj] at hanswer
      exact ⟨1, _, by
        rw [drain, bind_run_ok (attempt_run (readInto_ok hanswer (Nat.zero_le _)))]; rfl⟩
  | succ j ih =>
    cases hanswer : answers s.used with
    | error e =>
      exact ⟨1, _, by rw [drain, bind_run_ok (attempt_run (readInto_error hanswer))]; rfl⟩
    | ok bytes =>
      cases bytes with
      | nil =>
        exact ⟨1, _, by
          rw [drain, bind_run_ok (attempt_run (readInto_ok hanswer (Nat.zero_le _)))]; rfl⟩
      | cons b bytes =>
        have hrun := @readInto_ok answers 0 1 s (b :: bytes) hanswer hp
        have hlength : 0 < (putAt s.p 0 [b]).length := by
          rw [length_putAt s.p [b] hp]
          exact hp
        have hused : s.used + 1 + j = s.used + (j + 1) := by omega
        obtain ⟨count, s', hrest⟩ := ih
          (s := ⟨putAt s.p 0 [b], s.used + 1, s.received ++ [b]⟩) hlength (hused ▸ hj)
        exact ⟨count + 1, s', by rw [drain, bind_run_ok (attempt_run hrun)]; exact hrest⟩

/-! ### The loop over what follows the header -/

/-- What there is of a packet behind `j` more reads, the first of them with the answer `k`. -/
def gathered (answers : Nat → Answer) (length k : Nat) (received : List UInt8) : Nat → List UInt8
  | 0 => received
  | j + 1 => gathered answers length k received j ++
      (bytesOf (answers (k + j))).take (length - (gathered answers length k received j).length)

/-- None of these reads has failed, and the packet is not complete. -/
def Wants (answers : Nat → Answer) (length k : Nat) (received : List UInt8) (j : Nat) : Prop :=
  (∀ i < j, IsRead (answers (k + i))) ∧ (gathered answers length k received j).length < length

/-- What arrives of a packet stays inside the buffer of `size` bytes, and comes to an end. -/
structure RestFits (answers : Nat → Answer) (size length k : Nat) (received : List UInt8) :
    Prop where
  inside : ∀ j, Wants answers length k received j →
    (gathered answers length k received (j + 1)).length ≤ size
  ends : ∃ j, ¬ Wants answers length k received j

/-- The reader behind `j` reads. -/
def behind (answers : Nat → Answer) (length k : Nat) (received p : List UInt8) (j : Nat) :
    Reader :=
  ⟨putAt p 0 (gathered answers length k received j), k + j,
    gathered answers length k received j⟩

section

variable {length k : Nat} {received p : List UInt8}

theorem length_gathered_mono {j j' : Nat} (h : j ≤ j') :
    (gathered answers length k received j).length ≤
      (gathered answers length k received j').length := by
  induction h with
  | refl => exact Nat.le_refl _
  | step _ ih =>
    rw [gathered, length_append]
    omega

theorem Wants.of_le {j j' : Nat} (h : Wants answers length k received j') (hle : j ≤ j') :
    Wants answers length k received j :=
  ⟨fun i hi => h.1 i (Nat.lt_of_lt_of_le hi hle),
    Nat.lt_of_le_of_lt (length_gathered_mono hle) h.2⟩

theorem gathered_eq (j : Nat) :
    ∃ more, gathered answers length k received j = received ++ more := by
  induction j with
  | zero => exact ⟨[], by rw [gathered, List.append_nil]⟩
  | succ j ih =>
    obtain ⟨more, hmore⟩ := ih
    exact ⟨_, by rw [gathered, hmore, List.append_assoc]⟩

theorem readInto_round {j : Nat} {bytes : List UInt8} (hanswer : answers (k + j) = .ok bytes)
    (hroom : (gathered answers length k received j).length ≤ p.length)
    (hfits : (gathered answers length k received (j + 1)).length ≤ p.length) :
    readInto answers (gathered answers length k received j).length
        (length - (gathered answers length k received j).length)
        (behind answers length k received p j) =
      some (.ok (bytes.take (length - (gathered answers length k received j).length)).length,
        behind answers length k received p (j + 1)) := by
  rw [gathered, hanswer, length_append, bytesOf] at hfits
  have hlength := length_putAt p (gathered answers length k received j) hroom
  have hrun := @readInto_ok answers (gathered answers length k received j).length
    (length - (gathered answers length k received j).length)
    (behind answers length k received p j) bytes hanswer (hlength ▸ hfits)
  rw [hrun]
  simp only [behind, gathered, hanswer, bytesOf, putAt_putAt]
  rfl

/-- **A round**, where the read does not fail, and fits. -/
theorem readRest_round {count j : Nat} (hwants : Wants answers length k received j)
    (hread : IsRead (answers (k + j)))
    (hfits : (gathered answers length k received (j + 1)).length ≤ p.length) :
    readRest answers length (count + 1) (gathered answers length k received j).length
        (behind answers length k received p j) =
      readRest answers length count (gathered answers length k received (j + 1)).length
        (behind answers length k received p (j + 1)) := by
  obtain ⟨bytes, hanswer⟩ := hread
  have hroom := Nat.le_trans (length_gathered_mono (Nat.le_succ j)) hfits
  rw [readRest, if_pos hwants.2,
    bind_run_ok (attempt_run (readInto_round hanswer hroom hfits))]
  show readRest answers length count _ _ = _
  rw [gathered, hanswer, length_append, bytesOf]

theorem readRest_rounds {count j : Nat} (hreads : ∀ i < j, IsRead (answers (k + i)))
    (hwants : ∀ i < j, Wants answers length k received i)
    (hfits : ∀ i < j, (gathered answers length k received (i + 1)).length ≤ p.length) :
    readRest answers length (count + j) received.length (behind answers length k received p 0) =
      readRest answers length count (gathered answers length k received j).length
        (behind answers length k received p j) := by
  induction j generalizing count with
  | zero => rfl
  | succ j ih =>
    rw [← readRest_round (hwants j (by omega)) (hreads j (by omega)) (hfits j (by omega)),
      ← ih (fun i hi => hreads i (by omega)) (fun i hi => hwants i (by omega))
        fun i hi => hfits i (by omega)]
    congr 1
    omega

theorem readRest_below (length n br : Nat) :
    Below (readRest answers length n br) (readRest answers length (n + 1) br) := by
  induction n generalizing br with
  | zero => exact Below.stuck _
  | succ n ih =>
    rw [readRest, readRest]
    refine Below.ite (Below.bind (Below.refl _) fun result => ?_) (Below.refl _)
    cases result with
    | error e => exact Below.refl _
    | ok n' => exact ih _

theorem readRest_of_le {n n' br : Nat} {s : Reader} {x : Except Int Nat × Reader}
    (hle : n ≤ n') (h : readRest answers length n br s = some x) :
    readRest answers length n' br s = some x :=
  Below.of_le (fun n => readRest_below length n br) hle s x h

/-- The packet is complete behind `j` reads, and not before. -/
def Completes (answers : Nat → Answer) (length k : Nat) (received : List UInt8) (j : Nat) : Prop :=
  (∀ i < j, IsRead (answers (k + i))) ∧
    (∀ i < j, (gathered answers length k received i).length < length) ∧
      (gathered answers length k received j).length = length

theorem wants_of_reads {j : Nat} (hreads : ∀ i < j, IsRead (answers (k + i)))
    (hshort : ∀ i < j, (gathered answers length k received i).length < length) :
    ∀ i < j, Wants answers length k received i :=
  fun i hi => ⟨fun i' hi' => hreads i' (by omega), hshort i hi⟩

theorem readRest_completes (hfits : RestFits answers p.length length k received) {j : Nat}
    (hj : Completes answers length k received j) :
    readRest answers length (1 + j) received.length (behind answers length k received p 0) =
      some (.ok length, behind answers length k received p j) := by
  obtain ⟨hreads, hshort, hlength⟩ := hj
  have hwants := wants_of_reads hreads hshort
  rw [readRest_rounds hreads hwants fun i hi => hfits.inside i (hwants i hi), hlength, readRest,
    if_neg (Nat.lt_irrefl length)]
  rfl

theorem readRest_ends (hfits : RestFits answers p.length length k received) :
    ∃ count, Ends (fun br s' => br = length →
        ∃ j, Completes answers length k received j ∧ s' = behind answers length k received p j)
      (fun _ _ => True)
      (readRest answers length count received.length (behind answers length k received p 0)) := by
  -- the first read that is not wanted
  obtain ⟨K, hK, hfirst⟩ : ∃ K, ¬ Wants answers length k received K ∧
      ∀ i < K, Wants answers length k received i := by
    classical
    exact ⟨Nat.find hfits.ends, Nat.find_spec hfits.ends,
      fun i hi => not_not.mp (Nat.find_min hfits.ends hi)⟩
  cases K with
  | zero =>
    have hlong : ¬ received.length < length :=
      fun hlt => hK ⟨fun i hi => absurd hi (Nat.not_lt_zero i), hlt⟩
    refine ⟨1, ?_⟩
    rw [readRest, if_neg hlong]
    intro hlength
    exact ⟨0, ⟨fun i hi => absurd hi (Nat.not_lt_zero i), fun i hi => absurd hi (Nat.not_lt_zero i),
      hlength⟩, rfl⟩
  | succ m =>
    have hwants := hfirst m (Nat.lt_succ_self m)
    have hinside : ∀ i < m + 1, (gathered answers length k received (i + 1)).length ≤ p.length :=
      fun i hi => hfits.inside i (hfirst i hi)
    cases hanswer : answers (k + m) with
    | error e =>
      refine ⟨1 + m, ?_⟩
      rw [readRest_rounds hwants.1 (fun i hi => hfirst i (by omega))
        fun i hi => hinside i (by omega), readRest, if_pos hwants.2,
        bind_run_ok (attempt_run (readInto_error hanswer))]
      refine Ends.ite ?_ fun _ => trivial
      intro _ hlength
      exact absurd hlength (Nat.ne_of_lt hwants.2)
    | ok bytes =>
      have hreads : ∀ i < m + 1, IsRead (answers (k + i)) := by
        intro i hi
        by_cases hlast : i = m
        · rw [hlast]
          exact ⟨bytes, hanswer⟩
        · exact hwants.1 i (by omega)
      refine ⟨1 + (m + 1), ?_⟩
      rw [readRest_rounds hreads hfirst hinside, readRest, if_neg fun hlt => hK ⟨hreads, hlt⟩]
      intro hlength
      exact ⟨m + 1, ⟨hreads, fun i hi => (hfirst i hi).2, hlength⟩, rfl⟩

theorem readRest_fits {count : Nat} (hroom : received.length ≤ p.length)
    (hrun : readRest answers length count received.length
      (behind answers length k received p 0) ≠ none) :
    RestFits answers p.length length k received := by
  obtain ⟨x, hx⟩ := Option.ne_none_iff_exists'.mp hrun
  have hinside : ∀ j, Wants answers length k received j →
      (gathered answers length k received (j + 1)).length ≤ p.length := by
    intro j
    induction j using Nat.strongRecOn with
    | ind j ih =>
      intro hwants
      have hbefore : ∀ i < j, Wants answers length k received i :=
        fun i hi => hwants.of_le (Nat.le_of_lt hi)
      have hj : (gathered answers length k received j).length ≤ p.length := by
        cases j with
        | zero => exact hroom
        | succ j => exact ih j (Nat.lt_succ_self j) (hbefore j (Nat.lt_succ_self j))
      by_contra hlarge
      cases hanswer : answers (k + j) with
      | error e =>
        rw [gathered, hanswer, bytesOf, take_nil, List.append_nil] at hlarge
        exact hlarge hj
      | ok bytes =>
        rw [gathered, hanswer, bytesOf, length_append] at hlarge
        have hbuffer : (behind answers length k received p j).p.length = p.length :=
          length_putAt _ _ hj
        have hstuck : readRest answers length (count + 1 + j) received.length
            (behind answers length k received p 0) = none := by
          rw [readRest_rounds hwants.1 hbefore fun i hi => ih i hi (hbefore i hi), readRest,
            if_pos hwants.2]
          exact bind_run_none (attempt_none (readInto_stuck hanswer (by rw [hbuffer]; omega)))
        rw [readRest_of_le (by omega) hx] at hstuck
        cases hstuck
  refine ⟨hinside, ?_⟩
  by_contra hnever
  have hall : ∀ j, Wants answers length k received j :=
    fun j => not_not.mp fun hj => hnever ⟨j, hj⟩
  have hstuck := @readRest_rounds answers length k received p 0 count (hall count).1
    (fun i _ => hall i) fun i _ => hinside i (hall i)
  rw [Nat.zero_add, hx] at hstuck
  cases hstuck

end

/-! ### A try -/

/-- The length that the packet announces for itself. -/
def announced (p : List UInt8) : Nat := wordAt p 2 + 6

/-- What may be returned as a success: a packet of one byte, or one of as many bytes as have been
received, which are just those that it announces, with a checksum that is accepted. -/
def Accepted (s : Reader) : Prop :=
  isSingle (s.p.getD 0 0) = true ∨
    (s.received.length = announced s.p ∧ s.p.take (announced s.p) = s.received ∧
      checksumAccepted s.p (announced s.p) = true)

/-- What follows a header of `received` bytes fits. Where the header is not complete, its length is
taken from what has been in the buffer, and has to be the one that comes. -/
structure SafeRest (answers : Nat → Answer) (p : List UInt8) (k : Nat) (received : List UInt8) :
    Prop where
  fits : RestFits answers p.length (announced (putAt p 0 received)) k received
  header : received.length < 4 → ∀ j,
    Completes answers (announced (putAt p 0 received)) k received j →
      checksumAccepted (putAt p 0 (gathered answers (announced (putAt p 0 received)) k received j))
          (announced (putAt p 0 received)) = true →
        announced (putAt p 0
          (gathered answers (announced (putAt p 0 received)) k received j)) =
            announced (putAt p 0 received)

/-- What the first read of a try brings. -/
def opening (answers : Nat → Answer) (port : PortType) (k : Nat) : List UInt8 :=
  (bytesOf (answers k)).take port.blocksize

/-- What has been received behind the reads of a header, and the next answer. -/
def header (answers : Nat → Answer) (port : PortType) (k : Nat) : Option (List UInt8 × Nat) :=
  if (opening answers port k).length < 4 then
    match answers (k + 1) with
    | .error _ => none
    | .ok bytes =>
      some (opening answers port k ++ bytes.take (4 - (opening answers port k).length), k + 2)
  else
    some (opening answers port k, k + 1)

/-- What a try that starts with the answer `k` and the buffer `p` has to meet. Behind a first byte
that is not valid some read has to bring nothing. -/
def SafeTry (answers : Nat → Answer) (port : PortType) (p : List UInt8) (k : Nat) : Prop :=
  ∀ first rest, opening answers port k = first :: rest → isSingle first = false →
    (isLong first = false → ∃ j, bytesOf (answers (k + 1 + j)) = []) ∧
    (isLong first = true → ∀ received k', header answers port k = some (received, k') →
      SafeRest answers p k' received)

/-- What a try may return. -/
def TryOk (v : Verdict) (s : Reader) : Prop := v = .done → Accepted s

section

variable {k : Nat} {received p : List UInt8}

theorem getD_gathered {length : Nat} {first : UInt8} {rest : List UInt8} (j : Nat) :
    (putAt p 0 (gathered answers length k (first :: rest) j)).getD 0 0 = first := by
  obtain ⟨more, hmore⟩ := @gathered_eq answers length k (first :: rest) j
  rw [hmore, getD_putAt p (by rw [cons_append, List.length_cons]; omega)]
  rfl

theorem announced_gathered {length : Nat} (hheader : 4 ≤ received.length) (j : Nat) :
    announced (putAt p 0 (gathered answers length k received j)) =
      announced (putAt p 0 received) := by
  obtain ⟨more, hmore⟩ := @gathered_eq answers length k received j
  rw [announced, announced, hmore, wordAt_putAt p (by rw [length_append]; omega),
    wordAt_putAt p (by omega), wordAt, wordAt, List.getD_append _ _ _ _ (by omega),
    List.getD_append _ _ _ _ (by omega)]

theorem readBody_run (count br : Nat) (s : Reader) :
    readBody answers count br s =
      (readRest answers (announced s.p) count br >>= fun br => Comp.get >>= fun s' =>
        if br = announced s.p ∧ checksumAccepted s'.p br = true then
          pure .done
        else
          pure (.broken (if br = announced s.p then gpErrorCorruptedData else gpErrorTimeout))) s :=
  rfl

/-- **Behind the header**: the part comes to an end and returns what it should, just as long as what
follows is safe. -/
theorem readBody_iff {first : UInt8} {rest : List UInt8} (hroom : (first :: rest).length ≤ p.length)
    (hlong : isLong first = true) :
    (∃ count, Ends TryOk (fun _ _ => True)
      (readBody answers count (first :: rest).length
        ⟨putAt p 0 (first :: rest), k, first :: rest⟩)) ↔ SafeRest answers p k (first :: rest) := by
  constructor
  · intro h
    obtain ⟨count, hends⟩ := h
    rw [readBody_run] at hends
    have hrun : readRest answers (announced (putAt p 0 (first :: rest))) count
        (first :: rest).length (behind answers (announced (putAt p 0 (first :: rest))) k
          (first :: rest) p 0) ≠ none :=
      fun hnone => hends.ne_none (bind_run_none hnone)
    have hfits := readRest_fits hroom hrun
    refine ⟨hfits, ?_⟩
    intro _ j hj hchecksum
    obtain ⟨x, hx⟩ := Option.ne_none_iff_exists'.mp hrun
    have hdone := readRest_completes hfits hj
    -- both counts lead to the same end
    have hsame := readRest_of_le (Nat.le_add_left count (1 + j)) hx
    rw [readRest_of_le (Nat.le_add_right (1 + j) count) hdone] at hsame
    rw [← hsame] at hx
    have haccepted : Accepted (behind answers (announced (putAt p 0 (first :: rest))) k
        (first :: rest) p j) := by
      refine hends.of_ok (a := .done) ?_ rfl
      refine Eq.trans (bind_run_ok hx) ?_
      exact congrFun (if_pos ⟨rfl, hchecksum⟩) _
    rcases haccepted with hsingle | hwhole
    · rw [behind, getD_gathered, isSingle_of_isLong hlong] at hsingle
      cases hsingle
    · exact hwhole.1.symm.trans hj.2.2
  · intro hsafe
    obtain ⟨count, hends⟩ := readRest_ends hsafe.fits
    refine ⟨count, ?_⟩
    rw [readBody_run]
    refine Ends.bind hends fun br s' hbr => ?_
    refine Ends.get_bind (Ends.ite ?_ fun _ => ?_)
    · intro hdone _
      obtain ⟨hlength, hchecksum⟩ := hdone
      obtain ⟨j, hj, rfl⟩ := hbr hlength
      rw [hlength] at hchecksum
      have hannounced : announced (behind answers (announced (putAt p 0 (first :: rest))) k
          (first :: rest) p j).p = announced (putAt p 0 (first :: rest)) := by
        by_cases hheader : (first :: rest).length < 4
        · exact hsafe.header hheader j hj hchecksum
        · exact announced_gathered (Nat.not_lt.mp hheader) j
      refine Or.inr ?_
      rw [hannounced]
      exact ⟨hj.2.2, (congrArg (List.take · _) hj.2.2.symm).trans take_putAt, hchecksum⟩
    · intro hdone
      cases hdone

variable {port : PortType} {s : Reader} {first : UInt8} {rest : List UInt8}

theorem tryPacket_unread (hnone : opening answers port s.used = []) (count : Nat) :
    ∃ e s', tryPacket answers port count s = some (.ok (.unread e), s') := by
  cases hanswer : answers s.used with
  | error e =>
    exact ⟨e, _, bind_run_ok (s := { s with received := [] })
      (attempt_run (readInto_error hanswer))⟩
  | ok bytes =>
    rw [opening, hanswer, bytesOf] at hnone
    have hrun := @readInto_ok answers 0 port.blocksize { s with received := [] } bytes hanswer
      (by rw [hnone]; exact Nat.zero_le _)
    rw [hnone] at hrun
    exact ⟨gpErrorIoRead, _, bind_run_ok (s := { s with received := [] }) (attempt_run hrun)⟩

theorem tryPacket_opened (hopening : opening answers port s.used = first :: rest)
    (hsize : port.blocksize ≤ s.p.length) (count : Nat) :
    tryPacket answers port count s =
      (if isSingle first = true then
        pure .done
      else if isLong first = false then
        drain answers count >>= fun _ => Comp.throw gpErrorCorruptedData
      else
        readHead answers (first :: rest).length >>= fun br => readBody answers count br)
      ⟨putAt s.p 0 (first :: rest), s.used + 1, first :: rest⟩ := by
  cases hanswer : answers s.used with
  | error e =>
    rw [opening, hanswer, bytesOf, take_nil] at hopening
    cases hopening
  | ok bytes =>
    rw [opening, hanswer, bytesOf] at hopening
    have hlength : (bytes.take port.blocksize).length ≤ port.blocksize := length_take_le _ _
    have hrun := @readInto_ok answers 0 port.blocksize { s with received := [] } bytes hanswer
      (by rw [Nat.zero_add]; exact Nat.le_trans hlength hsize)
    rw [hopening] at hrun
    have hfirst : (putAt s.p 0 (first :: rest)).getD 0 0 = first :=
      getD_putAt s.p (Nat.succ_pos rest.length)
    refine Eq.trans (bind_run_ok (s := { s with received := [] }) (attempt_run hrun)) ?_
    show (if isSingle ((putAt s.p 0 (first :: rest)).getD 0 0) = true then _
      else if isLong ((putAt s.p 0 (first :: rest)).getD 0 0) = false then _ else _ :
        Comp Reader Int Verdict) _ = _
    rw [hfirst]
    rfl

theorem readHead_run (hopening : opening answers port s.used = first :: rest)
    (hsize : port.blocksize ≤ s.p.length) (hfour : 4 ≤ s.p.length) :
    (header answers port s.used = none ∧ ∃ e s', readHead answers (first :: rest).length
        ⟨putAt s.p 0 (first :: rest), s.used + 1, first :: rest⟩ = some (.error e, s')) ∨
    ∃ rest' k', header answers port s.used = some (first :: rest', k') ∧
      (first :: rest').length ≤ s.p.length ∧ readHead answers (first :: rest).length
        ⟨putAt s.p 0 (first :: rest), s.used + 1, first :: rest⟩ =
          some (.ok (first :: rest').length,
            ⟨putAt s.p 0 (first :: rest'), k', first :: rest'⟩) := by
  have hroom : (first :: rest).length ≤ s.p.length := by
    rw [← hopening]
    exact Nat.le_trans (length_take_le _ _) hsize
  rw [header, hopening, readHead]
  by_cases hshort : (first :: rest).length < 4
  · rw [if_pos hshort, if_pos hshort]
    cases hanswer : answers (s.used + 1) with
    | error e => exact Or.inl ⟨rfl, e, _, bind_run_error (readInto_error hanswer)⟩
    | ok bytes =>
      have htake : (bytes.take (4 - (first :: rest).length)).length ≤ 4 - (first :: rest).length :=
        length_take_le _ _
      have hfits : (first :: rest).length + (bytes.take (4 - (first :: rest).length)).length ≤
          s.p.length := by omega
      have hrun := readInto_ok (s := ⟨putAt s.p 0 (first :: rest), s.used + 1, first :: rest⟩)
        hanswer (by rw [length_putAt _ _ hroom]; exact hfits)
      rw [putAt_putAt] at hrun
      refine Or.inr ⟨rest ++ bytes.take (4 - (first :: rest).length), s.used + 2, rfl, ?_, ?_⟩
      · rw [← cons_append, length_append]
        exact hfits
      · rw [bind_run_ok hrun, ← cons_append, length_append]
        rfl
  · rw [if_neg hshort, if_neg hshort]
    exact Or.inr ⟨rest, s.used + 1, rfl, hroom, rfl⟩

/-- **A try** comes to an end, stays inside the packet and returns what it should, just as long as
it is safe. -/
theorem tryPacket_iff (hsize : port.blocksize ≤ s.p.length) (hfour : 4 ≤ s.p.length) :
    (∃ count, Ends TryOk (fun _ _ => True) (tryPacket answers port count s)) ↔
      SafeTry answers port s.p s.used := by
  cases hopening : opening answers port s.used with
  | nil =>
    constructor
    · intro _ first rest hopening'
      rw [hopening] at hopening'
      cases hopening'
    · intro _
      obtain ⟨e, s', hrun⟩ := tryPacket_unread hopening 0
      refine ⟨0, ?_⟩
      rw [hrun]
      intro hdone
      cases hdone
  | cons first rest =>
    have hroom : (first :: rest).length ≤ s.p.length := by
      rw [← hopening]
      exact Nat.le_trans (length_take_le _ _) hsize
    simp only [tryPacket_opened hopening hsize, SafeTry, hopening, List.cons.injEq]
    by_cases hsingle : isSingle first = true
    · simp only [if_pos hsingle]
      refine ⟨?_, ?_⟩
      · rintro - first' rest' ⟨rfl, rfl⟩ hnot
        rw [hsingle] at hnot
        cases hnot
      · intro _
        refine ⟨0, fun _ => Or.inl ?_⟩
        rw [getD_putAt s.p (Nat.succ_pos rest.length)]
        exact hsingle
    · simp only [if_neg hsingle]
      by_cases hlong : isLong first = false
      · simp only [if_pos hlong]
        constructor
        · rintro ⟨count, hends⟩ first' rest' ⟨rfl, rfl⟩ _
          refine ⟨fun _ => ?_, fun hlong' => ?_⟩
          · exact drain_ends fun hnone => hends.ne_none (bind_run_none hnone)
          · rw [hlong] at hlong'
            cases hlong'
        · intro hsafe
          obtain ⟨j, hj⟩ := (hsafe first rest ⟨rfl, rfl⟩ (Bool.not_eq_true _ ▸ hsingle)).1 hlong
          obtain ⟨count, s', hrun⟩ := drain_run
            (s := ⟨putAt s.p 0 (first :: rest), s.used + 1, first :: rest⟩)
            (by rw [length_putAt _ _ hroom]; omega) hj
          refine ⟨count, ?_⟩
          rw [bind_run_ok hrun]
          trivial
      · have hlong' : isLong first = true := Bool.not_eq_false _ ▸ hlong
        simp only [if_neg hlong]
        rcases readHead_run hopening hsize hfour with hnone | hsome
        · obtain ⟨hheader, e, s', hrun⟩ := hnone
          constructor
          · rintro - first' rest' ⟨rfl, rfl⟩ _
            refine ⟨fun hnot => absurd hnot hlong, fun _ received k' hreceived => ?_⟩
            rw [hheader] at hreceived
            cases hreceived
          · intro _
            refine ⟨0, ?_⟩
            rw [bind_run_error hrun]
            trivial
        · obtain ⟨rest', k', hheader, hroom', hrun⟩ := hsome
          have hbody := @readBody_iff answers k' _ _ _ hroom' hlong'
          simp only [bind_run_ok hrun]
          rw [hbody]
          constructor
          · rintro hsafe first' rest'' ⟨rfl, rfl⟩ _
            refine ⟨fun hnot => absurd hnot hlong, fun _ received k'' hreceived => ?_⟩
            rw [hheader] at hreceived
            cases hreceived
            exact hsafe
          · intro hsafe
            exact (hsafe first rest ⟨rfl, rfl⟩ (Bool.not_eq_true _ ▸ hsingle)).2 hlong' _ _ hheader

end

/-! ### Counts and the size of the packet -/

variable (port : PortType) (n : Nat)

theorem drain_below : Below (drain answers n) (drain answers (n + 1)) := by
  induction n with
  | zero => exact Below.stuck _
  | succ n ih =>
    rw [drain, drain]
    refine Below.bind (Below.refl _) fun result => ?_
    cases result with
    | error e => exact Below.refl _
    | ok n' =>
      cases n' with
      | zero => exact Below.refl _
      | succ n' => exact ih

theorem tryPacket_below :
    Below (tryPacket answers port n) (tryPacket answers port (n + 1)) := by
  rw [tryPacket, tryPacket]
  refine Below.bind (Below.refl _) fun _ => Below.bind (Below.refl _) fun result => ?_
  cases result with
  | error e => exact Below.refl _
  | ok n' =>
    cases n' with
    | zero => exact Below.refl _
    | succ n' =>
      refine Below.bind (Below.refl _) fun s => Below.ite (Below.refl _) (Below.ite ?_ ?_)
      · exact Below.bind (drain_below n) fun _ => Below.refl _
      · refine Below.bind (Below.refl _) fun br => Below.bind (Below.refl _) fun s => ?_
        exact Below.bind (readRest_below _ n br) fun _ => Below.refl _

theorem readLoop_below (tries r : Nat) :
    Below (readLoop answers port n tries r) (readLoop answers port (n + 1) tries r) := by
  induction tries generalizing r with
  | zero => exact Below.refl _
  | succ tries ih =>
    rw [readLoop, readLoop]
    refine Below.bind (tryPacket_below port n) fun verdict => ?_
    cases verdict with
    | done => exact Below.refl _
    | unread e => exact Below.ite (Below.refl _) (ih _)
    | broken e => exact Below.ite (Below.refl _) (ih _)

/-- The packet keeps its size. -/
abbrev KeepsSize (size : Nat) {α : Type} (m : Comp Reader Int α) : Prop :=
  Keeps (fun s => s.p.length = size) (fun _ _ => True) m

section

variable {size : Nat}

theorem length_putAt_of_le {p bytes : List UInt8} {offset : Nat}
    (h : offset + bytes.length ≤ p.length) : (putAt p offset bytes).length = p.length := by
  rw [putAt, length_append, length_append, List.length_take, List.length_drop]
  omega

theorem readInto_keepsSize (offset n : Nat) : KeepsSize size (readInto answers offset n) := by
  intro s r s' hs hrun
  cases hanswer : answers s.used with
  | error e =>
    rw [readInto_error hanswer] at hrun
    cases hrun
    exact ⟨hs, trivial⟩
  | ok bytes =>
    by_cases hfits : offset + (bytes.take n).length ≤ s.p.length
    · rw [readInto_ok hanswer hfits] at hrun
      cases hrun
      exact ⟨(length_putAt_of_le hfits).trans hs, trivial⟩
    · rw [readInto_stuck hanswer (Nat.not_le.mp hfits)] at hrun
      cases hrun

theorem drain_keepsSize (n : Nat) : KeepsSize size (drain answers n) := by
  induction n with
  | zero => exact Keeps.stuck
  | succ n ih =>
    refine Keeps.bind (Keeps.attempt (readInto_keepsSize 0 1)) fun result => ?_
    cases result with
    | error e => exact Keeps.pure _
    | ok n' =>
      cases n' with
      | zero => exact Keeps.pure _
      | succ n' => exact ih

theorem readRest_keepsSize (length n br : Nat) : KeepsSize size (readRest answers length n br) := by
  induction n generalizing br with
  | zero => exact Keeps.stuck
  | succ n ih =>
    rw [readRest]
    refine Keeps.ite (fun _ => Keeps.bind (Keeps.attempt (readInto_keepsSize _ _)) fun result => ?_)
      fun _ => Keeps.pure _
    cases result with
    | error e => exact Keeps.ite (fun _ => Keeps.pure _) fun _ => Keeps.throw _
    | ok n' => exact ih _

theorem readHead_keepsSize (br : Nat) : KeepsSize size (readHead answers br) :=
  Keeps.ite (fun _ => Keeps.bind (readInto_keepsSize _ _) fun _ => Keeps.pure _)
    fun _ => Keeps.pure _

theorem tryPacket_keepsSize (port : PortType) (count : Nat) :
    KeepsSize size (tryPacket answers port count) := by
  refine Keeps.bind (Keeps.modify fun s hs => ⟨hs, trivial⟩) fun _ =>
    Keeps.bind (Keeps.attempt (readInto_keepsSize _ _)) fun result => ?_
  cases result with
  | error e => exact Keeps.pure _
  | ok n =>
    cases n with
    | zero => exact Keeps.pure _
    | succ n =>
      refine Keeps.bind Keeps.get fun s => Keeps.ite (fun _ => Keeps.pure _) fun _ =>
        Keeps.ite (fun _ => ?_) fun _ => ?_
      · exact Keeps.bind (drain_keepsSize count) fun _ => Keeps.throw _
      · refine Keeps.bind (readHead_keepsSize _) fun br => Keeps.bind Keeps.get fun s =>
          Keeps.bind (readRest_keepsSize _ _ _) fun br => Keeps.bind Keeps.get fun s => ?_
        exact Keeps.ite (fun _ => Keeps.pure _) fun _ => Keeps.pure _

end

/-! ### The tries of a run -/

/-- There is another try behind one with this outcome, where there have been `r` failures. -/
def GoesOn (r : Nat) : Verdict → Prop
  | .done => False
  | .unread _ => r + 1 ≤ 2
  | .broken _ => r + 2 < retriesMax

/-- The states in front of the tries of a run, with the number of failures so far. -/
inductive Reached (answers : Nat → Answer) (port : PortType) (p : List UInt8) :
    Nat → Reader → Prop
  | start : Reached answers port p 0 ⟨p, 0, []⟩
  | next {r count : Nat} {s s' : Reader} {v : Verdict} (h : Reached answers port p r s)
      (hrun : tryPacket answers port count s = some (.ok v, s')) (hmore : GoesOn r v) :
      Reached answers port p (r + 1) s'

/-- The function comes to an end, stays inside the packet, and a success is one that is accepted. -/
def ReadsWell (answers : Nat → Answer) (port : PortType) (p : List UInt8) : Prop :=
  ∃ count, Ends (fun _ s' => Accepted s') (fun _ _ => True)
    (readPacket answers port count ⟨p, 0, []⟩)

section

variable {port : PortType} {p : List UInt8} {r count : Nat} {s s' : Reader} {v : Verdict}

/-- There are `retriesMax - 1` tries at most. -/
theorem Reached.le (h : Reached answers port p r s) : r ≤ 8 := by
  induction h with
  | start => exact Nat.zero_le 8
  | @next r count s s' v h hrun hmore ih =>
    cases v with
    | done => exact hmore.elim
    | unread e =>
      have hfew : r + 1 ≤ 2 := hmore
      omega
    | broken e =>
      have hfew : r + 2 < 10 := hmore
      omega

theorem Reached.length_eq (h : Reached answers port p r s) : s.p.length = p.length := by
  induction h with
  | start => rfl
  | next _ hrun _ ih => exact (tryPacket_keepsSize port _ _ _ _ ih hrun).1

theorem readLoop_goesOn (hrun : tryPacket answers port count s = some (.ok v, s'))
    (hmore : GoesOn r v) (tries : Nat) :
    readLoop answers port count (tries + 1) r s = readLoop answers port count tries (r + 1) s' := by
  rw [readLoop, bind_run_ok hrun]
  cases v with
  | done => exact hmore.elim
  | unread e => exact congrFun (if_neg (Nat.not_lt.mpr hmore)) s'
  | broken e => exact congrFun (if_neg (Nat.not_le.mpr hmore)) s'

theorem readLoop_stops (hrun : tryPacket answers port count s = some (.ok v, s'))
    (hstop : ¬ GoesOn r v) (tries : Nat) :
    (v = .done ∧ readLoop answers port count (tries + 1) r s = some (.ok (), s')) ∨
    (v ≠ .done ∧ ∃ e, readLoop answers port count (tries + 1) r s = some (.error e, s')) := by
  rw [readLoop, bind_run_ok hrun]
  cases v with
  | done => exact Or.inl ⟨rfl, rfl⟩
  | unread e =>
    refine Or.inr ⟨Verdict.noConfusion, e, ?_⟩
    exact congrFun (if_pos (Nat.not_le.mp hstop)) s'
  | broken e =>
    refine Or.inr ⟨Verdict.noConfusion, e, ?_⟩
    exact congrFun (if_pos (Nat.not_lt.mp hstop)) s'

/-- From a state of a run whose tries are safe, the loop comes to its end. -/
theorem readLoop_ends (hsize : port.blocksize ≤ p.length) (hfour : 4 ≤ p.length)
    (hsafe : ∀ r s, Reached answers port p r s → SafeTry answers port s.p s.used) (tries : Nat)
    (hreached : Reached answers port p r s) (htries : r + tries = retriesMax) :
    ∃ count, Ends (fun _ s' => Accepted s') (fun _ _ => True)
      (readLoop answers port count tries r s) := by
  induction tries generalizing r s with
  | zero =>
    have hle := hreached.le
    have hten : r + 0 = 10 := htries
    omega
  | succ tries ih =>
    have hlength := hreached.length_eq
    obtain ⟨count, hends⟩ := (tryPacket_iff (hlength ▸ hsize) (hlength ▸ hfour)).mpr
      (hsafe r s hreached)
    obtain ⟨x, hx⟩ := Option.ne_none_iff_exists'.mp hends.ne_none
    obtain ⟨result, s'⟩ := x
    cases result with
    | error e =>
      refine ⟨count, ?_⟩
      rw [readLoop, bind_run_error hx]
      trivial
    | ok v =>
      by_cases hmore : GoesOn r v
      · obtain ⟨count', hrest⟩ := ih (hreached.next hx hmore) (by omega)
        obtain ⟨y, hy⟩ := Option.ne_none_iff_exists'.mp hrest.ne_none
        -- a count that is enough for this try and for those behind it
        refine ⟨count + count', ?_⟩
        rw [readLoop_goesOn (Below.of_le (tryPacket_below port) (Nat.le_add_right count count')
            _ _ hx) hmore,
          Below.of_le (fun n => readLoop_below port n tries (r + 1))
            (Nat.le_add_left count' count) _ _ hy, ← hy]
        exact hrest
      · refine ⟨count, ?_⟩
        rcases readLoop_stops hx hmore tries with hdone | hfailed
        · rw [hdone.2]
          exact hends.of_ok hx hdone.1
        · obtain ⟨-, e, hrun⟩ := hfailed
          rw [hrun]
          trivial

theorem Reached.ends (h : Reached answers port p r s)
    (hends : Ends (fun _ s' => Accepted s') (fun _ _ => True)
      (readPacket answers port count ⟨p, 0, []⟩)) :
    Ends (fun _ s' => Accepted s') (fun _ _ => True)
      (readLoop answers port count (retriesMax - 1 - r + 1) r s) := by
  induction h with
  | start => exact hends
  | @next r count' s s' v h hrun hmore ih =>
    have hle := (h.next hrun hmore).le
    -- the count of this run leads to the same outcome of the try
    obtain ⟨x, hx⟩ := Option.ne_none_iff_exists'.mp
      (show tryPacket answers port count s ≠ none from
        fun hnone => ih.ne_none (bind_run_none hnone))
    have hsame := Below.of_le (tryPacket_below port) (Nat.le_add_right count count') _ _ hx
    rw [Below.of_le (tryPacket_below port) (Nat.le_add_left count' count) _ _ hrun] at hsame
    rw [← hsame] at hx
    rw [readLoop_goesOn hx hmore] at ih
    have hcount : retriesMax - 1 - r = retriesMax - 1 - (r + 1) + 1 := by
      show 10 - 1 - r = 10 - 1 - (r + 1) + 1
      omega
    rwa [hcount] at ih

end

theorem blocksize_le : port.blocksize ≤ 32774 := by
  cases port with
  | usb => exact Nat.le_refl _
  | serial => exact Nat.le_of_ble_eq_true rfl

theorem Reached.safe {port : PortType} {p : List UInt8} {r : Nat} {s : Reader}
    (hreached : Reached answers port p r s) (hp : p.length = 32774)
    (hwell : ReadsWell answers port p) : SafeTry answers port s.p s.used := by
  obtain ⟨count, hends⟩ := hwell
  have hlength := hreached.length_eq.trans hp
  have hloop := hreached.ends hends
  refine (tryPacket_iff (hlength ▸ blocksize_le port) (by omega)).mp ⟨count, ?_⟩
  refine Ends.intro (fun hnone => hloop.ne_none (bind_run_none hnone)) ?_ fun _ _ _ => trivial
  intro v s' hrun hdone
  rcases readLoop_stops (r := r) hrun (by rw [hdone]; exact fun h => h) (retriesMax - 1 - r)
    with hend | hfailed
  · exact hloop.of_ok hend.2
  · exact absurd hdone hfailed.1

/-- A port where every read fails. -/
def silent : Nat → Answer := fun _ => .error gpErrorTimeout

/-- A packet that announces 65535 bytes of data, and sends them. -/
def overlong : Nat → Answer
  | 0 => .ok [0x02, 0x00, 0xff, 0xff]
  | _ + 1 => .ok (List.replicate 65537 0)

end GPhoto2.Sierra.Endless
