import GPhoto2.Lib.Comp
import Mathlib.Logic.Relation

/-!
# `GPhoto2.Lib.Outcome`: postconditions for computations that may fail

`Comp.Ends Q E (m s)` says that `m`, run from `s`, comes to an end, with `Q` if it returns a value
and with `E` if it returns an error. It holds of no computation that gets stuck. There is a rule for
each construct (`Ends.bind`, `Ends.ite`, `Ends.forM_range'`, …), so that the outcome of a function
is put together from those of its parts.

`Comp.Returns R m` says what `m` has done where it returns a value.

`Comp.Below m m'` compares a recursion that is cut off by a count with one that is cut off later.

`invariant_of_steps` is the rule for whole runs: what every step keeps, every run keeps.
-/

set_option autoImplicit false

namespace GPhoto2.Lib

namespace Comp

variable {S ε α β : Type}

/-- The outcome is a value with `Q` or an error with `E`. -/
def Ends (Q : α → S → Prop) (E : ε → S → Prop) : Option (Except ε α × S) → Prop
  | none => False
  | some (.error e, s) => E e s
  | some (.ok a, s) => Q a s

variable {Q : α → S → Prop} {E : ε → S → Prop} {m : Comp S ε α} {s : S}

theorem Ends.of_ok {s' : S} {a : α} (h : Ends Q E (m s))
    (hrun : m s = some (.ok a, s')) : Q a s' := by
  rw [hrun] at h
  exact h

theorem Ends.of_error {s' : S} {e : ε} (h : Ends Q E (m s))
    (hrun : m s = some (.error e, s')) : E e s' := by
  rw [hrun] at h
  exact h

theorem Ends.ne_none (h : Ends Q E (m s)) : m s ≠ none := by
  intro hrun
  rw [hrun] at h
  exact h

variable {o : Option (Except ε α × S)}

/-- What holds of every value and of every error that a computation returns is its outcome. -/
theorem Ends.intro (hend : o ≠ none)
    (hok : ∀ a s, o = some (.ok a, s) → Q a s)
    (herror : ∀ e s, o = some (.error e, s) → E e s) : Ends Q E o := by
  cases o with
  | none => exact hend rfl
  | some p =>
    obtain ⟨r, s⟩ := p
    cases r with
    | error e => exact herror e s rfl
    | ok a => exact hok a s rfl

theorem Ends.mono {Q' : α → S → Prop} {E' : ε → S → Prop}
    (h : Ends Q E o) (hQ : ∀ a s, Q a s → Q' a s) (hE : ∀ e s, E e s → E' e s) :
    Ends Q' E' o := by
  cases o with
  | none => exact h
  | some p =>
    obtain ⟨r, s⟩ := p
    cases r with
    | error e => exact hE e s h
    | ok a => exact hQ a s h

/-- Two outcomes of one computation hold together. -/
theorem Ends.and {Q' : α → S → Prop} {E' : ε → S → Prop}
    (h : Ends Q E o) (h' : Ends Q' E' o) :
    Ends (fun a s => Q a s ∧ Q' a s) (fun e s => E e s ∧ E' e s) o := by
  cases o with
  | none => exact h
  | some p =>
    obtain ⟨r, s⟩ := p
    cases r with
    | error e => exact ⟨h, h'⟩
    | ok a => exact ⟨h, h'⟩

/-- A computation that returns no error returns a value. -/
theorem Ends.exists_ok (h : Ends Q E o)
    (hnone : ∀ e s, ¬ E e s) : ∃ a s, o = some (.ok a, s) ∧ Q a s := by
  cases o with
  | none => exact h.elim
  | some p =>
    obtain ⟨r, s⟩ := p
    cases r with
    | error e => exact absurd h (hnone e s)
    | ok a => exact ⟨a, s, rfl, h⟩

/-- A computation that returns no value returns an error. -/
theorem Ends.exists_error (h : Ends Q E o)
    (hnone : ∀ a s, ¬ Q a s) : ∃ e s, o = some (.error e, s) ∧ E e s := by
  cases o with
  | none => exact h.elim
  | some p =>
    obtain ⟨r, s⟩ := p
    cases r with
    | error e => exact ⟨e, s, rfl, h⟩
    | ok a => exact absurd h (hnone a s)

/-- The value of a run that has been evaluated. -/
theorem exists_of_value {a : α}
    (h : o.map (·.1.toOption) = some (some a)) : ∃ s, o = some (.ok a, s) := by
  obtain ⟨⟨r, s⟩, rfl, hr⟩ := Option.map_eq_some_iff.mp h
  cases r with
  | error e => cases hr
  | ok b =>
    cases hr
    exact ⟨s, rfl⟩

/-! ### The constructs -/

theorem Ends.pure {a : α} (h : Q a s) : Ends Q E ((Pure.pure a : Comp S ε α) s) := h

theorem Ends.throw {e : ε} (h : E e s) : Ends Q E ((throw e : Comp S ε α) s) := h

theorem Ends.modify {Q : Unit → S → Prop} {g : S → S} (h : Q () (g s)) :
    Ends Q E ((modify g : Comp S ε Unit) s) := h

theorem Ends.bind {R : β → S → Prop} {m : Comp S ε β} {k : β → Comp S ε α} {s : S}
    (hm : Ends R E (m s)) (hk : ∀ b s', R b s' → Ends Q E (k b s')) : Ends Q E ((m >>= k) s) := by
  rw [bind_run]
  cases hrun : m s with
  | none => exact (hm.ne_none hrun).elim
  | some p =>
    obtain ⟨r, s'⟩ := p
    cases r with
    | error e => exact hm.of_error hrun
    | ok b => exact hk b s' (hm.of_ok hrun)

/-- What a computation on a part of the state does, it does there. -/
theorem Ends.onPart {T : Type} {part : T → S} {put : S → T → T} {t : T}
    {Q : α → T → Prop} {E : ε → T → Prop}
    (h : Ends (fun a s => Q a (put s t)) (fun e s => E e (put s t)) (m (part t))) :
    Ends Q E (Comp.onPart part put m t) := by
  cases hrun : m (part t) with
  | none => exact (h.ne_none hrun).elim
  | some p =>
    obtain ⟨r, s⟩ := p
    have hpart : Comp.onPart part put m t = some (r, put s t) := by
      rw [Comp.onPart, hrun, Option.map_some]
    rw [hpart]
    cases r with
    | error e => exact h.of_error hrun
    | ok a => exact h.of_ok hrun

theorem Ends.get_bind {k : S → Comp S ε α} (h : Ends Q E (k s s)) :
    Ends Q E ((get >>= k) s) := h

theorem Ends.modify_bind {g : S → S} {k : Unit → Comp S ε α}
    (h : Ends Q E (k () (g s))) : Ends Q E ((Comp.modify g >>= k) s) := h

theorem Ends.ite {c : Prop} [Decidable c] {m' : Comp S ε α}
    (hm : c → Ends Q E (m s)) (hm' : ¬ c → Ends Q E (m' s)) :
    Ends Q E ((if c then m else m') s) := by
  by_cases h : c
  · rw [if_pos h]
    exact hm h
  · rw [if_neg h]
    exact hm' h

/-- A loop over the numbers from `a` on, with an invariant for each of them. -/
theorem Ends.forM_range' {I : Nat → S → Prop} {body : Nat → Comp S ε PUnit} {a n : Nat} {s : S}
    (h0 : I a s)
    (hstep : ∀ i s, a ≤ i → i < a + n → I i s → Ends (fun _ => I (i + 1)) E (body i s)) :
    Ends (fun _ => I (a + n)) E (((List.range' a n).forM body : Comp S ε PUnit) s) := by
  induction n generalizing a s with
  | zero => exact h0
  | succ n ih =>
    show Ends _ _ ((body a >>= fun _ => (List.range' (a + 1) n).forM body) s)
    refine Ends.bind (hstep a s (Nat.le_refl a) (by omega) h0) ?_
    intro _ s' hs'
    have hrest := @ih (a + 1) s' hs' (fun i t hlow hhigh => hstep i t (by omega) (by omega))
    rwa [Nat.add_assoc, Nat.add_comm 1 n] at hrest

theorem Ends.forM_range {I : Nat → S → Prop} {body : Nat → Comp S ε PUnit} {n : Nat} {s : S}
    (h0 : I 0 s) (hstep : ∀ i s, i < n → I i s → Ends (fun _ => I (i + 1)) E (body i s)) :
    Ends (fun _ => I n) E (((List.range n).forM body : Comp S ε PUnit) s) := by
  have h := @Ends.forM_range' S ε E I body 0 n s h0
    (fun i t _ hhigh => hstep i t (by omega))
  rwa [Nat.zero_add, ← List.range_eq_range'] at h

variable {body : α → Comp S ε PUnit}

theorem forM_append {l l' : List α} :
    (l ++ l').forM body = (l.forM body >>= fun _ => l'.forM body) := by
  induction l with
  | nil => rfl
  | cons a l ih =>
    show (body a >>= fun _ => (l ++ l').forM body) =
      ((body a >>= fun _ => l.forM body) >>= fun _ => l'.forM body)
    rw [ih, bind_assoc]

theorem forM_map {g : β → α} {l : List β} :
    (l.map g).forM body = l.forM fun b => body (g b) := by
  induction l with
  | nil => rfl
  | cons b l ih =>
    show (body (g b) >>= fun _ => (l.map g).forM body) = _
    rw [ih]
    rfl

theorem forM_congr {l : List α} {body' : α → Comp S ε PUnit}
    (h : ∀ a ∈ l, body a = body' a) : l.forM body = l.forM body' := by
  induction l with
  | nil => rfl
  | cons a l ih =>
    show (body a >>= fun _ => l.forM body) = (body' a >>= fun _ => l.forM body')
    rw [h a List.mem_cons_self, ih fun b hb => h b (List.mem_cons_of_mem a hb)]

theorem forM_singleton {a : α} : [a].forM body = body a := by
  funext s
  show ((body a >>= fun _ => Pure.pure PUnit.unit : Comp S ε PUnit) s) = body a s
  rw [bind_run]
  rcases body a s with _ | ⟨_ | _, _⟩ <;> rfl

/-- Two nested loops over the rows and the columns are one loop over the places. -/
theorem forM_range_mul {rows columns : Nat} {body : Nat → Comp S ε PUnit} :
    (List.range rows).forM (fun row => (List.range columns).forM fun column =>
      body (row * columns + column)) = (List.range (rows * columns)).forM body := by
  induction rows with
  | zero => rw [Nat.zero_mul]; rfl
  | succ rows ih =>
    rw [List.range_succ, forM_append, ih, Nat.succ_mul, List.range_add, forM_append, forM_map]
    congr 1
    funext _
    rw [forM_singleton]

/-- A loop whose step is done where it is safe, and is stuck elsewhere: the whole loop is done just
as long as each of its steps is safe. -/
theorem forM_range_cases {I : Nat → S → Prop} {safe : Nat → Prop} {body : Nat → Comp S ε PUnit}
    (h0 : I 0 s) {n : Nat}
    (hstep : ∀ i s, i < n → I i s → safe i → ∃ s', body i s = some (.ok (), s') ∧ I (i + 1) s')
    (hstuck : ∀ i s, i < n → I i s → ¬ safe i → body i s = none) :
    ((∀ i < n, safe i) ∧ ∃ s', (List.range n).forM body s = some (.ok (), s') ∧ I n s') ∨
      ((∃ i < n, ¬ safe i) ∧ (List.range n).forM body s = none) := by
  induction n with
  | zero => exact Or.inl ⟨fun i hi => absurd hi (Nat.not_lt_zero i), s, rfl, h0⟩
  | succ n ih =>
    rw [List.range_succ, forM_append]
    rcases ih (fun i t hi => hstep i t (by omega)) (fun i t hi => hstuck i t (by omega)) with
      hdone | hnot
    · obtain ⟨hsafe, s', hrun, hs'⟩ := hdone
      rw [bind_run_ok hrun, forM_singleton]
      by_cases hlast : safe n
      · obtain ⟨s'', hrun', hs''⟩ := hstep n s' (Nat.lt_succ_self n) hs' hlast
        refine Or.inl ⟨fun i hi => ?_, s'', hrun', hs''⟩
        by_cases hsame : i = n
        · rw [hsame]
          exact hlast
        · exact hsafe i (by omega)
      · exact Or.inr ⟨⟨n, Nat.lt_succ_self n, hlast⟩, hstuck n s' (Nat.lt_succ_self n) hs' hlast⟩
    · obtain ⟨hnotSafe, hrun⟩ := hnot
      obtain ⟨i, hi, hnot⟩ := hnotSafe
      exact Or.inr ⟨⟨i, by omega, hnot⟩, bind_run_none hrun⟩

/-! ### Returning a value -/

/-- Where `m` returns a value, the state after is related to the state before by `R`. Nothing is
said of the states that `m` leaves with an error. -/
def Returns (R : S → S → Prop) (m : Comp S ε α) : Prop :=
  ∀ s a s', m s = some (.ok a, s') → R s s'

section
variable {R : S → S → Prop}

theorem Returns.throw (e : ε) : Returns R (Comp.throw e : Comp S ε α) := by
  intro s a s' h
  cases h

theorem Returns.ite {c : Prop} [Decidable c] {m m' : Comp S ε α} (hm : c → Returns R m)
    (hm' : ¬ c → Returns R m') : Returns R (if c then m else m') := by
  by_cases h : c
  · rw [if_pos h]
    exact hm h
  · rw [if_neg h]
    exact hm' h

/-- What `m` does in any case, it does where it returns a value. -/
theorem Returns.of_keeps {m : Comp S ε α} (h : Keeps (fun _ => True) R m) : Returns R m :=
  fun s _ s' hrun => (h s _ s' trivial hrun).2

variable [IsPreorder S R]

theorem Returns.pure (a : α) : Returns R (Pure.pure a : Comp S ε α) := by
  intro s b s' h
  cases h
  exact Std.Refl.refl s

theorem Returns.ofExcept (r : Except ε α) : Returns R (Comp.ofExcept r : Comp S ε α) := by
  intro s b s' h
  cases h
  exact Std.Refl.refl s

theorem Returns.bind {m : Comp S ε α} {k : α → Comp S ε β} (hm : Returns R m)
    (hk : ∀ a, Returns R (k a)) : Returns R (m >>= k) := by
  intro s b s'' h
  obtain ⟨a, s', hm', hk'⟩ := bind_eq_ok.mp h
  exact IsTrans.trans _ _ _ (hm s a s' hm') (hk a s' b s'' hk')

/-- A failure that is looked at and passed on is not a value. -/
theorem Returns.attempt_bind {m : Comp S ε α} {k : Except ε α → Comp S ε β} (hm : Returns R m)
    (hok : ∀ a, Returns R (k (.ok a))) (herror : ∀ e s b s', k (.error e) s ≠ some (.ok b, s')) :
    Returns R (Comp.attempt m >>= k) := by
  intro s b s'' h
  obtain ⟨r, s', hm', hk'⟩ := bind_eq_ok.mp h
  obtain ⟨r', hrun, hr⟩ := attempt_eq_some.mp hm'
  cases hr
  cases r with
  | error e => exact absurd hk' (herror e s' b s'')
  | ok a => exact IsTrans.trans _ _ _ (hm s a s' hrun) (hok a s' b s'' hk')

end

/-! ### Counts -/

/-- Where `m` comes to an end, `m'` comes to the same end. A recursion that is cut off by a count
is below the one with a larger count. -/
def Below (m m' : Comp S ε α) : Prop := ∀ s x, m s = some x → m' s = some x

theorem Below.refl (m : Comp S ε α) : Below m m := fun _ _ h => h

theorem Below.stuck (m : Comp S ε α) : Below Comp.stuck m := fun _ _ h => by cases h

theorem Below.bind {m m' : Comp S ε α} {k k' : α → Comp S ε β} (hm : Below m m')
    (hk : ∀ a, Below (k a) (k' a)) : Below (m >>= k) (m' >>= k') := by
  intro s x h
  obtain ⟨r, s'⟩ := x
  rcases bind_eq_some.mp h with ⟨e, he, rfl⟩ | ⟨a, s₁, ha, h⟩
  · exact bind_run_error (hm _ _ he)
  · rw [bind_run_ok (hm _ _ ha)]
    exact hk a _ _ h

theorem Below.ite {c : Prop} [Decidable c] {m' n n' : Comp S ε α} (hm : Below m m')
    (hn : Below n n') : Below (if c then m else n) (if c then m' else n') := by
  by_cases hc : c
  · rw [if_pos hc, if_pos hc]
    exact hm
  · rw [if_neg hc, if_neg hc]
    exact hn

theorem Below.forM {l : List α} {body' : α → Comp S ε PUnit}
    (h : ∀ a, Below (body a) (body' a)) : Below (l.forM body) (l.forM body') := by
  induction l with
  | nil => exact .refl _
  | cons a l ih => exact Below.bind (h a) fun _ => ih

/-- A larger count makes no difference to a run that has come to its end. -/
theorem Below.of_le {m : Nat → Comp S ε α} (h : ∀ n, Below (m n) (m (n + 1))) {n k : Nat}
    (hk : n ≤ k) : Below (m n) (m k) := by
  induction hk with
  | refl => exact .refl _
  | step _ ih => exact fun s x hx => h _ s x (ih s x hx)

end Comp

/-- What holds at first and is kept by every step holds all along a run. -/
theorem invariant_of_steps {S : Type} {step : S → S → Prop} {I : S → Prop}
    (hstep : ∀ s s', I s → step s s' → I s') {s s' : S}
    (hrun : Relation.ReflTransGen step s s') (h : I s) : I s' := by
  induction hrun with
  | refl => exact h
  | tail _ hlast ih => exact hstep _ _ ih hlast

end GPhoto2.Lib
