import Mathlib.Data.List.Basic
import Mathlib.Order.Defs.Unbundled

/-!
# `GPhoto2.Lib.Comp`: computations that change a state, fail, or get stuck

`Comp S ε α` is the shape of a C function over a heap: it reads and writes a state `S`,
and either returns a value, or returns an error code `ε` with the writes made so far, or
has no defined outcome at all (`none`). The last case is kept for what the language leaves
undefined, such as the use of a freed object, and for a loop that does not end.

An error keeps the state, so `throw` is not a rollback. `attempt` turns an error into a
value, for callers that test a return code themselves.

`Comp.Keeps Q R m` says that `m` keeps the invariant `Q` and relates the state before to the
state after by the preorder `R`, whatever it returns. It is closed under the control
structures (`Keeps.bind`, `Keeps.attempt`, `Keeps.forM`, …), so a property of a large function
comes from the same property of the primitive writes in it.

`Comp.Respects erase m` says that `m` has no use for what `erase` takes out of the state.
-/

set_option autoImplicit false

namespace GPhoto2.Lib

/-- A computation over the state `S` with errors `ε`: a result and a state, or no defined
outcome. -/
def Comp (S ε α : Type) : Type := S → Option (Except ε α × S)

namespace Comp

variable {S ε α β : Type}

/-- Sequencing. An error ends the computation and keeps the state reached. -/
protected def bind (m : Comp S ε α) (k : α → Comp S ε β) : Comp S ε β := fun s =>
  match m s with
  | none => none
  | some (.error e, s') => some (.error e, s')
  | some (.ok a, s') => k a s'

instance : Monad (Comp S ε) where
  pure a := fun s => some (.ok a, s)
  bind := Comp.bind

/-- Fail with `e` in the current state. -/
def throw (e : ε) : Comp S ε α := fun s => some (.error e, s)

/-- No defined outcome. -/
def stuck : Comp S ε α := fun _ => none

/-- Run `m` and hand its result, error or value, to the caller. -/
def attempt (m : Comp S ε α) : Comp S ε (Except ε α) := fun s =>
  match m s with
  | none => none
  | some (r, s') => some (.ok r, s')

/-- Run `m` on a part of the state. -/
def onPart {T : Type} (part : T → S) (put : S → T → T) (m : Comp S ε α) : Comp T ε α := fun t =>
  (m (part t)).map fun p => (p.1, put p.2 t)

/-- The current state. -/
def get : Comp S ε S := fun s => some (.ok s, s)

/-- Change the state by `g`. -/
def modify (g : S → S) : Comp S ε Unit := fun s => some (.ok (), g s)

/-- A pure result that may be an error. -/
def ofExcept (r : Except ε α) : Comp S ε α := fun s => some (r, s)

/-! ### Running each construct -/

variable (e : ε) (r : Except ε α) (a : α) (g : S → S)

@[simp] theorem pure_run (s : S) :
    (pure a : Comp S ε α) s = some (.ok a, s) := rfl

theorem bind_run (m : Comp S ε α) (k : α → Comp S ε β) (s : S) :
    (m >>= k) s = match m s with
      | none => none
      | some (.error e, s') => some (.error e, s')
      | some (.ok a, s') => k a s' := rfl

@[simp] theorem throw_run (s : S) :
    (throw e : Comp S ε α) s = some (.error e, s) := rfl

@[simp] theorem stuck_run (s : S) : (stuck : Comp S ε α) s = none := rfl

@[simp] theorem get_run (s : S) : (get : Comp S ε S) s = some (.ok s, s) := rfl

@[simp] theorem modify_run (s : S) :
    (modify g : Comp S ε Unit) s = some (.ok (), g s) := rfl

@[simp] theorem ofExcept_run (s : S) :
    (ofExcept r : Comp S ε α) s = some (r, s) := rfl

@[simp] theorem pure_bind_run (k : α → Comp S ε β) (s : S) :
    (pure a >>= k) s = k a s := rfl

@[simp] theorem get_bind_run (k : S → Comp S ε β) (s : S) : (get >>= k) s = k s s := rfl

@[simp] theorem modify_bind_run (k : Unit → Comp S ε β) (s : S) :
    (modify g >>= k) s = k () (g s) := rfl

theorem bind_assoc {γ : Type} (m : Comp S ε α) (k : α → Comp S ε β) (l : β → Comp S ε γ) :
    (m >>= k) >>= l = m >>= fun a => k a >>= l := by
  funext s
  simp only [bind_run]
  rcases m s with _ | ⟨_ | a, s'⟩ <;> rfl

variable {m : Comp S ε α} {k : α → Comp S ε β} {s : S}

/-- A bind whose first part is known to return a value. -/
theorem bind_run_ok {s' : S} {a : α}
    (h : m s = some (.ok a, s')) : (m >>= k) s = k a s' := by
  rw [bind_run, h]

/-- A bind whose first part is known to fail. -/
theorem bind_run_error {s' : S} {e : ε}
    (h : m s = some (.error e, s')) : (m >>= k) s = some (.error e, s') := by
  rw [bind_run, h]

/-- A bind whose first part is undefined. -/
theorem bind_run_none (h : m s = none) :
    (m >>= k) s = none := by
  rw [bind_run, h]

/-- Taking a bind apart: the first part failed, or it returned a value and the second part
ran from there. -/
theorem bind_eq_some {s'' : S} {r : Except ε β} :
    (m >>= k) s = some (r, s'') ↔
      (∃ e, m s = some (.error e, s'') ∧ r = .error e) ∨
      (∃ a s', m s = some (.ok a, s') ∧ k a s' = some (r, s'')) := by
  rw [bind_run]
  constructor
  · intro h
    split at h
    · cases h
    · rename_i e s' hm
      simp only [Option.some.injEq, Prod.mk.injEq] at h
      exact Or.inl ⟨e, by rw [hm, h.2], h.1.symm⟩
    · rename_i a s' hm
      exact Or.inr ⟨a, s', hm, h⟩
  · rintro (⟨e, hm, rfl⟩ | ⟨a, s', hm, hk⟩)
    · simp [hm]
    · simpa [hm] using hk

/-- A bind that returns a value: both parts returned one. -/
theorem bind_eq_ok {s'' : S} {b : β} :
    (m >>= k) s = some (.ok b, s'') ↔
      ∃ a s', m s = some (.ok a, s') ∧ k a s' = some (.ok b, s'') := by
  rw [bind_eq_some]
  simp

theorem forM_append_eq_ok {l l' : List α} {body : α → Comp S ε PUnit} {s'' : S} :
    (l ++ l').forM body s = some (.ok (), s'') ↔
      ∃ s', l.forM body s = some (.ok (), s') ∧ l'.forM body s' = some (.ok (), s'') := by
  induction l generalizing s with
  | nil =>
    refine ⟨fun h => ⟨s, rfl, h⟩, fun h => ?_⟩
    obtain ⟨s', hs, h⟩ := h
    cases hs
    exact h
  | cons a l ih =>
    show (body a >>= fun _ => (l ++ l').forM body) s = _ ↔
      ∃ s', (body a >>= fun _ => l.forM body) s = _ ∧ _
    simp only [bind_eq_ok, ih]
    constructor
    · intro h
      obtain ⟨u, s₁, ha, s', hl, hl'⟩ := h
      exact ⟨s', ⟨u, s₁, ha, hl⟩, hl'⟩
    · intro h
      obtain ⟨s', ⟨u, s₁, ha, hl⟩, hl'⟩ := h
      exact ⟨u, s₁, ha, s', hl, hl'⟩

theorem attempt_eq_some {s' : S} {r : Except ε (Except ε α)} :
    attempt m s = some (r, s') ↔ ∃ r', m s = some (r', s') ∧ r = .ok r' := by
  unfold attempt
  cases h : m s with
  | none => simp
  | some p =>
    obtain ⟨r', s₁⟩ := p
    simp only [Option.some.injEq, Prod.mk.injEq]
    constructor
    · rintro ⟨rfl, rfl⟩
      exact ⟨r', ⟨rfl, rfl⟩, rfl⟩
    · rintro ⟨r'', ⟨rfl, rfl⟩, rfl⟩
      exact ⟨rfl, rfl⟩

/-! ### Invariants and preorders -/

/-- `m` keeps `Q` and moves along `R`, whatever its result. -/
def Keeps (Q : S → Prop) (R : S → S → Prop) (m : Comp S ε α) : Prop :=
  ∀ s r s', Q s → m s = some (r, s') → Q s' ∧ R s s'

variable {Q : S → Prop} {R : S → S → Prop}

theorem Keeps.stuck : Keeps Q R (stuck : Comp S ε α) := by
  intro s r s' _ h
  cases h

/-- The rule for a computation that first reads the state: the rest runs from the very
state that was read. -/
theorem Keeps.get_bind {k : S → Comp S ε β}
    (hk : ∀ s r s', Q s → k s s = some (r, s') → Q s' ∧ R s s') : Keeps Q R (get >>= k) :=
  fun s r s' hq h => hk s r s' hq h

theorem Keeps.attempt (hm : Keeps Q R m) : Keeps Q R (attempt m) := by
  intro s r s' hq h
  obtain ⟨r', hr', -⟩ := attempt_eq_some.mp h
  exact hm s r' s' hq hr'

theorem Keeps.modify {g : S → S} (hg : ∀ s, Q s → Q (g s) ∧ R s (g s)) :
    Keeps Q R (modify g : Comp S ε Unit) := by
  intro s r s' hq h
  cases h
  exact hg s hq

theorem Keeps.ite {c : Prop} [Decidable c] {m' : Comp S ε α}
    (hm : c → Keeps Q R m) (hm' : ¬ c → Keeps Q R m') : Keeps Q R (if c then m else m') := by
  by_cases h : c
  · rw [if_pos h]; exact hm h
  · rw [if_neg h]; exact hm' h

/-- Keeping the invariant, with nothing asked of the states before and after. -/
instance : IsPreorder S (fun _ _ => True) where
  refl _ := trivial
  trans _ _ _ _ _ := trivial

section
variable [IsPreorder S R]

theorem Keeps.ofExcept (r : Except ε α) : Keeps Q R (ofExcept r : Comp S ε α) := by
  intro s r s' hq h
  cases h
  exact ⟨hq, Std.Refl.refl s⟩

theorem Keeps.get : Keeps Q R (get : Comp S ε S) := by
  intro s r s' hq h
  cases h
  exact ⟨hq, Std.Refl.refl s⟩

theorem Keeps.pure (a : α) : Keeps Q R (Pure.pure a : Comp S ε α) := Keeps.ofExcept (.ok a)

theorem Keeps.throw (e : ε) : Keeps Q R (throw e : Comp S ε α) := Keeps.ofExcept (.error e)

theorem Keeps.bind {m : Comp S ε α} {k : α → Comp S ε β}
    (hm : Keeps Q R m) (hk : ∀ a, Keeps Q R (k a)) : Keeps Q R (m >>= k) := by
  intro s r s'' hq h
  rcases bind_eq_some.mp h with ⟨e, hm', -⟩ | ⟨a, s', hm', hk'⟩
  · exact hm s _ s'' hq hm'
  · obtain ⟨hq', h1⟩ := hm s _ s' hq hm'
    obtain ⟨hq'', h2⟩ := hk a s' r s'' hq' hk'
    exact ⟨hq'', IsTrans.trans _ _ _ h1 h2⟩

theorem Keeps.forM {l : List α} {body : α → Comp S ε PUnit}
    (h : ∀ a ∈ l, Keeps Q R (body a)) : Keeps Q R (l.forM body) := by
  induction l with
  | nil => exact Keeps.pure _
  | cons a as ih =>
    exact Keeps.bind (h a (by simp)) fun _ => ih fun b hb => h b (by simp [hb])

end

/-! ### Errors -/

/-- Every error of `m` is one of `E`. -/
def Throws (E : ε → Prop) (m : Comp S ε α) : Prop :=
  ∀ s e s', m s = some (.error e, s') → E e

variable {E : ε → Prop}

theorem Throws.mono {E' : ε → Prop} (hm : Throws E m)
    (h : ∀ e, E e → E' e) : Throws E' m := fun s e s' hrun => h e (hm s e s' hrun)

theorem Throws.stuck : Throws E (stuck : Comp S ε α) := by
  intro s e s' h
  cases h

theorem Throws.pure : Throws E (Pure.pure a : Comp S ε α) := by
  intro s e s' h
  cases h

theorem Throws.get : Throws E (get : Comp S ε S) := by
  intro s e s' h
  cases h

theorem Throws.modify : Throws E (modify g : Comp S ε Unit) := by
  intro s e s' h
  cases h

theorem Throws.throw {e : ε} (he : E e) : Throws E (throw e : Comp S ε α) := by
  intro s e' s' h
  cases h
  exact he

theorem Throws.bind {m : Comp S ε α} {k : α → Comp S ε β} (hm : Throws E m)
    (hk : ∀ a, Throws E (k a)) : Throws E (m >>= k) := by
  intro s e s'' h
  rcases bind_eq_some.mp h with ⟨e', hm', he⟩ | ⟨a, s', -, hk'⟩
  · cases he
    exact hm s _ s'' hm'
  · exact hk a s' e s'' hk'

theorem Throws.ite {c : Prop} [Decidable c] {m' : Comp S ε α} (hm : c → Throws E m)
    (hm' : ¬ c → Throws E m') : Throws E (if c then m else m') := by
  by_cases h : c
  · rw [if_pos h]; exact hm h
  · rw [if_neg h]; exact hm' h

/-! ### Erasing a part of the state -/

/-- `m` neither looks at nor hands on what `erase` takes out of the state: from states that
agree but for that it gives the same result, and states that agree again. -/
def Respects (erase : S → S) (m : Comp S ε α) : Prop :=
  ∀ s s', erase s = erase s' →
    (m s).map (Prod.map id erase) = (m s').map (Prod.map id erase)

variable {erase : S → S}

theorem Respects.stuck : Respects erase (stuck : Comp S ε α) := fun _ _ _ => rfl

theorem Respects.ofExcept : Respects erase (ofExcept r : Comp S ε α) := by
  intro s s' h
  simp [h]

theorem Respects.pure : Respects erase (Pure.pure a : Comp S ε α) :=
  Respects.ofExcept (.ok a)

theorem Respects.throw : Respects erase (throw e : Comp S ε α) :=
  Respects.ofExcept (.error e)

theorem Respects.modify {g : S → S} (hg : ∀ s, erase (g s) = erase (g (erase s))) :
    Respects erase (modify g : Comp S ε Unit) := by
  intro s s' h
  simp [hg s, hg s', h]

theorem Respects.bind {m : Comp S ε α} {k : α → Comp S ε β} (hm : Respects erase m)
    (hk : ∀ a, Respects erase (k a)) : Respects erase (m >>= k) := by
  intro s s' h
  have hms := hm s s' h
  rw [bind_run, bind_run]
  rcases hm₁ : m s with _ | ⟨_ | a, s₁⟩ <;> rcases hm₂ : m s' with _ | ⟨_ | a', s₁'⟩ <;>
    simp only [hm₁, hm₂, Option.map_some, Option.map_none, Prod.map, id, Option.some.injEq,
      Prod.mk.injEq, reduceCtorEq, false_and, Except.error.injEq, Except.ok.injEq] at hms
  · rfl
  · simp [hms.1, hms.2]
  · rw [hms.1]
    exact hk a' s₁ s₁' hms.2

theorem Respects.attempt (hm : Respects erase m) :
    Respects erase (attempt m) := by
  intro s s' h
  have hms := hm s s' h
  unfold Comp.attempt
  rcases hm₁ : m s with _ | ⟨r, s₁⟩ <;> rcases hm₂ : m s' with _ | ⟨r', s₁'⟩ <;>
    simp [hm₁, hm₂] at hms ⊢
  exact hms

/-- The rule for a computation that first reads the state, and uses nothing of what `erase`
takes out. -/
theorem Respects.get_bind {k : S → Comp S ε β} (hk : ∀ s, k s = k (erase s))
    (h : ∀ s, Respects erase (k s)) : Respects erase (get >>= k) := by
  intro s s' he
  have hsame : k s = k s' := by rw [hk s, hk s', he]
  rw [get_bind_run, get_bind_run, ← hsame]
  exact h s s s' he

theorem Respects.ite {c : Prop} [Decidable c] {m' : Comp S ε α} (hm : Respects erase m)
    (hm' : Respects erase m') : Respects erase (if c then m else m') := by
  split
  · exact hm
  · exact hm'

theorem Respects.forM {l : List α} {body : α → Comp S ε PUnit}
    (h : ∀ a, Respects erase (body a)) : Respects erase (l.forM body) := by
  induction l with
  | nil => exact Respects.pure _
  | cons a as ih => exact (h a).bind fun _ => ih

end Comp

end GPhoto2.Lib
