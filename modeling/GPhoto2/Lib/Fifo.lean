import Mathlib.Data.List.Induction

/-!
# `GPhoto2.Lib.Fifo`: queues that lose nothing

A queue takes batches at one end and hands out single elements at the other. Whatever the
order of the steps, what was handed out followed by what is pending is what went in
(`runFifo_conserves`).
-/

set_option autoImplicit false

namespace GPhoto2.Lib

variable {α : Type}

/-- A queue, and what it has handed out. -/
structure Fifo (α : Type) where
  delivered : List α
  pending : List α

/-- A batch goes in, or the first element comes out. -/
inductive FifoStep (α : Type)
  | push (batch : List α)
  | pop

/-- What goes in with a step. -/
def FifoStep.pushed : FifoStep α → List α
  | .push batch => batch
  | .pop => []

/-- A step. Nothing comes out of an empty queue. -/
def FifoStep.exec (q : Fifo α) : FifoStep α → Fifo α
  | .push batch => ⟨q.delivered, q.pending ++ batch⟩
  | .pop =>
    match q.pending with
    | [] => q
    | a :: rest => ⟨q.delivered ++ [a], rest⟩

/-- A run from the empty queue. -/
def runFifo (steps : List (FifoStep α)) : Fifo α := steps.foldl FifoStep.exec ⟨[], []⟩

theorem runFifo_concat (steps : List (FifoStep α)) (step : FifoStep α) :
    runFifo (steps ++ [step]) = step.exec (runFifo steps) := List.foldl_append ..

theorem FifoStep.exec_conserves (q : Fifo α) (step : FifoStep α) :
    (step.exec q).delivered ++ (step.exec q).pending =
      q.delivered ++ q.pending ++ step.pushed := by
  cases step with
  | push batch => exact (List.append_assoc ..).symm
  | pop =>
    unfold FifoStep.exec FifoStep.pushed
    cases h : q.pending with
    | nil => simp [h]
    | cons a rest => simp

/-- What was handed out, followed by what is pending, is what went in. -/
theorem runFifo_conserves (steps : List (FifoStep α)) :
    (runFifo steps).delivered ++ (runFifo steps).pending =
      steps.flatMap FifoStep.pushed := by
  induction steps using List.reverseRecOn with
  | nil => rfl
  | append_singleton steps step ih =>
    rw [runFifo_concat, step.exec_conserves, ih]
    simp

end GPhoto2.Lib
