import Mathlib.Data.List.Basic

/-!
# `GPhoto2.Lib.Scan`: passes over a buffer that is read and written in place

A pass takes one step for each of some positions, in their order, on one buffer. `scan_ends` is
the rule for a pass whose steps read only what no step writes, and write no element twice: each
element that is written has the value its step gives on the buffer before the pass, and all
others stay.
-/

set_option autoImplicit false

namespace GPhoto2.Lib

open List (mem_cons_of_mem mem_cons_self mem_map mem_range)

variable {ι α : Type}

/-- One step for each position. -/
def scan (step : ι → List α → Option (List α)) : List ι → List α → Option (List α)
  | [], buffer => some buffer
  | p :: ps, buffer => (step p buffer).bind (scan step ps)

/-- The buffers agree where the first is kept. -/
def AgreeOn (kept : Nat → Prop) (buffer buffer' : List α) : Prop :=
  buffer.length = buffer'.length ∧ ∀ i, kept i → buffer[i]? = buffer'[i]?

theorem AgreeOn.refl (kept : Nat → Prop) (buffer : List α) : AgreeOn kept buffer buffer :=
  ⟨rfl, fun _ _ => rfl⟩

/-- From `buffer` to `buffer'` some elements were written, with their values, and all others
stayed. -/
structure Wrote (writes : Nat → Prop) (value : Nat → α) (buffer buffer' : List α) : Prop where
  length_eq : buffer'.length = buffer.length
  written : ∀ i, writes i → buffer'[i]? = some (value i)
  stayed : ∀ i, ¬writes i → buffer'[i]? = buffer[i]?

/-- What is not written still agrees. -/
theorem Wrote.agreeOn {writes kept : Nat → Prop} {value : Nat → α} {before buffer buffer' : List α}
    (h : Wrote writes value buffer buffer') (hkept : ∀ i, writes i → ¬kept i)
    (hagree : AgreeOn kept buffer before) : AgreeOn kept buffer' before := by
  refine ⟨h.length_eq.trans hagree.1, ?_⟩
  intro i hi
  rw [h.stayed i fun hwrites => hkept i hwrites hi]
  exact hagree.2 i hi

/-- A pass whose steps read only what is kept, and write each their own elements. -/
theorem scan_ends {step : ι → List α → Option (List α)} {writes : ι → Nat → Prop}
    {kept : Nat → Prop} {value : ι → Nat → α} {before : List α} {ps : List ι}
    (hstep : ∀ p ∈ ps, ∀ buffer, AgreeOn kept buffer before →
      ∃ buffer', step p buffer = some buffer' ∧ Wrote (writes p) (value p) buffer buffer')
    (hown : ps.Pairwise fun p q => ∀ i, writes p i → ¬writes q i)
    (hkept : ∀ p ∈ ps, ∀ i, writes p i → ¬kept i) {buffer : List α}
    (hagree : AgreeOn kept buffer before) :
    ∃ buffer', scan step ps buffer = some buffer' ∧ buffer'.length = buffer.length ∧
      (∀ p ∈ ps, ∀ i, writes p i → buffer'[i]? = some (value p i)) ∧
      ∀ i, (∀ p ∈ ps, ¬writes p i) → buffer'[i]? = buffer[i]? := by
  induction ps generalizing buffer with
  | nil => exact ⟨buffer, rfl, rfl, fun p hp => absurd hp List.not_mem_nil, fun _ _ => rfl⟩
  | cons p ps ih =>
    obtain ⟨hfirst, hrest⟩ := List.pairwise_cons.mp hown
    obtain ⟨middle, hrun, hwrote⟩ := hstep p mem_cons_self buffer hagree
    have hmiddle := hwrote.agreeOn (hkept p mem_cons_self) hagree
    obtain ⟨last, hscan, hlength, hwritten, hstayed⟩ :=
      ih (fun q hq => hstep q (mem_cons_of_mem p hq)) hrest
        (fun q hq => hkept q (mem_cons_of_mem p hq)) hmiddle
    refine ⟨last, ?_, hlength.trans hwrote.length_eq, ?_, ?_⟩
    · show (step p buffer).bind (scan step ps) = some last
      rw [hrun, Option.bind_some, hscan]
    · intro q hq i hi
      rcases List.mem_cons.mp hq with rfl | hq
      · -- No later step writes it again.
        rw [hstayed i fun r hr => hfirst r hr i hi]
        exact hwrote.written i hi
      · exact hwritten q hq i hi
    · intro i hi
      rw [hstayed i fun q hq => hi q (mem_cons_of_mem p hq)]
      exact hwrote.stayed i (hi p mem_cons_self)

/-- Several reads that all succeed. -/
theorem mapM_of_forall {β γ : Type} {f : β → Option γ} {g : β → γ} {bs : List β}
    (h : ∀ b ∈ bs, f b = some (g b)) : bs.mapM f = some (bs.map g) := by
  induction bs with
  | nil => rfl
  | cons b bs ih =>
    rw [List.mapM_cons, h b mem_cons_self, ih fun c hc => h c (mem_cons_of_mem b hc)]
    rfl

theorem mapM_ends {β γ : Type} {f : β → Option γ} {bs : List β}
    (h : ∀ b ∈ bs, ∃ c, f b = some c) : ∃ cs, bs.mapM f = some cs ∧ cs.length = bs.length := by
  induction bs with
  | nil => exact ⟨[], rfl, rfl⟩
  | cons b bs ih =>
    obtain ⟨c, hc⟩ := h b mem_cons_self
    obtain ⟨cs, hcs, hlength⟩ := ih fun d hd => h d (mem_cons_of_mem b hd)
    refine ⟨c :: cs, ?_, by rw [List.length_cons, List.length_cons, hlength]⟩
    rw [List.mapM_cons, hc, hcs]
    rfl

/-- A pass in which each step succeeds and keeps an invariant. -/
theorem foldlM_ends {β γ : Type} {P : β → Prop} {step : β → γ → Option β} {cs : List γ}
    (hstep : ∀ b, P b → ∀ c ∈ cs, ∃ b', step b c = some b' ∧ P b') {b : β} (hb : P b) :
    ∃ b', cs.foldlM step b = some b' ∧ P b' := by
  induction cs generalizing b with
  | nil => exact ⟨b, rfl, hb⟩
  | cons c cs ih =>
    obtain ⟨b₁, hrun, hb₁⟩ := hstep b hb c mem_cons_self
    obtain ⟨b₂, hrest, hb₂⟩ := ih (fun b hb d hd => hstep b hb d (mem_cons_of_mem c hd)) hb₁
    refine ⟨b₂, ?_, hb₂⟩
    rw [List.foldlM_cons, hrun]
    exact hrest

/-- A pass in which each step that succeeds keeps an invariant. -/
theorem foldlM_keeps {β γ : Type} {P : β → Prop} {step : β → γ → Option β} {cs : List γ}
    (hstep : ∀ b c b', P b → step b c = some b' → P b') {b b' : β} (hb : P b)
    (h : cs.foldlM step b = some b') : P b' := by
  induction cs generalizing b with
  | nil =>
    cases h
    exact hb
  | cons c cs ih =>
    rw [List.foldlM_cons] at h
    obtain ⟨middle, hmiddle, h⟩ := Option.bind_eq_some_iff.mp h
    exact ih (hstep b c middle hb hmiddle) h

/-! ### Rows and columns -/

/-- The positions of a raster, row by row. -/
def raster (w h : Nat) : List (Nat × Nat) :=
  (List.range h).flatMap fun y => (List.range w).map fun x => (x, y)

theorem mem_raster {w h : Nat} {p : Nat × Nat} : p ∈ raster w h ↔ p.1 < w ∧ p.2 < h := by
  unfold raster
  rw [List.mem_flatMap]
  constructor
  · intro hp
    obtain ⟨y, hy, hp⟩ := hp
    obtain ⟨x, hx, rfl⟩ := mem_map.mp hp
    exact ⟨mem_range.mp hx, mem_range.mp hy⟩
  · intro hp
    exact ⟨p.2, mem_range.mpr hp.2, mem_map.mpr ⟨p.1, mem_range.mpr hp.1, rfl⟩⟩

/-- No position comes twice. -/
theorem raster_nodup (w h : Nat) : (raster w h).Pairwise (· ≠ ·) := by
  unfold raster
  refine List.pairwise_flatMap.mpr ⟨?_, ?_⟩
  · intro y _
    refine List.pairwise_map.mpr (List.nodup_range.imp ?_)
    intro x x' hne heq
    exact hne (congrArg Prod.fst heq)
  · refine List.nodup_range.imp ?_
    intro y y' hne p hp q hq heq
    obtain ⟨x, -, rfl⟩ := mem_map.mp hp
    obtain ⟨x', -, rfl⟩ := mem_map.mp hq
    exact hne (congrArg Prod.snd heq)

end GPhoto2.Lib
