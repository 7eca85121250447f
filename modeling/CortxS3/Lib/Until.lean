/-
A step that is taken again and again until it comes to an end.

A callback that starts the next operation, whose callback starts the next one, is a loop without
a loop statement.  Here it is one step function that says how to go on, or what the result is.
`Ends` is that the steps come to an end with a result; the number of steps is not bounded
beforehand.  A state comes to the same end as what its step leaves (`ends_iff`), so a run is put
together from stretches, and what every step keeps is true at the end (`Ends.of_invariant`) and of
every state on the way (`Reaches.invariant`).
-/
import Mathlib

namespace Until

universe u v

variable {σ : Type u} {ω : Type v}

/-- How a step goes on. -/
inductive Outcome (σ : Type u) (ω : Type v) where
  | next (s : σ)
  | done (w : ω)

/-- At most `fuel` steps. -/
def run (step : σ → Outcome σ ω) : Nat → σ → Option ω
  | 0, _ => none
  | fuel + 1, s =>
    match step s with
    | .next s' => run step fuel s'
    | .done w => some w

/-- The steps come to an end with `w`. -/
def Ends (step : σ → Outcome σ ω) (s : σ) (w : ω) : Prop := ∃ fuel, run step fuel s = some w

theorem ends_iff_of_next {step : σ → Outcome σ ω} {s s' : σ} (h : step s = .next s') (w : ω) :
    Ends step s w ↔ Ends step s' w := by
  constructor
  · intro hends
    obtain ⟨fuel, hrun⟩ := hends
    cases fuel with
    | zero => cases hrun
    | succ fuel =>
      refine ⟨fuel, ?_⟩
      rw [run, h] at hrun
      exact hrun
  · intro hends
    obtain ⟨fuel, hrun⟩ := hends
    refine ⟨fuel + 1, ?_⟩
    rw [run, h]
    exact hrun

theorem ends_iff_of_done {step : σ → Outcome σ ω} {s : σ} {w : ω} (h : step s = .done w) (w' : ω) :
    Ends step s w' ↔ w = w' := by
  constructor
  · intro hends
    obtain ⟨fuel, hrun⟩ := hends
    cases fuel with
    | zero => cases hrun
    | succ fuel =>
      rw [run, h] at hrun
      exact Option.some.inj hrun
  · intro heq
    refine ⟨1, ?_⟩
    rw [run, h, heq]

/-- What a step leaves comes to an end with `w`. -/
def Outcome.Ends (step : σ → Outcome σ ω) : Outcome σ ω → ω → Prop
  | .next s, w => Until.Ends step s w
  | .done w', w => w' = w

theorem ends_iff (step : σ → Outcome σ ω) (s : σ) (w : ω) :
    Ends step s w ↔ (step s).Ends step w := by
  cases h : step s with
  | next s' => exact ends_iff_of_next h w
  | done w' => exact ends_iff_of_done h w

/-- **What every step keeps is true at the end.** -/
theorem Ends.of_invariant {step : σ → Outcome σ ω} {I : σ → Prop} {Q : ω → Prop}
    (hnext : ∀ s s', I s → step s = .next s' → I s')
    (hdone : ∀ s w, I s → step s = .done w → Q w) {s : σ} {w : ω} (hs : I s)
    (hends : Ends step s w) : Q w := by
  obtain ⟨fuel, hrun⟩ := hends
  induction fuel generalizing s with
  | zero => cases hrun
  | succ fuel ih =>
    rw [run] at hrun
    cases hstep : step s with
    | next s' =>
      rw [hstep] at hrun
      exact ih (hnext s s' hs hstep) hrun
    | done w' =>
      rw [hstep] at hrun
      obtain rfl := Option.some.inj hrun
      exact hdone s w' hs hstep

/-- A step that leaves everything as it is comes to no end. -/
theorem not_ends_of_stuck {step : σ → Outcome σ ω} {s : σ} (h : step s = .next s) (w : ω) :
    ¬ Ends step s w := by
  refine Ends.of_invariant (I := fun s' => s' = s) (Q := fun _ => False) ?_ ?_ rfl
  · intro s₁ s₂ hs₁ hstep
    rw [hs₁, h] at hstep
    exact (Outcome.next.inj hstep).symm
  · intro s₁ w hs₁ hstep
    rw [hs₁, h] at hstep
    cases hstep

/-- The states on the way: what some steps that do not come to the end lead to. -/
inductive Reaches (step : σ → Outcome σ ω) (s : σ) : σ → Prop where
  | start : Reaches step s s
  | step {t u : σ} (h : Reaches step s t) (hstep : step t = .next u) : Reaches step s u

/-- **What every step keeps is true on the way.** -/
theorem Reaches.invariant {step : σ → Outcome σ ω} {I : σ → Prop}
    (hnext : ∀ s s', I s → step s = .next s' → I s') {s t : σ} (hs : I s)
    (h : Reaches step s t) : I t := by
  induction h with
  | start => exact hs
  | step _ hstep ih => exact hnext _ _ ih hstep

/-- There is at most one end. -/
theorem Ends.unique {step : σ → Outcome σ ω} {s : σ} {w w' : ω} (h : Ends step s w)
    (h' : Ends step s w') : w' = w := by
  refine Ends.of_invariant (I := fun t => Ends step t w) (Q := fun v => v = w) ?_ ?_ h h'
  · intro t t' ht hstep
    exact (ends_iff_of_next hstep w).mp ht
  · intro t v ht hstep
    exact (ends_iff_of_done hstep w).mp ht

theorem Outcome.Ends.unique {step : σ → Outcome σ ω} {o : Outcome σ ω} {w w' : ω}
    (h : o.Ends step w) (h' : o.Ends step w') : w' = w := by
  cases o with
  | next s => exact Until.Ends.unique h h'
  | done v =>
    have hw : v = w := h
    have hw' : v = w' := h'
    exact hw'.symm.trans hw

end Until
