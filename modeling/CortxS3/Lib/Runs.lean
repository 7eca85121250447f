/-
Runs of a machine that is driven by events.

A machine takes an event and goes on, or refuses it.  `Reachable` is every state it comes to
when each event it takes meets a condition `ok` on the event and the state it arrives in; with
the condition `True` these are all the states of all its runs.

An invariant is a property of the first state that every permitted step keeps
(`Reachable.invariant`).  A concrete run is a list of events (`run`), and where it ends is
reachable (`reachable_of_run`).  What a condition has to know of the events before is noted beside the
machine (`observe`), which changes none of its runs (`reachable_observe`).
-/
import Mathlib

namespace Runs

universe u v w

variable {σ : Type u} {ε : Type v} {τ : Type w}

/-- The states a machine comes to by events that are all `ok` where they occur. -/
inductive Reachable (step : σ → ε → Option σ) (ok : σ → ε → Prop) (init : σ) : σ → Prop
  | start : Reachable step ok init init
  | step {s s' : σ} (h : Reachable step ok init s) (e : ε) (hok : ok s e)
      (hstep : step s e = some s') : Reachable step ok init s'

/-- **What holds at the start and survives every permitted step holds in every run.** -/
theorem Reachable.invariant {step : σ → ε → Option σ} {ok : σ → ε → Prop} {init : σ}
    {P : σ → Prop} (hinit : P init)
    (hkeep : ∀ s e s', P s → ok s e → step s e = some s' → P s') {s : σ}
    (h : Reachable step ok init s) : P s := by
  induction h with
  | start => exact hinit
  | step _ e hok hstep ih => exact hkeep _ e _ ih hok hstep

/-- A run that meets a condition meets every weaker one. -/
theorem Reachable.mono {step : σ → ε → Option σ} {ok ok' : σ → ε → Prop} {init : σ}
    (hle : ∀ s e, ok s e → ok' s e) {s : σ} (h : Reachable step ok init s) :
    Reachable step ok' init s := by
  induction h with
  | start => exact .start
  | step _ e hok hstep ih => exact .step ih e (hle _ e hok) hstep

/-- A machine, and what is noted of its events. -/
def observe (step : σ → ε → Option σ) (note : σ → ε → τ → τ) (p : σ × τ) (e : ε) : Option (σ × τ) :=
  (step p.1 e).map fun s => (s, note p.1 e p.2)

theorem observe_eq_some {step : σ → ε → Option σ} {note : σ → ε → τ → τ} {p q : σ × τ} {e : ε} :
    observe step note p e = some q ↔ step p.1 e = some q.1 ∧ note p.1 e p.2 = q.2 := by
  unfold observe
  rw [Option.map_eq_some_iff]
  constructor
  · rintro ⟨s, hs, rfl⟩
    exact ⟨hs, rfl⟩
  · rintro ⟨hs, hnote⟩
    exact ⟨q.1, hs, Prod.ext rfl hnote⟩

/-- **Noting what happens changes no run.** -/
theorem reachable_observe {step : σ → ε → Option σ} {note : σ → ε → τ → τ} {ok : σ → ε → Prop}
    {init s : σ} (t₀ : τ) : Reachable step ok init s ↔
      ∃ t, Reachable (observe step note) (fun p e => ok p.1 e) (init, t₀) (s, t) := by
  constructor
  · intro h
    induction h with
    | start => exact ⟨t₀, .start⟩
    | step _ e hok hstep ih =>
      obtain ⟨t, ht⟩ := ih
      exact ⟨_, ht.step e hok (observe_eq_some.mpr ⟨hstep, rfl⟩)⟩
  · rintro ⟨t, h⟩
    have hall : ∀ p, Reachable (observe step note) (fun p e => ok p.1 e) (init, t₀) p →
        Reachable step ok init p.1 := by
      intro p hp
      induction hp with
      | start => exact .start
      | step _ e hok hstep ih => exact ih.step e hok (observe_eq_some.mp hstep).1
    exact hall _ h

/-- One event after another. -/
def run (step : σ → ε → Option σ) : σ → List ε → Option σ
  | s, [] => some s
  | s, e :: rest => (step s e).bind fun s' => run step s' rest

/-- Every event of a run meets the condition where it occurs. -/
def AllOk (step : σ → ε → Option σ) (ok : σ → ε → Prop) : σ → List ε → Prop
  | _, [] => True
  | s, e :: rest => ok s e ∧ ∀ s', step s e = some s' → AllOk step ok s' rest

instance instDecidableAllOk (step : σ → ε → Option σ) (ok : σ → ε → Prop)
    [h : ∀ s e, Decidable (ok s e)] : ∀ s es, Decidable (AllOk step ok s es)
  | _, [] => isTrue trivial
  | s, e :: rest =>
    haveI : ∀ s' : σ, Decidable (AllOk step ok s' rest) :=
      fun s' => instDecidableAllOk step ok s' rest
    inferInstanceAs (Decidable (ok s e ∧ ∀ s' ∈ step s e, AllOk step ok s' rest))

/-- **Where a permitted run ends is reachable.** -/
theorem reachable_of_run {step : σ → ε → Option σ} {ok : σ → ε → Prop} {init : σ} :
    ∀ (es : List ε) {s s' : σ}, Reachable step ok init s → AllOk step ok s es →
      run step s es = some s' → Reachable step ok init s' := by
  intro es
  induction es with
  | nil =>
    intro s s' hs _ h
    rw [run, Option.some.injEq] at h
    rw [← h]
    exact hs
  | cons e rest ih =>
    intro s s' hs hok h
    obtain ⟨s₁, hs₁, hrest⟩ := Option.bind_eq_some_iff.mp h
    exact ih (.step hs e hok.1 hs₁) (hok.2 s₁ hs₁) hrest

/-- **A run that gets nearer to its end with every step is no longer than the way to it.** -/
theorem length_le_of_run {step : σ → ε → Option σ} {P : σ → Prop} {m : σ → Nat}
    (hstep : ∀ s e s', P s → step s e = some s' → P s' ∧ m s' < m s) :
    ∀ (es : List ε) {s s' : σ}, P s → run step s es = some s' → es.length ≤ m s := by
  intro es
  induction es with
  | nil =>
    intro s s' _ _
    exact Nat.zero_le _
  | cons e rest ih =>
    intro s s' hs h
    obtain ⟨s₁, hs₁, hrest⟩ := Option.bind_eq_some_iff.mp h
    obtain ⟨hP, hlt⟩ := hstep s e s₁ hs hs₁
    have hle := ih hP hrest
    rw [List.length_cons]
    omega

end Runs
