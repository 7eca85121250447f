/-
Machines that are fed pieces.

A parser behind a network reads what arrives, and what arrives is cut wherever the network
cut it.  The reference for such a parser is a machine that reads one symbol at a time: it
cannot tell where a piece ends.  So to say that a parser does not depend on the cuts is to
say that it keeps up with such a machine, and `feed_refines` reduces that to one piece:
if one call of the parser does to its state what the symbols of the piece do to the state
of the reference, then so does any sequence of calls.

A parser may also halt.  It is then handed nothing more, and the reference must stand still
on every further symbol.
-/
import Mathlib

namespace Feed

universe u v w x

variable {σ : Type u} {τ : Type v} {α : Type w} {π : Type x}

/-- Hand the pieces over one after another, until one call leaves a halted machine. -/
def feed (run : σ → π → Option σ) (halted : σ → Bool) : σ → List π → Option σ
  | s, [] => some s
  | s, p :: rest =>
    match run s p with
    | none => none
    | some s' => if halted s' then some s' else feed run halted s' rest

/-- A state the reference machine never leaves. -/
def Stuck (step : τ → α → τ) (t : τ) : Prop := ∀ a, step t a = t

theorem foldl_stuck {step : τ → α → τ} {t : τ} (h : Stuck step t) :
    ∀ as : List α, as.foldl step t = t := by
  intro as
  induction as with
  | nil => rfl
  | cons a rest ih => rw [List.foldl_cons, h a, ih]

/-- **A machine that keeps up with the reference on every piece keeps up on every sequence of
pieces.** -/
theorem feed_refines {run : σ → π → Option σ} {halted : σ → Bool} {step : τ → α → τ}
    {symbols : π → List α} {R : σ → τ → Prop} {P : π → Prop}
    (hhalt : ∀ s t, R s t → halted s = true → Stuck step t)
    (hrun : ∀ s t p, R s t → halted s = false → P p →
      ∃ s', run s p = some s' ∧ R s' ((symbols p).foldl step t)) :
    ∀ (ps : List π) (s : σ) (t : τ), R s t → halted s = false → (∀ p ∈ ps, P p) →
      ∃ s', feed run halted s ps = some s' ∧ R s' ((ps.flatMap symbols).foldl step t) := by
  intro ps
  induction ps with
  | nil => intro s t hR _ _; exact ⟨s, rfl, hR⟩
  | cons p rest ih =>
    intro s t hR hlive hok
    obtain ⟨s', hs', hR'⟩ := hrun s t p hR hlive (hok p (by simp))
    rw [List.flatMap_cons, List.foldl_append]
    by_cases hh : halted s' = true
    · refine ⟨s', ?_, ?_⟩
      · simp only [feed, hs', hh, if_true]
      · rw [foldl_stuck (hhalt s' _ hR' hh)]
        exact hR'
    · have hlive' : halted s' = false := by simpa using hh
      obtain ⟨s'', hs'', hR''⟩ := ih s' _ hR' hlive' (fun q hq => hok q (by simp [hq]))
      refine ⟨s'', ?_, hR''⟩
      simp only [feed, hs', hlive', Bool.false_eq_true, if_false]
      exact hs''

/-- What every call keeps is true of a machine after any sequence of pieces. -/
theorem feed_invariant {run : σ → π → Option σ} {halted : σ → Bool} {I : σ → Prop}
    (hrun : ∀ s p s', I s → run s p = some s' → I s') :
    ∀ (ps : List π) (s s' : σ), I s → feed run halted s ps = some s' → I s' := by
  intro ps
  induction ps with
  | nil =>
    intro s s' hI hfeed
    obtain rfl := Option.some.inj hfeed
    exact hI
  | cons p rest ih =>
    intro s s' hI hfeed
    rw [feed] at hfeed
    split at hfeed
    · cases hfeed
    · rename_i s₁ hs₁
      have hI₁ := hrun s p s₁ hI hs₁
      split at hfeed
      · obtain rfl := Option.some.inj hfeed
        exact hI₁
      · exact ih s₁ s' hI₁ hfeed

end Feed
