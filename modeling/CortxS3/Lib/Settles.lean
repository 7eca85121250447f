/-
Programs that change a state and may fail: exactly when they come to their end.

`Settles I x post P` says that from any state with the invariant `I` the program `x` comes to its
end if and only if `P`, that it keeps the invariant, and that its result is as wanted.  `P` is
about what the program is given and not about the state, so that the conditions of the parts of a
program are put together without following what the parts store.
-/
import Mathlib

namespace StateExcept

variable {ε σ α β ι : Type}

structure Settles (I : σ → Prop) (x : StateT σ (Except ε) α) (post : α → Prop) (P : Prop) :
    Prop where
  ends : ∀ {s : σ}, I s → ((∃ r, x.run s = .ok r) ↔ P)
  keeps : ∀ {s : σ} {r : α × σ}, I s → x.run s = .ok r → post r.1 ∧ I r.2

variable {I : σ → Prop} {post : α → Prop} {P Q R : Prop}

theorem Settles.congr {x : StateT σ (Except ε) α} (h : Settles I x post P) (hiff : P ↔ Q) :
    Settles I x post Q where
  ends hI := (h.ends hI).trans hiff
  keeps := h.keeps

theorem settles_pure {a : α} (ha : post a) :
    Settles I (pure a : StateT σ (Except ε) α) post True where
  ends := by
    intro s _
    exact ⟨fun _ => trivial, fun _ => ⟨(a, s), rfl⟩⟩
  keeps := by
    intro s r hI hrun
    obtain rfl := Except.ok.inj hrun
    exact ⟨ha, hI⟩

theorem settles_modify {f : σ → σ} (hf : ∀ s, I s → I (f s)) :
    Settles I (modify f : StateT σ (Except ε) PUnit) (fun _ => True) True where
  ends := by
    intro s _
    exact ⟨fun _ => trivial, fun _ => ⟨(⟨⟩, f s), rfl⟩⟩
  keeps := by
    intro s r hI hrun
    obtain rfl := Except.ok.inj hrun
    exact ⟨trivial, hf s hI⟩

/-- What may fail and leaves the state alone. -/
theorem settles_lift (x : Except ε α) :
    Settles I (liftM x : StateT σ (Except ε) α) (fun a => x = .ok a) (∃ a, x = .ok a) := by
  cases x with
  | error e =>
    refine ⟨fun _ => ⟨?_, ?_⟩, ?_⟩
    · rintro ⟨r, hrun⟩
      cases hrun
    · rintro ⟨a, ha⟩
      cases ha
    · intro s r _ hrun
      cases hrun
  | ok a =>
    refine ⟨fun {s} _ => ⟨fun _ => ⟨a, rfl⟩, fun _ => ⟨(a, s), rfl⟩⟩, ?_⟩
    intro s r hI hrun
    obtain rfl := Except.ok.inj hrun
    exact ⟨rfl, hI⟩

theorem run_bind_ok {x : StateT σ (Except ε) β} {f : β → StateT σ (Except ε) α} {s : σ}
    {r : α × σ} : (x >>= f).run s = .ok r ↔ ∃ q, x.run s = .ok q ∧ (f q.1).run q.2 = .ok r := by
  have hrun : (x >>= f).run s = x.run s >>= fun q => (f q.1).run q.2 := rfl
  rw [hrun]
  cases x.run s with
  | error e | ok q => simp [bind, Except.bind]

/-- One after the other.  What the second needs may not depend on the result of the first. -/
theorem settles_bind {x : StateT σ (Except ε) β} {f : β → StateT σ (Except ε) α}
    {mid : β → Prop} (hx : Settles I x mid P) (hf : ∀ b, mid b → Settles I (f b) post R) :
    Settles I (x >>= f) post (P ∧ R) where
  ends := by
    intro s hI
    constructor
    · rintro ⟨r, hrun⟩
      obtain ⟨q, hq, hr⟩ := run_bind_ok.mp hrun
      obtain ⟨hmid, hI'⟩ := hx.keeps hI hq
      exact ⟨(hx.ends hI).mp ⟨q, hq⟩, ((hf q.1 hmid).ends hI').mp ⟨r, hr⟩⟩
    · rintro ⟨hP, hR⟩
      obtain ⟨q, hq⟩ := (hx.ends hI).mpr hP
      obtain ⟨hmid, hI'⟩ := hx.keeps hI hq
      obtain ⟨r, hr⟩ := ((hf q.1 hmid).ends hI').mpr hR
      exact ⟨r, run_bind_ok.mpr ⟨q, hq, hr⟩⟩
  keeps := by
    intro s r hI hrun
    obtain ⟨q, hq, hr⟩ := run_bind_ok.mp hrun
    obtain ⟨hmid, hI'⟩ := hx.keeps hI hq
    exact (hf q.1 hmid).keeps hI' hr

/-- What is read decides about what follows. -/
theorem settles_lift_bind {x : Except ε β} {f : β → StateT σ (Except ε) α} {R : β → Prop}
    (hf : ∀ b, x = .ok b → Settles I (f b) post (R b)) :
    Settles I (liftM x >>= f) post (∃ b, x = .ok b ∧ R b) := by
  cases x with
  | error e =>
    have hbind : Settles I (liftM (Except.error e) >>= f) post (_ ∧ False) :=
      settles_bind (settles_lift _) fun b hb => by cases hb
    exact hbind.congr (by simp)
  | ok b₀ =>
    have hbind := settles_bind (settles_lift (Except.ok b₀)) fun b hb => by
      obtain rfl := Except.ok.inj hb
      exact hf b₀ rfl
    exact hbind.congr (by simp)

theorem settles_fail {x : Except ε β} {f : β → StateT σ (Except ε) α} (hx : ∀ b, x ≠ .ok b) :
    Settles I (liftM x >>= f) post False := by
  refine (settles_lift_bind (R := fun _ => False) fun b hb => absurd hb (hx b)).congr ?_
  simp only [and_false, exists_false]

theorem settles_get_bind {f : σ → StateT σ (Except ε) α}
    (hf : ∀ s, I s → Settles I (f s) post P) : Settles I (get >>= f) post P where
  ends := by
    intro s hI
    exact (hf s hI).ends hI
  keeps := by
    intro s r hI hrun
    exact (hf s hI).keeps hI hrun

/-- A branch, and nothing to fear on the other side. -/
theorem settles_if {c : Prop} [Decidable c] {x y : StateT σ (Except ε) α}
    (hx : c → Settles I x post P) (hy : ¬ c → Settles I y post True) :
    Settles I (if c then x else y) post (c → P) := by
  by_cases h : c
  · rw [if_pos h]
    exact (hx h).congr ⟨fun hP _ => hP, fun hP => hP h⟩
  · rw [if_neg h]
    exact (hy h).congr ⟨fun _ hc => absurd hc h, fun _ => trivial⟩

/-- Something is read and stored. -/
theorem settles_store {x : Except ε β} {f : β → σ → σ} {k : β → StateT σ (Except ε) α}
    (hstore : ∀ b s, I s → I (f b s)) (hk : ∀ b, x = .ok b → Settles I (k b) post R) :
    Settles I (do
      let b ← (liftM x : StateT σ (Except ε) β)
      modify (f b)
      k b) post ((∃ b, x = .ok b) ∧ R) := by
  refine settles_bind (settles_lift x) fun b hb => ?_
  exact (settles_bind (settles_modify (hstore b)) fun _ _ => hk b hb).congr (by rw [true_and])

/-- The same at the end of a program. -/
theorem settles_store_last {x : Except ε β} {f : β → σ → σ} (hstore : ∀ b s, I s → I (f b s)) :
    Settles I (do
      let b ← (liftM x : StateT σ (Except ε) β)
      modify (f b)) (fun _ => True) (∃ b, x = .ok b) :=
  (settles_bind (settles_lift x) fun b _ => settles_modify (hstore b)).congr (by rw [and_true])

theorem settles_forM {body : ι → StateT σ (Except ε) PUnit} {P : ι → Prop} (l : List ι)
    (hbody : ∀ i, Settles I (body i) (fun _ => True) (P i)) :
    Settles I (forM l body) (fun _ => True) (∀ i ∈ l, P i) := by
  induction l with
  | nil =>
    rw [List.forM_nil]
    exact (settles_pure trivial).congr (by simp)
  | cons i rest ih =>
    rw [List.forM_cons]
    exact (settles_bind (hbody i) fun _ _ => ih).congr List.forall_mem_cons.symm

end StateExcept
