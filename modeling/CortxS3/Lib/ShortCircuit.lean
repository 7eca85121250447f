/-
Loops over a list that stop as soon as the answer is known, and may fail.

`anyM` and `allM` do not look behind the element that decides.  Where an answer came out, the
elements that were looked at have answered, so two loops over the same elements that both come to
an answer come to the same.
-/
import Mathlib

namespace ShortCircuit

universe u v

variable {ε : Type u} {α : Type v} {f : α → Except ε Bool}

theorem anyM_cons (x : α) (rest : List α) :
    (x :: rest).anyM f = f x >>= fun b => if b then .ok true else rest.anyM f := by
  rw [List.anyM]
  congr 1
  funext b
  cases b <;> rfl

theorem allM_cons (x : α) (rest : List α) :
    (x :: rest).allM f = f x >>= fun b => if b then rest.allM f else .ok false := by
  rw [List.allM]
  congr 1
  funext b
  cases b <;> rfl

/-- Some element said yes. -/
theorem exists_of_anyM {l : List α} (h : l.anyM f = .ok true) : ∃ x ∈ l, f x = .ok true := by
  induction l with
  | nil => exact absurd h (by simp [pure, Except.pure])
  | cons x rest ih =>
    rw [anyM_cons] at h
    cases hx : f x with
    | error e => rw [hx] at h; exact absurd h (by simp [bind, Except.bind])
    | ok b =>
      cases b with
      | true => exact ⟨x, List.mem_cons_self, hx⟩
      | false =>
        rw [hx] at h
        obtain ⟨y, hy, hfy⟩ := ih h
        exact ⟨y, List.mem_cons_of_mem _ hy, hfy⟩

/-- Every element has been looked at. -/
theorem forall_of_anyM {l : List α} (h : l.anyM f = .ok false) : ∀ x ∈ l, f x = .ok false := by
  induction l with
  | nil => simp
  | cons x rest ih =>
    rw [anyM_cons] at h
    cases hx : f x with
    | error e => rw [hx] at h; exact absurd h (by simp [bind, Except.bind])
    | ok b =>
      rw [hx] at h
      cases b with
      | true => exact absurd h (by simp [bind, Except.bind])
      | false =>
        intro y hy
        rcases List.mem_cons.mp hy with rfl | hy
        · exact hx
        · exact ih h y hy

/-- **The order does not matter to a search that comes to an end.** -/
theorem anyM_perm {l l' : List α} (hperm : l.Perm l') {b b' : Bool} (h : l.anyM f = .ok b)
    (h' : l'.anyM f = .ok b') : b = b' := by
  have hno : ∀ {m m' : List α}, m.Perm m' → m.anyM f = .ok true → m'.anyM f ≠ .ok false := by
    intro m m' hm htrue hfalse
    obtain ⟨x, hx, hfx⟩ := exists_of_anyM htrue
    have := forall_of_anyM hfalse x (hm.mem_iff.mp hx)
    rw [hfx] at this
    exact absurd this (by simp)
  cases b <;> cases b'
  · rfl
  · exact absurd h (hno hperm.symm h')
  · exact absurd h' (hno hperm h)
  · rfl

/-- The one loop is the other with the answers turned round. -/
theorem allM_eq_anyM (l : List α) :
    l.allM f = Except.map not (l.anyM fun x => Except.map not (f x)) := by
  induction l with
  | nil => rfl
  | cons x rest ih =>
    rw [allM_cons, anyM_cons]
    cases f x with
    | error e => rfl
    | ok b =>
      cases b with
      | false => rfl
      | true => exact ih

theorem allM_perm {l l' : List α} (hperm : l.Perm l') {b b' : Bool} (h : l.allM f = .ok b)
    (h' : l'.allM f = .ok b') : b = b' := by
  have hnot : ∀ {m : List α} {c : Bool}, m.allM f = .ok c →
      m.anyM (fun x => Except.map not (f x)) = .ok (!c) := by
    intro m c hm
    rw [allM_eq_anyM] at hm
    cases hany : m.anyM fun x => Except.map not (f x) with
    | error e =>
      rw [hany] at hm
      cases hm
    | ok d =>
      rw [hany] at hm
      rw [← Except.ok.inj hm, Bool.not_not]
  exact Bool.not_inj (anyM_perm hperm (hnot h) (hnot h'))

end ShortCircuit
