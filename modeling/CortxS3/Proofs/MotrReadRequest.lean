/-
Whether a read request notifies its caller exactly once, `S3MotrReader::read_object_data`.

A request that returns true waits for one operation or one event at a time, and the last of them runs
one handler (`Waiting`, `waiting_step`).  One that returns false must leave nothing behind.  It does
when there is no memory.  An operation that Motr does not take has posted its event by then, and
`read_object_data` returns false all the same; for an open it has even run the handler itself.
-/
import CortxS3.Server.MotrReadRequest

namespace CortxS3

open Option (some.inj)

namespace MotrReadRequest

/-! ### What is promised -/

/-- The states that a request comes to. -/
abbrev Reached (check : Bool) (s t : State) : Prop :=
  Runs.Reachable (step check) (fun _ _ => True) s t

/-- In every run one handler runs, once, when nothing is pending any more, and that comes. -/
structure NotifiesOnce (check : Bool) (s : State) : Prop where
  once : ∀ t, Reached check s t → t.pending = none →
    t.notified = [.onSuccess] ∨ t.notified = [.onFailed]
  waits : ∀ t, Reached check s t → t.pending ≠ none →
    t.notified = [] ∧ ∃ e t', step check t e = some t'
  ends : ∀ es t, Runs.run (step check) s es = some t → es.length ≤ 2

/-- A call returns true and notifies once, or returns false and never notifies. -/
def KeepsPromise (check : Bool) (r : Bool × State) : Prop :=
  if r.1 then NotifiesOnce check r.2 else ∀ t, Reached check r.2 t → t.notified = []

/-! ### One operation after the other -/

/-- How far a request is: something is pending and no handler has run, or one has and it is over. -/
inductive Waiting : State → Prop
  | opening {s : State} (hpending : s.pending = some .opening) (hstate : s.state = .reading)
      (hnone : s.notified = []) : Waiting s
  | reading {s : State} (hpending : s.pending = some .readingData) (hnone : s.notified = []) :
      Waiting s
  | posted {s : State} {rc : Int} (hpending : s.pending = some (.readFailurePosted rc))
      (hnone : s.notified = []) : Waiting s
  | finished {s : State} {n : Notification} (hpending : s.pending = none) (hone : s.notified = [n]) :
      Waiting s

/-- How many events are still to come, at most. -/
def remaining (s : State) : Nat :=
  match s.pending with
  | none => 0
  | some .opening => 2
  | some _ => 1

variable {s : State}

theorem waiting_openObjectSuccessful (launch : ReadLaunch) (hpending : s.pending = none)
    (hstate : s.state = .reading) (hnone : s.notified = []) :
    Waiting (openObjectSuccessful launch s) ∧ remaining (openObjectSuccessful launch s) ≤ 1 := by
  unfold openObjectSuccessful
  dsimp only
  rw [if_pos hstate]
  unfold readObject
  by_cases hmemory : launch.memory = true
  · rw [hmemory]
    simp only [Bool.not_true, Bool.false_eq_true, if_false]
    by_cases hrc : launch.objOpRc ≠ 0
    · rw [if_pos hrc]
      exact ⟨.posted rfl hnone, le_refl _⟩
    · rw [if_neg hrc]
      exact ⟨.reading rfl hnone, le_refl _⟩
  · rw [Bool.not_eq_true] at hmemory
    rw [hmemory]
    refine ⟨.finished (n := .onFailed) hpending ?_, ?_⟩
    · show s.notified ++ [.onFailed] = _
      rw [hnone]
      rfl
    · unfold remaining
      simp [notify, hpending]

theorem waiting_notify (n : Notification) (hpending : s.pending = none) (hnone : s.notified = []) :
    Waiting (notify n s) ∧ remaining (notify n s) = 0 := by
  refine ⟨.finished (n := n) hpending ?_, ?_⟩
  · show s.notified ++ [n] = [n]
    rw [hnone]
    rfl
  · show (match s.pending with | none => 0 | some .opening => 2 | some _ => 1) = 0
    rw [hpending]

theorem waiting_openObjectFailed (rc : Int) (hpending : s.pending = none) (hnone : s.notified = []) :
    Waiting (openObjectFailed rc s) ∧ remaining (openObjectFailed rc s) = 0 := by
  unfold openObjectFailed
  dsimp only
  split
  · exact waiting_notify .onFailed hpending hnone
  · exact waiting_notify .onFailed hpending hnone

theorem waiting_readObjectFailed (rc : Int) (hpending : s.pending = none) (hnone : s.notified = []) :
    Waiting (readObjectFailed rc s) ∧ remaining (readObjectFailed rc s) = 0 := by
  unfold readObjectFailed
  exact waiting_notify .onFailed hpending hnone

theorem waiting_readObjectSuccessful (check valid : Bool) (hpending : s.pending = none)
    (hnone : s.notified = []) :
    Waiting (readObjectSuccessful check valid s) ∧
      remaining (readObjectSuccessful check valid s) = 0 := by
  unfold readObjectSuccessful
  split
  · exact waiting_notify .onFailed hpending hnone
  · exact waiting_notify .onSuccess hpending hnone

/-- The state once the event has come that was waited for. -/
def settled (s : State) : State := { s with pending := none }

variable {check : Bool}

/-- What an event can do: it is the one that is pending. -/
theorem step_cases {t : State} {e : Event} (hstep : step check s e = some t) :
    (s.pending = some .opening ∧
      ((∃ launch, t = openObjectSuccessful launch (settled s)) ∨
        ∃ rc, t = openObjectFailed rc (settled s))) ∨
    (s.pending = some .readingData ∧
      ((∃ valid, t = readObjectSuccessful check valid (settled s)) ∨
        ∃ rc, t = readObjectFailed rc (settled s))) ∨
    (∃ rc, s.pending = some (.openFailurePosted rc) ∧ t = openObjectFailed rc (settled s)) ∨
    (∃ rc, s.pending = some (.readFailurePosted rc) ∧ t = readObjectFailed rc (settled s)) := by
  cases e with
  | openDone rc launch =>
    left
    simp only [step, Option.ite_none_right_eq_some] at hstep
    obtain ⟨hpending, hdone⟩ := hstep
    refine ⟨hpending, ?_⟩
    by_cases hrc : rc = 0
    · rw [if_pos hrc] at hdone
      exact Or.inl ⟨launch, (some.inj hdone).symm⟩
    · rw [if_neg hrc] at hdone
      exact Or.inr ⟨rc, (some.inj hdone).symm⟩
  | readDone rc valid =>
    right
    left
    simp only [step, Option.ite_none_right_eq_some] at hstep
    obtain ⟨hpending, hdone⟩ := hstep
    refine ⟨hpending, ?_⟩
    by_cases hrc : rc = 0
    · rw [if_pos hrc] at hdone
      exact Or.inl ⟨valid, (some.inj hdone).symm⟩
    · rw [if_neg hrc] at hdone
      exact Or.inr ⟨rc, (some.inj hdone).symm⟩
  | posted =>
    right
    right
    simp only [step] at hstep
    cases hpending : s.pending with
    | none =>
      rw [hpending] at hstep
      cases hstep
    | some p =>
      rw [hpending] at hstep
      cases p with
      | opening | readingData => cases hstep
      | openFailurePosted rc => exact Or.inl ⟨rc, rfl, (some.inj hstep).symm⟩
      | readFailurePosted rc => exact Or.inr ⟨rc, rfl, (some.inj hstep).symm⟩

theorem step_of_quiet (check : Bool) (hs : s.pending = none) (e : Event) :
    step check s e = none := by
  rw [Option.eq_none_iff_forall_not_mem]
  intro t ht
  rcases step_cases ht with ⟨hpending, -⟩ | ⟨hpending, -⟩ | ⟨rc, hpending, -⟩ | ⟨rc, hpending, -⟩
  · rw [hs] at hpending
    cases hpending
  · rw [hs] at hpending
    cases hpending
  · rw [hs] at hpending
    cases hpending
  · rw [hs] at hpending
    cases hpending

theorem waiting_step {t : State} {e : Event} (hs : Waiting s) (hstep : step check s e = some t) :
    Waiting t ∧ remaining t < remaining s := by
  have hcases := step_cases hstep
  cases hs with
  | opening hpending hstate hnone =>
    have htwo : remaining s = 2 := by
      unfold remaining
      rw [hpending]
    rw [hpending] at hcases
    rcases hcases with ⟨-, ⟨launch, rfl⟩ | ⟨rc, rfl⟩⟩ | ⟨hno, -⟩ | ⟨rc, hno, -⟩ | ⟨rc, hno, -⟩
    · obtain ⟨hwaiting, hle⟩ := waiting_openObjectSuccessful launch (s := settled s) rfl hstate
        hnone
      exact ⟨hwaiting, by omega⟩
    · obtain ⟨hwaiting, hzero⟩ := waiting_openObjectFailed rc (s := settled s) rfl hnone
      exact ⟨hwaiting, by omega⟩
    · cases hno
    · cases hno
    · cases hno
  | reading hpending hnone =>
    have hone : remaining s = 1 := by
      unfold remaining
      rw [hpending]
    rw [hpending] at hcases
    rcases hcases with ⟨hno, -⟩ | ⟨-, ⟨valid, rfl⟩ | ⟨rc, rfl⟩⟩ | ⟨rc, hno, -⟩ | ⟨rc, hno, -⟩
    · cases hno
    · obtain ⟨hwaiting, hzero⟩ := waiting_readObjectSuccessful check valid (s := settled s) rfl
        hnone
      exact ⟨hwaiting, by omega⟩
    · obtain ⟨hwaiting, hzero⟩ := waiting_readObjectFailed rc (s := settled s) rfl hnone
      exact ⟨hwaiting, by omega⟩
    · cases hno
    · cases hno
  | posted hpending hnone =>
    have hone : remaining s = 1 := by
      unfold remaining
      rw [hpending]
    rw [hpending] at hcases
    rcases hcases with ⟨hno, -⟩ | ⟨hno, -⟩ | ⟨rc, hno, -⟩ | ⟨rc, -, rfl⟩
    · cases hno
    · cases hno
    · cases hno
    · obtain ⟨hwaiting, hzero⟩ := waiting_readObjectFailed rc (s := settled s) rfl hnone
      exact ⟨hwaiting, by omega⟩
  | finished hpending _ =>
    rw [step_of_quiet check hpending e] at hstep
    cases hstep

theorem exists_step (check : Bool) (hs : s.pending ≠ none) : ∃ e t, step check s e = some t := by
  obtain ⟨p, hp⟩ := Option.ne_none_iff_exists'.mp hs
  cases p with
  | opening => exact ⟨.openDone 0 ⟨true, 0⟩, openObjectSuccessful ⟨true, 0⟩ (settled s), if_pos hp⟩
  | openFailurePosted rc =>
    refine ⟨.posted, openObjectFailed rc (settled s), ?_⟩
    simp only [step, hp]
    rfl
  | readingData =>
    exact ⟨.readDone 0 true, readObjectSuccessful check true (settled s), if_pos hp⟩
  | readFailurePosted rc =>
    refine ⟨.posted, readObjectFailed rc (settled s), ?_⟩
    simp only [step, hp]
    rfl

theorem notifiesOnce_of_waiting (hs : Waiting s) : NotifiesOnce check s := by
  have hreached : ∀ t, Reached check s t → Waiting t := by
    intro t ht
    exact ht.invariant hs fun u e u' hu _ hstep => (waiting_step hu hstep).1
  refine ⟨fun t ht hquiet => ?_, fun t ht hpending => ⟨?_, exists_step check hpending⟩, ?_⟩
  · cases hreached t ht with
    | opening hpending _ _ =>
      rw [hpending] at hquiet
      cases hquiet
    | reading hpending _ =>
      rw [hpending] at hquiet
      cases hquiet
    | posted hpending _ =>
      rw [hpending] at hquiet
      cases hquiet
    | @finished n _ hone =>
      cases n with
      | onSuccess => exact Or.inl hone
      | onFailed => exact Or.inr hone
  · cases hreached t ht with
    | opening _ _ hnone | reading _ hnone | posted _ hnone => exact hnone
    | finished hquiet _ => exact absurd hquiet hpending
  · intro es t hrun
    have hle : es.length ≤ remaining s :=
      Runs.length_le_of_run (P := Waiting) (fun u e u' hu hstep => waiting_step hu hstep) es hs hrun
    have htwo : remaining s ≤ 2 := by
      unfold remaining
      split <;> omega
    omega

/-! ### When the promise is kept -/

/-- **A read request notifies its caller exactly once, or returns false and never does, exactly when
the operation it launches itself is taken by Motr.**  That is the open of an object that is not open,
and the read of one that is, unless there is no memory for it. -/
theorem readObjectData_keepsPromise_iff (check : Bool) (entityOpenRc : Int) (launch : ReadLaunch)
    (r : Reader) :
    KeepsPromise check (readObjectData entityOpenRc launch r) ↔
      if r.isObjectOpened then launch.memory = false ∨ launch.objOpRc = 0 else entityOpenRc = 0 := by
  unfold readObjectData
  dsimp only
  cases r.isObjectOpened with
  | false =>
    simp only [Bool.false_eq_true, if_false]
    unfold openObject
    by_cases hrc : entityOpenRc = 0
    · -- the open is under way
      rw [if_neg (not_not.mpr hrc)]
      dsimp only
      rw [if_neg (by decide)]
      exact ⟨fun _ => hrc, fun _ => notifiesOnce_of_waiting (.opening rfl rfl rfl)⟩
    · -- the handler runs at once, and the event is still to come
      rw [if_pos hrc]
      dsimp only
      rw [if_pos hrc]
      refine ⟨fun hkept => ?_, fun hzero => absurd hzero hrc⟩
      have hnever : ([Notification.onFailed] : List Notification) = [] := hkept _ .start
      cases hnever
  | true =>
    simp only [if_true]
    unfold readObject
    cases hmemory : launch.memory with
    | false =>
      refine ⟨fun _ => Or.inl rfl, fun _ t ht => ?_⟩
      have hquiet : t.pending = none ∧ t.notified = [] := by
        refine ht.invariant (P := fun u => u.pending = none ∧ u.notified = []) ⟨rfl, rfl⟩ ?_
        intro u e u' hu _ hstep
        rw [step_of_quiet check hu.1 e] at hstep
        cases hstep
      exact hquiet.2
    | true =>
      simp only [Bool.not_true, Bool.false_eq_true, if_false, reduceCtorEq, false_or]
      by_cases hrc : launch.objOpRc = 0
      · rw [if_neg (not_not.mpr hrc)]
        exact ⟨fun _ => hrc, fun _ => notifiesOnce_of_waiting (.reading rfl rfl)⟩
      · -- the event runs the handler of a request that has returned false
        rw [if_pos hrc]
        refine ⟨fun hkept => ?_, fun hzero => absurd hzero hrc⟩
        have hnever := hkept _ (Runs.Reachable.step .start .posted trivial rfl)
        have hran : ([Notification.onFailed] : List Notification) = [] := hnever
        cases hran

/-- An object that is not open and cannot be opened: the handler runs, the call returns false, and the
handler runs again. -/
theorem not_keepsPromise_openRefused :
    ¬ KeepsPromise true (readObjectData (-5) ⟨true, 0⟩ ⟨.start, false⟩) := by
  intro hkept
  have hreached : Reached true (readObjectData (-5) ⟨true, 0⟩ ⟨.start, false⟩).2
      { state := .failedToLaunch, isObjectOpened := false, notified := [.onFailed, .onFailed] } :=
    Runs.Reachable.step .start .posted trivial rfl
  have hnever := hkept _ hreached
  cases hnever

end MotrReadRequest

end CortxS3
