/-
The copies of the parts of an object.

Three counters decide what a callback does, and all three count more than is running while the first
batch is being started: `copy_fragments` sets them before its loop.  `Inv` relates them to the vector
of copiers by `unstarted`, the part of the batch that the loop has still to start.

With that, callbacks from the event loop do what they should.  A callback during the loop does not: a
failure does not stop the loop, a success starts a part whose place in the vector does not exist yet,
and when the last copy fails the response is sent before `copy_fragments` starts another.  `Orderly`
leaves out just these.
-/
import CortxS3.Server.CopyObjectAction

namespace CortxS3

open Option (some.inj some.injEq)
open List

namespace S3CopyObjectAction

variable (c : Config)

/-- A callback that comes in the loop of `copy_fragments` does no harm at the last position, unless it
ends the copy and the response is then started; nor does a success that has no other part to start. -/
def Orderly (s : State) (e : Event) : Prop :=
  match s.control, e with
  | .running (some i) _, .failed _ =>
    i + 1 = c.parallel ∧ (s.inFlight = 1 → c.startsResponse = false)
  | .running (some i) _, .success _ => i + 1 = c.parallel ∨ c.totalObjects ≤ c.maxParallelCopy
  | _, _ => True

/-- What is asked of a run. -/
structure Exact (s : State) : Prop where
  notCrashed : s.control ≠ .crashed
  startedOnce : s.started.Nodup
  bounded : s.inFlight ≤ c.maxParallelCopy
  noFault : s.faults = []
  endedOnce : s.nextCalls + s.responses ≤ 1
  ended : s.control = .idle → s.inFlight = 0 → s.nextCalls + s.responses = 1
  allCopied : s.nextCalls = 1 → ∀ i, i < c.totalObjects → i ∈ s.copied
  someFailed : s.responses = 1 → s.failed ≠ []

/-! ### The invariant -/

/-- How many copies of the first batch have not been started. -/
def unstarted (s : State) : Nat :=
  match s.control with
  | .running (some i) _ => c.parallel - (i + 1)
  | _ => 0

/-- What has been called, and when. -/
def Called (s : State) : Prop :=
  match s.actionState with
  | .newObjOidCreated =>
    s.nextCalls = 0 ∧ s.responses = 0 ∧ s.partsFragmentCopiedOrFailed < c.totalObjects
  | .writeComplete =>
    s.nextCalls = 1 ∧ s.responses = 0 ∧ s.partsFragmentCopiedOrFailed = c.totalObjects
  | .writeFailed =>
    s.nextCalls = 0 ∧ s.failed ≠ [] ∧ s.responses = if s.partsFrgCopyInFlight = 0 then 1 else 0

structure Inv (s : State) : Prop where
  notCrashed : s.control ≠ .crashed
  started : s.started = List.range s.copiers.length
  inLoop : ∀ i k, s.control = .running (some i) k → i < c.parallel ∧
    (i + 1 < c.parallel → s.partsFrgCopyInFlightCopiedOrFailed = c.parallel ∧
      s.actionState ≠ .writeFailed)
  starting : ∀ l k, s.control = .running l (some k) → s.copiers[k]? = some true
  startingOk : ∀ i k, s.control = .running (some i) (some k) → s.actionState ≠ .writeFailed
  waiting : ∀ i k, s.control = .running (some i) k → c.startsResponse = true → s.responses = 0
  scheduled : s.partsFrgCopyInFlightCopiedOrFailed = s.copiers.length + unstarted c s
  inFlight : s.partsFrgCopyInFlight = s.inFlight + unstarted c s
  finished : s.partsFragmentCopiedOrFailed + s.inFlight = s.copiers.length
  scheduledLe : s.partsFrgCopyInFlightCopiedOrFailed ≤ c.totalObjects
  inFlightLe : s.partsFrgCopyInFlight ≤ c.parallel
  full : s.actionState = .newObjOidCreated →
    s.partsFrgCopyInFlight = c.parallel ∨ s.partsFrgCopyInFlightCopiedOrFailed = c.totalObjects
  reported : ∀ i : Nat, s.copiers[i]? = some false → i ∈ s.copied ∨ i ∈ s.failed
  noneFailed : s.actionState ≠ .writeFailed → s.failed = []
  called : Called c s
  noFault : s.faults = []

variable {c}

theorem parallel_le (c : Config) : c.parallel ≤ c.maxParallelCopy ∧ c.parallel ≤ c.totalObjects := by
  rw [Config.parallel]
  split <;> omega

theorem parallel_pos (hmax : 1 ≤ c.maxParallelCopy) (htotal : 1 ≤ c.totalObjects) :
    1 ≤ c.parallel := by
  rw [Config.parallel]
  split <;> omega

theorem parallel_eq_total (h : c.totalObjects ≤ c.maxParallelCopy) :
    c.parallel = c.totalObjects := by
  rw [Config.parallel]
  split <;> omega

variable {s : State}

/-- **The counters say what is asked.** -/
theorem Inv.exact (hs : Inv c s) (hpos : 1 ≤ c.parallel) : Exact c s := by
  have hpar := parallel_le c
  have hsched := hs.scheduled
  have hflight := hs.inFlight
  have hfin := hs.finished
  have hschedLe := hs.scheduledLe
  have hle := hs.inFlightLe
  have hcalled := hs.called
  refine ⟨hs.notCrashed, ?_, by omega, hs.noFault, ?_, ?_, ?_, ?_⟩
  · rw [hs.started]
    exact nodup_range
  · unfold Called at hcalled
    split at hcalled
    · omega
    · omega
    · obtain ⟨hn, -, hr⟩ := hcalled
      split at hr <;> omega
  · intro hidle hzero
    have hun : unstarted c s = 0 := by rw [unstarted, hidle]
    unfold Called at hcalled
    split at hcalled
    · next hstate =>
        have := hs.full hstate
        omega
    · omega
    · obtain ⟨hn, -, hr⟩ := hcalled
      rw [if_pos (by omega)] at hr
      omega
  · intro hnext i hi
    have hstate : s.actionState = .writeComplete := by
      unfold Called at hcalled
      split at hcalled
      · omega
      · assumption
      · omega
    have hdone : s.partsFragmentCopiedOrFailed = c.totalObjects := by
      simp only [Called, hstate] at hcalled
      exact hcalled.2.2
    have hnone : s.inFlight = 0 := by omega
    have hlen : i < s.copiers.length := by omega
    have hfalse : s.copiers[i]? = some false := by
      rw [List.getElem?_eq_getElem hlen]
      have hmem : s.copiers[i] ∈ s.copiers := getElem_mem hlen
      have hno : true ∉ s.copiers := count_eq_zero.mp hnone
      cases hb : s.copiers[i] with
      | false => rfl
      | true => exact absurd (hb ▸ hmem) hno
    rcases hs.reported i hfalse with h | h
    · exact h
    · rw [hs.noneFailed (by rw [hstate]; simp)] at h
      cases h
  · intro hresp
    unfold Called at hcalled
    split at hcalled
    · omega
    · omega
    · exact hcalled.2.1

/-! ### Starting a copy -/

variable {index : Nat}

theorem copyEachPartFragment_eq (loop : Option Nat) (hindex : index = s.copiers.length)
    (hstate : s.actionState = .newObjOidCreated) :
    copyEachPartFragment s loop index =
      { s with
        copiers := s.copiers ++ [true]
        started := s.started ++ [index]
        control := .running loop (some index) } := by
  have hget : (s.copiers ++ [true])[index]? = some true := by simp [hindex]
  have hnote : s.note (s.actionState = .writeFailed) .copyStartedAfterFailure = s := by
    simp [State.note, hstate]
  rw [copyEachPartFragment, if_pos hget, hnote]

/-- The counters already count the copy that is started next, and `u` others after it. -/
structure Ready (c : Config) (s : State) (u : Nat) : Prop where
  state : s.actionState = .newObjOidCreated
  started : s.started = List.range s.copiers.length
  scheduled : s.partsFrgCopyInFlightCopiedOrFailed = s.copiers.length + 1 + u
  inFlight : s.partsFrgCopyInFlight = s.inFlight + 1 + u
  finished : s.partsFragmentCopiedOrFailed + s.inFlight = s.copiers.length
  scheduledLe : s.partsFrgCopyInFlightCopiedOrFailed ≤ c.totalObjects
  inFlightLe : s.partsFrgCopyInFlight ≤ c.parallel
  full : s.partsFrgCopyInFlight = c.parallel ∨
    s.partsFrgCopyInFlightCopiedOrFailed = c.totalObjects
  reported : ∀ i : Nat, s.copiers[i]? = some false → i ∈ s.copied ∨ i ∈ s.failed
  noneFailed : s.failed = []
  notCalled : s.nextCalls = 0 ∧ s.responses = 0
  noFault : s.faults = []

variable {i : Nat} {l : List Bool}

theorem getElem?_snoc_true (h : (l ++ [true])[i]? = some false) : l[i]? = some false := by
  rcases Nat.lt_trichotomy i l.length with hi | hi | hi
  · rwa [List.getElem?_append_left hi] at h
  · simp [hi] at h
  · rw [List.getElem?_eq_none (by simp; omega)] at h
    cases h

variable {loop : Option Nat}

/-- **A copy that is started in its turn keeps the counters right.** -/
theorem Ready.inv {u : Nat} (hs : Ready c s u)
    (hindex : index = s.copiers.length)
    (hloop : ∀ i, loop = some i → i < c.parallel ∧ c.parallel - (i + 1) = u ∧
      (i + 1 < c.parallel → s.partsFrgCopyInFlightCopiedOrFailed = c.parallel))
    (hnone : loop = none → u = 0) : Inv c (copyEachPartFragment s loop index) := by
  rw [copyEachPartFragment_eq loop hindex hs.state]
  have hcount : (s.copiers ++ [true]).count true = s.inFlight + 1 := by simp [State.inFlight]
  have hun : unstarted c { s with
      copiers := s.copiers ++ [true]
      started := s.started ++ [index]
      control := .running loop (some index) } = u := by
    cases loop with
    | none => exact (hnone rfl).symm
    | some i => exact (hloop i rfl).2.1
  have hsched := hs.scheduled
  have hflight := hs.inFlight
  have hfin := hs.finished
  refine
    { notCrashed := by simp
      started := ?_
      inLoop := ?_
      starting := ?_
      startingOk := fun _ _ _ => by rw [hs.state]; simp
      waiting := fun _ _ _ _ => hs.notCalled.2
      scheduled := ?_
      inFlight := ?_
      finished := ?_
      scheduledLe := hs.scheduledLe
      inFlightLe := hs.inFlightLe
      full := fun _ => hs.full
      reported := fun i h => hs.reported i (getElem?_snoc_true h)
      noneFailed := fun _ => hs.noneFailed
      called := ?_
      noFault := hs.noFault }
  · rw [hs.started, hindex, length_append, length_singleton, range_succ]
  · intro i k hk
    simp only [Control.running.injEq] at hk
    obtain ⟨hlt, -, hi⟩ := hloop i hk.1
    exact ⟨hlt, fun h => ⟨hi h, by rw [hs.state]; simp⟩⟩
  · intro l k hk
    simp only [Control.running.injEq, some.injEq] at hk
    simp [← hk.2, hindex]
  · rw [hun, length_append, length_singleton]
    push_cast
    omega
  · rw [hun, State.inFlight, hcount]
    push_cast
    omega
  · rw [State.inFlight, hcount, length_append, length_singleton]
    push_cast
    omega
  · simp only [Called, hs.state]
    refine ⟨hs.notCalled.1, hs.notCalled.2, ?_⟩
    have := hs.scheduledLe
    omega

theorem inv_start (hmax : 1 ≤ c.maxParallelCopy) (htotal : 1 ≤ c.totalObjects) :
    Inv c (start c) := by
  have hpos := parallel_pos hmax htotal
  have hle := parallel_le c
  have hready : Ready c
      { control := .idle
        partsFrgCopyInFlightCopiedOrFailed := c.parallel
        partsFrgCopyInFlight := c.parallel } (c.parallel - 1) := by
    refine ⟨rfl, rfl, ?_, ?_, rfl, ?_, le_refl _, Or.inl rfl, ?_, rfl, ⟨rfl, rfl⟩, rfl⟩
    · simp only [length_nil]
      omega
    · simp only [State.inFlight, count_nil]
      omega
    · simp only
      omega
    · simp
  refine hready.inv rfl ?_ (by simp)
  intro i hi
  obtain rfl := some.inj hi
  exact ⟨hpos, rfl, fun _ => rfl⟩

/-! ### A callback -/

theorem count_set_false (h : l[i]? = some true) :
    (l.set i false).count true + 1 = l.count true := by
  obtain ⟨hi, hget⟩ := List.getElem?_eq_some_iff.mp h
  have hpos : 0 < l.count true := count_pos_iff.mpr (hget ▸ getElem_mem hi)
  rw [count_set hi, hget]
  simp
  omega

/-- A state in which the copy of `index` is running and may call back. -/
structure Pending (c : Config) (s : State) (loop : Option Nat) (index : Nat) : Prop where
  inv : Inv c s
  running : s.copiers[index]? = some true
  control : (s.control = .idle ∧ loop = none) ∨ s.control = .running loop (some index)

variable {t : State}

theorem Pending.unstarted_eq (hs : Pending c s loop index) (ht : t.control = .running loop none) :
    unstarted c t = unstarted c s := by
  rcases hs.control with ⟨h, rfl⟩ | h
  · rw [unstarted, unstarted, h, ht]
  · rw [unstarted, unstarted, h, ht]
    cases loop <;> rfl

theorem Pending.inLoop (hs : Pending c s loop index) (hi : loop = some i) :
    i < c.parallel ∧ (i + 1 < c.parallel →
      s.partsFrgCopyInFlightCopiedOrFailed = c.parallel ∧ s.actionState ≠ .writeFailed) := by
  rcases hs.control with ⟨-, rfl⟩ | h
  · cases hi
  · rw [hi] at h
    exact hs.inv.inLoop i _ h

theorem reported_set {copied failed : List Nat}
    (h : ∀ i : Nat, l[i]? = some false → i ∈ copied ∨ i ∈ failed) :
    ∀ i : Nat, (l.set index false)[i]? = some false → i = index ∨ i ∈ copied ∨ i ∈ failed := by
  intro i hi
  by_cases hne : index = i
  · exact Or.inl hne.symm
  · rw [List.getElem?_set_ne hne] at hi
    exact Or.inr (h i hi)

theorem Pending.notCalled (hs : Pending c s loop index) :
    s.actionState ≠ .writeComplete ∧ s.nextCalls = 0 ∧ s.responses = 0 := by
  have hcount := count_set_false hs.running
  have hinFlight : s.inFlight = s.copiers.count true := rfl
  have hsched := hs.inv.scheduled
  have hflight := hs.inv.inFlight
  have hfin := hs.inv.finished
  have hschedLe := hs.inv.scheduledLe
  have hcalled := hs.inv.called
  unfold Called at hcalled
  split at hcalled
  · next hstate => exact ⟨by simp [hstate], hcalled.1, hcalled.2.1⟩
  · omega
  · next hstate =>
      obtain ⟨hn, -, hr⟩ := hcalled
      rw [if_neg (by omega)] at hr
      exact ⟨by simp [hstate], hn, hr⟩

theorem sendResponseToS3Client_eq (h : s.inFlight = 0) :
    sendResponseToS3Client s = { s with responses := s.responses + 1 } := by
  have hnote : s.note (s.inFlight ≠ 0) .endedWithCopyInFlight = s := by simp [State.note, h]
  rw [sendResponseToS3Client, hnote]

section

variable (hs : Pending c s loop index)

include hs

/-- What a report does to the counters, if it starts no other copy. -/
theorem inv_report (hcontrol : t.control = .running loop none)
    (hcopiers : t.copiers = s.copiers.set index false)
    (hscheduled : t.partsFrgCopyInFlightCopiedOrFailed = s.partsFrgCopyInFlightCopiedOrFailed)
    (hflight : t.partsFrgCopyInFlight = s.partsFrgCopyInFlight - 1)
    (hfinished : t.partsFragmentCopiedOrFailed = s.partsFragmentCopiedOrFailed + 1)
    (hstarted : t.started = s.started)
    (hreported : ∀ i, i = index ∨ i ∈ s.copied ∨ i ∈ s.failed → i ∈ t.copied ∨ i ∈ t.failed)
    (hloop : ∀ i, loop = some i → i + 1 < c.parallel → t.actionState ≠ .writeFailed)
    (hfull : t.actionState = .newObjOidCreated →
      t.partsFrgCopyInFlight = c.parallel ∨ t.partsFrgCopyInFlightCopiedOrFailed = c.totalObjects)
    (hfailed : t.actionState ≠ .writeFailed → t.failed = []) (hcalled : Called c t)
    (hwaiting : ∀ i, loop = some i → c.startsResponse = true → t.responses = 0)
    (hfault : t.faults = []) : Inv c t := by
  have hi := hs.inv
  have hlen : t.copiers.length = s.copiers.length := by rw [hcopiers, length_set]
  have hcount : t.inFlight + 1 = s.inFlight := by
    rw [State.inFlight, hcopiers]
    exact count_set_false hs.running
  have hun : unstarted c t = unstarted c s := hs.unstarted_eq hcontrol
  have hinFlight := hi.inFlight
  have hfin := hi.finished
  have hle := hi.inFlightLe
  refine
    { notCrashed := by simp [hcontrol]
      started := by rw [hstarted, hlen, hi.started]
      inLoop := ?_
      starting := by simp [hcontrol]
      startingOk := by simp [hcontrol]
      waiting := ?_
      scheduled := by rw [hscheduled, hlen, hun, hi.scheduled]
      inFlight := by rw [hflight, hun]; omega
      finished := by rw [hfinished, hlen]; omega
      scheduledLe := by rw [hscheduled]; exact hi.scheduledLe
      inFlightLe := by rw [hflight]; omega
      full := hfull
      reported := ?_
      noneFailed := hfailed
      called := hcalled
      noFault := hfault }
  · intro i k hk
    rw [hcontrol, Control.running.injEq] at hk
    obtain ⟨hlt, hbatch⟩ := hs.inLoop hk.1
    exact ⟨hlt, fun h => ⟨by rw [hscheduled]; exact (hbatch h).1, hloop i hk.1 h⟩⟩
  · intro i k hk
    rw [hcontrol, Control.running.injEq] at hk
    exact hwaiting i hk.1
  · intro i h
    rw [hcopiers] at h
    exact hreported i (reported_set hi.reported i h)

section

variable (hlast : ∀ i, loop = some i → i + 1 = c.parallel)

include hlast

/-- A report in a copy that has failed, after which the response is sent when it was the last. -/
theorem inv_report_failed (hcontrol : t.control = .running loop none)
    (hcopiers : t.copiers = s.copiers.set index false)
    (hscheduled : t.partsFrgCopyInFlightCopiedOrFailed = s.partsFrgCopyInFlightCopiedOrFailed)
    (hflight : t.partsFrgCopyInFlight = s.partsFrgCopyInFlight - 1)
    (hfinished : t.partsFragmentCopiedOrFailed = s.partsFragmentCopiedOrFailed + 1)
    (hstarted : t.started = s.started)
    (hreported : ∀ i, i = index ∨ i ∈ s.copied ∨ i ∈ s.failed → i ∈ t.copied ∨ i ∈ t.failed)
    (hstate : t.actionState = .writeFailed) (hfailed : t.failed ≠ []) (hnext : t.nextCalls = 0)
    (hresponses : t.responses = if t.partsFrgCopyInFlight = 0 then 1 else 0)
    (hwaiting : ∀ i, loop = some i → c.startsResponse = true → t.responses = 0)
    (hfault : t.faults = []) : Inv c t := by
  refine inv_report hs hcontrol hcopiers hscheduled hflight hfinished hstarted hreported ?_
    (by simp [hstate]) (by simp [hstate]) ?_ hwaiting hfault
  · intro i hl h
    have := hlast i hl
    omega
  · simp only [Called, hstate]
    exact ⟨hnext, hfailed, hresponses⟩

theorem Pending.unstarted_zero : unstarted c s = 0 := by
  rcases hs.control with ⟨h, -⟩ | h
  · rw [unstarted, h]
  · rw [unstarted, h]
    cases loop with
    | none => rfl
    | some i => exact Nat.sub_eq_zero_of_le (hlast i rfl).ge

theorem Pending.due :
    (c.totalObjects : Int) = s.partsFragmentCopiedOrFailed + 1 ∨ s.partsFrgCopyInFlight - 1 = 0 ↔
      s.inFlight = 1 := by
  have hcount := count_set_false hs.running
  have hinFlight : s.inFlight = s.copiers.count true := rfl
  have hun := hs.unstarted_zero hlast
  have hsched := hs.inv.scheduled
  have hflight := hs.inv.inFlight
  have hfin := hs.inv.finished
  have hschedLe := hs.inv.scheduledLe
  rw [hun] at hsched hflight
  omega

theorem inv_copyPartFragmentFailed
    (hquiet : ∀ i, loop = some i → s.inFlight = 1 → c.startsResponse = false) :
    Inv c (copyPartFragmentFailed c s loop index) := by
  obtain ⟨-, hnext, hresp⟩ := hs.notCalled
  have hdue := hs.due hlast
  have hcount := count_set_false hs.running
  have hinFlight : s.inFlight = s.copiers.count true := rfl
  have hflight := hs.inv.inFlight
  have hun := hs.unstarted_zero hlast
  have hmem : ∀ i, i = index ∨ i ∈ s.copied ∨ i ∈ s.failed →
      i ∈ s.copied ∨ i ∈ s.failed ++ [index] := by
    rintro i (rfl | h | h)
    · simp
    · exact Or.inl h
    · simp [h]
  rw [copyPartFragmentFailed]
  simp only
  split
  · next h =>
      have hone := hdue.mp h
      rw [sendResponseToS3Client_eq (by simp only [State.inFlight]; omega)]
      refine inv_report_failed hs hlast rfl rfl rfl rfl rfl rfl hmem rfl (by simp) hnext ?_ ?_
        hs.inv.noFault
      · simp only
        rw [if_pos (by omega)]
        omega
      · intro i hl hstarts
        rw [hquiet i hl hone] at hstarts
        cases hstarts
  · next h =>
      refine inv_report_failed hs hlast rfl rfl rfl rfl rfl rfl hmem rfl (by simp) hnext ?_
        (fun _ _ _ => hresp) hs.inv.noFault
      simp only [hresp]
      rw [if_neg (fun h0 => h (Or.inr h0))]

end

theorem inv_success_failed (hstate : s.actionState = .writeFailed) :
    Inv c (copyPartFragmentSuccess c s loop index) := by
  obtain ⟨-, hnext, hresp⟩ := hs.notCalled
  -- the loop starts nothing after a failure
  have hevent : loop = none := by
    rcases hs.control with ⟨-, h⟩ | h
    · exact h
    · cases loop with
      | none => rfl
      | some i => exact absurd hstate (hs.inv.startingOk i index h)
  have hlast : ∀ i, loop = some i → i + 1 = c.parallel := by simp [hevent]
  have hdue := hs.due hlast
  have hcount := count_set_false hs.running
  have hinFlight : s.inFlight = s.copiers.count true := rfl
  have hflight := hs.inv.inFlight
  have hun := hs.unstarted_zero hlast
  have hcalled := hs.inv.called
  simp only [Called, hstate] at hcalled
  have hmem : ∀ i, i = index ∨ i ∈ s.copied ∨ i ∈ s.failed →
      i ∈ s.copied ++ [index] ∨ i ∈ s.failed := by
    rintro i (rfl | h | h)
    · simp
    · simp [h]
    · exact Or.inr h
  rw [copyPartFragmentSuccess]
  simp only
  rw [if_pos hstate]
  split
  · next h =>
      have hone := hdue.mp h
      rw [sendResponseToS3Client_eq (by simp only [State.inFlight]; omega)]
      refine inv_report_failed hs hlast rfl rfl rfl rfl rfl rfl hmem hstate hcalled.2.1 hnext ?_
        (by simp [hevent]) hs.inv.noFault
      simp only
      rw [if_pos (by omega)]
      omega
  · next h =>
      refine inv_report_failed hs hlast rfl rfl rfl rfl rfl rfl hmem hstate hcalled.2.1 hnext ?_
        (by simp [hevent]) hs.inv.noFault
      simp only [hresp]
      rw [if_neg (fun h0 => h (Or.inr h0))]

end

theorem next_eq (h : s.inFlight = 0) :
    next s = { s with nextCalls := s.nextCalls + 1 } := by
  have hnote : s.note (s.inFlight ≠ 0) .endedWithCopyInFlight = s := by simp [State.note, h]
  rw [next, hnote]

theorem inv_success (hs : Pending c s loop index)
    (hloop : ∀ i, loop = some i → i + 1 = c.parallel ∨ c.totalObjects ≤ c.maxParallelCopy)
    (hstate : s.actionState = .newObjOidCreated) :
    Inv c (copyPartFragmentSuccess c s loop index) := by
  obtain ⟨-, hnext, hresp⟩ := hs.notCalled
  have hi := hs.inv
  have hcount := count_set_false hs.running
  have hinFlight : s.inFlight = s.copiers.count true := rfl
  have hflight := hi.inFlight
  have hsched := hi.scheduled
  have hfin := hi.finished
  have hschedLe := hi.scheduledLe
  have hflightLe := hi.inFlightLe
  have hfull := hi.full hstate
  have hcalled := hi.called
  simp only [Called, hstate] at hcalled
  have hmem : ∀ i, i = index ∨ i ∈ s.copied ∨ i ∈ s.failed →
      i ∈ s.copied ++ [index] ∨ i ∈ s.failed := by
    rintro i (rfl | h | h)
    · simp
    · simp [h]
    · exact Or.inr h
  have hnone := hi.noneFailed (by simp [hstate])
  rw [copyPartFragmentSuccess]
  simp only
  rw [if_neg (by simp [hstate])]
  split
  · next hlast =>
      rw [next_eq (by simp only [State.inFlight]; omega)]
      refine inv_report hs rfl rfl rfl rfl rfl rfl hmem (by simp) (by simp) (fun _ => hnone) ?_
        (fun _ _ _ => hresp) hi.noFault
      exact ⟨by simp [hnext], hresp, hlast.symm⟩
  · next hmore =>
      split
      · next hroom =>
          have hlast : ∀ i, loop = some i → i + 1 = c.parallel := by
            intro i hl
            obtain ⟨hlt, hbatch⟩ := hs.inLoop hl
            rcases hloop i hl with h | h
            · exact h
            · by_contra hne
              have hall := (hbatch (by omega)).1
              rw [parallel_eq_total h] at hall
              omega
          have hun := hs.unstarted_zero hlast
          refine Ready.inv (u := 0) ?_ ?_ ?_ (fun _ => rfl)
          · refine ⟨hstate, ?_, ?_, ?_, ?_, ?_, ?_, ?_,
              fun i h => hmem i (reported_set hi.reported i h), hnone, ⟨hnext, hresp⟩, hi.noFault⟩
            · simpa using hi.started
            · simp only [length_set]
              omega
            · simp only [State.inFlight]
              omega
            · simp only [State.inFlight, length_set]
              omega
            · simp only
              omega
            · simp only
              omega
            · simp only
              omega
          · simp only [length_set]
            omega
          · intro i hl
            have := hlast i hl
            omega
      · next hroom =>
          refine inv_report hs rfl rfl rfl rfl rfl rfl hmem (by simp [hstate]) ?_ (fun _ => hnone) ?_
            (fun _ _ _ => hresp) hi.noFault
          · intro _
            simp only
            omega
          · simp only [Called, hstate]
            exact ⟨hnext, hresp, by omega⟩

/-! ### The run -/

theorem startResponse_eq (h : s.responses = 0) :
    startResponse s = { s with responseStarted := true } := by
  have hnote : s.note (s.responses ≠ 0) .startResponseAfterResponse = s := by
    simp [State.note, h]
  rw [startResponse, hnote]

theorem Inv.idle (hs : Inv c s) (hun : unstarted c s = 0)
    (ht : t = { s with control := .idle } ∨
      t = { s with control := .idle, responseStarted := true }) : Inv c t := by
  have hsched := hs.scheduled
  have hflight := hs.inFlight
  rw [hun] at hsched hflight
  rcases ht with rfl | rfl
  · exact ⟨by simp, hs.started, by simp, by simp, by simp, by simp, hsched, hflight, hs.finished,
      hs.scheduledLe, hs.inFlightLe, hs.full, hs.reported, hs.noneFailed, hs.called, hs.noFault⟩
  · exact ⟨by simp, hs.started, by simp, by simp, by simp, by simp, hsched, hflight, hs.finished,
      hs.scheduledLe, hs.inFlightLe, hs.full, hs.reported, hs.noneFailed, hs.called, hs.noFault⟩

theorem Inv.ready (hs : Inv c s) {k : Option Nat} (hcontrol : s.control = .running (some i) k)
    (hmore : i + 1 < c.parallel) : Ready c s (c.parallel - (i + 2)) ∧ s.copiers.length = i + 1 := by
  obtain ⟨-, hbatch⟩ := hs.inLoop i k hcontrol
  obtain ⟨hall, hok⟩ := hbatch hmore
  have hun : unstarted c s = c.parallel - (i + 1) := by rw [unstarted, hcontrol]
  have hle := parallel_le c
  have hsched := hs.scheduled
  have hflight := hs.inFlight
  have hfin := hs.finished
  have hcalled := hs.called
  have hstate : s.actionState = .newObjOidCreated := by
    unfold Called at hcalled
    split at hcalled
    · assumption
    · omega
    · contradiction
  simp only [Called, hstate] at hcalled
  refine ⟨⟨hstate, hs.started, by omega, by omega, hfin, hs.scheduledLe, hs.inFlightLe,
    hs.full hstate, hs.reported, hs.noneFailed hok, ⟨hcalled.1, hcalled.2.1⟩, hs.noFault⟩, ?_⟩
  omega

theorem inv_onReturn (hs : Inv c s) {k : Option Nat} (hcontrol : s.control = .running loop k) :
    Inv c (onReturn c s loop) := by
  cases loop with
  | none => exact hs.idle (by rw [unstarted, hcontrol]) (Or.inl rfl)
  | some i =>
    rw [onReturn]
    split
    · next hmore =>
        obtain ⟨hready, hlen⟩ := hs.ready hcontrol hmore
        refine hready.inv hlen.symm ?_ (by simp)
        intro j hj
        obtain rfl := some.inj hj
        exact ⟨hmore, rfl, fun _ => (hs.inLoop i k hcontrol).2 hmore |>.1⟩
    · next hend =>
        have hun : unstarted c s = 0 := by
          rw [unstarted, hcontrol]
          exact Nat.sub_eq_zero_of_le (Nat.le_of_not_lt hend)
        split
        · next hstarts =>
            rw [startResponse_eq (hs.waiting i k hcontrol hstarts)]
            exact hs.idle hun (Or.inr rfl)
        · exact hs.idle hun (Or.inl rfl)

theorem inv_callback {s' : State} {e : Event} (hs : Pending c s loop index)
    (he : e.index = some index) (hok : loop = none ∨ Orderly c s e)
    (h : callback c s loop e = some s') : Inv c s' := by
  have hcontrol : ∀ i, loop = some i → s.control = .running (some i) (some index) := by
    intro i hl
    rcases hs.control with ⟨-, h⟩ | h
    · rw [h] at hl
      cases hl
    · rw [h, hl]
  cases e with
  | success j =>
    obtain rfl : j = index := some.inj he
    rw [callback, some.injEq] at h
    rw [← h]
    by_cases hstate : s.actionState = .writeFailed
    · exact inv_success_failed hs hstate
    · refine inv_success hs ?_ ?_
      · intro i hl
        rcases hok with hn | ho
        · rw [hn] at hl
          cases hl
        · simpa [Orderly, hcontrol i hl] using ho
      · have hne := hs.notCalled.1
        cases hcase : s.actionState with
        | newObjOidCreated => rfl
        | writeComplete => exact absurd hcase hne
        | writeFailed => exact absurd hcase hstate
  | failed j =>
    obtain rfl : j = index := some.inj he
    rw [callback, some.injEq] at h
    rw [← h]
    have hboth : ∀ i, loop = some i →
        i + 1 = c.parallel ∧ (s.inFlight = 1 → c.startsResponse = false) := by
      intro i hl
      rcases hok with hn | ho
      · rw [hn] at hl
        cases hl
      · simpa [Orderly, hcontrol i hl] using ho
    exact inv_copyPartFragmentFailed hs (fun i hl => (hboth i hl).1)
      (fun i hl => (hboth i hl).2)
  | «return» => cases he

theorem inv_step {s' : State} (hs : Inv c s) (e : Event) (hok : Orderly c s e)
    (h : step c s e = some s') : Inv c s' := by
  rw [step] at h
  split at h
  · next hcontrol =>
      split at h
      · next index he =>
          split at h
          · next hrun => exact inv_callback ⟨hs, hrun, Or.inl ⟨hcontrol, rfl⟩⟩ he (Or.inl rfl) h
          · cases h
      · cases h
  · next loop starting hcontrol =>
      split at h
      · next index he =>
          split at h
          · next hrun =>
              rw [hrun] at hcontrol
              exact inv_callback ⟨hs, hs.starting _ _ hcontrol, Or.inr hcontrol⟩ he (Or.inr hok) h
          · cases h
      · rw [← some.inj h]
        exact inv_onReturn hs hcontrol
  · cases h

/-- **Every part is copied once, as long as the callbacks during the first batch are orderly.** -/
theorem copies_exactly (hmax : 1 ≤ c.maxParallelCopy) (htotal : 1 ≤ c.totalObjects) {s : State}
    (h : Runs.Reachable (step c) (Orderly c) (start c) s) : Exact c s := by
  have hs : Inv c s :=
    h.invariant (inv_start hmax htotal) fun _ e _ hi hok hstep => inv_step hi e hok hstep
  exact hs.exact (parallel_pos hmax htotal)

/-- Four small parts, three at a time. -/
def fourParts : Config := { maxParallelCopy := 3, totalObjects := 4, maxPartSize := 4096 }

/-- All four are copied, the last one after the first has made room for it. -/
theorem copies_exactly_fourParts :
    ∃ s, s.nextCalls = 1 ∧ s.started = [0, 1, 2, 3] ∧ Exact fourParts s := by
  have h₀ : Runs.Reachable (step fourParts) (Orderly fourParts) (start fourParts)
    (start fourParts) := .start
  have h₁ := h₀.step .return trivial rfl
  have h₂ := h₁.step .return trivial rfl
  have h₃ := h₂.step .return trivial rfl
  have h₄ := h₃.step (.success 0) trivial rfl
  have h₅ := h₄.step .return trivial rfl
  have h₆ := h₅.step (.success 2) trivial rfl
  have h₇ := h₆.step .return trivial rfl
  have h₈ := h₇.step (.success 1) trivial rfl
  have h₉ := h₈.step .return trivial rfl
  have h₁₀ := h₉.step (.success 3) trivial rfl
  have h₁₁ := h₁₀.step .return trivial rfl
  exact ⟨_, rfl, rfl, copies_exactly (by decide) (by decide) h₁₁⟩

/-- The copy of the first part fails to start, and the loop starts the second. -/
theorem not_exact_firstFails :
    ¬ ∀ (c : Config), 1 ≤ c.maxParallelCopy → 1 ≤ c.totalObjects → ∀ s,
      Runs.Reachable (step c) (fun _ _ => True) (start c) s → Exact c s := by
  intro h
  have h₀ : Runs.Reachable (step fourParts) (fun _ _ => True) (start fourParts)
    (start fourParts) := .start
  have hrun := Runs.reachable_of_run [.failed 0, .return] h₀ (by simp [Runs.AllOk]) rfl
  have hfault := (h fourParts (by decide) (by decide) _ hrun).noFault
  revert hfault
  decide

end S3CopyObjectAction

end CortxS3
