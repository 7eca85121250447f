/-
What a save in batches puts, `save_extended_metadata` and `save_probable_list_metadata`.

The size of a batch is `kv_to_be_processed` when that is between 50 and 100, and 50 otherwise
(`howManyKvToWrite_eq`): it is compared with the limit after the limit was taken off.  So the batches
are of 50 pairs up to the last one, which is of 51 to 100 (`step_full`, `step_last`), and a save of more
than 50 pairs has a call above the limit (`exists_call_above`).

The save of an object's fragments goes on while the number of pairs put is below the number of parts.
The last batch begins at `lastOffset`.  A save with no more parts than that ends before it
(`short_of_few`), one with more parts than pairs goes on behind the end and fails an assertion
(`asserted_of_many`), and in between every pair is put and success is reported (`saves_of_between`).  An
offset of 2^31 and more is negative for `put_keyval_impl`.
-/
import CortxS3.Server.BatchedSave
import CortxS3.Proofs.SaveAndLoadLimits

namespace CortxS3

open List S3ObjectExtendedMetadata Until

namespace BatchedSave

open S3PostCompleteAction (howManyKvToWrite maxPutMultipartExtendedEntries)

/-! ### The size of a batch -/

theorem howManyKvToWrite_eq (size total : Nat) :
    howManyKvToWrite size total =
      if 50 ≤ kvToBeProcessed size total ∧ kvToBeProcessed size total ≤ 100 then
        kvToBeProcessed size total
      else 50 := by
  obtain ⟨kv, hkv⟩ : ∃ kv, kv = kvToBeProcessed size total := ⟨_, rfl⟩
  have hlt : kv < 2 ^ 32 := by
    rw [hkv]
    exact Nat.mod_lt _ (by decide)
  unfold howManyKvToWrite howManyKvUpTo maxPutMultipartExtendedEntries
  dsimp only
  rw [← hkv, show (size + (2 ^ 32 - total)) % 2 ^ 32 = kv from hkv.symm]
  by_cases hbetween : 50 ≤ kv ∧ kv ≤ 100
  · rw [if_pos hbetween, if_neg (by omega)]
  · rw [if_neg hbetween, if_pos (by omega)]

theorem howManyKvToWrite_bounds (size total : Nat) :
    50 ≤ howManyKvToWrite size total ∧ howManyKvToWrite size total ≤ 100 := by
  rw [howManyKvToWrite_eq]
  split <;> omega

variable {size total : Nat}

theorem kvToBeProcessed_eq (hle : total ≤ size) (hsize : size < 2 ^ 32) :
    kvToBeProcessed size total = size - total := by
  unfold kvToBeProcessed
  omega

theorem howManyKvToWrite_of_far (hfar : total + 100 < size) (hsize : size < 2 ^ 32) :
    howManyKvToWrite size total = 50 := by
  rw [howManyKvToWrite_eq, kvToBeProcessed_eq (by omega) hsize, if_neg (by omega)]

theorem howManyKvToWrite_of_near (hover : total + 50 < size) (hnear : size ≤ total + 100)
    (hsize : size < 2 ^ 32) : howManyKvToWrite size total = size - total := by
  rw [howManyKvToWrite_eq, kvToBeProcessed_eq (by omega) hsize, if_pos (by omega)]

/-- Where the last batch begins. -/
def lastOffset (size : Nat) : Nat := 50 * ((size - 1) / 50 - 1)

theorem lastOffset_bounds (h : 50 < size) :
    lastOffset size + 50 < size ∧ size ≤ lastOffset size + 100 := by
  unfold lastOffset
  omega

/-! ### One batch -/

/-- The keys are not empty. -/
def Keyed (keyValues : KvList) : Prop := ∀ kv ∈ keyValues, kv.1 ≠ []

variable {keyValues : KvList}

theorem asserts_iff (hkeys : Keyed keyValues) (offset howMany : Nat) :
    asserts keyValues offset howMany = true ↔
      howMany ≠ 0 ∧ offset < keyValues.length ∧ howMany ≤ keyValues.length := by
  unfold asserts
  rw [decide_eq_true_iff]
  constructor
  · rintro ⟨hmany, hoffset, hle, -⟩
    exact ⟨hmany, hoffset, hle⟩
  · rintro ⟨hmany, hoffset, hle⟩
    exact ⟨hmany, hoffset, hle, fun kv hkv => hkeys kv
      (drop_subset _ _ (take_subset _ _ hkv))⟩

/-- The batches of 50 pairs that come first. -/
def fullBatches (keyValues : KvList) (k : Nat) : List Event :=
  (List.range k).map fun i =>
    .putPartialKeyval (50 * i) 50 (some ((keyValues.drop (50 * i)).take 50))

/-- The state after as many of them. -/
def stateAfter (keyValues : KvList) (k : Nat) : State :=
  { totalProcessedCount := 50 * k, events := fullBatches keyValues k }

theorem fullBatches_succ (keyValues : KvList) (k : Nat) :
    fullBatches keyValues (k + 1) = fullBatches keyValues k ++
      [.putPartialKeyval (50 * k) 50 (some ((keyValues.drop (50 * k)).take 50))] := by
  unfold fullBatches
  rw [range_succ, map_append]
  rfl

variable {bound : Nat} {s : State}

theorem savePartial_of_put (hkeys : Keyed keyValues) {howMany : Nat}
    (hmany : howManyKvToWrite keyValues.length s.totalProcessedCount = howMany)
    (hoffset : s.totalProcessedCount < 2 ^ 31) (hlt : s.totalProcessedCount < keyValues.length)
    (hle : howMany ≤ keyValues.length) :
    savePartial keyValues bound s = savePartialSuccessful bound howMany
      { s with events := s.events ++ [.putPartialKeyval s.totalProcessedCount howMany
          (some ((keyValues.drop s.totalProcessedCount).take howMany))] } := by
  have hpos : howMany ≠ 0 := by
    have hbounds := howManyKvToWrite_bounds keyValues.length s.totalProcessedCount
    omega
  have hassert := (asserts_iff hkeys s.totalProcessedCount howMany).mpr ⟨hpos, hlt, hle⟩
  unfold savePartial pairsFrom
  simp only [hmany, hassert, if_pos hoffset, Option.isSome_some, if_true]

variable {k : Nat}

theorem step_full (hkeys : Keyed keyValues) (hsize : keyValues.length < 2 ^ 32)
    (hfar : 50 * k + 100 < keyValues.length) (hoffset : 50 * k < 2 ^ 31)
    (hbound : 50 * (k + 1) < bound) :
    savePartial keyValues bound (stateAfter keyValues k) = .next (stateAfter keyValues (k + 1)) := by
  have hmany : howManyKvToWrite keyValues.length (stateAfter keyValues k).totalProcessedCount = 50 :=
    howManyKvToWrite_of_far hfar hsize
  have htotal : (50 * k + 50) % 2 ^ 32 = 50 * (k + 1) := by omega
  rw [savePartial_of_put hkeys hmany hoffset (show 50 * k < keyValues.length by omega) (by omega)]
  unfold savePartialSuccessful stateAfter
  simp only [htotal, if_pos hbound, fullBatches_succ]

/-- The events of a save up to the last batch. -/
def allBatches (keyValues : KvList) : List Event :=
  fullBatches keyValues ((keyValues.length - 1) / 50 - 1) ++
    [.putPartialKeyval (lastOffset keyValues.length)
      (keyValues.length - lastOffset keyValues.length)
      (some (keyValues.drop (lastOffset keyValues.length)))]

theorem step_last (hkeys : Keyed keyValues) (bound : Nat) (hover : 50 < keyValues.length)
    (hsize : keyValues.length < 2 ^ 32) (hoffset : lastOffset keyValues.length < 2 ^ 31) :
    savePartial keyValues bound (stateAfter keyValues ((keyValues.length - 1) / 50 - 1)) =
      if keyValues.length < bound then
        .next { totalProcessedCount := keyValues.length, events := allBatches keyValues }
      else .done { events := allBatches keyValues ++ [.success], ending := .quiet } := by
  obtain ⟨hlow, hhigh⟩ := lastOffset_bounds hover
  obtain ⟨offset, hdef⟩ : ∃ offset, offset = lastOffset keyValues.length := ⟨_, rfl⟩
  have hat : (stateAfter keyValues ((keyValues.length - 1) / 50 - 1)).totalProcessedCount = offset :=
    hdef.symm
  have hmany : howManyKvToWrite keyValues.length offset = keyValues.length - offset :=
    howManyKvToWrite_of_near (by omega) (by omega) hsize
  rw [savePartial_of_put hkeys (by rw [hat]) (by rw [hat]; omega) (by rw [hat]; omega)
    (by rw [hmany]; omega)]
  have htotal : (offset + (keyValues.length - offset)) % 2 ^ 32 = keyValues.length := by omega
  have htake : (keyValues.drop offset).take (keyValues.length - offset) = keyValues.drop offset :=
    take_of_length_le (by rw [length_drop])
  unfold savePartialSuccessful allBatches
  rw [hat, hmany, htake, ← hdef]
  dsimp only
  rw [htotal]
  rfl

/-! ### The whole run -/

theorem reaches_stateAfter (hkeys : Keyed keyValues) (bound : Nat)
    (hsize : keyValues.length < 2 ^ 32) :
    ∀ k, 50 * k ≤ lastOffset keyValues.length → 50 * k < bound → 50 * k < 2 ^ 31 + 50 →
      Reaches (savePartial keyValues bound) {} (stateAfter keyValues k) := by
  intro k
  induction k with
  | zero =>
    intro _ _ _
    exact Reaches.start
  | succ k ih =>
    intro hlast hbound hoffset
    have hover : 50 < keyValues.length := by
      unfold lastOffset at hlast
      omega
    have hbounds := lastOffset_bounds hover
    refine Reaches.step (ih (by omega) (by omega) (by omega))
      (step_full hkeys hsize (by omega) (by omega) hbound)

theorem save_of_few (hpos : 0 < keyValues.length) (hfew : keyValues.length ≤ 50) :
    save keyValues = .done { events := [.putKeyval keyValues, .success], ending := .quiet } := by
  unfold save
  exact if_pos ⟨hpos, hfew⟩

theorem save_of_many (hmany : 50 < keyValues.length) : save keyValues = .next {} := by
  unfold save
  rw [if_neg (fun h => absurd h.2 (not_le.mpr hmany)),
    if_pos (show keyValues.length > maxPutMultipartExtendedEntries from hmany)]

/-- A batch is put, or the save comes to an end that is not quiet. -/
theorem savePartial_cases (keyValues : KvList) (bound : Nat) (s : State) :
    (∃ w, savePartial keyValues bound s = .done w ∧ w.ending ≠ .quiet) ∨
      s.totalProcessedCount < 2 ^ 31 ∧
        savePartial keyValues bound s =
          savePartialSuccessful bound (howManyKvToWrite keyValues.length s.totalProcessedCount)
            { s with events := s.events ++ [.putPartialKeyval s.totalProcessedCount
                (howManyKvToWrite keyValues.length s.totalProcessedCount)
                (some ((keyValues.drop s.totalProcessedCount).take
                  (howManyKvToWrite keyValues.length s.totalProcessedCount)))] } := by
  unfold savePartial pairsFrom
  dsimp only
  split
  · by_cases hoffset : s.totalProcessedCount < 2 ^ 31
    · right
      refine ⟨hoffset, ?_⟩
      rw [if_pos hoffset, if_pos Option.isSome_some]
    · rw [if_neg hoffset, Option.isSome_none, if_neg Bool.false_ne_true]
      exact Or.inl ⟨_, rfl, fun h => Ending.noConfusion h⟩
  · exact Or.inl ⟨_, rfl, fun h => Ending.noConfusion h⟩

theorem savePartialSuccessful_eq (bound processedCount : Nat) (s : State) :
    ∃ t : State, t.totalProcessedCount = (s.totalProcessedCount + processedCount) % 2 ^ 32 ∧
      t.events = s.events ∧
      savePartialSuccessful bound processedCount s =
        if t.totalProcessedCount < bound then .next t
        else .done { events := t.events ++ [.success], ending := .quiet } :=
  ⟨{ s with totalProcessedCount := (s.totalProcessedCount + processedCount) % 2 ^ 32 },
    rfl, rfl, rfl⟩

/-- **Every save comes to an end.**  The number of pairs put grows, and ends at an offset that is no
`int` at the latest. -/
theorem exists_saves (keyValues : KvList) (bound : Nat) : ∃ w, Saves keyValues bound w := by
  have hends : ∀ (d : Nat) (s : State), 2 ^ 31 + 100 ≤ s.totalProcessedCount + d →
      ∃ w, Ends (savePartial keyValues bound) s w := by
    intro d
    induction d with
    | zero =>
      intro s hd
      rcases savePartial_cases keyValues bound s with ⟨w, hdone, -⟩ | ⟨hlt, -⟩
      · exact ⟨w, (ends_iff_of_done hdone w).mpr rfl⟩
      · omega
    | succ d ih =>
      intro s hd
      rcases savePartial_cases keyValues bound s with ⟨w, hdone, -⟩ | ⟨hlt, hput⟩
      · exact ⟨w, (ends_iff_of_done hdone w).mpr rfl⟩
      · have hmany := howManyKvToWrite_bounds keyValues.length s.totalProcessedCount
        obtain ⟨t, htotal, -, ht⟩ := savePartialSuccessful_eq bound
          (howManyKvToWrite keyValues.length s.totalProcessedCount)
          { s with events := s.events ++ [.putPartialKeyval s.totalProcessedCount
              (howManyKvToWrite keyValues.length s.totalProcessedCount)
              (some ((keyValues.drop s.totalProcessedCount).take
                (howManyKvToWrite keyValues.length s.totalProcessedCount)))] }
        rw [ht] at hput
        dsimp only at htotal
        by_cases hbound : t.totalProcessedCount < bound
        · rw [if_pos hbound] at hput
          obtain ⟨w, hw⟩ := ih t (by omega)
          exact ⟨w, (ends_iff_of_next hput w).mpr hw⟩
        · rw [if_neg hbound] at hput
          exact ⟨_, (ends_iff_of_done hput _).mpr rfl⟩
  unfold Saves
  cases hsave : save keyValues with
  | next s => exact hends (2 ^ 31 + 100) s (by omega)
  | done w => exact ⟨w, rfl⟩

variable {w : Result}

theorem saves_unique {w' : Result} (h : Saves keyValues bound w) (h' : Saves keyValues bound w') :
    w' = w := by
  unfold Saves at h h'
  cases hsave : save keyValues with
  | next s =>
    rw [hsave] at h h'
    exact Ends.unique h h'
  | done v =>
    rw [hsave] at h h'
    exact h'.symm.trans h

theorem saves_iff_of_few (hpos : 0 < keyValues.length) (hfew : keyValues.length ≤ 50) (w : Result) :
    Saves keyValues bound w ↔
      { events := [.putKeyval keyValues, .success], ending := .quiet } = w := by
  unfold Saves
  rw [save_of_few hpos hfew]
  exact Iff.rfl

theorem saves_iff_of_many (hmany : 50 < keyValues.length) (w : Result) :
    Saves keyValues bound w ↔ Ends (savePartial keyValues bound) {} w := by
  unfold Saves
  rw [save_of_many hmany]
  exact Iff.rfl

theorem saves_iff_of_reaches (hmany : 50 < keyValues.length)
    (hreaches : Reaches (savePartial keyValues bound) {} s) (w : Result) :
    Saves keyValues bound w ↔ Ends (savePartial keyValues bound) s w := by
  rw [saves_iff_of_many hmany]
  induction hreaches with
  | start => exact Iff.rfl
  | step _ hstep ih => exact ih.trans (ends_iff_of_next hstep w)

/-! ### Every pair, once -/

/-- The pairs a call puts. -/
def Event.pairs : Event → KvList
  | .putKeyval pairs => pairs
  | .putPartialKeyval _ _ pairs => pairs.getD []
  | .success => []

/-- Where they begin. -/
def Event.offset : Event → Nat
  | .putKeyval _ => 0
  | .putPartialKeyval offset _ _ => offset
  | .success => 0

/-- Every call begins where the pairs of the ones before it end. -/
def Contiguous : Nat → List Event → Prop
  | _, [] => True
  | n, e :: rest => e.offset = n ∧ Contiguous (n + e.pairs.length) rest

/-- Every pair is put once, in contiguous batches, and then success is reported once. -/
def WritesEvery (keyValues : KvList) (events : List Event) : Prop :=
  ∃ calls, events = calls ++ [.success] ∧ Event.success ∉ calls ∧ Contiguous 0 calls ∧
    calls.flatMap Event.pairs = keyValues

theorem contiguous_append (l' : List Event) :
    ∀ (l : List Event) (n : Nat), Contiguous n (l ++ l') ↔
      Contiguous n l ∧ Contiguous (n + (l.flatMap Event.pairs).length) l' := by
  intro l
  induction l with
  | nil =>
    intro n
    simp [Contiguous]
  | cons e rest ih =>
    intro n
    rw [cons_append, Contiguous, Contiguous, ih, flatMap_cons, length_append,
      and_assoc, Nat.add_assoc]

theorem fullBatches_pairs (h : 50 * k ≤ keyValues.length) :
    (fullBatches keyValues k).flatMap Event.pairs = keyValues.take (50 * k) := by
  induction k with
  | zero => rfl
  | succ k ih =>
    rw [fullBatches_succ, flatMap_append, ih (by omega)]
    show keyValues.take (50 * k) ++ ((keyValues.drop (50 * k)).take 50 ++ []) = _
    rw [append_nil, Nat.mul_succ, take_add]

theorem fullBatches_contiguous (h : 50 * k ≤ keyValues.length) :
    Contiguous 0 (fullBatches keyValues k) := by
  induction k with
  | zero => trivial
  | succ k ih =>
    rw [fullBatches_succ, contiguous_append]
    refine ⟨ih (by omega), ?_, trivial⟩
    rw [fullBatches_pairs (by omega), length_take]
    show 50 * k = _
    omega

theorem success_notMem_fullBatches (keyValues : KvList) (k : Nat) :
    Event.success ∉ fullBatches keyValues k := by
  unfold fullBatches
  simp

theorem allBatches_writesEvery (hmany : 50 < keyValues.length) :
    WritesEvery keyValues (allBatches keyValues ++ [.success]) := by
  have hbounds := lastOffset_bounds hmany
  have hle : 50 * ((keyValues.length - 1) / 50 - 1) ≤ keyValues.length := by
    show lastOffset keyValues.length ≤ _
    omega
  refine ⟨allBatches keyValues, rfl, ?_, ?_, ?_⟩
  · unfold allBatches
    simp [success_notMem_fullBatches]
  · unfold allBatches
    rw [contiguous_append]
    refine ⟨fullBatches_contiguous hle, ?_, trivial⟩
    rw [fullBatches_pairs hle, length_take]
    show lastOffset keyValues.length = 0 + min (lastOffset keyValues.length) _
    omega
  · unfold allBatches
    rw [flatMap_append, fullBatches_pairs hle]
    show keyValues.take (lastOffset keyValues.length) ++
      (keyValues.drop (lastOffset keyValues.length) ++ []) = keyValues
    rw [append_nil, take_append_drop]

theorem WritesEvery.length {events : List Event} (h : WritesEvery keyValues events) :
    (events.flatMap Event.pairs).length = keyValues.length := by
  obtain ⟨calls, rfl, -, -, rfl⟩ := h
  rw [flatMap_append]
  show (calls.flatMap Event.pairs ++ []).length = _
  rw [append_nil]

/-! ### Where a save ends -/

theorem saves_of_between (hkeys : Keyed keyValues) (hmany : 50 < keyValues.length)
    (hlast : lastOffset keyValues.length < bound) (hbound : bound ≤ keyValues.length)
    (hoffset : lastOffset keyValues.length < 2 ^ 31) :
    Saves keyValues bound { events := allBatches keyValues ++ [.success], ending := .quiet } := by
  have hbounds := lastOffset_bounds hmany
  have hreaches := reaches_stateAfter hkeys bound (by omega)
    ((keyValues.length - 1) / 50 - 1) (le_refl _) hlast (Nat.lt_add_right 50 hoffset)
  rw [saves_iff_of_reaches hmany hreaches]
  refine (ends_iff_of_done ?_ _).mpr rfl
  rw [step_last hkeys bound hmany (by omega) hoffset, if_neg (not_lt.mpr hbound)]

theorem asserted_of_many (hkeys : Keyed keyValues) (hmany : 50 < keyValues.length)
    (hbound : keyValues.length < bound) (hoffset : lastOffset keyValues.length < 2 ^ 31)
    (hw : Saves keyValues bound w) : w.ending = .asserted := by
  have hbounds := lastOffset_bounds hmany
  have hreaches := reaches_stateAfter hkeys bound (by omega)
    ((keyValues.length - 1) / 50 - 1) (le_refl _) (by show lastOffset _ < _; omega)
    (Nat.lt_add_right 50 hoffset)
  have hnext := step_last hkeys bound hmany (by omega) hoffset
  rw [if_pos hbound] at hnext
  have hassert : asserts keyValues keyValues.length
      (howManyKvToWrite keyValues.length keyValues.length) = false := by
    rw [Bool.eq_false_iff]
    intro htrue
    have hlt := ((asserts_iff hkeys _ _).mp htrue).2.1
    omega
  rw [saves_iff_of_reaches hmany (hreaches.step hnext), ends_iff] at hw
  unfold savePartial at hw
  dsimp only at hw
  rw [if_neg (by rw [hassert]; exact Bool.false_ne_true)] at hw
  obtain rfl : _ = w := hw
  rfl

/-- What holds as long as the bound, or the first offset that is no `int`, is not reached. -/
structure Short (keyValues : KvList) (bound : Nat) (s : State) : Prop where
  count : (s.events.flatMap Event.pairs).length = s.totalProcessedCount
  below : s.totalProcessedCount < bound
  small : s.totalProcessedCount < 2 ^ 31 + 100
  batches : keyValues.length < 2 ^ 32 →
    50 ∣ s.totalProcessedCount ∧ s.totalProcessedCount ≤ lastOffset keyValues.length

/-- One batch of such a state stays short of the end. -/
theorem Short.put (h : Short keyValues bound s) (hmany : 50 < keyValues.length)
    (hreach : bound ≤ lastOffset keyValues.length ∨ 2 ^ 31 ≤ lastOffset keyValues.length)
    (hoffset : s.totalProcessedCount < 2 ^ 31) :
    s.totalProcessedCount + howManyKvToWrite keyValues.length s.totalProcessedCount <
        keyValues.length ∧
      s.totalProcessedCount + howManyKvToWrite keyValues.length s.totalProcessedCount <
        2 ^ 31 + 100 ∧
      (keyValues.length < 2 ^ 32 →
        50 ∣ s.totalProcessedCount + howManyKvToWrite keyValues.length s.totalProcessedCount ∧
        s.totalProcessedCount + howManyKvToWrite keyValues.length s.totalProcessedCount ≤
          lastOffset keyValues.length) := by
  have hbounds := lastOffset_bounds hmany
  have hhow := howManyKvToWrite_bounds keyValues.length s.totalProcessedCount
  have hbelow := h.below
  by_cases hsize : keyValues.length < 2 ^ 32
  · obtain ⟨hdvd, hle⟩ := h.batches hsize
    have hdvdLast : 50 ∣ lastOffset keyValues.length := Dvd.intro _ rfl
    have hbefore : s.totalProcessedCount + 50 ≤ lastOffset keyValues.length := by omega
    rw [howManyKvToWrite_of_far (by omega) hsize]
    refine ⟨by omega, by omega, fun _ => ⟨by omega, hbefore⟩⟩
  · exact ⟨by omega, by omega, fun hlt => absurd hlt hsize⟩

/-- **A bound that is reached before the last batch ends the save short of it.**  So does an offset
that is no `int`. -/
theorem short_of_few (hmany : 50 < keyValues.length) (hpos : 0 < bound)
    (hreach : bound ≤ lastOffset keyValues.length ∨ 2 ^ 31 ≤ lastOffset keyValues.length)
    (hw : Saves keyValues bound w) :
    w.ending = .quiet → (w.events.flatMap Event.pairs).length < keyValues.length := by
  have hstep : ∀ s, Short keyValues bound s →
      (∀ s', savePartial keyValues bound s = .next s' → Short keyValues bound s') ∧
      (∀ v, savePartial keyValues bound s = .done v →
        v.ending = .quiet → (v.events.flatMap Event.pairs).length < keyValues.length) := by
    intro s hs
    rcases savePartial_cases keyValues bound s with ⟨v, hdone, hending⟩ | ⟨hoffset, hput⟩
    · rw [hdone]
      refine ⟨fun s' hnext => (nomatch hnext), fun v' hv hquiet => ?_⟩
      cases hv
      exact absurd hquiet hending
    · obtain ⟨hlt, hsmall, hbatches⟩ := hs.put hmany hreach hoffset
      obtain ⟨n, hn⟩ : ∃ n, n = howManyKvToWrite keyValues.length s.totalProcessedCount := ⟨_, rfl⟩
      rw [← hn] at hput hlt hsmall hbatches
      obtain ⟨t, htotal, hevents, ht⟩ := savePartialSuccessful_eq bound n
        { s with events := s.events ++ [.putPartialKeyval s.totalProcessedCount n
            (some ((keyValues.drop s.totalProcessedCount).take n))] }
      have htotal' : t.totalProcessedCount = s.totalProcessedCount + n := by
        dsimp only at htotal
        omega
      have hcount : (t.events.flatMap Event.pairs).length = t.totalProcessedCount := by
        rw [hevents, flatMap_append, length_append, hs.count, htotal']
        show _ + ((keyValues.drop s.totalProcessedCount).take n ++ []).length = _
        rw [append_nil, length_take, length_drop]
        omega
      rw [hput, ht]
      by_cases hbound : t.totalProcessedCount < bound
      · rw [if_pos hbound]
        refine ⟨fun s' hnext => ?_, fun v hv => nomatch hv⟩
        cases hnext
        exact ⟨hcount, hbound, by omega, fun hsize => by rw [htotal']; exact hbatches hsize⟩
      · rw [if_neg hbound]
        refine ⟨fun s' hnext => (nomatch hnext), fun v hv _ => ?_⟩
        cases hv
        rw [flatMap_append]
        show (t.events.flatMap Event.pairs ++ []).length < _
        rw [append_nil, hcount, htotal']
        exact hlt
  have hstart : Short keyValues bound {} :=
    ⟨rfl, hpos, by decide, fun _ => ⟨Dvd.intro 0 rfl, Nat.zero_le _⟩⟩
  rw [saves_iff_of_many hmany] at hw
  exact Ends.of_invariant (fun s s' hs => (hstep s hs).1 s') (fun s v hs => (hstep s hs).2 v)
    hstart hw

/-! ### The fragments of an object -/

theorem ofWrites_ne_nil {ws : KvList} (h : ws ≠ []) : SortedMap.ofWrites ws ≠ [] := by
  obtain ⟨init, ⟨k, v⟩, rfl⟩ := eq_nil_or_concat ws |>.resolve_left h
  intro hnil
  have hget := SortedMap.get_set_self k v (SortedMap.ofWrites init)
  rw [concat_eq_append, SortedMap.ofWrites_concat] at hnil
  rw [hnil] at hget
  cases hget

theorem keyed_extendedEntries (codec : JsonCodec) (m : S3ObjectExtendedMetadata) :
    Keyed (m.getKvListOfExtendedEntries codec) := by
  intro kv hkv
  have hmem := SortedMap.mem_of_mem_ofWrites hkv
  unfold extendedEntries at hmem
  obtain ⟨part, -, hpart⟩ := mem_flatMap.mp hmem
  obtain ⟨frag, -, rfl⟩ := mem_map.mp hpart
  unfold entryKey prefixOfUniqueObject
  dsimp only
  split <;> simp

variable {m : S3ObjectExtendedMetadata}

theorem extendedEntries_pos (codec : JsonCodec) (hparts : m.extObjects ≠ [])
    (hfrags : ∀ p ∈ m.extObjects, p.2 ≠ []) : 0 < (m.getKvListOfExtendedEntries codec).length := by
  have hne : m.extendedEntries codec ≠ [] := by
    obtain ⟨part, rest, hext⟩ := exists_cons_of_ne_nil hparts
    obtain ⟨frag, frags, hfrag⟩ := exists_cons_of_ne_nil
      (hfrags part (by rw [hext]; exact mem_cons_self))
    unfold extendedEntries pairsOfPart
    rw [hext, zipIdx_cons, flatMap_cons, hfrag]
    exact append_ne_nil_of_left_ne_nil (cons_ne_nil _ _) _
  exact length_pos_of_ne_nil (ofWrites_ne_nil hne)

/-- **A save writes every fragment and reports success once, behind the last one, exactly when there
are up to 50, or the number of parts lies between where the last batch begins and the number of
fragments.**  The last batch must begin at an `int`. -/
theorem savesExtendedMetadata_writesEvery_iff (codec : JsonCodec) (m : S3ObjectExtendedMetadata)
    (hparts : m.extObjects ≠ []) (hfrags : ∀ p ∈ m.extObjects, p.2 ≠ []) :
    ∃ w, SavesExtendedMetadata codec m w ∧
      ((w.ending = .quiet ∧ WritesEvery (m.getKvListOfExtendedEntries codec) w.events) ↔
        (m.getKvListOfExtendedEntries codec).length ≤ 50 ∨
          lastOffset (m.getKvListOfExtendedEntries codec).length < m.extObjects.length ∧
          m.extObjects.length ≤ (m.getKvListOfExtendedEntries codec).length ∧
          lastOffset (m.getKvListOfExtendedEntries codec).length < 2 ^ 31) := by
  have hkeys := keyed_extendedEntries codec m
  have hpos := extendedEntries_pos codec hparts hfrags
  have hbound := length_pos_of_ne_nil hparts
  unfold SavesExtendedMetadata
  obtain ⟨keyValues, hkv⟩ : ∃ kvs, kvs = m.getKvListOfExtendedEntries codec := ⟨_, rfl⟩
  rw [← hkv] at hkeys hpos ⊢
  obtain ⟨w, hw⟩ := exists_saves keyValues m.extObjects.length
  refine ⟨w, hw, ?_⟩
  by_cases hfew : keyValues.length ≤ 50
  · obtain rfl := (saves_iff_of_few hpos hfew w).mp hw
    refine ⟨fun _ => Or.inl hfew, fun _ => ⟨rfl, [.putKeyval keyValues], rfl, ?_, ⟨rfl, trivial⟩, ?_⟩⟩
    · simp
    · simp [Event.pairs]
  · have hmany : 50 < keyValues.length := not_le.mp hfew
    constructor
    · rintro ⟨hquiet, hwrites⟩
      have hlength := hwrites.length
      refine Or.inr ⟨?_, ?_, ?_⟩
      · by_contra hlast
        have hshort := short_of_few hmany hbound (Or.inl (not_lt.mp hlast)) hw hquiet
        omega
      · by_contra hover
        by_cases hoffset : lastOffset keyValues.length < 2 ^ 31
        · rw [asserted_of_many hkeys hmany (not_le.mp hover) hoffset hw] at hquiet
          cases hquiet
        · have hshort := short_of_few hmany hbound (Or.inr (not_lt.mp hoffset)) hw hquiet
          omega
      · by_contra hoffset
        have hshort := short_of_few hmany hbound (Or.inr (not_lt.mp hoffset)) hw hquiet
        omega
    · rintro (hle | ⟨hlast, hover, hoffset⟩)
      · exact absurd hle hfew
      · obtain rfl := saves_unique hw (saves_of_between hkeys hmany hlast hover hoffset)
        exact ⟨rfl, allBatches_writesEvery hmany⟩

open S3ObjectExtendedMetadata (fragmentCodec uploaded)

/-- An object of two parts with a fragment each. -/
theorem savesExtendedMetadata_writesEvery_iff_twoParts :
    ∃ w, SavesExtendedMetadata fragmentCodec (uploaded 2) w ∧ w.ending = .quiet ∧
      WritesEvery ((uploaded 2).getKvListOfExtendedEntries fragmentCodec) w.events := by
  obtain ⟨w, hw, hiff⟩ := savesExtendedMetadata_writesEvery_iff fragmentCodec (uploaded 2)
    (by decide) (by decide)
  exact ⟨w, hw, hiff.mpr (Or.inl (by decide))⟩

/-- A part whose write was degraded again and again. -/
def degraded : S3ObjectExtendedMetadata where
  objectName := ascii "movie"
  versionId := ascii "MTg0"
  fragments := 101
  parts := 1
  extObjects := [(1, List.replicate 101 { isMultipart := true, partNumber := 1 })]

/-- With no more parts than lie before the last batch, it is not put. -/
theorem not_writesEvery_of_few {codec : JsonCodec}
    (hmany : 50 < (m.getKvListOfExtendedEntries codec).length) (hparts : 0 < m.extObjects.length)
    (hfew : m.extObjects.length ≤ lastOffset (m.getKvListOfExtendedEntries codec).length) :
    ¬ (SavesExtendedMetadata codec m w ∧ w.ending = .quiet ∧
      WritesEvery (m.getKvListOfExtendedEntries codec) w.events) := by
  rintro ⟨hw, hquiet, hwrites⟩
  have hshort := short_of_few hmany hparts (Or.inl hfew) hw hquiet
  have hall := hwrites.length
  omega

theorem length_getKvListOfExtendedEntries (codec : JsonCodec)
    (hnodup : m.getExtendedEntriesKeyList.Nodup) :
    (m.getKvListOfExtendedEntries codec).length = m.getExtendedEntriesKeyList.length := by
  have hkeys : (m.extendedEntries codec).map Prod.fst = m.getExtendedEntriesKeyList := by
    unfold extendedEntries pairsOfPart
      getExtendedEntriesKeyList
    rw [map_flatMap]
    simp only [map_map, Function.comp_def]
  rw [← hkeys] at hnodup ⊢
  rw [length_map]
  exact (SortedMap.ofWrites_perm hnodup).length_eq

theorem degraded_keys : degraded.getExtendedEntriesKeyList.Nodup := by
  have hkeys : degraded.getExtendedEntriesKeyList =
      (List.range' 1 101).map (degraded.entryKey true 1) := rfl
  rw [hkeys]
  apply List.Nodup.map _ nodup_range'
  intro i j hij
  have hfield : (sep :: 80 :: decimal 1) ++
      sep :: 70 :: decimal i =
      (sep :: 80 :: decimal 1) ++
      sep :: 70 :: decimal j := by
    rw [entryKey_part, entryKey_part] at hij
    exact append_cancel_left hij
  have hdecimal := append_cancel_left hfield
  exact decimal_injective (List.cons.inj (List.cons.inj hdecimal).2).2

/-- The save of 101 fragments of one part ends after 50. -/
theorem not_writesEvery_degraded :
    ¬ ∃ w, SavesExtendedMetadata fragmentCodec degraded w ∧ w.ending = .quiet ∧
      WritesEvery (degraded.getKvListOfExtendedEntries fragmentCodec) w.events := by
  have hlength : (degraded.getKvListOfExtendedEntries fragmentCodec).length = 101 :=
    length_getKvListOfExtendedEntries fragmentCodec degraded_keys
  have hone : degraded.extObjects.length = 1 := rfl
  rw [not_exists]
  intro w
  refine not_writesEvery_of_few ?_ ?_ ?_
  · rw [hlength]
    decide
  · rw [hone]
    decide
  · rw [hlength, hone]
    decide

/-! ### The limit of an operation -/

/-- A call has at least one pair and at most the limit, and the two subtractions before it do not
wrap. -/
def Event.InLimit (size : Nat) : Event → Prop
  | .putKeyval pairs => 1 ≤ pairs.length ∧ pairs.length ≤ maxPutMultipartExtendedEntries
  | .putPartialKeyval offset _ pairs =>
    (∃ l, pairs = some l ∧ 1 ≤ l.length ∧ l.length ≤ maxPutMultipartExtendedEntries) ∧
      kvToBeProcessed size offset + offset = size ∧
      maxPutMultipartExtendedEntries ≤ kvToBeProcessed size offset
  | .success => True

/-- The call that a state makes. -/
def callOf (keyValues : KvList) (s : State) : Event :=
  .putPartialKeyval s.totalProcessedCount
    (howManyKvToWrite keyValues.length s.totalProcessedCount)
    (pairsFrom keyValues s.totalProcessedCount
      (howManyKvToWrite keyValues.length s.totalProcessedCount))

/-- The events that a step leaves begin with `events`. -/
structure BeginsWith (events : List Event) (o : Until.Outcome State Result) : Prop where
  next : ∀ t, o = .next t → events <+: t.events
  done : ∀ w, o = .done w → events <+: w.events

theorem savePartial_beginsWith (keyValues : KvList) (bound : Nat) (s : State) :
    BeginsWith (s.events ++ [callOf keyValues s]) (savePartial keyValues bound s) := by
  obtain ⟨call, hcall⟩ : ∃ call, call = callOf keyValues s := ⟨_, rfl⟩
  rw [← hcall]
  unfold callOf at hcall
  unfold savePartial
  dsimp only
  rw [← hcall]
  split
  · split
    · obtain ⟨t, -, hevents, ht⟩ := savePartialSuccessful_eq bound
        (howManyKvToWrite keyValues.length s.totalProcessedCount)
        { s with events := s.events ++ [call] }
      rw [ht]
      dsimp only at hevents
      split
      · refine ⟨fun u hnext => ?_, fun v hdone => (nomatch hdone)⟩
        cases hnext
        rw [hevents]
      · refine ⟨fun u hnext => (nomatch hnext), fun v hdone => ?_⟩
        cases hdone
        rw [hevents]
        exact prefix_append _ _
    · refine ⟨fun u hnext => (nomatch hnext), fun v hdone => ?_⟩
      cases hdone
      exact prefix_refl _
  · refine ⟨fun u hnext => (nomatch hnext), fun v hdone => ?_⟩
    cases hdone
    exact prefix_refl _

theorem callOf_mem_of_ends (hw : Ends (savePartial keyValues bound) s w) :
    callOf keyValues s ∈ w.events := by
  have hstep : ∀ t, BeginsWith (t.events ++ [callOf keyValues t]) (savePartial keyValues bound t) :=
    savePartial_beginsWith keyValues bound
  have hkept : ∀ {t : State}, Ends (savePartial keyValues bound) t w →
      t.events <+: w.events := by
    intro t ht
    refine Ends.of_invariant (I := fun u => t.events <+: u.events)
      (Q := fun v => t.events <+: v.events) (fun u u' hu hnext => ?_) (fun u v hu hdone => ?_)
      (prefix_refl _) ht
    · exact (hu.trans (prefix_append _ _)).trans ((hstep u).next u' hnext)
    · exact (hu.trans (prefix_append _ _)).trans ((hstep u).done v hdone)
  have hlast : callOf keyValues s ∈ s.events ++ [callOf keyValues s] :=
    mem_append_right _ mem_cons_self
  cases hnext : savePartial keyValues bound s with
  | next t =>
    exact (hkept ((ends_iff_of_next hnext w).mp hw)).subset
      (((hstep s).next t hnext).subset hlast)
  | done v =>
    obtain rfl := (ends_iff_of_done hnext w).mp hw
    exact ((hstep s).done v hnext).subset hlast

/-- **A save of more than 50 pairs has a call that is out of the limit.**  The last batch is too big;
before it an offset may be no `int`, and the number of pairs not one of 32 bits. -/
theorem exists_call_above (hkeys : Keyed keyValues) (hmany : 50 < keyValues.length)
    (hbound : keyValues.length < 2 ^ 32 → keyValues.length ≤ bound) (hw : Saves keyValues bound w) :
    ∃ e ∈ w.events, ¬ e.InLimit keyValues.length := by
  by_cases hsize : keyValues.length < 2 ^ 32
  · -- the last batch, or the first whose offset is no int
    obtain ⟨k, hk⟩ : ∃ k, k = min ((keyValues.length - 1) / 50 - 1) 42949673 := ⟨_, rfl⟩
    have hbounds := lastOffset_bounds hmany
    have hlast : 50 * k ≤ lastOffset keyValues.length := by
      unfold lastOffset
      omega
    have hreach := hbound hsize
    have hreaches := reaches_stateAfter hkeys bound hsize k hlast (by omega) (by omega)
    have hends := (saves_iff_of_reaches hmany hreaches w).mp hw
    refine ⟨_, callOf_mem_of_ends hends, ?_⟩
    rintro ⟨⟨l, hl, -, hle⟩, -, -⟩
    have htotal : (stateAfter keyValues k).totalProcessedCount = 50 * k := rfl
    rw [htotal] at hl
    unfold pairsFrom at hl
    by_cases hoffset : 50 * k < 2 ^ 31
    · have hat : 50 * k = lastOffset keyValues.length := by
        unfold lastOffset
        omega
      rw [if_pos hoffset, howManyKvToWrite_of_near (by omega) (by omega) hsize] at hl
      obtain rfl := Option.some.inj hl
      rw [length_take, length_drop] at hle
      have hle' : min (keyValues.length - 50 * k) (keyValues.length - 50 * k) ≤ 50 := hle
      omega
    · rw [if_neg hoffset] at hl
      cases hl
  · refine ⟨_, callOf_mem_of_ends ((saves_iff_of_many hmany w).mp hw), ?_⟩
    rintro ⟨-, hwrap, -⟩
    have hlt : kvToBeProcessed keyValues.length 0 < 2 ^ 32 := Nat.mod_lt _ (by decide)
    have hsame : kvToBeProcessed keyValues.length 0 + 0 = keyValues.length := hwrap
    omega

theorem inLimit_of_few (hfew : keyValues.length ≤ 50) (hw : Saves keyValues bound w) :
    ∀ e ∈ w.events, e.InLimit keyValues.length := by
  by_cases hpos : 0 < keyValues.length
  · obtain rfl := (saves_iff_of_few hpos hfew w).mp hw
    intro e he
    rcases mem_cons.mp he with rfl | he
    · exact ⟨hpos, hfew⟩
    · obtain rfl := mem_singleton.mp he
      trivial
  · unfold Saves save at hw
    rw [if_neg fun h => absurd h.1 hpos,
      if_neg (show ¬ keyValues.length > maxPutMultipartExtendedEntries from not_lt.mpr hfew)] at hw
    obtain rfl : _ = w := hw
    intro e he
    cases he

/-- A save stays within the limit exactly when it is of up to 50 pairs. -/
theorem inLimit_iff (hkeys : Keyed keyValues)
    (hbound : keyValues.length < 2 ^ 32 → keyValues.length ≤ bound) :
    ∃ w, Saves keyValues bound w ∧
      ((∀ e ∈ w.events, e.InLimit keyValues.length) ↔ keyValues.length ≤ 50) := by
  obtain ⟨w, hw⟩ := exists_saves keyValues bound
  refine ⟨w, hw, ?_, fun hfew => inLimit_of_few hfew hw⟩
  intro hall
  by_contra hfew
  obtain ⟨e, he, hnot⟩ := exists_call_above hkeys (not_le.mp hfew) hbound hw
  exact hnot (hall e he)

theorem length_set_le (k : Bytes) (v : Bytes) :
    ∀ m : KvList, (SortedMap.set k v m).length ≤ m.length + 1 := by
  intro m
  induction m with
  | nil => exact le_refl _
  | cons p rest ih =>
    obtain ⟨k', v'⟩ := p
    rw [SortedMap.set_cons]
    split
    · simp
    · split
      · simp
      · simp only [length_cons]
        omega

theorem length_ofWrites_le (ws : KvList) : (SortedMap.ofWrites ws).length ≤ ws.length := by
  induction ws using List.reverseRecOn with
  | nil => exact le_refl _
  | append_singleton ws p ih =>
    obtain ⟨k, v⟩ := p
    rw [SortedMap.ofWrites_concat, length_append]
    exact (length_set_le k v _).trans (Nat.add_le_add_right ih 1)

theorem length_extendedEntries_le (codec : JsonCodec) (hone : ∀ p ∈ m.extObjects, p.2.length = 1) :
    (m.getKvListOfExtendedEntries codec).length ≤ m.extObjects.length := by
  refine (length_ofWrites_le _).trans ?_
  have hcount : ∀ (l : List (Int × List S3PartFragContext)) (n : Nat),
      (∀ p ∈ l, p.2.length = 1) →
      ((l.zipIdx n).flatMap fun p =>
        pairsOfPart codec m p.2 p.1.2).length = l.length := by
    intro l
    induction l with
    | nil =>
      intro _ _
      rfl
    | cons p rest ih =>
      intro n hl
      have hpart : (pairsOfPart codec m n p.2).length = 1 := by
        unfold pairsOfPart
        rw [length_map, length_zipIdx]
        exact hl p mem_cons_self
      rw [zipIdx_cons, flatMap_cons, length_append,
        ih (n + 1) fun q hq => hl q (mem_cons_of_mem _ hq)]
      show (pairsOfPart codec m n p.2).length + _ = _
      rw [hpart, length_cons, Nat.add_comm]
  exact (hcount m.extObjects 1 hone).le

/-- **Every call of a save has between one and 50 pairs, and no subtraction wraps, exactly when there
are up to 50 pairs in all.**  So it is for the fragments of an object, one for each part, and for
the records of probable deletes. -/
theorem saves_inLimit_iff (codec : JsonCodec) (m : S3ObjectExtendedMetadata)
    (hone : ∀ p ∈ m.extObjects, p.2.length = 1) (kvList : KvList) (hkeys : Keyed kvList) :
    (∃ w, SavesExtendedMetadata codec m w ∧
      ((∀ e ∈ w.events, e.InLimit (m.getKvListOfExtendedEntries codec).length) ↔
        (m.getKvListOfExtendedEntries codec).length ≤ 50)) ∧
    (∃ w, SavesProbableListMetadata kvList w ∧
      ((∀ e ∈ w.events, e.InLimit kvList.length) ↔ kvList.length ≤ 50)) :=
  ⟨inLimit_iff (keyed_extendedEntries codec m) fun _ => length_extendedEntries_le codec hone,
    inLimit_iff hkeys fun hsize => (Nat.mod_eq_of_lt hsize).ge⟩

/-- An object of two parts, and the record of one probable delete. -/
theorem saves_inLimit_iff_few :
    (∃ w, SavesExtendedMetadata fragmentCodec (uploaded 2) w ∧
      ∀ e ∈ w.events, e.InLimit ((uploaded 2).getKvListOfExtendedEntries fragmentCodec).length) ∧
    (∃ w, SavesProbableListMetadata [(ascii "record", [])] w ∧ ∀ e ∈ w.events, e.InLimit 1) := by
  obtain ⟨⟨w, hw, hiff⟩, v, hv, hiff'⟩ := saves_inLimit_iff fragmentCodec (uploaded 2) (by decide)
    [(ascii "record", [])] (by unfold Keyed; decide)
  exact ⟨⟨w, hw, hiff.mpr (by decide)⟩, v, hv, hiff'.mpr (by decide)⟩

theorem uploaded_pairs (n : Nat) (hnum : (uploaded n).extObjects ≠ [] ∧
      (uploaded n).extObjects.map Prod.fst =
        (List.range' 1 (uploaded n).extObjects.length).map fun k : Nat => (k : Int))
    (hfragments : (uploaded n).fragments = n) :
    ((uploaded n).getKvListOfExtendedEntries fragmentCodec).length = n := by
  obtain ⟨hobject, hversion, -⟩ := (uploaded_added n).invariant
  have hbuilt : Built (uploaded n) := by
    refine ⟨?_, ?_, ?_, Or.inr hnum⟩
    · rw [hobject, hversion]
      exact uploaded_added n
    · rw [hobject]
      decide
    · rw [hversion]
      decide
  obtain ⟨l, hl, hnumbered⟩ := hbuilt.contents
  rw [length_kvList fragmentCodec hbuilt.version hl hnumbered, hfragments]

/-- An object of 51 parts is saved in one call. -/
theorem not_inLimit_fiftyOne :
    ¬ ∃ w, SavesExtendedMetadata fragmentCodec (uploaded 51) w ∧
      ∀ e ∈ w.events,
        e.InLimit ((uploaded 51).getKvListOfExtendedEntries fragmentCodec).length := by
  rintro ⟨w, hw, hall⟩
  have hlength : ((uploaded 51).getKvListOfExtendedEntries fragmentCodec).length = 51 :=
    uploaded_pairs 51 (by decide) (by decide)
  have hparts : (uploaded 51).extObjects.length = 51 := by
    decide
  obtain ⟨e, he, hnot⟩ := exists_call_above (keyed_extendedEntries _ _) (by omega)
    (fun _ => by omega) hw
  exact hnot (hall e he)

end BatchedSave

end CortxS3
