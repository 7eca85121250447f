/-
Giving up an upload: what becomes of the parts and of their records.

Every run of `S3AbortMultipartAction` comes to its end, the Motr objects of the parts are deleted when
the upload is gone and left alone when it stays.  The records are another matter.  They are put before
the metadata of the upload is deleted, and from then on they never leave the index: the routine that
should remove them acts only in a state that the response has overwritten, or that is not reached when
the metadata could not be deleted.  Both ways into the cleanup assert that a key is at hand which
nothing ever assigns.

The invariant says for each call what has been collected, put and deleted (`AtPhase`), and the measure
`remaining` bounds the calls to come.
-/
import CortxS3.Server.AbortMultipartAction
import CortxS3.Proofs.DeleteMultipleObjectsRecords

namespace CortxS3

open Option (some.injEq)
open List hiding after next set_set

open OrderedIndex

namespace S3AbortMultipartAction

open S3DeleteMultipleObjectsAction (putPairs removeKeys sizeBasedBucketing_injective)

section Abort

variable {r : Request}

/-! ### The records of the parts -/

def partRecords (r : Request) : List S3ProbableDeleteRecord := r.parts.parts.map (partRecord r)

/-- `probable_oid_list`. -/
def partPuts (r : Request) : Puts := SortedMap.ofWrites (ownKeys (partRecords r))

theorem partRecords_keys_nodup (r : Request) : ((ownKeys (partRecords r)).map Prod.fst).Nodup := by
  have hoids : (r.parts.parts.map (·.oid)).Nodup := r.parts.distinct
  have hkeys : (ownKeys (partRecords r)).map Prod.fst =
      r.parts.parts.map fun p => (partRecord r p).recordKey := by
    simp [ownKeys, partRecords, Function.comp_def]
  rw [hkeys]
  rw [nodup_map_iff_inj_on (List.Nodup.of_map _ hoids)]
  intro p hp q hq hpq
  exact inj_on_of_nodup_map hoids hp hq (sizeBasedBucketing_injective hpq)

theorem length_partPuts (r : Request) : (partPuts r).length = r.parts.parts.length := by
  rw [partPuts, (SortedMap.ofWrites_perm (partRecords_keys_nodup r)).length_eq]
  simp [ownKeys, partRecords]

theorem length_parts_le (r : Request) : r.parts.parts.length ≤ r.parts.entries.length :=
  length_filterMap_le _ _

theorem mem_partPuts {p : S3PartMetadata} (hp : p ∈ r.parts.parts) :
    ((partRecord r p).recordKey, partRecord r p) ∈ partPuts r := by
  rw [partPuts, (SortedMap.ofWrites_perm (partRecords_keys_nodup r)).mem_iff]
  exact mem_map.mpr ⟨_, mem_map_of_mem hp, rfl⟩

/-- The index has a record of every part. -/
def Stored (r : Request) (index : Bytes → Option S3ProbableDeleteRecord) : Prop :=
  ∀ p ∈ r.parts.parts, (index (partRecord r p).recordKey).isSome

theorem isSome_putPairs {α : Type} {pairs : List (Bytes × α)} {stored : Bytes → Bool}
    {index : Bytes → Option α} {k : Bytes} (h : (index k).isSome) :
    (putPairs pairs stored index k).isSome := by
  unfold putPairs
  split
  · rw [Option.isSome_or, h, Bool.or_true]
  · exact h

theorem isSome_putPairs_of_mem {α : Type} {pairs : List (Bytes × α)} {index : Bytes → Option α}
    {k : Bytes} {v : α} (hsorted : Sorted pairs) (h : (k, v) ∈ pairs) :
    (putPairs pairs (fun _ => true) index k).isSome := by
  rw [putPairs, if_pos rfl, (SortedMap.get_eq_some_iff hsorted).mpr h]
  rfl

variable {index : Bytes → Option S3ProbableDeleteRecord}

theorem Stored.putPairs (h : Stored r index) (pairs : Puts) (stored : Bytes → Bool) :
    Stored r (putPairs pairs stored index) :=
  fun p hp => isSome_putPairs (h p hp)

/-- The first `n` records are in the index. -/
def StoredUpTo (r : Request) (n : Nat) (index : Bytes → Option S3ProbableDeleteRecord) : Prop :=
  ∀ kv ∈ (partPuts r).take n, (index kv.1).isSome

variable {n : Nat}

theorem StoredUpTo.stored (h : StoredUpTo r n index) (hn : (partPuts r).length ≤ n) :
    Stored r index := by
  intro p hp
  refine h (_, partRecord r p) ?_
  rw [take_of_length_le hn]
  exact mem_partPuts hp

theorem StoredUpTo.putPairs {m : Nat} (h : StoredUpTo r n index) :
    StoredUpTo r (n + m) (putPairs (((partPuts r).drop n).take m) (fun _ => true) index) := by
  intro kv hkv
  rw [take_add, mem_append] at hkv
  rcases hkv with hkv | hkv
  · exact isSome_putPairs (h kv hkv)
  · have hsorted : Sorted (((partPuts r).drop n).take m) :=
      ((SortedMap.sorted_ofWrites _).sublist (drop_sublist _ _)).sublist (take_sublist _ _)
    exact isSome_putPairs_of_mem hsorted hkv

/-! ### How many records are put at a time -/

theorem howManyKvToWrite_eq {size total : Nat} (hsize : size ≤ maximumPartNumber)
    (hleft : maxPutMultipartPartEntries < size - total) :
    howManyKvToWrite size total =
      if 200 < size - total then 100 else size - total := by
  unfold howManyKvToWrite howManyKvUpTo maxPutMultipartPartEntries
  unfold maximumPartNumber at hsize
  unfold maxPutMultipartPartEntries at hleft
  have hkv : (size + (2 ^ 32 - total)) % 2 ^ 32 = size - total := by omega
  simp only [hkv]
  have hover : (size - total + (2 ^ 32 - 100)) % 2 ^ 32 = size - total - 100 := by omega
  rw [hover]
  split <;> split <;> omega

/-! ### The invariant -/

/-- Nothing has been answered for the upload yet. -/
structure Untouched (s : State) : Prop where
  actionState : s.actionState = .empty
  oidStr : s.oidStr = []
  deleted : s.deleted = []
  uploadDeleted : s.uploadDeleted = none
  laterFailed : s.laterFailed = false
  assertionFailed : s.assertionFailed = false

/-- The parts up to `lastKey` have been read. -/
structure Reading (r : Request) (s : State) : Prop extends Untouched s where
  read : s.multipartParts ++ (OrderedIndex.after r.parts.entries s.lastKey).filterMap (·.2) =
    r.parts.parts
  records : s.probableDelRecList = []
  processed : s.totalProcessedCount = 0

/-- All parts are read, and their records are at hand. -/
structure Collected (r : Request) (s : State) : Prop extends Untouched s where
  parts : s.multipartParts = r.parts.parts
  records : s.probableDelRecList = partRecords r

/-- The upload is gone and the response is sent: a key that does not exist was asserted. -/
structure Cleaning (r : Request) (s : State) : Prop where
  actionState : s.actionState = .completed
  oidStr : s.oidStr = []
  uploadDeleted : s.uploadDeleted = some true
  assertionFailed : s.assertionFailed = true
  stored : Stored r s.probableDeleteIndex
  /-- Every part is still to be deleted, or has been. -/
  parts : ∀ p ∈ r.parts.parts, p ∈ s.multipartParts ∨ p.oid ∈ s.deleted
  count : s.multipartParts.length ≤ r.parts.entries.length

/-- What can be said of a run at its end. -/
def Ended (r : Request) (s : State) : Prop :=
  (s.uploadDeleted = none ∧ s.assertionFailed = false) ∨
    (s.uploadDeleted = some true ∧ s.assertionFailed = true ∧ Stored r s.probableDeleteIndex ∧
      (s.laterFailed = false → ∀ p ∈ r.parts.parts, p.oid ∈ s.deleted)) ∨
    (s.uploadDeleted = some false ∧ s.assertionFailed = true ∧ Stored r s.probableDeleteIndex ∧
      s.deleted = [])

/-- What holds while a call is waited for. -/
def AtPhase (r : Request) (s : State) : Prop :=
  match s.phase with
  | .getMultipartMetadata => Reading r s
  | .getNextParts => Reading r s
  | .addPartsOidsToProbableDeadOidList => Collected r s ∧ s.probableOidList = partPuts r
  | .saveMetadataInStages howMany =>
    Collected r s ∧ s.probableOidList = partPuts r ∧
      howMany = howManyKvToWrite (partPuts r).length s.totalProcessedCount ∧
      maxPutMultipartPartEntries < (partPuts r).length - s.totalProcessedCount ∧
      StoredUpTo r s.totalProcessedCount s.probableDeleteIndex
  | .deleteMultipartMetadata => Collected r s ∧ Stored r s.probableDeleteIndex
  | .deletePartIndexWithParts =>
    s.oidStr = [] ∧ s.deleted = [] ∧ s.uploadDeleted = some true ∧
      s.multipartParts = r.parts.parts ∧ s.probableDelRecList = partRecords r ∧
      Stored r s.probableDeleteIndex
  | .markOidsForDeletion => Cleaning r s
  | .deletePart => Cleaning r s ∧ s.multipartParts ≠ []
  | .removeProbableRecords => False
  | .done => Ended r s

/-- A bound for the calls to come. -/
def remaining (r : Request) (s : State) : Nat :=
  match s.phase with
  | .getMultipartMetadata => 3 * r.parts.entries.length + 10
  | .getNextParts =>
    (OrderedIndex.after r.parts.entries s.lastKey).length + 2 * r.parts.entries.length + 9
  | .addPartsOidsToProbableDeadOidList => r.parts.entries.length + 6
  | .saveMetadataInStages _ =>
    (s.probableOidList.length - s.totalProcessedCount) + r.parts.entries.length + 5
  | .deleteMultipartMetadata => r.parts.entries.length + 5
  | .deletePartIndexWithParts => r.parts.entries.length + 4
  | .markOidsForDeletion => r.parts.entries.length + 3
  | .deletePart => s.multipartParts.length + 2
  | .removeProbableRecords => 1
  | .done => 0

/-- A state the invariant holds in, at most so many calls from the end. -/
def Goes (r : Request) (n : Nat) (s : State) : Prop := AtPhase r s ∧ remaining r s < n

/-! ### The cleanup -/

variable {s : State}

theorem goes_deletePart (h : Cleaning r s) (hn : s.multipartParts.length + 2 < n) :
    Goes r n (deletePart s) := by
  unfold deletePart
  split
  · next hnil =>
      refine ⟨.inr (.inl ⟨h.uploadDeleted, h.assertionFailed, h.stored, fun _ p hp => ?_⟩), ?_⟩
      · rcases h.parts p hp with hmem | hdel
        · rw [hnil] at hmem
          cases hmem
        · exact hdel
      · simp only [remaining]
        omega
  · next hne => exact ⟨⟨⟨h.actionState, h.oidStr, h.uploadDeleted, h.assertionFailed, h.stored,
      h.parts, h.count⟩, hne⟩, hn⟩

theorem goes_markOidsForDeletion (hstate : s.actionState = .completed) (hstr : s.oidStr = [])
    (hdel : s.uploadDeleted = some true) (hparts : s.multipartParts = r.parts.parts)
    (hstored : Stored r s.probableDeleteIndex) (hn : r.parts.entries.length + 3 < n) :
    Goes r n (markOidsForDeletion s) := by
  have hcount : s.multipartParts.length ≤ r.parts.entries.length := by
    rw [hparts]
    exact length_parts_le r
  have hclean : Cleaning r (s.assert (s.oidStr ≠ [])) :=
    ⟨hstate, hstr, hdel, by simp [State.assert, hstr], hstored,
      fun p hp => .inl (by simpa [State.assert, hparts] using hp), hcount⟩
  unfold markOidsForDeletion
  dsimp only
  split
  · refine goes_deletePart hclean ?_
    simp only [State.assert]
    omega
  · exact ⟨⟨hstate, hstr, hdel, hclean.assertionFailed, hstored, hclean.parts, hcount⟩, hn⟩

theorem goes_success (hstr : s.oidStr = []) (hdel : s.uploadDeleted = some true)
    (hparts : s.multipartParts = r.parts.parts) (hstored : Stored r s.probableDeleteIndex)
    (hn : r.parts.entries.length + 3 < n) : Goes r n (sendResponseToS3Client s .success) :=
  goes_markOidsForDeletion rfl hstr hdel hparts hstored hn

theorem goes_refused (hstate : s.actionState = .uploadMetadataDeleteFailed) (hstr : s.oidStr = [])
    (hdel : s.uploadDeleted = some false) (hdeleted : s.deleted = [])
    (hstored : Stored r s.probableDeleteIndex) (hn : 0 < n) :
    Goes r n (sendResponseToS3Client s .error) := by
  simp only [sendResponseToS3Client, startcleanup, hstate, removeProbableRecords, State.assert,
    reduceCtorEq, if_false]
  exact ⟨.inr (.inr ⟨hdel, by simp [hstr], hstored, hdeleted⟩), hn⟩

theorem goes_early (hdel : s.uploadDeleted = none) (hassert : s.assertionFailed = false)
    (hstate : s.actionState = .empty ∨ s.actionState = .validationFailed ∨
      s.actionState = .probableEntryRecordFailed) (hn : 0 < n) :
    Goes r n (sendResponseToS3Client s .error) := by
  rcases hstate with hstate | hstate | hstate <;>
    simp only [sendResponseToS3Client, startcleanup, hstate] <;>
    exact ⟨.inl ⟨hdel, hassert⟩, hn⟩

/-! ### The records are put -/

theorem goes_saveMetadataInStages (hcollected : Collected r s)
    (hlist : s.probableOidList = partPuts r)
    (hleft : maxPutMultipartPartEntries < (partPuts r).length - s.totalProcessedCount)
    (hstored : StoredUpTo r s.totalProcessedCount s.probableDeleteIndex)
    (hn : ((partPuts r).length - s.totalProcessedCount) + r.parts.entries.length + 5 < n) :
    Goes r n (saveMetadataInStages s) := by
  have hsize : (partPuts r).length ≤ maximumPartNumber := by
    rw [length_partPuts]
    exact (length_parts_le r).trans r.parts.bounded
  have hmany := howManyKvToWrite_eq hsize hleft
  have hpos : howManyKvToWrite (partPuts r).length s.totalProcessedCount ≠ 0 := by
    rw [hmany]
    split <;> omega
  have hle : howManyKvToWrite (partPuts r).length s.totalProcessedCount ≤ (partPuts r).length := by
    rw [hmany]
    split <;> omega
  have hne : (partPuts r).length ≠ 0 := by omega
  have hlt : s.totalProcessedCount < (partPuts r).length := by omega
  have hasserted : saveMetadataInStages s = { s with
      phase := .saveMetadataInStages
        (howManyKvToWrite (partPuts r).length s.totalProcessedCount) } := by
    simp [saveMetadataInStages, State.assert, hlist, hcollected.assertionFailed, hpos, hle, hne, hlt]
  rw [hasserted]
  obtain ⟨⟨hstate, hstr, hdeleted, hup, hlater, hassert⟩, hparts, hrecords⟩ := hcollected
  refine ⟨⟨⟨⟨hstate, hstr, hdeleted, hup, hlater, hassert⟩, hparts, hrecords⟩, hlist, rfl, hleft,
    hstored⟩, ?_⟩
  simpa only [remaining, hlist] using hn

theorem goes_addPartsOids (h : Untouched s) (hparts : s.multipartParts = r.parts.parts)
    (hrecords : s.probableDelRecList = []) (hprocessed : s.totalProcessedCount = 0)
    (hn : 2 * r.parts.entries.length + 8 < n) :
    Goes r n (addPartsOidsToProbableDeadOidList r s) := by
  unfold addPartsOidsToProbableDeadOidList
  split
  · next hnil =>
      have hnone : r.parts.parts = [] := by rw [← hparts, hnil]
      refine ⟨⟨⟨⟨h.actionState, h.oidStr, h.deleted, h.uploadDeleted, h.laterFailed,
        h.assertionFailed⟩, hparts, ?_⟩, ?_⟩, ?_⟩
      · rw [partRecords, hnone]
        exact hrecords
      · intro p hp
        rw [hnone] at hp
        cases hp
      · simp only [remaining]
        omega
  · have hputs : SortedMap.ofWrites (ownKeys (s.multipartParts.map (partRecord r))) =
        partPuts r := by rw [hparts, partPuts, partRecords]
    have hcount := length_parts_le r
    simp only [hputs]
    split
    · refine ⟨⟨⟨⟨h.actionState, h.oidStr, h.deleted, h.uploadDeleted, h.laterFailed,
        h.assertionFailed⟩, hparts, ?_⟩, rfl⟩, ?_⟩
      · rw [partRecords, hparts]
      · simp only [remaining]
        omega
    · next hmany =>
        rw [length_map, hparts] at hmany
        refine goes_saveMetadataInStages ⟨⟨h.actionState, h.oidStr, h.deleted, h.uploadDeleted,
          h.laterFailed, h.assertionFailed⟩, hparts, by rw [partRecords, hparts]⟩ rfl ?_ ?_ ?_
        · simp only [hprocessed, length_partPuts]
          omega
        · intro kv hkv
          simp [hprocessed] at hkv
        · simp only [hprocessed, length_partPuts]
          omega

/-! ### The parts are read -/

theorem goes_getNextParts (hfetch : 1 ≤ r.fetchCount) (h : Reading r s)
    (hn : (after r.parts.entries s.lastKey).length + 2 * r.parts.entries.length + 9 ≤ n) :
    Goes r n (getNextPartsSuccessful r s) := by
  have hnext : next r.parts.entries s.lastKey r.fetchCount false =
      (after r.parts.entries s.lastKey).take r.fetchCount := rfl
  unfold getNextPartsSuccessful
  rw [hnext]
  obtain ⟨rest, hrest⟩ : ∃ rest, after r.parts.entries s.lastKey = rest := ⟨_, rfl⟩
  have hread := h.read
  have hsuffix := after_suffix r.parts.sorted s.lastKey
  rw [hrest] at hread hsuffix hn ⊢
  rcases eq_nil_or_concat' (rest.take r.fetchCount) with hnil | ⟨batch, kv, hbatch⟩
  · -- there is nothing behind the last key
    have hrestnil : rest = [] := by
      rcases take_eq_nil_iff.mp hnil with h0 | h0
      · omega
      · exact h0
    rw [hnil]
    refine goes_addPartsOids h.toUntouched ?_ h.records h.processed (by omega)
    rw [← hread, hrestnil, filterMap_nil, append_nil]
  · rw [hbatch]
    simp only [List.getLast?_concat]
    have hsplit : rest = (batch ++ [kv]) ++ rest.drop r.fetchCount := by
      rw [← hbatch, take_append_drop]
    have hafter : after r.parts.entries kv.1 = rest.drop r.fetchCount := by
      refine after_of_split batch r.parts.sorted ?_
      rw [hsplit, append_assoc] at hsuffix
      simpa using hsuffix
    have hlen := congrArg List.length hsplit
    simp only [length_append, length_singleton] at hlen
    have hparts : (s.multipartParts ++ (batch ++ [kv]).filterMap (·.2)) ++
        (after r.parts.entries kv.1).filterMap (·.2) = r.parts.parts := by
      rw [hafter, append_assoc, ← filterMap_append, ← hsplit, hread]
    obtain ⟨⟨hstate, hstr, hdeleted, hup, hlater, hassert⟩, -, hrecords, hprocessed⟩ := h
    split
    · next hshort =>
        -- a short batch is the last
        have hlast : rest.drop r.fetchCount = [] := by
          rw [← hbatch, length_take] at hshort
          exact drop_eq_nil_of_le (by omega)
        refine goes_addPartsOids ⟨hstate, hstr, hdeleted, hup, hlater, hassert⟩ ?_ hrecords
          hprocessed (by omega)
        rw [hafter, hlast, filterMap_nil, append_nil] at hparts
        exact hparts
    · refine ⟨⟨⟨hstate, hstr, hdeleted, hup, hlater, hassert⟩, hparts, hrecords, hprocessed⟩, ?_⟩
      simp only [remaining, hafter]
      omega

/-! ### One call -/

variable {e : Answer}

theorem goes_onSaveMetadataInStages {howMany : Nat}
    (hphase : s.phase = .saveMetadataInStages howMany) (h : AtPhase r s) :
    Goes r (remaining r s) (onSaveMetadataInStages s howMany e) := by
  rw [AtPhase, hphase] at h
  obtain ⟨hcollected, hlist, hmany, hleft, hstored⟩ := h
  rw [remaining, hphase]
  dsimp only
  rw [hlist]
  cases e with
  | failed stored =>
    simp only [onSaveMetadataInStages, Answer.isOk, Bool.false_eq_true, if_false, addPartsOidsFailed]
    exact goes_early hcollected.uploadDeleted hcollected.assertionFailed (.inr (.inr rfl))
      (by omega)
  | ok =>
    have hsize : (partPuts r).length ≤ maximumPartNumber := by
      rw [length_partPuts]
      exact (length_parts_le r).trans r.parts.bounded
    rw [howManyKvToWrite_eq hsize hleft] at hmany
    unfold maximumPartNumber at hsize
    unfold maxPutMultipartPartEntries at hleft
    have hcount : (s.totalProcessedCount + howMany) % 2 ^ 32 = s.totalProcessedCount + howMany := by
      refine Nat.mod_eq_of_lt ?_
      split at hmany <;> omega
    have hup := hstored.putPairs (m := howMany)
    simp only [onSaveMetadataInStages, Answer.isOk, if_true, hlist, hcount, Answer.done]
    obtain ⟨⟨hstate, hstr, hdeleted, hupload, hlater, hassert⟩, hparts, hrecords⟩ := hcollected
    split
    · next hmore =>
        split at hmany
        · refine goes_saveMetadataInStages ⟨⟨hstate, hstr, hdeleted, hupload, hlater, hassert⟩,
            hparts, hrecords⟩ rfl ?_ hup ?_
          · simp only [maxPutMultipartPartEntries]
            omega
          · dsimp only
            omega
        · omega
    · refine ⟨⟨⟨⟨hstate, hstr, hdeleted, hupload, hlater, hassert⟩, hparts, hrecords⟩,
        hup.stored (by omega)⟩, ?_⟩
      simp only [remaining]
      omega

theorem goes_deletePartsSuccessful (h : Cleaning r s) (hne : s.multipartParts ≠ []) :
    Goes r (s.multipartParts.length + 2) (deletePartsSuccessful s) := by
  obtain ⟨p, hp⟩ : ∃ p, s.multipartParts.getLast? = some p :=
    ⟨_, List.getLast?_eq_some_getLast hne⟩
  have hsplit : s.multipartParts = s.multipartParts.dropLast ++ [p] :=
    (dropLast_append_getLast? p hp).symm
  have hlen := congrArg List.length hsplit
  rw [length_append, length_singleton] at hlen
  have hparts : ∀ q ∈ r.parts.parts,
      q ∈ s.multipartParts.dropLast ∨ q.oid ∈ s.deleted ++ [p.oid] := by
    intro q hq
    rcases h.parts q hq with hmem | hdel
    · rw [hsplit, mem_append, mem_singleton] at hmem
      rcases hmem with hmem | rfl
      · exact .inl hmem
      · exact .inr (by simp)
    · exact .inr (mem_append_left _ hdel)
  have hcount := h.count
  unfold deletePartsSuccessful
  rw [hp]
  dsimp only
  split
  · refine goes_deletePart ⟨h.actionState, h.oidStr, h.uploadDeleted, h.assertionFailed, h.stored,
      hparts, ?_⟩ ?_ <;> dsimp only <;> omega
  · next hnil =>
      simp only [ne_eq, not_not] at hnil
      simp only [removeProbableRecords, State.assert, h.actionState, reduceCtorEq, if_false]
      refine ⟨.inr (.inl ⟨h.uploadDeleted, by simp [h.assertionFailed], h.stored, fun _ q hq => ?_⟩),
        by simp [remaining]⟩
      rcases hparts q hq with hmem | hdel
      · rw [hnil] at hmem
        cases hmem
      · exact hdel

variable {s' : State}

theorem goes_step_before (hfetch : 1 ≤ r.fetchCount) (h : AtPhase r s)
    (hphase : s.phase = .getMultipartMetadata ∨ s.phase = .getNextParts ∨
      s.phase = .addPartsOidsToProbableDeadOidList) (hstep : step r s e = some s') :
    Goes r (remaining r s) s' := by
  have hafter : (after r.parts.entries s.lastKey).length ≤ r.parts.entries.length :=
    (after_suffix r.parts.sorted s.lastKey).length_le
  rcases hphase with hphase | hphase | hphase <;> rw [AtPhase, hphase] at h <;>
    rw [step, hphase] at hstep <;> rw [remaining, hphase] <;> dsimp only at h hstep ⊢
  · obtain ⟨⟨hstate, hstr, hdeleted, hup, hlater, hassert⟩, hread, hrecords, hprocessed⟩ := h
    cases e with
    | ok =>
      simp only [Answer.isOk, if_true, some.injEq] at hstep
      subst hstep
      refine ⟨⟨⟨hstate, hstr, hdeleted, hup, hlater, hassert⟩, hread, hrecords, hprocessed⟩, ?_⟩
      simp only [remaining]
      omega
    | failed stored =>
      simp only [Answer.isOk, Bool.false_eq_true, if_false, some.injEq] at hstep
      subst hstep
      exact goes_early hup hassert (.inr (.inl rfl)) (by omega)
  · cases e with
    | ok =>
      simp only [Answer.isOk, if_true, some.injEq] at hstep
      subst hstep
      exact goes_getNextParts hfetch h le_rfl
    | failed stored =>
      simp only [Answer.isOk, Bool.false_eq_true, if_false, some.injEq] at hstep
      subst hstep
      exact goes_early h.uploadDeleted h.assertionFailed (.inl h.actionState) (by omega)
  · obtain ⟨⟨⟨hstate, hstr, hdeleted, hup, hlater, hassert⟩, hparts, hrecords⟩, hlist⟩ := h
    cases e with
    | ok =>
      simp only [Answer.isOk, if_true, some.injEq, Answer.done] at hstep
      subst hstep
      refine ⟨⟨⟨⟨hstate, hstr, hdeleted, hup, hlater, hassert⟩, hparts, hrecords⟩,
        fun p hp => ?_⟩, ?_⟩
      · rw [hlist]
        exact isSome_putPairs_of_mem (SortedMap.sorted_ofWrites _) (mem_partPuts hp)
      · simp only [remaining]
        omega
    | failed stored =>
      simp only [Answer.isOk, Bool.false_eq_true, if_false, some.injEq, addPartsOidsFailed] at hstep
      subst hstep
      exact goes_early hup hassert (.inr (.inr rfl)) (by omega)

theorem goes_step_deleteMultipartMetadata (h : AtPhase r s)
    (hphase : s.phase = .deleteMultipartMetadata) (hstep : step r s e = some s') :
    Goes r (remaining r s) s' := by
  rw [AtPhase, hphase] at h
  rw [step, hphase] at hstep
  rw [remaining, hphase]
  dsimp only at h hstep ⊢
  obtain ⟨⟨⟨hstate, hstr, hdeleted, hup, hlater, hassert⟩, hparts, hrecords⟩, hstored⟩ := h
  cases e with
  | ok =>
    simp only [Answer.isOk, if_true, some.injEq] at hstep
    subst hstep
    unfold deletePartIndexWithParts
    split
    · exact goes_success hstr rfl hparts hstored (by omega)
    · exact ⟨⟨hstr, hdeleted, rfl, hparts, hrecords, hstored⟩, by simp [remaining]⟩
  | failed stored =>
    simp only [Answer.isOk, Bool.false_eq_true, if_false, some.injEq] at hstep
    subst hstep
    exact goes_refused rfl hstr rfl hdeleted hstored (by omega)

theorem goes_step_after (h : AtPhase r s)
    (hphase : s.phase = .deletePartIndexWithParts ∨ s.phase = .markOidsForDeletion ∨
      s.phase = .deletePart) (hstep : step r s e = some s') : Goes r (remaining r s) s' := by
  rcases hphase with hphase | hphase | hphase <;> rw [AtPhase, hphase] at h <;>
    rw [step, hphase] at hstep <;> rw [remaining, hphase] <;> dsimp only at h hstep ⊢
  · obtain ⟨hstr, hdeleted, hup, hparts, hrecords, hstored⟩ := h
    simp only [some.injEq] at hstep
    subst hstep
    exact goes_success hstr hup hparts hstored (by omega)
  · simp only [some.injEq] at hstep
    subst hstep
    refine goes_deletePart ⟨h.actionState, h.oidStr, h.uploadDeleted, h.assertionFailed,
      h.stored.putPairs _ _, h.parts, h.count⟩ ?_
    have hcount := h.count
    dsimp only [State.noted]
    omega
  · obtain ⟨hclean, hne⟩ := h
    cases e with
    | ok =>
      simp only [Answer.isOk, if_true, some.injEq] at hstep
      subst hstep
      exact goes_deletePartsSuccessful hclean hne
    | failed stored =>
      simp only [Answer.isOk, Bool.false_eq_true, if_false, some.injEq] at hstep
      subst hstep
      refine ⟨.inr (.inl ⟨hclean.uploadDeleted, hclean.assertionFailed, hclean.stored,
        fun hlater => ?_⟩), by simp [remaining]⟩
      simp [State.noted, Answer.isOk] at hlater

/-- **Every answer keeps the invariant and brings the end nearer.** -/
theorem goes_step (hfetch : 1 ≤ r.fetchCount) (s : State) (e : Answer) (s' : State) (h : AtPhase r s)
    (hstep : step r s e = some s') : Goes r (remaining r s) s' := by
  cases hphase : s.phase with
  | getMultipartMetadata => exact goes_step_before hfetch h (.inl hphase) hstep
  | getNextParts => exact goes_step_before hfetch h (.inr (.inl hphase)) hstep
  | addPartsOidsToProbableDeadOidList =>
    exact goes_step_before hfetch h (.inr (.inr hphase)) hstep
  | saveMetadataInStages howMany =>
    rw [step, hphase, some.injEq] at hstep
    rw [← hstep]
    exact goes_onSaveMetadataInStages hphase h
  | deleteMultipartMetadata => exact goes_step_deleteMultipartMetadata h hphase hstep
  | deletePartIndexWithParts => exact goes_step_after h (.inl hphase) hstep
  | markOidsForDeletion => exact goes_step_after h (.inr (.inl hphase)) hstep
  | deletePart => exact goes_step_after h (.inr (.inr hphase)) hstep
  | removeProbableRecords =>
    rw [AtPhase, hphase] at h
    exact h.elim
  | done =>
    rw [step, hphase] at hstep
    cases hstep

theorem isSome_step (hne : s.phase ≠ .done) (e : Answer) : (step r s e).isSome := by
  unfold step
  split
  case h_10 hdone => exact absurd hdone hne
  all_goals first
    | rfl
    | (split <;> rfl)

theorem atPhase_start (index : Bytes → Option S3ProbableDeleteRecord) :
    AtPhase r (start index) := by
  refine ⟨⟨rfl, rfl, rfl, rfl, rfl, rfl⟩, ?_, rfl, rfl⟩
  have hall : after r.parts.entries [] = r.parts.entries := by
    unfold after
    rw [filter_eq_self]
    intro kv hkv
    have hne := r.parts.named kv hkv
    cases hkey : kv.1 with
    | nil => exact absurd hkey hne
    | cons b rest => simp
  simp only [start, hall, nil_append]
  rfl

/-! ### The result -/

/-- The index is consistent with what has become of the upload. -/
structure Consistent (r : Request) (s : State) : Prop where
  noAssertionFailed : s.assertionFailed = false
  gone : s.uploadDeleted = some true → s.laterFailed = false → ∀ p ∈ r.parts.parts,
    p.oid ∈ s.deleted ∧ s.probableDeleteIndex (partRecord r p).recordKey = none
  stays : s.uploadDeleted = some false → s.laterFailed = false → ∀ p ∈ r.parts.parts,
    p.oid ∉ s.deleted ∧ s.probableDeleteIndex (partRecord r p).recordKey = none

/-- **The end is reached in every run, and the index is consistent there exactly when the metadata of
the upload was never tried to be deleted.**  The parts are deleted or kept as they should be; their
records always stay. -/
theorem consistent_iff (hfetch : 1 ≤ r.fetchCount)
    (index : Bytes → Option S3ProbableDeleteRecord) :
    (∃ n, ∀ es : List Answer, n < es.length → Runs.run (step r) (start index) es = none) ∧
      ∀ s, Runs.Reachable (step r) (fun _ _ => True) (start index) s →
        (s.phase ≠ .done → ∀ e, (step r s e).isSome) ∧
        (s.phase = .done →
          (Consistent r s ↔ s.uploadDeleted = none) ∧
          (s.uploadDeleted = some true → s.laterFailed = false →
            ∀ p ∈ r.parts.parts, p.oid ∈ s.deleted) ∧
          (s.uploadDeleted = some false → s.deleted = []) ∧
          (s.uploadDeleted ≠ none → ∀ p ∈ r.parts.parts,
            (s.probableDeleteIndex (partRecord r p).recordKey).isSome)) := by
  have hgoes : ∀ s e s', AtPhase r s → step r s e = some s' →
      AtPhase r s' ∧ remaining r s' < remaining r s := goes_step hfetch
  constructor
  · refine ⟨remaining r (start index), fun es hlong => ?_⟩
    by_contra hrun
    obtain ⟨s, hs⟩ := Option.ne_none_iff_exists'.mp hrun
    have hle := Runs.length_le_of_run hgoes es (atPhase_start index) hs
    omega
  · intro s hs
    have hat : AtPhase r s := Runs.Reachable.invariant (atPhase_start index)
      (fun s e s' h _ hstep => (hgoes s e s' h hstep).1) hs
    constructor
    · intro hne e
      exact isSome_step hne e
    · intro hdone
      rw [AtPhase, hdone] at hat
      rcases hat with ⟨hup, hassert⟩ | ⟨hup, hassert, hstored, hdeleted⟩ |
        ⟨hup, hassert, hstored, hdeleted⟩
      · exact ⟨iff_of_true ⟨hassert, by simp [hup], by simp [hup]⟩ hup, by simp [hup], by simp [hup],
          fun hne => absurd hup hne⟩
      · refine ⟨iff_of_false (fun hc => ?_) (by simp [hup]), fun _ => hdeleted, by simp [hup],
          fun _ => hstored⟩
        rw [hc.noAssertionFailed] at hassert
        cases hassert
      · refine ⟨iff_of_false (fun hc => ?_) (by simp [hup]), by simp [hup], fun _ => hdeleted,
          fun _ => hstored⟩
        rw [hc.noAssertionFailed] at hassert
        cases hassert

end Abort

/-- An upload of one part. -/
def sampleRequest : Request where
  parts :=
    { entries := [(ascii "1", some {
        partNumber := 1
        oid := sampleOid 7
        layoutId := 9
        pvidStr := []
        contentLength := 4096 })]
      sorted := pairwise_singleton _ _
      named := by simp [ascii]
      bounded := by simp [maximumPartNumber]
      distinct := nodup_singleton _ }
  partIndexOid := sampleOid 2
  uploadOid := sampleOid 3
  fetchCount := 30

/-- The record of the part is put, and the answer is an error: the upload stays, and all is well. -/
theorem consistent_iff_onePart :
    ∃ s, Runs.run (step sampleRequest) (start fun _ => none) [.ok, .ok, .failed fun _ => true] =
        some s ∧ s.phase = .done ∧ s.response = some .error ∧
      (∀ p ∈ sampleRequest.parts.parts,
        (s.probableDeleteIndex (partRecord sampleRequest p).recordKey).isSome) ∧
      Consistent sampleRequest s := by
  have hreach : Runs.Reachable (step sampleRequest) (fun _ _ => True) (start fun _ => none) _ :=
    Runs.reachable_of_run [.ok, .ok, .failed fun _ => true] .start (by simp [Runs.AllOk]) rfl
  exact ⟨_, rfl, rfl, rfl, by decide,
    (((consistent_iff (by decide) fun _ => none).2 _ hreach).2 rfl).1.mpr rfl⟩

/-- Every call succeeds, and the record of the part that was deleted is left. -/
theorem not_consistent_onePart :
    ∃ s, Runs.Reachable (step sampleRequest) (fun _ _ => True) (start fun _ => none) s ∧
      s.phase = .done ∧ s.uploadDeleted = some true ∧ s.laterFailed = false ∧
      (∃ p ∈ sampleRequest.parts.parts,
        (s.probableDeleteIndex (partRecord sampleRequest p).recordKey).isSome) ∧
      ¬ Consistent sampleRequest s := by
  have h₀ : Runs.Reachable (step sampleRequest) (fun _ _ => True) (start fun _ => none)
      (start fun _ => none) := .start
  have h₇ := Runs.reachable_of_run
    [.ok, .ok, .ok, .ok, .ok, .ok, .ok] h₀ (by simp [Runs.AllOk]) rfl
  refine ⟨_, h₇, rfl, rfl, rfl, ⟨_, mem_singleton_self _, by decide⟩, fun hc => ?_⟩
  exact Bool.noConfusion (hc.noAssertionFailed : true = false)

end S3AbortMultipartAction

end CortxS3
