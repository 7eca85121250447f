/-
What every run of the delete of several objects does to the indexes.

The three questions asked of the action, whether it forgets Motr objects, whether it damages objects
that stay, and whether its response is true, share the facts of this file: which Motr objects belong
to an object, what a load of extended metadata has to give, how far a step that ends a batch can
change the state (`Tail`), and the invariant of all runs (`Base`): entries only ever disappear from
the indexes, and the objects of a batch are the ones that the index held under their names.
-/
import CortxS3.Server.DeleteMultipleObjectsAction
import CortxS3.Proofs.ProbableDeleteRecord

namespace CortxS3

open List

namespace S3DeleteMultipleObjectsAction

open S3M0Uint128Helper

/-! ### Lists side by side -/

section Forall₂

variable {α β : Type} {R : α → β → Prop}

variable {l : List α} {l' : List β}

theorem exists_right_of_forall₂ (h : List.Forall₂ R l l') :
    ∀ a ∈ l, ∃ b, (a, b) ∈ l.zip l' ∧ R a b := by
  induction h with
  | nil => exact nofun
  | cons hab _ ih =>
    intro x hx
    rcases mem_cons.mp hx with rfl | hx
    · exact ⟨_, mem_cons_self, hab⟩
    · obtain ⟨y, hy, hR⟩ := ih x hx
      exact ⟨y, mem_cons_of_mem _ hy, hR⟩

theorem exists_left_of_forall₂ (h : List.Forall₂ R l l') : ∀ b ∈ l', ∃ a ∈ l, R a b := by
  induction h with
  | nil => exact nofun
  | cons hab _ ih =>
    intro y hy
    rcases mem_cons.mp hy with rfl | hy
    · exact ⟨_, mem_cons_self, hab⟩
    · obtain ⟨x, hx, hR⟩ := ih y hy
      exact ⟨x, mem_cons_of_mem _ hx, hR⟩

end Forall₂

/-! ### The Motr objects of an object -/

/-- The key of a part in the extended index.  A part has one fragment. -/
def partKey (m : S3ObjectMetadata) (part : Nat) : Bytes :=
  S3ObjectExtendedMetadata.entryKey { objectName := m.objectName, versionId := m.objVersionKey }
    true part 1

/-- The keys of all parts. -/
def partKeys (m : S3ObjectMetadata) : List Bytes :=
  (List.range m.numberOfFragments).map fun i => partKey m (i + 1)

/-- The Motr objects of the parts. -/
def partOids (w : World) (m : S3ObjectMetadata) : List M0Uint128 :=
  (partKeys m).filterMap w.extendedIndex

/-- The Motr objects that hold the data of an object.  The identifier of an object in parts is not
one of them. -/
def motrObjects (w : World) (m : S3ObjectMetadata) : List M0Uint128 :=
  if m.numberOfFragments = 0 then [m.oid] else partOids w m

/-- The metadata as the index holds it. -/
def bare (m : S3ObjectMetadata) : S3ObjectMetadata := { m with extended := none }

theorem motrObjects_congr {m m' : S3ObjectMetadata} (w : World) (h : bare m = bare m') :
    motrObjects w m = motrObjects w m' := by
  show motrObjects w (bare m) = motrObjects w (bare m')
  rw [h]

/-- Metadata of an object in one piece or in parts, stored under its own name. -/
structure OwnName (w : World) : Prop where
  name : ∀ k m, w.objectList k = some (.object m) → m.objectName = k
  parts : ∀ k m, w.objectList k = some (.object m) → m.numberOfFragments ≠ 0 → m.numberOfParts ≠ 0

/-- Extended metadata with the entries of an object: for each part a fragment, with the Motr object
that the index names. -/
def LoadsOwn (w : World) (m : S3ObjectMetadata) (ext : S3ObjectExtendedMetadata) : Prop :=
  ∀ i < m.numberOfFragments, ∃ frag,
    S3DeleteObjectAction.fragmentAt { m with extended := some ext } (i + 1) = some frag ∧
      w.extendedIndex (partKey m (i + 1)) = some frag.motrOID

/-! ### Steps that end a batch -/

/-- A state after the end of a batch: the next one is asked for, or the action cleans up. -/
structure Tail (r : Request) (s t : State) : Prop where
  world : t.world = s.world
  oidsToDelete : t.oidsToDelete = s.oidsToDelete
  probableOidList : t.probableOidList = s.probableOidList
  extendedKeys : t.extendedKeysListToBeDeleted = s.extendedKeysListToBeDeleted
  objectsMetadata : t.objectsMetadata = s.objectsMetadata
  phase : t.phase = .fetchObjectsInfo ∨ t.phase = .stuck ∨
    (t.phase = .done ∧ (s.oidsToDelete = [] ∨ r.delayedDelete = true)) ∨
    (t.phase = .deleteProbable ∧ s.oidsToDelete = []) ∨
    (t.phase = .deleteObjects ∧ s.oidsToDelete ≠ [])

section Tails

variable {r : Request} {s : State}

theorem Tail.of_eq {t u : State} (h : Tail r t u) (hworld : t.world = s.world)
    (hoids : t.oidsToDelete = s.oidsToDelete) (hprobable : t.probableOidList = s.probableOidList)
    (hkeys : t.extendedKeysListToBeDeleted = s.extendedKeysListToBeDeleted)
    (hobjects : t.objectsMetadata = s.objectsMetadata) : Tail r s u where
  world := h.world.trans hworld
  oidsToDelete := h.oidsToDelete.trans hoids
  probableOidList := h.probableOidList.trans hprobable
  extendedKeys := h.extendedKeys.trans hkeys
  objectsMetadata := h.objectsMetadata.trans hobjects
  phase := by
    rw [← hoids]
    exact h.phase

theorem tail_cleanup (s : State) : Tail r s (cleanup r s) := by
  unfold cleanup
  by_cases hoids : s.oidsToDelete = []
  · rw [if_pos hoids]
    unfold cleanupOidFromProbableDeadOidList
    split
    · exact ⟨rfl, rfl, rfl, rfl, rfl, .inr (.inr (.inl ⟨rfl, .inl hoids⟩))⟩
    · exact ⟨rfl, rfl, rfl, rfl, rfl, .inr (.inr (.inr (.inl ⟨rfl, hoids⟩)))⟩
  · rw [if_neg hoids]
    split
    · next hdelayed =>
        exact ⟨rfl, rfl, rfl, rfl, rfl, .inr (.inr (.inl ⟨rfl, .inr hdelayed⟩))⟩
    · exact ⟨rfl, rfl, rfl, rfl, rfl, .inr (.inr (.inr (.inr ⟨rfl, hoids⟩)))⟩

theorem tail_sendResponse (s : State) : Tail r s (sendResponseToS3Client r s) :=
  (tail_cleanup _).of_eq rfl rfl rfl rfl rfl

theorem tail_fetchObjectsInfo (s : State) : Tail r s (fetchObjectsInfo r s) := by
  unfold fetchObjectsInfo
  split
  · exact (tail_sendResponse _).of_eq rfl rfl rfl rfl rfl
  · split
    · exact ⟨rfl, rfl, rfl, rfl, rfl, .inl rfl⟩
    · exact ⟨rfl, rfl, rfl, rfl, rfl, .inr (.inl rfl)⟩

theorem tail_fetchRemaining (s : State) : Tail r s (fetchRemaining r s) := by
  unfold fetchRemaining
  split
  · exact tail_fetchObjectsInfo s
  · exact tail_sendResponse s

theorem tail_fetchRemainingOrFail (s : State) : Tail r s (fetchRemainingOrFail r s) := by
  unfold fetchRemainingOrFail
  split
  · exact tail_fetchObjectsInfo s
  · split
    · exact tail_sendResponse s
    · exact (tail_sendResponse _).of_eq rfl rfl rfl rfl rfl

end Tails

/-! ### Indexes that only shrink -/

/-- An index that holds nothing another one does not hold. -/
def Below {α : Type} (index index₀ : Bytes → Option α) : Prop :=
  ∀ k v, index k = some v → index₀ k = some v

variable {keys : List Bytes} {left : Bytes → Bool} {α : Type}

variable {index : Bytes → Option α}

theorem removeKeys_below {index₀ : Bytes → Option α} (h : Below index index₀) :
    Below (removeKeys keys left index) index₀ := by
  intro k v hv
  unfold removeKeys at hv
  split at hv
  · cases hv
  · exact h k v hv

variable {k : Bytes}

theorem removeKeys_eq_none (h : removeKeys keys left index k = none) :
    (k ∈ keys ∧ left k = false) ∨ index k = none := by
  unfold removeKeys at h
  split at h
  · next hk =>
      rw [Bool.and_eq_true, Bool.not_eq_true'] at hk
      exact .inl ⟨elem_iff.mp hk.1, hk.2⟩
  · exact .inr h

theorem removeKeys_eq_some {v : α} (h : removeKeys keys left index k = some v) :
    index k = some v ∧ (k ∈ keys → left k = true) := by
  unfold removeKeys at h
  split at h
  · cases h
  · next hk =>
      refine ⟨h, fun hmem => ?_⟩
      rw [Bool.and_eq_true, Bool.not_eq_true', not_and] at hk
      exact Bool.eq_true_of_not_eq_false (hk (elem_iff.mpr hmem))

theorem removeKeys_of_notMem (h : k ∉ keys) : removeKeys keys left index k = index k := by
  unfold removeKeys
  split
  · next hk =>
      rw [Bool.and_eq_true] at hk
      exact absurd (elem_iff.mp hk.1) h
  · rfl

theorem removeKeys_of_left (h : ∀ k ∈ keys, left k = false → index k = none) :
    removeKeys keys left index = index := by
  funext k
  unfold removeKeys
  split
  · next hk =>
      rw [Bool.and_eq_true, Bool.not_eq_true'] at hk
      exact (h k (elem_iff.mp hk.1) hk.2).symm
  · rfl

/-! ### Loading and adding records -/

section Batch

variable {r : Request}

theorem fetchObjectsExtendedInfo_cases (s : State) :
    ∀ (after before : List S3ObjectMetadata),
      (∃ simple m rest, after = simple ++ m :: rest ∧ (∀ o ∈ simple, o.numberOfFragments = 0) ∧
        m.numberOfFragments ≠ 0 ∧ fetchObjectsExtendedInfo r s before after =
          { s with phase := .fetchObjectsExtendedInfo (before ++ simple) m rest }) ∨
      ((∀ o ∈ after, o.numberOfFragments = 0) ∧ fetchObjectsExtendedInfo r s before after =
        addObjectOidToProbableDeadOidList r { s with objectsMetadata := before ++ after }) := by
  intro after
  induction after with
  | nil =>
    intro before
    refine .inr ⟨fun o ho => (nomatch ho), ?_⟩
    rw [fetchObjectsExtendedInfo, append_nil]
  | cons m after ih =>
    intro before
    rw [fetchObjectsExtendedInfo]
    by_cases hm : m.numberOfFragments = 0
    · rw [if_pos hm]
      rcases ih (before ++ [m]) with ⟨simple, m', rest, rfl, hsimple, hm', h⟩ | ⟨hall, h⟩
      · refine .inl ⟨m :: simple, m', rest, rfl, ?_, hm', ?_⟩
        · exact forall_mem_cons.mpr ⟨hm, hsimple⟩
        · rw [h, append_assoc]
          rfl
      · refine .inr ⟨forall_mem_cons.mpr ⟨hm, hall⟩, ?_⟩
        rw [h, append_assoc]
        rfl
    · rw [if_neg hm]
      refine .inl ⟨[], m, after, rfl, fun o ho => (nomatch ho), hm, ?_⟩
      rw [append_nil]

theorem addObjectOid_cases (s : State) :
    addObjectOidToProbableDeadOidList r s = { s with phase := .crashed } ∨
      ∃ records, List.Forall₂ (fun m rs => objectRecords r.bucket m = some rs) s.objectsMetadata
          records ∧
        addObjectOidToProbableDeadOidList r s = { s with
          probableOidList := (ownKeys records.flatten).foldl (fun l p => SortedMap.set p.1 p.2 l)
            s.probableOidList
          extendedKeysListToBeDeleted :=
            s.extendedKeysListToBeDeleted ++ s.objectsMetadata.flatMap objectExtendedKeys
          extendedOidsToDelete := s.extendedOidsToDelete ++
            (s.objectsMetadata.zip records).flatMap fun p => objectExtendedOids p.1 p.2
          phase := .putProbableDelete (SortedMap.ofWrites (ownKeys records.flatten)) } := by
  unfold addObjectOidToProbableDeadOidList
  cases h : s.objectsMetadata.mapM (objectRecords r.bucket) with
  | none => exact .inl rfl
  | some records => exact .inr ⟨records, forall₂_of_mapM h, rfl⟩

end Batch

/-! ### All runs -/

/-- The objects of the batch, with what is loaded of their extended metadata. -/
def batch (s : State) : List S3ObjectMetadata :=
  match s.phase with
  | .fetchObjectsExtendedInfo before m after => before ++ m :: after
  | _ => s.objectsMetadata

/-- An object that the index held at the start under its name. -/
def Stored (w₀ : World) (m : S3ObjectMetadata) : Prop :=
  ∃ m₀, w₀.objectList m.objectName = some (.object m₀) ∧ bare m = bare m₀

/-- **What holds in every run.** -/
structure Base (w₀ : World) (s : State) : Prop where
  objectList : Below s.world.objectList w₀.objectList
  extendedIndex : Below s.world.extendedIndex w₀.extendedIndex
  stored : ∀ m ∈ batch s, Stored w₀ m

section Base

variable {r : Request} {w₀ : World} {s t : State}

variable {m : S3ObjectMetadata}

theorem totalObjects_of_stored (hown : OwnName w₀) (h : Stored w₀ m)
    (hfrag : m.numberOfFragments ≠ 0) : totalObjects m = m.numberOfFragments := by
  obtain ⟨m₀, hm₀, hbare⟩ := h
  have hfrag₀ : m.numberOfFragments = m₀.numberOfFragments := congrArg (·.numberOfFragments) hbare
  have hparts₀ : m.numberOfParts = m₀.numberOfParts := congrArg (·.numberOfParts) hbare
  have hparts : m.numberOfParts ≠ 0 := by
    rw [hparts₀]
    exact hown.parts _ _ hm₀ (by rw [← hfrag₀]; exact hfrag)
  unfold totalObjects
  rw [if_neg hparts]

theorem Tail.batch (h : Tail r s t) :
    S3DeleteMultipleObjectsAction.batch t = t.objectsMetadata := by
  unfold S3DeleteMultipleObjectsAction.batch
  rcases h.phase with hp | hp | ⟨hp, _⟩ | ⟨hp, _⟩ | ⟨hp, _⟩ <;> rw [hp]

theorem Tail.base (h : Tail r s t) (hlist : Below s.world.objectList w₀.objectList)
    (hext : Below s.world.extendedIndex w₀.extendedIndex)
    (hstored : ∀ m ∈ s.objectsMetadata, Stored w₀ m) : Base w₀ t where
  objectList := by
    rw [h.world]
    exact hlist
  extendedIndex := by
    rw [h.world]
    exact hext
  stored := by
    rw [h.batch, h.objectsMetadata]
    exact hstored

theorem base_addObjectOid (hlist : Below s.world.objectList w₀.objectList)
    (hext : Below s.world.extendedIndex w₀.extendedIndex)
    (hstored : ∀ m ∈ s.objectsMetadata, Stored w₀ m) :
    Base w₀ (addObjectOidToProbableDeadOidList r s) := by
  rcases addObjectOid_cases s with h | ⟨records, _, h⟩ <;> rw [h]
  · exact ⟨hlist, hext, hstored⟩
  · exact ⟨hlist, hext, hstored⟩

theorem base_fetchObjectsExtendedInfo {before after : List S3ObjectMetadata}
    (hlist : Below s.world.objectList w₀.objectList)
    (hext : Below s.world.extendedIndex w₀.extendedIndex)
    (hstored : ∀ m ∈ before ++ after, Stored w₀ m) :
    Base w₀ (fetchObjectsExtendedInfo r s before after) := by
  rcases fetchObjectsExtendedInfo_cases s after before with
    ⟨simple, m, rest, rfl, _, _, h⟩ | ⟨_, h⟩ <;> rw [h]
  · refine ⟨hlist, hext, ?_⟩
    intro m' hm'
    apply hstored
    rw [← append_assoc]
    exact hm'
  · exact base_addObjectOid hlist hext hstored

variable {kv : Bytes × Option IndexValue}

theorem objectOf_eq_some (h : objectOf kv = some m) :
    ∃ m₀, kv.2 = some (.object m₀) ∧ m = bare m₀ := by
  unfold objectOf at h
  split at h
  · next m₀ hm₀ =>
      cases h
      exact ⟨m₀, hm₀, rfl⟩
  · cases h

/-- The pairs that `get_keyval` reads. -/
def readPairs (s : State) (unreadable : Bytes → Bool) : List (Bytes × Option IndexValue) :=
  SortedMap.ofWrites
    (s.keysToDelete.map fun k => (k, if unreadable k then none else s.world.objectList k))

variable {unreadable : Bytes → Bool}

theorem mem_readPairs (h : kv ∈ readPairs s unreadable) :
    kv.1 ∈ s.keysToDelete ∧
      kv.2 = if unreadable kv.1 then none else s.world.objectList kv.1 := by
  obtain ⟨k, hk, rfl⟩ := mem_map.mp (SortedMap.mem_of_mem_ofWrites h)
  exact ⟨hk, rfl⟩

theorem listed_of_mem_objects (hown : OwnName w₀) (hlist : Below s.world.objectList w₀.objectList)
    (h : m ∈ (readPairs s unreadable).filterMap objectOf) :
    ∃ m₀, s.world.objectList m.objectName = some (.object m₀) ∧ m = bare m₀ := by
  obtain ⟨kv, hkv, hm⟩ := mem_filterMap.mp h
  obtain ⟨m₀, hval, rfl⟩ := objectOf_eq_some hm
  obtain ⟨_, hread⟩ := mem_readPairs hkv
  rw [hval] at hread
  split at hread
  · cases hread
  · refine ⟨m₀, ?_, rfl⟩
    rw [show (bare m₀).objectName = kv.1 from hown.name _ m₀ (hlist _ _ hread.symm)]
    exact hread.symm

theorem stored_of_mem_objects (hown : OwnName w₀) (hlist : Below s.world.objectList w₀.objectList)
    (h : m ∈ (readPairs s unreadable).filterMap objectOf) : Stored w₀ m := by
  obtain ⟨m₀, hm₀, hm⟩ := listed_of_mem_objects hown hlist h
  refine ⟨m₀, hlist _ _ hm₀, ?_⟩
  rw [hm]
  rfl

theorem getKeyvalSuccessful_cases (s : State) (unreadable : Bytes → Bool) :
    ((∀ kv ∈ readPairs s unreadable, kv.2 = none) ∧ getKeyvalSuccessful r s unreadable =
      fetchRemaining r { s with success := s.success ++ s.keysToDelete }) ∨
    ((∃ kv ∈ readPairs s unreadable, kv.2 ≠ none) ∧ getKeyvalSuccessful r s unreadable =
      fetchObjectsInfoSuccessful r s (readPairs s unreadable)) := by
  unfold getKeyvalSuccessful
  by_cases hnone : (readPairs s unreadable).all (·.2.isNone) = true
  · refine .inl ⟨?_, ?_⟩
    · intro kv hkv
      exact Option.isNone_iff_eq_none.mp (all_eq_true.mp hnone kv hkv)
    · exact if_pos hnone
  · refine .inr ⟨?_, if_neg hnone⟩
    simp only [all_eq_true, not_forall] at hnone
    obtain ⟨kv, hkv, hne⟩ := hnone
    refine ⟨kv, hkv, fun hcontra => hne ?_⟩
    rw [hcontra]
    rfl

/-- The state in which the objects of a batch are known. -/
def fetchedState (s : State) (kvps : List (Bytes × Option IndexValue)) : State :=
  { s with
    objectsMetadata := kvps.filterMap objectOf
    extendedOidsToDelete := []
    success := s.success ++ kvps.filterMap missingKey
    error := s.error ++ (kvps.filterMap corruptKey).map fun k => (k, .InternalError) }

theorem fetchObjectsInfoSuccessful_cases (s : State) (kvps : List (Bytes × Option IndexValue)) :
    (kvps.filterMap objectOf = [] ∧
      fetchObjectsInfoSuccessful r s kvps = fetchRemainingOrFail r (fetchedState s kvps)) ∨
    (kvps.filterMap objectOf ≠ [] ∧ fetchObjectsInfoSuccessful r s kvps =
      fetchObjectsExtendedInfo r (fetchedState s kvps) [] (kvps.filterMap objectOf)) := by
  unfold fetchObjectsInfoSuccessful
  by_cases hnil : kvps.filterMap objectOf = []
  · exact .inl ⟨hnil, if_pos hnil⟩
  · exact .inr ⟨hnil, if_neg hnil⟩

theorem tail_fetchObjectsInfoFailed (s : State) (missing : Bool) :
    Tail r s (fetchObjectsInfoFailed r s missing) := by
  unfold fetchObjectsInfoFailed
  split
  · exact (tail_fetchRemaining _).of_eq rfl rfl rfl rfl rfl
  · exact (tail_sendResponse _).of_eq rfl rfl rfl rfl rfl

theorem objectsDeleted_eq (s : State) (failed missing : M0Uint128 → Bool) :
    ∃ l, objectsDeleted s failed missing = cleanupOidFromProbableDeadOidList { s with
      world.deleted := s.world.deleted ++ s.oidsToDelete.filter (!failed ·)
      probableOidList := l } := by
  unfold objectsDeleted
  split
  · exact ⟨s.probableOidList, rfl⟩
  · exact ⟨_, rfl⟩

/-- The state with the metadata of the batch deleted. -/
def afterMetadata (s : State) (left : Bytes → Bool) : State :=
  { s with
    world.objectList :=
      removeKeys (s.objectsMetadata.map (·.objectName)) left s.world.objectList }

/-- The state with the objects of the batch taken as deleted. -/
def finishedState (s : State) : State :=
  { s with
    atLeastOneDeleteSuccessful := true
    success := s.success ++ s.objectsMetadata.map (·.objectName)
    oidsToDelete := s.oidsToDelete ++
      s.objectsMetadata.flatMap fun m => m.oid :: s.extendedOidsToDelete }

theorem tail_deleteExtendedMetadataSuccessful (s : State) :
    Tail r (finishedState s) (deleteExtendedMetadataSuccessful r s) :=
  tail_fetchRemaining _

theorem tail_metadataDeleted_failed (s : State) (left : Bytes → Bool) :
    Tail r (afterMetadata s left) (metadataDeleted r s .failed left) :=
  (tail_fetchRemainingOrFail _).of_eq rfl rfl rfl rfl rfl

theorem tail_metadataDeleted_failedToLaunch (s : State) (left : Bytes → Bool) :
    Tail r s (metadataDeleted r s .failedToLaunch left) :=
  (tail_sendResponse _).of_eq rfl rfl rfl rfl rfl

theorem metadataDeleted_success_cases (s : State) (left : Bytes → Bool) :
    (s.extendedKeysListToBeDeleted = [] ∧
      Tail r (finishedState (afterMetadata s left)) (metadataDeleted r s .success left)) ∨
    metadataDeleted r s .success left =
      { afterMetadata s left with phase := .deleteExtendedMetadata } := by
  by_cases hkeys : s.extendedKeysListToBeDeleted = []
  · refine .inl ⟨hkeys, ?_⟩
    rw [show metadataDeleted r s .success left =
      deleteExtendedMetadataSuccessful r (afterMetadata s left) from if_pos hkeys]
    exact tail_deleteExtendedMetadataSuccessful _
  · exact .inr (if_neg hkeys)

/-! ### The invariant -/

theorem batch_eq_objectsMetadata
    (h : ∀ before m after, s.phase ≠ .fetchObjectsExtendedInfo before m after) :
    batch s = s.objectsMetadata := by
  unfold batch
  split
  · next before m after hphase => exact absurd hphase (h before m after)
  · rfl

theorem base_getKeyvalSuccessful (hown : OwnName w₀) (h : Base w₀ s)
    (hphase : s.phase = .fetchObjectsInfo) (unreadable : Bytes → Bool) :
    Base w₀ (getKeyvalSuccessful r s unreadable) := by
  have hstored : ∀ m ∈ s.objectsMetadata, Stored w₀ m := by
    rw [← batch_eq_objectsMetadata (s := s) (by rw [hphase]; intros; exact nofun)]
    exact h.stored
  have hobjects : ∀ m ∈ (readPairs s unreadable).filterMap objectOf, Stored w₀ m :=
    fun m hm => stored_of_mem_objects hown h.objectList hm
  rcases getKeyvalSuccessful_cases s unreadable with ⟨_, heq⟩ | ⟨_, heq⟩ <;> rw [heq]
  · exact (tail_fetchRemaining _).base h.objectList h.extendedIndex hstored
  · rcases fetchObjectsInfoSuccessful_cases s (readPairs s unreadable) with
      ⟨_, heq⟩ | ⟨_, heq⟩ <;> rw [heq]
    · exact (tail_fetchRemainingOrFail _).base h.objectList h.extendedIndex hobjects
    · exact base_fetchObjectsExtendedInfo h.objectList h.extendedIndex hobjects

theorem base_metadataDeleted (hlist : Below s.world.objectList w₀.objectList)
    (hext : Below s.world.extendedIndex w₀.extendedIndex)
    (hstored : ∀ m ∈ s.objectsMetadata, Stored w₀ m) (result : OpResult) (left : Bytes → Bool) :
    Base w₀ (metadataDeleted r s result left) := by
  cases result with
  | failedToLaunch => exact (tail_metadataDeleted_failedToLaunch s left).base hlist hext hstored
  | failed =>
    exact (tail_metadataDeleted_failed s left).base (removeKeys_below hlist) hext hstored
  | success =>
    rcases metadataDeleted_success_cases s left with ⟨_, h⟩ | h
    · exact h.base (removeKeys_below hlist) hext hstored
    · rw [h]
      exact ⟨removeKeys_below hlist, hext, hstored⟩

theorem base_start (w : World) : Base w (start r w) :=
  (tail_fetchObjectsInfo _).base (fun _ _ h => h) (fun _ _ h => h) (fun _ hm => nomatch hm)

/-- **Every step keeps it.** -/
theorem base_step (hown : OwnName w₀) {e : Event} (h : Base w₀ s) (hstep : step r s e = some t) :
    Base w₀ t := by
  have hstored : (∀ before m after, s.phase ≠ .fetchObjectsExtendedInfo before m after) →
      ∀ m ∈ s.objectsMetadata, Stored w₀ m := by
    intro hne
    rw [← batch_eq_objectsMetadata hne]
    exact h.stored
  unfold step at hstep
  split at hstep <;> cases hstep
  · next hphase => exact base_getKeyvalSuccessful hown h hphase _
  · next hphase =>
      rw [hphase] at hstored
      exact (tail_fetchObjectsInfoFailed _ _).base h.objectList h.extendedIndex (hstored nofun)
  · next before m after ext hphase =>
      apply base_fetchObjectsExtendedInfo h.objectList h.extendedIndex
      have hbatch := h.stored
      unfold batch at hbatch
      rw [hphase] at hbatch
      intro m' hm'
      rw [append_assoc] at hm'
      rcases mem_append.mp hm' with hm' | hm'
      · exact hbatch m' (mem_append_left _ hm')
      · rcases mem_cons.mp hm' with rfl | hm'
        · exact hbatch m (mem_append_right _ mem_cons_self)
        · exact hbatch m' (mem_append_right _ (mem_cons_of_mem _ hm'))
  · next deleteList result stored hphase =>
      rw [hphase] at hstored
      cases result with
      | failedToLaunch =>
        exact (tail_sendResponse _).base h.objectList h.extendedIndex (hstored nofun)
      | failed => exact (tail_sendResponse _).base h.objectList h.extendedIndex (hstored nofun)
      | success => exact ⟨h.objectList, h.extendedIndex, hstored nofun⟩
  · next hphase =>
      rw [hphase] at hstored
      exact base_metadataDeleted h.objectList h.extendedIndex (hstored nofun) _ _
  · next hphase =>
      rw [hphase] at hstored
      exact (tail_deleteExtendedMetadataSuccessful _).base h.objectList
        (removeKeys_below h.extendedIndex) (hstored nofun)
  · next hphase =>
      rw [hphase] at hstored
      obtain ⟨l, heq⟩ := objectsDeleted_eq s _ _
      rw [heq]
      unfold cleanupOidFromProbableDeadOidList
      split <;> exact ⟨h.objectList, h.extendedIndex, hstored nofun⟩
  · next hphase =>
      rw [hphase] at hstored
      exact ⟨h.objectList, h.extendedIndex, hstored nofun⟩
  · next hphase =>
      rw [hphase] at hstored
      exact ⟨h.objectList, h.extendedIndex, hstored nofun⟩

end Base

end S3DeleteMultipleObjectsAction

end CortxS3
