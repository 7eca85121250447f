/-
The response to a delete of several objects accounts for every key.

Until the response is sent, the keys taken from the request are those reported as deleted, those
reported as errors, and those of the batch at hand (`Taken`).  A key is reported as deleted when it is
not in the object list index, and as an error when it is.  The step that sends the response is taken
between batches, so then there are no keys at hand, or it sends an error for the request as a whole.

Beside the action other requests remove objects (`stepBeside`), so that the delete of a batch may not
find all that was read.

The conditions (`TruthfulWhen`) leave out what the action does not look at: results for single keys
of a delete that succeeds, and keys that a delete has removed although it fails.
-/
import CortxS3.Proofs.DeleteMultipleObjectsListed

namespace CortxS3

open List

namespace S3DeleteMultipleObjectsAction

/-! ### The keys of a batch -/

theorem getKeys_eq (r : Request) (index count : Nat) :
    r.getKeys index count = (r.objectKeys.drop index).take count := by
  unfold Request.getKeys
  split
  · rfl
  · next hlen =>
      split
      · rw [take_of_length_le]
        rw [length_drop]
        omega
      · rw [drop_eq_nil_of_le (by omega), take_nil]

theorem take_append_getKeys (r : Request) (index count : Nat) :
    r.objectKeys.take (index + (r.getKeys index count).length) =
      r.objectKeys.take index ++ r.getKeys index count := by
  rw [getKeys_eq, take_add, length_take, length_drop]
  congr 1
  by_cases hcount : count ≤ r.objectKeys.length - index
  · rw [Nat.min_eq_left hcount]
  · rw [Nat.min_eq_right (by omega), ← length_drop, take_length,
      take_of_length_le (by rw [length_drop]; omega)]

theorem perm_kvps {kvps : List (Bytes × Option IndexValue)}
    (h : ∀ kv ∈ kvps, ∀ m, kv.2 = some (.object m) → m.objectName = kv.1) :
    (kvps.filterMap missingKey ++ kvps.filterMap corruptKey ++
      (kvps.filterMap objectOf).map (·.objectName)).Perm (kvps.map (·.1)) := by
  induction kvps with
  | nil => exact .nil
  | cons kv kvps ih =>
    have hrest := ih fun kv' hkv' => h kv' (mem_cons_of_mem _ hkv')
    obtain ⟨k, v⟩ := kv
    cases v with
    | none => exact hrest.cons k
    | some v =>
      cases v with
      | empty => exact hrest.cons k
      | corrupt =>
        show (kvps.filterMap missingKey ++ k :: kvps.filterMap corruptKey ++
          (kvps.filterMap objectOf).map (·.objectName)).Perm (k :: kvps.map (·.1))
        rw [append_assoc, cons_append]
        refine perm_middle.trans (List.Perm.cons k ?_)
        rw [← append_assoc]
        exact hrest
      | object m =>
        show (kvps.filterMap missingKey ++ kvps.filterMap corruptKey ++
          m.objectName :: (kvps.filterMap objectOf).map (·.objectName)).Perm
          (k :: kvps.map (·.1))
        rw [h _ mem_cons_self m rfl]
        exact perm_middle.trans (hrest.cons k)

/-! ### The invariant -/

/-- What a response has to say. -/
def TrueResponse (r : Request) (w : World) : Response → Prop
  | .deleteResult success error =>
    (success ++ error.map (·.1)).Perm r.objectKeys ∧
      (∀ k ∈ success, w.objectList k = none) ∧ ∀ p ∈ error, w.objectList p.1 ≠ none
  | .error .InternalError => ∃ k ∈ r.objectKeys, w.objectList k ≠ none
  | .error .ServiceUnavailable => True

/-- The keys taken from the request are reported, or in a list. -/
def Taken (r : Request) (s : State) (keys : List Bytes) : Prop :=
  (s.success ++ s.error.map (·.1) ++ keys).Perm (r.objectKeys.take s.deleteIndexInReq)

/-- What has been reported is true. -/
structure Reported (s : State) : Prop where
  noError : s.s3Error = none
  noResponse : s.response = none
  deleted : ∀ k ∈ s.success, s.world.objectList k = none
  failed : ∀ p ∈ s.error, s.world.objectList p.1 ≠ none

/-- A key of the request is there. -/
def SomeLeft (r : Request) (s : State) : Prop := ∃ k ∈ r.objectKeys, s.world.objectList k ≠ none

/-- Which keys are at hand, phase by phase. -/
def AtHand (r : Request) (s : State) : Prop :=
  match s.phase with
  | .fetchObjectsInfo => Taken r s s.keysToDelete
  | .fetchObjectsExtendedInfo before m after =>
    Taken r s ((before ++ m :: after).map (·.objectName)) ∧ SomeLeft r s
  | .putProbableDelete _ =>
    Taken r s (s.objectsMetadata.map (·.objectName)) ∧ s.objectsMetadata ≠ [] ∧ SomeLeft r s
  | .deleteObjectsMetadata =>
    Taken r s (s.objectsMetadata.map (·.objectName)) ∧ s.objectsMetadata ≠ []
  | .deleteExtendedMetadata =>
    Taken r s (s.objectsMetadata.map (·.objectName)) ∧
      ∀ m ∈ s.objectsMetadata, s.world.objectList m.objectName = none
  | .crashed => True
  | .stuck => True
  | _ => False

/-- The action has answered. -/
structure Answered (r : Request) (s : State) (response : Response) : Prop where
  sent : s.response = some response
  isTrue : TrueResponse r s.world response
  phase : s.phase = .deleteObjects ∨ s.phase = .deleteProbable ∨ s.phase = .done

/-- **What is said to the client is true**, before and after the response. -/
def Truthful (r : Request) (s : State) : Prop :=
  (Reported s ∧ AtHand r s) ∨ ∃ response, Answered r s response

/-- What happens while the request is handled. -/
inductive Happening where
  | answered (e : Event)
  /-- Another request has removed the metadata of an object. -/
  | removed (k : Bytes)

def State.without (s : State) (k : Bytes) : State :=
  { s with world.objectList := removeKeys [k] (fun _ => false) s.world.objectList }

/-- The action beside other requests, up to its response. -/
def stepBeside (r : Request) (s : State) : Happening → Option State
  | .answered e => step r s e
  | .removed k => if s.response = none then some (s.without k) else none

/-- What the action handles.  A key that cannot be read is not there; a read fails as a whole while
a key is there; a delete of metadata that succeeds has left no key, and one that fails has left those
that are there.  Other requests remove nothing that has been reported as an error, and not the last
key while records are about to be put. -/
def TruthfulWhen (r : Request) (s : State) : Happening → Prop
  | .removed k =>
    (∀ p ∈ s.error, p.1 ≠ k) ∧
      match s.phase with
      | .fetchObjectsExtendedInfo _ _ _ => SomeLeft r (s.without k)
      | .putProbableDelete _ => SomeLeft r (s.without k)
      | _ => True
  | .answered e =>
    match s.phase, e with
    | .fetchObjectsInfo, .fetched unreadable =>
      ∀ k ∈ s.keysToDelete, unreadable k = true → s.world.objectList k = none
    | .fetchObjectsInfo, .fetchFailed true => ∀ k ∈ s.keysToDelete, s.world.objectList k = none
    | .fetchObjectsInfo, .fetchFailed false => SomeLeft r s
    | .deleteObjectsMetadata, .metadataDeleted .success left =>
      ∀ m ∈ s.objectsMetadata, left m.objectName = true → s.world.objectList m.objectName = none
    | .deleteObjectsMetadata, .metadataDeleted .failed left =>
      ∀ m ∈ s.objectsMetadata, left m.objectName = (s.world.objectList m.objectName).isSome
    | _, _ => True

section Steps

variable {r : Request} {s t : State}

/-! ### The response -/

theorem cleanup_spec (s : State) : (cleanup r s).world = s.world ∧
    (cleanup r s).response = s.response ∧ ((cleanup r s).phase = .deleteObjects ∨
      (cleanup r s).phase = .deleteProbable ∨ (cleanup r s).phase = .done) := by
  unfold cleanup cleanupOidFromProbableDeadOidList
  split
  · split
    · exact ⟨rfl, rfl, .inr (.inr rfl)⟩
    · exact ⟨rfl, rfl, .inr (.inl rfl)⟩
  · split
    · exact ⟨rfl, rfl, .inr (.inr rfl)⟩
    · exact ⟨rfl, rfl, .inl rfl⟩

variable {code : S3ErrorCode}

theorem sendResponse_of_error (h : s.s3Error = some code) :
    sendResponseToS3Client r s = cleanup r { s with response := some (.error code) } := by
  unfold sendResponseToS3Client
  simp only [h]

theorem sendResponse_of_noError (h : s.s3Error = none) : sendResponseToS3Client r s =
    cleanup r { s with response := some (.deleteResult s.success s.error) } := by
  unfold sendResponseToS3Client
  simp only [h]

theorem truthful_sendError (hcode : s.s3Error = some code)
    (h : TrueResponse r s.world (.error code)) : Truthful r (sendResponseToS3Client r s) := by
  rw [sendResponse_of_error hcode]
  obtain ⟨hworld, hresponse, hphase⟩ := cleanup_spec (r := r)
    { s with response := some (.error code) }
  exact .inr ⟨_, hresponse, by rw [hworld]; exact h, hphase⟩

theorem truthful_sendResult (h : Reported s) (htaken : Taken r s [])
    (hlast : r.objectKeys.length ≤ s.deleteIndexInReq) :
    Truthful r (sendResponseToS3Client r s) := by
  rw [sendResponse_of_noError h.noError]
  obtain ⟨hworld, hresponse, hphase⟩ := cleanup_spec (r := r)
    { s with response := some (.deleteResult s.success s.error) }
  refine .inr ⟨_, hresponse, ?_, hphase⟩
  rw [hworld]
  refine ⟨?_, h.deleted, h.failed⟩
  unfold Taken at htaken
  rw [append_nil, take_of_length_le hlast] at htaken
  exact htaken

/-! ### The next batch -/

section

variable (hbucket : r.bucket.objectListIndexOid ≠ {})

include hbucket

theorem truthful_fetchObjectsInfo (h : Reported s)
    (htaken : Taken r s []) (hlt : s.deleteIndexInReq < r.objectKeys.length) :
    Truthful r (fetchObjectsInfo r s) := by
  unfold fetchObjectsInfo
  rw [if_neg hbucket, if_pos hlt]
  refine .inl ⟨⟨h.noError, h.noResponse, h.deleted, h.failed⟩, ?_⟩
  show (s.success ++ s.error.map (·.1) ++ r.getKeys s.deleteIndexInReq r.fetchCount).Perm
    (r.objectKeys.take (s.deleteIndexInReq +
      (r.getKeys s.deleteIndexInReq r.fetchCount).length))
  rw [take_append_getKeys]
  unfold Taken at htaken
  rw [append_nil] at htaken
  exact htaken.append_right _

theorem truthful_fetchRemaining (h : Reported s)
    (htaken : Taken r s []) : Truthful r (fetchRemaining r s) := by
  unfold fetchRemaining
  by_cases hlt : s.deleteIndexInReq < r.objectKeys.length
  · rw [if_pos hlt]
    exact truthful_fetchObjectsInfo hbucket h htaken hlt
  · rw [if_neg hlt]
    exact truthful_sendResult h htaken (Nat.le_of_not_lt hlt)

theorem truthful_fetchRemainingOrFail (h : Reported s)
    (htaken : Taken r s []) (hleft : s.atLeastOneDeleteSuccessful = false →
      SomeLeft r s) : Truthful r (fetchRemainingOrFail r s) := by
  unfold fetchRemainingOrFail
  by_cases hlt : s.deleteIndexInReq < r.objectKeys.length
  · rw [if_pos hlt]
    exact truthful_fetchObjectsInfo hbucket h htaken hlt
  · rw [if_neg hlt]
    split
    · exact truthful_sendResult h htaken (Nat.le_of_not_lt hlt)
    · next hnone => exact truthful_sendError rfl (hleft (Bool.eq_false_iff.mpr hnone))

theorem truthful_start (w : World) :
    Truthful r (start r w) := by
  unfold start
  by_cases hlt : 0 < r.objectKeys.length
  · refine truthful_fetchObjectsInfo hbucket ⟨rfl, rfl, nofun, nofun⟩ ?_ hlt
    exact List.Perm.refl []
  · unfold fetchObjectsInfo
    rw [if_neg hbucket, if_neg hlt]
    exact .inl ⟨⟨rfl, rfl, nofun, nofun⟩, trivial⟩

end

variable {keys : List Bytes}

theorem Taken.mem (h : Taken r s keys) : ∀ k ∈ keys, k ∈ r.objectKeys := by
  intro k hk
  exact mem_of_mem_take (h.subset (mem_append_right _ hk))

theorem Taken.nodup (hnodup : r.objectKeys.Nodup) (h : Taken r s keys) :
    (s.success ++ s.error.map (·.1) ++ keys).Nodup :=
  h.nodup_iff.mpr (hnodup.sublist (take_sublist _ _))

/-! ### A batch is read -/

variable {unreadable : Bytes → Bool}

theorem perm_readPairs (h : s.keysToDelete.Nodup) :
    ((readPairs s unreadable).map (·.1)).Perm s.keysToDelete := by
  have hkeys : (s.keysToDelete.map fun k =>
      (k, if unreadable k then none else s.world.objectList k)).map Prod.fst = s.keysToDelete := by
    rw [map_map]
    exact map_id _
  have hperm := (SortedMap.ofWrites_perm (by rw [hkeys]; exact h)).map Prod.fst
  rw [hkeys] at hperm
  exact hperm

variable {kv : Bytes × Option IndexValue}

/-- What cannot be read is not there. -/
def ReadsAll (s : State) (unreadable : Bytes → Bool) : Prop :=
  ∀ k ∈ s.keysToDelete, unreadable k = true → s.world.objectList k = none

theorem readPairs_value (hread : ReadsAll s unreadable) (h : kv ∈ readPairs s unreadable) :
    kv.2 = s.world.objectList kv.1 := by
  obtain ⟨hmem, hval⟩ := mem_readPairs h
  rw [hval]
  split
  · next hun => exact (hread _ hmem hun).symm
  · rfl

variable {k : Bytes}

theorem missingKey_eq_some (h : missingKey kv = some k) :
    k = kv.1 ∧ (kv.2 = none ∨ kv.2 = some .empty) := by
  unfold missingKey at h
  split at h <;> cases h
  · next hval => exact ⟨rfl, .inl hval⟩
  · next hval => exact ⟨rfl, .inr hval⟩

theorem corruptKey_eq_some (h : corruptKey kv = some k) : k = kv.1 ∧ kv.2 = some .corrupt := by
  unfold corruptKey at h
  split at h <;> cases h
  next hval => exact ⟨rfl, hval⟩

section Fetched

variable {w₀ : World} {unreadable : Bytes → Bool}

theorem reported_fetchedState (hbase : Base w₀ s) (hempty : ∀ k, w₀.objectList k ≠ some .empty)
    (hread : ReadsAll s unreadable) (h : Reported s) :
    Reported (fetchedState s (readPairs s unreadable)) where
  noError := h.noError
  noResponse := h.noResponse
  deleted := by
    intro k hk
    rcases mem_append.mp hk with hk | hk
    · exact h.deleted k hk
    · obtain ⟨kv, hkv, hmissing⟩ := mem_filterMap.mp hk
      obtain ⟨rfl, hnone | hval⟩ := missingKey_eq_some hmissing
      · rw [readPairs_value hread hkv] at hnone
        exact hnone
      · rw [readPairs_value hread hkv] at hval
        exact absurd (hbase.objectList _ _ hval) (hempty _)
  failed := by
    intro p hp
    rcases mem_append.mp hp with hp | hp
    · exact h.failed p hp
    · obtain ⟨k, hk, rfl⟩ := mem_map.mp hp
      obtain ⟨kv, hkv, hcorrupt⟩ := mem_filterMap.mp hk
      obtain ⟨rfl, hval⟩ := corruptKey_eq_some hcorrupt
      rw [readPairs_value hread hkv] at hval
      show s.world.objectList kv.1 ≠ none
      rw [hval]
      exact nofun

theorem taken_fetchedState (hown : OwnName w₀) (hbase : Base w₀ s) (hnodup : r.objectKeys.Nodup)
    (hread : ReadsAll s unreadable) (h : Taken r s s.keysToDelete) :
    Taken r (fetchedState s (readPairs s unreadable))
      (((readPairs s unreadable).filterMap objectOf).map (·.objectName)) := by
  have hkeys : s.keysToDelete.Nodup := (nodup_append.mp (h.nodup hnodup)).2.1
  have hnames : ∀ kv ∈ readPairs s unreadable, ∀ m, kv.2 = some (.object m) →
      m.objectName = kv.1 := by
    intro kv hkv m hm
    rw [readPairs_value hread hkv] at hm
    exact hown.name _ _ (hbase.objectList _ _ hm)
  have hall := (perm_kvps hnames).trans (perm_readPairs hkeys)
  refine List.Perm.trans ?_ h
  refine List.Perm.trans ?_ (hall.append_left _)
  have herrors : ((readPairs s unreadable).filterMap corruptKey).map
      ((·.1) ∘ fun k => (k, S3ErrorCode.InternalError)) =
      (readPairs s unreadable).filterMap corruptKey := map_id _
  unfold fetchedState
  dsimp only
  rw [map_append, map_map, herrors, perm_iff_count]
  intro k
  simp only [count_append]
  omega

theorem truthful_addObjectOid (h : Reported s)
    (htaken : Taken r s (s.objectsMetadata.map (·.objectName))) (hne : s.objectsMetadata ≠ [])
    (hleft : SomeLeft r s) : Truthful r (addObjectOidToProbableDeadOidList r s) := by
  rcases addObjectOid_cases (r := r) s with heq | ⟨records, _, heq⟩ <;> rw [heq]
  · exact .inl ⟨⟨h.noError, h.noResponse, h.deleted, h.failed⟩, trivial⟩
  · exact .inl ⟨⟨h.noError, h.noResponse, h.deleted, h.failed⟩, htaken, hne, hleft⟩

theorem truthful_fetchObjectsExtendedInfo {before after : List S3ObjectMetadata} (h : Reported s)
    (htaken : Taken r s ((before ++ after).map (·.objectName))) (hne : before ++ after ≠ [])
    (hleft : SomeLeft r s) :
    Truthful r (fetchObjectsExtendedInfo r s before after) := by
  rcases fetchObjectsExtendedInfo_cases (r := r) s after before with
    ⟨simple, m, rest, rfl, _, _, heq⟩ | ⟨_, heq⟩ <;> rw [heq]
  · rw [← append_assoc] at htaken
    exact .inl ⟨⟨h.noError, h.noResponse, h.deleted, h.failed⟩, htaken, hleft⟩
  · exact truthful_addObjectOid ⟨h.noError, h.noResponse, h.deleted, h.failed⟩ htaken hne hleft

theorem truthful_getKeyvalSuccessful (hbucket : r.bucket.objectListIndexOid ≠ {})
    (hnodup : r.objectKeys.Nodup) (hown : OwnName w₀) (hempty : ∀ k, w₀.objectList k ≠ some .empty)
    (hbase : Base w₀ s) (hread : ReadsAll s unreadable) (h : Reported s)
    (htaken : Taken r s s.keysToDelete) : Truthful r (getKeyvalSuccessful r s unreadable) := by
  have hkeys : s.keysToDelete.Nodup := (nodup_append.mp (htaken.nodup hnodup)).2.1
  rcases getKeyvalSuccessful_cases (r := r) s unreadable with ⟨hnone, heq⟩ | ⟨hsome, heq⟩ <;> rw [heq]
  · -- no key is there
    apply truthful_fetchRemaining hbucket
    · refine ⟨h.noError, h.noResponse, ?_, h.failed⟩
      intro k hk
      rcases mem_append.mp hk with hk | hk
      · exact h.deleted k hk
      · obtain ⟨kv, hkv, rfl⟩ := mem_map.mp ((perm_readPairs hkeys).symm.subset hk)
        show s.world.objectList kv.1 = none
        rw [← readPairs_value hread hkv]
        exact hnone kv hkv
    · refine List.Perm.trans ?_ htaken
      rw [perm_iff_count]
      intro k
      simp only [count_append, count_nil]
      omega
  · have hreported := reported_fetchedState hbase hempty hread h
    have htaken' := taken_fetchedState hown hbase hnodup hread htaken
    have hleft : SomeLeft r s := by
      obtain ⟨kv, hkv, hval⟩ := hsome
      rw [readPairs_value hread hkv] at hval
      exact ⟨kv.1, htaken.mem _ (mem_readPairs hkv).1, hval⟩
    rcases fetchObjectsInfoSuccessful_cases (r := r) s (readPairs s unreadable) with
      ⟨hnil, heq⟩ | ⟨hne, heq⟩ <;> rw [heq]
    · -- what was read is corrupt
      rw [hnil] at htaken'
      exact truthful_fetchRemainingOrFail hbucket hreported htaken' fun _ => hleft
    · exact truthful_fetchObjectsExtendedInfo hreported htaken' hne hleft

end Fetched

/-! ### A batch is deleted -/

variable {left : Bytes → Bool}

theorem missingResults_eq :
    ∀ (keys : List Bytes) (index : Bytes → Option IndexValue), keys.Nodup →
      (∀ k ∈ keys, left k = (index k).isSome) →
        missingResults left index keys = keys.map fun k => (index k).isNone := by
  intro keys
  induction keys with
  | nil => intro index _ _; rfl
  | cons k keys ih =>
    intro index hnodup h
    obtain ⟨hk, hkeys⟩ := nodup_cons.mp hnodup
    have hsame : ∀ k' ∈ keys, removeKeys [k] left index k' = index k' := fun k' hk' =>
      removeKeys_of_notMem fun hmem => hk (mem_singleton.mp hmem ▸ hk')
    rw [missingResults, ih _ hkeys fun k' hk' => by
      rw [hsame k' hk']
      exact h k' (mem_cons_of_mem _ hk'), h k mem_cons_self, map_cons]
    congr 1
    · cases index k <;> rfl
    · exact map_congr_left fun k' hk' => by rw [hsame k' hk']

/-- The object is not listed any more. -/
def State.misses (s : State) (m : S3ObjectMetadata) : Bool := (s.world.objectList m.objectName).isNone

/-- A delete of metadata that fails: what another request has removed is a success. -/
theorem failedState_eq (hnodup : (s.objectsMetadata.map (·.objectName)).Nodup)
    (hleft : ∀ m ∈ s.objectsMetadata,
      left m.objectName = (s.world.objectList m.objectName).isSome) :
    metadataDeleted r s .failed left = fetchRemainingOrFail r { s with
      atLeastOneDeleteSuccessful :=
        s.atLeastOneDeleteSuccessful || s.objectsMetadata.any s.misses
      success := s.success ++ (s.objectsMetadata.filter s.misses).map (·.objectName)
      error := s.error ++ (s.objectsMetadata.filter (!s.misses ·)).map
        fun m => (m.objectName, .InternalError) } := by
  have hkeys : ∀ k ∈ s.objectsMetadata.map (·.objectName),
      left k = (s.world.objectList k).isSome := by
    intro k hk
    obtain ⟨m, hm, rfl⟩ := mem_map.mp hk
    exact hleft m hm
  have hworld : removeKeys (s.objectsMetadata.map (·.objectName)) left s.world.objectList =
      s.world.objectList := by
    refine removeKeys_of_left fun k hk hfalse => ?_
    rw [hkeys k hk] at hfalse
    exact Option.isNone_iff_eq_none.mp (Option.isSome_eq_false_iff.mp hfalse)
  have hzip : s.objectsMetadata.zip ((s.objectsMetadata.map (·.objectName)).map
      fun k => (s.world.objectList k).isNone) = s.objectsMetadata.map fun m => (m, s.misses m) := by
    rw [map_map, map_prod_left_eq_zip]
    rfl
  unfold metadataDeleted deleteObjectsMetadataFailed
  dsimp only
  rw [hworld, missingResults_eq _ _ hnodup hkeys, hzip, any_map, filter_map,
    filter_map, map_map, map_map]
  rfl

theorem reported_afterMetadata (hnodup : r.objectKeys.Nodup) (h : Reported s)
    (htaken : Taken r s (s.objectsMetadata.map (·.objectName))) (left : Bytes → Bool) :
    Reported (afterMetadata s left) where
  noError := h.noError
  noResponse := h.noResponse
  deleted := by
    intro k hk
    show removeKeys _ left s.world.objectList k = none
    unfold removeKeys
    rw [h.deleted k hk, ite_self]
  failed := by
    intro p hp
    have hnot : p.1 ∉ s.objectsMetadata.map (·.objectName) := by
      intro hmem
      have hdisjoint := (nodup_append.mp (htaken.nodup hnodup)).2.2
      exact hdisjoint p.1 (mem_append_right _ (mem_map.mpr ⟨p, hp, rfl⟩)) p.1 hmem rfl
    show removeKeys _ left s.world.objectList p.1 ≠ none
    rw [removeKeys_of_notMem hnot]
    exact h.failed p hp

theorem truthful_finishedState (hbucket : r.bucket.objectListIndexOid ≠ {}) (h : Reported s)
    (htaken : Taken r s (s.objectsMetadata.map (·.objectName)))
    (hgone : ∀ m ∈ s.objectsMetadata, s.world.objectList m.objectName = none) :
    Truthful r (deleteExtendedMetadataSuccessful r s) := by
  refine truthful_fetchRemaining hbucket ⟨h.noError, h.noResponse, ?_, h.failed⟩ ?_
  · intro k hk
    rcases mem_append.mp hk with hk | hk
    · exact h.deleted k hk
    · obtain ⟨m, hm, rfl⟩ := mem_map.mp hk
      exact hgone m hm
  · refine List.Perm.trans ?_ htaken
    rw [perm_iff_count]
    intro k
    simp only [count_append, count_nil]
    omega

theorem truthful_metadataDeleted (hbucket : r.bucket.objectListIndexOid ≠ {})
    (hnodup : r.objectKeys.Nodup) {result : OpResult} (h : Reported s)
    (htaken : Taken r s (s.objectsMetadata.map (·.objectName))) (hne : s.objectsMetadata ≠ [])
    (hsuccess : result = .success → ∀ m ∈ s.objectsMetadata,
      left m.objectName = true → s.world.objectList m.objectName = none)
    (hfailed : result = .failed → ∀ m ∈ s.objectsMetadata,
      left m.objectName = (s.world.objectList m.objectName).isSome) :
    Truthful r (metadataDeleted r s result left) := by
  cases result with
  | failedToLaunch => exact truthful_sendError rfl trivial
  | failed =>
    rw [failedState_eq (nodup_append.mp (htaken.nodup hnodup)).2.1 (hfailed rfl)]
    apply truthful_fetchRemainingOrFail hbucket
    · refine ⟨h.noError, h.noResponse, ?_, ?_⟩
      · intro k hk
        rcases mem_append.mp hk with hk | hk
        · exact h.deleted k hk
        · obtain ⟨m, hm, rfl⟩ := mem_map.mp hk
          exact Option.isNone_iff_eq_none.mp (mem_filter.mp hm).2
      · intro p hp
        rcases mem_append.mp hp with hp | hp
        · exact h.failed p hp
        · obtain ⟨m, hm, rfl⟩ := mem_map.mp hp
          have hthere := (mem_filter.mp hm).2
          intro hnone
          rw [State.misses, hnone] at hthere
          cases hthere
    · refine List.Perm.trans ?_ htaken
      have hsplit := (filter_append_perm s.misses s.objectsMetadata).map (·.objectName)
      rw [map_append] at hsplit
      refine List.Perm.trans ?_ (hsplit.append_left _)
      rw [append_nil, map_append, map_map, perm_iff_count]
      intro k
      simp only [count_append, Function.comp_def]
      omega
    · intro hnone
      obtain ⟨m, hm⟩ := exists_mem_of_ne_nil _ hne
      refine ⟨m.objectName, htaken.mem _ (mem_map.mpr ⟨m, hm, rfl⟩), fun hgone => ?_⟩
      have hany := (Bool.or_eq_false_iff.mp hnone).2
      rw [any_eq_false] at hany
      exact hany m hm (Option.isNone_iff_eq_none.mpr hgone)
  | success =>
    have hreported := reported_afterMetadata hnodup h htaken left
    have hgone : ∀ m ∈ s.objectsMetadata,
        (afterMetadata s left).world.objectList m.objectName = none := by
      intro m hm
      cases hval : (afterMetadata s left).world.objectList m.objectName with
      | none => rfl
      | some v =>
        obtain ⟨hlisted, hleft⟩ := removeKeys_eq_some hval
        rw [hsuccess rfl m hm (hleft (mem_map.mpr ⟨m, hm, rfl⟩))] at hlisted
        cases hlisted
    by_cases hkeys : s.extendedKeysListToBeDeleted = []
    · rw [show metadataDeleted r s .success left =
        deleteExtendedMetadataSuccessful r (afterMetadata s left) from if_pos hkeys]
      exact truthful_finishedState hbucket hreported htaken hgone
    · rw [show metadataDeleted r s .success left =
        { afterMetadata s left with phase := .deleteExtendedMetadata } from if_neg hkeys]
      exact .inl ⟨⟨h.noError, h.noResponse, hreported.deleted, hreported.failed⟩, htaken, hgone⟩

/-! ### All steps -/

variable {e : Event}

theorem answered_step {response : Response} (h : Answered r s response)
    (hstep : step r s e = some t) : Answered r t response := by
  have hphase := h.phase
  unfold step at hstep
  split at hstep <;> cases hstep
  case h_7 =>
    obtain ⟨l, heq⟩ := objectsDeleted_eq s _ _
    rw [heq]
    unfold cleanupOidFromProbableDeadOidList
    split
    · exact ⟨h.sent, h.isTrue, .inr (.inr rfl)⟩
    · exact ⟨h.sent, h.isTrue, .inr (.inl rfl)⟩
  case h_8 => exact ⟨h.sent, h.isTrue, .inr (.inr rfl)⟩
  case h_9 => exact ⟨h.sent, h.isTrue, .inr (.inr rfl)⟩
  all_goals
    next hp =>
      rw [hp] at hphase
      rcases hphase with hphase | hphase | hphase <;> cases hphase

/-- An object that another request removes. -/
theorem truthful_without {k : Bytes} (h : Truthful r s) (hnone : s.response = none)
    (hok : TruthfulWhen r s (.removed k)) : Truthful r (s.without k) := by
  have hgone : ∀ k', s.world.objectList k' = none → (s.without k).world.objectList k' = none := by
    intro k' hk'
    show removeKeys [k] (fun _ => false) s.world.objectList k' = none
    unfold removeKeys
    rw [hk', ite_self]
  rcases h with ⟨h, hand⟩ | ⟨response, h⟩
  · refine .inl ⟨⟨h.noError, h.noResponse, fun k' hk' => hgone k' (h.deleted k' hk'), ?_⟩, ?_⟩
    · intro p hp
      show removeKeys [k] (fun _ => false) s.world.objectList p.1 ≠ none
      rw [removeKeys_of_notMem fun hmem => hok.1 p hp (mem_singleton.mp hmem)]
      exact h.failed p hp
    · have hleft := hok.2
      unfold AtHand at hand ⊢
      rw [show (s.without k).phase = s.phase from rfl]
      cases hphase : s.phase <;> simp only [hphase] at hand hleft ⊢
      case fetchObjectsExtendedInfo => exact ⟨hand.1, hleft⟩
      case putProbableDelete => exact ⟨hand.1, hand.2.1, hleft⟩
      case deleteExtendedMetadata => exact ⟨hand.1, fun m hm => hgone _ (hand.2 m hm)⟩
      all_goals exact hand
  · rw [h.sent] at hnone
    cases hnone

/-- **Every step the action handles keeps it.** -/
theorem truthful_step (hbucket : r.bucket.objectListIndexOid ≠ {}) (hnodup : r.objectKeys.Nodup)
    {w₀ : World} (hown : OwnName w₀) (hempty : ∀ k, w₀.objectList k ≠ some .empty)
    (hbase : Base w₀ s) (h : Truthful r s) (hok : TruthfulWhen r s (.answered e))
    (hstep : step r s e = some t) : Truthful r t := by
  rcases h with ⟨h, hand⟩ | ⟨response, h⟩
  · unfold AtHand at hand
    unfold TruthfulWhen at hok
    unfold step at hstep
    split at hstep <;> cases hstep
    · next hphase =>
        simp only [hphase] at hand hok
        exact truthful_getKeyvalSuccessful hbucket hnodup hown hempty hbase hok h hand
    · next missing hphase =>
        simp only [hphase] at hand hok
        cases missing with
        | false => exact truthful_sendError rfl hok
        | true =>
          refine truthful_fetchRemaining hbucket ⟨h.noError, h.noResponse, ?_, h.failed⟩ ?_
          · intro k hk
            rcases mem_append.mp hk with hk | hk
            · exact h.deleted k hk
            · exact hok k hk
          · refine List.Perm.trans ?_ hand
            rw [perm_iff_count]
            intro k
            simp only [count_append, count_nil]
            omega
    · next before m after ext hphase =>
        simp only [hphase] at hand
        obtain ⟨htaken, hleft⟩ := hand
        refine truthful_fetchObjectsExtendedInfo h ?_ (by simp) hleft
        rw [append_assoc, map_append]
        rw [map_append] at htaken
        exact htaken
    · next deleteList result stored hphase =>
        simp only [hphase] at hand
        obtain ⟨htaken, hne, hleft⟩ := hand
        cases result with
        | failedToLaunch => exact truthful_sendError rfl trivial
        | failed => exact truthful_sendError rfl hleft
        | success => exact .inl ⟨⟨h.noError, h.noResponse, h.deleted, h.failed⟩, htaken, hne⟩
    · next result left hphase =>
        simp only [hphase] at hand hok
        apply truthful_metadataDeleted hbucket hnodup h hand.1 hand.2
        · rintro rfl
          exact hok
        · rintro rfl
          exact hok
    · next hphase =>
        simp only [hphase] at hand
        exact truthful_finishedState hbucket ⟨h.noError, h.noResponse, h.deleted, h.failed⟩ hand.1
          hand.2
    all_goals
      next hphase =>
        simp only [hphase] at hand
  · exact .inr ⟨response, answered_step h hstep⟩

end Steps

/-- **The response accounts for every key.**  In a run in which Motr answers only as the action
expects, each key of the request occurs once in a result, as deleted exactly when it is not in the
object list index and as an error otherwise; and the request fails as a whole only when some key is
still there. -/
theorem response_accounts {r : Request} {w₀ : World} {s : State}
    (hbucket : r.bucket.objectListIndexOid ≠ {}) (hnodup : r.objectKeys.Nodup) (hown : OwnName w₀)
    (hempty : ∀ k, w₀.objectList k ≠ some .empty)
    (h : Runs.Reachable (stepBeside r) (TruthfulWhen r) (start r w₀) s) :
    (∀ success error, s.response = some (.deleteResult success error) →
      (success ++ error.map (·.1)).Perm r.objectKeys ∧ ∀ k ∈ r.objectKeys,
        (success ++ error.map (·.1)).count k = 1 ∧
          (k ∈ success ↔ s.world.objectList k = none) ∧
          (k ∈ error.map (·.1) ↔ s.world.objectList k ≠ none)) ∧
      (s.response = some (.error .InternalError) →
        ∃ k ∈ r.objectKeys, s.world.objectList k ≠ none) := by
  have hinv : Base w₀ s ∧ Truthful r s := by
    refine Runs.Reachable.invariant (P := fun s => Base w₀ s ∧ Truthful r s)
      ⟨base_start w₀, truthful_start hbucket w₀⟩ ?_ h
    rintro s (e | k) t ⟨hbase, htruthful⟩ hok hstep
    · exact ⟨base_step hown hbase hstep,
        truthful_step hbucket hnodup hown hempty hbase htruthful hok hstep⟩
    · simp only [stepBeside] at hstep
      split at hstep <;> cases hstep
      next hnone =>
        exact ⟨⟨removeKeys_below hbase.objectList, hbase.extendedIndex, hbase.stored⟩,
          truthful_without htruthful hnone hok⟩
  constructor
  · intro success error hsent
    rcases hinv.2 with ⟨hreported, _⟩ | ⟨response, hanswered⟩
    · rw [hreported.noResponse] at hsent
      cases hsent
    · rw [hanswered.sent] at hsent
      cases hsent
      obtain ⟨hperm, hdeleted, hfailed⟩ := hanswered.isTrue
      have hfailed' : ∀ k ∈ error.map (·.1), s.world.objectList k ≠ none := by
        intro k hk
        obtain ⟨p, hp, rfl⟩ := mem_map.mp hk
        exact hfailed p hp
      refine ⟨hperm, fun k hk => ⟨?_, ?_, ?_⟩⟩
      · rw [hperm.count_eq]
        exact count_eq_one_of_mem hnodup hk
      · refine ⟨hdeleted k, fun hnone => ?_⟩
        rcases mem_append.mp (hperm.symm.subset hk) with hmem | hmem
        · exact hmem
        · exact absurd hnone (hfailed' k hmem)
      · refine ⟨hfailed' k, fun hsome => ?_⟩
        rcases mem_append.mp (hperm.symm.subset hk) with hmem | hmem
        · exact absurd (hdeleted k hmem) hsome
        · exact hmem
  · intro hsent
    rcases hinv.2 with ⟨hreported, _⟩ | ⟨response, hanswered⟩
    · rw [hreported.noResponse] at hsent
      cases hsent
    · rw [hanswered.sent] at hsent
      cases hsent
      exact hanswered.isTrue

theorem ne_empty_sampleListing (k : Bytes) : sampleListing.objectList k ≠ some .empty := by
  intro h
  unfold sampleListing at h
  dsimp only at h
  split at h
  · cases h
  · split at h <;> cases h

/-- The delete of two objects fails: another request has removed the one, and the other stays. -/
theorem response_accounts_oneGone :
    ∃ s, Runs.Reachable (stepBeside (sampleRequest ["movie", "film"] 2))
        (TruthfulWhen (sampleRequest ["movie", "film"] 2))
        (start (sampleRequest ["movie", "film"] 2) sampleListing) s ∧
      s.response = some (.deleteResult [ascii "movie"] [(ascii "film", .InternalError)]) ∧
      s.world.objectList (ascii "movie") = none ∧ s.world.objectList (ascii "film") ≠ none := by
  have h₁ : Runs.Reachable (stepBeside (sampleRequest ["movie", "film"] 2))
      (TruthfulWhen (sampleRequest ["movie", "film"] 2))
      (start (sampleRequest ["movie", "film"] 2) sampleListing)
      (start (sampleRequest ["movie", "film"] 2) sampleListing) := .start
  have h₂ := h₁.step (.answered (.fetched fun _ => false)) nofun rfl
  have h₃ := h₂.step (.answered (.extendedLoaded none)) trivial rfl
  have h₄ := h₃.step (.removed (ascii "movie"))
    ⟨nofun, ascii "film", mem_cons_of_mem _ mem_cons_self, nofun⟩ rfl
  have h₅ := h₄.step (.answered (.probablePut .success fun _ => true)) trivial rfl
  have h₆ := h₅.step (.answered (.metadataDeleted .failed (· == ascii "film")))
    (show ∀ m ∈ State.objectsMetadata _, (m.objectName == ascii "film") = Option.isSome _ by decide)
    rfl
  have haccounts := (response_accounts (by decide) (by decide) ownName_sampleListing
    ne_empty_sampleListing h₆).1 [ascii "movie"] [(ascii "film", .InternalError)] rfl
  refine ⟨_, h₆, rfl, ?_, ?_⟩
  · exact (haccounts.2 (ascii "movie") mem_cons_self).2.1.mp mem_cons_self
  · exact (haccounts.2 (ascii "film") (mem_cons_of_mem _ mem_cons_self)).2.2.mp
      mem_cons_self

/-- A delete that succeeds and leaves the key: it is reported as deleted. -/
theorem not_response_accounts_keyLeft :
    ∃ s, Runs.Reachable (step (sampleRequest ["movie"] 30)) (fun _ _ => True)
      (start (sampleRequest ["movie"] 30) sampleListing) s ∧
      s.response = some (.deleteResult [ascii "movie"] []) ∧
      s.world.objectList (ascii "movie") ≠ none := by
  have h₁ : Runs.Reachable (step (sampleRequest ["movie"] 30)) (fun _ _ => True)
      (start (sampleRequest ["movie"] 30) sampleListing)
      (start (sampleRequest ["movie"] 30) sampleListing) := .start
  have h₂ := h₁.step (.fetched fun _ => false) trivial rfl
  have h₃ := h₂.step (.probablePut .success fun _ => true) trivial rfl
  have h₄ := h₃.step (.metadataDeleted .success fun _ => true) trivial rfl
  exact ⟨_, h₄, rfl, nofun⟩

end S3DeleteMultipleObjectsAction

end CortxS3
