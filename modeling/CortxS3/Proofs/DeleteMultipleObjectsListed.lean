/-
Objects that stay listed are left alone by the delete of several objects.

What the action deletes besides metadata, the extended metadata and the Motr objects, has to belong to
objects that are no longer listed.  The list of identifiers to delete grows by those of a batch when
its metadata is gone, and of these no listed object owns any (`Unharmed`).

The list of extended keys is another matter.  It grows before the metadata is deleted and is never
cleared, so an object in parts whose batch failed stays on it while later batches go on.  What is on it
are keys of objects whose extended metadata has been loaded (`OfLoaded`), and the condition on a delete
of metadata that succeeds is that each of these is gone, or in the batch (`SparesWhen`).
-/
import CortxS3.Proofs.DeleteMultipleObjectsRecords

namespace CortxS3

open List

namespace S3DeleteMultipleObjectsAction

/-! ### What belongs to an object -/

/-- The identifiers of an object: its own and those of its parts. -/
def ownedOids (w : World) (m : S3ObjectMetadata) : List M0Uint128 := m.oid :: partOids w m

theorem motrObjects_subset (w : World) (m : S3ObjectMetadata) :
    ∀ oid ∈ motrObjects w m, oid ∈ ownedOids w m := by
  intro oid hoid
  unfold motrObjects at hoid
  split at hoid
  · rw [mem_singleton.mp hoid]
    exact mem_cons_self
  · exact mem_cons_of_mem _ hoid

theorem ownedOids_congr {m m' : S3ObjectMetadata} (w : World) (h : bare m = bare m') :
    ownedOids w m = ownedOids w m' := by
  show ownedOids w (bare m) = ownedOids w (bare m')
  rw [h]

/-- No two objects have an identifier in common. -/
def Separate (w : World) : Prop :=
  ∀ k m k' m', w.objectList k = some (.object m) → w.objectList k' = some (.object m') →
    k ≠ k' → ∀ oid ∈ ownedOids w m, oid ∉ ownedOids w m'

/-! ### The invariant -/

/-- Nothing that belongs to a listed object was deleted or is going to be. -/
structure Unharmed (w₀ : World) (s : State) : Prop where
  extended : ∀ k m, s.world.objectList k = some (.object m) → ∀ key ∈ partKeys m,
    s.world.extendedIndex key = w₀.extendedIndex key
  deleted : ∀ k m, s.world.objectList k = some (.object m) → ∀ oid ∈ ownedOids w₀ m,
    oid ∈ s.world.deleted → oid ∈ w₀.deleted
  spared : ∀ k m, s.world.objectList k = some (.object m) → ∀ oid ∈ ownedOids w₀ m,
    oid ∉ s.oidsToDelete

/-- What is noted of the answers: the objects whose extended metadata was loaded. -/
def noteLoaded (s : State) (e : Event) (loaded : List S3ObjectMetadata) : List S3ObjectMetadata :=
  match s.phase, e with
  | .fetchObjectsExtendedInfo _ m _, .extendedLoaded (some _) => m :: loaded
  | _, _ => loaded

/-- The key of a part of an object whose extended metadata was loaded. -/
def OfLoaded (w₀ : World) (loaded : List S3ObjectMetadata) (key : Bytes) : Prop :=
  ∃ m ∈ loaded, Stored w₀ m ∧ key ∈ partKeys m

/-- What is loaded of the extended metadata of an object names its own parts. -/
def LoadedOwn (w₀ : World) (m : S3ObjectMetadata) : Prop :=
  ∀ ext, m.extended = some ext → ∀ i < m.numberOfFragments, ∃ frag,
    S3DeleteObjectAction.fragmentAt m (i + 1) = some frag ∧
      w₀.extendedIndex (partKey m (i + 1)) = some frag.motrOID

/-- And it is noted that the keys were loaded. -/
structure LoadedNoted (w₀ : World) (loaded : List S3ObjectMetadata) (m : S3ObjectMetadata) :
    Prop where
  fragments : LoadedOwn w₀ m
  keys : ∀ key ∈ objectExtendedKeys m, OfLoaded w₀ loaded key

/-- The identifiers a batch is going to add belong to its objects. -/
def PendingOwned (w₀ : World) (s : State) : Prop :=
  ∀ oid ∈ pendingOids s, ∃ m ∈ s.objectsMetadata, oid ∈ ownedOids w₀ m

/-- What a batch is going to delete belongs to no listed object. -/
structure PendingSpared (w₀ : World) (s : State) : Prop where
  keys : ∀ key ∈ s.extendedKeysListToBeDeleted, ∀ k m,
    s.world.objectList k = some (.object m) → key ∈ partKeys m → w₀.extendedIndex key = none
  oids : ∀ oid ∈ pendingOids s, ∀ k m, s.world.objectList k = some (.object m) →
    oid ∉ ownedOids w₀ m

/-- What holds of the batch in each phase. -/
def BatchSpares (w₀ : World) (loaded : List S3ObjectMetadata) (s : State) : Prop :=
  match s.phase with
  | .fetchObjectsExtendedInfo before _ after =>
    s.extendedOidsToDelete = [] ∧ (∀ m ∈ before, LoadedNoted w₀ loaded m) ∧
      ∀ m ∈ after, m.extended = none
  | .putProbableDelete _ => PendingOwned w₀ s
  | .deleteObjectsMetadata => PendingOwned w₀ s
  | .deleteExtendedMetadata => PendingSpared w₀ s
  | _ => True

/-- **Listed objects are whole**, in every phase. -/
structure Spares (w₀ : World) (s : State) (loaded : List S3ObjectMetadata) : Prop where
  unharmed : Unharmed w₀ s
  keys : ∀ key ∈ s.extendedKeysListToBeDeleted, OfLoaded w₀ loaded key
  batch : BatchSpares w₀ loaded s

/-- All metadata of a batch is deleted, and that of every object is gone whose extended metadata was
loaded for an earlier batch. -/
def DeletesAll (s : State) (loaded : List S3ObjectMetadata) (left : Bytes → Bool) : Prop :=
  (∀ m ∈ s.objectsMetadata, left m.objectName = false) ∧
    ∀ m ∈ loaded, s.world.objectList m.objectName = none ∨
      m.objectName ∈ s.objectsMetadata.map (·.objectName)

/-- The answers of Motr that the action handles: extended metadata that is loaded is that of the
object, and a delete of metadata that succeeds leaves nothing behind. -/
def SparesWhen (p : State × List S3ObjectMetadata) (e : Event) : Prop :=
  match p.1.phase, e with
  | .fetchObjectsExtendedInfo _ m _, .extendedLoaded (some own) =>
    LoadsOwn p.1.world m own ∧ ∀ key ∈ own.getExtendedEntriesKeyList, key ∈ partKeys m
  | .deleteObjectsMetadata, .metadataDeleted .success left => DeletesAll p.1 p.2 left
  | _, _ => True

section Steps

variable {r : Request} {w₀ : World} {s t : State} {loaded : List S3ObjectMetadata}

theorem Unharmed.of_eq (h : Unharmed w₀ s) (hworld : t.world = s.world)
    (hoids : t.oidsToDelete = s.oidsToDelete) : Unharmed w₀ t where
  extended := by
    rw [hworld]
    exact h.extended
  deleted := by
    rw [hworld]
    exact h.deleted
  spared := by
    rw [hworld, hoids]
    exact h.spared

theorem Tail.spares (h : Tail r s t) (hs : Unharmed w₀ s)
    (hkeys : ∀ key ∈ s.extendedKeysListToBeDeleted, OfLoaded w₀ loaded key) : Spares w₀ t loaded where
  unharmed := hs.of_eq h.world h.oidsToDelete
  keys := by
    rw [h.extendedKeys]
    exact hkeys
  batch := by
    unfold BatchSpares
    rcases h.phase with hp | hp | ⟨hp, _⟩ | ⟨hp, _⟩ | ⟨hp, _⟩ <;> rw [hp] <;> trivial

/-- The identifiers that a batch adds are those of its objects and of their parts. -/
theorem pendingOwned_addObjectOid (hown : OwnName w₀)
    (hstored : ∀ m ∈ s.objectsMetadata, Stored w₀ m)
    (hloaded : ∀ m ∈ s.objectsMetadata, LoadedNoted w₀ loaded m)
    {records : List (List S3ProbableDeleteRecord)}
    (hrecords : List.Forall₂ (fun m rs => objectRecords r.bucket m = some rs) s.objectsMetadata
      records) {oid : M0Uint128}
    (h : oid ∈ (s.objectsMetadata.zip records).flatMap fun p => objectExtendedOids p.1 p.2) :
    ∃ m ∈ s.objectsMetadata, oid ∈ ownedOids w₀ m := by
  obtain ⟨⟨m, rs⟩, hzip, hoid⟩ := mem_flatMap.mp h
  have hm := (of_mem_zip hzip).1
  have hrs := List.forall₂_zip hrecords hzip
  refine ⟨m, hm, mem_cons_of_mem _ ?_⟩
  unfold objectExtendedOids at hoid
  by_cases hfrag : m.numberOfFragments = 0
  · rw [if_pos hfrag] at hoid
    cases hoid
  rw [if_neg hfrag] at hoid
  obtain ⟨record, hrecord, rfl⟩ := mem_map.mp hoid
  cases hext : m.extended with
  | none =>
    unfold objectRecords at hrs
    rw [if_neg hfrag, if_pos hext] at hrs
    cases hrs
    cases hrecord
  | some ext =>
    obtain ⟨i, hi, frag, hat, rfl⟩ :=
      exists_left_of_forall₂ (objectRecords_parts hfrag hext hrs) record hrecord
    rw [totalObjects_of_stored hown (hstored m hm) hfrag] at hi
    obtain ⟨frag', hat', hindex⟩ := (hloaded m hm).fragments ext hext i (mem_range.mp hi)
    rw [hat] at hat'
    cases hat'
    exact mem_filterMap.mpr ⟨_, mem_map.mpr ⟨i, hi, rfl⟩, hindex⟩

theorem spares_addObjectOid (hown : OwnName w₀) (hs : Unharmed w₀ s)
    (hkeys : ∀ key ∈ s.extendedKeysListToBeDeleted, OfLoaded w₀ loaded key)
    (hnil : s.extendedOidsToDelete = []) (hstored : ∀ m ∈ s.objectsMetadata, Stored w₀ m)
    (hloaded : ∀ m ∈ s.objectsMetadata, LoadedNoted w₀ loaded m) :
    Spares w₀ (addObjectOidToProbableDeadOidList r s) loaded := by
  rcases addObjectOid_cases (r := r) s with h | ⟨records, hrecords, h⟩ <;> rw [h]
  · exact ⟨hs.of_eq rfl rfl, hkeys, trivial⟩
  · refine ⟨hs.of_eq rfl rfl, ?_, ?_⟩
    · intro key hkey
      rcases mem_append.mp hkey with hkey | hkey
      · exact hkeys key hkey
      · obtain ⟨m, hm, hkey⟩ := mem_flatMap.mp hkey
        exact (hloaded m hm).keys key hkey
    · intro oid hoid
      obtain ⟨m, hm, hoid⟩ := mem_flatMap.mp hoid
      rcases mem_cons.mp hoid with rfl | hoid
      · exact ⟨m, hm, mem_cons_self⟩
      · rw [hnil, nil_append] at hoid
        exact pendingOwned_addObjectOid hown hstored hloaded hrecords hoid

theorem loadedNoted_of_none {m : S3ObjectMetadata} (h : m.extended = none) : LoadedNoted w₀ loaded m where
  fragments ext hext := by
    rw [h] at hext
    cases hext
  keys key hkey := by
    simp [objectExtendedKeys, h] at hkey

theorem LoadedNoted.mono {m : S3ObjectMetadata} {loaded' : List S3ObjectMetadata}
    (h : LoadedNoted w₀ loaded m) (hsub : loaded ⊆ loaded') : LoadedNoted w₀ loaded' m where
  fragments := h.fragments
  keys key hkey := by
    obtain ⟨m', hm', hstored⟩ := h.keys key hkey
    exact ⟨m', hsub hm', hstored⟩

theorem spares_fetchObjectsExtendedInfo (hown : OwnName w₀) {before after : List S3ObjectMetadata}
    (hs : Unharmed w₀ s) (hkeys : ∀ key ∈ s.extendedKeysListToBeDeleted, OfLoaded w₀ loaded key)
    (hnil : s.extendedOidsToDelete = []) (hstored : ∀ m ∈ before ++ after, Stored w₀ m)
    (hloaded : ∀ m ∈ before, LoadedNoted w₀ loaded m) (hafter : ∀ m ∈ after, m.extended = none) :
    Spares w₀ (fetchObjectsExtendedInfo r s before after) loaded := by
  have hnone : ∀ m ∈ after, LoadedNoted w₀ loaded m := fun m hm => loadedNoted_of_none (hafter m hm)
  rcases fetchObjectsExtendedInfo_cases (r := r) s after before with
    ⟨simple, m, rest, rfl, _, _, h⟩ | ⟨_, h⟩ <;> rw [h]
  · refine ⟨hs.of_eq rfl rfl, hkeys, hnil, ?_, ?_⟩
    · intro m' hm'
      rcases mem_append.mp hm' with hm' | hm'
      · exact hloaded m' hm'
      · exact hnone m' (mem_append_left _ hm')
    · intro m' hm'
      exact hafter m' (mem_append_right _ (mem_cons_of_mem _ hm'))
  · refine spares_addObjectOid hown ?_ hkeys hnil hstored ?_
    · exact hs.of_eq rfl rfl
    · exact forall_mem_append.mpr ⟨hloaded, hnone⟩

/-- A batch that is finished adds no identifier of a listed object. -/
theorem unharmed_finishedState (hs : Unharmed w₀ s) (hoids : ∀ oid ∈ pendingOids s, ∀ k m,
    s.world.objectList k = some (.object m) → oid ∉ ownedOids w₀ m) :
    Unharmed w₀ (finishedState s) where
  extended := hs.extended
  deleted := hs.deleted
  spared := by
    intro k m hm oid hoid hmem
    rcases mem_append.mp hmem with hmem | hmem
    · exact hs.spared k m hm oid hoid hmem
    · exact hoids oid hmem k m hm hoid

theorem unharmed_afterMetadata (hs : Unharmed w₀ s) (left : Bytes → Bool) :
    Unharmed w₀ (afterMetadata s left) where
  extended := fun k m hm => hs.extended k m (removeKeys_eq_some hm).1
  deleted := fun k m hm => hs.deleted k m (removeKeys_eq_some hm).1
  spared := fun k m hm => hs.spared k m (removeKeys_eq_some hm).1

/-- When all metadata of a batch is deleted, what it is going to delete belongs to nothing listed. -/
theorem pendingSpared_afterMetadata (hsep : Separate w₀) (hbase : Base w₀ s)
    (hstored : ∀ m ∈ s.objectsMetadata, Stored w₀ m) (hpending : PendingOwned w₀ s)
    (hkeys : ∀ key ∈ s.extendedKeysListToBeDeleted, OfLoaded w₀ loaded key) {left : Bytes → Bool}
    (hall : DeletesAll s loaded left) : PendingSpared w₀ (afterMetadata s left) := by
  obtain ⟨hleft, hgone⟩ := hall
  have houtside : ∀ {k m}, (afterMetadata s left).world.objectList k = some (.object m) →
      s.world.objectList k = some (.object m) ∧ k ∉ s.objectsMetadata.map (·.objectName) := by
    intro k m hm
    obtain ⟨hlisted, hkept⟩ := removeKeys_eq_some hm
    refine ⟨hlisted, fun hmem => ?_⟩
    obtain ⟨m', hm', rfl⟩ := mem_map.mp hmem
    have htrue := hkept hmem
    rw [hleft m' hm'] at htrue
    cases htrue
  -- an identifier of an object of another name is not one of a listed object
  have hother : ∀ {k m m' oid}, s.world.objectList k = some (.object m) → Stored w₀ m' →
      m'.objectName ≠ k → oid ∈ ownedOids w₀ m' → oid ∉ ownedOids w₀ m := by
    intro k m m' oid hlisted hstored' hne howned
    obtain ⟨m₀, hm₀, hbare⟩ := hstored'
    rw [ownedOids_congr w₀ hbare] at howned
    exact hsep _ m₀ k m hm₀ (hbase.objectList _ _ hlisted) hne oid howned
  constructor
  · intro key hkey k m hm hmem
    obtain ⟨hlisted, hnot⟩ := houtside hm
    obtain ⟨m', hm', hstored', hmem'⟩ := hkeys key hkey
    have hne : m'.objectName ≠ k := by
      rintro rfl
      rcases hgone m' hm' with hnone | hin
      · rw [hnone] at hlisted
        cases hlisted
      · exact hnot hin
    cases hindex : w₀.extendedIndex key with
    | none => rfl
    | some oid =>
      have howned : ∀ {m}, key ∈ partKeys m → oid ∈ ownedOids w₀ m := fun hmem =>
        mem_cons_of_mem _ (mem_filterMap.mpr ⟨key, hmem, hindex⟩)
      exact absurd (howned hmem) (hother hlisted hstored' hne (howned hmem'))
  · intro oid hoid k m hm
    obtain ⟨hlisted, hnot⟩ := houtside hm
    obtain ⟨m', hm', howned⟩ := hpending oid hoid
    refine hother hlisted (hstored m' hm') ?_ howned
    rintro rfl
    exact hnot (mem_map.mpr ⟨m', hm', rfl⟩)

theorem spares_metadataDeleted (hsep : Separate w₀) {result : OpResult} {left : Bytes → Bool}
    (hbase : Base w₀ s) (hs : Unharmed w₀ s)
    (hkeys : ∀ key ∈ s.extendedKeysListToBeDeleted, OfLoaded w₀ loaded key)
    (hstored : ∀ m ∈ s.objectsMetadata, Stored w₀ m) (hpending : PendingOwned w₀ s)
    (hok : result = .success → DeletesAll s loaded left) :
    Spares w₀ (metadataDeleted r s result left) loaded := by
  cases result with
  | failedToLaunch => exact (tail_metadataDeleted_failedToLaunch s left).spares hs hkeys
  | failed => exact (tail_metadataDeleted_failed s left).spares (unharmed_afterMetadata hs left) hkeys
  | success =>
    have hafter := unharmed_afterMetadata hs left
    have hspared := pendingSpared_afterMetadata hsep hbase hstored hpending hkeys (hok rfl)
    rcases metadataDeleted_success_cases s left with ⟨_, h⟩ | h
    · exact h.spares (unharmed_finishedState hafter hspared.oids) hkeys
    · rw [h]
      exact ⟨hafter.of_eq rfl rfl, hkeys, hspared.keys, hspared.oids⟩

theorem spares_getKeyvalSuccessful (hown : OwnName w₀) (hbase : Base w₀ s) (hs : Unharmed w₀ s)
    (hkeys : ∀ key ∈ s.extendedKeysListToBeDeleted, OfLoaded w₀ loaded key)
    (unreadable : Bytes → Bool) : Spares w₀ (getKeyvalSuccessful r s unreadable) loaded := by
  rcases getKeyvalSuccessful_cases (r := r) s unreadable with ⟨_, heq⟩ | ⟨_, heq⟩ <;> rw [heq]
  · exact (tail_fetchRemaining _).spares (hs.of_eq rfl rfl) hkeys
  · rcases fetchObjectsInfoSuccessful_cases (r := r) s (readPairs s unreadable) with
      ⟨_, heq⟩ | ⟨_, heq⟩ <;> rw [heq]
    · exact (tail_fetchRemainingOrFail _).spares (hs.of_eq rfl rfl) hkeys
    · refine spares_fetchObjectsExtendedInfo hown (hs.of_eq rfl rfl) hkeys rfl
        (fun m hm => stored_of_mem_objects hown hbase.objectList hm) nofun ?_
      intro m hm
      obtain ⟨m₀, _, rfl⟩ := listed_of_mem_objects hown hbase.objectList hm
      rfl

theorem unharmed_objectsDeleted (hs : Unharmed w₀ s)
    (hkeys : ∀ key ∈ s.extendedKeysListToBeDeleted, OfLoaded w₀ loaded key)
    (failed missing : M0Uint128 → Bool) : Spares w₀ (objectsDeleted s failed missing) loaded := by
  have hdeleted : ∀ k m, s.world.objectList k = some (.object m) → ∀ oid ∈ ownedOids w₀ m,
      oid ∈ s.world.deleted ++ s.oidsToDelete.filter (!failed ·) → oid ∈ w₀.deleted := by
    intro k m hm oid hoid hmem
    rcases mem_append.mp hmem with hmem | hmem
    · exact hs.deleted k m hm oid hoid hmem
    · exact absurd (mem_filter.mp hmem).1 (hs.spared k m hm oid hoid)
  obtain ⟨l, heq⟩ := objectsDeleted_eq s failed missing
  rw [heq]
  unfold cleanupOidFromProbableDeadOidList
  split <;> exact ⟨⟨hs.extended, hdeleted, hs.spared⟩, hkeys, trivial⟩

theorem spares_start (w : World) : Spares w (start r w) [] := by
  refine (tail_fetchObjectsInfo _).spares ?_ nofun
  constructor
  · intro k m _ key _
    rfl
  · intro k m _ oid _ h
    exact h
  · intro k m _ oid _ h
    cases h

/-- **Every step the action handles keeps it.** -/
theorem spares_step (hown : OwnName w₀) (hsep : Separate w₀) {e : Event} (hbase : Base w₀ s)
    (h : Spares w₀ s loaded) (hok : SparesWhen (s, loaded) e) (hstep : step r s e = some t) :
    Spares w₀ t (noteLoaded s e loaded) := by
  obtain ⟨hs, hkeys, hbatch⟩ := h
  have hstored := hbase.stored
  unfold batch at hstored
  unfold BatchSpares at hbatch
  unfold SparesWhen at hok
  unfold noteLoaded
  unfold step at hstep
  split at hstep <;> cases hstep
  · next hphase =>
      simp only [hphase]
      exact spares_getKeyvalSuccessful hown hbase hs hkeys _
  · next hphase =>
      simp only [hphase]
      exact (tail_fetchObjectsInfoFailed _ _).spares hs hkeys
  · next before m after ext hphase =>
      simp only [hphase] at hbatch hok hstored ⊢
      obtain ⟨hnil, hloaded, hafter⟩ := hbatch
      have hm : Stored w₀ m := hstored m (mem_append_right _ mem_cons_self)
      have hstored' : ∀ m' ∈ (before ++ [{ m with extended := ext }]) ++ after, Stored w₀ m' := by
        intro m' hm'
        rw [append_assoc] at hm'
        rcases mem_append.mp hm' with hm' | hm'
        · exact hstored m' (mem_append_left _ hm')
        · rcases mem_cons.mp hm' with rfl | hm'
          · exact hm
          · exact hstored m' (mem_append_right _ (mem_cons_of_mem _ hm'))
      cases ext with
      | none =>
        refine spares_fetchObjectsExtendedInfo hown hs hkeys hnil hstored' ?_ hafter
        refine forall_mem_append.mpr ⟨hloaded, forall_mem_singleton.mpr ?_⟩
        exact loadedNoted_of_none rfl
      | some own =>
        have hsub : loaded ⊆ m :: loaded := subset_cons_self m loaded
        refine spares_fetchObjectsExtendedInfo hown hs (fun key hkey => ?_) hnil hstored' ?_ hafter
        · obtain ⟨m', hm', hstored'⟩ := hkeys key hkey
          exact ⟨m', hsub hm', hstored'⟩
        refine forall_mem_append.mpr
          ⟨fun m' hm' => (hloaded m' hm').mono hsub, forall_mem_singleton.mpr ⟨?_, ?_⟩⟩
        · intro ext' howned i hi
          cases (show some own = some ext' from howned)
          obtain ⟨frag, hfrag, hindex⟩ := hok.1 i hi
          exact ⟨frag, hfrag, hbase.extendedIndex _ _ hindex⟩
        · intro key hkey
          unfold objectExtendedKeys at hkey
          split at hkey
          · cases hkey
          · exact ⟨m, mem_cons_self, hm, hok.2 key hkey⟩
  · next deleteList result stored hphase =>
      simp only [hphase] at hbatch ⊢
      cases result with
      | failedToLaunch => exact (tail_sendResponse _).spares (hs.of_eq rfl rfl) hkeys
      | failed =>
        exact (tail_sendResponse _).spares ⟨hs.extended, hs.deleted, hs.spared⟩ hkeys
      | success => exact ⟨⟨hs.extended, hs.deleted, hs.spared⟩, hkeys, hbatch⟩
  · next result left hphase =>
      simp only [hphase] at hbatch hok hstored ⊢
      refine spares_metadataDeleted hsep hbase hs hkeys hstored hbatch ?_
      rintro rfl
      exact hok
  · next result left hphase =>
      simp only [hphase] at hbatch ⊢
      refine (tail_deleteExtendedMetadataSuccessful _).spares ?_ hkeys
      refine unharmed_finishedState ⟨?_, hs.deleted, hs.spared⟩ hbatch.oids
      intro k m hm key hkey
      have hold := hs.extended k m hm key hkey
      by_cases hmem : key ∈ s.extendedKeysListToBeDeleted
      · have hnone := hbatch.keys key hmem k m hm hkey
        rw [hnone] at hold ⊢
        show removeKeys _ _ s.world.extendedIndex key = none
        unfold removeKeys
        split
        · rfl
        · exact hold
      · rw [← hold]
        exact removeKeys_of_notMem hmem
  · next hphase =>
      simp only [hphase]
      exact unharmed_objectsDeleted hs hkeys _ _
  · next hphase =>
      simp only [hphase]
      exact ⟨hs.of_eq rfl rfl, hkeys, trivial⟩
  · next hphase =>
      simp only [hphase]
      exact ⟨⟨hs.extended, hs.deleted, hs.spared⟩, hkeys, trivial⟩

end Steps

/-- **An object that stays listed is not damaged.**  At the end of a run in which Motr answers only as
the action expects, every object that is still listed has all its extended metadata, and none of its
Motr objects has been deleted. -/
theorem listed_unharmed {r : Request} {w₀ : World} {s : State} {loaded : List S3ObjectMetadata}
    (hown : OwnName w₀) (hsep : Separate w₀)
    (h : Runs.Reachable (Runs.observe (step r) noteLoaded) SparesWhen (start r w₀, []) (s, loaded))
    {k : Bytes} {m : S3ObjectMetadata} (hlisted : s.world.objectList k = some (.object m)) :
    (∀ key ∈ partKeys m, s.world.extendedIndex key = w₀.extendedIndex key) ∧
      ∀ oid ∈ motrObjects w₀ m, oid ∈ s.world.deleted → oid ∈ w₀.deleted := by
  have hinv : Base w₀ s ∧ Spares w₀ s loaded := by
    refine Runs.Reachable.invariant (P := fun p => Base w₀ p.1 ∧ Spares w₀ p.1 p.2)
      ⟨base_start w₀, spares_start w₀⟩ ?_ h
    rintro ⟨s, loaded⟩ e ⟨t, loaded'⟩ ⟨hbase, hspares⟩ hok hobserve
    obtain ⟨hstep, rfl⟩ := Runs.observe_eq_some.mp hobserve
    exact ⟨base_step hown hbase hstep, spares_step hown hsep hbase hspares hok hstep⟩
  obtain ⟨_, hs, _, _⟩ := hinv
  exact ⟨hs.extended k m hlisted, fun oid hoid =>
    hs.deleted k m hlisted oid (motrObjects_subset w₀ m oid hoid)⟩

/-! ### An object in parts and one in one piece -/

theorem separate_sampleListing : Separate sampleListing := by
  intro k m k' m' h h' hne
  rcases sampleListing_cases h with ⟨rfl, rfl⟩ | ⟨rfl, rfl⟩ <;>
    rcases sampleListing_cases h' with ⟨rfl, rfl⟩ | ⟨rfl, rfl⟩
  · exact absurd rfl hne
  · decide
  · decide
  · exact absurd rfl hne

/-- The object in one piece is deleted, and then the delete of the other fails. -/
theorem listed_unharmed_lastFails :
    ∃ s : State, s.phase = .done ∧ s.world.deleted = [(sampleObject "movie" 7 100).oid] ∧
      s.extendedKeysListToBeDeleted = [partKey sampleFilm 1] ∧
      s.world.objectList (ascii "film") = some (.object sampleFilm) ∧
      s.world.extendedIndex (partKey sampleFilm 1) = some sampleFilmPart ∧
      sampleFilmPart ∉ s.world.deleted := by
  have h₁ : Runs.Reachable (Runs.observe (step (sampleRequest ["movie", "film"] 1)) noteLoaded) SparesWhen
      (start (sampleRequest ["movie", "film"] 1) sampleListing, [])
      (start (sampleRequest ["movie", "film"] 1) sampleListing, []) := .start
  have h₂ := h₁.step (.fetched fun _ => false) trivial rfl
  have h₃ := h₂.step (.probablePut .success fun _ => true) trivial rfl
  have h₄ := h₃.step (.metadataDeleted .success fun _ => false) ⟨fun _ _ => rfl, nofun⟩ rfl
  have h₅ := h₄.step (.fetched fun _ => false) trivial rfl
  have h₆ := h₅.step (.extendedLoaded (some sampleFilmExtended))
    ⟨loadsOwn_sampleFilm, fun _ hkey => hkey⟩ rfl
  have h₇ := h₆.step (.probablePut .success fun _ => true) trivial rfl
  have h₈ := h₇.step (.metadataDeleted .failed fun _ => true) trivial rfl
  have h₉ := h₈.step (.objectsDeleted (fun _ => false) fun _ => false) trivial rfl
  have h₁₀ := h₉.step (.probableDeleted .success fun _ => false) trivial rfl
  have h := listed_unharmed ownName_sampleListing separate_sampleListing h₁₀ (k := ascii "film") rfl
  refine ⟨_, rfl, rfl, rfl, rfl, h.1 _ (mem_singleton_self _), fun hmem => ?_⟩
  exact nomatch h.2 _ (mem_singleton_self _) hmem

/-- The delete of the object in parts fails, and that of the batch behind it removes its extended
metadata. -/
theorem not_listed_unharmed_firstFails :
    ∃ s, Runs.Reachable (step (sampleRequest ["film", "movie"] 1)) (fun _ _ => True)
        (start (sampleRequest ["film", "movie"] 1) sampleListing) s ∧ s.phase = .done ∧
      s.world.objectList (ascii "film") = some (.object sampleFilm) ∧
      partKey sampleFilm 1 ∈ partKeys sampleFilm ∧
      sampleListing.extendedIndex (partKey sampleFilm 1) = some sampleFilmPart ∧
      s.world.extendedIndex (partKey sampleFilm 1) = none := by
  have h₁ : Runs.Reachable (step (sampleRequest ["film", "movie"] 1)) (fun _ _ => True)
      (start (sampleRequest ["film", "movie"] 1) sampleListing)
      (start (sampleRequest ["film", "movie"] 1) sampleListing) := .start
  have h₂ := h₁.step (.fetched fun _ => false) trivial rfl
  have h₃ := h₂.step (.extendedLoaded (some sampleFilmExtended)) trivial rfl
  have h₄ := h₃.step (.probablePut .success fun _ => true) trivial rfl
  have h₅ := h₄.step (.metadataDeleted .failed fun _ => true) trivial rfl
  have h₆ := h₅.step (.fetched fun _ => false) trivial rfl
  have h₇ := h₆.step (.probablePut .success fun _ => true) trivial rfl
  have h₈ := h₇.step (.metadataDeleted .success fun _ => false) trivial rfl
  have h₉ := h₈.step (.extendedDeleted .success fun _ => false) trivial rfl
  have h₁₀ := h₉.step (.objectsDeleted (fun _ => false) fun _ => false) trivial rfl
  have h₁₁ := h₁₀.step (.probableDeleted .success fun _ => false) trivial rfl
  exact ⟨_, h₁₁, rfl, rfl, mem_singleton_self _, rfl, rfl⟩

end S3DeleteMultipleObjectsAction

end CortxS3
