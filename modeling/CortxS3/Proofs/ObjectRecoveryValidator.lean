/-
What the background delete can do to the indexes and the objects.

Whatever a record says, entries only disappear and deleted objects stay deleted (`Fades`).  So what
was true before of an entry that is gone, or of an object that is deleted, stays true while other
records are processed.

The rest of the file follows the records of objects in one piece, and of parts, through the branches of
the algorithm when every call succeeds.
-/
import CortxS3.BackgroundDelete.DelayedDelete
import CortxS3.Proofs.ProbableDeleteRecord

namespace CortxS3

namespace ObjectRecoveryValidator

open S3M0Uint128Helper

/-! ### Nothing comes back -/

/-- The second store has no entries but those of the first, and all its deleted objects. -/
structure Fades (s s' : Store) : Prop where
  kv : ∀ i k, s'.kv i k = none ∨ s'.kv i k = s.kv i k
  deleted : ∀ oid ∈ s.deleted, oid ∈ s'.deleted

theorem Fades.refl (s : Store) : Fades s s where
  kv := fun _ _ => .inr rfl
  deleted := fun _ h => h

theorem Fades.trans {s₁ s₂ s₃ : Store} (h : Fades s₁ s₂) (h' : Fades s₂ s₃) : Fades s₁ s₃ where
  kv := by
    intro i k
    rcases h'.kv i k with hnone | heq
    · exact .inl hnone
    · rw [heq]
      exact h.kv i k
  deleted := fun oid hoid => h'.deleted oid (h.deleted oid hoid)

theorem Fades.gone {s s' : Store} (h : Fades s s') {i k : Bytes} (hnone : s.kv i k = none) :
    s'.kv i k = none := by
  rcases h.kv i k with hgone | heq
  · exact hgone
  · rw [heq]
    exact hnone

theorem fades_remove (s : Store) (index key : Bytes) : Fades s (s.remove index key) where
  kv := by
    intro i k
    show (if i = index ∧ k = key then none else s.kv i k) = none ∨
      (if i = index ∧ k = key then none else s.kv i k) = s.kv i k
    split
    · exact .inl rfl
    · exact .inr rfl
  deleted := fun _ h => h

theorem remove_self (s : Store) (index key : Bytes) : (s.remove index key).kv index key = none :=
  if_pos ⟨rfl, rfl⟩

section Fades

variable (v : Validator)

theorem fades_deleteObjectFromStorage (oid : Bytes) (s : Store) :
    Fades s (deleteObjectFromStorage v oid s).2 := by
  unfold deleteObjectFromStorage
  split
  · exact ⟨fun _ _ => .inr rfl, fun _ h => List.mem_append_left _ h⟩
  · exact .refl s

theorem fades_deleteKeyFromIndex (index key : Bytes) (s : Store) :
    Fades s (deleteKeyFromIndex v index key s).2 := by
  unfold deleteKeyFromIndex
  split
  · exact fades_remove s index key
  · exact .refl s

theorem fades_andThen {s : Store} {r : Bool × Store} {next : Store → Bool × Store}
    (h : Fades s r.2) (hnext : ∀ s, Fades s (next s).2) :
    Fades s (if r.1 then next r.2 else (false, r.2)).2 := by
  split
  · exact h.trans (hnext r.2)
  · exact h

theorem fades_delObjFromExtendedIndex (index key : Bytes) (s : Store) :
    Fades s (delObjFromExtendedIndex v index key s).2 := by
  unfold delObjFromExtendedIndex
  dsimp only
  split
  · apply fades_andThen
    · split
      · exact fades_deleteObjectFromStorage v _ s
      · exact .refl s
    · exact fades_deleteKeyFromIndex v index key
  · exact .refl s

theorem fades_delObjFromVerIndex (index key : Bytes) (s : Store) :
    Fades s (delObjFromVerIndex v index key s).2 := by
  unfold delObjFromVerIndex
  dsimp only
  split
  · apply fades_andThen
    · exact fades_deleteObjectFromStorage v _ s
    · exact fades_deleteKeyFromIndex v index key
  · exact .refl s

theorem fades_processProbableDeleteRecord (deleteObjFromStore : Bool) (s : Store) :
    Fades s (processProbableDeleteRecord v deleteObjFromStore s).2 := by
  unfold processProbableDeleteRecord
  dsimp only
  apply fades_andThen
  · split
    · split
      · exact .refl s
      · split
        · exact fades_delObjFromExtendedIndex v _ _ s
        · exact fades_delObjFromVerIndex v _ _ s
    · exact .refl s
  · exact fades_deleteKeyFromIndex v _ _

theorem fades_delParts (index extVersionId : Bytes) :
    ∀ (parts : List Nat) (status : Bool) (s : Store),
      Fades s (delParts v index extVersionId parts status s).2 := by
  intro parts
  induction parts with
  | nil =>
    intro status s
    exact .refl s
  | cons part parts ih =>
    intro status s
    exact (fades_delObjFromExtendedIndex v _ _ s).trans (ih _ _)

theorem fades_delObjectsInExtendedlist (index : Bytes) (s : Store) :
    Fades s (delObjectsInExtendedlist v index s).2 := by
  unfold delObjectsInExtendedlist
  split
  · exact fades_delParts v _ _ _ _ s
  · exact .refl s

theorem fades_processForced (s : Store) : Fades s (processForced v s) := by
  unfold processForced
  dsimp only
  have hversion := fades_deleteKeyFromIndex v v.leakInfo.objectsVersionListIndexOid
    v.leakInfo.versionKeyInIndex s
  split
  · split
    · exact (hversion.trans (fades_delObjectsInExtendedlist v _ _)).trans
        (fades_deleteKeyFromIndex v _ _ _)
    · exact hversion
  · split
    · exact fades_processProbableDeleteRecord v true s
    · have hobject := fades_deleteObjectFromStorage v v.leakId s
      split
      · exact hobject.trans (fades_processProbableDeleteRecord v false _)
      · exact hobject

theorem fades_processMultipartLeak (currentOid : Bytes) (s : Store) :
    Fades s (processMultipartLeak v currentOid s) := by
  unfold processMultipartLeak
  dsimp only
  have hobject := fades_deleteObjectFromStorage v v.leakId s
  have hrecord := fades_processProbableDeleteRecord v false s
  split
  · split
    · have hextended := (fades_deleteKeyFromIndex v v.leakInfo.objectsVersionListIndexOid
        v.leakInfo.versionKeyInIndex s).trans (fades_delObjectsInExtendedlist v
          (v.leakInfo.extendedMdIdxOid.getD []) _)
      split
      · exact hextended.trans (fades_processProbableDeleteRecord v false _)
      · exact hextended
    · exact hrecord
  · split
    · split
      · split
        · split
          · split
            · exact hobject.trans (fades_processProbableDeleteRecord v false _)
            · exact hobject
          · exact hrecord
        · exact hrecord
      · exact .refl s
    · exact .refl s

theorem fades_processUnforced (s : Store) : Fades s (processUnforced v s) := by
  unfold processUnforced
  dsimp only
  split
  · split
    · exact fades_processProbableDeleteRecord v true s
    · split
      · exact fades_processMultipartLeak v _ s
      · split
        · exact fades_processProbableDeleteRecord v true s
        · exact fades_processProbableDeleteRecord v false s
  · exact .refl s

end Fades

/-- **Entries only disappear, and deleted objects stay deleted.** -/
theorem fades_processResults (api : Api) (probableDeleteIndexId key : Bytes)
    (info : ProbableDeleteJson) (s : Store) :
    Fades s (processResults api probableDeleteIndexId key info s) := by
  unfold processResults
  split
  · exact .refl s
  · unfold processObjectLeak
    split
    · exact fades_processForced _ s
    · exact fades_processUnforced _ s

/-! ### When every call succeeds -/

section Succeeds

variable {v : Validator} (hv : v.api = DelayedDelete.Api.succeeds)
include hv

theorem deleteObjectFromStorage_eq (oid : Bytes) (s : Store) :
    deleteObjectFromStorage v oid s = (true, { s with deleted := s.deleted ++ [oid] }) := by
  unfold deleteObjectFromStorage
  rw [hv]
  rfl

theorem deleteKeyFromIndex_eq (index key : Bytes) (s : Store) :
    deleteKeyFromIndex v index key s = (true, s.remove index key) := by
  unfold deleteKeyFromIndex
  rw [hv]
  rfl

theorem getObjectEntry_eq (index key : Bytes) (s : Store) :
    getObjectEntry v index key s = (true, s.kv index key) := by
  unfold getObjectEntry
  rw [hv]
  rfl

theorem delObjFromVerIndex_eq (index key : Bytes) (s : Store) :
    delObjFromVerIndex v index key s =
      (true, { s with deleted := s.deleted ++ [(s.kv index key).getD v.leakId] }.remove index key) := by
  unfold delObjFromVerIndex
  rw [getObjectEntry_eq hv]
  dsimp only
  rw [deleteObjectFromStorage_eq hv]
  exact deleteKeyFromIndex_eq hv _ _ _

variable {index key : Bytes} {s : Store}

theorem delObjFromExtendedIndex_of_none (h : s.kv index key = none) :
    delObjFromExtendedIndex v index key s = (true, s.remove index key) := by
  unfold delObjFromExtendedIndex
  rw [getObjectEntry_eq hv, h]
  exact deleteKeyFromIndex_eq hv _ _ _

theorem processProbable_false (s : Store) :
    processProbableDeleteRecord v false s = (true, s.remove v.probableDeleteIndexId v.key) :=
  deleteKeyFromIndex_eq hv _ _ _

theorem processProbable_version (hpath : deletePath v.leakInfo = (false, index, key))
    (hkey : key ≠ []) (s : Store) :
    processProbableDeleteRecord v true s =
      (true, ({ s with deleted := s.deleted ++ [(s.kv index key).getD v.leakId] }.remove index
        key).remove v.probableDeleteIndexId v.key) := by
  unfold processProbableDeleteRecord
  rw [hpath]
  dsimp only
  rw [if_pos rfl, if_neg hkey, if_neg Bool.false_ne_true, delObjFromVerIndex_eq hv]
  exact deleteKeyFromIndex_eq hv _ _ _

omit hv in
theorem processProbable_noKey {extended : Bool}
    (hpath : deletePath v.leakInfo = (extended, index, [])) (s : Store) :
    processProbableDeleteRecord v true s = (false, s) := by
  unfold processProbableDeleteRecord
  rw [hpath]
  rfl

theorem processProbable_extended_none (hpath : deletePath v.leakInfo = (true, index, key))
    (hkey : key ≠ []) (h : s.kv index key = none) :
    processProbableDeleteRecord v true s =
      (true, (s.remove index key).remove v.probableDeleteIndexId v.key) := by
  unfold processProbableDeleteRecord
  rw [hpath]
  dsimp only
  rw [if_pos rfl, if_neg hkey, if_pos rfl, delObjFromExtendedIndex_of_none hv h]
  exact deleteKeyFromIndex_eq hv _ _ _

end Succeeds

/-! ### The branches of the algorithm -/

section Branches

variable {v : Validator} {s : Store}

theorem processObjectLeak_forced (h : v.leakInfo.forceDelete = true) :
    processObjectLeak v s = processForced v s := if_pos h

theorem processObjectLeak_unforced (h : v.leakInfo.forceDelete = false) :
    processObjectLeak v s = processUnforced v s := by
  unfold processObjectLeak
  rw [h]
  rfl

/-- A record that is not about a whole object in parts or an upload. -/
theorem processForced_record (h : ¬ (v.oidPrefix = ascii "J" ∧ 0 < partNo v.leakInfo))
    (hsingle : v.leakInfo.isMultipart = false) :
    processForced v s = (processProbableDeleteRecord v true s).2 := by
  unfold processForced
  dsimp only
  rw [if_neg h, if_pos (by rw [hsingle]; exact Bool.false_ne_true)]

section

variable (hv : v.api = DelayedDelete.Api.succeeds)

include hv

theorem processForced_parent (h : v.oidPrefix = ascii "J" ∧ 0 < partNo v.leakInfo) :
    processForced v s = (delObjectsInExtendedlist v (v.leakInfo.extendedMdIdxOid.getD [])
      (s.remove v.leakInfo.objectsVersionListIndexOid v.leakInfo.versionKeyInIndex)).2.remove
        v.probableDeleteIndexId v.key := by
  unfold processForced
  dsimp only
  rw [if_pos h, deleteKeyFromIndex_eq hv]
  dsimp only
  rw [if_pos rfl, deleteKeyFromIndex_eq hv]

theorem processUnforced_gone (hsingle : v.leakInfo.isMultipart = false)
    (h : s.kv v.leakInfo.objectListIndexOid v.leakInfo.objectKeyInIndex = none) :
    processUnforced v s = (processProbableDeleteRecord v true s).2 := by
  unfold processUnforced
  dsimp only
  rw [getObjectEntry_eq hv, h]
  rw [if_pos rfl, if_pos ⟨rfl, by rw [hsingle]; exact Bool.false_ne_true⟩]

theorem processUnforced_listed
    (hJ : ¬ (v.oidPrefix = ascii "J" ∧ 0 < partNo v.leakInfo)) {oid : Bytes}
    (h : s.kv v.leakInfo.objectListIndexOid v.leakInfo.objectKeyInIndex = some oid) :
    processUnforced v s = (processProbableDeleteRecord v (decide (v.leakId ≠ oid)) s).2 := by
  unfold processUnforced
  dsimp only
  rw [getObjectEntry_eq hv, h]
  rw [if_pos rfl, if_neg fun hc => (nomatch hc.1), if_neg hJ]
  show (if v.leakId ≠ oid then _ else _) = _
  by_cases hne : v.leakId ≠ oid
  · rw [if_pos hne, decide_eq_true hne]
  · rw [if_neg hne, decide_eq_false hne]

end

variable {info : ProbableDeleteJson}

theorem deletePath_noParent (h : parentOid info = nullObjOid) :
    deletePath info = (false, info.objectsVersionListIndexOid, info.versionKeyInIndex) := by
  unfold deletePath
  dsimp only
  rw [if_neg fun hc => hc.1 h]

theorem deletePath_part (index version : Bytes) (hparent : parentOid info ≠ nullObjOid)
    (hpart : partNo info ≠ 0) (hindex : info.extendedMdIdxOid = some index)
    (hne : index ≠ nullObjOid) (hversion : info.extVersionId = some version)
    (hversion' : version ≠ []) :
    deletePath info = (true, index, extendedKey info version (partNo info) (info.fno.getD 0)) := by
  unfold deletePath
  rw [hindex, hversion]
  dsimp only
  rw [if_pos ⟨hparent, hpart⟩, if_pos hne, Option.getD_some, if_pos hversion']

end Branches

end ObjectRecoveryValidator

end CortxS3
