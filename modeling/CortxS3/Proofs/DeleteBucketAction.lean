/-
When deleting a bucket keeps its promises.

There are three: the client is answered once, a bucket with an object in it loses nothing, and a
204 means that nothing of the bucket is left in Motr.

The second always holds.  The first fails when the reader that looks for an object gives up at
the size of the reply, which no handler has a branch for.  The third fails for the part indexes
only: a listing of the uploads that fails counts as one that has ended, and a part index that
could not be deleted is passed over.  The entry that named it goes with the multipart index.

`Served` says what Motr has to do for all three (`deletes_iff`).  The way to it is what the
listing comes to (`fetchMultipartObjects_eq`): the part indexes of the uploads up to the first
NEXT that failed.
-/
import CortxS3.Server.DeleteBucketAction

namespace CortxS3

open List hiding after next

namespace S3DeleteBucketAction

open OrderedIndex

section

variable (motr : MotrAnswers) (b : Bucket) (fetchCount : Nat)
  (fromJson : Bytes → Option M0Uint128)

/-! ### What is expected -/

/-- An index of the bucket itself. -/
def Bucket.Owns (b : Bucket) (oid : M0Uint128) : Prop :=
  oid = b.objectListIndexOid ∨ oid = b.multipartIndexOid ∨
    oid = b.objectsVersionListIndexOid ∨ oid = b.extendedMetadataIndexOid

/-- The part index of an upload in progress. -/
def IsPartIndex (oid : M0Uint128) : Prop := ∃ kv ∈ b.uploads, fromJson kv.2 = some oid

/-- What deleting a bucket promises. -/
structure Deletes : Prop where
  response : ∃ r, (run motr b fetchCount fromJson).responses = [r]
  done : (run motr b fetchCount fromJson).doneCalls = 1
  spared : b.objects ≠ [] → (run motr b fetchCount fromJson).indices = b.indices ∧
    (run motr b fetchCount fromJson).bucketPresent = true
  dropped : .success204 ∈ (run motr b fetchCount fromJson).responses →
    ∀ oid, b.Owns oid ∨ IsPartIndex b fromJson oid →
      oid ∉ (run motr b fetchCount fromJson).indices

/-! ### The condition -/

/-- The upload at this place of the multipart index is listed: every NEXT up to the one that
reads it is served. -/
def Listed (j : Nat) : Prop := ∀ k ≤ j / fetchCount, motr.uploads k = .served

/-- The upload at this place is listed, and has this part index. -/
def ListedWith (j : Nat) (kv : Bytes × Bytes) (oid : M0Uint128) : Prop :=
  b.uploads[j]? = some kv ∧ fromJson kv.2 = some oid ∧ Listed motr fetchCount j

/-- The removal of an index that the bucket may not have is served. -/
def RemovalServed (oid : M0Uint128) (answer : WriterAnswer) : Prop := oid = {} ∨ answer = .served

/-- Nothing keeps the request from its 204. -/
structure Completes : Prop where
  present : motr.loadBucket = .present
  empty : b.objectListIndexOid = {} ∨ motr.firstObject = .served ∧ b.objects = []
  launched : (∃ j kv oid, ListedWith motr b fetchCount fromJson j kv oid) →
    motr.partIndexesLaunched = true
  multipart : RemovalServed b.multipartIndexOid motr.multipartIndex
  objectList : RemovalServed b.objectListIndexOid motr.objectListIndex
  versionList : RemovalServed b.objectsVersionListIndexOid motr.versionListIndex
  extendedMetadata : RemovalServed b.extendedMetadataIndexOid motr.extendedMetadataIndex
  bucket : motr.removeBucket = none

/-- What Motr has to do for the promises to be kept: it does not give up on the first object at
the size of the reply, and when the request gets as far as a 204, every part index that exists
is the one of an upload that is listed, and its removal is served. -/
structure Served : Prop where
  firstObject : motr.loadBucket = .present → b.objectListIndexOid ≠ {} →
    motr.firstObject ≠ .failedE2big
  partIndexes : Completes motr b fetchCount fromJson → ∀ oid ∈ b.indices, ¬ b.Owns oid →
    IsPartIndex b fromJson oid →
      ∃ j kv, ListedWith motr b fetchCount fromJson j kv oid ∧ motr.partIndex kv.1 = true

end

/-! ### The end of the request -/

/-- The request has been answered, with an error when it did not go through. -/
structure Answered (a : S3DeleteBucketAction) (through : Prop) : Prop where
  response : ∃ r, a.responses = [r] ∧ (r = .success204 ↔ through)
  done : a.doneCalls = 1

/-- The request has not been answered yet, and no error is set. -/
structure Open (a : S3DeleteBucketAction) : Prop where
  responses : a.responses = []
  done : a.doneCalls = 0
  error : a.error = none
  deleteSuccessful : a.deleteSuccessful = false

variable {a : S3DeleteBucketAction}

theorem Answered.congr {p q : Prop} (h : Answered a p) (hpq : p ↔ q) : Answered a q := by
  obtain ⟨r, hr, hiff⟩ := h.response
  exact ⟨⟨r, hr, hiff.trans hpq⟩, h.done⟩

theorem Open.failWith (h : Open a) (code : String) {through : Prop} (hnot : ¬ through) :
    Answered (a.failWith code) through := by
  refine ⟨⟨.error code, ?_, ?_⟩, ?_⟩
  · simp [S3DeleteBucketAction.failWith, sendResponseToS3Client, h.responses]
  · constructor
    · intro hr
      cases hr
    · intro ht
      exact absurd ht hnot
  · simp [S3DeleteBucketAction.failWith, sendResponseToS3Client, h.done]

section

variable {motr : MotrAnswers} {b : Bucket} {fetchCount : Nat}
  {fromJson : Bytes → Option M0Uint128}

variable {a : S3DeleteBucketAction}

theorem deleteBucket_answered (h : Open a) :
    Answered (deleteBucket motr a) (motr.removeBucket = none) := by
  unfold deleteBucket
  cases hr : motr.removeBucket with
  | none =>
    refine ⟨⟨.success204, ?_, by simp⟩, ?_⟩
    · simp [sendResponseToS3Client, h.responses, h.error]
    · simp [sendResponseToS3Client, h.done]
  | some state =>
    cases state <;> exact h.failWith _ (by simp)

theorem deleteBucket_indices (a : S3DeleteBucketAction) :
    (deleteBucket motr a).indices = a.indices := by
  unfold deleteBucket
  cases motr.removeBucket with
  | none => rfl
  | some state => cases state <;> rfl

/-- What is left of the indexes by the removals from some place on: `gone` are the indexes that
are removed when the request goes through. -/
structure Tail (f : S3DeleteBucketAction → S3DeleteBucketAction) (through : Prop)
    (gone : M0Uint128 → Prop) : Prop where
  answered : ∀ a, Open a → Answered (f a) through
  indices : through → ∀ a oid, oid ∈ (f a).indices ↔ oid ∈ a.indices ∧ ¬ gone oid

theorem deleteBucket_tail : Tail (deleteBucket motr) (motr.removeBucket = none) fun _ => False := by
  refine ⟨fun a h => deleteBucket_answered h, ?_⟩
  intro _ a oid
  rw [deleteBucket_indices]
  simp

variable {through : Prop}

variable {f : S3DeleteBucketAction → S3DeleteBucketAction} {gone : M0Uint128 → Prop}

theorem Tail.removeIndex (h : Tail f through gone) (index : M0Uint128) (answer : WriterAnswer) :
    Tail (removeIndex index answer f) (answer = .served ∧ through)
      fun oid => oid = index ∨ gone oid := by
  constructor
  · intro a ha
    unfold S3DeleteBucketAction.removeIndex
    cases answer with
    | served =>
      refine (h.answered _ ?_).congr (by simp)
      exact ⟨ha.responses, ha.done, ha.error, ha.deleteSuccessful⟩
    | failed | failedToLaunch => exact ha.failWith _ (by simp)
  · rintro ⟨rfl, hthrough⟩ a oid
    unfold S3DeleteBucketAction.removeIndex
    simp only [h.indices hthrough, mem_filter, decide_eq_true_eq, not_or]
    tauto

theorem Tail.skip {g : S3DeleteBucketAction → S3DeleteBucketAction} (h : Tail f through gone)
    (index : M0Uint128) (answer : WriterAnswer)
    (hg : ∀ a, g a = if index = {} then f a else S3DeleteBucketAction.removeIndex index answer f a) :
    Tail g (RemovalServed index answer ∧ through)
      fun oid => (oid = index ∧ oid ≠ {}) ∨ gone oid := by
  by_cases hz : index = {}
  · have hfg : g = f := by
      funext a
      rw [hg, if_pos hz]
    rw [hfg]
    refine ⟨fun a ha => (h.answered a ha).congr (by simp [RemovalServed, hz]), ?_⟩
    rintro ⟨_, hthrough⟩ a oid
    rw [h.indices hthrough, hz]
    tauto
  · have hfg : g = S3DeleteBucketAction.removeIndex index answer f := by
      funext a
      rw [hg, if_neg hz]
    rw [hfg]
    have hr := h.removeIndex index answer
    have hserved : answer = .served ∧ through ↔ RemovalServed index answer ∧ through := by
      simp [RemovalServed, hz]
    refine ⟨fun a ha => (hr.answered a ha).congr hserved, ?_⟩
    intro hthrough a oid
    rw [hr.indices (hserved.mpr hthrough)]
    have hne : oid = index ↔ oid = index ∧ oid ≠ {} := by
      constructor
      · rintro rfl
        exact ⟨rfl, hz⟩
      · exact And.left
    rw [← hne]

/-- What is served from `remove_object_list_index` on. -/
def ListsServed (motr : MotrAnswers) (b : Bucket) : Prop :=
  RemovalServed b.objectListIndexOid motr.objectListIndex ∧
    RemovalServed b.objectsVersionListIndexOid motr.versionListIndex ∧
      RemovalServed b.extendedMetadataIndexOid motr.extendedMetadataIndex ∧
        motr.removeBucket = none

theorem removeObjectListIndex_tail :
    Tail (removeObjectListIndex motr b) (ListsServed motr b) fun oid =>
      (oid = b.objectListIndexOid ∧ oid ≠ {}) ∨ (oid = b.objectsVersionListIndexOid ∧ oid ≠ {}) ∨
        (oid = b.extendedMetadataIndexOid ∧ oid ≠ {}) ∨ False :=
  ((deleteBucket_tail.skip _ _ fun _ => rfl).skip _ _ fun _ => rfl).skip _ _ fun _ => rfl

/-- The action has looked for uploads, and found the multipart index if there is one. -/
def Looked (b : Bucket) (a : S3DeleteBucketAction) : Prop :=
  a.multipartPresent = decide (b.multipartIndexOid ≠ {})

theorem removeMultipartIndex_eq (h : Looked b a) :
    removeMultipartIndex motr b a =
      if b.multipartIndexOid = {} then removeObjectListIndex motr b a
      else removeIndex b.multipartIndexOid motr.multipartIndex (removeObjectListIndex motr b) a := by
  unfold removeMultipartIndex
  rw [h]
  by_cases hz : b.multipartIndexOid = {}
  · simp [hz]
  · simp [hz]

/-- What is served from `remove_multipart_index` on. -/
def IndexesServed (motr : MotrAnswers) (b : Bucket) : Prop :=
  RemovalServed b.multipartIndexOid motr.multipartIndex ∧ ListsServed motr b

/-- **From the removal of the multipart index on nothing of the bucket is left behind.** -/
theorem removeMultipartIndex_answered (hlooked : Looked b a) (h : Open a) :
    Answered (removeMultipartIndex motr b a) (IndexesServed motr b) := by
  rw [removeMultipartIndex_eq hlooked]
  exact (removeObjectListIndex_tail.skip _ _ fun _ => rfl).answered a h

theorem removeMultipartIndex_indices (hlooked : Looked b a) (h : IndexesServed motr b)
    (oid : M0Uint128) :
    oid ∈ (removeMultipartIndex motr b a).indices ↔
      oid ∈ a.indices ∧ ¬ (b.Owns oid ∧ oid ≠ {}) := by
  rw [removeMultipartIndex_eq hlooked,
    (removeObjectListIndex_tail.skip _ _ fun _ => rfl).indices h a oid]
  unfold Bucket.Owns
  tauto

/-! ### The listing of the uploads -/

/-- The part indexes that some pairs of the multipart index name. -/
def partsOf (fromJson : Bytes → Option M0Uint128) (kvps : List (Bytes × Bytes)) :
    List (Bytes × M0Uint128) :=
  kvps.filterMap fun kv => (fromJson kv.2).map fun oid => (kv.1, oid)

theorem mem_partsOf {kvps : List (Bytes × Bytes)} {p : Bytes × M0Uint128} :
    p ∈ partsOf fromJson kvps ↔ ∃ kv ∈ kvps, kv.1 = p.1 ∧ fromJson kv.2 = some p.2 := by
  unfold partsOf
  rw [mem_filterMap]
  constructor
  · rintro ⟨kv, hkv, h⟩
    obtain ⟨oid, hoid, rfl⟩ := Option.map_eq_some_iff.mp h
    exact ⟨kv, hkv, rfl, hoid⟩
  · rintro ⟨kv, hkv, hkey, hoid⟩
    refine ⟨kv, hkv, ?_⟩
    rw [hoid, Option.map_some, hkey]

theorem partsOf_append (xs ys : List (Bytes × Bytes)) :
    partsOf fromJson (xs ++ ys) = partsOf fromJson xs ++ partsOf fromJson ys :=
  filterMap_append

theorem readUploads_eq :
    ∀ (pre : List (Bytes × Bytes)) (kv : Bytes × Bytes) (a : S3DeleteBucketAction) (size : Nat),
      size + pre.length + 1 ≤ fetchCount →
      readUploads fetchCount fromJson a (pre.length + 1) size (pre ++ [kv]) =
        { a with
          lastKey := kv.1
          partIdxLayouts := a.partIdxLayouts ++ partsOf fromJson (pre ++ [kv]) } := by
  intro pre
  induction pre with
  | nil =>
    intro kv a size _
    rw [nil_append]
    unfold readUploads
    cases hparse : fromJson kv.2 with
    | none | some oid => simp [partsOf, hparse]
  | cons x pre ih =>
    intro kv a size hsize
    rw [length_cons] at hsize
    rw [cons_append, readUploads]
    have hmore : ¬ ((x :: pre).length + 1 - 1 = 0 ∨ size + 1 = fetchCount) := by
      rw [length_cons]
      omega
    simp only [if_neg hmore]
    rw [length_cons, Nat.add_sub_cancel, ih kv _ (size + 1) (by omega)]
    cases hparse : fromJson x.2 with
    | none | some oid => simp [partsOf, hparse]

theorem uploads_sorted (b : Bucket) : Sorted b.uploads := by
  unfold Bucket.uploads
  split
  · exact b.ordered
  · exact List.Pairwise.nil

theorem after_nil_uploads (b : Bucket) : after b.uploads [] = b.uploads := by
  unfold after
  rw [filter_eq_self]
  intro kv hkv
  have hne : kv.1 ≠ [] := by
    unfold Bucket.uploads at hkv
    split at hkv
    · exact b.named kv hkv
    · cases hkv
  obtain ⟨c, cs, hcs⟩ := exists_cons_of_ne_nil hne
  rw [hcs]
  exact decide_eq_true (nil_lt_cons c cs)

theorem listed_iff_lt (hcount : 1 ≤ fetchCount) {n j : Nat}
    (hserved : ∀ k < n, motr.uploads k = .served) (hfail : motr.uploads n ≠ .served) :
    j < n * fetchCount ↔ Listed motr fetchCount j := by
  rw [← Nat.div_lt_iff_lt_mul (by omega)]
  constructor
  · intro hlt k hk
    exact hserved k (by omega)
  · intro hlisted
    by_contra hge
    exact hfail (hlisted n (by omega))

variable (motr fromJson) in
/-- **The listing ends at the first NEXT that fails, or with the index.** -/
theorem fetchMultipartObjects_eq (hcount : 1 ≤ fetchCount) (hne : b.multipartIndexOid ≠ {}) :
    ∀ (fuel n : Nat) (a : S3DeleteBucketAction),
      after b.uploads a.lastKey = b.uploads.drop (n * fetchCount) →
      a.partIdxLayouts = partsOf fromJson (b.uploads.take (n * fetchCount)) →
      (∀ k < n, motr.uploads k = .served) → n * fetchCount ≤ b.uploads.length →
      b.uploads.length < fuel + n →
      ∃ m key, fetchMultipartObjects motr b fetchCount fromJson fuel n a =
          removePartIndexes motr b { a with
            lastKey := key
            multipartPresent := true
            partIdxLayouts := partsOf fromJson (b.uploads.take m) } ∧
        ∀ j < b.uploads.length, j < m ↔ Listed motr fetchCount j := by
  intro fuel
  induction fuel with
  | zero =>
    intro n a _ _ _ hroom hfuel
    have := Nat.le_mul_of_pos_right n hcount
    omega
  | succ fuel ih =>
    intro n a hafter hparts hserved hroom hfuel
    rw [fetchMultipartObjects]
    simp only [if_neg hne, hafter]
    obtain ⟨page, hpage⟩ : ∃ page, page = (b.uploads.drop (n * fetchCount)).take fetchCount :=
      ⟨_, rfl⟩
    have htake : b.uploads.take (n * fetchCount + fetchCount) =
        b.uploads.take (n * fetchCount) ++ page := by
      rw [hpage, take_add]
    have hlength : page.length = min fetchCount (b.uploads.length - n * fetchCount) := by
      rw [hpage, length_take, length_drop]
    rw [← hpage]
    by_cases hgo : motr.uploads n = .served ∧ page ≠ []
    · simp only [if_pos hgo]
      obtain ⟨pre, kv, hsplit⟩ : ∃ pre kv, page = pre ++ [kv] :=
        ⟨_, _, (dropLast_append_getLast hgo.2).symm⟩
      have hread : readUploads fetchCount fromJson { a with multipartPresent := true }
          page.length 0 page = { a with
            multipartPresent := true
            lastKey := kv.1
            partIdxLayouts :=
              partsOf fromJson (b.uploads.take (n * fetchCount + fetchCount)) } := by
        have hpre : page.length = pre.length + 1 := by simp [hsplit]
        rw [htake, partsOf_append, ← hparts, hpre]
        conv_lhs => rw [hsplit]
        rw [readUploads_eq pre kv _ 0 (by omega), ← hsplit]
      have hnext : ∀ k < n + 1, motr.uploads k = .served := by
        intro k hk
        by_cases hkn : k = n
        · rw [hkn]
          exact hgo.1
        · exact hserved k (by omega)
      rw [hread]
      by_cases hshort : page.length < fetchCount
      · -- the page was not full, so this was the end of the index
        rw [if_pos hshort]
        refine ⟨n * fetchCount + fetchCount, kv.1, rfl, ?_⟩
        intro j hj
        refine iff_of_true (by omega) ?_
        intro k hk
        have hjn : j / fetchCount < n + 1 := by
          rw [Nat.div_lt_iff_lt_mul (by omega), Nat.add_mul]
          omega
        exact hnext k (by omega)
      · rw [if_neg hshort]
        have hmul : (n + 1) * fetchCount = n * fetchCount + fetchCount := by
          rw [Nat.add_mul, Nat.one_mul]
        have hbehind : after b.uploads kv.1 = b.uploads.drop ((n + 1) * fetchCount) := by
          refine after_of_split pre (uploads_sorted b) ?_
          have hrest : pre ++ kv :: b.uploads.drop ((n + 1) * fetchCount) =
              b.uploads.drop (n * fetchCount) := by
            rw [← singleton_append, ← append_assoc, ← hsplit, hpage, hmul,
              ← drop_drop, take_append_drop]
          rw [hrest]
          exact drop_suffix _ _
        obtain ⟨m, key, heq, hm⟩ := ih (n + 1)
          { a with
            multipartPresent := true
            lastKey := kv.1
            partIdxLayouts :=
              partsOf fromJson (b.uploads.take (n * fetchCount + fetchCount)) }
          hbehind (by rw [hmul]) hnext (by omega) (by omega)
        exact ⟨m, key, heq, hm⟩
    · simp only [if_neg hgo]
      refine ⟨n * fetchCount, a.lastKey, ?_, ?_⟩
      · rw [← hparts]
      · intro j hj
        by_cases hfail : motr.uploads n = .served
        · -- nothing is left to be read
          have hnil : page = [] := by
            by_contra hne'
            exact hgo ⟨hfail, hne'⟩
          rw [hnil, length_nil] at hlength
          have hlt : j < n * fetchCount := by omega
          refine iff_of_true hlt ?_
          intro k hk
          have : j / fetchCount < n := (Nat.div_lt_iff_lt_mul (by omega)).mpr hlt
          exact hserved k (by omega)
        · exact listed_iff_lt hcount hserved hfail

/-- What the listing leaves for `remove_part_indexes`. -/
structure Found (motr : MotrAnswers) (b : Bucket) (fetchCount : Nat)
    (fromJson : Bytes → Option M0Uint128) (a : S3DeleteBucketAction) : Prop where
  isOpen : Open a
  looked : Looked b a
  indices : a.indices = b.indices
  parts : ∀ key oid, (key, oid) ∈ a.partIdxLayouts ↔
    ∃ j kv, ListedWith motr b fetchCount fromJson j kv oid ∧ kv.1 = key

theorem uploads_of_zero (hz : b.multipartIndexOid = {}) : b.uploads = [] := by
  unfold Bucket.uploads
  rw [hz, if_neg b.noZero]

variable (motr b fromJson) in
theorem fetchMultipartObjects_found (hcount : 1 ≤ fetchCount) :
    ∃ a, fetchMultipartObjects motr b fetchCount fromJson (b.uploads.length + 1) 0
        { indices := b.indices, isBucketEmpty := true } = removePartIndexes motr b a ∧
      Found motr b fetchCount fromJson a := by
  by_cases hz : b.multipartIndexOid = {}
  · refine ⟨{ indices := b.indices, isBucketEmpty := true }, ?_, ⟨rfl, rfl, rfl, rfl⟩, ?_, rfl, ?_⟩
    · rw [fetchMultipartObjects]
      simp only [if_pos hz]
    · simp [Looked, hz]
    · intro key oid
      refine iff_of_false (by simp) ?_
      rintro ⟨j, kv, ⟨hkv, -, -⟩, -⟩
      rw [uploads_of_zero hz] at hkv
      cases hkv
  · obtain ⟨m, key, heq, hm⟩ := fetchMultipartObjects_eq motr fromJson hcount hz
      (b.uploads.length + 1) 0 { indices := b.indices, isBucketEmpty := true }
      (by simpa using after_nil_uploads b) (by simp [partsOf]) (by simp) (by simp) (by omega)
    refine ⟨_, heq, ⟨rfl, rfl, rfl, rfl⟩, by simp [Looked, hz], rfl, ?_⟩
    intro k oid
    rw [mem_partsOf]
    constructor
    · rintro ⟨kv, hkv, hk, hoid⟩
      obtain ⟨j, hj⟩ := mem_iff_getElem?.mp hkv
      rw [List.getElem?_take, Option.ite_none_right_eq_some] at hj
      obtain ⟨hlt, hget⟩ := hj
      have hlisted := (hm j (List.getElem?_eq_some_iff.mp hget).1).mp hlt
      exact ⟨j, kv, ⟨hget, hoid, hlisted⟩, hk⟩
    · rintro ⟨j, kv, ⟨hget, hoid, hlisted⟩, hk⟩
      have hlt := (hm j (List.getElem?_eq_some_iff.mp hget).1).mpr hlisted
      refine ⟨kv, ?_, hk, hoid⟩
      refine mem_of_getElem? (i := j) ?_
      rw [List.getElem?_take, if_pos hlt]
      exact hget

/-! ### The whole request -/

/-- Nothing keeps the request from its 204 once the uploads have been listed. -/
def Through (motr : MotrAnswers) (b : Bucket) (fetchCount : Nat)
    (fromJson : Bytes → Option M0Uint128) : Prop :=
  ((∃ j kv oid, ListedWith motr b fetchCount fromJson j kv oid) →
    motr.partIndexesLaunched = true) ∧ IndexesServed motr b

section

variable (h : Found motr b fetchCount fromJson a)

include h

theorem Found.layouts_ne_nil :
    a.partIdxLayouts ≠ [] ↔ ∃ j kv oid, ListedWith motr b fetchCount fromJson j kv oid := by
  constructor
  · intro hne
    obtain ⟨⟨key, oid⟩, hmem⟩ := exists_mem_of_ne_nil _ hne
    obtain ⟨j, kv, hwith, -⟩ := (h.parts key oid).mp hmem
    exact ⟨j, kv, oid, hwith⟩
  · rintro ⟨j, kv, oid, hwith⟩
    exact ne_nil_of_mem ((h.parts kv.1 oid).mpr ⟨j, kv, hwith, rfl⟩)

theorem removePartIndexes_answered :
    Answered (removePartIndexes motr b a) (Through motr b fetchCount fromJson) := by
  unfold removePartIndexes Through
  rw [← h.layouts_ne_nil]
  by_cases hnil : a.partIdxLayouts = []
  · rw [if_pos hnil]
    exact (removeMultipartIndex_answered h.looked h.isOpen).congr (by simp [hnil])
  · rw [if_neg hnil]
    by_cases hlaunched : motr.partIndexesLaunched = true
    · rw [if_pos hlaunched]
      refine (removeMultipartIndex_answered ?_ ?_).congr (by simp [hlaunched])
      · exact h.looked
      · exact ⟨h.isOpen.responses, h.isOpen.done, h.isOpen.error, h.isOpen.deleteSuccessful⟩
    · rw [if_neg hlaunched]
      exact h.isOpen.failWith _ (by simp [hnil, hlaunched])

/-- **What is left in Motr after a 204**: the indexes that are not the bucket's, without the
part indexes whose removal was served. -/
theorem removePartIndexes_indices
    (hthrough : Through motr b fetchCount fromJson) (oid : M0Uint128) :
    oid ∈ (removePartIndexes motr b a).indices ↔
      (oid ∈ b.indices ∧ ¬ ∃ j kv, ListedWith motr b fetchCount fromJson j kv oid ∧
        motr.partIndex kv.1 = true) ∧ ¬ (b.Owns oid ∧ oid ≠ {}) := by
  obtain ⟨hlaunch, hindexes⟩ := hthrough
  rw [← h.layouts_ne_nil] at hlaunch
  have hremoved : (∃ j kv, ListedWith motr b fetchCount fromJson j kv oid ∧
      motr.partIndex kv.1 = true) ↔
      oid ∈ (a.partIdxLayouts.filter fun p => motr.partIndex p.1).map Prod.snd := by
    rw [mem_map]
    constructor
    · rintro ⟨j, kv, hwith, hserved⟩
      exact ⟨(kv.1, oid), mem_filter.mpr ⟨(h.parts _ _).mpr ⟨j, kv, hwith, rfl⟩, hserved⟩, rfl⟩
    · rintro ⟨⟨key, oid'⟩, hmem, rfl⟩
      obtain ⟨hpart, hserved⟩ := mem_filter.mp hmem
      obtain ⟨j, kv, hwith, hkey⟩ := (h.parts _ _).mp hpart
      refine ⟨j, kv, hwith, ?_⟩
      rw [hkey]
      exact hserved
  rw [hremoved]
  unfold removePartIndexes
  by_cases hnil : a.partIdxLayouts = []
  · rw [if_pos hnil, removeMultipartIndex_indices h.looked hindexes, h.indices, hnil]
    simp
  · rw [if_neg hnil, if_pos (hlaunch hnil)]
    simp only
    rw [removeMultipartIndex_indices ?_ hindexes]
    · simp only [mem_filter, decide_eq_true_eq, h.indices]
    · exact h.looked

end

/-- The reader gives up on the first object at the size of the reply. -/
def GivesUp (motr : MotrAnswers) (b : Bucket) : Prop :=
  motr.loadBucket = .present ∧ b.objectListIndexOid ≠ {} ∧ motr.firstObject = .failedE2big

/-- The request gets to the listing of the uploads. -/
def Lists (motr : MotrAnswers) (b : Bucket) : Prop :=
  motr.loadBucket = .present ∧
    (b.objectListIndexOid = {} ∨ motr.firstObject = .served ∧ b.objects = [])

theorem completes_iff : Completes motr b fetchCount fromJson ↔
    Lists motr b ∧ Through motr b fetchCount fromJson := by
  constructor
  · intro h
    exact ⟨⟨h.present, h.empty⟩, h.launched, h.multipart, h.objectList, h.versionList,
      h.extendedMetadata, h.bucket⟩
  · rintro ⟨⟨hpresent, hempty⟩, hlaunched, hmultipart, hlist, hversion, hextended, hbucket⟩
    exact ⟨hpresent, hempty, hlaunched, hmultipart, hlist, hversion, hextended, hbucket⟩

/-- The three ways a request can take: it is left without an answer, it is refused before
anything is removed, or it comes to the listing of the uploads. -/
theorem run_cases :
    GivesUp motr b ∧ (run motr b fetchCount fromJson).responses = [] ∨
    (¬ GivesUp motr b ∧ ¬ Lists motr b ∧
      ∃ code, run motr b fetchCount fromJson = failWith { indices := b.indices } code) ∨
    (¬ GivesUp motr b ∧ Lists motr b ∧ run motr b fetchCount fromJson =
      fetchMultipartObjects motr b fetchCount fromJson (b.uploads.length + 1) 0
        { indices := b.indices, isBucketEmpty := true }) := by
  unfold run GivesUp Lists
  cases hload : motr.loadBucket with
  | present =>
    simp only [true_and, fetchFirstObjectMetadata]
    by_cases hz : b.objectListIndexOid = {}
    · simp [hz]
    · cases hfirst : motr.firstObject with
      | served =>
        by_cases hobjects : b.objects = []
        · simp [hz, hobjects]
        · have htake : b.objects.take 1 ≠ [] := by
            simpa using hobjects
          simp only [if_neg hz, if_pos htake]
          exact .inr (.inl ⟨by simp, by simp [hz, hobjects], _, rfl⟩)
      | failed =>
        simp only [if_neg hz]
        exact .inr (.inl ⟨by simp, by simp [hz], _, rfl⟩)
      | failedE2big => simp [hz]
      | failedToLaunch =>
        simp only [if_neg hz]
        exact .inr (.inl ⟨by simp, by simp [hz], _, rfl⟩)
  | empty | missing | failed | failedToLaunch => exact .inr (.inl ⟨by simp, by simp, _, rfl⟩)

theorem Answered.responses (h : Answered a through) : .success204 ∈ a.responses ↔ through := by
  obtain ⟨r, hr, hiff⟩ := h.response
  rw [hr, mem_singleton, ← hiff]
  exact eq_comm

theorem objects_of_zero (hz : b.objectListIndexOid = {}) : b.objects = [] := by
  unfold Bucket.objects
  rw [hz, if_neg b.noZero]

/-- **Deleting a bucket keeps its promises exactly when Motr serves what it has to.** -/
theorem deletes_iff (hcount : 1 ≤ fetchCount) :
    Deletes motr b fetchCount fromJson ↔ Served motr b fetchCount fromJson := by
  rcases run_cases with ⟨hup, hrun⟩ | ⟨hup, hlists, code, hrun⟩ | ⟨hup, hlists, hrun⟩
  · -- nobody answers
    refine iff_of_false ?_ ?_
    · intro h
      obtain ⟨r, hr⟩ := h.response
      rw [hrun] at hr
      cases hr
    · intro h
      exact h.firstObject hup.1 hup.2.1 hup.2.2
  · have hopen : Open { indices := b.indices } := ⟨rfl, rfl, rfl, rfl⟩
    have hanswered : Answered (run motr b fetchCount fromJson) False := by
      rw [hrun]
      exact hopen.failWith code not_false
    refine iff_of_true ⟨?_, hanswered.done, ?_, ?_⟩ ⟨?_, ?_⟩
    · obtain ⟨r, hr, -⟩ := hanswered.response
      exact ⟨r, hr⟩
    · intro _
      rw [hrun]
      exact ⟨rfl, rfl⟩
    · intro hsuccess
      exact absurd (hanswered.responses.mp hsuccess) not_false
    · intro hpresent hne hbig
      exact hup ⟨hpresent, hne, hbig⟩
    · intro hcompletes
      exact absurd (completes_iff.mp hcompletes).1 hlists
  · obtain ⟨a, ha, hfound⟩ := fetchMultipartObjects_found motr b fromJson hcount
    rw [ha] at hrun
    have hanswered : Answered (run motr b fetchCount fromJson)
        (Through motr b fetchCount fromJson) := by
      rw [hrun]
      exact removePartIndexes_answered hfound
    have hempty : b.objects = [] := by
      rcases hlists.2 with hz | ⟨-, hempty⟩
      · exact objects_of_zero hz
      · exact hempty
    constructor
    · intro h
      refine ⟨fun hpresent hne hbig => hup ⟨hpresent, hne, hbig⟩, ?_⟩
      intro hcompletes oid hoid howns hpart
      have hthrough := (completes_iff.mp hcompletes).2
      have hgone := h.dropped (hanswered.responses.mpr hthrough) oid (.inr hpart)
      rw [hrun, removePartIndexes_indices hfound hthrough] at hgone
      by_contra hnot
      exact hgone ⟨⟨hoid, hnot⟩, fun h => howns h.1⟩
    · intro h
      refine ⟨?_, hanswered.done, fun hne => absurd hempty hne, ?_⟩
      · obtain ⟨r, hr, -⟩ := hanswered.response
        exact ⟨r, hr⟩
      · intro hsuccess oid hoid hleft
        have hthrough := hanswered.responses.mp hsuccess
        rw [hrun, removePartIndexes_indices hfound hthrough] at hleft
        obtain ⟨⟨hin, hkept⟩, hother⟩ := hleft
        have hnonzero : oid ≠ {} := by
          rintro rfl
          exact b.noZero hin
        have howns : ¬ b.Owns oid := fun h => hother ⟨h, hnonzero⟩
        exact hkept (h.partIndexes (completes_iff.mpr ⟨hlists, hthrough⟩) oid hin howns
          (hoid.resolve_left howns))

end

def indexOid (n : UInt8) : M0Uint128 := { uLo := ⟨List.replicate 8 n, length_replicate⟩ }

/-- The metadata of an upload with this part index. -/
def uploadJson : Bytes :=
  ascii "\x7b\"motr_part_layout\":\"AAAAAAAAAAAFBQUFBQUFBQAAAAAAAAAAAAAAAAAAAAAAAAAAAAAAAA==\"\x7d"

/-- A bucket without an object, and with an upload in progress whose part index is 5. -/
def bucketWithUpload : Bucket :=
  { objectListIndexOid := indexOid 1
    objectsVersionListIndexOid := indexOid 2
    extendedMetadataIndexOid := indexOid 3
    multipartIndexOid := indexOid 4
    indices := [indexOid 1, indexOid 2, indexOid 3, indexOid 4, indexOid 5]
    noZero := by decide
    objectList := []
    uploadList := [(ascii "a", ascii "not json"), (ascii "b", uploadJson)]
    ordered := by decide
    named := by decide }

/-- The only value that parses. -/
def uploadFromJson (value : Bytes) : Option M0Uint128 :=
  if value = uploadJson then some (indexOid 5) else none

/-- All goes well. -/
def allServed : MotrAnswers :=
  { loadBucket := .present
    firstObject := .served
    uploads := fun _ => .served
    partIndexesLaunched := true
    partIndex := fun _ => true
    multipartIndex := .served
    objectListIndex := .served
    versionListIndex := .served
    extendedMetadataIndex := .served
    removeBucket := none }

/-- When all goes well the promises are kept, two uploads being listed one at a time. -/
theorem deletes_iff_allServed : 1 ≤ 1 ∧ Deletes allServed bucketWithUpload 1 uploadFromJson := by
  refine ⟨le_refl 1, (deletes_iff (le_refl 1)).mpr ⟨by decide, ?_⟩⟩
  rintro - oid - - ⟨kv, hkv, hparse⟩
  refine ⟨1, (ascii "b", uploadJson), ⟨rfl, ?_, fun _ _ => rfl⟩, rfl⟩
  have hall : ∀ kv ∈ bucketWithUpload.uploads, ∀ oid, uploadFromJson kv.2 = some oid →
      uploadFromJson uploadJson = some oid := by
    intro kv _ oid hoid
    unfold uploadFromJson at hoid ⊢
    split at hoid
    · rw [if_pos rfl]
      exact hoid
    · cases hoid
  exact hall kv hkv oid hparse

/-- The reader that looks for an object gives up, and nobody answers; the listing of the uploads
fails, and the part index is left behind a 204. -/
theorem not_deletes_of_reader :
    ¬ Deletes { allServed with firstObject := .failedE2big } bucketWithUpload 1 uploadFromJson ∧
      ¬ Deletes { allServed with uploads := fun _ => .failed } bucketWithUpload 1
        uploadFromJson := by
  constructor
  · intro h
    obtain ⟨r, hr⟩ := h.response
    have hnone : (run { allServed with firstObject := .failedE2big } bucketWithUpload 1
        uploadFromJson).responses = [] := by decide
    rw [hnone] at hr
    cases hr
  · intro h
    have hpart : IsPartIndex bucketWithUpload uploadFromJson (indexOid 5) :=
      ⟨(ascii "b", uploadJson), by decide, rfl⟩
    exact h.dropped (by decide) (indexOid 5) (.inr hpart) (by decide)

end S3DeleteBucketAction

end CortxS3
