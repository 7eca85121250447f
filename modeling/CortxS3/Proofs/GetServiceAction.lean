/-
Which buckets an account is shown.

The batches go through the index from the prefix of the account on, and what is listed is what comes
in front of the first key in which the prefix does not occur.  The keys of the account are the first
of these.  But the prefix may occur inside a key of another account too, and such keys are listed
with the own ones when they follow directly.
-/
import CortxS3.Server.GetServiceAction

namespace CortxS3

open List hiding after next

namespace S3GetServiceAction

variable {β : Type} {fromJson : Bytes → Option β} {index : List KeyValue}

open OrderedIndex

/-! ### The index -/

/-- The pairs lie under the id of an account, a slash, and a name. -/
structure WellKeyed (index : List KeyValue) : Prop where
  sorted : Sorted index
  keys : ∀ kv ∈ index, ∃ account name,
    kv.1 = getSearchBucketPrefix account ++ name ∧ 47 ∉ account ∧ name ≠ []

/-- The account whose bucket lies under the key. -/
def accountOf (key : Bytes) : Bytes := key.takeWhile (· ≠ 47)

/-- The pairs of an account. -/
def own (accountId : Bytes) (index : List KeyValue) : List KeyValue :=
  index.filter fun kv => accountOf kv.1 = accountId

/-- **What an account should be shown**: its own buckets that can be read, in the order of the
keys. -/
def ownBuckets (fromJson : Bytes → Option β) (accountId : Bytes) (index : List KeyValue) : List β :=
  (own accountId index).filterMap fun kv => fromJson kv.2

/-- The prefix occurs in the key. -/
def contains (keyPrefix : Bytes) (kv : KeyValue) : Bool := (find keyPrefix kv.1).isSome

/-- The keys of other accounts that have the prefix in them and directly follow the own ones. -/
def strays (accountId : Bytes) (index : List KeyValue) : List KeyValue :=
  ((after index (getSearchBucketPrefix accountId)).dropWhile fun kv =>
    (getSearchBucketPrefix accountId).isPrefixOf kv.1).takeWhile
      (contains (getSearchBucketPrefix accountId))

theorem accountOf_append {account name : Bytes} (h : 47 ∉ account) :
    accountOf (getSearchBucketPrefix account ++ name) = account := by
  unfold accountOf getSearchBucketPrefix
  rw [append_assoc, takeWhile_append_of_pos]
  · simp [ascii]
  · intro c hc
    simp only [ne_eq, decide_not, Bool.not_eq_eq_eq_not, Bool.not_true, decide_eq_false_iff_not]
    intro heq
    exact h (heq ▸ hc)

variable {accountId : Bytes} {kv : KeyValue}

theorem accountOf_eq_iff (hkeys : WellKeyed index) (hkv : kv ∈ index) (hid : 47 ∉ accountId) :
    accountOf kv.1 = accountId ↔ (getSearchBucketPrefix accountId).isPrefixOf kv.1 = true := by
  obtain ⟨account, name, hkey, haccount, -⟩ := hkeys.keys kv hkv
  rw [List.isPrefixOf_iff_prefix]
  constructor
  · intro h
    rw [hkey, accountOf_append haccount] at h
    rw [hkey, h]
    exact prefix_append _ _
  · intro ⟨rest, hrest⟩
    rw [← hrest]
    exact accountOf_append hid

theorem own_eq_takeWhile (hkeys : WellKeyed index) (hid : 47 ∉ accountId) :
    own accountId index = (after index (getSearchBucketPrefix accountId)).takeWhile fun kv =>
      (getSearchBucketPrefix accountId).isPrefixOf kv.1 := by
  rw [takeWhile_prefix_after hkeys.sorted]
  unfold own after
  rw [filter_filter]
  refine filter_congr fun kv hkv => ?_
  rw [Bool.eq_iff_iff, Bool.and_eq_true]
  simp only [decide_eq_true_eq]
  rw [accountOf_eq_iff hkeys hkv hid]
  refine (and_iff_left_of_imp fun hprefix => ?_).symm
  refine lt_of_le_of_ne ( le_of_prefix (List.isPrefixOf_iff_prefix.mp hprefix)) ?_
  intro heq
  -- a key that is the prefix itself would have no name
  obtain ⟨account, name, hkey, haccount, hname⟩ := hkeys.keys kv hkv
  have hsame : accountId = account := by
    have hof := @accountOf_append accountId [] hid
    rw [append_nil, heq, hkey, accountOf_append haccount] at hof
    exact hof.symm
  rw [hkey, hsame] at heq
  exact hname (by simpa using heq)

/-! ### One batch -/

theorem contains_of_prefix {keyPrefix : Bytes} (h : keyPrefix.isPrefixOf kv.1 = true) :
    contains keyPrefix kv = true := by
  unfold contains
  rw [(find_eq_zero_iff keyPrefix kv.1).mpr h]
  rfl

/-- What the loop over a batch leaves. -/
theorem batchLoop_eq :
    ∀ (kvps : List KeyValue) (b : Batch β), b.retrivedAllKeys = false →
      kvps.length = b.length →
      (batchLoop fromJson kvps b).action.bucketList = b.action.bucketList ++
          (kvps.takeWhile (contains b.action.keyPrefix)).filterMap (fun kv => fromJson kv.2) ∧
        (batchLoop fromJson kvps b).action.keyPrefix = b.action.keyPrefix ∧
        ((batchLoop fromJson kvps b).retrivedAllKeys = false ↔
          ∀ kv ∈ kvps, contains b.action.keyPrefix kv = true) ∧
        ((batchLoop fromJson kvps b).retrivedAllKeys = false →
          ∀ kv, kvps.getLast? = some kv →
            (batchLoop fromJson kvps b).action.lastKey = kv.1) := by
  intro kvps
  induction kvps with
  | nil =>
    intro b hb hlength
    simp [batchLoop, hb]
  | cons kv rest ih =>
    intro b hb hlength
    by_cases hfind : find b.action.keyPrefix kv.1 = none
    · have hno : ¬contains b.action.keyPrefix kv = true := by
        simp [contains, hfind]
      rw [batchLoop, if_pos hfind, takeWhile_cons_of_neg hno]
      refine ⟨by simp, rfl, ?_, by simp⟩
      simp only [Bool.true_eq_false, false_iff]
      exact fun h => hno (h kv mem_cons_self)
    · have hyes : contains b.action.keyPrefix kv = true := by
        simpa [contains, Option.isSome_iff_ne_none] using hfind
      have hlength' : rest.length = b.length - 1 := by
        rw [length_cons] at hlength
        omega
      rw [batchLoop, if_neg hfind, takeWhile_cons_of_pos hyes]
      obtain ⟨hlist, hprefix, hall, hlast⟩ := ih (b.addBucket fromJson kv) hb hlength'
      refine ⟨?_, hprefix, ?_, ?_⟩
      · rw [hlist]
        cases hjson : fromJson kv.2 with
        | none | some bucket => simp [Batch.addBucket, hjson]
      · rw [hall, forall_mem_cons]
        exact (and_iff_right hyes).symm
      · intro hkeys kv' hkv'
        cases rest with
        | nil =>
          have hzero : b.length - 1 = 0 := by simpa using hlength'.symm
          obtain rfl : kv = kv' := by simpa using hkv'
          simp [batchLoop, Batch.addBucket, hzero]
        | cons next rest =>
          rw [List.getLast?_cons_cons] at hkv'
          exact hlast hkeys kv' hkv'

/-! ### All batches -/

/-- The listing from a key on: what comes in front of the first key without the prefix. -/
def listedFrom (fromJson : Bytes → Option β) (index : List KeyValue)
    (a : S3GetServiceAction β) : List β :=
  a.bucketList ++ ((after index a.lastKey).takeWhile (contains a.keyPrefix)).filterMap
    fun kv => fromJson kv.2

variable {a : S3GetServiceAction β} {kvps rest : List KeyValue}

/-- A batch that is not full, or in which a key without the prefix comes, is the last. -/
theorem getNextBucketsSuccessful_done (htail : after index a.lastKey = kvps ++ rest)
    (h : kvps.length < bucketKvsFetchCount ∧ rest = [] ∨
      ¬∀ kv ∈ kvps, contains a.keyPrefix kv = true) :
    getNextBucketsSuccessful fromJson a kvps = .done (.buckets (listedFrom fromJson index a)) := by
  obtain ⟨hlist, -, hall, -⟩ := @batchLoop_eq β fromJson kvps
    { action := a, length := kvps.length } rfl rfl
  have hlast : kvps.length < bucketKvsFetchCount ∨ (batchLoop fromJson kvps
      { action := a, length := kvps.length }).retrivedAllKeys = true := by
    rcases h with ⟨hlength, -⟩ | h
    · exact Or.inl hlength
    · exact Or.inr (Bool.not_eq_false _ ▸ fun hno => h (hall.mp hno))
  have hlisted : (kvps ++ rest).takeWhile (contains a.keyPrefix) =
      kvps.takeWhile (contains a.keyPrefix) := by
    rcases h with ⟨-, hrest⟩ | h
    · rw [hrest, append_nil]
    · rw [takeWhile_append, if_neg]
      intro hlength
      have hsame : kvps.takeWhile (contains a.keyPrefix) = kvps :=
        (List.takeWhile_prefix _).eq_of_length hlength
      exact h fun kv hkv => mem_takeWhile_imp (hsame ▸ hkv)
  unfold getNextBucketsSuccessful listedFrom
  dsimp only
  rw [if_pos hlast, hlist, htail, hlisted]

theorem getNextBucketsSuccessful_next (hsorted : Sorted index) {a : S3GetServiceAction β}
    {kvps rest : List KeyValue} (htail : after index a.lastKey = kvps ++ rest)
    (hfull : kvps.length = bucketKvsFetchCount)
    (hcontains : ∀ kv ∈ kvps, contains a.keyPrefix kv = true) :
    ∃ a', getNextBucketsSuccessful fromJson a kvps = .next a' ∧ after index a'.lastKey = rest ∧
      listedFrom fromJson index a' = listedFrom fromJson index a := by
  obtain ⟨hlist, hprefix, hall, hlast⟩ := @batchLoop_eq β fromJson kvps
    { action := a, length := kvps.length } rfl rfl
  have hmore := hall.mpr hcontains
  have hne : kvps ≠ [] := by
    intro hnil
    simp [hnil, bucketKvsFetchCount] at hfull
  have hkey := hlast hmore (kvps.getLast hne) (List.getLast?_eq_some_getLast hne)
  have hafter : after index (kvps.getLast hne).1 = rest := by
    refine after_of_split kvps.dropLast hsorted ?_
    rw [← singleton_append, ← append_assoc, dropLast_append_getLast hne, ← htail]
    exact after_suffix hsorted a.lastKey
  refine ⟨(batchLoop fromJson kvps { action := a, length := kvps.length }).action, ?_, ?_, ?_⟩
  · unfold getNextBucketsSuccessful
    dsimp only
    rw [if_neg]
    rw [hmore, hfull]
    simp
  · rw [hkey, hafter]
  · unfold listedFrom
    rw [hkey, hafter, hlist, hprefix, htail]
    dsimp only
    have hall' : kvps.takeWhile (contains a.keyPrefix) = kvps :=
      takeWhile_eq_self_iff.mpr hcontains
    rw [takeWhile_append_of_pos hcontains, hall', filterMap_append, append_assoc]

/-- **The batches come to an end, whatever the index is, and list what stands in front of the first
key without the prefix.** -/
theorem ends_listedFrom (hsorted : Sorted index) :
    ∀ (n : Nat) (a : S3GetServiceAction β), (after index a.lastKey).length ≤ n →
      Until.Ends (getNextBuckets fromJson index) a (.buckets (listedFrom fromJson index a)) := by
  intro n
  induction n with
  | zero =>
    intro a hn
    have hnil : after index a.lastKey = [] := length_eq_zero_iff.mp (Nat.le_zero.mp hn)
    refine (Until.ends_iff_of_done (w := .buckets a.bucketList) ?_ _).mpr ?_
    · simp [getNextBuckets, nextKeyval, OrderedIndex.next, hnil, getNextBucketsFailed]
    · simp [listedFrom, hnil]
  | succ n ih =>
    intro a hn
    have hnext : OrderedIndex.next index a.lastKey bucketKvsFetchCount false =
        (after index a.lastKey).take bucketKvsFetchCount := rfl
    have htail := (take_append_drop bucketKvsFetchCount (after index a.lastKey)).symm
    have hlength := length_take (i := bucketKvsFetchCount) (l := after index a.lastKey)
    have hrest : (after index a.lastKey).length ≤ bucketKvsFetchCount →
        (after index a.lastKey).drop bucketKvsFetchCount = [] := drop_eq_nil_of_le
    have hshorter := length_drop (i := bucketKvsFetchCount) (l := after index a.lastKey)
    generalize (after index a.lastKey).take bucketKvsFetchCount = kvps at hnext htail hlength
    generalize (after index a.lastKey).drop bucketKvsFetchCount = rest at htail hrest hshorter
    cases hbatch : kvps with
    | nil =>
      have hnil : after index a.lastKey = [] := by
        rw [hbatch, length_nil] at hlength
        refine length_eq_zero_iff.mp ?_
        unfold bucketKvsFetchCount at hlength
        omega
      refine (Until.ends_iff_of_done (w := .buckets a.bucketList) ?_ _).mpr ?_
      · simp [getNextBuckets, nextKeyval, hnext, hbatch, getNextBucketsFailed]
      · simp [listedFrom, hnil]
    | cons first batch =>
      have hstep : getNextBuckets fromJson index a =
          getNextBucketsSuccessful fromJson a kvps := by
        simp [getNextBuckets, nextKeyval, hnext, hbatch]
      by_cases hlast : kvps.length < bucketKvsFetchCount ∨
          ¬∀ kv ∈ kvps, contains a.keyPrefix kv = true
      · refine (Until.ends_iff_of_done ?_ _).mpr rfl
        rw [hstep]
        refine getNextBucketsSuccessful_done htail (hlast.imp_left fun hshort => ?_)
        refine ⟨hshort, hrest ?_⟩
        omega
      · obtain ⟨hfull, hcontains⟩ := not_or.mp hlast
        rw [not_not] at hcontains
        obtain ⟨a', hnext', hafter, hlisted⟩ :=
          @getNextBucketsSuccessful_next β fromJson _ hsorted _ _ _ htail (by omega) hcontains
        rw [Until.ends_iff_of_next (hstep.trans hnext'), ← hlisted]
        refine ih a' ?_
        rw [hafter]
        unfold bucketKvsFetchCount at hshorter
        omega

/-! ### What an account is shown -/

theorem takeWhile_of_imp {α : Type} {p q : α → Bool} (h : ∀ x, p x = true → q x = true) :
    ∀ l : List α, l.takeWhile q = l.takeWhile p ++ (l.dropWhile p).takeWhile q := by
  intro l
  induction l with
  | nil => rfl
  | cons x l ih =>
    by_cases hp : p x = true
    · rw [takeWhile_cons_of_pos hp, dropWhile_cons_of_pos hp,
        takeWhile_cons_of_pos (h x hp), ih, cons_append]
    · rw [takeWhile_cons_of_neg hp, dropWhile_cons_of_neg hp, nil_append]

theorem takeWhile_contains (hkeys : WellKeyed index) (hid : 47 ∉ accountId) :
    (after index (getSearchBucketPrefix accountId)).takeWhile
        (contains (getSearchBucketPrefix accountId)) =
      own accountId index ++ strays accountId index := by
  rw [own_eq_takeWhile hkeys hid]
  exact takeWhile_of_imp (fun _ => contains_of_prefix) _

/-- **An account is shown its own buckets, all of them, once and in order, if and only if none of the
keys of other accounts that hold its prefix and directly follow lies over a bucket that can be
read.** The listing ends on every index. -/
theorem ownBuckets_iff (fromJson : Bytes → Option β) (index : List KeyValue) (accountId : Bytes)
    (hkeys : WellKeyed index) (hid : 47 ∉ accountId) :
    Until.Ends (getNextBuckets fromJson index) (initialization accountId)
        (.buckets (ownBuckets fromJson accountId index)) ↔
      ∀ kv ∈ strays accountId index, fromJson kv.2 = none := by
  have hends := @ends_listedFrom β fromJson _ hkeys.sorted _ (initialization accountId)
    (Nat.le_refl _)
  have hlisted : listedFrom fromJson index (initialization accountId) =
      ownBuckets fromJson accountId index ++
        (strays accountId index).filterMap fun kv => fromJson kv.2 := by
    unfold listedFrom initialization ownBuckets
    dsimp only
    rw [takeWhile_contains hkeys hid, filterMap_append, nil_append]
  rw [hlisted] at hends
  constructor
  · intro hown
    have hsame := Until.Ends.unique hends hown
    rw [Answer.buckets.injEq, self_eq_append_right, filterMap_eq_nil_iff] at hsame
    exact hsame
  · intro hstrays
    rw [filterMap_eq_nil_iff.mpr hstrays, append_nil] at hends
    exact hends

/-! ### Two accounts -/

/-- The replication account, and an account whose id ends in the same digits. -/
def replicationIndex : List KeyValue :=
  [(ascii "78981/films", ascii "own"), (ascii "800000078981/maps", ascii "foreign")]

theorem replicationIndex_wellKeyed : WellKeyed replicationIndex where
  sorted := by decide
  keys := by
    intro kv hkv
    rcases mem_pair.mp hkv with rfl | rfl
    · exact ⟨ascii "78981", ascii "films", by decide, by decide, by decide⟩
    · exact ⟨ascii "800000078981", ascii "maps", by decide, by decide, by decide⟩

/-- The replication account is shown the bucket of the other one, whose key holds `78981/`. -/
theorem not_ownBuckets_replication :
    WellKeyed replicationIndex ∧
      ¬Until.Ends (getNextBuckets some replicationIndex) (initialization (ascii "78981"))
        (.buckets (ownBuckets some (ascii "78981") replicationIndex)) := by
  refine ⟨replicationIndex_wellKeyed, fun hown => ?_⟩
  have hdone : getNextBuckets some replicationIndex (initialization (ascii "78981")) =
      .done (.buckets [ascii "own", ascii "foreign"]) := rfl
  have hsame := (Until.ends_iff_of_done hdone _).mp hown
  revert hsame
  decide +kernel

/-- The other account is shown its own bucket alone. -/
theorem ownBuckets_iff_other :
    Until.Ends (getNextBuckets some replicationIndex) (initialization (ascii "800000078981"))
      (.buckets [ascii "foreign"]) :=
  (ownBuckets_iff some replicationIndex (ascii "800000078981") replicationIndex_wellKeyed
    (by decide)).mpr (by decide +kernel)

end S3GetServiceAction

end CortxS3
