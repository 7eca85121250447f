/-
Paging through a listing without a delimiter.

A page ends when it is full, when the index ends, or at the first key behind the prefix.  In
the first case the source has to say whether it was the last page, and it says so by `length`,
the number of keys of the current batch it has not looked at.  That number is zero at the end
of every batch, also when the index goes on, and it is positive when the keys that are left do
not have the prefix.

So the listing is right for some alignments of the three numbers involved and wrong for the
others.  `listPages_exact_iff` says which: with `M` keys that have the prefix, pages of `m` and
batches of `n`,

  * when `n` divides `m`, every full page ends with a batch, and no page is ever truncated: the
    listing is right only if one page holds it all;
  * when it does not, a full page is truncated whenever the index goes on, and that is wrong
    when the last page is full and the keys behind it do not match.

The counters of the response are `unsigned int`s, and from `m = 2 ^ 32` on no page is ever full.
-/
import CortxS3.Server.GetBucketAction

namespace CortxS3

open List hiding after next

open OrderedIndex

namespace S3GetBucketAction

variable {n : Nat} {fromJson : Bytes → Option Bytes}

/-! ### One batch -/

/-- The key has the prefix that was asked for. -/
abbrev Matches (a : S3GetBucketAction) (kv : KeyValue) : Prop :=
  a.requestPrefix.isPrefixOf kv.1 = true

/-- A pair the reader can meet: not in front of the prefix, and with a value that parses to
the object of its key. -/
structure Readable (fromJson : Bytes → Option Bytes) (pfx : Bytes) (kv : KeyValue) : Prop where
  behind : pfx ≤ kv.1
  parses : fromJson kv.2 = some kv.1

/-- A batch in a listing without a delimiter. -/
structure Batch.Plain (b : Batch) : Prop where
  noPrefixes : b.objectList.commonPrefixes = []
  notRolled : b.lastKeyInCommonPrefix = false
  notSkipped : b.skipRemainingCommonPrefixes = false
  notPast : b.skipNoFurtherPrefixMatch = false

/-- The page is not full yet.  The counter of the page is an `unsigned int`, so a larger
`max-keys` is never reached. -/
def Open (maxKeys count : Nat) : Prop := maxKeys < 2 ^ 32 → count < maxKeys

variable {m : Nat} {r : S3ObjectListResponse}

theorem resultCount_eq_iff (hc : r.commonPrefixes = []) (hle : m < 2 ^ 32 → r.objectList.length ≤ m) :
    r.resultCount = m ↔ m < 2 ^ 32 ∧ r.objectList.length = m := by
  have hcount : r.resultCount = r.objectList.length % 2 ^ 32 := by
    simp [S3ObjectListResponse.resultCount, S3ObjectListResponse.size,
      S3ObjectListResponse.commonPrefixesSize, toUInt, hc]
  rw [hcount]
  constructor
  · intro h
    have hm : m < 2 ^ 32 := by rw [← h]; exact Nat.mod_lt _ (by decide)
    have hlt : r.objectList.length < 2 ^ 32 := Nat.lt_of_le_of_lt (hle hm) hm
    exact ⟨hm, by rw [Nat.mod_eq_of_lt hlt] at h; exact h⟩
  · rintro ⟨hm, rfl⟩
    exact Nat.mod_eq_of_lt hm

theorem resultCount_ne (hc : r.commonPrefixes = []) (hopen : Open m r.objectList.length) :
    r.resultCount ≠ m := by
  intro h
  have hle : m < 2 ^ 32 → r.objectList.length ≤ m := fun hm => Nat.le_of_lt (hopen hm)
  obtain ⟨hm, heq⟩ := (resultCount_eq_iff hc hle).mp h
  have := hopen hm
  omega

/-- `n` keys more on the page. -/
def Batch.list (b : Batch) (kvs : List KeyValue) : Batch :=
  { b with objectList := { b.objectList with
      objectList := b.objectList.objectList ++ kvs.map Prod.fst } }

variable {a : S3GetBucketAction} {b : Batch} {kv : KeyValue}

theorem visit_of_matches (hd : a.requestDelimiter = []) (hb : b.Plain)
    (hr : Readable fromJson a.requestPrefix kv) (hkv : Matches a kv) :
    visit fromJson a b kv = countKey a (b.list [kv]) kv.1 := by
  have hlist : listKey fromJson b kv.2 = .fall (b.list [kv]) := by
    simp [listKey, hr.parses, Batch.list, S3ObjectListResponse.addObject]
  have hfilter : filterKey fromJson a b kv = .fall (b.list [kv]) := by
    unfold filterKey
    by_cases hp : a.requestPrefix = []
    · rw [if_pos ⟨hp, hd⟩, hlist]
    · rw [if_neg (by simp [hp]), if_pos ⟨hp, hd⟩, if_pos ((find_eq_zero_iff _ _).mpr hkv), hlist]
  simp [visit, checkLastCommonPrefix, hb.notRolled, hfilter]

theorem visit_of_not_matches (hd : a.requestDelimiter = []) (hb : b.Plain)
    (hr : Readable fromJson a.requestPrefix kv) (hkv : ¬ Matches a kv) :
    visit fromJson a b kv =
      .leave { b with skipNoFurtherPrefixMatch := true, length := 0 } := by
  have hp : a.requestPrefix ≠ [] := by
    intro hp
    exact hkv (by rw [Matches, hp]; rfl)
  have hlt : a.requestPrefix < kv.1 := by
    refine lt_of_le_of_ne hr.behind ?_
    intro heq
    exact hkv (List.isPrefixOf_iff_prefix.mpr (heq ▸ prefix_refl _))
  have hfind : find a.requestPrefix kv.1 ≠ some 0 := fun h => hkv ((find_eq_zero_iff _ _).mp h)
  simp [visit, checkLastCommonPrefix, hb.notRolled, filterKey, hp, hd, hfind, noPrefixMatch, hlt]

theorem countKey_plain {key : Bytes} {k : Nat} (hb : b.Plain) (hk : b.length = k + 1) :
    countKey a b key =
      if k = 0 ∨ b.objectList.resultCount = a.maxKeys then
        .leave { b with lastKey := key, length := k }
      else .skip { b with length := k } := by
  simp [countKey, hb.notRolled, hk]

/-- How the loop over a batch can end. -/
inductive Visited (a : S3GetBucketAction) (b : Batch) (kvps : List KeyValue) : Batch → Prop where
  /-- The page is full. -/
  | full (front : List KeyValue) (kv : KeyValue) (rest : List KeyValue)
      (hsplit : kvps = front ++ kv :: rest) (hall : ∀ x ∈ front ++ [kv], Matches a x)
      (hm : a.maxKeys < 2 ^ 32)
      (hfull : b.objectList.objectList.length + front.length + 1 = a.maxKeys) :
      Visited a b kvps { b.list (front ++ [kv]) with lastKey := kv.1, length := rest.length }
  /-- The batch is read to its end. -/
  | batchEnd (front : List KeyValue) (kv : KeyValue)
      (hsplit : kvps = front ++ [kv]) (hall : ∀ x ∈ front ++ [kv], Matches a x)
      (hopen : Open a.maxKeys (b.objectList.objectList.length + front.length + 1)) :
      Visited a b kvps { b.list (front ++ [kv]) with lastKey := kv.1, length := 0 }
  /-- The keys behind the prefix begin. -/
  | past (front : List KeyValue) (kv : KeyValue) (rest : List KeyValue)
      (hsplit : kvps = front ++ kv :: rest) (hall : ∀ x ∈ front, Matches a x)
      (hkv : ¬ Matches a kv)
      (hopen : Open a.maxKeys (b.objectList.objectList.length + front.length)) :
      Visited a b kvps { b.list front with skipNoFurtherPrefixMatch := true, length := 0 }

theorem Batch.list_nil (b : Batch) : b.list [] = b := by
  simp [Batch.list]

variable {rest : List KeyValue}

theorem Visited.cons {b' : Batch} (hkv : Matches a kv) {k : Nat}
    (h : Visited a { b.list [kv] with length := k } rest b') : Visited a b (kv :: rest) b' := by
  have hlen : { b.list [kv] with length := k }.objectList.objectList.length =
      b.objectList.objectList.length + 1 := by
    simp [Batch.list]
  cases h with
  | full front x tail hsplit hall hm hfull =>
    have hv : Visited a b (kv :: rest) _ := .full (kv :: front) x tail
      (by rw [hsplit, cons_append])
      (by intro y hy
          rcases mem_cons.mp hy with hy | hy
          · rw [hy]; exact hkv
          · exact hall y hy) hm
      (by rw [hlen] at hfull; simp only [length_cons]; omega)
    simpa [Batch.list] using hv
  | batchEnd front x hsplit hall hopen =>
    have hv : Visited a b (kv :: rest) _ := .batchEnd (kv :: front) x
      (by rw [hsplit, cons_append])
      (by intro y hy
          rcases mem_cons.mp hy with hy | hy
          · rw [hy]; exact hkv
          · exact hall y hy)
      (by intro hm
          have := hopen hm
          rw [hlen] at this
          simp only [length_cons]
          omega)
    simpa [Batch.list] using hv
  | past front x tail hsplit hall hx hopen =>
    have hv : Visited a b (kv :: rest) _ := .past (kv :: front) x tail
      (by rw [hsplit, cons_append])
      (by intro y hy
          rcases mem_cons.mp hy with hy | hy
          · rw [hy]; exact hkv
          · exact hall y hy) hx
      (by intro hm
          have := hopen hm
          rw [hlen] at this
          simp only [length_cons]
          omega)
    simpa [Batch.list] using hv

/-- **The loop over a batch ends in one of three ways.** -/
theorem visitAll_visited (fromJson : Bytes → Option Bytes) (hd : a.requestDelimiter = []) :
    ∀ (kvps : List KeyValue) (b : Batch), kvps ≠ [] → b.Plain → b.length = kvps.length →
      Open a.maxKeys b.objectList.objectList.length →
      (∀ kv ∈ kvps, Readable fromJson a.requestPrefix kv) →
      Visited a b kvps (visitAll fromJson a b kvps) := by
  intro kvps
  induction kvps with
  | nil => intro b hne; exact absurd rfl hne
  | cons kv rest ih =>
    intro b _ hb hlen hopen hread
    have hr := hread kv (by simp)
    unfold visitAll
    by_cases hkv : Matches a kv
    · rw [visit_of_matches hd hb hr hkv]
      have hplain : (b.list [kv]).Plain := ⟨hb.noPrefixes, hb.notRolled, hb.notSkipped, hb.notPast⟩
      have hle : a.maxKeys < 2 ^ 32 →
          (b.list [kv]).objectList.objectList.length ≤ a.maxKeys := by
        intro hm
        have := hopen hm
        simp [Batch.list]
        omega
      have hiff := resultCount_eq_iff (r := (b.list [kv]).objectList) hplain.noPrefixes hle
      rw [countKey_plain hplain hlen]
      by_cases hfull : (b.list [kv]).objectList.resultCount = a.maxKeys
      · -- the page is full
        rw [if_pos (Or.inr hfull)]
        obtain ⟨hm, hcount⟩ := hiff.mp hfull
        have hv : Visited a b (kv :: rest) _ := .full [] kv rest rfl
          (by simpa using hkv) hm (by simpa [Batch.list] using hcount)
        exact hv
      · by_cases hend : rest = []
        · -- this was the last key of the batch
          subst hend
          rw [if_pos (Or.inl length_nil)]
          have hv : Visited a b ([kv]) _ := .batchEnd [] kv rfl
            (by simpa using hkv)
            (by intro hm
                have h1 := hle hm
                have h2 : (b.list [kv]).objectList.objectList.length ≠ a.maxKeys :=
                  fun h => hfull (hiff.mpr ⟨hm, h⟩)
                simp [Batch.list] at h1 h2
                simp
                omega)
          exact hv
        · have hpos : rest.length ≠ 0 := by simpa using hend
          rw [if_neg (by simp [hpos, hfull])]
          refine Visited.cons hkv (k := rest.length)
            (ih { b.list [kv] with length := rest.length } hend ?_ rfl ?_ ?_)
          · exact ⟨hb.noPrefixes, hb.notRolled, hb.notSkipped, hb.notPast⟩
          · intro hm
            have h1 := hle hm
            have h2 : (b.list [kv]).objectList.objectList.length ≠ a.maxKeys :=
              fun h => hfull (hiff.mpr ⟨hm, h⟩)
            exact Nat.lt_of_le_of_ne h1 h2
          · exact fun x hx => hread x (by simp [hx])
    · rw [visit_of_not_matches hd hb hr hkv]
      have hv : Visited a b (kv :: rest) _ := .past [] kv rest rfl (by simp) hkv
        (by simpa using hopen)
      simpa [Batch.list_nil] using hv

/-! ### One page -/

/-- The action while it waits for a NEXT, in a listing without a delimiter. -/
structure Plain (n : Nat) (a : S3GetBucketAction) : Prop where
  delimiter : a.requestDelimiter = []
  positive : a.maxKeys ≠ 0
  index : a.noIndex = false
  noPrefixes : a.objectList.commonPrefixes = []
  notTruncated : a.objectList.responseIsTruncated = false
  listing : a.stateStartCheckAnyMoreKeys = false
  count : a.maxRecordCount = n
  launched : ¬ (a.requestPrefix ≠ [] ∧ a.requestMarkerKey = [] ∧ a.firstNextKeyvalCall = true)

/-- What a page is when `rem` lay before the reader: it is full, or it has all keys with the
prefix that were left. -/
inductive PageResult (n : Nat) (a : S3GetBucketAction) (rem : List KeyValue)
    (r : S3ObjectListResponse) : Prop where
  | full (front : List KeyValue) (kv : KeyValue) (rest : List KeyValue)
      (hsplit : rem = front ++ kv :: rest) (hall : ∀ x ∈ front ++ [kv], Matches a x)
      (hm : a.maxKeys < 2 ^ 32)
      (hfull : a.objectList.objectList.length + front.length + 1 = a.maxKeys)
      (hlist : r.objectList = a.objectList.objectList ++ (front ++ [kv]).map Prod.fst)
      (htrunc : r.responseIsTruncated = true ↔ ¬ n ∣ a.maxKeys ∧ rest ≠ [])
      (hmarker : r.responseIsTruncated = true → r.nextMarkerKey = kv.1)
  | ended (front rest : List KeyValue) (hsplit : rem = front ++ rest)
      (hall : ∀ x ∈ front, Matches a x) (hend : ∀ kv ∈ rest.head?, ¬ Matches a kv)
      (hopen : Open a.maxKeys (a.objectList.objectList.length + front.length))
      (hlist : r.objectList = a.objectList.objectList ++ front.map Prod.fst)
      (htrunc : r.responseIsTruncated = false)

variable {rem : List KeyValue}

theorem PageResult.prepend {a' : S3GetBucketAction} (batch : List KeyValue)
    (hp : a'.requestPrefix = a.requestPrefix) (hk : a'.maxKeys = a.maxKeys)
    (hbatch : ∀ x ∈ batch, Matches a x)
    (hlisted : a'.objectList.objectList = a.objectList.objectList ++ batch.map Prod.fst)
    (h : PageResult n a' rem r) : PageResult n a (batch ++ rem) r := by
  have hmatch : ∀ x, Matches a' x ↔ Matches a x := by
    intro x
    simp only [Matches, hp]
  have hlen : a'.objectList.objectList.length =
      a.objectList.objectList.length + batch.length := by
    rw [hlisted]; simp
  cases h with
  | full front kv rest hsplit hall hm hfull hlist htrunc hmarker =>
    refine .full (batch ++ front) kv rest (by rw [hsplit, append_assoc]) ?_ (hk ▸ hm) ?_ ?_
      (hk ▸ htrunc) hmarker
    · intro x hx
      rw [append_assoc] at hx
      rcases mem_append.mp hx with hx | hx
      · exact hbatch x hx
      · exact (hmatch x).mp (hall x hx)
    · rw [hlen, hk] at hfull
      rw [length_append]
      omega
    · rw [hlist, hlisted]
      simp
  | ended front rest hsplit hall hend hopen hlist htrunc =>
    refine .ended (batch ++ front) rest (by rw [hsplit, append_assoc]) ?_ ?_ ?_ ?_ htrunc
    · intro x hx
      rcases mem_append.mp hx with hx | hx
      · exact hbatch x hx
      · exact (hmatch x).mp (hall x hx)
    · exact fun kv hkv h => hend kv hkv ((hmatch kv).mpr h)
    · intro hm
      have := hopen (hk ▸ hm)
      rw [hlen, hk] at this
      rw [length_append]
      omega
    · rw [hlist, hlisted]
      simp

/-- The batch the loop of `getNextObjectsSuccessful` starts from. -/
def firstBatch (a : S3GetBucketAction) (kvps : List KeyValue) : Batch :=
  { objectList := a.objectList, lastKey := a.lastKey, length := kvps.length }

/-- The action as `getNextObjectsSuccessful` hands it to its loop. -/
def entered (a : S3GetBucketAction) (kvps : List KeyValue) : S3GetBucketAction :=
  { a with
    retryCount := 0
    readerE2big := false
    totalKeysVisited := a.totalKeysVisited + kvps.length }

theorem getNextObjectsSuccessful_eq (ha : a.Plain n) (kvps : List KeyValue) :
    getNextObjectsSuccessful n fromJson a kvps =
      finishBatch n (a.entered kvps) kvps
        (visitAll fromJson (a.entered kvps) ((a.entered kvps).firstBatch kvps) kvps) := by
  simp [getNextObjectsSuccessful, ha.listing, entered, firstBatch]

theorem entered_plain (ha : a.Plain n) (kvps : List KeyValue) : (a.entered kvps).Plain n :=
  ⟨ha.delimiter, ha.positive, ha.index, ha.noPrefixes, ha.notTruncated, ha.listing, ha.count,
    ha.launched⟩

theorem firstBatch_plain (ha : a.Plain n) (kvps : List KeyValue) : (a.firstBatch kvps).Plain :=
  ⟨ha.noPrefixes, rfl, rfl, rfl⟩

/-- A full page is answered, and truncated when the batch was not read to its end. -/
theorem finishBatch_full (kvps : List KeyValue) (hb : b.skipRemainingCommonPrefixes = false)
    (hr : b.lastKeyInCommonPrefix = false) (ht : b.objectList.responseIsTruncated = false)
    (hcount : b.objectList.resultCount = a.maxKeys) :
    ∃ a', finishBatch n a kvps b = .respond a' ∧
      a'.objectList.objectList = b.objectList.objectList ∧
      (a'.objectList.responseIsTruncated = true ↔ b.length ≠ 0) ∧
      (a'.objectList.responseIsTruncated = true → a'.objectList.nextMarkerKey = b.lastKey) := by
  unfold finishBatch
  simp only [hcount, true_or, if_true, true_and, hb, hr, Bool.false_eq_true, if_false]
  by_cases hl : b.length = 0
  · rw [if_neg (by simpa using hl)]
    exact ⟨_, rfl, rfl, by simp [ht, hl], by simp [ht]⟩
  · rw [if_pos hl]
    exact ⟨_, rfl, rfl, by simp [hl], fun _ => rfl⟩

/-- A page that is not full is answered when the batch was short or ran past the prefix. -/
theorem finishBatch_short (kvps : List KeyValue) (hb : b.skipRemainingCommonPrefixes = false)
    (hcount : b.objectList.resultCount ≠ a.maxKeys)
    (hshort : kvps.length < a.maxRecordCount ∨ b.skipNoFurtherPrefixMatch = true) :
    ∃ a', finishBatch n a kvps b = .respond a' ∧
      a'.objectList.objectList = b.objectList.objectList ∧
      a'.objectList.responseIsTruncated = b.objectList.responseIsTruncated := by
  unfold finishBatch
  simp only [hcount, false_or, false_and, if_false, hb, Bool.not_false, true_and]
  rw [if_pos hshort]
  exact ⟨_, rfl, rfl, rfl⟩

theorem finishBatch_more (kvps : List KeyValue) (ha : a.Plain n) (he : a.readerE2big = false)
    (hb : b.Plain) (ht : b.objectList.responseIsTruncated = false)
    (hcount : b.objectList.resultCount ≠ a.maxKeys) (hfull : a.maxRecordCount ≤ kvps.length) :
    ∃ a', finishBatch n a kvps b = .launch a' { key := b.lastKey, count := n, inclusive := false } ∧
      a'.Plain n ∧ a'.requestPrefix = a.requestPrefix ∧ a'.maxKeys = a.maxKeys ∧
      a'.objectList.objectList = b.objectList.objectList := by
  unfold finishBatch
  simp only [hcount, false_or, hb.notSkipped, Bool.not_false, true_and, hb.notPast,
    Bool.false_eq_true, or_false]
  rw [if_neg (by omega)]
  unfold getNextObjects
  simp only [he, Bool.false_eq_true, if_false]
  rw [if_neg (by simp [ha.positive, ha.index]), if_neg ha.launched]
  refine ⟨_, rfl, ?_, rfl, rfl, rfl⟩
  exact ⟨ha.delimiter, ha.positive, ha.index, hb.noPrefixes, ht, ha.listing, rfl, ha.launched⟩

/-- A batch is as long as was asked for, unless the index ends with it. -/
structure Whole (n : Nat) (kvps later : List KeyValue) : Prop where
  le : kvps.length ≤ n
  short : kvps.length < n → later = []

variable {front kvps : List KeyValue}

/-- While something is left of the index, a NEXT brings a batch of it. -/
theorem nextKeyval_batch {index rem : List KeyValue} {req : NextRequest} (hn : 0 < n)
    (hnext : next index req.key req.count req.inclusive = rem.take n) (hrem : rem ≠ []) :
    ∃ kvps later, rem = kvps ++ later ∧ Whole n kvps later ∧ kvps ≠ [] ∧
      nextKeyval index req = .present kvps := by
  have hne : rem.take n ≠ [] := by
    rw [ne_eq, take_eq_nil_iff, not_or]
    exact ⟨by omega, hrem⟩
  refine ⟨rem.take n, rem.drop n, (take_append_drop n rem).symm, ⟨length_take_le n rem, ?_⟩, hne,
    nextKeyval_present hnext hne⟩
  intro hlt
  rw [length_take] at hlt
  exact drop_eq_nil_of_le (by omega)

/-- The page is full, and the batch ends with it exactly when `n` divides `max-keys`. -/
theorem full_page (later : List KeyValue) (ha : a.Plain n) (hw : Whole n kvps later)
    (hdvd : n ∣ a.objectList.objectList.length) (hsplit : kvps = front ++ kv :: rest)
    (hall : ∀ x ∈ front ++ [kv], Matches a x) (hm : a.maxKeys < 2 ^ 32)
    (hfull : a.objectList.objectList.length + front.length + 1 = a.maxKeys) :
    ∃ a', finishBatch n a kvps { (a.firstBatch kvps).list (front ++ [kv]) with
        lastKey := kv.1, length := rest.length } = .respond a' ∧
      PageResult n a (kvps ++ later) a'.objectList := by
  set b : Batch := { (a.firstBatch kvps).list (front ++ [kv]) with
    lastKey := kv.1, length := rest.length } with hb
  have hlen : b.objectList.objectList.length = a.maxKeys := by
    have : b.objectList.objectList.length =
        a.objectList.objectList.length + (front.length + 1) := by
      simp [hb, Batch.list, firstBatch]
    omega
  have hcount : b.objectList.resultCount = a.maxKeys :=
    (resultCount_eq_iff (r := b.objectList) ha.noPrefixes
      (fun _ => Nat.le_of_eq hlen)).mpr ⟨hm, hlen⟩
  obtain ⟨a', hfin, hlist, htrunc, hmarker⟩ :=
    finishBatch_full kvps (n := n) (b := b) rfl rfl ha.notTruncated hcount
  refine ⟨a', hfin, ?_⟩
  refine .full front kv (rest ++ later) (by rw [hsplit]; simp) hall hm hfull hlist ?_ hmarker
  have hsize : kvps.length = front.length + 1 + rest.length := by
    rw [hsplit]; simp; omega
  have hle := hw.le
  have hfull' : a.objectList.objectList.length + (front.length + 1) = a.maxKeys := hfull
  have hrest : b.length = rest.length := rfl
  rw [htrunc, hrest]
  constructor
  · intro hl
    refine ⟨?_, ?_⟩
    · intro hdm
      have hd' : n ∣ front.length + 1 := (Nat.dvd_add_right hdvd).mp (hfull' ▸ hdm)
      have := Nat.le_of_dvd (Nat.succ_pos _) hd'
      omega
    · intro h
      exact hl (by rw [(append_eq_nil_iff.mp h).1, length_nil])
  · rintro ⟨hnd, hmore⟩ hl
    -- the batch ends here although more follows, so it was a whole one
    have hlater : later ≠ [] := by
      intro h
      exact hmore (by rw [eq_nil_of_length_eq_zero hl, h, append_nil])
    have hnf : front.length + 1 = n := by
      by_contra hne
      exact hlater (hw.short (by omega))
    exact hnd (by rw [← hfull', hnf]; exact Nat.dvd_add hdvd (Nat.dvd_refl n))

theorem batchEnd_page (later : List KeyValue) (ha : a.Plain n) (he : a.readerE2big = false)
    (hw : Whole n kvps later) (hsplit : kvps = front ++ [kv])
    (hall : ∀ x ∈ front ++ [kv], Matches a x)
    (hopen : Open a.maxKeys (a.objectList.objectList.length + front.length + 1)) :
    (∃ a', finishBatch n a kvps { (a.firstBatch kvps).list (front ++ [kv]) with
        lastKey := kv.1, length := 0 } = .respond a' ∧
      PageResult n a (kvps ++ later) a'.objectList) ∨
    (∃ a', finishBatch n a kvps { (a.firstBatch kvps).list (front ++ [kv]) with
        lastKey := kv.1, length := 0 } =
          .launch a' { key := kv.1, count := n, inclusive := false } ∧
      kvps.length = n ∧ a'.Plain n ∧ a'.requestPrefix = a.requestPrefix ∧
      a'.maxKeys = a.maxKeys ∧
      a'.objectList.objectList = a.objectList.objectList ++ kvps.map Prod.fst) := by
  set b : Batch := { (a.firstBatch kvps).list (front ++ [kv]) with
    lastKey := kv.1, length := 0 } with hb
  have hlen : kvps.length = front.length + 1 := by rw [hsplit]; simp
  have hobjs : b.objectList.objectList = a.objectList.objectList ++ kvps.map Prod.fst := by
    rw [hsplit]; rfl
  have hopenb : Open a.maxKeys b.objectList.objectList.length := by
    rw [hobjs, length_append, length_map, hlen]
    exact hopen
  have hcount : b.objectList.resultCount ≠ a.maxKeys := resultCount_ne ha.noPrefixes hopenb
  have hrecord := ha.count
  by_cases hshort : kvps.length < n
  · refine Or.inl ?_
    obtain ⟨a', hfin, hlist, htrunc⟩ := finishBatch_short kvps (n := n) (b := b) rfl
      hcount (Or.inl (by rw [hrecord]; exact hshort))
    refine ⟨a', hfin, ?_⟩
    rw [hw.short hshort]
    refine .ended kvps [] rfl (fun x hx => hall x (hsplit ▸ hx)) (by simp) ?_ ?_ ?_
    · rw [hlen]
      exact hopen
    · rw [hlist, hobjs]
    · rw [htrunc]
      exact ha.notTruncated
  · refine Or.inr ?_
    obtain ⟨a', hfin, ha', hp, hk, hlist⟩ := finishBatch_more kvps (n := n) (b := b)
      ha he ⟨ha.noPrefixes, rfl, rfl, rfl⟩ ha.notTruncated hcount (by omega)
    have hle := hw.le
    exact ⟨a', hfin, by omega, ha', hp, hk, by rw [hlist, hobjs]⟩

theorem past_page (later : List KeyValue) (ha : a.Plain n) (hsplit : kvps = front ++ kv :: rest)
    (hall : ∀ x ∈ front, Matches a x) (hkv : ¬ Matches a kv)
    (hopen : Open a.maxKeys (a.objectList.objectList.length + front.length)) :
    ∃ a', finishBatch n a kvps { (a.firstBatch kvps).list front with
        skipNoFurtherPrefixMatch := true, length := 0 } = .respond a' ∧
      PageResult n a (kvps ++ later) a'.objectList := by
  set b : Batch := { (a.firstBatch kvps).list front with
    skipNoFurtherPrefixMatch := true, length := 0 } with hb
  have hcount : b.objectList.resultCount ≠ a.maxKeys := by
    refine resultCount_ne ha.noPrefixes ?_
    have hlen : b.objectList.objectList.length =
        a.objectList.objectList.length + front.length := by
      simp [hb, Batch.list, firstBatch]
    rw [hlen]
    exact hopen
  obtain ⟨a', hfin, hlist, htrunc⟩ := finishBatch_short kvps (n := n) (b := b) rfl
    hcount (Or.inr rfl)
  refine ⟨a', hfin, ?_⟩
  refine .ended front (kv :: rest ++ later) (by rw [hsplit]; simp) hall ?_ hopen hlist ?_
  · intro x hx
    have : x = kv := by simpa using hx.symm
    rw [this]
    exact hkv
  · rw [htrunc]
    exact ha.notTruncated

variable {index : List KeyValue}

/-- **A page is full or complete, and truncated as its last batch tells.**  `rem` is what lay
before the reader when it launched the NEXT. -/
theorem serve_page (fromJson : Bytes → Option Bytes) (hs : Sorted index) (hn : 0 < n) :
    ∀ (fuel : Nat) (a : S3GetBucketAction) (req : NextRequest) (rem : List KeyValue) (k : Nat),
      rem.length < fuel → a.Plain n → rem <:+ index →
      next index req.key req.count req.inclusive = rem.take n →
      (∀ kv ∈ rem, Readable fromJson a.requestPrefix kv) →
      n ∣ a.objectList.objectList.length → Open a.maxKeys a.objectList.objectList.length →
      ∃ a', serve n fromJson (fun _ => nextKeyval index) fuel k (.launch a req) = some a' ∧
        PageResult n a rem a'.objectList := by
  intro fuel
  induction fuel with
  | zero => intro a req rem k hfuel; omega
  | succ fuel ih =>
    intro a req rem k hfuel ha hsuffix hnext hread hdvd hopen
    by_cases hrem : rem = []
    · -- the NEXT finds nothing, and the reader reports a missing key
      subst hrem
      have hmissing := nextKeyval_missing (hnext.trans take_nil)
      refine ⟨{ a with
          readerE2big := false
          stateStartCheckAnyMoreKeys := false
          fetchSuccessful := true
          objectList := { a.objectList with keyCount := a.keyCount } },
        by simp [serve, hmissing, onNextKeyval, getNextObjectsFailed], ?_⟩
      exact .ended [] [] rfl (by simp) (by simp) (by simpa using hopen) (by simp)
        ha.notTruncated
    obtain ⟨kvps, later, hsplit, hw, hne, hpresent⟩ := nextKeyval_batch hn hnext hrem
    simp only [serve, hpresent, onNextKeyval]
    rw [getNextObjectsSuccessful_eq ha, hsplit]
    have ha' := entered_plain ha kvps
    have hvisited := visitAll_visited fromJson (a := a.entered kvps) ha.delimiter
      kvps ((a.entered kvps).firstBatch kvps) hne (firstBatch_plain ha' kvps) rfl hopen
      (fun kv hkv => hread kv (by rw [hsplit]; exact mem_append_left _ hkv))
    generalize visitAll fromJson (a.entered kvps) ((a.entered kvps).firstBatch kvps) kvps = b
      at hvisited
    -- a page of the entered action is a page of the action itself
    have hback : ∀ {r}, PageResult n (a.entered kvps) (kvps ++ later) r →
        PageResult n a (kvps ++ later) r := by
      intro r h
      exact h.prepend [] (show (a.entered kvps).requestPrefix = a.requestPrefix from rfl) rfl
        (by simp) (by simp [entered])
    cases hvisited with
    | full front kv rest hks hall hm hfull =>
      obtain ⟨a', hfin, hres⟩ := full_page later ha' hw hdvd hks hall hm hfull
      rw [hfin]
      exact ⟨a', by simp [serve], hback hres⟩
    | past front kv rest hks hall hkv hopen' =>
      obtain ⟨a', hfin, hres⟩ := past_page later ha' hks hall hkv hopen'
      rw [hfin]
      exact ⟨a', by simp [serve], hback hres⟩
    | batchEnd front kv hks hall hopen' =>
      rcases batchEnd_page later ha' rfl hw hks hall hopen' with
        ⟨a', hfin, hres⟩ | ⟨a', hfin, hlen, hplain, hp, hk, hlist⟩
      · rw [hfin]
        exact ⟨a', by simp [serve], hback hres⟩
      · rw [hfin]
        have hafter : after index kv.1 = later := by
          refine after_of_split front hs ?_
          have hwhole : front ++ kv :: later = rem := by rw [hsplit, hks]; simp
          rw [hwhole]
          exact hsuffix
        have hcount : a'.objectList.objectList.length =
            a.objectList.objectList.length + n := by
          rw [hlist, length_append, length_map, hlen]
          rfl
        obtain ⟨a'', hserve, hresult⟩ := ih a'
          { key := kv.1, count := n, inclusive := false } later (k + 1)
          (by rw [hsplit, length_append] at hfuel; omega) hplain
          ((suffix_append kvps later).trans (hsplit ▸ hsuffix))
          (by simp only [next, Bool.false_eq_true, if_false]
              rw [hafter])
          (by intro x hx
              rw [hp]
              exact hread x (by rw [hsplit]; exact mem_append_right _ hx))
          (by rw [hcount]
              exact Nat.dvd_add hdvd (Nat.dvd_refl n))
          (by rw [hk]
              intro hm
              have := hopen' hm
              rw [hks, length_append, length_singleton] at hlen
              have hobj : ((a.entered kvps).firstBatch kvps).objectList.objectList.length =
                a.objectList.objectList.length := rfl
              omega)
        refine ⟨a'', hserve, ?_⟩
        exact PageResult.prepend kvps hp hk (fun x hx => hall x (hks ▸ hx)) hlist hresult

/-! ### The pages of a listing -/

/-- What a request lies before: at the prefix when it has no marker, else behind the marker. -/
def start (index : List KeyValue) (pfx marker : Bytes) : List KeyValue :=
  if pfx ≠ [] ∧ marker = [] then OrderedIndex.atOrAfter index pfx
  else OrderedIndex.after index marker

theorem start_suffix (hs : Sorted index) (pfx marker : Bytes) :
    start index pfx marker <:+ index := by
  unfold start
  split
  · exact atOrAfter_suffix hs pfx
  · exact after_suffix hs marker

/-- The action at the start of a request, as far as its pages depend on it. -/
abbrev fresh (pfx : Bytes) (maxKeys : Nat) : S3GetBucketAction :=
  validateRequest pfx [] [] maxKeys

/-- The first NEXT of a request asks for the batch it lies before. -/
theorem getNextObjects_start (pfx marker : Bytes) (hm : 0 < m) :
    ∃ a req, getNextObjects n (validateRequest pfx [] marker m) = .launch a req ∧
      a.Plain n ∧ a.requestPrefix = pfx ∧ a.maxKeys = m ∧ a.objectList.objectList = [] ∧
      ∀ index : List KeyValue,
        next index req.key req.count req.inclusive =
          (start index pfx marker).take n := by
  have hm0 : m ≠ 0 := Nat.ne_of_gt hm
  unfold getNextObjects
  by_cases hc : pfx ≠ [] ∧ marker = []
  · refine ⟨{ validateRequest pfx [] marker m with
        maxRecordCount := n, firstNextKeyvalCall := false, lastKey := pfx },
      { key := pfx, count := n, inclusive := true },
      by simp [validateRequest, hm0, hc], ?_, rfl, rfl, rfl, ?_⟩
    · exact ⟨rfl, hm0, rfl, rfl, rfl, rfl, rfl, by simp⟩
    · intro index
      simp only [next, if_true, start]
      rw [if_pos hc]
  · refine ⟨{ validateRequest pfx [] marker m with maxRecordCount := n },
      { key := marker, count := n, inclusive := false }, ?_, ?_, rfl, rfl, rfl, ?_⟩
    · have hc' : pfx ≠ [] → marker ≠ [] := fun hp hnil => hc ⟨hp, hnil⟩
      by_cases hp : pfx = []
      · simp [validateRequest, hm0, hp]
      · simp [validateRequest, hm0, hp, hc' hp]
    · exact ⟨rfl, hm0, rfl, rfl, rfl, rfl, rfl, fun h => hc ⟨h.1, h.2.1⟩⟩
    · intro index
      simp only [next, Bool.false_eq_true, if_false, start]
      rw [if_neg hc]

variable {pfx : Bytes}

theorem start_behind {marker : Bytes} (hmarker : marker = [] ∨ pfx ≤ marker) :
    ∀ kv ∈ start index pfx marker, pfx ≤ kv.1 := by
  intro kv hkv
  unfold start at hkv
  by_cases hc : pfx ≠ [] ∧ marker = []
  · rw [if_pos hc] at hkv
    simpa using (mem_filter.mp hkv).2
  · rw [if_neg hc] at hkv
    have hlt : marker < kv.1 := by simpa using (mem_filter.mp hkv).2
    by_cases hp : pfx = []
    · rw [hp]
      exact nil_le _
    · rcases hmarker with hnil | hle
      · exact absurd ⟨hp, hnil⟩ hc
      · exact le_of_lt (lt_of_le_of_lt hle hlt)

variable {fuel : Nat}

theorem listObjects_page (hs : Sorted index) (hn : 0 < n) {marker : Bytes} (hm : 0 < m)
    (hfuel : index.length < fuel) (hparse : ∀ kv ∈ index, fromJson kv.2 = some kv.1)
    (hmarker : marker = [] ∨ pfx ≤ marker) :
    ∃ r, listObjects n fromJson (fun _ => nextKeyval index) fuel pfx [] marker m = some r ∧
      PageResult n (fresh pfx m) (start index pfx marker) r := by
  have hsuffix := start_suffix hs pfx marker
  obtain ⟨a, req, hlaunch, ha, hp, hk, hempty, hnext⟩ :=
    getNextObjects_start (n := n) pfx marker hm
  have hread : ∀ kv ∈ start index pfx marker, Readable fromJson a.requestPrefix kv := by
    intro kv hkv
    rw [hp]
    exact ⟨start_behind hmarker kv hkv, hparse kv (hsuffix.subset hkv)⟩
  obtain ⟨a', hserve, hres⟩ := serve_page fromJson hs hn fuel a req
    (start index pfx marker) 0 (Nat.lt_of_le_of_lt hsuffix.length_le hfuel) ha hsuffix
    (hnext index) hread (by rw [hempty]; exact Nat.dvd_zero n)
    (by rw [hempty, hk]; exact fun _ => hm)
  refine ⟨a'.objectList, ?_, ?_⟩
  · unfold listObjects
    rw [hlaunch, hserve]
    rfl
  · exact PageResult.prepend [] hp hk (by simp) (by rw [hempty]; rfl) hres

/-- The pages a client gets when `rem` lies before its first request. -/
inductive Pages (n m : Nat) (pfx : Bytes) : List KeyValue → List S3ObjectListResponse → Prop where
  | last {rem : List KeyValue} {r : S3ObjectListResponse}
      (hres : PageResult n (fresh pfx m) rem r) (ht : r.responseIsTruncated = false) :
      Pages n m pfx rem [r]
  | more {front rest : List KeyValue} {kv : KeyValue} {r : S3ObjectListResponse}
      {ps : List S3ObjectListResponse}
      (hall : ∀ x ∈ front ++ [kv], pfx.isPrefixOf x.1 = true) (hm : m < 2 ^ 32)
      (hfull : front.length + 1 = m) (hlist : r.objectList = (front ++ [kv]).map Prod.fst)
      (ht : r.responseIsTruncated = true) (hnd : ¬ n ∣ m) (hrest : rest ≠ [])
      (htail : Pages n m pfx rest ps) : Pages n m pfx (front ++ kv :: rest) (r :: ps)

/-- **Every listing ends, and its pages cut what lay before it.** -/
theorem listPages_pages (hs : Sorted index) (hn : 0 < n) (hm : 0 < m)
    (hfuel : index.length < fuel) (hparse : ∀ kv ∈ index, fromJson kv.2 = some kv.1) :
    ∀ (pages : Nat) (marker : Bytes), (start index pfx marker).length < pages →
      (marker = [] ∨ pfx ≤ marker) →
      ∃ ps, listPages n fromJson (fun _ => nextKeyval index) fuel pfx [] m pages marker = some ps ∧
        Pages n m pfx (start index pfx marker) ps := by
  intro pages
  induction pages with
  | zero => intro marker hlen; omega
  | succ pages ih =>
    intro marker hlen hmarker
    obtain ⟨r, hr, hres⟩ := listObjects_page hs hn hm hfuel hparse hmarker
    unfold listPages
    rw [hr]
    by_cases ht : r.responseIsTruncated = true
    · simp only [ht, if_true]
      cases hres with
      | ended _ _ _ _ _ _ _ hnot => exact absurd ht (by simp [hnot])
      | full front kv rest hsplit hall hm' hfull hlist htrunc hnext =>
        have hkv : pfx.isPrefixOf kv.1 = true := hall kv (by simp)
        have hle : pfx ≤ kv.1 :=
          le_of_prefix (List.isPrefixOf_iff_prefix.mp hkv)
        have hafter : after index kv.1 = rest := by
          refine after_of_split front hs ?_
          rw [← hsplit]
          exact start_suffix hs pfx marker
        -- the marker is the last key of the page, and the next request starts behind it
        have hstart : start index pfx kv.1 = rest := by
          unfold start
          rw [if_neg, hafter]
          rintro ⟨hp, hnil⟩
          rw [hnil] at hkv
          exact hp (prefix_nil.mp (List.isPrefixOf_iff_prefix.mp hkv))
        obtain ⟨ps, hps, htail⟩ := ih kv.1
          (by rw [hstart]; rw [hsplit, length_append, length_cons] at hlen; omega)
          (Or.inr hle)
        rw [hnext ht, hps]
        refine ⟨r :: ps, rfl, ?_⟩
        rw [hstart] at htail
        obtain ⟨hnd, hrest⟩ := htrunc.mp ht
        rw [hsplit]
        refine .more hall hm' ?_ (by simpa [validateRequest] using hlist) ht hnd hrest htail
        simpa [validateRequest] using hfull
    · have ht' : r.responseIsTruncated = false := by simpa using ht
      simp only [ht', Bool.false_eq_true, if_false]
      exact ⟨[r], rfl, .last hres ht'⟩

/-! ### When the pages are right -/

/-- The keys of an index that have the prefix. -/
def keysWithPrefix (pfx : Bytes) (index : List KeyValue) : List Bytes :=
  (index.filter fun kv => pfx.isPrefixOf kv.1).map Prod.fst

/-- What a listing of `keys` in pages of `maxKeys` ought to be. -/
structure Exact (maxKeys : Nat) (keys : List Bytes) (ps : List S3ObjectListResponse) : Prop where
  /-- Every key once and in order, and no other. -/
  complete : (ps.flatMap fun r => r.objectList) = keys
  bounded : ∀ r ∈ ps, r.objectList.length ≤ maxKeys
  /-- `IsTruncated` is false exactly on the page after which no key is left. -/
  truncated : ∀ before r after, ps = before ++ r :: after →
    (r.responseIsTruncated = false ↔
      ((before ++ [r]).flatMap fun r => r.objectList) = keys)

theorem Exact.single (hlen : r.objectList.length ≤ m) (ht : r.responseIsTruncated = false) :
    Exact m r.objectList [r] := by
  refine ⟨by simp, by simpa using hlen, ?_⟩
  intro before x after hsplit
  have hnil : before = [] := by
    cases before with
    | nil => rfl
    | cons y ys => simp at hsplit
  subst hnil
  have hx : x = r := by simp at hsplit; exact hsplit.1.symm
  simp [hx, ht]

variable {ps : List S3ObjectListResponse}

theorem Exact.cons_iff {keys : List Bytes} (hlen : r.objectList.length ≤ m)
    (ht : r.responseIsTruncated = true) (hkeys : keys ≠ []) :
    Exact m (r.objectList ++ keys) (r :: ps) ↔ Exact m keys ps := by
  constructor
  · intro h
    refine ⟨?_, fun x hx => h.bounded x (by simp [hx]), ?_⟩
    · have := h.complete
      rw [flatMap_cons] at this
      exact append_cancel_left this
    · intro before x after hsplit
      have := h.truncated (r :: before) x after (by rw [hsplit, cons_append])
      rw [cons_append, flatMap_cons, append_cancel_left_eq] at this
      exact this
  · intro h
    refine ⟨by rw [flatMap_cons, h.complete], ?_, ?_⟩
    · intro x hx
      rcases mem_cons.mp hx with hx | hx
      · rw [hx]; exact hlen
      · exact h.bounded x hx
    · intro before x after hsplit
      cases before with
      | nil =>
        have hx : x = r := by simp at hsplit; exact hsplit.1.symm
        simp [hx, ht, hkeys]
      | cons y ys =>
        rw [cons_append, List.cons.injEq] at hsplit
        obtain ⟨hy, hps⟩ := hsplit
        subst hy
        rw [cons_append, flatMap_cons, append_cancel_left_eq]
        exact h.truncated ys x after hps

/-- The keys a listing that lies before `rem` ought to give. -/
def matching (pfx : Bytes) (rem : List KeyValue) : List Bytes :=
  (rem.takeWhile fun kv => pfx.isPrefixOf kv.1).map Prod.fst

theorem matching_append (hall : ∀ x ∈ front, pfx.isPrefixOf x.1 = true) :
    matching pfx (front ++ rest) = front.map Prod.fst ++ matching pfx rest := by
  unfold matching
  rw [takeWhile_append_of_pos hall, map_append]

theorem matching_cons (pfx : Bytes) (hall : ∀ x ∈ front ++ [kv], pfx.isPrefixOf x.1 = true) :
    matching pfx (front ++ kv :: rest) = (front ++ [kv]).map Prod.fst ++ matching pfx rest := by
  rw [← matching_append hall]
  simp

theorem matching_ended (pfx : Bytes) (hall : ∀ x ∈ front, pfx.isPrefixOf x.1 = true)
    (hend : ∀ kv ∈ rest.head?, ¬ pfx.isPrefixOf kv.1 = true) :
    matching pfx (front ++ rest) = front.map Prod.fst := by
  rw [matching_append hall]
  have hnil : matching pfx rest = [] := by
    cases rest with
    | nil => rfl
    | cons kv tail =>
      unfold matching
      rw [takeWhile_cons_of_neg (by simpa using hend kv (by simp)), map_nil]
  rw [hnil, append_nil]

/-- How the number of matching keys, the size of a page and the size of a batch have to line
up when `rem` lies before the first request. -/
def Fits (n m : Nat) (pfx : Bytes) (rem : List KeyValue) : Prop :=
  if n ∣ m ∨ 2 ^ 32 ≤ m then (matching pfx rem).length ≤ m
  else 0 < (matching pfx rem).length → m ∣ (matching pfx rem).length →
    rem.length = (matching pfx rem).length

theorem exact_last_iff (hres : PageResult n (fresh pfx m) rem r)
    (ht : r.responseIsTruncated = false) : Exact m (matching pfx rem) [r] ↔ Fits n m pfx rem := by
  cases hres with
  | full front kv rest hsplit hall hm' hfull hlist htrunc _ =>
    have hobj : r.objectList = (front ++ [kv]).map Prod.fst := by
      simpa [validateRequest] using hlist
    have hmat : matching pfx rem = r.objectList ++ matching pfx rest := by
      rw [hsplit, matching_cons pfx hall, hobj]
    have hsize : r.objectList.length = m := by
      have : front.length + 1 = m := by simpa [validateRequest] using hfull
      rw [hobj, length_map, length_append, length_singleton]
      exact this
    have hnot : ¬ (¬ n ∣ m ∧ rest ≠ []) := by
      intro h
      exact absurd (htrunc.mpr h) (by simp [ht])
    by_cases hd : n ∣ m
    · -- the page is the only one, so it has to hold everything
      unfold Fits
      rw [if_pos (Or.inl hd), hmat, length_append, hsize]
      constructor
      · intro h
        have := congrArg List.length h.complete
        simp only [flatMap_cons, flatMap_nil, append_nil, length_append] at this
        omega
      · intro h
        have hnil : matching pfx rest = [] := eq_nil_of_length_eq_zero (by omega)
        rw [hnil, append_nil]
        exact Exact.single (Nat.le_of_eq hsize) ht
    · have hrest : rest = [] := by
        by_contra h
        exact hnot ⟨hd, h⟩
      have hnil : matching pfx rest = [] := by rw [hrest]; rfl
      rw [hmat, hnil, append_nil]
      refine ⟨fun _ => ?_, fun _ => Exact.single (Nat.le_of_eq hsize) ht⟩
      unfold Fits
      rw [if_neg (by
        rintro (h | h)
        · exact hd h
        · exact absurd hm' (Nat.not_lt.mpr h))]
      intro _ _
      rw [hmat, hnil, append_nil, hobj, hsplit, hrest]
      simp
  | ended front rest hsplit hall hend hopen hlist _ =>
    have hobj : r.objectList = front.map Prod.fst := by simpa [validateRequest] using hlist
    have hmat : matching pfx rem = r.objectList := by
      rw [hsplit, matching_ended pfx hall hend, hobj]
    have hlen : r.objectList.length = front.length := by rw [hobj, length_map]
    have hopen' : m < 2 ^ 32 → front.length < m := by simpa [Open, validateRequest] using hopen
    rw [hmat]
    unfold Fits
    rw [hmat, hlen]
    by_cases hbig : 2 ^ 32 ≤ m
    · rw [if_pos (Or.inr hbig)]
      constructor
      · intro h
        rw [← hlen]
        exact h.bounded r (by simp)
      · intro h
        exact Exact.single (by omega) ht
    · have hlt := hopen' (Nat.lt_of_not_le hbig)
      refine ⟨fun _ => ?_, fun _ => Exact.single (by omega) ht⟩
      split
      · omega
      · intro hpos hdvd
        exact absurd (Nat.le_of_dvd hpos hdvd) (by omega)

/-- **The pages are right exactly when the three numbers line up.** -/
theorem pages_exact_iff (hm : 0 < m) (h : Pages n m pfx rem ps) :
    Exact m (matching pfx rem) ps ↔ Fits n m pfx rem := by
  induction h with
  | last hres ht => exact exact_last_iff hres ht
  | @more front rest kv r ps hall hm' hfull hlist ht hnd hrest htail ih =>
    have hmat : matching pfx (front ++ kv :: rest) = r.objectList ++ matching pfx rest := by
      rw [matching_cons pfx hall, hlist]
    have hsize : r.objectList.length = m := by
      rw [hlist, length_map, length_append, length_singleton]
      exact hfull
    have hcond : ¬ (n ∣ m ∨ 2 ^ 32 ≤ m) := by
      rintro (h | h)
      · exact hnd h
      · exact absurd hm' (Nat.not_lt.mpr h)
    have hwhole : Fits n m pfx (front ++ kv :: rest) ↔
        (m ∣ (matching pfx rest).length → rest.length = (matching pfx rest).length) := by
      unfold Fits
      rw [if_neg hcond, hmat, length_append, hsize]
      have hsum : (front ++ kv :: rest).length = m + rest.length := by
        rw [length_append, length_cons]; omega
      rw [hsum, Nat.dvd_add_right (Nat.dvd_refl m)]
      constructor
      · intro h hd
        have := h (by omega) hd
        omega
      · intro h _ hd
        have := h hd
        omega
    rw [hmat, hwhole]
    by_cases hnil : matching pfx rest = []
    · -- no key is left, and yet the page is truncated
      rw [hnil, append_nil]
      constructor
      · intro hex
        have := (hex.truncated [] r ps rfl).mpr (by simp)
        rw [ht] at this
        cases this
      · intro h
        have := h (by simp)
        exact absurd (eq_nil_of_length_eq_zero (by simpa using this)) hrest
    · rw [Exact.cons_iff (Nat.le_of_eq hsize) ht hnil, ih]
      unfold Fits
      rw [if_neg hcond]
      have hpos : 0 < (matching pfx rest).length := length_pos_of_ne_nil hnil
      exact ⟨fun h hd => h hpos hd, fun h _ hd => h hd⟩

theorem pages_subset (h : Pages n m pfx rem ps) :
    ∀ key ∈ ps.flatMap (fun r => r.objectList), key ∈ rem.map Prod.fst := by
  induction h with
  | @last rem r hres _ =>
    intro key hkey
    rw [flatMap_cons, flatMap_nil, append_nil] at hkey
    cases hres with
    | full front kv rest hsplit _ _ _ hlist _ _ =>
      rw [hlist] at hkey
      rw [hsplit]
      simp [validateRequest] at hkey ⊢
      rcases hkey with ⟨v, hv⟩ | rfl
      · exact Or.inl ⟨v, hv⟩
      · exact Or.inr (Or.inl rfl)
    | ended front rest hsplit _ _ _ hlist _ =>
      rw [hlist] at hkey
      rw [hsplit]
      simp [validateRequest] at hkey ⊢
      obtain ⟨v, hv⟩ := hkey
      exact Or.inl ⟨v, hv⟩
  | @more front rest kv r ps _ _ _ hlist _ _ _ _ ih =>
    intro key hkey
    rw [flatMap_cons] at hkey
    rcases mem_append.mp hkey with hkey | hkey
    · rw [hlist, map_append] at hkey
      rw [map_append, map_cons]
      rcases mem_append.mp hkey with hkey | hkey
      · exact mem_append_left _ hkey
      · simp at hkey
        simp [hkey]
    · rw [map_append, map_cons]
      exact mem_append_right _ (mem_cons_of_mem _ (ih key hkey))

/-! ### The listing -/

/-- A client that pages through the listing of `pfx` gets what it ought to get.  Some fuel is
enough, and with more the answer is the same. -/
def Paginates (n : Nat) (fromJson : Bytes → Option Bytes) (index : List KeyValue) (pfx : Bytes)
    (maxKeys : Nat) : Prop :=
  ∃ enough, ∀ fuel, enough ≤ fuel →
    ∃ ps, listPages n fromJson (fun _ => nextKeyval index) fuel pfx [] maxKeys fuel [] = some ps ∧
      Exact maxKeys (keysWithPrefix pfx index) ps

/-- When it does.  Without a prefix the first NEXT starts behind the empty key, so that key is
not listed. -/
structure Aligned (n : Nat) (index : List KeyValue) (pfx : Bytes) (maxKeys : Nat) : Prop where
  named : pfx = [] → ∀ kv ∈ index, kv.1 ≠ []
  onePage : n ∣ maxKeys ∨ 2 ^ 32 ≤ maxKeys → (keysWithPrefix pfx index).length ≤ maxKeys
  lastPage : ¬ (n ∣ maxKeys ∨ 2 ^ 32 ≤ maxKeys) → keysWithPrefix pfx index ≠ [] →
    maxKeys ∣ (keysWithPrefix pfx index).length →
    ∀ kv ∈ index, pfx ≤ kv.1 → pfx.isPrefixOf kv.1 = true

theorem after_nil_eq_self (h : ∀ kv ∈ index, kv.1 ≠ []) : after index [] = index := by
  unfold after
  rw [filter_eq_self]
  intro kv hkv
  have hne : kv.1 ≠ [] := h kv hkv
  obtain ⟨c, cs, hcs⟩ := exists_cons_of_ne_nil hne
  rw [hcs]
  simp

theorem isPrefixOf_nil (b : Bytes) : ([] : Bytes).isPrefixOf b = true := rfl

theorem matching_start (hs : Sorted index) (hnamed : pfx = [] → ∀ kv ∈ index, kv.1 ≠ []) :
    matching pfx (start index pfx []) = keysWithPrefix pfx index := by
  unfold matching keysWithPrefix start
  by_cases hp : pfx = []
  · subst hp
    rw [if_neg (by simp), after_nil_eq_self (hnamed rfl)]
    simp only [isPrefixOf_nil]
    rw [takeWhile_eq_self_iff.mpr (by simp), filter_eq_self.mpr (by simp)]
  · rw [if_pos ⟨hp, rfl⟩, filter_prefix_eq_takeWhile hs]

/-- The keys with the prefix are all a request lies before, exactly when no other key of the
index lies behind the prefix. -/
theorem start_length_iff (hnamed : pfx = [] → ∀ kv ∈ index, kv.1 ≠ []) :
    (start index pfx []).length = (matching pfx (start index pfx [])).length ↔
      ∀ kv ∈ index, pfx ≤ kv.1 → pfx.isPrefixOf kv.1 = true := by
  have hall : (start index pfx []).length = (matching pfx (start index pfx [])).length ↔
      ∀ kv ∈ start index pfx [], pfx.isPrefixOf kv.1 = true := by
    unfold matching
    rw [length_map, eq_comm]
    rw [(takeWhile_sublist _).length_eq, takeWhile_eq_self_iff]
  rw [hall]
  unfold start
  by_cases hp : pfx = []
  · subst hp
    rw [if_neg (by simp), after_nil_eq_self (hnamed rfl)]
    exact ⟨fun h kv hkv _ => h kv hkv, fun h kv hkv => h kv hkv (nil_le _)⟩
  · rw [if_pos ⟨hp, rfl⟩]
    unfold atOrAfter
    constructor
    · intro h kv hkv hle
      exact h kv (mem_filter.mpr ⟨hkv, by simpa using hle⟩)
    · intro h kv hkv
      obtain ⟨hmem, hle⟩ := mem_filter.mp hkv
      exact h kv hmem (by simpa using hle)

theorem fits_start_iff (hs : Sorted index) (hnamed : pfx = [] → ∀ kv ∈ index, kv.1 ≠ []) :
    Fits n m pfx (start index pfx []) ↔ Aligned n index pfx m := by
  have hmat := matching_start hs hnamed
  have hlen := start_length_iff hnamed
  unfold Fits
  rw [hlen, hmat]
  by_cases hc : n ∣ m ∨ 2 ^ 32 ≤ m
  · rw [if_pos hc]
    exact ⟨fun h => ⟨hnamed, fun _ => h, fun h' => absurd hc h'⟩, fun h => h.onePage hc⟩
  · rw [if_neg hc]
    constructor
    · intro h
      exact ⟨hnamed, fun h' => absurd h' hc, fun _ hne => h (length_pos_of_ne_nil hne)⟩
    · intro h hpos
      exact h.lastPage hc (ne_nil_of_length_pos hpos)

theorem listPages_start (pfx : Bytes) (hs : Sorted index) (hn : 0 < n) (hm : 0 < m)
    (hparse : ∀ kv ∈ index, fromJson kv.2 = some kv.1) (hfuel : index.length < fuel) :
    ∃ ps, listPages n fromJson (fun _ => nextKeyval index) fuel pfx [] m fuel [] = some ps ∧
      Pages n m pfx (start index pfx []) ps := by
  refine listPages_pages hs hn hm hfuel hparse fuel [] ?_ (Or.inl rfl)
  exact Nat.lt_of_le_of_lt (start_suffix hs pfx []).length_le hfuel

theorem paginates_of_aligned (hs : Sorted index) (hn : 0 < n) (hm : 0 < m)
    (hparse : ∀ kv ∈ index, fromJson kv.2 = some kv.1) (h : Aligned n index pfx m) :
    Paginates n fromJson index pfx m := by
  refine ⟨index.length + 1, fun fuel hfuel => ?_⟩
  obtain ⟨ps, hps, hpages⟩ := listPages_start pfx hs hn hm hparse hfuel
  refine ⟨ps, hps, ?_⟩
  rw [← matching_start hs h.named]
  exact (pages_exact_iff hm hpages).mpr ((fits_start_iff hs h.named).mpr h)

theorem aligned_of_paginates (hs : Sorted index) (hn : 0 < n) (hm : 0 < m)
    (hparse : ∀ kv ∈ index, fromJson kv.2 = some kv.1) (h : Paginates n fromJson index pfx m) :
    Aligned n index pfx m := by
  obtain ⟨enough, henough⟩ := h
  obtain ⟨ps, hps, hexact⟩ := henough (max enough (index.length + 1)) (Nat.le_max_left _ _)
  obtain ⟨ps', hps', hpages⟩ := listPages_start pfx hs hn hm hparse
    (Nat.lt_of_lt_of_le (Nat.lt_succ_self index.length) (Nat.le_max_right enough _))
  have hsame : ps' = ps := by rw [hps] at hps'; exact (Option.some.inj hps').symm
  subst hsame
  have hnamed : pfx = [] → ∀ kv ∈ index, kv.1 ≠ [] := by
    intro hp kv hkv hnil
    -- the empty key has the prefix, but no page can hold it
    have hmem : kv.1 ∈ keysWithPrefix pfx index := by
      refine mem_map_of_mem (mem_filter.mpr ⟨hkv, ?_⟩)
      rw [hp]
      rfl
    rw [← hexact.complete] at hmem
    obtain ⟨x, hx, hxk⟩ := mem_map.mp (pages_subset hpages kv.1 hmem)
    unfold start at hx
    rw [if_neg (by simp [hp])] at hx
    have hlt : [] < x.1 := by simpa using (mem_filter.mp hx).2
    rw [hxk, hnil] at hlt
    exact absurd hlt (lt_irrefl _)
  refine (fits_start_iff hs hnamed).mp ((pages_exact_iff hm hpages).mp ?_)
  rw [matching_start hs hnamed]
  exact hexact

/-- **Paging loses and repeats nothing exactly when keys, pages and batches line up.** -/
theorem listPages_exact_iff {index : List KeyValue} (hs : OrderedIndex.Sorted index)
    (hparse : ∀ kv ∈ index, fromJson kv.2 = some kv.1) (pfx : Bytes) {maxKeys : Nat}
    (hm : 1 ≤ maxKeys) (hn : 1 ≤ n) :
    Paginates n fromJson index pfx maxKeys ↔ Aligned n index pfx maxKeys :=
  ⟨aligned_of_paginates hs hn hm hparse, paginates_of_aligned hs hn hm hparse⟩

/-- The keys `a`, `b` and `c`. -/
def threeKeys : List KeyValue :=
  [(ascii "a", ascii "a"), (ascii "b", ascii "b"), (ascii "c", ascii "c")]

/-- In pages of two and batches of three the three keys are listed. -/
theorem listPages_exact_iff_threeKeys :
    (1 ≤ 2 ∧ 1 ≤ 3 ∧ Aligned 3 threeKeys [] 2) ∧ Paginates 3 some threeKeys [] 2 := by
  have ha : Aligned 3 threeKeys [] 2 := by
    refine ⟨by decide, ?_, fun _ _ h => absurd h (by decide)⟩
    rintro (h | h)
    · exact absurd h (by decide)
    · exact absurd h (by decide)
  exact ⟨⟨by decide, by decide, ha⟩,
    (listPages_exact_iff (by decide) (by decide) [] (by decide) (by decide)).mpr ha⟩

/-- In pages of two and batches of two the third key is lost. -/
theorem not_paginates_threeKeys : ¬ Paginates 2 some threeKeys [] 2 := by
  intro h
  have ha := aligned_of_paginates (by decide) (by decide) (by decide) (by decide) h
  exact absurd (ha.onePage (Or.inl (by decide))) (by decide)

end S3GetBucketAction

end CortxS3
