/-
A listing in batches, some of which have to be asked for again.

When a NEXT fails because the batch is too large, the action asks for a smaller one.  So the keys
come in batches of any size.  The loop over a batch does with each key what a listing does that
reads one key at a time (`filterKey_eq`), until a key goes on behind a common prefix with 0xff: then
the keys behind it that contain this common prefix are passed over as well (`Batch.Skips`).
-/
import CortxS3.Proofs.GetBucketReading

namespace CortxS3

open List hiding after next

open OrderedIndex

namespace S3GetBucketAction

open Until

/-! ### One key -/

/-- What the action was asked for. -/
structure Serves (q : Listing) (a : S3GetBucketAction) : Prop where
  pfx : a.requestPrefix = q.pfx
  delimiter : a.requestDelimiter = q.delimiter
  marker : a.requestMarkerKey = q.marker
  maxKeys : a.maxKeys = q.maxKeys

/-- A key is rolled up under a common prefix. -/
def rollTo (a : S3GetBucketAction) (b : Batch) (c : Bytes) : Flow :=
  let b := { b with skipRemainingCommonPrefixes := !b.objectList.isPrefixInCommonPrefix c }
  let b :=
    if c ≠ a.requestMarkerKey then
      { b with
        objectList := b.objectList.addCommonPrefix c
        lastCommonPrefix := c
        lastKeyInCommonPrefix := true }
    else b
  if b.skipRemainingCommonPrefixes then .leave { b with lastKey := c ++ [0xff] } else .fall b

section

variable {q : Listing} {a : S3GetBucketAction} {b : Batch} {kv : KeyValue} {c : Bytes}

/-- **What the loop does with a key is up to the prefix and the delimiter.** -/
theorem filterKey_eq (h : Serves q a) :
    filterKey q.fromJson a b kv =
      if q.pfx.isPrefixOf kv.1 then
        match q.rolledTo kv.1 with
        | some c => rollTo a b c
        | none => listKey q.fromJson b kv.2
      else noPrefixMatch a b kv.1 := by
  rw [← h.pfx]
  unfold Listing.rolledTo
  rw [← h.pfx, ← h.delimiter]
  by_cases hm : a.requestPrefix.isPrefixOf kv.1 = true
  · rw [if_pos hm]
    by_cases hd : a.requestDelimiter = []
    · rw [if_pos hd]
      unfold filterKey
      by_cases hp : a.requestPrefix = []
      · rw [if_pos ⟨hp, hd⟩]
      · rw [if_neg (fun hc => hp hc.1), if_pos ⟨hp, hd⟩, if_pos ((find_eq_zero_iff _ _).mpr hm)]
    · rw [if_neg hd, filterKey_of_matches hd hm]
      unfold cut
      cases delimiterAt a.requestPrefix a.requestDelimiter kv.1 <;> rfl
  · rw [if_neg hm]
    have hp : a.requestPrefix ≠ [] := by
      intro hp
      apply hm
      rw [hp]
      rfl
    have hfind : ¬ find a.requestPrefix kv.1 = some 0 :=
      fun hz => hm ((find_eq_zero_iff _ _).mp hz)
    unfold filterKey
    by_cases hd : a.requestDelimiter = []
    · rw [if_neg (fun hc => hp hc.1), if_pos ⟨hp, hd⟩, if_neg hfind]
    · rw [if_neg (fun hc => hp hc.1), if_neg (fun hc => hd hc.2), if_neg (fun hc => hp hc.1),
        if_neg hfind]

theorem filterKey_idle (h : Serves q a) (hrole : q.role kv = .idle) :
    ∃ e, filterKey q.fromJson a b kv = .fall { b with atleastOneJsonError := e } := by
  rw [filterKey_eq h]
  rcases of_role_idle hrole with ⟨hm, hnone, hparse⟩ | ⟨hm, hlt⟩
  · refine ⟨true, ?_⟩
    simp only [hm, if_true, hnone, listKey, hparse]
  · refine ⟨b.atleastOneJsonError, ?_⟩
    rw [if_neg hm]
    unfold noPrefixMatch
    rw [h.pfx]
    exact if_neg hlt

theorem filterKey_past (h : Serves q a) (hrole : q.role kv = .past) :
    filterKey q.fromJson a b kv =
      .leave { b with skipNoFurtherPrefixMatch := true, length := 0 } := by
  obtain ⟨hm, hlt⟩ := of_role_past hrole
  rw [filterKey_eq h, if_neg hm]
  unfold noPrefixMatch
  rw [h.pfx]
  exact if_pos hlt

theorem filterKey_listed (h : Serves q a) {name : Bytes} (hrole : q.role kv = .listed name) :
    filterKey q.fromJson a b kv = .fall { b with objectList := b.objectList.addObject name } := by
  obtain ⟨hm, hnone, hparse⟩ := of_role_listed hrole
  rw [filterKey_eq h]
  simp only [hm, if_true, hnone, listKey, hparse]

theorem filterKey_rolled (h : Serves q a) (hrole : q.role kv = .rolled c) :
    filterKey q.fromJson a b kv = rollTo a b c := by
  obtain ⟨hm, hsome⟩ := of_role_rolled hrole
  rw [filterKey_eq h]
  simp only [hm, if_true, hsome]

end

/-! ### Between two batches -/

/-- What `send_response_to_s3_client` sends: the listing or an error. -/
def response (a : S3GetBucketAction) : Except String S3ObjectListResponse :=
  match a.error with
  | some code => .error code
  | none => if a.fetchSuccessful then .ok a.objectList else .error "InternalError"

theorem response_eq {a : S3GetBucketAction} {w : S3ObjectListResponse} (herror : a.error = none)
    (hfetch : a.fetchSuccessful = true) (hlist : a.objectList = w) : a.response = .ok w := by
  unfold response
  rw [herror, hfetch, hlist]
  rfl

/-- The action in the middle of a listing. -/
structure Runs (q : Listing) (a : S3GetBucketAction) : Prop where
  serves : Serves q a
  positive : a.maxKeys ≠ 0
  index : a.noIndex = false
  launched : ¬ (a.requestPrefix ≠ [] ∧ a.requestMarkerKey = [] ∧ a.firstNextKeyvalCall = true)
  error : a.error = none

/-- The action waits for a batch of at most `f` keys. -/
structure Awaits (f : Nat) (q : Listing) (s₀ : Reading) (a : S3GetBucketAction)
    (req : NextRequest) (s : Reading) : Prop where
  runs : Runs q a
  listing : a.stateStartCheckAnyMoreKeys = false
  found : a.objectList = s.found
  counted : a.keyCount = s.found.resultCount
  notFull : s.found.resultCount ≠ q.maxKeys
  size : req.count = a.maxRecordCount
  size_pos : 0 < req.count
  size_le : req.count ≤ f
  next : OrderedIndex.next q.index req.key req.count req.inclusive = s.rem.take req.count
  place : At q s₀ s
  /-- Where the action reads again if this NEXT fails. -/
  again : OrderedIndex.after q.index a.lastKey = s.rem ∨
    ∃ kv, s.rem = kv :: OrderedIndex.after q.index a.lastKey ∧ s.rem <:+ q.index ∧
      q.role kv = .idle ∧ q.Comes s₀ ⟨OrderedIndex.after q.index a.lastKey, s.found⟩

/-- The action asks whether any key is left behind the common prefix that has filled the page. -/
structure Asks (f : Nat) (q : Listing) (a : S3GetBucketAction) (req : NextRequest) (c : Bytes)
    (found : S3ObjectListResponse) : Prop where
  runs : Runs q a
  checking : a.stateStartCheckAnyMoreKeys = true
  listed : a.objectList = found
  counted : a.keyCount = found.resultCount
  saved : a.savedLastKey = c
  last : a.lastKey = c ++ [0xff]
  size : req.count = a.maxRecordCount
  size_pos : 0 < req.count
  size_le : req.count ≤ f
  key : req.key = a.lastKey
  exclusive : req.inclusive = false

/-- **What follows a place**: its answer, or another place that comes to the same answer in at
least `d` steps less. -/
inductive Follows (f : Nat) (q : Listing) (s₀ : Reading) (d : Nat) (s : Reading) : Outcome → Prop where
  | responds (a : S3GetBucketAction) (w : S3ObjectListResponse) (hresponse : a.response = .ok w)
      (hanswer : q.Answer s w) : Follows f q s₀ d s (.respond a)
  | launches (a : S3GetBucketAction) (req : NextRequest) (s' : Reading)
      (hawaits : Awaits f q s₀ a req s') (hback : ∀ w, q.Answer s' w → q.Answer s w)
      (hforth : ∀ m w, run q.read m s = some w → ∃ m', m' + d ≤ m ∧ run q.read m' s' = some w) :
      Follows f q s₀ d s (.launch a req)
  | checks (a : S3GetBucketAction) (req : NextRequest) (c : Bytes) (found : S3ObjectListResponse)
      (hasks : Asks f q a req c found) (hanswer : q.Answer s (q.filled c found)) :
      Follows f q s₀ d s (.launch a req)

section

variable {f d : Nat} {q : Listing} {s₀ s s' : Reading} {o : Outcome}

theorem Follows.of_same (hback : ∀ w, q.Answer s' w → q.Answer s w)
    (hforth : ∀ m w, run q.read m s = some w → ∃ m' ≤ m, run q.read m' s' = some w)
    (h : Follows f q s₀ d s' o) : Follows f q s₀ d s o := by
  cases h with
  | responds a w hresponse hanswer => exact .responds a w hresponse (hback _ hanswer)
  | launches a req t hawaits hback' hforth' =>
    refine .launches a req t hawaits (fun w hw => hback w (hback' w hw)) ?_
    intro m w hm
    obtain ⟨m₁, hle, h₁⟩ := hforth m w hm
    obtain ⟨m₂, hle', h₂⟩ := hforth' m₁ w h₁
    exact ⟨m₂, by omega, h₂⟩
  | checks a req c found hasks hanswer => exact .checks a req c found hasks (hback _ hanswer)

/-- **One key is one step.** -/
theorem Follows.of_next (hnext : q.read s = .next s') (h : Follows f q s₀ 0 s' o) :
    Follows f q s₀ 1 s o := by
  have hback : ∀ w, q.Answer s' w → q.Answer s w := fun w => (ends_iff_of_next hnext w).mpr
  cases h with
  | responds a w hresponse hanswer => exact .responds a w hresponse (hback _ hanswer)
  | launches a req t hawaits hback' hforth' =>
    refine .launches a req t hawaits (fun w hw => hback w (hback' w hw)) ?_
    intro m w hm
    cases m with
    | zero => cases hm
    | succ m =>
      rw [run, hnext] at hm
      obtain ⟨m', hle, h'⟩ := hforth' m w hm
      exact ⟨m', by omega, h'⟩
  | checks a req c found hasks hanswer => exact .checks a req c found hasks (hback _ hanswer)

theorem Follows.weaken (h : Follows f q s₀ 1 s o) : Follows f q s₀ 0 s o := by
  cases h with
  | responds a w hresponse hanswer => exact .responds a w hresponse hanswer
  | launches a req t hawaits hback hforth =>
    refine .launches a req t hawaits hback ?_
    intro m w hm
    obtain ⟨m', hle, h'⟩ := hforth m w hm
    exact ⟨m', by omega, h'⟩
  | checks a req c found hasks hanswer => exact .checks a req c found hasks hanswer

end

/-! ### The end of a batch -/

section

variable {f : Nat} {q : Listing} {s₀ : Reading} {a : S3GetBucketAction} {b : Batch}
  {kvps later : List KeyValue}

/-- The action inside the loop over a batch. -/
structure Loops (f : Nat) (q : Listing) (a : S3GetBucketAction) (kvps later : List KeyValue) :
    Prop where
  runs : Runs q a
  listing : a.stateStartCheckAnyMoreKeys = false
  notFailed : a.readerE2big = false
  f_pos : 0 < f
  /-- A batch that is smaller than asked for is the last one. -/
  short : kvps.length < a.maxRecordCount → later = []

/-- The action behind the loop. -/
def leaving (a : S3GetBucketAction) (b : Batch) : S3GetBucketAction :=
  { a with
    objectList := b.objectList, lastKey := b.lastKey, keyCount := b.objectList.resultCount }

theorem Runs.leaving (h : Runs q a) (b : Batch) : Runs q (a.leaving b) :=
  ⟨⟨h.serves.pfx, h.serves.delimiter, h.serves.marker, h.serves.maxKeys⟩, h.positive, h.index,
    h.launched, h.error⟩

theorem Loops.leaving (h : Loops f q a kvps later) (b : Batch) :
    Loops f q (a.leaving b) kvps later :=
  ⟨h.runs.leaving b, h.listing, h.notFailed, h.f_pos, h.short⟩

variable {s : Reading}

/-- **The next batch is asked for behind the last key.** -/
theorem getNextObjects_awaits (h : Loops f q a kvps later) (hfound : a.objectList = s.found)
    (hcounted : a.keyCount = s.found.resultCount) (hopen : s.found.resultCount ≠ q.maxKeys)
    (hplace : At q s₀ s) (hlast : after q.index a.lastKey = s.rem) :
    ∃ a' req, getNextObjects f a = .launch a' req ∧ Awaits f q s₀ a' req s ∧ req.count = f ∧
      after q.index a'.lastKey = s.rem := by
  rw [getNextObjects_behind h.runs.positive h.runs.index h.notFailed h.runs.launched]
  refine ⟨_, _, rfl, ⟨⟨⟨h.runs.serves.pfx, h.runs.serves.delimiter, h.runs.serves.marker,
    h.runs.serves.maxKeys⟩, h.runs.positive, h.runs.index, h.runs.launched, h.runs.error⟩, h.listing,
    hfound, hcounted, hopen, rfl, h.f_pos, Nat.le_refl f, ?_, hplace, Or.inl hlast⟩, rfl, hlast⟩
  unfold next
  rw [if_neg Bool.false_ne_true, hlast]

theorem finishBatch_goes_on (h : Loops f q a kvps later) (hpast : b.skipNoFurtherPrefixMatch = false)
    (hopen : b.objectList.resultCount ≠ q.maxKeys)
    (hmore : b.skipRemainingCommonPrefixes = true ∨ a.maxRecordCount ≤ kvps.length) :
    finishBatch f a kvps b = getNextObjects f (a.leaving b) := by
  unfold finishBatch
  dsimp only
  rw [if_neg]
  · rfl
  · rw [hpast]
    intro hc
    rcases hc with hfull | ⟨hskip, hlt⟩ | hno
    · exact hopen (hfull.trans h.runs.serves.maxKeys)
    · rcases hmore with hskip' | hlong
      · rw [hskip'] at hskip
        cases hskip
      · omega
    · cases hno

theorem follows_launch (h : Loops f q a kvps later) (s : Reading)
    (hfound : a.objectList = s.found) (hcounted : a.keyCount = s.found.resultCount)
    (hopen : s.found.resultCount ≠ q.maxKeys) (hplace : At q s₀ s)
    (hlast : after q.index a.lastKey = s.rem) : Follows f q s₀ 0 s (getNextObjects f a) := by
  obtain ⟨a', req, hlaunch, hawaits, _, _⟩ :=
    getNextObjects_awaits h hfound hcounted hopen hplace hlast
  rw [hlaunch]
  exact .launches a' req s hawaits (fun w hw => hw) (fun m w hm => ⟨m, Nat.le_refl m, hm⟩)

variable {found : S3ObjectListResponse}

/-- **A batch that is read to its end.** -/
theorem follows_batchEnd (h : Loops f q a kvps later) (hfound : b.objectList = found)
    (hskip : b.skipRemainingCommonPrefixes = false) (hpast : b.skipNoFurtherPrefixMatch = false)
    (hopen : found.resultCount ≠ q.maxKeys) (hlast : after q.index b.lastKey = later)
    (hplace : At q s₀ ⟨later, found⟩) :
    Follows f q s₀ 0 ⟨later, found⟩ (finishBatch f a kvps b) := by
  subst hfound
  by_cases hshort : kvps.length < a.maxRecordCount
  · obtain rfl := h.short hshort
    have hopen' : b.objectList.resultCount ≠ a.maxKeys := by
      rw [h.runs.serves.maxKeys]
      exact hopen
    unfold finishBatch
    dsimp only
    rw [if_pos (Or.inr (Or.inl ⟨by rw [hskip]; rfl, hshort⟩)), if_neg (fun hc => hopen' hc.1)]
    exact .responds _ _ (response_eq h.runs.error rfl rfl) (answer_of_done rfl)
  · rw [finishBatch_goes_on h hpast hopen (Or.inr (Nat.le_of_not_lt hshort))]
    exact follows_launch (h.leaving b) ⟨later, b.objectList⟩ rfl rfl hopen hplace hlast

variable {d : Nat}

/-- **The last key of a full page, or the keys behind the prefix.** -/
theorem follows_finished (h : Loops f q a kvps later) (hlength : b.length = 0)
    (hend : b.skipNoFurtherPrefixMatch = true ∨ b.objectList.resultCount = q.maxKeys)
    (hdone : q.read s = .done (Listing.finished b.objectList)) :
    Follows f q s₀ d s (finishBatch f a kvps b) := by
  unfold finishBatch
  dsimp only
  rw [if_pos, if_neg (fun hc => hc.2 hlength)]
  · exact .responds _ _ (response_eq h.runs.error rfl rfl) (answer_of_done hdone)
  · rcases hend with hpast | hfull
    · exact Or.inr (Or.inr hpast)
    · exact Or.inl (hfull.trans h.runs.serves.maxKeys.symm)

/-- **A jump behind a common prefix.** -/
theorem follows_jump (h : Loops f q a kvps later) (hfound : b.objectList = found)
    (hskip : b.skipRemainingCommonPrefixes = true) (hpast : b.skipNoFurtherPrefixMatch = false)
    (hopen : found.resultCount ≠ q.maxKeys) (hplace : At q s₀ ⟨after q.index b.lastKey, found⟩) :
    Follows f q s₀ 0 ⟨after q.index b.lastKey, found⟩ (finishBatch f a kvps b) := by
  subst hfound
  rw [finishBatch_goes_on h hpast hopen (Or.inl hskip)]
  exact follows_launch (h.leaving b) _ rfl rfl hopen hplace rfl

/-- **A common prefix fills the page.** -/
theorem follows_filled (h : Loops f q a kvps later) {c : Bytes}
    (hskip : b.skipRemainingCommonPrefixes = true) (hrolled : b.lastKeyInCommonPrefix = true)
    (hlast : b.lastCommonPrefix = c) (hkey : b.lastKey = c ++ [0xff]) (hlength : b.length ≠ 0)
    (hfull : b.objectList.resultCount = q.maxKeys)
    (hdone : q.read s = .done (q.filled c b.objectList)) :
    Follows f q s₀ d s (finishBatch f a kvps b) := by
  have hfull' : b.objectList.resultCount = a.maxKeys := hfull.trans h.runs.serves.maxKeys.symm
  unfold finishBatch
  dsimp only
  rw [if_pos (Or.inl hfull'), if_pos ⟨hfull', hlength⟩, if_pos hskip, if_pos hrolled,
    getNextObjects_behind]
  · refine .checks _ _ c b.objectList ⟨⟨⟨h.runs.serves.pfx, h.runs.serves.delimiter,
      h.runs.serves.marker, h.runs.serves.maxKeys⟩, h.runs.positive, h.runs.index, h.runs.launched,
      h.runs.error⟩, rfl, rfl, rfl, hlast, hkey, rfl, h.f_pos, Nat.le_refl f, rfl, rfl⟩
      (answer_of_done hdone)
  · exact h.runs.positive
  · exact h.runs.index
  · exact h.notFailed
  · exact h.runs.launched

end

/-! ### One batch -/

/-- A batch in which nothing is left out at the moment. -/
structure Batch.Reads (b : Batch) (found : S3ObjectListResponse) (n : Nat) : Prop where
  fresh : b.Fresh
  found : b.objectList = found
  length : b.length = n

/-- A batch in which the keys that contain a common prefix are left out. -/
structure Batch.Skips (b : Batch) (found : S3ObjectListResponse) (c : Bytes) (n : Nat) : Prop where
  rolled : b.lastKeyInCommonPrefix = true
  last : b.lastCommonPrefix = c
  notSkipped : b.skipRemainingCommonPrefixes = false
  notPast : b.skipNoFurtherPrefixMatch = false
  found : b.objectList = found
  length : b.length = n

section

variable {f n : Nat} {q : Listing} {s₀ : Reading} {a : S3GetBucketAction} {b b' : Batch}
  {kvps cur later xs : List KeyValue} {kv : KeyValue} {found found' : S3ObjectListResponse}
  {c : Bytes}

theorem check_fresh (hb : b.Fresh) (key : Bytes) : checkLastCommonPrefix a b key = .fall b := by
  unfold checkLastCommonPrefix
  exact if_neg (by rw [hb.notRolled]; exact Bool.false_ne_true)

theorem visit_fall (hb : b.Fresh) (h : filterKey q.fromJson a b kv = .fall b') :
    visit q.fromJson a b kv = countKey a b' kv.1 := by
  simp only [visit, check_fresh hb, h]

theorem visit_leave (hb : b.Fresh) (h : filterKey q.fromJson a b kv = .leave b') :
    visit q.fromJson a b kv = .leave b' := by
  simp only [visit, check_fresh hb, h]

theorem after_last (hs : Sorted q.index) (hsuffix : ([kv] ++ later) <:+ q.index) :
    after q.index kv.1 = later :=
  after_of_split [] hs hsuffix

/-- **A key after which the loop goes on**, or the batch ends. -/
theorem follows_pass (hs : Sorted q.index) (h : Loops f q a kvps later)
    (b' : Batch) (hvisit : visit q.fromJson a b kv = countKey a b' kv.1)
    (hb' : b'.Reads found' (cur.length + 1))
    (hopen : found'.resultCount ≠ q.maxKeys) (hsuffix : (kv :: cur) ++ later <:+ q.index)
    (hplace : At q s₀ ⟨kv :: (cur ++ later), found⟩)
    (hnext : q.read ⟨kv :: (cur ++ later), found⟩ = .next ⟨cur ++ later, found'⟩)
    (ih : cur ≠ [] → ∀ b : Batch, b.Reads found' cur.length →
      Follows f q s₀ 1 ⟨cur ++ later, found'⟩ (finishBatch f a kvps (visitAll q.fromJson a b cur))) :
    Follows f q s₀ 1 ⟨kv :: (cur ++ later), found⟩
      (finishBatch f a kvps (visitAll q.fromJson a b (kv :: cur))) := by
  refine Follows.of_next hnext ?_
  have hopen' : b'.objectList.resultCount ≠ a.maxKeys := by
    rw [hb'.found, h.runs.serves.maxKeys]
    exact hopen
  rw [visitAll, hvisit, countKey_fresh hb'.fresh hb'.length]
  cases cur with
  | nil =>
    rw [if_pos (Or.inl length_nil)]
    exact follows_batchEnd h hb'.found hb'.fresh.notSkipped hb'.fresh.notPast hopen
      (after_last hs hsuffix) (At.comes (hplace.next hnext))
  | cons kv' cur =>
    rw [if_neg]
    · exact (ih (cons_ne_nil _ _) { b' with length := (kv' :: cur).length }
        ⟨⟨hb'.fresh.notRolled, hb'.fresh.notSkipped, hb'.fresh.notPast⟩, hb'.found, rfl⟩).weaken
    · intro hc
      rcases hc with hzero | hfull
      · exact absurd hzero (Nat.succ_ne_zero _)
      · exact hopen' hfull

theorem visitAll_new (h : Loops f q a kvps later) (hb : b.Reads found (cur.length + 1))
    (hrole : q.role kv = .rolled c) (hnew : c ∉ found.commonPrefixes) :
    visitAll q.fromJson a b (kv :: cur) =
      { b with
        objectList := q.roll found c
        lastKey := c ++ [0xff]
        skipRemainingCommonPrefixes := true
        lastCommonPrefix := if c = q.marker then b.lastCommonPrefix else c
        lastKeyInCommonPrefix := if c = q.marker then b.lastKeyInCommonPrefix else true } := by
  have hnot : b.objectList.isPrefixInCommonPrefix c = false := by
    rw [hb.found]
    unfold S3ObjectListResponse.isPrefixInCommonPrefix
    simpa using hnew
  have hroll : rollTo a b c = .leave { b with
      objectList := q.roll found c
      lastKey := c ++ [0xff]
      skipRemainingCommonPrefixes := true
      lastCommonPrefix := if c = q.marker then b.lastCommonPrefix else c
      lastKeyInCommonPrefix := if c = q.marker then b.lastKeyInCommonPrefix else true } := by
    unfold rollTo Listing.roll
    rw [hnot, h.runs.serves.marker, ← hb.found]
    by_cases hc : c = q.marker
    · simp [hc]
    · simp [hc]
  rw [visitAll, visit_leave hb.fresh ((filterKey_rolled h.runs.serves hrole).trans hroll)]

theorem follows_new (h : Loops f q a kvps later) (hb : b.Reads found (cur.length + 1))
    (hopen : found.resultCount ≠ q.maxKeys) (hplace : At q s₀ ⟨kv :: (cur ++ later), found⟩)
    (hrole : q.role kv = .rolled c) (hnew : c ∉ found.commonPrefixes) :
    Follows f q s₀ 1 ⟨kv :: (cur ++ later), found⟩
      (finishBatch f a kvps (visitAll q.fromJson a b (kv :: cur))) := by
  have hread : q.read ⟨kv :: (cur ++ later), found⟩ = _ := read_new hrole hnew
  have hvisit := visitAll_new h hb hrole hnew
  generalize visitAll q.fromJson a b (kv :: cur) = b' at hvisit ⊢
  have hfound : b'.objectList = q.roll found c := by rw [hvisit]
  have hkey : b'.lastKey = c ++ [0xff] := by rw [hvisit]
  have hskip : b'.skipRemainingCommonPrefixes = true := by rw [hvisit]
  by_cases hfull : (q.roll found c).resultCount = q.maxKeys
  · rw [if_pos hfull] at hread
    have hc : c ≠ q.marker := by
      intro hc
      unfold Listing.roll at hfull
      rw [if_pos hc] at hfull
      exact hopen hfull
    rw [← hfound] at hfull hread
    refine follows_filled (c := c) h hskip ?_ ?_ hkey ?_ hfull hread
    · rw [hvisit]
      exact if_neg hc
    · rw [hvisit]
      exact if_neg hc
    · rw [hvisit]
      show b.length ≠ 0
      rw [hb.length]
      exact Nat.succ_ne_zero _
  · rw [if_neg hfull, ← hkey] at hread
    refine Follows.of_next hread (follows_jump h hfound hskip ?_ hfull (At.comes (hplace.next hread)))
    rw [hvisit]
    exact hb.fresh.notPast

/-- A key with a common prefix that is known: the keys behind it that contain it are left out. -/
theorem follows_known (hs : Sorted q.index) (h : Loops f q a kvps later)
    (hb : b.Reads found (cur.length + 1)) (hopen : found.resultCount ≠ q.maxKeys)
    (hsuffix : (kv :: cur) ++ later <:+ q.index) (hplace : At q s₀ ⟨kv :: (cur ++ later), found⟩)
    (hrole : q.role kv = .rolled c) (hknown : c ∈ found.commonPrefixes)
    (ihRead : cur ≠ [] → ∀ b : Batch, b.Reads found cur.length →
      Follows f q s₀ 1 ⟨cur ++ later, found⟩ (finishBatch f a kvps (visitAll q.fromJson a b cur)))
    (ihSkip : cur ≠ [] → ∀ b : Batch, b.Skips found c cur.length →
      Follows f q s₀ 0 ⟨cur ++ later, found⟩ (finishBatch f a kvps (visitAll q.fromJson a b cur))) :
    Follows f q s₀ 1 ⟨kv :: (cur ++ later), found⟩
      (finishBatch f a kvps (visitAll q.fromJson a b (kv :: cur))) := by
  have hread : q.read ⟨kv :: (cur ++ later), found⟩ = _ := read_known hrole hknown
  have hin : b.objectList.isPrefixInCommonPrefix c = true := by
    rw [hb.found]
    unfold S3ObjectListResponse.isPrefixInCommonPrefix
    simpa using hknown
  have hadd : found.addCommonPrefix c = found := if_pos hknown
  by_cases hc : c = q.marker
  · -- nothing is left out behind the marker
    refine follows_pass hs h b ?_ hb hopen hsuffix hplace hread ihRead
    have hsame : { b with skipRemainingCommonPrefixes := false } = b := by
      rw [← hb.fresh.notSkipped]
    have hroll : rollTo a b c = .fall b := by
      unfold rollTo
      simp only [hin, h.runs.serves.marker, eq_false (not_not.mpr hc), if_false, Bool.not_true,
        Bool.false_eq_true]
      rw [hsame]
    exact visit_fall hb.fresh ((filterKey_rolled h.runs.serves hrole).trans hroll)
  · refine Follows.of_next hread ?_
    obtain ⟨b', hb'⟩ : ∃ b' : Batch, b' = { b with
      skipRemainingCommonPrefixes := false
      lastCommonPrefix := c
      lastKeyInCommonPrefix := true } := ⟨_, rfl⟩
    have hvisit : visit q.fromJson a b kv = countKey a b' kv.1 := by
      have hroll : rollTo a b c = .fall b' := by
        rw [hb.found.symm] at hadd
        unfold rollTo
        simp only [hin, h.runs.serves.marker, ne_eq, hc, not_false_eq_true, if_true, Bool.not_true,
          Bool.false_eq_true, if_false, hadd]
        rw [hb']
      exact visit_fall hb.fresh ((filterKey_rolled h.runs.serves hrole).trans hroll)
    have hlen : b'.length = cur.length + 1 := by
      rw [hb']
      exact hb.length
    have hskips : ∀ n, ({ b' with length := n } : Batch).Skips found c n := by
      intro n
      rw [hb']
      exact ⟨rfl, rfl, rfl, hb.fresh.notPast, hb.found, rfl⟩
    rw [visitAll, hvisit]
    unfold countKey
    rw [show (b'.length - 1) = cur.length by omega]
    cases cur with
    | nil =>
      rw [if_pos (Or.inl length_nil)]
      have hend := hskips 0
      exact follows_batchEnd h hend.found hend.notSkipped hend.notPast hopen
        (after_last hs hsuffix) (At.comes (hplace.next hread))
    | cons kv' cur =>
      rw [if_neg]
      · exact ihSkip (cons_ne_nil _ _) _ (hskips _)
      · intro hend
        rcases hend with hzero | ⟨hnot, -⟩
        · exact absurd hzero (Nat.succ_ne_zero _)
        · rw [hb'] at hnot
          cases hnot

/-- **One key, when nothing is left out.** -/
theorem follows_read (hs : Sorted q.index) (h : Loops f q a kvps later)
    (hsteady : q.Steady s₀ n) (hn : cur.length < n) (hb : b.Reads found (cur.length + 1))
    (hopen : found.resultCount ≠ q.maxKeys) (hsuffix : (kv :: cur) ++ later <:+ q.index)
    (hplace : At q s₀ ⟨kv :: (cur ++ later), found⟩)
    (ihRead : cur ≠ [] → ∀ (b : Batch) (found' : S3ObjectListResponse), b.Reads found' cur.length →
      found'.resultCount ≠ q.maxKeys → At q s₀ ⟨cur ++ later, found'⟩ →
        Follows f q s₀ 1 ⟨cur ++ later, found'⟩ (finishBatch f a kvps (visitAll q.fromJson a b cur)))
    (ihSkip : cur ≠ [] → ∀ (b : Batch) (c : Bytes), b.Skips found c cur.length →
      q.role kv = .rolled c → c ∈ found.commonPrefixes → q.Comes s₀ ⟨kv :: (cur ++ later), found⟩ →
        Follows f q s₀ 0 ⟨cur ++ later, found⟩ (finishBatch f a kvps (visitAll q.fromJson a b cur))) :
    Follows f q s₀ 1 ⟨kv :: (cur ++ later), found⟩
      (finishBatch f a kvps (visitAll q.fromJson a b (kv :: cur))) := by
  have hserves := h.runs.serves
  cases hrole : q.role kv with
  | idle =>
    obtain ⟨e, he⟩ := filterKey_idle (b := b) hserves hrole
    have hread : q.read ⟨kv :: (cur ++ later), found⟩ = _ := read_idle hrole
    refine follows_pass hs h { b with atleastOneJsonError := e } ?_
      ⟨⟨hb.fresh.notRolled, hb.fresh.notSkipped, hb.fresh.notPast⟩, hb.found, hb.length⟩ hopen
      hsuffix hplace hread
      fun hne b hb => ihRead hne b found hb hopen (At.comes (hplace.next hread))
    exact visit_fall hb.fresh he
  | past =>
    rw [visitAll, visit_leave hb.fresh (filterKey_past hserves hrole)]
    refine follows_finished h rfl (Or.inl rfl) ?_
    rw [read_past hrole]
    show _ = Until.Outcome.done (Listing.finished b.objectList)
    rw [hb.found]
  | listed name =>
    have hfilter := filterKey_listed (b := b) hserves hrole
    have hread : q.read ⟨kv :: (cur ++ later), found⟩ = _ := read_listed hrole
    have hb' : ({ b with objectList := b.objectList.addObject name } : Batch).Reads
        (found.addObject name) (cur.length + 1) :=
      ⟨⟨hb.fresh.notRolled, hb.fresh.notSkipped, hb.fresh.notPast⟩, by rw [← hb.found], hb.length⟩
    have hvisit : visit q.fromJson a b kv =
        countKey a { b with objectList := b.objectList.addObject name } kv.1 := by
      exact visit_fall hb.fresh hfilter
    by_cases hfull : (found.addObject name).resultCount = q.maxKeys
    · rw [if_pos hfull] at hread
      have hnil : cur = [] := by
        by_cases hone : 1 < n
        · have hrest := hsteady.ends hone kv (cur ++ later) found name
            (hplace.comes_of_listed hrole) hrole hfull
          exact (append_eq_nil_iff.mp hrest).1
        · exact eq_nil_of_length_eq_zero (by omega)
      subst hnil
      rw [visitAll, hvisit, countKey_fresh hb'.fresh hb'.length, if_pos (Or.inl length_nil)]
      refine follows_finished h rfl (Or.inr ?_) ?_
      · show (b.objectList.addObject name).resultCount = q.maxKeys
        rw [hb.found]
        exact hfull
      · rw [hread]
        show _ = Until.Outcome.done (Listing.finished (b.objectList.addObject name))
        rw [hb.found]
    · rw [if_neg hfull] at hread
      exact follows_pass hs h _ hvisit hb' hfull hsuffix hplace hread
        fun hne b hb => ihRead hne b _ hb hfull (At.comes (hplace.next hread))
  | rolled c =>
    by_cases hknown : c ∈ found.commonPrefixes
    · exact follows_known hs h hb hopen hsuffix hplace hrole hknown
        (fun hne b hb => ihRead hne b found hb hopen
          (At.comes (hplace.next (read_known hrole hknown))))
        (fun hne b hb => ihSkip hne b c hb hrole hknown (hplace.comes_of_known hrole hknown))
    · exact follows_new h hb hopen hplace hrole hknown

theorem skippable_of_steady (hsteady : q.Steady s₀ n) {ys : List KeyValue}
    (hcomes : q.Comes s₀ ⟨kv :: (xs ++ ys), found⟩) (hrole : q.role kv = .rolled c)
    (hknown : c ∈ found.commonPrefixes) (hcontains : ∀ x ∈ xs, find c x.1 ≠ none)
    (hn : xs.length < n) : Skippable q found xs ys := by
  have htake : (xs ++ ys).take xs.length = xs := take_left
  have hdrop : (xs ++ ys).drop xs.length = ys := drop_left
  have h := hsteady.skips kv (xs ++ ys) found c hcomes hrole hknown xs.length hn
  rw [htake, hdrop] at h
  exact h hcontains

/-- **While keys are left out.** -/
theorem follows_skip (hs : Sorted q.index) (h : Loops f q a kvps later)
    (hsteady : q.Steady s₀ n) (hopen : found.resultCount ≠ q.maxKeys) (hrole : q.role kv = .rolled c)
    (hknown : c ∈ found.commonPrefixes) :
    ∀ (cur xs : List KeyValue) (b : Batch), b.Skips found c cur.length →
      (kv :: (xs ++ (cur ++ later))) <:+ q.index → q.Comes s₀ ⟨kv :: (xs ++ (cur ++ later)), found⟩ →
      (∀ x ∈ xs, find c x.1 ≠ none) → xs.length + cur.length < n →
      (cur = [] → after q.index b.lastKey = later) →
      (∀ (cur' : List KeyValue) (b : Batch), cur'.length ≤ cur.length → cur' ≠ [] →
        cur' ++ later <:+ q.index → b.Reads found cur'.length → At q s₀ ⟨cur' ++ later, found⟩ →
          Follows f q s₀ 1 ⟨cur' ++ later, found⟩
            (finishBatch f a kvps (visitAll q.fromJson a b cur'))) →
      Follows f q s₀ 0 ⟨xs ++ (cur ++ later), found⟩
        (finishBatch f a kvps (visitAll q.fromJson a b cur)) := by
  intro cur
  induction cur with
  | nil =>
    intro xs b hb hsuffix hcomes hcontains hn hlast _
    rw [length_nil, Nat.add_zero] at hn
    rw [nil_append] at hsuffix hcomes ⊢
    have hsorted := (pairwise_cons.mp (List.Pairwise.sublist hsuffix.sublist hs)).2
    have hskippable := skippable_of_steady hsteady hcomes hrole hknown hcontains hn
    have hplace := at_of_skippable hsorted
      (hcomes.step (read_known hrole hknown)) hskippable
    obtain ⟨hback, hforth⟩ := same_of_skippable hsorted hskippable
    exact (follows_batchEnd h hb.found hb.notSkipped hb.notPast hopen (hlast rfl) hplace).of_same
      hback hforth
  | cons x cur ih =>
    intro xs b hb hsuffix hcomes hcontains hn hlast hreads
    have hsorted := List.Pairwise.sublist hsuffix.sublist hs
    have hsorted' := (pairwise_cons.mp hsorted).2
    have hskippable := skippable_of_steady hsteady hcomes hrole hknown hcontains
      (by rw [length_cons] at hn; omega)
    obtain ⟨hback, hforth⟩ := same_of_skippable hsorted' hskippable
    have hplace := at_of_skippable hsorted' (hcomes.step (read_known hrole hknown)) hskippable
    have hlt : kv.1 < x.1 := (pairwise_cons.mp hsorted).1 x
      (mem_append_right _ mem_cons_self)
    have hserves := h.runs.serves
    have hcheck : checkLastCommonPrefix a b x.1 =
        if q.pfx ≠ [] ∧ find q.pfx x.1 = none then
          .leave { b with skipNoFurtherPrefixMatch := true, length := 0 }
        else if find c x.1 = none then
          .fall { b with lastKeyInCommonPrefix := false, lastCommonPrefix := [] }
        else .skip { b with length := b.length - 1, lastKey := x.1 } := by
      have hpast : q.pfx < x.1 :=
        lt_of_le_of_lt ( le_of_prefix (prefix_of_rolled hrole)) hlt
      have hopen' : b.objectList.resultCount ≠ q.maxKeys := by
        rw [hb.found]
        exact hopen
      unfold checkLastCommonPrefix
      rw [if_pos hb.rolled, hserves.pfx, hserves.maxKeys, hb.last, if_pos hpast, if_neg hopen']
      cases find c x.1 with
      | none | some pos => rfl
    by_cases hpast : q.pfx ≠ [] ∧ find q.pfx x.1 = none
    · -- the keys with the prefix are left
      have hpast' : q.role x = .past := by
        unfold Listing.role
        rw [if_neg, if_pos (lt_of_le_of_lt ( le_of_prefix (prefix_of_rolled hrole)) hlt)]
        intro hm
        have hzero := (find_eq_zero_iff _ _).mpr hm
        rw [hpast.2] at hzero
        cases hzero
      rw [visitAll, visit, hcheck, if_pos hpast]
      refine (follows_finished (s := ⟨x :: (cur ++ later), found⟩) h rfl (Or.inl rfl) ?_).of_same
        hback hforth
      rw [read_past hpast']
      show _ = Until.Outcome.done (Listing.finished b.objectList)
      rw [hb.found]
    · by_cases hfind : find c x.1 = none
      · -- nothing is left out any more
        have hfresh : ({ b with
            lastKeyInCommonPrefix := false, lastCommonPrefix := [] } : Batch).Fresh :=
          ⟨rfl, hb.notSkipped, hb.notPast⟩
        have hvisit : visitAll q.fromJson a b (x :: cur) = visitAll q.fromJson a
            { b with lastKeyInCommonPrefix := false, lastCommonPrefix := [] } (x :: cur) := by
          rw [if_neg hpast, if_pos hfind] at hcheck
          have hsame : visit q.fromJson a b x = visit q.fromJson a
              { b with lastKeyInCommonPrefix := false, lastCommonPrefix := [] } x := by
            simp only [visit, check_fresh hfresh, hcheck]
          rw [visitAll, visitAll, hsame]
        rw [hvisit]
        exact ((hreads (x :: cur) _ (Nat.le_refl _) (cons_ne_nil _ _)
          ((suffix_append _ _).trans ((suffix_cons _ _).trans hsuffix))
          ⟨hfresh, hb.found, hb.length⟩ hplace).weaken).of_same hback hforth
      · rw [visitAll, visit, hcheck, if_neg hpast, if_neg hfind]
        have heq : xs ++ (x :: cur ++ later) = xs ++ [x] ++ (cur ++ later) := by
          rw [append_assoc, cons_append, singleton_append]
        rw [heq] at hsuffix hcomes ⊢
        refine ih (xs ++ [x]) _ ⟨hb.rolled, hb.last, hb.notSkipped, hb.notPast, hb.found, ?_⟩
          hsuffix hcomes ?_ ?_ ?_ ?_
        · show b.length - 1 = cur.length
          rw [hb.length, length_cons, Nat.add_sub_cancel]
        · intro y hy
          rcases mem_append.mp hy with hy | hy
          · exact hcontains y hy
          · rw [mem_singleton.mp hy]
            exact hfind
        · rw [length_append, length_singleton]
          rw [length_cons] at hn
          omega
        · intro hnil
          rw [hnil] at hsuffix
          apply after_last hs
          exact (suffix_append xs _).trans ((suffix_cons _ _).trans
            (by rw [append_assoc] at hsuffix; exact hsuffix))
        · intro cur' b' hle
          exact hreads cur' b' (hle.trans (Nat.le_succ _))

/-- **A batch is followed by what a listing comes to that reads one key at a time.** -/
theorem follows_batch (hs : Sorted q.index) (h : Loops f q a kvps later) (hsteady : q.Steady s₀ n) :
    ∀ (len : Nat) (cur : List KeyValue) (b : Batch) (found : S3ObjectListResponse),
      cur.length = len → len ≤ n → cur ≠ [] → cur ++ later <:+ q.index → b.Reads found len →
      found.resultCount ≠ q.maxKeys → At q s₀ ⟨cur ++ later, found⟩ →
      Follows f q s₀ 1 ⟨cur ++ later, found⟩ (finishBatch f a kvps (visitAll q.fromJson a b cur)) := by
  intro len
  induction len using Nat.strong_induction_on with
  | _ len ih =>
    intro cur b found hlen hn hne hsuffix hb hopen hplace
    cases cur with
    | nil => exact absurd rfl hne
    | cons kv cur =>
      rw [length_cons] at hlen
      subst hlen
      have hrest : cur ++ later <:+ q.index := (suffix_cons _ _).trans hsuffix
      refine follows_read hs h hsteady hn hb hopen hsuffix hplace ?_ ?_
      · intro hne' b' found' hb' hopen' hplace'
        exact ih cur.length (Nat.lt_succ_self _) cur b' found' rfl (by omega) hne' hrest hb'
          hopen' hplace'
      · intro hne' b' c hb' hrole hknown hcomes
        refine follows_skip hs h hsteady hopen hrole hknown cur [] b' hb' hsuffix hcomes
          (fun x hx => absurd hx not_mem_nil) (by rw [length_nil]; omega)
          (fun hnil => absurd hnil hne') ?_
        intro cur' b'' hle hne'' hsuffix'' hb'' hplace''
        exact ih cur'.length (by omega) cur' b'' found rfl (by omega) hne'' hsuffix'' hb'' hopen
          hplace''

end

end S3GetBucketAction

end CortxS3
