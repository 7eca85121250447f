/-
A listing whose batches may be too large.

When a NEXT fails because the batch is too large, the action asks for a smaller one from the same
place (`Awaits.retries`).  So what is answered is what a listing comes to that reads one key at a
time (`serve_of_answer`, `answer_of_serve`), if the batches do not matter.
-/
import CortxS3.Proofs.GetBucketBatches

namespace CortxS3

open List

namespace S3GetBucketAction

open Until

/-! ### One NEXT after another -/

/-- An index that can be read, but for batches that are too large. -/
def Flaky (index : List KeyValue) (store : Nat → NextRequest → NextResult) : Prop :=
  ∀ k req, store k req = nextKeyval index req ∨
    (store k req = .failedE2big ∧ 1 < req.count)

section

variable {f n : Nat} {q : Listing} {s₀ s : Reading} {a : S3GetBucketAction} {req : NextRequest}
  {c : Bytes} {found : S3ObjectListResponse}

theorem Awaits.suffix (hs : OrderedIndex.Sorted q.index) (h : Awaits f q s₀ a req s) :
    s.rem <:+ q.index := by
  rcases h.again with heq | ⟨_, _, hsuffix, _⟩
  · rw [← heq]
    exact OrderedIndex.after_suffix hs _
  · exact hsuffix

/-- **A batch that comes.** -/
theorem Awaits.follows (hs : OrderedIndex.Sorted q.index) (h : Awaits f q s₀ a req s)
    (hsteady : q.Steady s₀ n) (hn : req.count ≤ n) :
    Follows f q s₀ 1 s (onNextKeyval f q.fromJson a (nextKeyval q.index req)) := by
  unfold nextKeyval
  rw [h.next]
  cases hbatch : s.rem.take req.count with
  | nil =>
    have hrem : s.rem = [] := by
      rcases take_eq_nil_iff.mp hbatch with hzero | hnil
      · have := h.size_pos
        omega
      · exact hnil
    refine .responds _ _ (response_eq h.runs.error rfl rfl) (answer_of_done ?_)
    unfold Listing.read
    rw [hrem]
    dsimp only
    rw [h.found, h.counted]
    rfl
  | cons kv rest =>
    dsimp only
    obtain ⟨kvps, hkvps⟩ : ∃ kvps, kvps = s.rem.take req.count := ⟨_, rfl⟩
    rw [← hbatch, ← hkvps]
    have hne : kvps ≠ [] := by
      rw [hkvps, hbatch]
      exact cons_ne_nil _ _
    have hsplit : kvps ++ s.rem.drop req.count = s.rem := by
      rw [hkvps]
      exact take_append_drop _ _
    have hlen : kvps.length ≤ req.count := by
      rw [hkvps, length_take]
      exact Nat.min_le_left _ _
    have hloops : Loops f q (a.entered kvps) kvps (s.rem.drop req.count) := by
      refine ⟨⟨⟨h.runs.serves.pfx, h.runs.serves.delimiter, h.runs.serves.marker,
        h.runs.serves.maxKeys⟩, h.runs.positive, h.runs.index, h.runs.launched, h.runs.error⟩,
        h.listing, rfl, Nat.lt_of_lt_of_le h.size_pos h.size_le, ?_⟩
      intro hshort
      change kvps.length < a.maxRecordCount at hshort
      rw [hkvps, length_take, ← h.size] at hshort
      exact drop_eq_nil_of_le (by omega)
    have hstep : onNextKeyval f q.fromJson a (.present kvps) =
        finishBatch f (a.entered kvps) kvps
          (visitAll q.fromJson (a.entered kvps) ((a.entered kvps).firstBatch kvps) kvps) := by
      simp [onNextKeyval, getNextObjectsSuccessful, h.listing, S3GetBucketAction.entered,
        firstBatch]
    have hfollows := follows_batch hs hloops hsteady kvps.length kvps
      ((a.entered kvps).firstBatch kvps) s.found rfl (hlen.trans hn) hne
      (by rw [hsplit]; exact h.suffix hs)
      ⟨⟨rfl, rfl, rfl⟩, h.found, rfl⟩ h.notFull (by rw [hsplit]; exact h.place)
    rw [hsplit] at hfollows
    rw [hstep]
    exact hfollows

theorem failed_launches (h : Runs q a) (hsize : 1 < a.maxRecordCount) :
    ∃ count, 0 < count ∧ count < a.maxRecordCount ∧
      getNextObjectsFailed f a .failedE2big =
        .launch { a with
          readerE2big := true, retryCount := a.retryCount + 1, maxRecordCount := count }
          { key := a.lastKey, count := count, inclusive := false } := by
  refine ⟨if maxRetryCount < a.retryCount + 1 then 1 else a.maxRecordCount / 2, ?_, ?_, ?_⟩
  · split <;> omega
  · split <;> omega
  · unfold getNextObjectsFailed
    dsimp only
    rw [if_neg (by omega)]
    unfold getNextObjects
    dsimp only
    rw [if_pos rfl, if_neg, if_neg h.launched]
    intro hc
    rcases hc with hzero | hno
    · exact h.positive hzero
    · rw [h.index] at hno
      cases hno

/-- **A batch that is too large is asked for again**, smaller and from the same place. -/
theorem Awaits.retries (h : Awaits f q s₀ a req s) (hsize : 1 < req.count) :
    ∃ a' req' s', getNextObjectsFailed f a .failedE2big = .launch a' req' ∧
      Awaits f q s₀ a' req' s' ∧ req'.count < req.count ∧ (∀ w, q.Answer s' w → q.Answer s w) ∧
      ∀ m w, run q.read m s = some w → ∃ m' ≤ m, run q.read m' s' = some w := by
  have hcount := h.size
  obtain ⟨count, hpos, hlt, hlaunch⟩ := failed_launches (f := f) h.runs (by omega)
  have hle := h.size_le
  refine ⟨_, _, ⟨OrderedIndex.after q.index a.lastKey, s.found⟩, hlaunch,
    ⟨⟨⟨h.runs.serves.pfx, h.runs.serves.delimiter, h.runs.serves.marker, h.runs.serves.maxKeys⟩,
      h.runs.positive, h.runs.index, h.runs.launched, h.runs.error⟩, h.listing, h.found, h.counted,
      h.notFull, rfl, hpos, by show count ≤ f; omega, ?_, ?_, Or.inl rfl⟩, ?_, ?_⟩
  · unfold OrderedIndex.next
    rw [if_neg Bool.false_ne_true]
  · rcases h.again with heq | ⟨_, _, _, _, hcomes⟩
    · rw [heq]
      exact h.place
    · exact At.comes hcomes
  · show count < req.count
    omega
  · rcases h.again with heq | ⟨kv, heq, _, hrole, _⟩
    · rw [heq]
      exact ⟨fun w hw => hw, fun m w hm => ⟨m, Nat.le_refl m, hm⟩⟩
    · have hnext : q.read s = .next ⟨OrderedIndex.after q.index a.lastKey, s.found⟩ := by
        have hread : q.read ⟨kv :: OrderedIndex.after q.index a.lastKey, s.found⟩ = _ :=
          read_idle hrole
        rw [← heq] at hread
        exact hread
      refine ⟨fun w hw => (ends_iff_of_next hnext w).mpr hw, ?_⟩
      intro m w hm
      cases m with
      | zero => cases hm
      | succ m =>
        rw [run, hnext] at hm
        exact ⟨m, Nat.le_succ m, hm⟩

theorem Asks.retries (h : Asks f q a req c found) (hsize : 1 < req.count) :
    ∃ a' req', getNextObjectsFailed f a .failedE2big = .launch a' req' ∧
      Asks f q a' req' c found ∧ req'.count < req.count := by
  have hcount := h.size
  obtain ⟨count, hpos, hlt, hlaunch⟩ := failed_launches (f := f) h.runs (by omega)
  have hle := h.size_le
  refine ⟨_, _, hlaunch, ⟨⟨⟨h.runs.serves.pfx, h.runs.serves.delimiter, h.runs.serves.marker,
    h.runs.serves.maxKeys⟩, h.runs.positive, h.runs.index, h.runs.launched, h.runs.error⟩,
    h.checking, h.listed, h.counted, h.saved, h.last, rfl, hpos, ?_, rfl, rfl⟩, ?_⟩
  · show count ≤ f
    omega
  · show count < req.count
    omega

/-- **The question whether any key is left is answered by the first one.** -/
theorem Asks.responds (h : Asks f q a req c found) :
    ∃ a', onNextKeyval f q.fromJson a (nextKeyval q.index req) = .respond a' ∧
      a'.response = .ok (q.filled c found) := by
  have hnext : OrderedIndex.next q.index req.key req.count req.inclusive =
      (OrderedIndex.after q.index (c ++ [0xff])).take req.count := by
    unfold OrderedIndex.next
    rw [h.exclusive, if_neg Bool.false_ne_true, h.key, h.last]
  unfold nextKeyval
  rw [hnext]
  cases hafter : OrderedIndex.after q.index (c ++ [0xff]) with
  | nil =>
    rw [take_nil]
    refine ⟨_, rfl, ?_⟩
    refine response_eq h.runs.error rfl ?_
    unfold Listing.filled Listing.anyLeft
    rw [hafter]
    show { a.objectList with keyCount := a.keyCount } = _
    rw [h.listed, h.counted]
    rfl
  | cons kv rest =>
    obtain ⟨count, hcount⟩ : ∃ count, req.count = count + 1 :=
      ⟨req.count - 1, by have := h.size_pos; omega⟩
    rw [hcount, take_succ_cons]
    refine ⟨answerAnyMoreKeys { a with retryCount := 0, readerE2big := false }
      (kv :: rest.take count), ?_, ?_⟩
    · simp [onNextKeyval, getNextObjectsSuccessful, h.checking]
    · refine response_eq h.runs.error rfl ?_
      unfold answerAnyMoreKeys Listing.filled Listing.anyLeft
      rw [hafter]
      dsimp only
      rw [h.runs.serves.pfx, h.saved, h.listed, h.counted]
      split <;> rfl

variable {store : Nat → NextRequest → NextResult}

theorem serve_asks (hflaky : Flaky q.index store) :
    ∀ (count : Nat) (a : S3GetBucketAction) (req : NextRequest) (k : Nat), req.count = count →
      Asks f q a req c found →
      ∃ fuel a', serve f q.fromJson store fuel k (.launch a req) = some a' ∧
        a'.response = .ok (q.filled c found) := by
  intro count
  induction count using Nat.strong_induction_on with
  | _ count ih =>
    intro a req k hcount h
    rcases hflaky k req with hok | ⟨hfail, hsize⟩
    · obtain ⟨a', hstep, hresponse⟩ := h.responds
      refine ⟨1, a', ?_, hresponse⟩
      rw [serve, hok, hstep]
      rfl
    · obtain ⟨a₁, req₁, hlaunch, h₁, hlt⟩ := h.retries hsize
      obtain ⟨fuel, a', hserve, hresult⟩ := ih req₁.count (by omega) a₁ req₁ (k + 1) rfl h₁
      refine ⟨fuel + 1, a', ?_, hresult⟩
      rw [serve, hfail]
      show serve f q.fromJson store fuel (k + 1) (getNextObjectsFailed f a .failedE2big) = _
      rw [hlaunch]
      exact hserve

/-- **What a listing comes to that reads one key at a time is answered.** -/
theorem serve_of_answer (hs : OrderedIndex.Sorted q.index) (hsteady : q.Steady s₀ n)
    (hflaky : Flaky q.index store)
    (hn : ∀ k req, store k req ≠ .failedE2big → req.count ≤ f → req.count ≤ n)
    {w : S3ObjectListResponse} :
    ∀ (m count : Nat) (a : S3GetBucketAction) (req : NextRequest) (s : Reading) (k : Nat),
      run q.read m s = some w → req.count = count → Awaits f q s₀ a req s →
      ∃ fuel a', serve f q.fromJson store fuel k (.launch a req) = some a' ∧
        a'.response = .ok w := by
  intro m
  induction m using Nat.strong_induction_on with
  | _ m ih =>
    intro count
    induction count using Nat.strong_induction_on with
    | _ count ihCount =>
      intro a req s k hm hcount h
      rcases hflaky k req with hok | ⟨hfail, hsize⟩
      · have hbound : req.count ≤ n := by
          apply hn k req _ h.size_le
          rw [hok]
          unfold nextKeyval
          split <;> exact fun hc => by cases hc
        have hfollows := h.follows hs hsteady hbound
        rw [← hok] at hfollows
        generalize hstep : onNextKeyval f q.fromJson a (store k req) = o at hfollows
        have hserve : ∀ fuel, serve f q.fromJson store (fuel + 1) k (.launch a req) =
            serve f q.fromJson store fuel (k + 1) o := by
          intro fuel
          rw [serve, hstep]
        cases hfollows with
        | responds a' w' hresponse hanswer =>
          refine ⟨1, a', ?_, ?_⟩
          · rw [hserve]
            rfl
          · rw [hresponse, Ends.unique ⟨m, hm⟩ hanswer]
        | launches a' req' s' hawaits _ hforth =>
          obtain ⟨m', hlt, hm'⟩ := hforth m w hm
          obtain ⟨fuel, a'', hfinal, hresult⟩ :=
            ih m' (by omega) req'.count a' req' s' (k + 1) hm' rfl hawaits
          refine ⟨fuel + 1, a'', ?_, hresult⟩
          rw [hserve]
          exact hfinal
        | checks a' req' c found hasks hanswer =>
          obtain ⟨fuel, a'', hfinal, hresponse⟩ :=
            serve_asks hflaky req'.count a' req' (k + 1) rfl hasks
          refine ⟨fuel + 1, a'', ?_, ?_⟩
          · rw [hserve]
            exact hfinal
          · rw [hresponse, Ends.unique ⟨m, hm⟩ hanswer]
      · obtain ⟨a', req', s', hlaunch, h', hlt, _, hforth⟩ := h.retries hsize
        obtain ⟨m', hle, hm'⟩ := hforth m w hm
        have hrest : ∃ fuel a'', serve f q.fromJson store fuel (k + 1) (.launch a' req') =
            some a'' ∧ a''.response = .ok w := by
          rcases Nat.lt_or_eq_of_le hle with hless | heq
          · exact ih m' hless req'.count a' req' s' (k + 1) hm' rfl h'
          · rw [heq] at hm'
            exact ihCount req'.count (by omega) a' req' s' (k + 1) hm' rfl h'
        obtain ⟨fuel, a'', hserve, hresult⟩ := hrest
        refine ⟨fuel + 1, a'', ?_, hresult⟩
        rw [serve, hfail]
        show serve f q.fromJson store fuel (k + 1) (getNextObjectsFailed f a .failedE2big) = _
        rw [hlaunch]
        exact hserve

/-- **Whatever is answered is what a listing comes to that reads one key at a time.** -/
theorem answer_of_serve (hs : OrderedIndex.Sorted q.index) (hsteady : q.Steady s₀ n)
    (hflaky : Flaky q.index store)
    (hn : ∀ k req, store k req ≠ .failedE2big → req.count ≤ f → req.count ≤ n) :
    ∀ (fuel k : Nat) (a : S3GetBucketAction) (req : NextRequest) (a' : S3GetBucketAction),
      serve f q.fromJson store fuel k (.launch a req) = some a' →
      (∀ s, Awaits f q s₀ a req s → ∃ w, a'.response = .ok w ∧ q.Answer s w) ∧
      ∀ c found, Asks f q a req c found → a'.response = .ok (q.filled c found) := by
  intro fuel
  induction fuel with
  | zero =>
    intro k a req a' hserve
    cases hserve
  | succ fuel ih =>
    intro k a req a' hserve
    rw [serve] at hserve
    rcases hflaky k req with hok | ⟨hfail, hsize⟩
    · constructor
      · intro s h
        have hbound : req.count ≤ n := by
          apply hn k req _ h.size_le
          rw [hok]
          unfold nextKeyval
          split <;> exact fun hc => by cases hc
        have hfollows := h.follows hs hsteady hbound
        rw [← hok] at hfollows
        generalize onNextKeyval f q.fromJson a (store k req) = o at hserve hfollows
        cases hfollows with
        | responds a₁ w hresponse hanswer =>
          rw [serve] at hserve
          cases hserve
          exact ⟨w, hresponse, hanswer⟩
        | launches a₁ req₁ s₁ hawaits hback _ =>
          obtain ⟨w, hresponse, hanswer⟩ := (ih (k + 1) a₁ req₁ a' hserve).1 s₁ hawaits
          exact ⟨w, hresponse, hback w hanswer⟩
        | checks a₁ req₁ c found hasks hanswer =>
          exact ⟨_, (ih (k + 1) a₁ req₁ a' hserve).2 c found hasks, hanswer⟩
      · intro c found h
        obtain ⟨a₁, hstep, hresponse⟩ := h.responds
        rw [hok, hstep, serve] at hserve
        cases hserve
        exact hresponse
    · rw [hfail] at hserve
      change serve f q.fromJson store fuel (k + 1) (getNextObjectsFailed f a .failedE2big) = _
        at hserve
      constructor
      · intro s h
        obtain ⟨a₁, req₁, s₁, hlaunch, h₁, _, hback, _⟩ := h.retries hsize
        rw [hlaunch] at hserve
        obtain ⟨w, hresponse, hanswer⟩ := (ih (k + 1) a₁ req₁ a' hserve).1 s₁ h₁
        exact ⟨w, hresponse, hback w hanswer⟩
      · intro c found h
        obtain ⟨a₁, req₁, hlaunch, h₁, _⟩ := h.retries hsize
        rw [hlaunch] at hserve
        exact (ih (k + 1) a₁ req₁ a' hserve).2 c found h₁

end

/-! ### A whole request -/

/-- What the action does first. -/
def Listing.request (q : Listing) (f : Nat) : Outcome :=
  getNextObjects f (validateRequest q.pfx q.delimiter q.marker q.maxKeys)

/-- What is sent to the client. -/
def Answered (f : Nat) (q : Listing) (store : Nat → NextRequest → NextResult)
    (r : Except String S3ObjectListResponse) : Prop :=
  ∃ fuel a, serve f q.fromJson store fuel 0 (q.request f) = some a ∧ a.response = r

/-- What is sent does not depend on which batches are too large. -/
def RetriesChangeNothing (f : Nat) (q : Listing) : Prop :=
  ∀ store, Flaky q.index store → ∀ r,
    Answered f q store r ↔ Answered f q (fun _ => nextKeyval q.index) r

section

variable {f n : Nat} {q : Listing} {store : Nat → NextRequest → NextResult}
  {r : Except String S3ObjectListResponse}

/-- A request begins where its listing begins, or one unlisted key in front of it. -/
def BeginsWell (q : Listing) : Prop :=
  start q.index q.pfx q.marker = q.begins.rem ∨
    ∃ kv, start q.index q.pfx q.marker = kv :: q.begins.rem ∧ q.role kv = .idle

theorem request_launches (hmax : q.maxKeys ≠ 0) :
    ∃ a req, q.request f = .launch a req ∧ Runs q a ∧ a.stateStartCheckAnyMoreKeys = false ∧
      a.objectList = {} ∧ a.keyCount = 0 ∧ a.maxRecordCount = f ∧ req.count = f ∧
      OrderedIndex.after q.index a.lastKey = q.begins.rem ∧
      OrderedIndex.next q.index req.key req.count req.inclusive =
        (start q.index q.pfx q.marker).take f := by
  unfold Listing.request getNextObjects start Listing.begins OrderedIndex.next
  dsimp only
  rw [if_neg (fun hc => hc.elim hmax Bool.false_ne_true)]
  by_cases hi : q.pfx ≠ [] ∧ q.marker = []
  · rw [if_pos ⟨hi.1, hi.2, rfl⟩, if_pos hi, if_pos hi.2]
    refine ⟨_, _, rfl, ⟨⟨rfl, rfl, rfl, rfl⟩, hmax, rfl, fun hc => ?_, rfl⟩, rfl, rfl, rfl, rfl, rfl,
      rfl, ?_⟩
    · exact absurd hc.2.2 Bool.false_ne_true
    · rfl
  · rw [if_neg (fun hc => hi ⟨hc.1, hc.2.1⟩), if_neg hi]
    refine ⟨_, _, rfl, ⟨⟨rfl, rfl, rfl, rfl⟩, hmax, rfl, fun hc => hi ⟨hc.1, hc.2.1⟩, rfl⟩, rfl, rfl,
      rfl, rfl, rfl, ?_, rfl⟩
    show OrderedIndex.after q.index q.marker = _
    by_cases hm : q.marker = []
    · have hp : q.pfx = [] := by
        by_contra hp
        exact hi ⟨hp, hm⟩
      rw [if_pos hm, hm, hp]
    · rw [if_neg hm]

theorem resultCount_empty : ({} : S3ObjectListResponse).resultCount = 0 := rfl

theorem awaits_request (hs : OrderedIndex.Sorted q.index) (hf : 0 < f) (hmax : q.maxKeys ≠ 0)
    (hbegins : BeginsWell q) :
    ∃ a req, q.request f = .launch a req ∧
      Awaits f q q.begins a req ⟨start q.index q.pfx q.marker, {}⟩ ∧ req.count = f := by
  obtain ⟨a, req, hlaunch, hruns, hlisting, hlist, hcount, hmaxRecord, hsize, hlast, hnext⟩ :=
    request_launches (f := f) hmax
  refine ⟨a, req, hlaunch, ⟨hruns, hlisting, hlist, ?_, ?_, ?_, ?_, ?_, ?_, ?_, ?_⟩, hsize⟩
  · rw [hcount]
    rfl
  · rw [resultCount_empty]
    exact hmax.symm
  · rw [hsize, hmaxRecord]
  · rw [hsize]
    exact hf
  · rw [hsize]
  · rw [hnext, hsize]
  · rcases hbegins with heq | ⟨kv, heq, hrole⟩
    · rw [heq]
      exact At.comes Reaches.start
    · rw [heq]
      exact At.ahead hrole Reaches.start
  · rw [hlast]
    rcases hbegins with heq | ⟨kv, heq, hrole⟩
    · exact Or.inl heq.symm
    · exact Or.inr ⟨kv, heq, start_suffix hs _ _, hrole, Reaches.start⟩

theorem answer_start_iff (hbegins : BeginsWell q) (w : S3ObjectListResponse) :
    q.Answer ⟨start q.index q.pfx q.marker, {}⟩ w ↔ q.Answer q.begins w := by
  rcases hbegins with heq | ⟨kv, heq, hrole⟩
  · rw [heq]
    rfl
  · rw [heq]
    exact ends_iff_of_next (read_idle hrole) w

/-- **A listing in batches comes to what a listing comes to that reads one key at a time.** -/
theorem answered_iff (hs : OrderedIndex.Sorted q.index) (hsteady : q.Steady q.begins n)
    (hflaky : Flaky q.index store)
    (hn : ∀ k req, store k req ≠ .failedE2big → req.count ≤ f → req.count ≤ n) (hf : 0 < f)
    (hmax : q.maxKeys ≠ 0) (hbegins : BeginsWell q) :
    Answered f q store r ↔ ∃ w, r = .ok w ∧ q.Answer q.begins w := by
  obtain ⟨a, req, hlaunch, hawaits, _⟩ := awaits_request (f := f) hs hf hmax hbegins
  unfold Answered
  rw [hlaunch]
  constructor
  · intro hanswered
    obtain ⟨fuel, a', hserve, hr⟩ := hanswered
    obtain ⟨w, hresponse, hanswer⟩ :=
      (answer_of_serve hs hsteady hflaky hn fuel 0 a req a' hserve).1 _ hawaits
    exact ⟨w, hr.symm.trans hresponse, (answer_start_iff hbegins w).mp hanswer⟩
  · intro hanswer
    obtain ⟨w, rfl, hw⟩ := hanswer
    obtain ⟨m, hm⟩ := (answer_start_iff hbegins w).mpr hw
    exact serve_of_answer hs hsteady hflaky hn m req.count a req _ 0 hm rfl hawaits

theorem atOrAfter_eq {index : List KeyValue} (hs : OrderedIndex.Sorted index) (p : Bytes) :
    OrderedIndex.atOrAfter index p = OrderedIndex.after index p ∨
      ∃ kv ∈ index, kv.1 = p ∧ OrderedIndex.atOrAfter index p = kv :: OrderedIndex.after index p := by
  induction index with
  | nil => exact Or.inl rfl
  | cons kv index ih =>
    obtain ⟨hfirst, hrest⟩ := pairwise_cons.mp hs
    unfold OrderedIndex.atOrAfter OrderedIndex.after at ih ⊢
    rcases lt_trichotomy p kv.1 with hlt | heq | hgt
    · left
      rw [filter_cons_of_pos (by simpa using hlt.le),
        filter_cons_of_pos (by simpa using hlt)]
      congr 1
      refine filter_congr ?_
      intro x hx
      have hx' := hlt.trans (hfirst x hx)
      simp [hx', hx'.le]
    · right
      refine ⟨kv, mem_cons_self, heq.symm, ?_⟩
      rw [filter_cons_of_pos (by simp [heq]), filter_cons_of_neg (by simp [heq])]
      congr 1
      refine filter_congr ?_
      intro x hx
      have hx' := hfirst x hx
      rw [← heq] at hx'
      simp [hx', hx'.le]
    · rw [filter_cons_of_neg (by simpa using hgt), filter_cons_of_neg (by
        simpa using hgt.le)]
      rcases ih hrest with heq | ⟨x, hx, hxp, heq⟩
      · exact Or.inl heq
      · exact Or.inr ⟨x, mem_cons_of_mem _ hx, hxp, heq⟩

theorem rolledTo_pfx (q : Listing) : q.rolledTo q.pfx = none := by
  unfold Listing.rolledTo
  split
  · rfl
  · rename_i hd
    unfold cut delimiterAt
    cases hfind : findFrom q.delimiter q.pfx q.pfx.length with
    | none => rfl
    | some pos =>
      obtain ⟨_, hle, hpre, _⟩ := findFrom_eq_some_iff.mp hfind
      have hlen := hpre.length_le
      have hpos := length_pos_of_ne_nil hd
      rw [length_drop] at hlen
      omega

/-- A request begins well when its prefix is no key that is listed. -/
theorem beginsWell (hs : OrderedIndex.Sorted q.index)
    (hfirst : q.pfx ≠ [] → q.marker = [] →
      ∀ kv ∈ q.index, kv.1 = q.pfx → q.fromJson kv.2 = none) : BeginsWell q := by
  unfold BeginsWell start Listing.begins
  dsimp only
  by_cases hi : q.pfx ≠ [] ∧ q.marker = []
  · rw [if_pos hi, if_pos hi.2]
    rcases atOrAfter_eq hs q.pfx with heq | ⟨kv, hkv, hkey, heq⟩
    · exact Or.inl heq
    · refine Or.inr ⟨kv, heq, ?_⟩
      unfold Listing.role
      rw [hkey, if_pos (List.isPrefixOf_iff_prefix.mpr (prefix_refl _)), rolledTo_pfx,
        hfirst hi.1 hi.2 kv hkv hkey]
  · rw [if_neg hi]
    by_cases hm : q.marker = []
    · have hp : q.pfx = [] := by
        by_contra hp
        exact hi ⟨hp, hm⟩
      rw [if_pos hm, hm, hp]
      exact Or.inl rfl
    · rw [if_neg hm]
      exact Or.inl rfl

variable {a a' : S3GetBucketAction} {req : NextRequest}

theorem getNextObjects_count (h : getNextObjects f a = .launch a' req) (he : a.readerE2big = false) :
    req.count = f := by
  unfold getNextObjects at h
  rw [he] at h
  dsimp only at h
  split at h
  · cases h
  · split at h
    · cases h
      rfl
    · cases h
      rfl

theorem request_count (h : q.request f = .launch a req) : req.count = f :=
  getNextObjects_count h rfl

theorem onNextKeyval_count {result : NextResult}
    (h : onNextKeyval f q.fromJson a result = .launch a' req) (hresult : result ≠ .failedE2big) :
    req.count = f := by
  cases result with
  | present kvps =>
    unfold onNextKeyval getNextObjectsSuccessful finishBatch at h
    dsimp only at h
    split at h
    · cases h
    · split at h
      · split at h
        · split at h
          · exact getNextObjects_count h rfl
          · cases h
        · cases h
      · exact getNextObjects_count h rfl
  | missing => cases h
  | failedE2big => exact absurd rfl hresult
  | failedToLaunch | failed => cases h

theorem nextKeyval_ne (index : List KeyValue) (req : NextRequest) :
    nextKeyval index req ≠ .failedE2big := by
  unfold nextKeyval
  split <;> exact fun hc => by cases hc

theorem serve_eq_of_le_one (hflaky : Flaky q.index store) (hf : f ≤ 1) :
    ∀ (fuel k : Nat) (o : Outcome), (∀ a req, o = .launch a req → req.count = f) →
      serve f q.fromJson store fuel k o =
        serve f q.fromJson (fun _ => nextKeyval q.index) fuel k o := by
  intro fuel
  induction fuel with
  | zero =>
    intro k o _
    cases o <;> rfl
  | succ fuel ih =>
    intro k o ho
    cases o with
    | respond a => rfl
    | launch a req =>
      have hcount := ho a req rfl
      have hok : store k req = nextKeyval q.index req := by
        rcases hflaky k req with hok | ⟨_, hsize⟩
        · exact hok
        · omega
      rw [serve, serve, hok]
      exact ih (k + 1) _ fun a' req' h => onNextKeyval_count h (nextKeyval_ne _ _)

/-- **Batches that do not matter may be too large.** -/
theorem retriesChangeNothing_of_steady (hs : OrderedIndex.Sorted q.index)
    (h : f ≤ 1 ∨ q.maxKeys = 0 ∨ q.Steady q.begins f) : RetriesChangeNothing f q := by
  intro store hflaky r
  by_cases hf : f ≤ 1
  · unfold Answered
    constructor
    · intro hanswered
      obtain ⟨fuel, a, hserve, hr⟩ := hanswered
      rw [serve_eq_of_le_one hflaky hf fuel 0 _ fun a req h => request_count h] at hserve
      exact ⟨fuel, a, hserve, hr⟩
    · intro hanswered
      obtain ⟨fuel, a, hserve, hr⟩ := hanswered
      rw [← serve_eq_of_le_one hflaky hf fuel 0 _ fun a req h => request_count h] at hserve
      exact ⟨fuel, a, hserve, hr⟩
  · by_cases hmax : q.maxKeys = 0
    · have hrequest : ∃ a, q.request f = .respond a := by
        unfold Listing.request getNextObjects
        dsimp only
        have hmax' : (validateRequest q.pfx q.delimiter q.marker q.maxKeys).maxKeys = 0 := hmax
        rw [if_pos (Or.inl hmax')]
        exact ⟨_, rfl⟩
      obtain ⟨a, ha⟩ := hrequest
      have hserve : ∀ store' fuel, serve f q.fromJson store' fuel 0 (.respond a) = some a := by
        intro store' fuel
        rw [serve]
      unfold Answered
      rw [ha]
      constructor
      · intro hanswered
        obtain ⟨fuel, a', hrun, hr⟩ := hanswered
        rw [hserve] at hrun
        exact ⟨fuel, a', by rw [hserve]; exact hrun, hr⟩
      · intro hanswered
        obtain ⟨fuel, a', hrun, hr⟩ := hanswered
        rw [hserve] at hrun
        exact ⟨fuel, a', by rw [hserve]; exact hrun, hr⟩
    · have hsteady : q.Steady q.begins f := h.resolve_left hf |>.resolve_left hmax
      have hbegins := beginsWell hs (hsteady.first (by omega))
      have hhonest : Flaky q.index fun _ => nextKeyval q.index := fun k req => Or.inl rfl
      rw [answered_iff hs hsteady hflaky (fun k req _ hle => hle) (by omega) hmax hbegins,
        answered_iff hs hsteady hhonest (fun k req _ hle => hle) (by omega) hmax hbegins]

end

/-! ### Two listings -/

variable {f : Nat} {store : Nat → NextRequest → NextResult}

/-- What is answered does not depend on how long it is waited for. -/
theorem serve_unique {fromJson : Bytes → Option Bytes} {a a' : S3GetBucketAction} :
    ∀ (fuel fuel' k : Nat) (o : Outcome), serve f fromJson store fuel k o = some a →
      serve f fromJson store fuel' k o = some a' → a = a' := by
  intro fuel
  induction fuel with
  | zero =>
    intro fuel' k o h h'
    cases o with
    | respond a₁ =>
      rw [serve] at h h'
      rw [h] at h'
      exact Option.some.inj h'
    | launch a₁ req => cases h
  | succ fuel ih =>
    intro fuel' k o h h'
    cases o with
    | respond a₁ =>
      rw [serve] at h h'
      rw [h] at h'
      exact Option.some.inj h'
    | launch a₁ req =>
      cases fuel' with
      | zero => cases h'
      | succ fuel' => exact ih fuel' (k + 1) _ h h'

variable {q : Listing}

theorem Answered.unique {r r' : Except String S3ObjectListResponse} (h : Answered f q store r)
    (h' : Answered f q store r') : r = r' := by
  obtain ⟨fuel, a, hserve, rfl⟩ := h
  obtain ⟨fuel', a', hserve', rfl⟩ := h'
  rw [serve_unique fuel fuel' 0 _ hserve hserve']

/-- The folder `a/` and a file in it, listed with the folder as the prefix. -/
def folderListing : Listing where
  index := indexOf ["a/", "a/b"]
  fromJson := some
  pfx := ascii "a/"
  delimiter := []
  marker := []
  maxKeys := 1000

/-- The first batch is too large if it may hold several keys. -/
def firstTooLarge (index : List KeyValue) (k : Nat) (req : NextRequest) : NextResult :=
  if k = 0 ∧ 1 < req.count then .failedE2big else nextKeyval index req

/-- When the first batch is too large, the folder is not listed. -/
theorem not_retriesChangeNothing_folder :
    ¬ ∀ (f : Nat) (q : Listing), OrderedIndex.Sorted q.index → RetriesChangeNothing f q := by
  intro h
  have hflaky : Flaky folderListing.index (firstTooLarge folderListing.index) := by
    intro k req
    unfold firstTooLarge
    by_cases hk : k = 0 ∧ 1 < req.count
    · rw [if_pos hk]
      exact Or.inr ⟨rfl, hk.2⟩
    · rw [if_neg hk]
      exact Or.inl rfl
  have hlost : Answered 30 folderListing (firstTooLarge folderListing.index)
      (.ok { objectList := [ascii "a/b"], keyCount := 1 }) :=
    ⟨3, _, rfl, by decide⟩
  have hwhole : Answered 30 folderListing (fun _ => nextKeyval folderListing.index)
      (.ok { objectList := [ascii "a/", ascii "a/b"], keyCount := 2 }) :=
    ⟨3, _, rfl, by decide⟩
  have hsame := (h 30 folderListing (by decide) _ hflaky _).mp hlost
  have heq := Except.ok.inj (hsame.unique hwhole)
  exact absurd heq (by decide)

/-- Two keys with a common prefix and one without. -/
def sharedListing : Listing where
  index := indexOf ["a/x", "a/y", "b"]
  fromJson := some
  pfx := []
  delimiter := ascii "/"
  marker := []
  maxKeys := 1000

/-- Where the listing stands, one step after the other. -/
def sharedReadings : List Reading :=
  [ ⟨indexOf ["a/x", "a/y", "b"], {}⟩,
    ⟨indexOf ["b"], { commonPrefixes := [ascii "a/"] }⟩,
    ⟨[], { objectList := [ascii "b"], commonPrefixes := [ascii "a/"] }⟩ ]

/-- A step stays among some places, and neither rolls a key up again nor fills the page with a key
listed by itself. -/
def Listing.staysPlain (q : Listing) (places : List Reading) (s : Reading) : Bool :=
  (match q.read s with
    | .next s' => s' ∈ places
    | .done _ => true) &&
  match s.rem with
  | [] => true
  | kv :: _ =>
    match q.role kv with
    | .listed name => (s.found.addObject name).resultCount ≠ q.maxKeys
    | .rolled c => !s.found.commonPrefixes.contains c
    | _ => true

theorem steady_of_staysPlain {places : List Reading} {n : Nat} (hbegins : q.begins ∈ places)
    (h : ∀ s ∈ places, q.staysPlain places s = true) (hfirst : q.pfx = []) :
    q.Steady q.begins n := by
  have hcomes : ∀ s, q.Comes q.begins s → s ∈ places := by
    intro s hs
    refine hs.invariant (I := fun s => s ∈ places) ?_ hbegins
    intro s s' hmem hnext
    have hplain := (Bool.and_eq_true_iff.mp (h s hmem)).1
    rw [hnext] at hplain
    exact of_decide_eq_true hplain
  refine ⟨fun _ hp => absurd hfirst hp, ?_, ?_⟩
  · intro _ kv rest found name hs hrole hfull
    have hplain := (Bool.and_eq_true_iff.mp (h _ (hcomes _ hs))).2
    dsimp only at hplain
    rw [hrole] at hplain
    exact absurd hfull (of_decide_eq_true hplain)
  · intro kv rest found c hs hrole hknown
    have hplain := (Bool.and_eq_true_iff.mp (h _ (hcomes _ hs))).2
    dsimp only at hplain
    rw [hrole] at hplain
    exact absurd hknown (by simpa using hplain)

/-- Keys that are rolled up and keys that are not. -/
theorem retriesChangeNothing_shared :
    (OrderedIndex.Sorted sharedListing.index ∧ sharedListing.Steady sharedListing.begins 30) ∧
      RetriesChangeNothing 30 sharedListing := by
  have hsteady : sharedListing.Steady sharedListing.begins 30 :=
    steady_of_staysPlain (by decide : sharedListing.begins ∈ sharedReadings) (by decide) rfl
  exact ⟨⟨by decide, hsteady⟩,
    retriesChangeNothing_of_steady (by decide) (Or.inr (Or.inr hsteady))⟩

end S3GetBucketAction

end CortxS3
