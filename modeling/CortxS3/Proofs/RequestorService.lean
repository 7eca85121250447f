/-
What the authentication cache may be trusted with.

A requestor that is returned should be the owner of the key that the request named, a key that
was in the directory and active within the last `cacheTimeout` seconds; and the holder of a
temporary key should have shown its token, before it expired.

The cache keeps the first of these, since an entry is only made of what a lookup has just found.
It does not keep the second: the token and the expiry are checked by the request that makes the
entry, and not by those that find it.  And the first is not safe either: the id goes into the
search filter as it came, so the id `*` names whatever key the server finds first.

`Careful` is an event that does neither.  The invariant (`Inv`) says of every entry of the map
which directory vouches for it.
-/
import CortxS3.Auth.RequestorService

namespace CortxS3

open List

namespace GlobalDataStore

/-- At this time a directory had an active key with this id, and the requestor was its owner. -/
def Vouched (seen : List (Nat × Directory)) (accessKeyId : Bytes) (time : Nat)
    (requestor : Requestor) : Prop :=
  ∃ d, (time, d) ∈ seen ∧ requestor.accessKey ∈ d.accessKeys ∧
    requestor.accessKey.accessKeyId = accessKeyId ∧ requestor.accessKey.active = true ∧
      (requestor.accountName, requestor.user) ∈ d.users ∧
        requestor.user.userId = requestor.accessKey.userId

/-- The request has shown the token of a temporary key, and the key has not expired. -/
def ShowsToken (accessKey : AccessKeyEntry) (request : ClientRequestToken) (now : Nat) : Prop :=
  ∀ p ∈ accessKey.temporary, request.securityToken = some p.1 ∧ now ≤ p.2
deriving Decidable

/-- The time is within the last `cacheTimeout` seconds before `now`, or is `now`. -/
def Recent (cacheTimeout time now : Nat) : Prop :=
  time = now ∨ time ≤ now ∧ now < time + 1000 * cacheTimeout

/-- What a requestor that is returned stands for. -/
structure Honest (cacheTimeout : Nat) (seen : List (Nat × Directory)) (a : Answer) : Prop where
  vouched : ∃ time, Recent cacheTimeout time a.time ∧
    Vouched seen a.request.accessKeyId time a.requestor
  token : ShowsToken a.requestor.accessKey a.request a.time

/-- The request names its key by a plain id, and when the answer is in the map it would have
passed the checks that are skipped. -/
def Careful (cacheTimeout : Nat) (s : State) : Event → Prop
  | .request now request _ _ =>
    PlainId request.accessKeyId ∧
      ∀ g ∈ cached cacheTimeout s request.accessKeyId now,
        ShowsToken g.requestor.accessKey request now
  | _ => True

instance instDecidableCareful (cacheTimeout : Nat) (s : State) :
    ∀ e, Decidable (Careful cacheTimeout s e)
  | .request now request _ _ =>
    inferInstanceAs (Decidable (PlainId request.accessKeyId ∧
      ∀ g ∈ cached cacheTimeout s request.accessKeyId now,
        ShowsToken g.requestor.accessKey request now))
  | .change _ _ | .forget _ _ => isTrue trivial

/-- What the LDAP server makes of a filter with a plain id: an entry with this id. -/
def FindsPlain (search : Search) : Prop :=
  ∀ d accessKeyId k, PlainId accessKeyId → search d accessKeyId = some k →
    k ∈ d.accessKeys ∧ k.accessKeyId = accessKeyId

/-! ### A lookup -/

section

variable {search : Search} {d : Directory} {request : ClientRequestToken} {now : Nat}
  {keyFound ownerFound : Bool} {requestor : Requestor}

variable {k : AccessKeyEntry}

theorem findAccessKey_eq_some (hsearch : FindsPlain search) {accessKeyId : Bytes}
    (hplain : PlainId accessKeyId) (h : findAccessKey search d accessKeyId = some k) :
    k ∈ d.accessKeys ∧ k.accessKeyId = accessKeyId := by
  obtain ⟨k', hk', rfl⟩ := Option.map_eq_some_iff.mp h
  obtain ⟨hmem, hid⟩ := hsearch d accessKeyId k' hplain hk'
  rw [← hid]
  exact ⟨hmem, rfl⟩

theorem findRequestor_eq_some (h : findRequestor d k = some requestor) :
    requestor.accessKey = k ∧ (requestor.accountName, requestor.user) ∈ d.users ∧
      requestor.user.userId = k.userId := by
  obtain ⟨u, hu, rfl⟩ := Option.map_eq_some_iff.mp h
  exact ⟨rfl, mem_of_find?_eq_some hu, by simpa using List.find?_some hu⟩

theorem validateRequestor_eq_ok (h : validateRequestor requestor request now = .ok ()) :
    ShowsToken requestor.accessKey request now := by
  unfold validateRequestor at h
  intro p hp
  rw [Option.mem_def] at hp
  simp only [hp] at h
  by_cases htoken : request.securityToken ≠ some p.1
  · rw [if_pos htoken] at h
    cases h
  · rw [if_neg htoken] at h
    by_cases hexpired : p.2 < now
    · rw [if_pos hexpired] at h
      cases h
    · exact ⟨not_not.mp htoken, Nat.le_of_not_lt hexpired⟩

/-- **What a lookup returns the directory vouches for.** -/
theorem lookUp_eq_ok (hsearch : FindsPlain search) (hplain : PlainId request.accessKeyId)
    (h : lookUp search d request now keyFound ownerFound = .ok requestor)
    {seen : List (Nat × Directory)} (hseen : (now, d) ∈ seen) :
    Vouched seen request.accessKeyId now requestor ∧
      ShowsToken requestor.accessKey request now := by
  unfold lookUp at h
  split at h
  · cases h
  · cases hk : findAccessKey search d request.accessKeyId with
    | none => simp [hk] at h
    | some k =>
      simp only [hk] at h
      split at h
      · cases h
      · rename_i hactive
        split at h
        · cases h
        · cases hr : findRequestor d k with
          | none => simp [hr] at h
          | some r =>
            simp only [hr] at h
            cases hv : validateRequestor r request now with
            | error e => simp [hv] at h
            | ok u =>
              simp only [hv, Except.ok.injEq] at h
              subst h
              obtain ⟨hmem, hid⟩ := findAccessKey_eq_some hsearch hplain hk
              obtain ⟨hkey, huser, howner⟩ := findRequestor_eq_some hr
              refine ⟨⟨d, hseen, ?_⟩, validateRequestor_eq_ok hv⟩
              rw [hkey]
              exact ⟨hmem, hid, by simpa using hactive, huser, howner⟩

end

/-! ### The invariant -/

/-- Every entry of the map was vouched for when it was made, and every answer is honest. -/
structure Inv (cacheTimeout : Nat) (s : State) : Prop where
  entries : ∀ accessKeyId g, s.authenticationMap accessKeyId = some g →
    g.creationTime ≤ s.now ∧ Vouched s.seen accessKeyId g.creationTime g.requestor
  answers : ∀ a ∈ s.answers, Honest cacheTimeout s.seen a

variable {accessKeyId : Bytes} {requestor : Requestor} {seen seen' : List (Nat × Directory)}

theorem Vouched.mono (hsub : seen ⊆ seen') {time : Nat}
    (h : Vouched seen accessKeyId time requestor) : Vouched seen' accessKeyId time requestor := by
  obtain ⟨d, hd, hrest⟩ := h
  exact ⟨d, hsub hd, hrest⟩

variable {cacheTimeout : Nat}

theorem Honest.mono (hsub : seen ⊆ seen') {a : Answer} (h : Honest cacheTimeout seen a) :
    Honest cacheTimeout seen' a := by
  obtain ⟨time, hrecent, hvouched⟩ := h.vouched
  exact ⟨⟨time, hrecent, hvouched.mono hsub⟩, h.token⟩

variable {now : Nat} {s : State}

theorem Inv.tick (h : Inv cacheTimeout s) (hnow : s.now ≤ now) :
    Inv cacheTimeout { s with now := now, seen := s.seen ++ [(now, s.directory)] } := by
  have hsub : s.seen ⊆ s.seen ++ [(now, s.directory)] := subset_append_left _ _
  constructor
  · intro accessKeyId g hg
    obtain ⟨htime, hvouched⟩ := h.entries accessKeyId g hg
    exact ⟨htime.trans hnow, hvouched.mono hsub⟩
  · intro a ha
    exact (h.answers a ha).mono hsub

variable {request : ClientRequestToken}

theorem Inv.answer (h : Inv cacheTimeout s)
    (hhonest : Honest cacheTimeout s.seen ⟨now, request, requestor⟩) :
    Inv cacheTimeout (s.answer now request requestor) := by
  refine ⟨h.entries, ?_⟩
  intro a ha
  rcases mem_append.mp ha with ha | ha
  · exact h.answers a ha
  · rw [mem_singleton.mp ha]
    exact hhonest

variable {g : GlobalData}

theorem lt_of_fresh (hfresh : g.fresh cacheTimeout now) (hle : g.creationTime ≤ now) :
    now < g.creationTime + 1000 * cacheTimeout := by
  have hlt := (of_decide_eq_true hfresh).2
  rw [Int.tdiv_eq_ediv_of_nonneg (by omega)] at hlt
  omega

theorem cached_eq_some (h : cached cacheTimeout s accessKeyId now = some g) :
    s.authenticationMap accessKeyId = some g ∧ g.fresh cacheTimeout now = true := by
  unfold cached at h
  split at h
  · cases h
  · exact Option.filter_eq_some_iff.mp h

variable {search : Search}

theorem getRequestor_inv (hsearch : FindsPlain search) (h : Inv cacheTimeout s)
    (hnow : s.now = now) (hseen : (now, s.directory) ∈ s.seen) (keyFound ownerFound : Bool)
    (hplain : PlainId request.accessKeyId)
    (hshows : ∀ g ∈ cached cacheTimeout s request.accessKeyId now,
      ShowsToken g.requestor.accessKey request now) :
    Inv cacheTimeout (getRequestor search cacheTimeout s request now keyFound ownerFound) := by
  unfold getRequestor
  cases hc : cached cacheTimeout s request.accessKeyId now with
  | some g =>
    -- the checks are skipped
    obtain ⟨hg, hfresh⟩ := cached_eq_some hc
    obtain ⟨hle, hvouched⟩ := h.entries _ g hg
    rw [hnow] at hle
    exact h.answer ⟨⟨g.creationTime, .inr ⟨hle, lt_of_fresh hfresh hle⟩, hvouched⟩, hshows g hc⟩
  | none =>
    cases hl : lookUp search s.directory request now keyFound ownerFound with
    | error e => exact h
    | ok requestor =>
      obtain ⟨hvouched, htoken⟩ := lookUp_eq_ok hsearch hplain hl hseen
      have hanswer : Inv cacheTimeout (s.answer now request requestor) :=
        h.answer ⟨⟨now, .inl rfl, hvouched⟩, htoken⟩
      simp only
      split
      · exact hanswer
      · refine ⟨?_, hanswer.answers⟩
        intro accessKeyId g hg
        by_cases hid : accessKeyId = request.accessKeyId
        · have hentry : (⟨requestor.accessKey, requestor, now⟩ : GlobalData) = g := by
            rw [hid] at hg
            simpa using hg
          rw [← hentry, hid]
          exact ⟨hnow.ge, hvouched⟩
        · have hg' : s.authenticationMap accessKeyId = some g := by
            simpa [State.answer, Function.update_of_ne hid] using hg
          exact h.entries accessKeyId g hg'

/-- **A careful event keeps the invariant.** -/
theorem step_inv (hsearch : FindsPlain search) {s' : State} (h : Inv cacheTimeout s) {e : Event}
    (hok : Careful cacheTimeout s e) (hs : step search cacheTimeout s e = some s') :
    Inv cacheTimeout s' := by
  unfold step at hs
  by_cases hpast : e.time < s.now
  · rw [if_pos hpast] at hs
    cases hs
  · rw [if_neg hpast] at hs
    have htick := h.tick (Nat.le_of_not_lt hpast)
    cases e with
    | request now request keyFound ownerFound =>
      rw [← Option.some.inj hs]
      refine getRequestor_inv hsearch htick rfl ?_ keyFound ownerFound hok.1 hok.2
      exact mem_append_right _ (mem_singleton.mpr rfl)
    | change now directory =>
      rw [← Option.some.inj hs]
      exact ⟨htick.entries, htick.answers⟩
    | forget now accessKeyId =>
      rw [← Option.some.inj hs]
      refine ⟨?_, htick.answers⟩
      intro id g hg
      by_cases hid : id = accessKeyId
      · simp [hid] at hg
      · have hg' : s.authenticationMap id = some g := by
          simpa [Function.update_of_ne hid] using hg
        exact htick.entries id g hg'

/-- **In a run of careful events every requestor that is returned is the owner of an active key,
and has shown its token.** -/
theorem honest_of_reachable {search : Search} (hsearch : FindsPlain search) (cacheTimeout : Nat)
    (d : Directory) {s : State}
    (h : Runs.Reachable (step search cacheTimeout) (Careful cacheTimeout) { directory := d } s) :
    ∀ a ∈ s.answers, Honest cacheTimeout s.seen a := by
  have hinv : Inv cacheTimeout s := by
    refine h.invariant (P := Inv cacheTimeout) ?_ ?_
    · refine ⟨?_, ?_⟩
      · intro accessKeyId g hg
        cases hg
      · intro a ha
        cases ha
    · intro s e s' hs hok hstep
      exact step_inv hsearch hs hok hstep
  exact hinv.answers

/-- A search that takes the filter literally. -/
def exactSearch : Search := fun d accessKeyId =>
  d.accessKeys.find? fun k => k.accessKeyId = accessKeyId

theorem findsPlain_exactSearch : FindsPlain exactSearch := by
  intro d accessKeyId k _ hk
  exact ⟨mem_of_find?_eq_some hk, by simpa using List.find?_some hk⟩

/-- A temporary key, which expires after an hour. -/
def sessionKey : AccessKeyEntry :=
  { accessKeyId := ascii "AKIASESSION"
    userId := ascii "AIDA1"
    temporary := some (ascii "token", 3600000) }

def sessionDirectory : Directory :=
  { accounts :=
      [{ name := ascii "acme", users := [{ userId := ascii "AIDA1", name := ascii "root" }] }]
    accessKeys := [sessionKey] }

/-- The key is used, and used again with its token. -/
def usedTwice : List Event :=
  [.request 1000 ⟨ascii "AKIASESSION", some (ascii "token")⟩ true true,
    .request 3000 ⟨ascii "AKIASESSION", some (ascii "token")⟩ true true]

theorem honest_of_reachable_usedTwice :
    ∃ s, Runs.run (step exactSearch 10) { directory := sessionDirectory } usedTwice = some s ∧
      s.answers.length = 2 ∧ ∀ a ∈ s.answers, Honest 10 s.seen a := by
  obtain ⟨s, hs, hlength⟩ := Option.map_eq_some_iff.mp (show (Runs.run (step exactSearch 10)
    { directory := sessionDirectory } usedTwice).map (fun s => s.answers.length) = some 2
      by decide +kernel)
  exact ⟨s, hs, hlength, honest_of_reachable findsPlain_exactSearch 10 sessionDirectory
    (Runs.reachable_of_run usedTwice .start (by decide +kernel) hs)⟩

/-- The key is used with its token, and then without. -/
def usedWithoutToken : List Event :=
  [.request 1000 ⟨ascii "AKIASESSION", some (ascii "token")⟩ true true,
    .request 3000 ⟨ascii "AKIASESSION", none⟩ true true]

/-- The second request shows no token, and is taken for the owner of the key all the same. -/
theorem not_honest_withoutToken :
    ¬ ∀ (cacheTimeout : Nat) (d : Directory) (s : State),
      Runs.Reachable (step exactSearch cacheTimeout) (fun _ _ => True) { directory := d } s →
        ∀ a ∈ s.answers, Honest cacheTimeout s.seen a := by
  intro h
  obtain ⟨s, hs, hanswers⟩ := Option.map_eq_some_iff.mp (show (Runs.run (step exactSearch 10)
    { directory := sessionDirectory } usedWithoutToken).map (fun s => s.answers[1]?) =
    some (some ⟨3000, ⟨ascii "AKIASESSION", none⟩,
      ⟨sessionKey, ascii "acme", { userId := ascii "AIDA1", name := ascii "root" }⟩⟩)
      by decide)
  have hreach : Runs.Reachable (step exactSearch 10) (fun _ _ => True)
      { directory := sessionDirectory } s :=
    Runs.reachable_of_run usedWithoutToken .start (by simp [usedWithoutToken, Runs.AllOk]) hs
  have htoken := (h 10 sessionDirectory s hreach _ (mem_of_getElem? hanswers)).token
    (ascii "token", 3600000) rfl
  exact absurd htoken.1 (by decide)

end GlobalDataStore

end CortxS3
