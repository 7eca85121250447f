/-
What a failed creation of a bucket leaves behind.

A save puts the global entry first and removes it again when a later call fails.  One failure is
left out: when an index collides too often, `handle_collision` reports it at once, and the entry
stays. And the collisions are counted with one counter, which begins anew after the object list
index but not after the multipart index, so that the version index may have less than its share.

So a save leaves no trace exactly when its collisions come to an end before that
(`Resolves`).  Where a save is after some answers is said by `StandsAt`.
-/
import CortxS3.Server.BucketMetadataV1

namespace CortxS3

open Option (some.inj)
open List

namespace S3BucketMetadataV1

variable {Account Server : Type} [DecidableEq Server]

/-! ### Answers -/

/-- How many answers in front are collisions. -/
def collisions (replies : List Reply) : Nat := (replies.takeWhile (· = .exists)).length

def afterCollisions (replies : List Reply) : List Reply := replies.dropWhile (· = .exists)

/-- How many of the last answers are collisions. -/
def collisionsInRow (replies : List Reply) : Nat := collisions replies.reverse

/-- The object list index collides no more often than it is retried, and so do the multipart and the
version index together. -/
def Resolves : List Reply → Prop
  | .ok :: objectList =>
    collisions objectList ≤ maxCollisionRetryCount ∧
      ∀ multipart, afterCollisions objectList = .ok :: multipart →
        collisions multipart ≤ maxCollisionRetryCount ∧
          ∀ versions, afterCollisions multipart = .ok :: versions →
            collisions multipart + collisions versions ≤ maxCollisionRetryCount
  | _ => True

theorem collisions_replicate (n : Nat) (rest : List Reply) :
    collisions (List.replicate n .exists ++ rest) = n + collisions rest := by
  induction n with
  | zero => simp
  | succ n ih =>
    unfold collisions at ih ⊢
    rw [replicate_succ, cons_append, takeWhile_cons_of_pos (by simp),
      length_cons, ih]
    omega

theorem afterCollisions_replicate (n : Nat) (rest : List Reply) :
    afterCollisions (List.replicate n .exists ++ .ok :: rest) = .ok :: rest := by
  unfold afterCollisions
  induction n with
  | zero => exact dropWhile_cons_of_neg (by simp)
  | succ n ih =>
    rw [replicate_succ, cons_append, dropWhile_cons_of_pos (by simp), ih]

theorem collisions_exists (rest : List Reply) :
    collisions (.exists :: rest) = 1 + collisions rest :=
  collisions_replicate 1 rest

theorem eq_replicate_append (replies : List Reply) :
    replies = List.replicate (collisions replies) .exists ++ afterCollisions replies := by
  have hall : replies.takeWhile (· = .exists) = List.replicate (collisions replies) .exists := by
    refine eq_replicate_of_mem fun reply hreply => ?_
    simpa using mem_takeWhile_imp hreply
  rw [← hall]
  exact takeWhile_append_dropWhile.symm

variable {n : Nat} {replies : List Reply}

theorem eq_replicate_append_of_lt (h : n < collisions replies) :
    ∃ after, replies = List.replicate n .exists ++ .exists :: after := by
  refine ⟨List.replicate (collisions replies - n - 1) .exists ++ afterCollisions replies, ?_⟩
  have hsum : collisions replies = n + (1 + (collisions replies - n - 1)) := by omega
  conv_lhs => rw [eq_replicate_append replies, hsum, replicate_add, replicate_add]
  simp

/-! ### Where a save is -/

variable {s t t' : State Account Server} {i : Server} {r : Request Account}

theorem request_await (s : State Account Server) (cached : Option Account) (phase : Phase Account) :
    ((s.await i cached r phase).instances i).request = some (r, phase) := by
  simp [State.await]

theorem request_respond (s : State Account Server) (cached : Option Account)
    (response : Response Account) : ((s.respond i cached response).instances i).request = none := by
  simp [State.respond]

/-- The calls behind the first three indexes. -/
def Phase.late : Phase Account → Bool
  | .createIndex .extendedMetadata _ => true
  | .saveBucketInfo => true
  | .cleanupOnCreateErr _ => true
  | _ => false

/-- Which call a save is at when the earlier ones were answered so. -/
inductive At : List Reply → Phase Account → Prop
  | put : At [] .saveGlobalBucketAccountIdInfo
  | objectList (a : Nat) (ha : a ≤ maxCollisionRetryCount) :
      At (.ok :: List.replicate a .exists) (.createIndex .objectList a)
  | multipart (a b : Nat) (hb : b ≤ maxCollisionRetryCount) :
      At (.ok :: (List.replicate a .exists ++ .ok :: List.replicate b .exists))
        (.createIndex .multipart b)
  | versions (a b c : Nat) (hc : b + c ≤ maxCollisionRetryCount) :
      At (.ok :: (List.replicate a .exists ++
          .ok :: (List.replicate b .exists ++ .ok :: List.replicate c .exists)))
        (.createIndex .objectsVersionList (b + c))
  | late (before : List Reply) (phase : Phase Account) (h : phase.late = true) : At before phase

def StandsAt (s : State Account Server) (i : Server) (r : Request Account) (before : List Reply) :
    Prop :=
  ∃ phase, (s.instances i).request = some (r, phase) ∧ At before phase

theorem replicate_snoc (n : Nat) :
    List.replicate n Reply.exists ++ [.exists] = List.replicate (n + 1) .exists :=
  replicate_succ'.symm

variable {index : Index}

theorem createIndex_exists (hindex : index ≠ .extendedMetadata) (hn : n < maxCollisionRetryCount) :
    createIndex s i r index n .exists = s.await i none r (.createIndex index (n + 1)) := by
  unfold createIndex
  simp only
  rw [if_neg hindex, if_pos hn]

theorem createIndex_exhausted (hindex : index ≠ .extendedMetadata)
    (hn : ¬ n < maxCollisionRetryCount) :
    createIndex s i r index n .exists = s.respond i none (.error r.account .InternalError) := by
  unfold createIndex
  simp only
  rw [if_neg hindex, if_neg hn]

variable {before : List Reply} {phase : Phase Account}

theorem standsAt_await {s' : State Account Server} {cached : Option Account} (h : At before phase) :
    StandsAt (s'.await i cached r phase) i r before :=
  ⟨phase, request_await s' cached phase, h⟩

variable {reply : Reply}

theorem standsAt_createIndex (hindex : index ≠ .extendedMetadata)
    (hok : At (before ++ [.ok]) (afterIndex index n : Phase Account))
    (hexists : n < maxCollisionRetryCount →
      At (before ++ [.exists]) (.createIndex index (n + 1) : Phase Account)) :
    ((createIndex s i r index n reply).instances i).request = none ∨
      StandsAt (createIndex s i r index n reply) i r (before ++ [reply]) := by
  cases reply with
  | ok => exact Or.inr (standsAt_await hok)
  | «exists» =>
    by_cases hn : n < maxCollisionRetryCount
    · rw [createIndex_exists hindex hn]
      exact Or.inr (standsAt_await (hexists hn))
    · rw [createIndex_exhausted hindex hn]
      exact Or.inl (request_respond s none _)
  | failed | failedToLaunch => exact Or.inr (standsAt_await (.late _ _ rfl))

theorem Resolves.lt {after : List Reply} (h : Resolves (before ++ .exists :: after))
    (hat : At before (.createIndex index n : Phase Account)) (hindex : index ≠ .extendedMetadata) :
    n < maxCollisionRetryCount := by
  cases hat with
  | objectList _ ha =>
    rw [cons_append] at h
    have hle := h.1
    rw [collisions_replicate, collisions_exists] at hle
    omega
  | multipart a _ hb =>
    rw [cons_append, append_assoc, cons_append] at h
    have hle := (h.2 _ (afterCollisions_replicate a _)).1
    rw [collisions_replicate, collisions_exists] at hle
    omega
  | versions a b c hc =>
    rw [cons_append, append_assoc, cons_append, append_assoc, cons_append] at h
    have hle := (h.2 _ (afterCollisions_replicate a _)).2 _ (afterCollisions_replicate b _)
    have hzero : collisions (.ok :: (List.replicate c .exists ++ .exists :: after)) = 0 := rfl
    rw [collisions_replicate, collisions_replicate, collisions_exists, hzero] at hle
    omega
  | late before phase hlate =>
    cases index with
    | extendedMetadata => exact absurd rfl hindex
    | objectList | multipart | objectsVersionList => cases hlate

theorem responses_createIndex
    (h : reply = .exists → index = .extendedMetadata ∨ n < maxCollisionRetryCount) :
    (createIndex s i r index n reply).responses = s.responses := by
  cases reply with
  | ok => rfl
  | «exists» =>
    by_cases hindex : index = .extendedMetadata
    · unfold createIndex
      simp only [if_pos hindex]
      rfl
    · rw [createIndex_exists hindex ((h rfl).resolve_left hindex)]
      rfl
  | failed | failedToLaunch => rfl

theorem responses_ne {l : List (Response Account)} (response : Response Account)
    (h : l = l ++ [response]) : False := by
  have := congrArg List.length h
  rw [length_append, length_singleton] at this
  omega

/-! ### A save on its own -/

variable [DecidableEq Account]

/-- The system when the calls of `i` were answered so, and no other server has done anything. -/
def answered (s : State Account Server) (i : Server) (replies : List Reply) :
    Option (State Account Server) :=
  Runs.run step s (replies.map fun reply => ⟨i, .reply reply⟩)

theorem answered_cons (s : State Account Server) (i : Server) (reply : Reply)
    (replies : List Reply) :
    answered s i (reply :: replies) =
      (step s ⟨i, .reply reply⟩).bind fun t => answered t i replies := rfl

theorem answered_append (hbefore : answered s i before = some t) (after : List Reply) :
    answered s i (before ++ after) = answered t i after := by
  induction before generalizing s with
  | nil =>
    obtain rfl := some.inj hbefore
    rfl
  | cons reply before ih =>
    rw [answered_cons] at hbefore
    obtain ⟨s₁, hs₁, hrest⟩ := Option.bind_eq_some_iff.mp hbefore
    rw [cons_append, answered_cons, hs₁]
    exact ih hrest

theorem step_reply (h : (s.instances i).request = some (r, phase)) (reply : Reply) :
    step s ⟨i, .reply reply⟩ = some (onReply s i r reply phase) := by
  simp [step, h]

/-- Whenever the save fails after its put, the global entry is gone, if only the removal succeeds;
and an index that has collided less often than it may is tried again. -/
structure LeavesNoTrace (s : State Account Server) (i : Server) (r : Request Account)
    (replies : List Reply) : Prop where
  removed : ∀ before reply after t t' phase code, replies = before ++ reply :: after →
    before ≠ [] → answered s i before = some t → (t.instances i).request = some (r, phase) →
      ((∃ code, phase = .cleanupOnCreateErr code) → reply = .ok) →
        step t ⟨i, .reply reply⟩ = some t' →
          t'.responses = t.responses ++ [.error r.account code] → t'.globalBucketList = none
  retried : ∀ before after t t' index n, replies = before ++ .exists :: after →
    answered s i before = some t → (t.instances i).request = some (r, .createIndex index n) →
      index ≠ .extendedMetadata → collisionsInRow before < maxCollisionRetryCount →
        step t ⟨i, .reply .exists⟩ = some t' →
          ∃ m, (t'.instances i).request = some (r, .createIndex index m)

theorem standsAt_late (h : phase.late = true) (reply : Reply) :
    ((onReply s i r reply phase).instances i).request = none ∨
      StandsAt (onReply s i r reply phase) i r before := by
  cases phase with
  | createIndex index n =>
    cases index with
    | extendedMetadata =>
      cases reply with
      | ok | «exists» | failed | failedToLaunch => exact Or.inr (standsAt_await (.late _ _ rfl))
    | objectList | multipart | objectsVersionList => cases h
  | saveBucketInfo =>
    show ((saveBucketInfo s i r reply).instances i).request = none ∨
      StandsAt (saveBucketInfo s i r reply) i r before
    unfold saveBucketInfo
    split
    · exact Or.inl (request_respond _ _ _)
    · exact Or.inr (standsAt_await (.late _ _ rfl))
  | cleanupOnCreateErr code =>
    show ((cleanupOnCreateErr s i r code reply).instances i).request = none ∨
      StandsAt (cleanupOnCreateErr s i r code reply) i r before
    unfold cleanupOnCreateErr
    split
    · exact Or.inl (request_respond _ _ _)
    · exact Or.inl (request_respond _ _ _)
  | fetchGlobalBucketAccountIdInfo | loadBucketInfo owner | saveGlobalBucketAccountIdInfo
  | emptyBucket owner | removeBucketInfo owner | removeGlobalBucketAccountIdInfo owner => cases h

theorem standsAt_step (h : StandsAt s i r before) (hstep : step s ⟨i, .reply reply⟩ = some t) :
    (t.instances i).request = none ∨ StandsAt t i r (before ++ [reply]) := by
  obtain ⟨phase, hrequest, hat⟩ := h
  rw [step_reply hrequest] at hstep
  obtain rfl := some.inj hstep
  cases hat with
  | put =>
    show ((saveGlobalBucketAccountIdInfo s i r reply).instances i).request = none ∨
      StandsAt (saveGlobalBucketAccountIdInfo s i r reply) i r [reply]
    unfold saveGlobalBucketAccountIdInfo
    split
    · rename_i hok
      rw [hok]
      exact Or.inr (standsAt_await (.objectList 0 (Nat.zero_le _)))
    · exact Or.inl (request_respond _ _ _)
  | objectList a ha =>
    refine standsAt_createIndex (by decide) ?_ fun hlt => ?_
    · exact .multipart a 0 (Nat.zero_le _)
    · rw [cons_append, replicate_snoc]
      exact .objectList (a + 1) hlt
  | multipart a b hb =>
    refine standsAt_createIndex (by decide) ?_ fun hlt => ?_
    · have hbytes : Reply.ok :: (List.replicate a Reply.exists ++
          Reply.ok :: List.replicate b Reply.exists) ++ [Reply.ok] =
          Reply.ok :: (List.replicate a Reply.exists ++
            Reply.ok :: (List.replicate b Reply.exists ++
              Reply.ok :: List.replicate 0 Reply.exists)) := by
        simp
      rw [hbytes]
      exact .versions a b 0 hb
    · have hbytes : Reply.ok :: (List.replicate a Reply.exists ++
          Reply.ok :: List.replicate b Reply.exists) ++ [Reply.exists] =
          Reply.ok :: (List.replicate a Reply.exists ++
            Reply.ok :: List.replicate (b + 1) Reply.exists) := by
        rw [← replicate_snoc]
        simp
      rw [hbytes]
      exact .multipart a (b + 1) hlt
  | versions a b c hc =>
    refine standsAt_createIndex (by decide) (.late _ _ rfl) fun hlt => ?_
    have hbytes : Reply.ok :: (List.replicate a Reply.exists ++
        Reply.ok :: (List.replicate b Reply.exists ++
          Reply.ok :: List.replicate c Reply.exists)) ++ [Reply.exists] =
        Reply.ok :: (List.replicate a Reply.exists ++
          Reply.ok :: (List.replicate b Reply.exists ++
            Reply.ok :: List.replicate (c + 1) Reply.exists)) := by
      rw [← replicate_snoc]
      simp
    rw [hbytes]
    exact .versions a b (c + 1) hlt
  | late before phase hlate => exact standsAt_late hlate reply

theorem standsAt_answered :
    ∀ (replies : List Reply) {s : State Account Server} {before : List Reply},
      StandsAt s i r before → answered s i replies = some t →
        (t.instances i).request = none ∨ StandsAt t i r (before ++ replies) := by
  intro replies
  induction replies with
  | nil =>
    intro s before h ht
    obtain rfl := some.inj ht
    rw [append_nil]
    exact Or.inr h
  | cons reply replies ih =>
    intro s before h ht
    rw [answered_cons] at ht
    obtain ⟨s₁, hs₁, hrest⟩ := Option.bind_eq_some_iff.mp ht
    rcases standsAt_step h hs₁ with hnone | h₁
    · -- nothing more is answered
      cases replies with
      | nil =>
        obtain rfl := some.inj hrest
        exact Or.inl hnone
      | cons reply' replies =>
        rw [answered_cons] at hrest
        simp [step, hnone] at hrest
    · have := ih h₁ hrest
      rw [append_assoc] at this
      exact this

/-! ### Collisions that come to an end -/

theorem globalBucketList_of_error {after : List Reply} {code : S3ErrorCode}
    (hresolves : Resolves (before ++ reply :: after)) (hbefore : before ≠ [])
    (hat : At before phase) (hremoval : (∃ code, phase = .cleanupOnCreateErr code) → reply = .ok)
    (herror : (onReply s i r reply phase).responses = s.responses ++ [.error r.account code]) :
    (onReply s i r reply phase).globalBucketList = none := by
  -- the creation of an index ends in no response
  have hindex : ∀ index n, phase ≠ .createIndex index n := by
    rintro index n rfl
    refine responses_ne (l := s.responses) (.error r.account code) ?_
    refine (responses_createIndex fun hexists => ?_).symm.trans herror
    by_cases hext : index = .extendedMetadata
    · exact Or.inl hext
    · subst hexists
      exact Or.inr (hresolves.lt hat hext)
  cases hat with
  | put => exact absurd rfl hbefore
  | objectList a ha | multipart a b hb | versions a b c hc => exact absurd rfl (hindex _ _)
  | late before phase hlate =>
    cases phase with
    | createIndex index n => exact absurd rfl (hindex _ _)
    | saveBucketInfo =>
      change (saveBucketInfo s i r reply).responses = _ at herror
      unfold saveBucketInfo at herror
      split at herror
      · have hresponse := append_cancel_left herror
        cases singleton_inj.mp hresponse
      · exact absurd herror (responses_ne _)
    | cleanupOnCreateErr code' =>
      show (cleanupOnCreateErr s i r code' reply).globalBucketList = none
      unfold cleanupOnCreateErr
      rw [if_pos (hremoval ⟨_, rfl⟩)]
      rfl
    | fetchGlobalBucketAccountIdInfo | loadBucketInfo owner | saveGlobalBucketAccountIdInfo
    | emptyBucket owner | removeBucketInfo owner | removeGlobalBucketAccountIdInfo owner =>
      cases hlate

theorem at_of_answered (hstart : (s.instances i).request = some (r, .saveGlobalBucketAccountIdInfo))
    (ht : answered s i before = some t) (hrequest : (t.instances i).request = some (r, phase)) :
    At before phase := by
  rcases standsAt_answered before ⟨_, hstart, .put⟩ ht with hnone | ⟨phase', hrequest', hat⟩
  · rw [hnone] at hrequest
    cases hrequest
  · rw [hrequest] at hrequest'
    cases hrequest'
    exact hat

theorem leavesNoTrace_of_resolves
    (hstart : (s.instances i).request = some (r, .saveGlobalBucketAccountIdInfo))
    (h : Resolves replies) : LeavesNoTrace s i r replies where
  removed := by
    intro before reply after t t' phase code hreplies hbefore ht hrequest hremoval hstep herror
    rw [step_reply hrequest] at hstep
    obtain rfl := some.inj hstep
    rw [hreplies] at h
    exact globalBucketList_of_error h hbefore (at_of_answered hstart ht hrequest) hremoval herror
  retried := by
    intro before after t t' index n hreplies ht hrequest hindex _ hstep
    rw [step_reply hrequest] at hstep
    obtain rfl := some.inj hstep
    rw [hreplies] at h
    refine ⟨n + 1, ?_⟩
    show ((createIndex t i r index n .exists).instances i).request = _
    rw [createIndex_exists hindex (h.lt (at_of_answered hstart ht hrequest) hindex)]
    exact request_await _ _ _

/-! ### Collisions that do not -/

/-- The save waits for the creation of an index, and its entry is in the global bucket list. -/
structure Creating (s : State Account Server) (i : Server) (r : Request Account) (index : Index)
    (n : Nat) : Prop where
  request : (s.instances i).request = some (r, .createIndex index n)
  entry : s.globalBucketList = some r.account

theorem Creating.collide (h : Creating s i r index n) (hindex : index ≠ .extendedMetadata) (k : Nat)
    (hk : n + k ≤ maxCollisionRetryCount) :
    ∃ t, answered s i (List.replicate k .exists) = some t ∧ Creating t i r index (n + k) := by
  induction k generalizing s n with
  | zero => exact ⟨s, rfl, h⟩
  | succ k ih =>
    have hone : step s ⟨i, .reply .exists⟩ =
        some (s.await i none r (.createIndex index (n + 1))) := by
      rw [step_reply h.request]
      exact congrArg some (createIndex_exists hindex (by omega))
    obtain ⟨t, ht, hcreating⟩ := ih (s := s.await i none r (.createIndex index (n + 1)))
      (n := n + 1) ⟨request_await _ _ _, h.entry⟩ (by omega)
    refine ⟨t, ?_, ?_⟩
    · rw [replicate_succ, answered_cons, hone]
      exact ht
    · rw [show n + (k + 1) = n + 1 + k by omega]
      exact hcreating

theorem Creating.next {index' : Index} {n' : Nat} (h : Creating s i r index n)
    (hindex : index ≠ .extendedMetadata) (k : Nat) (hk : n + k ≤ maxCollisionRetryCount)
    (hnext : (afterIndex index (n + k) : Phase Account) = .createIndex index' n') :
    ∃ t, answered s i (List.replicate k .exists ++ [.ok]) = some t ∧ Creating t i r index' n' := by
  obtain ⟨t, ht, hcreating⟩ := h.collide hindex k hk
  refine ⟨t.await i none r (.createIndex index' n'), ?_, ⟨request_await _ _ _, hcreating.entry⟩⟩
  rw [answered_append ht, answered_cons, step_reply hcreating.request, ← hnext]
  rfl

/-- The save gives up, and its entry stays. -/
theorem Creating.not_leavesNoTrace (h : Creating t i r index maxCollisionRetryCount)
    (hindex : index ≠ .extendedMetadata) (ht : answered s i before = some t) (hbefore : before ≠ [])
    (after : List Reply) : ¬ LeavesNoTrace s i r (before ++ .exists :: after) := by
  intro hno
  have hstep := step_reply h.request .exists
  have hgives : onReply t i r .exists (.createIndex index maxCollisionRetryCount) =
      t.respond i none (.error r.account .InternalError) :=
    createIndex_exhausted hindex (Nat.lt_irrefl _)
  rw [hgives] at hstep
  have hnone := hno.removed before .exists after t _ _ .InternalError rfl hbefore ht h.request
    (fun ⟨code, hcode⟩ => by cases hcode) hstep rfl
  have hentry : t.globalBucketList = none := hnone
  rw [h.entry] at hentry
  cases hentry

/-- Too many collisions for what is left of the counter. -/
theorem Creating.not_leavesNoTrace_of_lt {rest : List Reply} (h : Creating t i r index n)
    (hindex : index ≠ .extendedMetadata) (ht : answered s i before = some t) (hbefore : before ≠ [])
    (hn : n ≤ maxCollisionRetryCount) (hlt : maxCollisionRetryCount < n + collisions rest) :
    ¬ LeavesNoTrace s i r (before ++ rest) := by
  have hleft : maxCollisionRetryCount - n < collisions rest := by omega
  obtain ⟨after, hafter⟩ := eq_replicate_append_of_lt hleft
  obtain ⟨u, hu, hcreating⟩ := h.collide hindex (maxCollisionRetryCount - n) (by omega)
  rw [Nat.add_sub_cancel' hn] at hcreating
  rw [hafter, ← append_assoc]
  refine hcreating.not_leavesNoTrace hindex ?_ (by simp [hbefore]) after
  rw [answered_append ht]
  exact hu

theorem resolves_of_leavesNoTrace
    (hstart : (s.instances i).request = some (r, .saveGlobalBucketAccountIdInfo))
    (h : LeavesNoTrace s i r replies) : Resolves replies := by
  cases replies with
  | nil => trivial
  | cons reply objectList =>
    cases reply with
    | «exists» | failed | failedToLaunch => trivial
    | ok =>
      obtain ⟨t, ht, hfirst⟩ : ∃ t, answered s i [.ok] = some t ∧ Creating t i r .objectList 0 := by
        refine ⟨_, ?_, ⟨request_await { s with globalBucketList := some r.account } none _, rfl⟩⟩
        rw [answered_cons, step_reply hstart]
        rfl
      have hobjectList : collisions objectList ≤ maxCollisionRetryCount := by
        by_contra hgt
        exact hfirst.not_leavesNoTrace_of_lt (by decide) ht (cons_ne_nil _ _) (Nat.zero_le _)
          (by omega) h
      refine ⟨hobjectList, fun multipart hmultipart => ?_⟩
      obtain ⟨u, hu, hsecond⟩ := hfirst.next (by decide) (collisions objectList)
        (by rw [Nat.zero_add]; exact hobjectList) rfl
      have hbeforeMultipart : Reply.ok :: objectList =
          [Reply.ok] ++ (List.replicate (collisions objectList) Reply.exists ++ [Reply.ok]) ++
            multipart := by
        conv_lhs => rw [eq_replicate_append objectList, hmultipart]
        simp
      rw [hbeforeMultipart] at h
      have hreached : answered s i
          ([Reply.ok] ++ (List.replicate (collisions objectList) Reply.exists ++ [Reply.ok])) =
            some u := by
        rw [answered_append ht]
        exact hu
      have hmultipartLe : collisions multipart ≤ maxCollisionRetryCount := by
        by_contra hgt
        exact hsecond.not_leavesNoTrace_of_lt (by decide) hreached (cons_ne_nil _ _)
          (Nat.zero_le _) (by omega) h
      refine ⟨hmultipartLe, fun versions hversions => ?_⟩
      obtain ⟨v, hv, hthird⟩ := hsecond.next (by decide) (collisions multipart)
        (by rw [Nat.zero_add]; exact hmultipartLe) rfl
      have hbeforeVersions : multipart =
          (List.replicate (collisions multipart) Reply.exists ++ [Reply.ok]) ++ versions := by
        conv_lhs => rw [eq_replicate_append multipart, hversions]
        simp
      rw [hbeforeVersions, ← append_assoc] at h
      have hreachedVersions : answered s i
          ([Reply.ok] ++ (List.replicate (collisions objectList) Reply.exists ++ [Reply.ok]) ++
            (List.replicate (collisions multipart) Reply.exists ++ [Reply.ok])) = some v := by
        rw [answered_append hreached]
        exact hv
      by_contra hgt
      exact hthird.not_leavesNoTrace_of_lt (by decide) hreachedVersions (cons_ne_nil _ _)
        (by omega) (by omega) h

/-- **A failed save leaves no trace exactly when its collisions come to an end in time.** -/
theorem leavesNoTrace_iff
    (hstart : (s.instances i).request = some (r, .saveGlobalBucketAccountIdInfo))
    (replies : List Reply) : LeavesNoTrace s i r replies ↔ Resolves replies :=
  ⟨resolves_of_leavesNoTrace hstart, leavesNoTrace_of_resolves hstart⟩

/-- One server that is about to put the entry of account 1. -/
def aboutToSave : State Nat Nat :=
  { instances := fun _ => { request := some (⟨.putBucket, 1⟩, .saveGlobalBucketAccountIdInfo) } }

/-- An index collides once, and then the creation of the next one fails. -/
theorem leavesNoTrace_iff_oneCollision :
    LeavesNoTrace aboutToSave 0 ⟨.putBucket, 1⟩ [.ok, .exists, .ok, .failed, .ok] := by
  refine (leavesNoTrace_iff rfl _).mpr ⟨by decide, fun multipart h => ?_⟩
  cases h
  exact ⟨by decide, nofun⟩

/-- The object list index collides once too often: the request fails and the name stays taken. -/
theorem not_leavesNoTrace_collisions :
    ¬ LeavesNoTrace aboutToSave 0 ⟨.putBucket, 1⟩ (.ok :: List.replicate 21 .exists) := by
  intro h
  obtain ⟨t, ht⟩ := Option.isSome_iff_exists.mp (by decide :
    (answered aboutToSave 0 (.ok :: List.replicate 20 .exists)).isSome)
  have hrequest : (answered aboutToSave 0 (.ok :: List.replicate 20 .exists)).map
      (fun t => ((t.instances 0).request, t.globalBucketList)) =
        some (some (⟨.putBucket, 1⟩, .createIndex .objectList 20), some 1) := by
    decide
  rw [ht] at hrequest
  obtain ⟨hcall, hentry⟩ := Prod.mk.inj (some.inj hrequest)
  have hcreating : Creating t 0 ⟨.putBucket, 1⟩ .objectList maxCollisionRetryCount :=
    ⟨hcall, hentry⟩
  exact hcreating.not_leavesNoTrace (by decide) ht (cons_ne_nil _ _) [] h

end S3BucketMetadataV1

end CortxS3
