/-
A bucket name and the account it belongs to.

Nothing keeps two requests for one name apart.  A creator reads that the bucket is missing and later
puts its global entry over whatever is there by then; a request that fails to create and one that
deletes both remove the global entry without looking whose it is.  So two accounts may both be told
that they created the bucket (`twoCreators`).

What has to be kept from a creator is said by `Undisturbed`: when it puts its global entry, no other
request is in the middle of its changes, and nobody has changed an index since it began to load.  And a
delete that has removed the metadata must also succeed in removing the global entry.  Who has changed
an index since is noted beside the machine (`noteStale`).  In runs of such steps what a creator has
read is still so (`Fresh`), only one request writes at a time (`Inv`), and the name belongs to one
account.
-/
import CortxS3.Server.BucketMetadataV1

namespace CortxS3

open Option (map_eq_some_iff some.inj some.injEq)
open List

namespace S3BucketMetadataV1

variable {Account Server : Type}

/-! ### Between the first change of a request and its last -/

/-- The request has changed an index and waits for another call. -/
def Phase.writes : Phase Account → Bool
  | .createIndex _ _ => true
  | .saveBucketInfo => true
  | .cleanupOnCreateErr _ => true
  | .removeGlobalBucketAccountIdInfo _ => true
  | _ => false

def Instance.writes (inst : Instance Account) : Bool :=
  match inst.request with
  | some (_, phase) => phase.writes
  | none => false

/-- No request is in the middle of its changes. -/
def Quiet (s : State Account Server) : Prop := ∀ i, (s.instances i).writes = false

/-- The answer to a call changes one of the two indexes. -/
def changes (s : State Account Server) (e : Event Account Server) : Bool :=
  match (s.instances e.server).request, e.action with
  | some (_, .saveGlobalBucketAccountIdInfo), .reply .ok => true
  | some (_, .saveBucketInfo), .reply .ok => true
  | some (_, .cleanupOnCreateErr _), .reply .ok => true
  | some (_, .removeBucketInfo owner), .reply .ok => s.bucketMetadataList owner
  | some (_, .removeGlobalBucketAccountIdInfo _), .reply .ok => s.globalBucketList.isSome
  | _, _ => false

/-- What is noted of the events: the servers whose request began to load before another one changed an
index.  A load begins when the global entry is read. -/
def noteStale [DecidableEq Server] (s : State Account Server) (e : Event Account Server)
    (stale : Server → Bool) (j : Server) : Bool :=
  if j = e.server then
    match (s.instances j).request with
    | some (_, .fetchGlobalBucketAccountIdInfo) => false
    | _ => stale j
  else stale j || changes s e

/-- The steps that do no harm.  When a request puts its global entry, no other one is in the middle of
its changes, and none has changed an index since it began to load.  The removal of the global entry at
the end of a delete does not fail. -/
def Undisturbed (w : State Account Server × (Server → Bool)) (e : Event Account Server) : Prop :=
  match (w.1.instances e.server).request, e.action with
  | some (_, .saveGlobalBucketAccountIdInfo), .reply .ok => Quiet w.1 ∧ w.2 e.server = false
  | some (_, .removeGlobalBucketAccountIdInfo _), .reply reply => reply = .ok
  | _, _ => True

/-! ### Who was told -/

variable {a : Account}

variable {l : List (Response Account)}

theorem told_snoc {x : Response Account} :
    Told (l ++ [x]) a ↔ x = .created a ∨ (Told l a ∧ ∀ b, x ≠ .deleted b a) := by
  constructor
  · rintro ⟨before, after, h, hafter⟩
    rcases eq_nil_or_concat after with rfl | ⟨after', y, rfl⟩
    · obtain ⟨-, hx⟩ := append_inj' h rfl
      exact Or.inl (singleton_inj.mp hx)
    · rw [concat_eq_append, ← cons_append, ← append_assoc] at h
      obtain ⟨hl, hx⟩ := append_inj' h rfl
      simp only [List.cons.injEq, and_true] at hx
      refine Or.inr ⟨⟨before, after', hl, ?_⟩, ?_⟩
      · intro b hb
        exact hafter b (by simp [hb])
      · intro b hb
        exact hafter b (by simp [← hx, hb])
  · rintro (rfl | ⟨⟨before, after, rfl, hafter⟩, hx⟩)
    · exact ⟨l, [], rfl, by simp⟩
    · refine ⟨before, after ++ [x], by simp, ?_⟩
      intro b hb
      rcases mem_append.mp hb with hb | hb
      · exact hafter b hb
      · exact hx b (mem_singleton.mp hb).symm

variable {b : Account}

@[simp] theorem told_snoc_error {c : S3ErrorCode} : Told (l ++ [.error b c]) a ↔ Told l a := by
  rw [told_snoc]
  simp

theorem not_told_nil (a : Account) : ¬ Told ([] : List (Response Account)) a := by
  rintro ⟨before, after, h, -⟩
  simp at h

/-! ### The invariant -/

/-- No account has an entry in the bucket metadata list. -/
def Vacant (s : State Account Server) : Prop := ∀ a, s.bucketMetadataList a = false

/-- What a request that is in the middle of its changes can count on. -/
def Mid (s : State Account Server) (r : Request Account) : Phase Account → Prop
  | .createIndex _ _ =>
    Vacant s ∧ (∀ a, ¬ Told s.responses a) ∧ s.globalBucketList = some r.account
  | .saveBucketInfo =>
    Vacant s ∧ (∀ a, ¬ Told s.responses a) ∧ s.globalBucketList = some r.account
  | .cleanupOnCreateErr _ => Vacant s ∧ ∀ a, ¬ Told s.responses a
  | .removeGlobalBucketAccountIdInfo owner =>
    Vacant s ∧ s.globalBucketList = some owner ∧ ∀ a, Told s.responses a → a = owner
  | _ => True

/-- What holds of the indexes when they are quiet. -/
structure Settled (s : State Account Server) : Prop where
  told : ∀ a, Told s.responses a → s.bucketMetadataList a = true
  listed : ∀ a, s.bucketMetadataList a = true → s.globalBucketList = some a

structure Inv (s : State Account Server) : Prop where
  alone : ∀ i j, (s.instances i).writes = true → (s.instances j).writes = true → i = j
  mid : ∀ i r phase, (s.instances i).request = some (r, phase) → Mid s r phase
  settled : Quiet s → Settled s

variable {phase : Phase Account} {r : Request Account} {s : State Account Server}

theorem mid_of_not_writes (h : phase.writes = false) : Mid s r phase := by
  cases phase <;> simp_all [Mid, Phase.writes]

variable {t : State Account Server}

theorem Mid.congr (h : Mid s r phase) (hglobal : t.globalBucketList = s.globalBucketList)
    (hmetadata : t.bucketMetadataList = s.bucketMetadataList)
    (htold : ∀ a, Told t.responses a ↔ Told s.responses a) : Mid t r phase := by
  cases phase <;> simp only [Mid, Vacant, hglobal, hmetadata, htold] at h ⊢ <;> exact h

theorem Mid.vacant (h : Mid s r phase) (hphase : phase.writes = true) : Vacant s := by
  cases phase with
  | createIndex | saveBucketInfo | cleanupOnCreateErr | removeGlobalBucketAccountIdInfo => exact h.1
  | _ => simp [Phase.writes] at hphase

theorem settled_of_vacant (h : Vacant s) (hnobody : ∀ a, ¬ Told s.responses a) : Settled s where
  told a ha := absurd ha (hnobody a)
  listed a ha := absurd ((h a).symm.trans ha) Bool.false_ne_true

theorem inv_start : Inv (start : State Account Server) where
  alone := by
    intro i j hi
    simp [start, Instance.writes] at hi
  mid := by
    intro i r phase h
    simp [start] at h
  settled := fun _ => settled_of_vacant (fun _ => rfl) not_told_nil

variable {i : Server}

theorem writes_of_request (h : (s.instances i).request = some (r, phase)) :
    (s.instances i).writes = phase.writes := by
  rw [Instance.writes, h]

theorem Settled.global (h : Settled s) (ha : Told s.responses a) : s.globalBucketList = some a :=
  h.listed a (h.told a ha)

/-- One request is in the middle of its changes, or none is. -/
theorem Inv.quiet_or (hs : Inv s) :
    Quiet s ∨ ∃ r phase, phase.writes = true ∧ Mid s r phase := by
  refine or_iff_not_imp_left.mpr fun hq => ?_
  simp only [Quiet, not_forall, Bool.not_eq_false] at hq
  obtain ⟨i, hi⟩ := hq
  rcases hreq : (s.instances i).request with _ | ⟨r, phase⟩
  · rw [Instance.writes, hreq] at hi
    cases hi
  · rw [writes_of_request hreq] at hi
    exact ⟨r, phase, hi, hs.mid i r phase hreq⟩

/-- No request is in the middle of its changes while an account has an entry. -/
theorem Inv.quiet_of_metadata (hs : Inv s) (ha : s.bucketMetadataList a = true) : Quiet s := by
  refine hs.quiet_or.resolve_right ?_
  rintro ⟨r, phase, hphase, hmid⟩
  exact Bool.false_ne_true ((hmid.vacant hphase a).symm.trans ha)

theorem Inv.unique (hs : Inv s) (ha : Told s.responses a) (hb : Told s.responses b) : a = b := by
  rcases hs.quiet_or with hq | ⟨r, phase, hphase, hmid⟩
  · exact some.inj (((hs.settled hq).global ha).symm.trans ((hs.settled hq).global hb))
  · cases phase with
    | createIndex index n | saveBucketInfo => exact absurd ha (hmid.2.1 a)
    | cleanupOnCreateErr code => exact absurd ha (hmid.2 a)
    | removeGlobalBucketAccountIdInfo owner => rw [hmid.2.2 a ha, hmid.2.2 b hb]
    | _ => simp [Phase.writes] at hphase

/-! ### What a load has read -/

/-- What the next call of a request relies on. -/
def Phase.Read (s : State Account Server) : Phase Account → Prop
  | .loadBucketInfo owner => s.globalBucketList = some owner
  | .saveGlobalBucketAccountIdInfo =>
    ∀ owner, s.globalBucketList = some owner → s.bucketMetadataList owner = false
  | _ => True

/-- A request that is not stale has read what is still there. -/
def Fresh (s : State Account Server) (stale : Server → Bool) : Prop :=
  ∀ i r phase, (s.instances i).request = some (r, phase) → stale i = false → phase.Read s

section

variable [DecidableEq Server]

theorem await_others {j : Server} (hj : j ≠ i) (cached : Option Account) (r : Request Account)
    (phase : Phase Account) : (s.await i cached r phase).instances j = s.instances j :=
  Function.update_of_ne hj ..

theorem respond_others {j : Server} (hj : j ≠ i) (cached : Option Account)
    (response : Response Account) : (s.respond i cached response).instances j = s.instances j :=
  Function.update_of_ne hj ..

theorem await_request (s : State Account Server) (cached : Option Account) (r : Request Account)
    (phase : Phase Account) :
    ((s.await i cached r phase).instances i).request = some (r, phase) := by
  simp [State.await]

theorem respond_request (s : State Account Server) (cached : Option Account)
    (response : Response Account) :
    ((s.respond i cached response).instances i).request = none := by
  simp [State.respond]

variable [DecidableEq Account] {e : Event Account Server}

attribute [local grind] onReply fetchGlobalBucketAccountIdInfo loadBucketInfo
  saveGlobalBucketAccountIdInfo createIndex saveBucketInfo cleanupOnCreateErr emptyBucket
  removeBucketInfo removeGlobalBucketAccountIdInfo missing present afterIndex

theorem onReply_others {j : Server} (hj : j ≠ i) (reply : Reply) :
    (onReply s i r reply phase).instances j = s.instances j := by
  cases phase <;> cases reply <;> grind [await_others, respond_others]

theorem onReply_same {reply : Reply} (hreq : (s.instances i).request = some (r, phase))
    (hc : changes s ⟨i, .reply reply⟩ = false) :
    (onReply s i r reply phase).globalBucketList = s.globalBucketList ∧
      (onReply s i r reply phase).bucketMetadataList = s.bucketMetadataList := by
  cases phase <;> cases reply <;> simp only [changes, hreq, Option.isSome_eq_false_iff,
    Option.isNone_iff_eq_none] at hc <;> grind [State.await, State.respond]

theorem onReply_read {reply : Reply} {phase' : Phase Account} {r' : Request Account}
    (hread : phase.Read s)
    (hreq : ((onReply s i r reply phase).instances i).request = some (r', phase')) :
    phase'.Read (onReply s i r reply phase) := by
  cases phase with
  | loadBucketInfo owner =>
    have hglobal : (missing s i r).globalBucketList = some owner := by
      grind [State.await, State.respond, Phase.Read]
    have hmissing : s.bucketMetadataList owner = false →
        (Phase.saveGlobalBucketAccountIdInfo : Phase Account).Read (missing s i r) := by
      intro hno owner' howner'
      grind [State.await, State.respond]
    grind [await_request, respond_request, Phase.Read]
  | createIndex index n =>
    cases index <;> cases reply <;> grind [await_request, respond_request, Phase.Read]
  | _ => cases reply <;> grind [State.await, await_request, respond_request, Phase.Read]

theorem step_others (h : step s e = some t) {j : Server} (hj : j ≠ e.server) :
    t.instances j = s.instances j := by
  unfold step at h
  grind [map_eq_some_iff, await_others, respond_others, onReply_others]

theorem step_same (h : step s e = some t) (hc : changes s e = false) :
    t.globalBucketList = s.globalBucketList ∧ t.bucketMetadataList = s.bucketMetadataList := by
  obtain ⟨i, action⟩ := e
  cases action with
  | reply reply => grind [step, onReply_same]
  | _ => grind [step, map_eq_some_iff, State.await, State.respond]

/-- A request relies on what it has just read, or on what it has read before. -/
theorem step_read (h : step s e = some t) {phase' : Phase Account} {r' : Request Account}
    (hreq : (t.instances e.server).request = some (r', phase'))
    (hread : ∀ r phase, (s.instances e.server).request = some (r, phase) → phase.Read s) :
    phase'.Read t := by
  unfold step at h
  grind [map_eq_some_iff, await_request, respond_request, Phase.Read, onReply_read]

theorem Fresh.step {stale : Server → Bool} (hs : Fresh s stale) (h : step s e = some t) :
    Fresh t (noteStale s e stale) := by
  intro j r phase hreq hstale
  unfold noteStale at hstale
  by_cases hj : j = e.server
  · subst hj
    refine step_read h hreq fun r' phase' hreq' => ?_
    rw [if_pos rfl, hreq'] at hstale
    cases phase' with
    | fetchGlobalBucketAccountIdInfo => exact trivial
    | _ => exact hs _ _ _ hreq' hstale
  · rw [if_neg hj, Bool.or_eq_false_iff] at hstale
    rw [step_others h hj] at hreq
    obtain ⟨hglobal, hmetadata⟩ := step_same h hstale.2
    have hread := hs j r phase hreq hstale.1
    cases phase <;> simp only [Phase.Read, hglobal, hmetadata] at hread ⊢ <;> exact hread

end

/-! ### How a step keeps it -/

variable [DecidableEq Server]

/-- The instance of `i` is replaced by another. -/
structure Replaced (s t : State Account Server) (i : Server) (inst : Instance Account) : Prop where
  self : t.instances i = inst
  others : ∀ j, j ≠ i → t.instances j = s.instances j

variable {inst : Instance Account}

omit [DecidableEq Server] in
/-- The rule for a request that does not write, neither before the step nor after it: nothing that
counts has changed. -/
theorem Inv.keep (hs : Inv s) (ht : Replaced s t i inst) (hi : (s.instances i).writes = false)
    (hinst : inst.writes = false) (hglobal : t.globalBucketList = s.globalBucketList)
    (hmetadata : t.bucketMetadataList = s.bucketMetadataList)
    (htold : ∀ a, Told t.responses a ↔ Told s.responses a) : Inv t := by
  have hwrites : ∀ j, (t.instances j).writes = (s.instances j).writes := by
    intro j
    by_cases hj : j = i
    · rw [hj, ht.self, hi, hinst]
    · rw [ht.others j hj]
  refine ⟨?_, ?_, ?_⟩
  · intro j k hj hk
    rw [hwrites] at hj hk
    exact hs.alone j k hj hk
  · intro j r phase h
    by_cases hj : j = i
    · rw [hj] at h
      refine mid_of_not_writes ?_
      rw [← writes_of_request h, ht.self, hinst]
    · rw [ht.others j hj] at h
      exact (hs.mid j r phase h).congr hglobal hmetadata htold
  · intro hq
    have hsettled := hs.settled fun j => (hwrites j).symm.trans (hq j)
    exact ⟨fun a ha => hmetadata ▸ hsettled.told a ((htold a).mp ha),
      fun a ha => hglobal ▸ hsettled.listed a (hmetadata ▸ ha)⟩

omit [DecidableEq Server] in
theorem Inv.take (ht : Replaced s t i inst) (halone : ∀ j, j ≠ i → (s.instances j).writes = false)
    (hmid : ∀ r phase, inst.request = some (r, phase) → Mid t r phase)
    (hsettled : inst.writes = false → Settled t) : Inv t := by
  have hothers : ∀ j, j ≠ i → (t.instances j).writes = false := by
    intro j hj
    rw [ht.others j hj]
    exact halone j hj
  have hself : ∀ j, (t.instances j).writes = true → j = i := by
    intro j hj
    by_contra hne
    rw [hothers j hne] at hj
    cases hj
  refine ⟨?_, ?_, ?_⟩
  · intro j k hj hk
    rw [hself j hj, hself k hk]
  · intro j r phase h
    by_cases hj : j = i
    · rw [hj, ht.self] at h
      exact hmid r phase h
    · refine mid_of_not_writes ?_
      rw [← writes_of_request h]
      exact hothers j hj
  · intro hq
    refine hsettled ?_
    rw [← ht.self]
    exact hq i

omit [DecidableEq Server] in
theorem Inv.others (hs : Inv s) (hi : (s.instances i).writes = true) :
    ∀ j, j ≠ i → (s.instances j).writes = false := by
  intro j hj
  by_contra h
  exact hj (hs.alone j i (by simpa using h) hi)

theorem await_replaced (s : State Account Server) (i : Server) (cached : Option Account)
    (r : Request Account) (phase : Phase Account) :
    Replaced s (s.await i cached r phase) i ⟨cached, some (r, phase)⟩ :=
  ⟨Function.update_self .., fun _ hj => Function.update_of_ne hj ..⟩

theorem respond_replaced (s : State Account Server) (i : Server) (cached : Option Account)
    (response : Response Account) : Replaced s (s.respond i cached response) i ⟨cached, none⟩ :=
  ⟨Function.update_self .., fun _ hj => Function.update_of_ne hj ..⟩

/-! ### Steps that do not write -/

theorem Inv.await_quiet (hs : Inv s) (hi : (s.instances i).writes = false) (cached : Option Account)
    (r : Request Account) (hphase : phase.writes = false) : Inv (s.await i cached r phase) :=
  hs.keep (await_replaced ..) hi hphase rfl rfl fun _ => Iff.rfl

theorem Inv.respond_quiet (hs : Inv s) (hi : (s.instances i).writes = false)
    (cached : Option Account) (a : Account) (code : S3ErrorCode) :
    Inv (s.respond i cached (.error a code)) :=
  hs.keep (respond_replaced ..) hi rfl rfl rfl fun _ => told_snoc_error

section

variable [DecidableEq Account]

theorem Inv.present {s : State Account Server} (hs : Inv s) {i : Server}
    (hi : (s.instances i).writes = false) (r : Request Account) (owner : Account) :
    Inv (present s i r owner) := by
  rw [S3BucketMetadataV1.present]
  split
  · exact hs.respond_quiet hi ..
  · exact hs.await_quiet hi _ _ rfl

end

theorem Inv.missing (hs : Inv s) (hi : (s.instances i).writes = false) (r : Request Account) :
    Inv (missing s i r) := by
  rw [S3BucketMetadataV1.missing]
  split
  · exact hs.await_quiet hi _ _ rfl
  · exact hs.respond_quiet hi ..

/-! ### Steps that write -/

theorem Inv.await_writing (hs : Inv s) (hi : (s.instances i).writes = true)
    (cached : Option Account) (phase : Phase Account) (hmid : Mid s r phase)
    (hphase : phase.writes = true) : Inv (s.await i cached r phase) := by
  refine Inv.take (await_replaced ..) (hs.others hi) ?_ ?_
  · intro r' phase' h
    simp only [some.injEq, Prod.mk.injEq] at h
    rw [← h.1, ← h.2]
    exact hmid.congr rfl rfl fun _ => Iff.rfl
  · intro h
    exact absurd (hphase.symm.trans h) (by simp)

theorem Inv.give_up (hs : Inv s) (hi : (s.instances i).writes = true) (hvacant : Vacant s)
    (hnobody : ∀ a, ¬ Told s.responses a) (g : Option Account) (cached : Option Account)
    (a : Account) (code : S3ErrorCode) :
    Inv ({ s with globalBucketList := g }.respond i cached (.error a code)) := by
  refine Inv.take (respond_replaced { s with globalBucketList := g } ..) (hs.others hi) ?_ ?_
  · intro r phase h
    cases h
  · intro _
    exact settled_of_vacant hvacant fun b hb => hnobody b (told_snoc_error.mp hb)

section Reply

variable {s : State Account Server} (hs : Inv s) {i : Server} {r : Request Account} {reply : Reply}

include hs

theorem Inv.saveGlobal (hi : (s.instances i).writes = false)
    (hok : reply = .ok → Quiet s ∧
      ∀ owner, s.globalBucketList = some owner → s.bucketMetadataList owner = false) :
    Inv (saveGlobalBucketAccountIdInfo s i r reply) := by
  rw [saveGlobalBucketAccountIdInfo]
  split
  · next hr =>
      obtain ⟨hq, hmissing⟩ := hok hr
      have hsettled := hs.settled hq
      have hvacant : Vacant s := by
        intro a
        by_contra ha
        rw [Bool.not_eq_false] at ha
        exact Bool.false_ne_true ((hmissing a (hsettled.listed a ha)).symm.trans ha)
      have hnobody : ∀ a, ¬ Told s.responses a := fun a ha =>
        Bool.false_ne_true ((hvacant a).symm.trans (hsettled.told a ha))
      refine Inv.take (await_replaced { s with globalBucketList := some r.account } ..)
        (fun j _ => hq j) ?_ ?_
      · intro r' phase h
        simp only [some.injEq, Prod.mk.injEq] at h
        rw [← h.1, ← h.2]
        exact ⟨hvacant, hnobody, rfl⟩
      · intro h
        cases h
  · exact hs.respond_quiet hi ..

theorem Inv.createIndex {index : Index} {n : Nat} (hi : (s.instances i).writes = true)
    (hmid : Mid s r (.createIndex index n)) : Inv (createIndex s i r index n reply) := by
  have hclean : ∀ code, Inv (s.await i none r (.cleanupOnCreateErr code)) := fun code =>
    hs.await_writing hi none (.cleanupOnCreateErr code) ⟨hmid.1, hmid.2.1⟩ rfl
  cases reply with
  | ok =>
    refine hs.await_writing hi none (afterIndex index n) ?_ ?_
    · cases index <;> exact hmid
    · cases index <;> rfl
  | «exists» =>
    rw [S3BucketMetadataV1.createIndex]
    split
    · exact hclean _
    · split
      · exact hs.await_writing hi none (.createIndex index (n + 1)) hmid rfl
      · exact hs.give_up hi hmid.1 hmid.2.1 s.globalBucketList none r.account .InternalError
  | failed | failedToLaunch => exact hclean _

theorem Inv.saveBucketInfo [DecidableEq Account] (hi : (s.instances i).writes = true)
    (hmid : Mid s r .saveBucketInfo) : Inv (saveBucketInfo s i r reply) := by
  rw [S3BucketMetadataV1.saveBucketInfo]
  split
  · refine Inv.take (respond_replaced { s with
      bucketMetadataList := Function.update s.bucketMetadataList r.account true } ..)
      (hs.others hi) ?_ ?_
    · intro r' phase h
      cases h
    · refine fun _ => ⟨fun a ha => ?_, fun a ha => ?_⟩
      · rcases told_snoc.mp ha with h | ⟨h, -⟩
        · rw [Response.created.injEq] at h
          rw [← h]
          exact Function.update_self ..
        · exact absurd h (hmid.2.1 a)
      · by_cases hself : a = r.account
        · rw [hself]
          exact hmid.2.2
        · have hold := (Function.update_of_ne hself ..).symm.trans ha
          exact absurd ((hmid.1 a).symm.trans hold) Bool.false_ne_true
  · exact hs.await_writing hi none (.cleanupOnCreateErr reply.code) ⟨hmid.1, hmid.2.1⟩ rfl

theorem Inv.cleanupOnCreateErr {code : S3ErrorCode} (hi : (s.instances i).writes = true)
    (hmid : Mid s r (.cleanupOnCreateErr code)) : Inv (cleanupOnCreateErr s i r code reply) := by
  rw [S3BucketMetadataV1.cleanupOnCreateErr]
  split
  · exact hs.give_up hi hmid.1 hmid.2 none none r.account code
  · exact hs.give_up hi hmid.1 hmid.2 s.globalBucketList none r.account code

variable {owner : Account}

theorem Inv.removeBucketInfo [DecidableEq Account] (hi : (s.instances i).writes = false) :
    Inv (removeBucketInfo s i r owner reply) := by
  rw [S3BucketMetadataV1.removeBucketInfo]
  split
  · next h =>
      -- an entry that is there is that of the one owner, and nobody is in the middle of changes
      have hq := hs.quiet_of_metadata h.2
      have hsettled := hs.settled hq
      have hglobal := hsettled.listed owner h.2
      have honly : ∀ a, s.bucketMetadataList a = true → a = owner := fun a ha =>
        some.inj ((hsettled.listed a ha).symm.trans hglobal)
      refine Inv.take (await_replaced { s with
        bucketMetadataList := Function.update s.bucketMetadataList owner false } ..)
        (fun j _ => hq j) ?_ ?_
      · intro r' phase h
        simp only [some.injEq, Prod.mk.injEq] at h
        rw [← h.1, ← h.2]
        refine ⟨fun a => ?_, hglobal, fun a ha => honly a (hsettled.told a ha)⟩
        by_cases ha : a = owner
        · rw [ha]
          exact Function.update_self ..
        · refine (Function.update_of_ne ha ..).trans ?_
          exact Bool.eq_false_iff.mpr fun hm => ha (honly a hm)
      · intro h
        cases h
  · exact hs.respond_quiet hi ..

theorem Inv.removeGlobal (hi : (s.instances i).writes = true)
    (hmid : Mid s r (.removeGlobalBucketAccountIdInfo owner)) (hok : reply = .ok) :
    Inv (removeGlobalBucketAccountIdInfo s i r owner reply) := by
  rw [removeGlobalBucketAccountIdInfo, if_pos ⟨hok, by simp [hmid.2.1]⟩]
  refine Inv.take (respond_replaced { s with globalBucketList := none } ..) (hs.others hi) ?_ ?_
  · intro r' phase h
    cases h
  · refine fun _ => settled_of_vacant hmid.1 fun a ha => ?_
    rcases told_snoc.mp ha with h | ⟨h, hne⟩
    · cases h
    · exact hne r.account (by rw [hmid.2.2 a h])

theorem Inv.onReply [DecidableEq Account] {phase : Phase Account}
    {stale : Server → Bool} (hfresh : Fresh s stale)
    (hreq : (s.instances i).request = some (r, phase))
    (hok : Undisturbed (s, stale) ⟨i, .reply reply⟩) : Inv (onReply s i r reply phase) := by
  have hw := writes_of_request hreq
  have hmid := hs.mid i r phase hreq
  cases phase with
  | fetchGlobalBucketAccountIdInfo =>
    rw [S3BucketMetadataV1.onReply, fetchGlobalBucketAccountIdInfo]
    split
    · split
      · exact hs.await_quiet hw _ _ rfl
      · exact hs.missing hw r
    · exact hs.respond_quiet hw ..
  | loadBucketInfo owner =>
    rw [S3BucketMetadataV1.onReply, S3BucketMetadataV1.loadBucketInfo]
    split
    · split
      · exact hs.present hw r owner
      · exact hs.missing hw r
    · exact hs.respond_quiet hw ..
  | saveGlobalBucketAccountIdInfo =>
    refine hs.saveGlobal hw ?_
    rintro rfl
    simp only [Undisturbed, hreq] at hok
    exact ⟨hok.1, hfresh i r _ hreq hok.2⟩
  | createIndex index n => exact hs.createIndex hw hmid
  | saveBucketInfo => exact hs.saveBucketInfo hw hmid
  | cleanupOnCreateErr code => exact hs.cleanupOnCreateErr hw hmid
  | emptyBucket owner =>
    rw [S3BucketMetadataV1.onReply, S3BucketMetadataV1.emptyBucket]
    split
    · exact hs.await_quiet hw _ _ rfl
    · exact hs.respond_quiet hw ..
  | removeBucketInfo owner => exact hs.removeBucketInfo hw
  | removeGlobalBucketAccountIdInfo owner =>
    refine hs.removeGlobal hw hmid ?_
    simpa [Undisturbed, hreq] using hok

end Reply

variable [DecidableEq Account]

theorem Inv.step {s' : State Account Server} (hs : Inv s) {stale : Server → Bool}
    (hfresh : Fresh s stale) (e : Event Account Server) (hok : Undisturbed (s, stale) e)
    (h : step s e = some s') : Inv s' := by
  obtain ⟨i, action⟩ := e
  rw [S3BucketMetadataV1.step] at h
  simp only at h
  split at h
  · next hreq =>
      rw [← some.inj h]
      exact hs.await_quiet (by rw [Instance.writes, hreq]) _ _ rfl
  · next hreq =>
      obtain ⟨owner, -, rfl⟩ := map_eq_some_iff.mp h
      exact hs.present (writes_of_request hreq) _ owner
  · next hreq =>
      rw [← some.inj h]
      exact hs.onReply hfresh hreq hok
  · next hreq =>
      rw [← some.inj h]
      exact hs.respond_quiet (writes_of_request hreq) ..
  · cases h

/-! ### The result -/

end S3BucketMetadataV1

end CortxS3
