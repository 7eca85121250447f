/-
Every call of the cache is answered once.

A `Session` is the cache together with what its clients see: the calls they made, the operations
that ended, and the replies.  A call is known by its number, the number of the event it is, and
brings that number as its handler.

A fetch need not wait for the load that it launches.  While a value is still good but ought to be
refreshed, the cache keeps one fetch waiting for the load and answers every other one from what it
has; and it is the oldest one that it answers.  So what is promised is this (`AnsweredOnce`): the
replies and the handlers that still wait are together the calls, each once; a handler that waits
waits for an operation in flight on its bucket, or is about to be called; and a reply is a refusal,
or what the cache has of the bucket, or what an operation on the bucket came to that ended after
the call (`Warranted`).

`Careful` leaves out what goes wrong otherwise: an entry that is destroyed although it is still
needed, and a modification out of the loop that answers for another one.
-/
import CortxS3.Proofs.BucketMetadataContainers

namespace CortxS3

open Option (bind_some map_eq_some_iff map_some some.inj some.injEq toList_some)
open List

namespace S3BucketMetadataCache

/-! ### What the clients see -/

/-- A call: when it was made, what for, and where `on_done` stood. -/
structure Call where
  number : Nat
  op : EngineOp
  src : S3BucketMetadata
  control : Control
deriving DecidableEq

def Call.bucket (call : Call) : Bytes := call.src.bucketName

/-- An operation that ended, with what its engine then held. -/
structure Ended where
  engine : Engine
  time : Nat
deriving DecidableEq

structure Reply where
  answer : Answer
  time : Nat
deriving DecidableEq

/-- The event with its number for the handler. -/
def Event.numbered (number : Nat) : Event → Event
  | .fetch src _ now => .fetch src number now
  | .save src _ now => .save src number now
  | .update src _ now => .update src number now
  | .remove src _ now => .remove src number now
  | e => e

/-- What the event asks for, if it is a call. -/
def Event.asks : Event → Option (EngineOp × S3BucketMetadata)
  | .fetch src _ _ => some (.load, src)
  | .save src _ _ => some (.save, src)
  | .update src _ _ => some (.update, src)
  | .remove src _ _ => some (.remove, src)
  | _ => none

/-- The call that an event is. -/
def called (c : S3BucketMetadataCache) (e : Event) : List Call :=
  (e.asks.map fun asked => ⟨c.clock, asked.1, asked.2, c.control⟩).toList

/-- The operation that an event ends. -/
def endedBy (c : S3BucketMetadataCache) : Event → List Ended
  | .loadDone bucket state content _ =>
    (((c.items.lookup bucket).bind Item.engineLoad).map
      fun e => ⟨e.ended state content, c.clock⟩).toList
  | .modifyDone bucket state content _ =>
    (((c.items.lookup bucket).bind Item.engineModify).map
      fun e => ⟨e.ended state content, c.clock⟩).toList
  | _ => []

structure Session where
  cache : S3BucketMetadataCache
  calls : List Call := []
  ended : List Ended := []
  replies : List Reply := []

/-- One event, and what it brings. -/
def Session.step (s : Session) (e : Event) : Option Session :=
  (s.cache.step (e.numbered s.cache.clock)).map fun c =>
    { cache := c
      calls := s.calls ++ s.cache.called e
      ended := s.ended ++ s.cache.endedBy e
      replies := s.replies ++
        (c.answers.drop s.cache.answers.length).map fun answer => ⟨answer, s.cache.clock⟩ }

/-- The handlers that an entry has still to call. -/
def Item.owes (it : Item) : List Handler := it.fetchWaiters ++ it.onChanged.toList

/-- The handlers that are still to be called. -/
def pending (items : AList fun _ : Bytes => Item) : List Handler :=
  items.entries.flatMap fun p => p.2.owes

/-- Metadata that an operation came to, or that a call brought. -/
def Produced (calls : List Call) (ended : List Ended) (v : S3BucketMetadata) (time : Nat) : Prop :=
  (∃ x ∈ ended, x.engine.metadata = v ∧ x.time ≤ time) ∨
    ∃ call ∈ calls, call.src = v ∧ call.number ≤ time

/-- Why a call gets a reply. -/
inductive Warranted (calls : List Call) (ended : List Ended) (call : Call) (r : Reply) : Prop
  /-- At once, and nothing was launched. -/
  | refused (htime : r.time = call.number) (hstate : r.answer.state = .failedToLaunch)
  /-- A fetch, out of what the cache has, when a fetch of the same bucket comes. -/
  | cached (v : S3BucketMetadata) (hop : call.op = .load) (hstate : r.answer.state = v.state)
      (hvalue : r.answer.value = some v) (hpresent : v.state = .present)
      (hbucket : v.bucketName = call.bucket) (hproduced : Produced calls ended v r.time)
      (hfetch : ∃ other ∈ calls, other.op = .load ∧ other.bucket = call.bucket ∧
        other.number = r.time)
  /-- A fetch, by an operation on its bucket that ended after it, or whose handlers were being
  called when it came. -/
  | joined (x : Ended) (hx : x ∈ ended) (hop : call.op = .load)
      (hbucket : x.engine.metadata.bucketName = call.bucket)
      (hstate : r.answer.state = x.engine.metadata.state)
      (hvalue : r.answer.value = some x.engine.metadata) (htime : x.time ≤ r.time)
      (hafter : call.number < x.time ∨ ∃ id op, call.control =
        .waiters call.bucket id op x.engine.metadata.state)
  /-- A modification, by its own operation. -/
  | own (x : Ended) (hx : x ∈ ended) (hop : call.op ≠ .load)
      (hbucket : x.engine.metadata.bucketName = call.bucket)
      (hlaunched : x.engine.launchedAt = call.number) (hsame : x.engine.op = call.op)
      (hstate : r.answer.state = x.engine.metadata.state) (hvalue : r.answer.value = none)
      (htime : x.time ≤ r.time)

/-- The entry has an operation in flight, or its handlers are being called. -/
def Busy (c : S3BucketMetadataCache) (bucket : Bytes) (it : Item) : Prop :=
  it.canRemove = false ∨ ∃ op state, c.control = .waiters bucket it.id op state

/-- What is promised to the clients. -/
structure AnsweredOnce (s : Session) : Prop where
  alive : s.cache.crashed = false
  numbers : (s.calls.map Call.number).Nodup
  /-- A call has its reply, or it still waits. -/
  once : ((s.replies.map fun r => r.answer.handler) ++ pending s.cache.items).Perm
    (s.calls.map Call.number)
  /-- Who waits, waits for something. -/
  waits : ∀ w ∈ pending s.cache.items, ∃ call ∈ s.calls, call.number = w ∧
    ∃ it, s.cache.items.lookup call.bucket = some it ∧ w ∈ it.owes ∧ Busy s.cache call.bucket it
  /-- When nothing is in flight all have their reply. -/
  settled : s.cache.control = .idle →
    (∀ bucket it, s.cache.items.lookup bucket = some it → it.canRemove = true) →
    (s.replies.map fun r => r.answer.handler).Perm (s.calls.map Call.number)
  warranted : ∀ call ∈ s.calls, ∀ r ∈ s.replies, r.answer.handler = call.number →
    Warranted s.calls s.ended call r

/-! ### The events that go well -/

/-- The bucket that a call modifies. -/
def Event.modifies : Event → Option Bytes
  | .save src _ _ => some src.bucketName
  | .update src _ _ => some src.bucketName
  | .remove src _ _ => some src.bucketName
  | _ => none

/-- `on_done` will come back to the entry of the bucket. -/
def needed (c : S3BucketMetadataCache) (bucket : Bytes) : Bool :=
  match c.control with
  | .idle => false
  | .waiters b _ _ _ => b == bucket
  | .changed b _ op state => b == bucket && decide (Removes op state)

instance instDecidableOutside (c : S3BucketMetadataCache) (bucket : Bytes) :
    Decidable (c.Outside bucket) :=
  decidable_of_iff ((match c.control with
    | .waiters b _ op _ => b == bucket && decide op.isModify
    | _ => false) = false) (by
      unfold Outside
      cases c.control with
      | idle => simp
      | waiters b id op state =>
        simp only [Control.waiters.injEq, Bool.and_eq_false_iff, beq_eq_false_iff_ne,
          decide_eq_false_iff_not]
        constructor
        · rintro h id' op' state' ⟨rfl, rfl, rfl, rfl⟩
          exact h.resolve_left fun hne => hne rfl
        · intro h
          by_cases hb : b = bucket
          · exact .inr (h id op state ⟨hb, rfl, rfl, rfl⟩)
          · exact .inl hb
      | changed b id op state => simp)

/-- The entries in use are spared, and no handler that the end of a modification calls out of its
loop modifies the bucket again. -/
def Careful (c : S3BucketMetadataCache) (e : Event) : Prop :=
  c.Spares e ∧ (∀ bucket ∈ e.modifies, c.Outside bucket) ∧
    ∀ src ∈ e.source, ∀ now ∈ e.now, ∀ bucket ∈ c.victim src now, c.needed bucket = false
deriving Decidable

/-! ### The handlers that wait -/

variable {bucket : Bytes} {it : Item} {items : AList fun _ : Bytes => Item}

theorem entries_perm (h : items.lookup bucket = some it) :
    items.entries.Perm (⟨bucket, it⟩ :: (items.erase bucket).entries) := by
  refine lookup_ext items.nodupKeys ((items.insert bucket it).nodupKeys) ?_
  intro b x
  show x ∈ items.lookup b ↔ x ∈ (items.insert bucket it).lookup b
  by_cases hb : b = bucket
  · rw [hb, h, AList.lookup_insert]
  · rw [AList.lookup_insert_ne hb]

theorem pending_perm (h : items.lookup bucket = some it) :
    (pending items).Perm (it.owes ++ pending (items.erase bucket)) :=
  (entries_perm h).flatMap_right _

theorem pending_insert (items : AList fun _ : Bytes => Item) (bucket : Bytes) (it : Item) :
    pending (items.insert bucket it) = it.owes ++ pending (items.erase bucket) := rfl

theorem pending_erase_of_none (h : items.lookup bucket = none) :
    pending (items.erase bucket) = pending items := by
  have hkeys : bucket ∉ items.entries.keys := notMem_keys_of_lookup h
  show (List.kerase bucket items.entries).flatMap _ = _
  rw [kerase_of_notMem_keys hkeys]
  rfl

theorem pending_put (h : items.lookup bucket = some it) (new : Item)
    (answered called extra : List Handler)
    (hsame : (called ++ new.owes).Perm (answered ++ it.owes ++ extra)) :
    (called ++ pending (items.insert bucket new)).Perm (answered ++ pending items ++ extra) := by
  have hitems := pending_perm h
  rw [pending_insert]
  rw [perm_iff_count] at hsame hitems ⊢
  intro w
  have h₁ := hsame w
  have h₂ := hitems w
  simp only [count_append] at h₁ h₂ ⊢
  omega

theorem mem_pending {w : Handler} (h : w ∈ pending items) :
    ∃ bucket it, items.lookup bucket = some it ∧ w ∈ it.owes := by
  obtain ⟨p, hp, hw⟩ := mem_flatMap.mp h
  exact ⟨p.1, p.2, mem_dlookup items.nodupKeys hp, hw⟩

/-! ### What an entry stands for -/

/-- A modification belongs to the call whose handler is `on_changed`. -/
def Own (calls : List Call) (bucket : Bytes) (it : Item) (e : Engine) : Prop :=
  ∃ call ∈ calls, it.onChanged = some call.number ∧ call.bucket = bucket ∧ call.op ≠ .load ∧
    e.launchedAt = call.number ∧ e.op = call.op

/-- The loop of `on_done` hands out what the operation `x` came to. -/
structure Loop (calls : List Call) (bucket : Bytes) (it : Item) (op : CurrentOp)
    (state : S3BucketMetadataState) (x : Ended) : Prop where
  value : x.engine.metadata = it.value
  state : it.value.state = state
  waiters : ∀ w ∈ it.fetchWaiters, ∃ call ∈ calls, call.number = w ∧ call.bucket = bucket ∧
    call.op = .load ∧ (call.number < x.time ∨
      ∃ id op, call.control = .waiters bucket id op x.engine.metadata.state)
  own : op.isModify → it.engineModify = none ∧ Own calls bucket it x.engine

/-- Whose handlers an entry has, and whose operations. -/
structure Stands (k : Nat) (calls : List Call) (ended : List Ended) (control : Control)
    (bucket : Bytes) (it : Item) : Prop where
  waiters : ∀ w ∈ it.fetchWaiters, ∃ call ∈ calls, call.number = w ∧ call.bucket = bucket ∧
    call.op = .load
  changed : ∀ w, it.onChanged = some w → ∃ call ∈ calls, call.number = w ∧ call.bucket = bucket
  modify : ∀ e, it.engineModify = some e → e.metadata.bucketName = bucket ∧ Own calls bucket it e
  load : ∀ e, it.engineLoad = some e → e.metadata.bucketName = bucket
  current : it.currentOp.isModify → it.engineModify ≠ none
  value : it.value.bucketName = bucket ∧ Produced calls ended it.value k
  loop : ∀ op state, control = .waiters bucket it.id op state →
    ∃ x ∈ ended, x.time ≤ k ∧ Loop calls bucket it op state x

/-- The books of a cache, for the calls with these numbers. -/
structure Desk (k : Nat) (calls : List Call) (ended : List Ended) (numbers : List Handler)
    (c : S3BucketMetadataCache) : Prop where
  alive : c.crashed = false
  stands : ∀ bucket it, c.items.lookup bucket = some it →
    Stands k calls ended c.control bucket it
  inLoop : ∀ bucket id op state, c.control = .waiters bucket id op state →
    ∃ it, c.items.lookup bucket = some it ∧ it.id = id
  inChange : ∀ bucket id op state, c.control = .changed bucket id op state → Removes op state →
    ∃ it, c.items.lookup bucket = some it ∧ it.id = id
  ledger : (c.answers.map Answer.handler ++ pending c.items).Perm numbers

/-- What an event answers is warranted, and the books are kept. -/
structure Served (k : Nat) (calls : List Call) (ended : List Ended) (numbers : List Handler)
    (c c' : S3BucketMetadataCache) : Prop where
  desk : Desk k calls ended numbers c'
  answers : ∃ new, c'.answers = c.answers ++ new ∧ ∀ a ∈ new, ∃ call ∈ calls,
    call.number = a.handler ∧ Warranted calls ended call ⟨a, k⟩

section

variable {k k' : Nat} {calls calls' : List Call} {ended ended' : List Ended}
  {numbers : List Handler} {c c' : S3BucketMetadataCache} {control control' : Control}
  {bucket : Bytes} {it new : Item} {op : CurrentOp} {state : S3BucketMetadataState}

theorem Produced.mono {v : S3BucketMetadata} (h : Produced calls ended v k) (hk : k ≤ k')
    (hcalls : calls ⊆ calls') (hended : ended ⊆ ended') : Produced calls' ended' v k' := by
  rcases h with ⟨x, hx, hv, htime⟩ | ⟨call, hcall, hv, hnumber⟩
  · exact .inl ⟨x, hended hx, hv, htime.trans hk⟩
  · exact .inr ⟨call, hcalls hcall, hv, hnumber.trans hk⟩

theorem Own.mono {e : Engine} (h : Own calls bucket it e) (hcalls : calls ⊆ calls') :
    Own calls' bucket it e := by
  obtain ⟨call, hcall, hrest⟩ := h
  exact ⟨call, hcalls hcall, hrest⟩

theorem Loop.mono {x : Ended} (h : Loop calls bucket it op state x) (hcalls : calls ⊆ calls') :
    Loop calls' bucket it op state x := by
  refine ⟨h.value, h.state, ?_, fun hop => ⟨(h.own hop).1, (h.own hop).2.mono hcalls⟩⟩
  intro w hw
  obtain ⟨call, hcall, hrest⟩ := h.waiters w hw
  exact ⟨call, hcalls hcall, hrest⟩

theorem Stands.mono (h : Stands k calls ended control bucket it) (hk : k ≤ k')
    (hcalls : calls ⊆ calls') (hended : ended ⊆ ended') :
    Stands k' calls' ended' control bucket it := by
  refine ⟨?_, ?_, fun e he => ⟨(h.modify e he).1, (h.modify e he).2.mono hcalls⟩, h.load,
    h.current, ⟨h.value.1, h.value.2.mono hk hcalls hended⟩, ?_⟩
  · intro w hw
    obtain ⟨call, hcall, hrest⟩ := h.waiters w hw
    exact ⟨call, hcalls hcall, hrest⟩
  · intro w hw
    obtain ⟨call, hcall, hrest⟩ := h.changed w hw
    exact ⟨call, hcalls hcall, hrest⟩
  · intro op state hc
    obtain ⟨x, hx, htime, hloop⟩ := h.loop op state hc
    exact ⟨x, hended hx, htime.trans hk, hloop.mono hcalls⟩

theorem Desk.mono (h : Desk k calls ended numbers c) (hk : k ≤ k') (hcalls : calls ⊆ calls')
    (hended : ended ⊆ ended') : Desk k' calls' ended' numbers c :=
  ⟨h.alive, fun b x hx => (h.stands b x hx).mono hk hcalls hended, h.inLoop, h.inChange, h.ledger⟩

theorem Warranted.mono {call : Call} {r : Reply} (h : Warranted calls ended call r)
    (hcalls : calls ⊆ calls') (hended : ended ⊆ ended') : Warranted calls' ended' call r := by
  cases h with
  | refused htime hstate => exact .refused htime hstate
  | cached v hop hstate hvalue hpresent hbucket hproduced hfetch =>
    obtain ⟨other, hother, hrest⟩ := hfetch
    exact .cached v hop hstate hvalue hpresent hbucket
      (hproduced.mono (Nat.le_refl _) hcalls hended) ⟨other, hcalls hother, hrest⟩
  | joined x hx hop hbucket hstate hvalue htime hafter =>
    exact .joined x (hended hx) hop hbucket hstate hvalue htime hafter
  | own x hx hop hbucket hlaunched hsame hstate hvalue htime =>
    exact .own x (hended hx) hop hbucket hlaunched hsame hstate hvalue htime

/-- What no loop works on stands the same whatever is under way elsewhere. -/
theorem Stands.of_not_loop (h : Stands k calls ended control bucket it)
    (hno : ∀ op state, control' ≠ .waiters bucket it.id op state) :
    Stands k calls ended control' bucket it :=
  ⟨h.waiters, h.changed, h.modify, h.load, h.current, h.value,
    fun op state hc => absurd hc (hno op state)⟩

theorem lookup_put {items : AList fun _ : Bytes => Item} {P : Bytes → Item → Prop}
    (hnew : P bucket new) (hrest : ∀ b x, b ≠ bucket → items.lookup b = some x → P b x) :
    ∀ b x, (items.insert bucket new).lookup b = some x → P b x := by
  intro b x hx
  by_cases hb : b = bucket
  · rw [hb, AList.lookup_insert, some.injEq] at hx
    rw [hb, ← hx]
    exact hnew
  · rw [AList.lookup_insert_ne hb] at hx
    exact hrest b x hb hx

variable {id : Nat}

theorem found_put {items : AList fun _ : Bytes => Item} (hl : items.lookup bucket = some it)
    (hid : new.id = it.id) {b : Bytes} (h : ∃ x, items.lookup b = some x ∧ x.id = id) :
    ∃ x, (items.insert bucket new).lookup b = some x ∧ x.id = id := by
  obtain ⟨x, hx, hxid⟩ := h
  by_cases hb : b = bucket
  · rw [hb] at hx ⊢
    rw [hl, some.injEq] at hx
    exact ⟨new, AList.lookup_insert _, by rw [hid, hx, hxid]⟩
  · exact ⟨x, by rw [AList.lookup_insert_ne hb, hx], hxid⟩

section

variable (h : Desk k calls ended numbers c)

include h

/-- **An entry is written again**, and some handlers are called. -/
theorem Desk.put (hl : c.items.lookup bucket = some it)
    (new : Item) (answers : List Answer) (extra : List Handler) (hid : new.id = it.id)
    (hstands : Stands k calls ended c.control bucket new)
    (hledger : (answers.map Answer.handler ++ new.owes).Perm (it.owes ++ extra)) :
    Desk k calls ended (numbers ++ extra)
      { c.put bucket new with answers := c.answers ++ answers } := by
  refine ⟨h.alive, lookup_put hstands fun b x _ hx => h.stands b x hx, ?_, ?_, ?_⟩
  · intro b id op state hc
    exact found_put hl hid (h.inLoop b id op state hc)
  · intro b id op state hc hrem
    exact found_put hl hid (h.inChange b id op state hc hrem)
  · have hput := pending_put hl new (c.answers.map Answer.handler)
      ((c.answers ++ answers).map Answer.handler) extra
    refine (hput ?_).trans (h.ledger.append_right extra)
    rw [map_append, append_assoc, append_assoc]
    exact hledger.append_left _

theorem Desk.write (hl : c.items.lookup bucket = some it)
    (new : Item) (extra : List Handler) (hid : new.id = it.id)
    (hstands : Stands k calls ended c.control bucket new)
    (hledger : new.owes.Perm (it.owes ++ extra)) :
    Desk k calls ended (numbers ++ extra) (c.put bucket new) := by
  have hput := h.put hl new [] extra hid hstands hledger
  rw [append_nil] at hput
  exact hput

theorem Desk.lists (access upd : List Bytes) (nextId : Nat) :
    Desk k calls ended numbers
      { c with sortedByAccess := access, sortedByUpdate := upd, nextId := nextId } :=
  ⟨h.alive, h.stands, h.inLoop, h.inChange, h.ledger⟩

theorem Desk.insert (hl : c.items.lookup bucket = none)
    (howes : new.owes = []) (hstands : ∀ control : Control,
      (∀ op state, control ≠ .waiters bucket new.id op state) →
        Stands k calls ended control bucket new) :
    Desk k calls ended numbers (c.put bucket new) := by
  have hkeep : ∀ b id, (∃ x, c.items.lookup b = some x ∧ x.id = id) →
      ∃ x, (c.items.insert bucket new).lookup b = some x ∧ x.id = id := by
    intro b id hfound
    obtain ⟨x, hx, hxid⟩ := hfound
    have hb : b ≠ bucket := by
      intro hb
      rw [hb, hl] at hx
      cases hx
    exact ⟨x, by rw [AList.lookup_insert_ne hb, hx], hxid⟩
  refine ⟨h.alive, lookup_put (hstands _ ?_) fun b x _ hx => h.stands b x hx, ?_, ?_, ?_⟩
  · intro op state hc
    obtain ⟨x, hx, _⟩ := h.inLoop bucket new.id op state hc
    rw [hl] at hx
    cases hx
  · intro b id op state hc
    exact hkeep b id (h.inLoop b id op state hc)
  · intro b id op state hc hrem
    exact hkeep b id (h.inChange b id op state hc hrem)
  · show (_ ++ pending (c.items.insert bucket new)).Perm numbers
    rw [pending_insert, howes, nil_append, pending_erase_of_none hl]
    exact h.ledger

end

theorem needed_of_inLoop (h : c.control = .waiters bucket id op state) :
    c.needed bucket = true := by
  unfold needed
  rw [h]
  exact beq_self_eq_true bucket

theorem needed_of_inChange (h : c.control = .changed bucket id op state) (hrem : Removes op state) :
    c.needed bucket = true := by
  unfold needed
  rw [h]
  simp [hrem]

theorem Desk.removeItem (h : Desk k calls ended numbers c) (hl : c.items.lookup bucket = some it)
    (hfree : Free it) (hneeded : c.needed bucket = false) :
    Desk k calls ended numbers (c.removeItem bucket) := by
  rw [removeItem_eq hl hfree.canRemove]
  have hkeep : ∀ b id, c.needed b = true → (∃ x, c.items.lookup b = some x ∧ x.id = id) →
      ∃ x, (c.items.erase bucket).lookup b = some x ∧ x.id = id := by
    intro b id hb hfound
    obtain ⟨x, hx, hxid⟩ := hfound
    have hne : b ≠ bucket := by
      intro heq
      rw [heq, hneeded] at hb
      cases hb
    exact ⟨x, by rw [AList.lookup_erase_ne hne, hx], hxid⟩
  have howes : it.owes = [] := by
    unfold Item.owes
    rw [hfree.fetchWaiters, hfree.onChanged]
    rfl
  refine ⟨h.alive, ?_, ?_, ?_, ?_⟩
  · intro b x hx
    by_cases hb : b = bucket
    · have hx' : (c.items.erase bucket).lookup b = some x := hx
      rw [hb, AList.lookup_erase] at hx'
      cases hx'
    · have hx' : (c.items.erase bucket).lookup b = some x := hx
      rw [AList.lookup_erase_ne hb] at hx'
      exact h.stands b x hx'
  · intro b id op state hc
    exact hkeep b id (needed_of_inLoop hc) (h.inLoop b id op state hc)
  · intro b id op state hc hrem
    exact hkeep b id (needed_of_inChange hc hrem) (h.inChange b id op state hc hrem)
  · have hpending := pending_perm hl
    rw [howes, nil_append] at hpending
    exact (hpending.symm.append_left _).trans h.ledger

end

/-! ### Calls -/

section

variable {k : Nat} {calls : List Call} {ended : List Ended} {numbers : List Handler}
  {c c' : S3BucketMetadataCache} {src : S3BucketMetadata} {now : Int} {it : Item} {call : Call}
  {bucket : Bytes}

/-- The entry of a call. -/
structure AtDesk (k : Nat) (calls : List Call) (ended : List Ended) (numbers : List Handler)
    (c c' : S3BucketMetadataCache) (bucket : Bytes) (it : Item) : Prop where
  desk : Desk k calls ended numbers c'
  entry : Entry c c' bucket it
  answers : c'.answers = c.answers
  clock : c'.clock = c.clock

theorem touchItem_desk (h : Desk k calls ended numbers c)
    (hproduced : Produced calls ended src k) (now : Int) :
    Desk k calls ended numbers (c.touchItem src now).1 ∧
      (c.touchItem src now).1.answers = c.answers ∧ (c.touchItem src now).1.clock = c.clock := by
  unfold touchItem
  cases hl : c.items.lookup src.bucketName with
  | some it =>
    have hstands := h.stands src.bucketName it hl
    have hput := h.write hl { it with accessTime := now } [] rfl
      ⟨hstands.waiters, hstands.changed, hstands.modify, hstands.load, hstands.current,
        hstands.value, fun op state hc => by
          obtain ⟨x, hx, htime, hloop⟩ := hstands.loop op state hc
          exact ⟨x, hx, htime, hloop.value, hloop.state, hloop.waiters, hloop.own⟩⟩
      (by rw [append_nil]; exact .refl _)
    rw [append_nil] at hput
    exact ⟨hput.lists _ _ _, rfl, rfl⟩
  | none =>
    refine ⟨(h.insert hl rfl ?_).lists _ _ _, rfl, rfl⟩
    intro control hno
    refine ⟨?_, ?_, ?_, ?_, ?_, ⟨rfl, hproduced⟩, fun op state hc => absurd hc (hno op state)⟩
    · intro w hw
      exact absurd hw not_mem_nil
    · intro w hw
      cases hw
    · intro e he
      cases he
    · intro e he
      cases he
    · intro hc
      rcases hc with hc | hc <;> cases hc

/-- **A call finds its entry, and nobody's handler is lost.** -/
theorem getItem_desk (hkeeps : Keeps c) (h : Desk k calls ended numbers c)
    (hproduced : Produced calls ended src k) (hnow : Before c.items now)
    (hloop : ∀ bucket ∈ c.victim src now, c.inLoop bucket = false)
    (hneeded : ∀ bucket ∈ c.victim src now, c.needed bucket = false)
    (hg : c.getItem src now = some (c', it)) :
    AtDesk k calls ended numbers c c' src.bucketName it := by
  have hentry := getItem_entry hkeeps hnow hloop hg
  rcases getItem_cases hkeeps hg with ⟨heq, _⟩ | ⟨victim, x, hvictim, hx, hxcan, heq⟩
  · rw [Prod.ext_iff] at heq
    obtain ⟨rfl, rfl⟩ := heq
    obtain ⟨hdesk, hanswers, hclock⟩ := touchItem_desk h hproduced now
    exact ⟨hdesk, hentry, hanswers, hclock⟩
  · have hfree := (hkeeps.owed victim x hx).free hx hxcan (hloop victim hvictim)
    have hremoved := h.removeItem hx hfree (hneeded victim hvictim)
    rw [removeItem_eq hx hxcan] at hremoved heq
    rw [Prod.ext_iff] at heq
    obtain ⟨rfl, rfl⟩ := heq
    obtain ⟨hdesk, hanswers, hclock⟩ := touchItem_desk hremoved hproduced now
    exact ⟨hdesk, hentry, hanswers, hclock⟩

theorem Served.refused (h : Desk k calls ended numbers c) (hcall : call ∈ calls)
    (hnumber : call.number = k) (value : Option S3BucketMetadata) :
    Served k calls ended (numbers ++ [call.number]) c
      (c.answer call.number .failedToLaunch value) := by
  refine ⟨⟨h.alive, h.stands, h.inLoop, h.inChange, ?_⟩, [_], rfl, ?_⟩
  · have hledger := h.ledger.append_right [call.number]
    refine List.Perm.trans ?_ hledger
    show ((c.answers ++ [_]).map Answer.handler ++ pending c.items).Perm _
    rw [map_append, append_assoc, append_assoc]
    exact (perm_append_comm).append_left _
  · intro a ha
    rw [mem_singleton.mp ha]
    exact ⟨call, hcall, rfl, .refused hnumber.symm rfl⟩

theorem Served.of_entry (h : Served k calls ended numbers c' c)
    {c₀ : S3BucketMetadataCache} (hanswers : c'.answers = c₀.answers) :
    Served k calls ended numbers c₀ c := by
  refine ⟨h.desk, ?_⟩
  rw [← hanswers]
  exact h.answers

theorem withItem_served {numbers' : List Handler} {refuse : S3BucketMetadataCache}
    (hkeeps : Keeps c) (h : Desk k calls ended numbers c) (hproduced : Produced calls ended src k)
    (hnow : Before c.items now) (hloop : ∀ bucket ∈ c.victim src now, c.inLoop bucket = false)
    (hneeded : ∀ bucket ∈ c.victim src now, c.needed bucket = false)
    (hrefuse : Served k calls ended numbers' c refuse)
    {ask : S3BucketMetadataCache → Item → S3BucketMetadataCache}
    (hask : ∀ c' it, AtDesk k calls ended numbers c c' src.bucketName it →
      Served k calls ended numbers' c' (ask c' it)) :
    Served k calls ended numbers' c (c.withItem src now refuse ask) := by
  unfold withItem
  cases hg : c.getItem src now with
  | none => exact hrefuse
  | some p =>
    obtain ⟨c', it⟩ := p
    have hat := getItem_desk hkeeps h hproduced hnow hloop hneeded hg
    exact (hask c' it hat).of_entry hat.answers

/-- **A fetch**, in the cache that has its entry. -/
theorem itemFetch_served (h : AtDesk k calls ended numbers c c' bucket it) (hcall : call ∈ calls)
    (hnumber : call.number = k) (hop : call.op = .load) (hbucket : call.bucket = bucket)
    (hcontrol : call.control = c.control) :
    Served k calls ended (numbers ++ [call.number]) c' (c'.itemFetch bucket it call.number) := by
  have hl := h.entry.lookup
  have hstands := h.desk.stands bucket it hl
  -- the handlers that wait, with the new one at the end
  have hwaiters : ∀ w ∈ it.fetchWaiters ++ [call.number], ∃ call ∈ calls, call.number = w ∧
      call.bucket = bucket ∧ call.op = .load := by
    intro w hw
    rcases mem_append.mp hw with hw | hw
    · exact hstands.waiters w hw
    · exact ⟨call, hcall, (mem_singleton.mp hw).symm, hbucket, hop⟩
  have hqueue : ∀ ws ⊆ it.fetchWaiters ++ [call.number],
      Stands k calls ended c'.control bucket { it with fetchWaiters := ws } := by
    intro ws hws
    refine ⟨fun w hw => hwaiters w (hws hw), hstands.changed, hstands.modify, hstands.load,
      hstands.current, hstands.value, ?_⟩
    intro op state hc
    obtain ⟨x, hx, htime, hloop⟩ := hstands.loop op state hc
    refine ⟨x, hx, htime, hloop.value, hloop.state, ?_, hloop.own⟩
    intro w hw
    rcases mem_append.mp (hws hw) with hw | hw
    · exact hloop.waiters w hw
    · refine ⟨call, hcall, (mem_singleton.mp hw).symm, hbucket, hop, .inr ⟨it.id, op, ?_⟩⟩
      rw [hcontrol, ← h.entry.control, hloop.value, hloop.state]
      exact hc
  have hall := hqueue _ fun w hw => hw
  unfold itemFetch
  simp only
  split
  · rename_i hfresh
    obtain ⟨w, ws, hws⟩ : ∃ w ws, it.fetchWaiters ++ [call.number] = w :: ws :=
      exists_cons_of_ne_nil (by simp)
    rw [hws, tail_cons, headD_cons]
    have hledger : ([(⟨w, .present, some it.value⟩ : Answer)].map Answer.handler ++
        { it with fetchWaiters := ws }.owes).Perm (it.owes ++ [call.number]) := by
      unfold Item.owes
      show (w :: ws ++ it.onChanged.toList).Perm _
      rw [← hws, append_assoc, append_assoc]
      exact (perm_append_comm).append_left _
    refine ⟨h.desk.put hl _ _ _ rfl (hqueue ws (by rw [hws]; exact subset_cons_self w ws))
      hledger, [_], rfl, ?_⟩
    intro a ha
    rw [mem_singleton.mp ha]
    obtain ⟨other, hother, hw, hsame, hload⟩ := hwaiters w (by rw [hws]; exact mem_cons_self)
    refine ⟨other, hother, hw, .cached it.value hload hfresh.2.2.1.symm rfl hfresh.2.2.1
      (hstands.value.1.trans hsame.symm) hstands.value.2 ⟨call, hcall, hop, ?_, hnumber⟩⟩
    rw [hbucket, hsame]
  · have hledger : { it with fetchWaiters := it.fetchWaiters ++ [call.number] }.owes.Perm
        (it.owes ++ [call.number]) := by
      unfold Item.owes
      show (it.fetchWaiters ++ [call.number] ++ it.onChanged.toList).Perm _
      rw [append_assoc, append_assoc]
      exact (perm_append_comm).append_left _
    split
    · exact ⟨h.desk.write hl _ _ rfl hall hledger, [], (append_nil _).symm,
        fun a ha => absurd ha not_mem_nil⟩
    · rename_i hbusy
      have hfree : it.engineModify = none ∧ it.engineLoad = none := by simpa using hbusy
      refine ⟨h.desk.write hl _ _ rfl
        ⟨hall.waiters, hall.changed, hall.modify, ?_, ?_, hall.value, ?_⟩ hledger, [],
        (append_nil _).symm, fun a ha => absurd ha not_mem_nil⟩
      · intro e he
        rw [← some.inj he]
        exact hstands.value.1
      · intro hc
        rcases hc with hc | hc <;> cases hc
      · intro op state hc
        obtain ⟨x, hx, htime, hloop⟩ := hall.loop op state hc
        exact ⟨x, hx, htime, hloop.value, hloop.state, hloop.waiters, hloop.own⟩

/-- **A modification**, in the cache that has its entry. -/
theorem itemModify_served (h : AtDesk k calls ended numbers c c' bucket it) (hcall : call ∈ calls)
    (hnumber : call.number = k) (hk : c.clock = k) (hop : call.op ≠ .load)
    (hbucket : call.bucket = bucket) (hout : c.Outside bucket) (current : CurrentOp)
    {src : S3BucketMetadata} (hsrc : src.bucketName = bucket) :
    Served k calls ended (numbers ++ [call.number]) c'
      (c'.itemModify bucket it current call.op src call.number) := by
  have hl := h.entry.lookup
  have hstands := h.desk.stands bucket it hl
  have howed := h.entry.keeps.owed bucket it hl
  unfold itemModify
  by_cases hbusy : it.engineModify.isSome = true
  · rw [if_pos hbusy]
    exact Served.refused h.desk hcall hnumber none
  · rw [if_neg hbusy]
    have hnone : it.engineModify = none := by simpa using hbusy
    have hunchanged : it.onChanged = none := by
      by_contra hne
      obtain ⟨op, state, hc, hmod⟩ := howed.changed hnone hne
      rw [h.entry.control] at hc
      exact hout _ op state hc hmod
    obtain ⟨new, hnew⟩ : ∃ new, new = { it with
      currentOp := current
      onChanged := some call.number
      engineModify := some { op := call.op, metadata := src, launchedAt := c'.clock } } := ⟨_, rfl⟩
    rw [← hnew]
    have hledger : new.owes.Perm (it.owes ++ [call.number]) := by
      rw [hnew]
      unfold Item.owes
      rw [hunchanged]
      show (it.fetchWaiters ++ [call.number]).Perm (it.fetchWaiters ++ [] ++ [call.number])
      rw [append_nil]
    refine ⟨h.desk.write hl new _ (by rw [hnew]) ?_ hledger, [], (append_nil _).symm,
      fun a ha => absurd ha not_mem_nil⟩
    rw [hnew]
    refine ⟨hstands.waiters, ?_, ?_, hstands.load, ?_, hstands.value, ?_⟩
    · intro w hw
      exact ⟨call, hcall, some.inj hw, hbucket⟩
    · intro e he
      rw [← some.inj he]
      refine ⟨hsrc, call, hcall, rfl, hbucket, hop, ?_, rfl⟩
      show c'.clock = call.number
      rw [h.clock, hk, hnumber]
    · intro _ hc
      cases hc
    · intro op state hc
      obtain ⟨x, hx, htime, hloop⟩ := hstands.loop op state hc
      refine ⟨x, hx, htime, hloop.value, hloop.state, hloop.waiters, ?_⟩
      intro hmod
      rw [h.entry.control] at hc
      exact absurd hmod (hout _ op state hc)

end

/-! ### The end of an operation -/

/-- `on_done` is at work on an entry, with what the operation `x` came to. -/
structure Draining (k : Nat) (calls : List Call) (ended : List Ended) (numbers : List Handler)
    (c : S3BucketMetadataCache) (bucket : Bytes) (it : Item) (op : CurrentOp)
    (state : S3BucketMetadataState) (x : Ended) : Prop where
  alive : c.crashed = false
  lookup : c.items.lookup bucket = some it
  this : Stands k calls ended .idle bucket it
  others : ∀ b y, b ≠ bucket → c.items.lookup b = some y → Stands k calls ended .idle b y
  mem : x ∈ ended
  time : x.time ≤ k
  loop : Loop calls bucket it op state x
  changed : it.engineModify = none → it.onChanged ≠ none → op.isModify
  ledger : (c.answers.map Answer.handler ++ pending c.items).Perm numbers

section

variable {k : Nat} {calls : List Call} {ended : List Ended} {numbers : List Handler}
  {c c' : S3BucketMetadataCache} {now : Int} {it : Item} {bucket : Bytes} {op : CurrentOp}
  {state : S3BucketMetadataState} {x : Ended}

section

variable (h : Draining k calls ended numbers c bucket it op state x)

include h

/-- A handler is called, and the loop or what follows it goes on with what is left. -/
theorem Draining.serves (control : Control) (new : Item) (answer : Answer)
    (hstands : Stands k calls ended control bucket new)
    (hinLoop : ∀ b id op' state', control = .waiters b id op' state' → b = bucket ∧ id = new.id)
    (hinChange : ∀ b id op' state', control = .changed b id op' state' →
      b = bucket ∧ id = new.id)
    (hledger : (answer.handler :: new.owes).Perm it.owes) {call : Call} (hcall : call ∈ calls)
    (hnumber : call.number = answer.handler) (hwarranted : Warranted calls ended call ⟨answer, k⟩) :
    Served k calls ended numbers c
      { c.put bucket new with answers := c.answers ++ [answer], control := control } := by
  have hfound : ∃ y, (c.items.insert bucket new).lookup bucket = some y ∧ y.id = new.id :=
    ⟨new, AList.lookup_insert _, rfl⟩
  refine ⟨⟨h.alive, lookup_put hstands ?_, ?_, ?_, ?_⟩, [answer], rfl, ?_⟩
  · intro b y hb hy
    refine (h.others b y hb hy).of_not_loop ?_
    intro op' state' hc
    exact hb (hinLoop b y.id op' state' hc).1
  · intro b id op' state' hc
    obtain ⟨rfl, rfl⟩ := hinLoop b id op' state' hc
    exact hfound
  · intro b id op' state' hc _
    obtain ⟨rfl, rfl⟩ := hinChange b id op' state' hc
    exact hfound
  · have hput := pending_put h.lookup new (c.answers.map Answer.handler)
      ((c.answers ++ [answer]).map Answer.handler) []
    rw [append_nil] at hput
    refine (hput ?_).trans (by rw [append_nil]; exact h.ledger)
    rw [map_append, append_assoc]
    exact hledger.append_left _
  · intro a ha
    rw [mem_singleton.mp ha]
    exact ⟨call, hcall, hnumber, hwarranted⟩

theorem Draining.idle : Desk k calls ended numbers { c with control := .idle } := by
  refine ⟨h.alive, ?_, fun _ _ _ _ hc => (by cases hc), fun _ _ _ _ hc => (by cases hc), h.ledger⟩
  intro b y hy
  by_cases hb : b = bucket
  · have heq : some it = some y := by
      rw [← h.lookup, ← hb]
      exact hy
    rw [hb, ← some.inj heq]
    exact h.this
  · exact h.others b y hb hy

/-- **`on_done` calls whoever waits**, with what the operation came to. -/
theorem drain_served
    (hdoomed : it.fetchWaiters = [] → ¬ op.isModify → Removes op state → it.canRemove = true) :
    Served k calls ended numbers c (c.drain bucket it op state) := by
  have hvalue := h.loop.value
  have hstate := h.loop.state
  have hthis := h.this
  unfold drain
  cases hw : it.fetchWaiters with
  | cons w rest =>
    obtain ⟨call, hcall, hnumber, hbucket, hload, hafter⟩ :=
      h.loop.waiters w (by rw [hw]; exact mem_cons_self)
    have hloop : Loop calls bucket { it with fetchWaiters := rest } op state x := by
      refine ⟨hvalue, hstate, ?_, h.loop.own⟩
      intro w' hw'
      exact h.loop.waiters w' (by rw [hw]; exact mem_cons_of_mem _ hw')
    refine h.serves (.waiters bucket it.id op state) { it with fetchWaiters := rest }
      ⟨w, state, some it.value⟩ ⟨?_, hthis.changed, hthis.modify, hthis.load,
        hthis.current, hthis.value, ?_⟩ ?_ (fun _ _ _ _ hc => (by cases hc)) ?_ hcall hnumber ?_
    · intro w' hw'
      exact hthis.waiters w' (by rw [hw]; exact mem_cons_of_mem _ hw')
    · intro op' state' hc
      cases hc
      exact ⟨x, h.mem, h.time, hloop⟩
    · intro b id op' state' hc
      cases hc
      exact ⟨rfl, rfl⟩
    · unfold Item.owes
      rw [hw]
      exact .refl _
    · rw [← hbucket] at hafter
      refine .joined x h.mem hload ?_ ?_ ?_ h.time hafter
      · rw [hvalue, hthis.value.1, hbucket]
      · rw [hvalue, hstate]
      · rw [hvalue]
  | nil =>
    simp only
    by_cases hop : op = .saving ∨ op = .deleting
    · rw [if_pos hop]
      obtain ⟨_, call, hcall, hchanged, hbucket, hmodify, hlaunched, hsame⟩ := h.loop.own hop
      rw [hchanged, assert_of_true (by rfl)]
      refine h.serves (.changed bucket it.id op state)
        { it with fetchWaiters := [], onChanged := none } ⟨call.number, state, none⟩
        ⟨?_, ?_, ?_, hthis.load, hthis.current, hthis.value, fun _ _ hc => (by cases hc)⟩
        (fun _ _ _ _ hc => (by cases hc)) ?_ ?_ hcall rfl ?_
      · intro w hw'
        exact absurd hw' not_mem_nil
      · intro w hw'
        cases hw'
      · intro e he
        have he' : it.engineModify = some e := he
        rw [(h.loop.own hop).1] at he'
        cases he'
      · intro b id op' state' hc
        cases hc
        exact ⟨rfl, rfl⟩
      · unfold Item.owes
        rw [hw, hchanged]
        exact .refl _
      · refine .own x h.mem hmodify ?_ hlaunched hsame ?_ rfl h.time
        · rw [hvalue, hthis.value.1, hbucket]
        · rw [hvalue, hstate]
    · rw [if_neg hop]
      refine ⟨?_, [], ?_, fun a ha => absurd ha not_mem_nil⟩
      · unfold finishDone
        simp only
        by_cases hrem : Removes op state
        · rw [if_pos hrem]
          have hcan := hdoomed hw hop hrem
          refine h.idle.removeItem h.lookup ⟨hcan, hw, ?_⟩ rfl
          by_contra hne
          exact hop (h.changed (engineModify_of_canRemove hcan) hne)
        · rw [if_neg hrem]
          exact h.idle
      · rw [append_nil]
        unfold finishDone
        simp only
        by_cases hrem : Removes op state
        · rw [if_pos hrem]
          have hlookup : ({ c with control := .idle } : S3BucketMetadataCache).items.lookup
            bucket = some it := h.lookup
          rw [removeItem_eq hlookup (hdoomed hw hop hrem)]
        · rw [if_neg hrem]

end

end

section

variable {k : Nat} {calls : List Call} {ended : List Ended} {numbers : List Handler}
  {c c' : S3BucketMetadataCache} {now : Int} {it old : Item} {bucket : Bytes} {e : Engine}

/-- What `on_done` needs to know of the entry it begins with. -/
structure Ends (k : Nat) (calls : List Call) (ended : List Ended) (bucket : Bytes) (old it : Item)
    (e : Engine) : Prop where
  engine : it.engineModify = some e
  load : it.engineLoad = none ∨ it.currentOp.isModify ∧ it.engineLoad = old.engineLoad
  waiters : it.fetchWaiters = old.fetchWaiters
  changed : it.onChanged = old.onChanged
  name : e.metadata.bucketName = bucket
  mem : ⟨e, k⟩ ∈ ended
  before : ∀ call ∈ calls, call.number < k
  own : it.currentOp.isModify → Own calls bucket it e
  others : it.onChanged ≠ none → it.currentOp.isModify

theorem onDone_served (h : Desk k calls ended numbers c) (hl : c.items.lookup bucket = some old)
    (hidle : c.control = .idle) (hends : Ends k calls ended bucket old it e) :
    Served k calls ended numbers c (c.onDone bucket it now) := by
  have hstands := h.stands bucket old hl
  obtain ⟨done, hdone⟩ : ∃ done, done = it.takeOver e c.clock now := ⟨_, rfl⟩
  have hwaiters : done.fetchWaiters = old.fetchWaiters := by
    rw [hdone]
    exact hends.waiters
  have hchanged : done.onChanged = it.onChanged := by rw [hdone]; rfl
  have hvalue : done.value = e.metadata := by rw [hdone]; rfl
  unfold onDone
  simp only [hends.engine]
  obtain ⟨f₁, hf₁⟩ := assert_faults c (it.currentOp ≠ .none) .noCurrentOp
  rw [hf₁]
  obtain ⟨f₂, hf₂⟩ := assert_faults { c with faults := f₁ } (Option.isSome (some e)) .noEngineModify
  rw [hf₂]
  obtain ⟨f₃, hf₃⟩ := assert_faults { c with faults := f₂ } (!Engine.stale e it) .staleLoad
  rw [hf₃]
  show Served k calls ended numbers c
    (((({ c with faults := f₃ } : S3BucketMetadataCache).put bucket
      (it.takeOver e c.clock now)).updated bucket).drain bucket (it.takeOver e c.clock now)
        it.currentOp e.metadata.state)
  rw [← hdone]
  have hdraining : Draining k calls ended numbers
      ((({ c with faults := f₃ } : S3BucketMetadataCache).put bucket done).updated bucket) bucket
      done it.currentOp e.metadata.state ⟨e, k⟩ := by
    refine ⟨h.alive, AList.lookup_insert _, ⟨?_, ?_, ?_, ?_, ?_, ?_, fun _ _ hc => (by cases hc)⟩,
      ?_, hends.mem, Nat.le_refl k, ⟨hvalue.symm, by rw [hvalue], ?_, ?_⟩, ?_, ?_⟩
    · intro w hw
      exact hstands.waiters w (hwaiters ▸ hw)
    · intro w hw
      rw [hchanged, hends.changed] at hw
      exact hstands.changed w hw
    · intro e' he'
      rw [hdone] at he'
      cases he'
    · intro e' he'
      have hload : it.engineLoad = some e' := by
        rw [hdone] at he'
        exact he'
      rcases hends.load with hnone | ⟨_, hsame⟩
      · rw [hnone] at hload
        cases hload
      · exact hstands.load e' (hsame ▸ hload)
    · rw [hdone]
      intro hc
      rcases hc with hc | hc <;> cases hc
    · rw [hvalue]
      exact ⟨hends.name, .inl ⟨_, hends.mem, rfl, Nat.le_refl k⟩⟩
    · intro b y hb hy
      have hy' : (c.items.insert bucket done).lookup b = some y := hy
      rw [AList.lookup_insert_ne hb] at hy'
      have hother := h.stands b y hy'
      rw [hidle] at hother
      exact hother
    · intro w hw
      rw [hwaiters] at hw
      obtain ⟨call, hcall, hnumber, hrest⟩ := hstands.waiters w hw
      exact ⟨call, hcall, hnumber, hrest.1, hrest.2, .inl (hends.before call hcall)⟩
    · intro hop
      refine ⟨by rw [hdone]; rfl, ?_⟩
      obtain ⟨call, hcall, hown, hrest⟩ := hends.own hop
      exact ⟨call, hcall, hchanged.trans hown, hrest⟩
    · intro _ hne
      rw [hchanged] at hne
      exact hends.others hne
    · have howes : done.owes = old.owes := by
        unfold Item.owes
        rw [hwaiters, hchanged, hends.changed]
      have hput := pending_put hl done (c.answers.map Answer.handler)
        (c.answers.map Answer.handler) [] (by rw [append_nil, howes])
      rw [append_nil] at hput
      exact hput.trans h.ledger
  refine (drain_served hdraining ?_).of_entry rfl
  intro _ hop _
  rcases hends.load with hnone | ⟨hmod, _⟩
  · rw [hdone]
    simp [Item.takeOver, Item.canRemove, hnone]
  · exact absurd hmod hop

/-- **A modification ends.** -/
theorem modifyDone_served (hkeeps : Keeps c) (h : Desk k calls ended numbers c)
    (hl : c.items.lookup bucket = some it) (hidle : c.control = .idle)
    (he : it.engineModify = some e) (state : S3BucketMetadataState) (content : Bytes)
    (hbefore : ∀ call ∈ calls, call.number < k) (hmem : ⟨e.ended state content, k⟩ ∈ ended) :
    Served k calls ended numbers c
      (c.onDone bucket { it with engineModify := some (e.ended state content) } now) := by
  have hmod : it.currentOp.isModify := (hkeeps.owed bucket it hl).modify (by rw [he]; rfl)
  obtain ⟨hbucket, hown⟩ := (h.stands bucket it hl).modify e he
  exact onDone_served h hl hidle
    ⟨rfl, .inr ⟨hmod, rfl⟩, rfl, rfl, hbucket, hmem, hbefore, fun _ => hown, fun _ => hmod⟩

/-- **A load ends.** -/
theorem loadDone_served (hkeeps : Keeps c) (h : Desk k calls ended numbers c)
    (hl : c.items.lookup bucket = some it) (hidle : c.control = .idle)
    (he : it.engineLoad = some e) (state : S3BucketMetadataState) (content : Bytes)
    (hbefore : ∀ call ∈ calls, call.number < k) (hmem : ⟨e.ended state content, k⟩ ∈ ended) :
    Served k calls ended numbers c
      (c.onLoad bucket { it with engineLoad := some (e.ended state content) } now) := by
  have hstands := h.stands bucket it hl
  have howed := hkeeps.owed bucket it hl
  unfold onLoad
  simp only [Option.isSome_some, assert_of_true]
  by_cases hmod : it.engineModify.isSome = true
  · rw [if_pos hmod]
    have hwrite := h.write hl { it with engineLoad := none } [] rfl
      ⟨hstands.waiters, hstands.changed, hstands.modify, fun e' he' => (by cases he'),
        hstands.current, hstands.value, fun op state' hc => by
          rw [hidle] at hc
          cases hc⟩
      (by rw [append_nil]; exact .refl _)
    rw [append_nil] at hwrite
    exact ⟨hwrite, [], (append_nil _).symm, fun a ha => absurd ha not_mem_nil⟩
  · rw [if_neg hmod]
    have hnone : it.engineModify = none := by simpa using hmod
    have hnot : ¬ it.currentOp.isModify := fun hc => hstands.current hc hnone
    refine onDone_served h hl hidle
      ⟨rfl, .inl rfl, rfl, rfl, hstands.load e he, hmem, hbefore, fun hc => absurd hc hnot, ?_⟩
    -- with no modification in flight and no loop under way there is nothing to be called
    intro hne
    obtain ⟨op, state', hc, _⟩ := howed.changed hnone hne
    rw [hidle] at hc
    cases hc

theorem Desk.idle (h : Desk k calls ended numbers c) :
    Desk k calls ended numbers { c with control := .idle } :=
  ⟨h.alive, fun b y hy => (h.stands b y hy).of_not_loop fun _ _ hc => (by cases hc),
    fun _ _ _ _ hc => (by cases hc), fun _ _ _ _ hc => (by cases hc), h.ledger⟩

/-- **A handler returns.** -/
theorem resume_served (hkeeps : Keeps c) (h : Desk k calls ended numbers c)
    (hdoomed : ∀ it ∈ c.doomed, it.canRemove = true) (hr : c.resume = some c') :
    Served k calls ended numbers c c' := by
  unfold resume at hr
  cases hc : c.control with
  | idle => simp [hc] at hr
  | waiters bucket id op state =>
    obtain ⟨it, hl, hid⟩ := h.inLoop bucket id op state hc
    simp only [hc, hl, hid, if_true, some.injEq] at hr
    rw [← hr]
    have hstands := h.stands bucket it hl
    obtain ⟨x, hx, htime, hloop⟩ := hstands.loop op state (by rw [hc, hid])
    refine drain_served ⟨h.alive, hl, hstands.of_not_loop fun _ _ hc' => (by cases hc'), ?_, hx,
      htime, hloop, ?_, h.ledger⟩ ?_
    · intro b y _ hy
      exact (h.stands b y hy).of_not_loop fun _ _ hc' => (by cases hc')
    · intro hmod hne
      obtain ⟨op', state', hc', hop'⟩ := (hkeeps.owed bucket it hl).changed hmod hne
      rw [hc] at hc'
      cases hc'
      exact hop'
    · intro hnil hop hrem
      refine hdoomed it ?_
      simp [doomed, hc, hop, hrem, hl, hid, hnil]
  | changed bucket id op state =>
    have hidle := h.idle
    simp only [hc] at hr
    by_cases hrem : Removes op state
    · obtain ⟨it, hl, hid⟩ := h.inChange bucket id op state hc hrem
      simp only [hrem, hl, hid, if_true, some.injEq] at hr
      have hcan := hdoomed it (by simp [doomed, hc, hrem, hl, hid])
      have hfree := (hkeeps.owed bucket it hl).free hl hcan (by simp [inLoop, hc])
      have hremoved := hidle.removeItem hl hfree rfl
      rw [← hr, finishDone, if_pos hrem]
      refine ⟨hremoved, [], ?_, fun a ha => absurd ha not_mem_nil⟩
      rw [removeItem_eq (c := { c with control := .idle }) hl hcan, append_nil]
    · rw [if_neg hrem, some.injEq] at hr
      rw [← hr, finishDone, if_neg hrem]
      exact ⟨hidle, [], (append_nil _).symm, fun a ha => absurd ha not_mem_nil⟩

end

/-! ### Runs -/

section

variable {k : Nat} {calls : List Call} {ended : List Ended} {numbers : List Handler}
  {c c' : S3BucketMetadataCache}

theorem numbered_eq (k : Nat) (e : Event) : (e.numbered k).now = e.now ∧
    (e.numbered k).source = e.source ∧ (e.numbered k).modifies = e.modifies ∧
      c.endedBy (e.numbered k) = c.endedBy e ∧ c.called (e.numbered k) = c.called e := by
  cases e <;> exact ⟨rfl, rfl, rfl, rfl, rfl⟩

/-- **Every event is served**, and the books are kept. -/
theorem react_served (hkeeps : Keeps c) (h : Desk c.clock calls ended numbers c)
    (hbefore : ∀ call ∈ calls, call.number < c.clock) {e : Event} (hok : c.Careful e)
    (hr : c.react (e.numbered c.clock) = some c') :
    Served c.clock (calls ++ c.called e) (ended ++ c.endedBy e)
      (numbers ++ (c.called e).map Call.number) c c' := by
  obtain ⟨⟨hsteady, hvictim, hdoomed⟩, hout, hneeded⟩ := hok
  -- a call that finds its entry, or is refused
  have hcalled : ∀ (op : EngineOp) (src : S3BucketMetadata) (now : Int), e.source = some src →
      e.now = some now → ∀ call : Call, call = ⟨c.clock, op, src, c.control⟩ →
      ∀ (value : Option S3BucketMetadata) (ask : S3BucketMetadataCache → Item →
        S3BucketMetadataCache),
      some (c.withItem src now (c.answer call.number .failedToLaunch value) ask) = some c' →
      (∀ c' it, call ∈ calls ++ [call] →
        AtDesk c.clock (calls ++ [call]) ended numbers c c' src.bucketName it →
        Served c.clock (calls ++ [call]) ended (numbers ++ [call.number]) c' (ask c' it)) →
      Served c.clock (calls ++ [call]) (ended ++ []) (numbers ++ [call.number]) c c' := by
    intro op src now hsrc hnow call hcall value ask hc' hask
    have hdesk := h.mono (Nat.le_refl _) (subset_append_left calls [call])
      (List.Subset.refl ended)
    have hmem : call ∈ calls ++ [call] := mem_append_right _ (mem_singleton.mpr rfl)
    have hnumber : call.number = c.clock := by rw [hcall]
    rw [← some.inj hc', append_nil]
    exact withItem_served hkeeps hdesk (.inr ⟨call, hmem, by rw [hcall], hnumber.le⟩)
      (hsteady.before hnow).2 (hvictim src hsrc now hnow) (hneeded src hsrc now hnow)
      (Served.refused hdesk hmem hnumber value) fun c' it => hask c' it hmem
  cases e with
  | fetch src w now =>
    exact hcalled .load src now rfl rfl _ rfl _ _ hr fun _ _ hmem hat =>
      itemFetch_served hat hmem rfl rfl rfl rfl
  | save src w now =>
    exact hcalled .save src now rfl rfl _ rfl _ _ hr fun _ _ hmem hat =>
      itemModify_served hat hmem rfl rfl (fun hc => by cases hc) rfl (hout _ rfl) .saving rfl
  | update src w now =>
    exact hcalled .update src now rfl rfl _ rfl _ _ hr fun _ _ hmem hat =>
      itemModify_served hat hmem rfl rfl (fun hc => by cases hc) rfl (hout _ rfl) .saving rfl
  | remove src w now =>
    exact hcalled .remove src now rfl rfl _ rfl _ _ hr fun _ it hmem hat =>
      itemModify_served hat hmem rfl rfl (fun hc => by cases hc) rfl (hout _ rfl) .deleting
        (hat.desk.stands _ it hat.entry.lookup).value.1
  | loadDone bucket state content now =>
    obtain ⟨it, x, hidle, hl, he, rfl⟩ := react_loadDone_eq_some hr
    have hended : c.endedBy (.loadDone bucket state content now) =
        [⟨x.ended state content, c.clock⟩] := by
      simp only [endedBy, hl, bind_some, he, map_some, toList_some]
    rw [hended]
    show Served c.clock (calls ++ []) _ (numbers ++ []) c _
    rw [append_nil, append_nil]
    exact loadDone_served hkeeps (h.mono (Nat.le_refl _) (List.Subset.refl _)
      (subset_append_left _ _)) hl hidle he state content hbefore
      (mem_append_right _ (mem_singleton.mpr rfl))
  | modifyDone bucket state content now =>
    obtain ⟨it, x, hidle, hl, he, rfl⟩ := react_modifyDone_eq_some hr
    have hended : c.endedBy (.modifyDone bucket state content now) =
        [⟨x.ended state content, c.clock⟩] := by
      simp only [endedBy, hl, bind_some, he, map_some, toList_some]
    rw [hended]
    show Served c.clock (calls ++ []) _ (numbers ++ []) c _
    rw [append_nil, append_nil]
    exact modifyDone_served hkeeps (h.mono (Nat.le_refl _) (List.Subset.refl _)
      (subset_append_left _ _)) hl hidle he state content hbefore
      (mem_append_right _ (mem_singleton.mpr rfl))
  | resume =>
    show Served c.clock (calls ++ []) (ended ++ []) (numbers ++ []) c c'
    rw [append_nil, append_nil, append_nil]
    exact resume_served hkeeps h (hdoomed rfl) hr

end

/-- What holds of a session in every state. -/
structure Kept (s : Session) : Prop where
  keeps : Keeps s.cache
  desk : Desk s.cache.clock s.calls s.ended (s.calls.map Call.number) s.cache
  before : ∀ call ∈ s.calls, call.number < s.cache.clock
  nodup : (s.calls.map Call.number).Nodup
  replies : s.replies.map Reply.answer = s.cache.answers
  warranted : ∀ r ∈ s.replies, ∃ call ∈ s.calls, call.number = r.answer.handler ∧
    Warranted s.calls s.ended call r

theorem called_number (c : S3BucketMetadataCache) (e : Event) :
    ∀ call ∈ c.called e, call.number = c.clock := by
  intro call hcall
  unfold called at hcall
  cases hasks : e.asks with
  | none =>
    rw [hasks] at hcall
    exact absurd hcall not_mem_nil
  | some asked =>
    rw [hasks] at hcall
    rw [mem_singleton.mp hcall]

theorem called_nodup (c : S3BucketMetadataCache) (e : Event) :
    ((c.called e).map Call.number).Nodup := by
  unfold called
  cases e.asks with
  | none => exact nodup_nil
  | some asked => exact nodup_singleton _

variable {s : Session}

/-- **A careful event keeps the books.** -/
theorem Kept.step {s' : Session} (h : Kept s) {e : Event} (hok : s.cache.Careful e)
    (hs : s.step e = some s') : Kept s' := by
  unfold Session.step at hs
  obtain ⟨c, hstep, hs'⟩ := map_eq_some_iff.mp hs
  have hspares : s.cache.Spares (e.numbered s.cache.clock) := by
    obtain ⟨hsteady, hvictim, hdoomed⟩ := hok.1
    obtain ⟨hnow, hsource, _⟩ := numbered_eq (c := s.cache) s.cache.clock e
    refine ⟨fun now hn => hsteady now (hnow ▸ hn), ?_, fun he => hdoomed ?_⟩
    · rw [hnow, hsource]
      exact hvictim
    · cases e <;> first | rfl | cases he
  have hkeeps := step_keeps h.keeps hspares hstep
  unfold S3BucketMetadataCache.step at hstep
  rw [h.desk.alive, if_neg Bool.false_ne_true] at hstep
  obtain ⟨c₁, hreact, hc₁⟩ := map_eq_some_iff.mp hstep
  obtain ⟨hdesk, new, hanswers, hnew⟩ := react_served h.keeps h.desk h.before hok hreact
  have hclock : c.clock = s.cache.clock + 1 := by rw [← hc₁]
  have hdrop : c.answers.drop s.cache.answers.length = new := by
    rw [← hc₁]
    show c₁.answers.drop _ = new
    rw [hanswers, drop_left]
  rw [hdrop] at hs'
  rw [← hs']
  refine ⟨hkeeps, ?_, ?_, ?_, ?_, ?_⟩
  · have hmono := hdesk.mono (Nat.le_succ s.cache.clock) (List.Subset.refl _) (List.Subset.refl _)
    rw [hclock, ← hc₁, map_append]
    exact ⟨hmono.alive, hmono.stands, hmono.inLoop, hmono.inChange, hmono.ledger⟩
  · intro call hcall
    show call.number < c.clock
    rw [hclock]
    rcases mem_append.mp hcall with hcall | hcall
    · exact Nat.lt_succ_of_lt (h.before call hcall)
    · rw [called_number s.cache e call hcall]
      exact Nat.lt_succ_self _
  · rw [map_append, nodup_append]
    refine ⟨h.nodup, called_nodup s.cache e, ?_⟩
    intro n hn m hm hnm
    obtain ⟨call, hcall, rfl⟩ := mem_map.mp hn
    obtain ⟨call', hcall', rfl⟩ := mem_map.mp hm
    have hless := h.before call hcall
    rw [hnm, called_number s.cache e call' hcall'] at hless
    exact lt_irrefl _ hless
  · show (s.replies ++ new.map fun answer => (⟨answer, s.cache.clock⟩ : Reply)).map Reply.answer =
      c.answers
    rw [map_append, h.replies, map_map, ← hc₁, hanswers]
    congr 1
    exact map_id new
  · intro r hr
    rcases mem_append.mp hr with hr | hr
    · obtain ⟨call, hcall, hnumber, hwarranted⟩ := h.warranted r hr
      exact ⟨call, mem_append_left _ hcall, hnumber,
        hwarranted.mono (subset_append_left _ _) (subset_append_left _ _)⟩
    · obtain ⟨answer, hanswer, rfl⟩ := mem_map.mp hr
      exact hnew answer hanswer

theorem Kept.handlers (h : Kept s) :
    (s.replies.map fun r => r.answer.handler) = s.cache.answers.map Answer.handler := by
  rw [← h.replies, map_map]
  rfl

theorem Kept.busy (h : Kept s) {w : Handler} (hw : w ∈ pending s.cache.items) :
    ∃ call ∈ s.calls, call.number = w ∧ ∃ it, s.cache.items.lookup call.bucket = some it ∧
      w ∈ it.owes ∧ Busy s.cache call.bucket it := by
  obtain ⟨bucket, it, hl, howes⟩ := mem_pending hw
  have hstands := h.desk.stands bucket it hl
  have howed := h.keeps.owed bucket it hl
  rcases mem_append.mp howes with hwaits | hwaits
  · obtain ⟨call, hcall, hnumber, hbucket, _⟩ := hstands.waiters w hwaits
    refine ⟨call, hcall, hnumber, it, hbucket ▸ hl, howes, ?_⟩
    rw [hbucket]
    cases hcan : it.canRemove with
    | false => exact .inl hcan
    | true => exact .inr (howed.waiters hcan (ne_nil_of_mem hwaits))
  · have hchanged : it.onChanged = some w := by simpa using hwaits
    obtain ⟨call, hcall, hnumber, hbucket⟩ := hstands.changed w hchanged
    refine ⟨call, hcall, hnumber, it, hbucket ▸ hl, howes, ?_⟩
    rw [hbucket]
    cases hcan : it.canRemove with
    | false => exact .inl hcan
    | true =>
      obtain ⟨op, state, hc, _⟩ := howed.changed (engineModify_of_canRemove hcan)
        (by rw [hchanged]; exact Option.some_ne_none w)
      exact .inr ⟨op, state, hc⟩

theorem Kept.answeredOnce (h : Kept s) : AnsweredOnce s := by
  have honce : ((s.replies.map fun r => r.answer.handler) ++ pending s.cache.items).Perm
      (s.calls.map Call.number) := by
    rw [h.handlers]
    exact h.desk.ledger
  refine ⟨h.desk.alive, h.nodup, honce, fun w hw => h.busy hw, ?_, ?_⟩
  · intro hidle hfree
    have hnil : pending s.cache.items = [] := by
      refine eq_nil_iff_forall_not_mem.mpr ?_
      intro w hw
      obtain ⟨call, _, _, it, hl, _, hbusy⟩ := h.busy hw
      rcases hbusy with hcan | ⟨op, state, hc⟩
      · rw [hfree _ it hl] at hcan
        cases hcan
      · rw [hidle] at hc
        cases hc
    rw [hnil, append_nil] at honce
    exact honce
  · intro call hcall r hr hhandler
    obtain ⟨call', hcall', hnumber, hwarranted⟩ := h.warranted r hr
    have hsame : call' = call :=
      inj_on_of_nodup_map h.nodup hcall' hcall (hnumber.trans hhandler)
    rw [← hsame]
    exact hwarranted

/-- A session before its first call. -/
def Session.start (maxSize expire refresh : Nat) : Session :=
  { cache := init maxSize expire refresh }

theorem Kept.start (maxSize expire refresh : Nat) :
    Kept (Session.start maxSize expire refresh) := by
  refine ⟨init_keeps maxSize expire refresh, ⟨rfl, ?_, ?_, ?_, .refl _⟩, ?_, nodup_nil, rfl, ?_⟩
  · intro bucket it hit
    have hempty : (∅ : AList fun _ : Bytes => Item).lookup bucket = some it := hit
    rw [AList.lookup_empty] at hempty
    cases hempty
  · intro bucket id op state hc
    cases hc
  · intro bucket id op state hc
    cases hc
  · intro call hcall
    exact absurd hcall not_mem_nil
  · intro r hr
    exact absurd hr not_mem_nil

/-- **In a run of careful events every call is answered once**: out of the cache, or when it is
refused, or when its operation or one of its bucket that it joined has ended, and with what that
came to. -/
theorem repliedOnce_of_reachable (maxSize expire refresh : Nat) {s : Session}
    (h : Runs.Reachable Session.step (fun s e => s.cache.Careful e)
      (Session.start maxSize expire refresh) s) : AnsweredOnce s := by
  have hkept : Kept s := by
    refine h.invariant (P := Kept) (Kept.start maxSize expire refresh) ?_
    intro s e s' hs hok hstep
    exact hs.step hok hstep
  exact hkept.answeredOnce

/-- A fetch waits for its load, a save of the bucket comes, and both end. -/
def fetchDuringSave : List Event :=
  fetchAndSave ++ [.loadDone (ascii "b") .missing [] 2000,
    .modifyDone (ascii "b") .present (ascii "new") 3000, .resume, .resume,
    .fetch { bucketName := ascii "b" } 0 4000]

/-- The first fetch and the save are answered by the save, the second fetch out of the cache. -/
theorem repliedOnce_of_reachable_fetchDuringSave :
    ∃ s, Runs.run Session.step (Session.start 10 100 10) fetchDuringSave = some s ∧
      (s.replies.map fun r => (r.answer.handler, r.answer.state, r.time)) =
        [(0, .present, 3), (1, .present, 4), (6, .present, 6)] ∧ AnsweredOnce s := by
  obtain ⟨s, hs, hreplies⟩ := map_eq_some_iff.mp (show (Runs.run Session.step
    (Session.start 10 100 10) fetchDuringSave).map (fun s => s.replies.map fun r =>
      (r.answer.handler, r.answer.state, r.time)) =
        some [(0, .present, 3), (1, .present, 4), (6, .present, 6)] by decide)
  exact ⟨s, hs, hreplies, repliedOnce_of_reachable 10 100 10
    (Runs.reachable_of_run fetchDuringSave .start (by decide) hs)⟩

/-- No call is answered while the operation that it launched is in flight. -/
def Unhurried (s : Session) : Prop :=
  ∀ bucket it e, s.cache.items.lookup bucket = some it →
    (it.engineLoad = some e ∨ it.engineModify = some e) →
      ∀ r ∈ s.replies, r.answer.handler ≠ e.launchedAt

/-- A bucket is loaded, fetched again when its value ought to be refreshed, and fetched once
more. -/
def fetchDuringRefresh : List Event :=
  [.fetch { bucketName := ascii "b" } 0 1000, .loadDone (ascii "b") .present [] 2000, .resume,
    .fetch { bucketName := ascii "b" } 0 20000000000,
    .fetch { bucketName := ascii "b" } 0 20000001000]

/-- The second fetch launches a load, and is answered when the third one comes. -/
theorem not_unhurried_fetchDuringRefresh :
    ¬ ∀ s, Runs.Reachable Session.step (fun s e => s.cache.Careful e) (Session.start 10 100 10) s →
      Unhurried s := by
  intro h
  obtain ⟨s, hs, heq⟩ := map_eq_some_iff.mp (show (Runs.run Session.step
    (Session.start 10 100 10) fetchDuringRefresh).map (fun s =>
      (s.replies.map fun r => r.answer.handler,
        ((s.cache.items.lookup (ascii "b")).bind Item.engineLoad).map Engine.launchedAt)) =
      some ([0, 3], some 3) by decide)
  have hreach : Runs.Reachable Session.step (fun s e => s.cache.Careful e)
      (Session.start 10 100 10) s :=
    Runs.reachable_of_run fetchDuringRefresh .start (by decide) hs
  obtain ⟨hreplies, hload⟩ := Prod.mk.inj heq
  obtain ⟨e, he, hlaunched⟩ := map_eq_some_iff.mp hload
  obtain ⟨it, hit, hengine⟩ := Option.bind_eq_some_iff.mp he
  have hmem : 3 ∈ s.replies.map fun r => r.answer.handler := by
    rw [hreplies]
    decide
  obtain ⟨r, hr, hhandler⟩ := mem_map.mp hmem
  exact h s hreach (ascii "b") it e hit (.inl hengine) r hr (hhandler.trans hlaunched.symm)

end S3BucketMetadataCache

end CortxS3
