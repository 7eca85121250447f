/-
What goes wrong in the cache, and that nothing else does.

An entry has one `current_op` and one `on_changed`, and two operations in flight.  Two things
follow.

  * A modification that begins and ends while a load is in flight leaves `current_op` at `none`.
    When the load then ends, `on_done` finds no operation to be done with, and overwrites the
    value that was just saved with the one that was loaded before it.
  * While `on_done` runs the waiting fetches of a modification, `on_changed` still belongs to
    that modification.  A handler that modifies the bucket again puts its own `on_changed` in
    that place.

`Orderly` is an event that is neither of these.  In a run of orderly events no assertion of
`on_load` or `on_done` fails, and no saved value is replaced by an older one
(`faults_nil_of_orderly`).  The invariant says, for each entry, what the two operations in
flight promise about the two fields they share.
-/
import CortxS3.Server.BucketMetadataCache

namespace CortxS3

open Option (isSome_some map_eq_some_iff some.inj some.injEq)

namespace S3BucketMetadataCache

/-- The operations that use `on_changed`. -/
def CurrentOp.isModify (op : CurrentOp) : Prop := op = .saving ∨ op = .deleting
deriving Decidable

/-- A call that modifies `bucket` does not come from a fetch handler that the end of another
modification of `bucket` has called. -/
def Outside (c : S3BucketMetadataCache) (bucket : Bytes) : Prop :=
  ∀ id op state, c.control = .waiters bucket id op state → ¬ op.isModify

/-- The events that go well.  A load may not end alone after a modification that it overlapped,
and no fetch handler that is called at the end of a modification modifies the bucket again. -/
def Orderly (c : S3BucketMetadataCache) : Event → Prop
  | .loadDone bucket _ _ _ =>
    ∀ it e, c.items.lookup bucket = some it → it.engineModify = none →
      it.engineLoad = some e → ∀ t, it.modifiedAt = some t → ¬ e.launchedAt < t
  | .save src _ _ => c.Outside src.bucketName
  | .update src _ _ => c.Outside src.bucketName
  | .remove src _ _ => c.Outside src.bucketName
  | _ => True

/-! ### The invariant -/

/-- What the operations in flight say about an entry, after `k` events. -/
structure ItemInv (k : Nat) (it : Item) : Prop where
  modify : ∀ e, it.engineModify = some e →
    it.currentOp ≠ .none ∧ it.onChanged.isSome = true ∧ e.op ≠ .load
  load : ∀ e, it.engineLoad = some e → e.op = .load ∧ e.launchedAt < k ∧
    (it.engineModify = none → (∀ t, it.modifiedAt = some t → ¬ e.launchedAt < t) →
      it.currentOp = .fetching)
  saved : ∀ t, it.savedAt = some t → ∃ t', it.modifiedAt = some t' ∧ t ≤ t'
  past : ∀ t, it.modifiedAt = some t → t < k

/-- An `on_done` in its loop finds `on_changed` as it was. -/
def Holds (control : Control) (bucket : Bytes) (it : Item) : Prop :=
  ∀ op state, control = .waiters bucket it.id op state → op.isModify →
    it.onChanged.isSome = true ∧ it.engineModify = none

structure Inv (k : Nat) (c : S3BucketMetadataCache) : Prop where
  items : ∀ bucket it, c.items.lookup bucket = some it →
    ItemInv k it ∧ it.id < c.nextId ∧ Holds c.control bucket it
  control : ∀ bucket id op state, c.control = .waiters bucket id op state → id < c.nextId
  faults : c.faults = []

variable {it : Item} {k : Nat}

theorem ItemInv.mono (h : ItemInv k it) : ItemInv (k + 1) it := by
  refine ⟨h.modify, ?_, h.saved, ?_⟩
  · intro e he
    obtain ⟨hop, hlt, hfetch⟩ := h.load e he
    exact ⟨hop, by omega, hfetch⟩
  · intro t ht
    have := h.past t ht
    omega

variable {c : S3BucketMetadataCache}

theorem Inv.mono (h : Inv k c) : Inv (k + 1) c := by
  refine ⟨?_, h.control, h.faults⟩
  intro bucket it hit
  obtain ⟨hinv, hid, hholds⟩ := h.items bucket it hit
  exact ⟨hinv.mono, hid, hholds⟩

theorem Inv.put (h : Inv k c) (bucket : Bytes) (hit : ItemInv k it) (hid : it.id < c.nextId)
    (hholds : Holds c.control bucket it) : Inv k (c.put bucket it) := by
  refine ⟨?_, h.control, h.faults⟩
  intro b x hx
  by_cases hb : b = bucket
  · subst hb
    have hxi : x = it := by
      have : (c.items.insert b it).lookup b = some x := hx
      rw [AList.lookup_insert] at this
      exact (some.inj this).symm
    rw [hxi]
    exact ⟨hit, hid, hholds⟩
  · have : (c.items.insert bucket it).lookup b = some x := hx
    rw [AList.lookup_insert_ne hb] at this
    exact h.items b x this

theorem Inv.answer (h : Inv k c) (w : Handler) (state : S3BucketMetadataState)
    (value : Option S3BucketMetadata) : Inv k (c.answer w state value) :=
  ⟨h.items, h.control, h.faults⟩

theorem Inv.crash (h : Inv k c) : Inv k c.crash :=
  ⟨h.items, h.control, h.faults⟩

theorem assert_of_true {ok : Bool} (h : ok = true) (f : Fault) : c.assert ok f = c := by
  unfold assert
  rw [if_pos h]

theorem Inv.setControl (h : Inv k c) (control : Control)
    (hno : ∀ bucket id op state, control ≠ .waiters bucket id op state) :
    Inv k { c with control := control } := by
  refine ⟨?_, fun b id op st hc => absurd hc (hno b id op st), h.faults⟩
  intro bucket it hit
  obtain ⟨hinv, hid, _⟩ := h.items bucket it hit
  exact ⟨hinv, hid, fun op st hc => absurd hc (hno _ _ op st)⟩

/-! ### The containers -/

theorem Inv.removeItem (h : Inv k c) (bucket : Bytes) : Inv k (c.removeItem bucket) := by
  unfold S3BucketMetadataCache.removeItem
  cases hl : c.items.lookup bucket with
  | none => exact h.crash
  | some it =>
    have hrest : Inv k { c with
        sortedByAccess := c.sortedByAccess.erase bucket
        sortedByUpdate := c.sortedByUpdate.erase bucket
        items := c.items.erase bucket } := by
      refine ⟨?_, h.control, h.faults⟩
      intro b x hx
      by_cases hb : b = bucket
      · subst hb
        rw [AList.lookup_erase] at hx
        cases hx
      · rw [AList.lookup_erase_ne hb] at hx
        exact h.items b x hx
    by_cases hcan : it.canRemove = true
    · simp only [hcan, if_true]
      exact ⟨hrest.items, hrest.control, hrest.faults⟩
    · simp only [hcan, if_false, Bool.false_eq_true]
      exact ⟨hrest.items, hrest.control, hrest.faults⟩

variable {c' : S3BucketMetadataCache} {now : Int}

theorem Inv.shrink (h : Inv k c) (hs : c.shrink now = some c') : Inv k c' := by
  unfold S3BucketMetadataCache.shrink at hs
  cases he : expiredItem c now c.sortedByUpdate.reverse with
  | some bucket =>
    rw [he] at hs
    rw [← some.inj hs]
    exact h.removeItem bucket
  | none =>
    rw [he] at hs
    obtain ⟨bucket, _, hb⟩ := map_eq_some_iff.mp hs
    rw [← hb]
    exact h.removeItem bucket

/-- Nothing but entries and lists changes when an entry is removed. -/
theorem removeItem_frame (c : S3BucketMetadataCache) (bucket : Bytes) :
    (c.removeItem bucket).control = c.control ∧ (c.removeItem bucket).nextId = c.nextId ∧
      (c.removeItem bucket).clock = c.clock := by
  unfold removeItem
  cases c.items.lookup bucket with
  | none => exact ⟨rfl, rfl, rfl⟩
  | some it =>
    by_cases hcan : it.canRemove = true
    · simp [hcan]
    · simp [hcan, crash]

theorem shrink_frame (hs : c.shrink now = some c') :
    c'.control = c.control ∧ c'.clock = c.clock := by
  unfold shrink at hs
  cases he : expiredItem c now c.sortedByUpdate.reverse with
  | some bucket =>
    rw [he] at hs
    rw [← some.inj hs]
    exact ⟨(removeItem_frame c bucket).1, (removeItem_frame c bucket).2.2⟩
  | none =>
    rw [he] at hs
    obtain ⟨bucket, _, hb⟩ := map_eq_some_iff.mp hs
    rw [← hb]
    exact ⟨(removeItem_frame c bucket).1, (removeItem_frame c bucket).2.2⟩

/-- What a call finds: an entry that keeps the invariant, in a cache that does. -/
structure Found (k : Nat) (c c' : S3BucketMetadataCache) (bucket : Bytes) (it : Item) : Prop where
  inv : Inv k c'
  item : ItemInv k it
  id : it.id < c'.nextId
  holds : Holds c'.control bucket it
  control : c'.control = c.control
  clock : c'.clock = c.clock

theorem newItem_inv (k id : Nat) (src : S3BucketMetadata) (now : Int) :
    ItemInv k { id := id, value := src, accessTime := now } := by
  refine ⟨?_, ?_, ?_, ?_⟩
  · intro e he; cases he
  · intro e he; cases he
  · intro t ht; cases ht
  · intro t ht; cases ht

theorem touchItem_found (h : Inv k c) (src : S3BucketMetadata) (now : Int) :
    Found k c (c.touchItem src now).1 src.bucketName (c.touchItem src now).2 := by
  unfold touchItem
  cases hl : c.items.lookup src.bucketName with
  | some it =>
    obtain ⟨hinv, hid, hholds⟩ := h.items src.bucketName it hl
    have hnew : ItemInv k { it with accessTime := now } :=
      ⟨hinv.modify, hinv.load, hinv.saved, hinv.past⟩
    have hput := h.put src.bucketName hnew hid hholds
    exact ⟨⟨hput.items, hput.control, hput.faults⟩, hnew, hid, hholds, rfl, rfl⟩
  | none =>
    have hnew := newItem_inv k c.nextId src now
    -- the new entry is not the one `on_done` is working on
    have hfresh : Holds c.control src.bucketName
        { id := c.nextId, value := src, accessTime := now } := by
      intro op st hc
      exact absurd (h.control _ _ op st hc) (Nat.lt_irrefl _)
    have hwide : Inv k { c with nextId := c.nextId + 1 } := by
      refine ⟨?_, ?_, h.faults⟩
      · intro b it hit
        obtain ⟨hi, hid, hh⟩ := h.items b it hit
        exact ⟨hi, Nat.lt_succ_of_lt hid, hh⟩
      · intro b id op st hc
        exact Nat.lt_succ_of_lt (h.control b id op st hc)
    have hput := hwide.put src.bucketName hnew (Nat.lt_succ_self _) hfresh
    exact ⟨⟨hput.items, hput.control, hput.faults⟩, hnew, Nat.lt_succ_self _, hfresh, rfl, rfl⟩

variable {src : S3BucketMetadata}

theorem getItem_found (h : Inv k c) (hg : c.getItem src now = some (c', it)) :
    Found k c c' src.bucketName it := by
  unfold getItem at hg
  by_cases hfull : c.maxCacheSize < c.items.entries.length +
      (if (c.items.lookup src.bucketName).isNone then 1 else 0)
  · simp only [hfull, if_true] at hg
    cases hs : c.shrink now with
    | none => simp [hs] at hg
    | some c₁ =>
      have hfound := touchItem_found (h.shrink hs) src now
      obtain ⟨hcontrol, hclock⟩ := shrink_frame hs
      simp only [hs] at hg
      split at hg
      · obtain ⟨rfl, rfl⟩ := Prod.mk.inj (some.inj hg)
        exact ⟨hfound.inv.crash, hfound.item, hfound.id, hfound.holds,
          hfound.control.trans hcontrol, hfound.clock.trans hclock⟩
      · have heq := some.inj hg
        rw [Prod.ext_iff] at heq
        obtain ⟨rfl, rfl⟩ := heq
        exact ⟨hfound.inv, hfound.item, hfound.id, hfound.holds,
          hfound.control.trans hcontrol, hfound.clock.trans hclock⟩
  · simp only [hfull, if_false] at hg
    have heq := some.inj hg
    rw [Prod.ext_iff] at heq
    obtain ⟨rfl, rfl⟩ := heq
    exact touchItem_found h src now

/-! ### Calls -/

variable {bucket : Bytes}

theorem itemFetch_inv (h : Found c.clock c c' bucket it) (w : Handler) :
    Inv (c.clock + 1) (c'.itemFetch bucket it w) := by
  have hinv := h.inv.mono
  have hit := h.item.mono
  -- a longer or shorter queue of waiters does not matter
  have hqueue : ∀ ws, ItemInv (c.clock + 1) { it with fetchWaiters := ws } :=
    fun ws => ⟨hit.modify, hit.load, hit.saved, hit.past⟩
  unfold itemFetch
  simp only
  split
  · exact (hinv.put bucket (hqueue (it.fetchWaiters ++ [w]).tail) h.id h.holds).answer _ _ _
  · split
    · exact hinv.put bucket (hqueue (it.fetchWaiters ++ [w])) h.id h.holds
    · rename_i hbusy
      have hfree : it.engineModify = none ∧ it.engineLoad = none := by
        simpa using hbusy
      refine hinv.put bucket ⟨?_, ?_, hit.saved, hit.past⟩ h.id ?_
      · intro e he
        rw [show it.engineModify = some e from he] at hfree
        cases hfree.1
      · intro e he
        have he' := (some.inj he).symm
        subst he'
        exact ⟨rfl, by rw [h.clock]; exact Nat.lt_succ_self _, fun _ _ => rfl⟩
      · intro op st hc hop
        exact h.holds op st hc hop

theorem itemModify_inv (h : Found c.clock c c' bucket it) (hout : c.Outside bucket)
    {current : CurrentOp} {op : EngineOp} (hcurrent : current ≠ .none) (hop : op ≠ .load)
    (src : S3BucketMetadata) (w : Handler) :
    Inv (c.clock + 1) (c'.itemModify bucket it current op src w) := by
  have hinv := h.inv.mono
  have hit := h.item.mono
  unfold itemModify
  by_cases hbusy : it.engineModify.isSome = true
  · rw [if_pos hbusy]
    exact hinv.answer _ _ _
  · rw [if_neg hbusy]
    refine hinv.put bucket ⟨?_, ?_, hit.saved, hit.past⟩ h.id ?_
    · intro e he
      have he' := (some.inj he).symm
      subst he'
      exact ⟨hcurrent, rfl, hop⟩
    · intro e he
      obtain ⟨hload, hlt, _⟩ := hit.load e he
      exact ⟨hload, hlt, fun hnone => absurd hnone (by simp)⟩
    · -- the call comes from outside the loop, so `on_changed` was free
      intro op' st hc hmod
      rw [h.control] at hc
      exact absurd hmod (hout _ op' st hc)

theorem withItem_inv {refuse : S3BucketMetadataCache} (h : Inv c.clock c)
    {call : S3BucketMetadataCache → Item → S3BucketMetadataCache}
    (hrefuse : Inv (c.clock + 1) refuse)
    (hcall : ∀ c' it, Found c.clock c c' src.bucketName it → Inv (c.clock + 1) (call c' it)) :
    Inv (c.clock + 1) (c.withItem src now refuse call) := by
  unfold withItem
  cases hg : c.getItem src now with
  | none => exact hrefuse
  | some p =>
    obtain ⟨c', it⟩ := p
    exact hcall c' it (getItem_found h hg)

/-! ### The end of an operation -/

theorem finishDone_inv (h : Inv k c) (bucket : Bytes) (op : CurrentOp)
    (state : S3BucketMetadataState) : Inv k (c.finishDone bucket op state) := by
  have hidle : Inv k { c with control := .idle } := h.setControl .idle (by intro _ _ _ _ hc; cases hc)
  unfold finishDone
  simp only
  split
  · exact hidle.removeItem bucket
  · exact hidle

theorem drain_inv (h : Inv k c) (hit : ItemInv k it) (hid : it.id < c.nextId) {op : CurrentOp}
    (state : S3BucketMetadataState)
    (hop : op.isModify → it.onChanged.isSome = true ∧ it.engineModify = none) :
    Inv k (c.drain bucket it op state) := by
  unfold drain
  cases hw : it.fetchWaiters with
  | cons w rest =>
    -- the handler is called from inside the loop
    have hnew : ItemInv k { it with fetchWaiters := rest } :=
      ⟨hit.modify, hit.load, hit.saved, hit.past⟩
    refine ⟨?_, ?_, h.faults⟩
    · intro b x hx
      by_cases hb : b = bucket
      · subst hb
        have hx' : (c.items.insert b { it with fetchWaiters := rest }).lookup b = some x := hx
        rw [AList.lookup_insert] at hx'
        have hxi := (some.inj hx').symm
        subst hxi
        refine ⟨hnew, hid, ?_⟩
        intro op' st hc hmod
        have hopeq : op = op' := by
          have := hc
          simp only [Control.waiters.injEq] at this
          exact this.2.2.1
        exact hop (hopeq ▸ hmod)
      · have hx' : (c.items.insert bucket { it with fetchWaiters := rest }).lookup b =
          some x := hx
        rw [AList.lookup_insert_ne hb] at hx'
        obtain ⟨hi, hid', _⟩ := h.items b x hx'
        refine ⟨hi, hid', ?_⟩
        intro op' st hc
        simp only [Control.waiters.injEq] at hc
        exact absurd hc.1.symm hb
    · intro b id op' st hc
      simp only [Control.waiters.injEq] at hc
      rw [← hc.2.1]
      exact hid
  | nil =>
    by_cases hm : op = .saving ∨ op = .deleting
    · simp only [hm, if_true]
      obtain ⟨hsome, hnone⟩ := hop hm
      obtain ⟨w, hw'⟩ := Option.isSome_iff_exists.mp hsome
      rw [assert_of_true hsome, hw']
      have hidle : Inv k { c with control := .idle } :=
        h.setControl .idle (by intro _ _ _ _ hc; cases hc)
      have hnew : ItemInv k { it with fetchWaiters := [], onChanged := none } := by
        refine ⟨?_, hit.load, hit.saved, hit.past⟩
        intro e he
        rw [show it.engineModify = some e from he] at hnone
        cases hnone
      have hput := hidle.put bucket hnew hid (by intro _ _ hc; cases hc)
      exact (hput.answer w state none).setControl
        (.changed bucket it.id op state) (by intro _ _ _ _ hc; cases hc)
    · simp only [hm, if_false]
      exact finishDone_inv h bucket op state

variable {e : Engine}

/-- `on_done` goes well for an entry whose operation left its mark in `current_op` and which is
not about to go back in time. -/
theorem onDone_inv (h : Inv (k + 1) c) (now : Int) (hid : it.id < c.nextId)
    (hop : it.currentOp ≠ .none) (he : it.engineModify = some e)
    (hstale : Engine.stale e it = false) (htake : ItemInv (k + 1) (it.takeOver e c.clock now))
    (hchanged : it.currentOp.isModify → it.onChanged.isSome = true) (hidle : c.control = .idle) :
    Inv (k + 1) (c.onDone bucket it now) := by
  unfold onDone
  have hnow : c.assert (it.currentOp ≠ .none) .noCurrentOp = c :=
    assert_of_true (by simpa using hop) _
  have hfresh : c.assert (!Engine.stale e it) .staleLoad = c :=
    assert_of_true (by simp [hstale]) _
  simp only [he, isSome_some, hnow, assert_of_true rfl, hfresh]
  have hput := h.put bucket htake hid (by intro _ _ hc; rw [hidle] at hc; cases hc)
  have hupdated : Inv (k + 1) ((c.put bucket (it.takeOver e c.clock now)).updated bucket) :=
    ⟨hput.items, hput.control, hput.faults⟩
  refine drain_inv hupdated htake hid e.metadata.state ?_
  intro hm
  exact ⟨hchanged hm, rfl⟩

theorem modifyDone_inv (h : Inv c.clock c) (hl : c.items.lookup bucket = some it)
    (hidle : c.control = .idle) (he : it.engineModify = some e) (state : S3BucketMetadataState)
    (content : Bytes) (now : Int) :
    Inv (c.clock + 1)
      (c.onDone bucket { it with engineModify := some (e.ended state content) } now) := by
  obtain ⟨hit, hid, _⟩ := h.items bucket it hl
  obtain ⟨hop, hchanged, hnotload⟩ := hit.modify e he
  refine onDone_inv h.mono now hid hop rfl ?_ ?_ (fun _ => hchanged) hidle
  · have : (e.ended state content).op ≠ .load := hnotload
    simp [Engine.stale, this]
  · -- the modification ends now, after every load in flight was launched
    have hmod : (Item.takeOver { it with engineModify := some (e.ended state content) }
        (e.ended state content) c.clock now).modifiedAt = some c.clock := by
      simp [Item.takeOver, Engine.ended, hnotload]
    refine ⟨?_, ?_, ?_, ?_⟩
    · intro x hx; cases hx
    · intro x hx
      obtain ⟨hload, hlt, _⟩ := hit.load x hx
      refine ⟨hload, by omega, ?_⟩
      intro _ hlate
      exact absurd hlt (hlate c.clock hmod)
    · intro t ht
      refine ⟨c.clock, hmod, ?_⟩
      unfold Item.takeOver at ht
      simp only at ht
      split at ht
      · exact Nat.le_of_eq (some.inj ht).symm
      · obtain ⟨t', ht', hle⟩ := hit.saved t ht
        have := hit.past t' ht'
        omega
    · intro t ht
      rw [hmod] at ht
      have := some.inj ht
      omega

theorem loadDone_inv (h : Inv c.clock c) (hl : c.items.lookup bucket = some it)
    (hidle : c.control = .idle) (he : it.engineLoad = some e) (state : S3BucketMetadataState)
    (content : Bytes) (now : Int)
    (horder : it.engineModify = none → ∀ t, it.modifiedAt = some t → ¬ e.launchedAt < t) :
    Inv (c.clock + 1)
      (c.onLoad bucket { it with engineLoad := some (e.ended state content) } now) := by
  obtain ⟨hit, hid, hholds⟩ := h.items bucket it hl
  obtain ⟨hload, hlt, hfetch⟩ := hit.load e he
  unfold onLoad
  simp only [isSome_some]
  rw [assert_of_true rfl]
  by_cases hmod : it.engineModify.isSome = true
  · -- a modification is in flight, and will bring a newer value
    rw [if_pos hmod]
    have hmono := hit.mono
    refine h.mono.put bucket ⟨hmono.modify, ?_, hmono.saved, hmono.past⟩ hid hholds
    intro x hx; cases hx
  · rw [if_neg hmod]
    have hnone : it.engineModify = none := by simpa using hmod
    have hlate := horder hnone
    have hop := hfetch hnone hlate
    refine onDone_inv h.mono now hid (by rw [hop]; decide) rfl ?_ ?_ ?_ hidle
    · -- what was saved was saved before the load was launched
      unfold Engine.stale
      cases hsaved : it.savedAt with
      | none => simp
      | some t =>
        obtain ⟨t', ht', hle⟩ := hit.saved t hsaved
        have := hlate t' ht'
        have hnot : ¬ (e.ended state content).launchedAt < t := by
          show ¬ e.launchedAt < t
          omega
        simp [hnot]
    · have hmono := hit.mono
      have hisload : (e.ended state content).op = .load := hload
      refine ⟨?_, ?_, ?_, ?_⟩
      · intro x hx; cases hx
      · intro x hx; cases hx
      · simpa [Item.takeOver, hisload] using hmono.saved
      · simpa [Item.takeOver, hisload] using hmono.past
    · intro hm
      rw [hop] at hm
      rcases hm with hm | hm <;> cases hm

theorem resume_inv (h : Inv c.clock c) (hr : c.resume = some c') : Inv (c.clock + 1) c' := by
  have hmono := h.mono
  unfold resume at hr
  cases hc : c.control with
  | idle => simp [hc] at hr
  | waiters bucket id op state =>
    simp only [hc] at hr
    cases hl : c.items.lookup bucket with
    | none =>
      simp only [hl, some.injEq] at hr
      rw [← hr]
      exact hmono.crash
    | some it =>
      simp only [hl] at hr
      by_cases hid : it.id = id
      · rw [if_pos hid, some.injEq] at hr
        rw [← hr]
        obtain ⟨hit, hlt, hholds⟩ := hmono.items bucket it hl
        refine drain_inv hmono hit hlt state ?_
        intro hm
        exact hholds op state (by rw [hc, hid]) hm
      · rw [if_neg hid, some.injEq] at hr
        rw [← hr]
        exact hmono.crash
  | changed bucket id op state =>
    simp only [hc] at hr
    split at hr
    · cases hl : c.items.lookup bucket with
      | none =>
        simp only [hl, some.injEq] at hr
        rw [← hr]
        exact hmono.crash
      | some it =>
        simp only [hl] at hr
        by_cases hid : it.id = id
        · rw [if_pos hid, some.injEq] at hr
          rw [← hr]
          exact finishDone_inv hmono bucket op state
        · rw [if_neg hid, some.injEq] at hr
          rw [← hr]
          exact hmono.crash
    · rw [← some.inj hr]
      exact finishDone_inv hmono bucket op state

/-! ### Runs -/

theorem idleItem_eq_some (h : c.idleItem bucket = some it) :
    c.control = .idle ∧ c.items.lookup bucket = some it := by
  unfold idleItem at h
  by_cases hi : c.control = .idle
  · rw [if_pos hi] at h
    exact ⟨hi, h⟩
  · rw [if_neg hi] at h
    cases h

variable {content : Bytes} {state : S3BucketMetadataState}

/-- An operation ends that is under way in the entry of the bucket. -/
theorem react_loadDone_eq_some {now : Int}
    (h : c.react (.loadDone bucket state content now) = some c') :
    ∃ it x, c.control = .idle ∧ c.items.lookup bucket = some it ∧ it.engineLoad = some x ∧
      c' = c.onLoad bucket { it with engineLoad := some (x.ended state content) } now := by
  simp only [react] at h
  cases hi : c.idleItem bucket with
  | none => simp [hi] at h
  | some it =>
    obtain ⟨hidle, hl⟩ := idleItem_eq_some hi
    cases he : it.engineLoad with
    | none => simp [hi, he] at h
    | some x =>
      simp only [hi, he, some.injEq] at h
      exact ⟨it, x, hidle, hl, he, h.symm⟩

theorem react_modifyDone_eq_some {now : Int}
    (h : c.react (.modifyDone bucket state content now) = some c') :
    ∃ it x, c.control = .idle ∧ c.items.lookup bucket = some it ∧ it.engineModify = some x ∧
      c' = c.onDone bucket { it with engineModify := some (x.ended state content) } now := by
  simp only [react] at h
  cases hi : c.idleItem bucket with
  | none => simp [hi] at h
  | some it =>
    obtain ⟨hidle, hl⟩ := idleItem_eq_some hi
    cases he : it.engineModify with
    | none => simp [hi, he] at h
    | some x =>
      simp only [hi, he, some.injEq] at h
      exact ⟨it, x, hidle, hl, he, h.symm⟩

theorem step_eq_some {e : Event} (h : c.step e = some c') :
    ∃ c₁, c.react e = some c₁ ∧ c' = { c₁ with clock := c.clock + 1 } := by
  unfold step at h
  by_cases hcrash : c.crashed = true
  · rw [if_pos hcrash] at h
    cases h
  · rw [if_neg hcrash] at h
    obtain ⟨c₁, hr, hc₁⟩ := map_eq_some_iff.mp h
    exact ⟨c₁, hr, hc₁.symm⟩

/-- **An orderly event keeps the invariant.** -/
theorem react_inv (h : Inv c.clock c) {e : Event} (hok : c.Orderly e) (hr : c.react e = some c') :
    Inv (c.clock + 1) c' := by
  cases e with
  | fetch src w now =>
    rw [← some.inj hr]
    exact withItem_inv h (h.mono.answer _ _ _) fun _ _ hf => itemFetch_inv hf w
  | save src w now =>
    rw [← some.inj hr]
    exact withItem_inv h (h.mono.answer _ _ _)
      fun _ _ hf => itemModify_inv hf hok (by decide) (by decide) _ w
  | update src w now =>
    rw [← some.inj hr]
    exact withItem_inv h (h.mono.answer _ _ _)
      fun _ _ hf => itemModify_inv hf hok (by decide) (by decide) _ w
  | remove src w now =>
    rw [← some.inj hr]
    exact withItem_inv h (h.mono.answer _ _ _)
      fun _ _ hf => itemModify_inv hf hok (by decide) (by decide) _ w
  | loadDone bucket state content now =>
    obtain ⟨it, x, hidle, hl, he, rfl⟩ := react_loadDone_eq_some hr
    exact loadDone_inv h hl hidle he state content now fun hn => hok it x hl hn he
  | modifyDone bucket state content now =>
    obtain ⟨it, x, hidle, hl, he, rfl⟩ := react_modifyDone_eq_some hr
    exact modifyDone_inv h hl hidle he state content now
  | resume => exact resume_inv h hr

theorem step_inv (h : Inv c.clock c) {e : Event} (hok : c.Orderly e) (hs : c.step e = some c') :
    Inv c'.clock c' := by
  obtain ⟨c₁, hr, rfl⟩ := step_eq_some hs
  have hinv := react_inv h hok hr
  exact ⟨hinv.items, hinv.control, hinv.faults⟩

theorem init_inv (maxSize expire refresh : Nat) : Inv 0 (init maxSize expire refresh) := by
  refine ⟨?_, ?_, rfl⟩
  · intro bucket it hit
    have : (∅ : AList fun _ : Bytes => Item).lookup bucket = some it := hit
    rw [AList.lookup_empty] at this
    cases this
  · intro bucket id op state hc
    cases hc

/-- **In a run of orderly events no assertion of `on_load` or `on_done` fails, and no value that
was saved is replaced by one that was loaded before.** -/
theorem faults_nil_of_orderly (maxSize expire refresh : Nat) {c : S3BucketMetadataCache}
    (h : Runs.Reachable step Orderly (init maxSize expire refresh) c) : c.faults = [] := by
  have hinv : Inv c.clock c := by
    refine h.invariant (P := fun c => Inv c.clock c) (init_inv maxSize expire refresh) ?_
    intro s e s' hs hok hstep
    exact step_inv hs hok hstep
  exact hinv.faults

/-- A load is launched for one request, and another one saves the bucket. -/
def fetchAndSave : List Event :=
  [.fetch { bucketName := ascii "b" } 1 1000,
    .save { bucketName := ascii "b", state := .missing, content := ascii "new" } 2 1000]

/-- The load ends while the save is in flight, and nothing is lost. -/
theorem faults_nil_of_orderly_fetchAndSave :
    ∃ c, Runs.run step (init 10 100 10)
        (fetchAndSave ++ [.loadDone (ascii "b") .missing [] 2000,
          .modifyDone (ascii "b") .present (ascii "new") 3000]) = some c ∧ c.faults = [] := by
  obtain ⟨c, hc⟩ := Option.isSome_iff_exists.mp (show (Runs.run step (init 10 100 10)
    (fetchAndSave ++ [.loadDone (ascii "b") .missing [] 2000,
      .modifyDone (ascii "b") .present (ascii "new") 3000])).isSome = true by decide)
  refine ⟨c, hc, faults_nil_of_orderly 10 100 10 (Runs.reachable_of_run _ .start ?_ hc)⟩
  refine ⟨trivial, fun s₁ h₁ => ⟨?_, fun s₂ h₂ => ⟨?_, fun s₃ _ => ⟨trivial, fun _ _ => trivial⟩⟩⟩⟩
  · obtain rfl := some.inj h₁
    intro id op state hc
    cases hc
  · obtain rfl := some.inj h₁
    obtain rfl := some.inj h₂
    intro it e hl hn
    obtain rfl := some.inj hl
    cases hn

/-- The save ends first, and then the load ends. -/
theorem faults_of_late_load :
    ¬ ∀ c, Runs.Reachable step (fun _ _ => True) (init 10 100 10) c → c.faults = [] := by
  intro h
  have hrun : ((Runs.run step (init 10 100 10)
      (fetchAndSave ++ [.modifyDone (ascii "b") .present (ascii "new") 2000, .resume, .resume,
        .loadDone (ascii "b") .missing [] 3000])).map fun c => c.faults) =
        some [.noCurrentOp, .staleLoad] := by decide
  obtain ⟨c, hc, hfaults⟩ := map_eq_some_iff.mp hrun
  have hreach : Runs.Reachable step (fun _ _ => True) (init 10 100 10) c :=
    Runs.reachable_of_run _ .start (by simp [Runs.AllOk, fetchAndSave]) hc
  rw [h c hreach] at hfaults
  cases hfaults

end S3BucketMetadataCache

end CortxS3
