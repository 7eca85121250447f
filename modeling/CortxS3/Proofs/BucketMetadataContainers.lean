/-
The three containers of the cache, and what may be taken out of them.

`items` holds the entries, `sorted_by_access` and `sorted_by_update` the same entries in the
order of their time stamps.  Each is changed by hand wherever an entry comes, is touched, is
replaced or goes, and they stay in step whatever happens, as long as the clock does not go back
(`Lists`).

The last clause is another matter: an entry with an operation in flight, or with a callback that
was not called yet, should not be destroyed.  It is destroyed in two ways.

  * `shrink` looks at the operations only.  While `on_done` calls its handlers the entry has none
    in flight, and a handler that asks for another bucket in a full cache may have the very entry
    destroyed whose callbacks are being called.
  * `on_done` of a `remove`, or of an operation that failed, removes the entry without a look.
    A load that was launched before the `remove`, or by one of the handlers, is still in flight.

`Spares` is an event that does neither, and then no entry is destroyed too early
(`consistent_of_reachable`).  The invariant behind it (`Owed`) says where a callback that waits
for nothing in flight is going to be called: in the loop of `on_done` that is under way.
-/
import CortxS3.Proofs.BucketMetadataCache
import CortxS3.Lib.RecentFirst

namespace CortxS3

open Option (isNone_none some.inj some.injEq)
open List

namespace S3BucketMetadataCache

/-- The time stamp of a bucket's entry. -/
def stamp (items : AList fun _ : Bytes => Item) (time : Item → Int) (bucket : Bytes) : Int :=
  ((items.lookup bucket).map time).getD 0

/-- The entry can go: it has nothing in flight, and no callback waits in it. -/
structure Free (it : Item) : Prop where
  canRemove : it.canRemove = true
  fetchWaiters : it.fetchWaiters = []
  onChanged : it.onChanged = none

/-- What is expected of the containers, and of the entries that left them. -/
structure Consistent (c : S3BucketMetadataCache) : Prop where
  access : RecentFirst c.items.keys (stamp c.items Item.accessTime) c.sortedByAccess
  update : RecentFirst c.items.keys (stamp c.items Item.updateTime) c.sortedByUpdate
  size : c.items.keys.length ≤ c.maxCacheSize
  destroyed : ∀ it ∈ c.destroyed, Free it

/-! ### The events that go well -/

/-- When an event happens, if it looks at the clock. -/
def Event.now : Event → Option Int
  | .fetch _ _ now => some now
  | .save _ _ now => some now
  | .update _ _ now => some now
  | .remove _ _ now => some now
  | .loadDone _ _ _ now => some now
  | .modifyDone _ _ _ now => some now
  | .resume => none

/-- The clock is a steady one: it never goes back behind a stamp it gave. -/
def Steady (c : S3BucketMetadataCache) (e : Event) : Prop :=
  ∀ now ∈ e.now, 0 ≤ now ∧ ∀ p ∈ c.items.entries, p.2.accessTime ≤ now ∧ p.2.updateTime ≤ now
deriving Decidable

/-- The bucket whose metadata a call is about. -/
def Event.source : Event → Option S3BucketMetadata
  | .fetch src _ _ => some src
  | .save src _ _ => some src
  | .update src _ _ => some src
  | .remove src _ _ => some src
  | _ => none

/-- The bucket whose entry a call evicts. -/
def victim (c : S3BucketMetadataCache) (src : S3BucketMetadata) (now : Int) : Option Bytes :=
  if c.maxCacheSize < c.items.entries.length +
      (if (c.items.lookup src.bucketName).isNone then 1 else 0) then
    (expiredItem c now c.sortedByUpdate.reverse).or (removableItem c c.sortedByAccess.reverse)
  else none

/-- The loop of an `on_done` of the bucket is under way, with callbacks yet to be called. -/
def inLoop (c : S3BucketMetadataCache) (bucket : Bytes) : Bool :=
  match c.control with
  | .waiters b id op _ =>
    b == bucket && (decide op.isModify ||
      (c.items.lookup b).any fun it => it.id == id && !it.fetchWaiters.isEmpty)
  | _ => false

/-- The entry that `on_done` removes when the handler returns. -/
def doomed (c : S3BucketMetadataCache) : Option Item :=
  match c.control with
  | .idle => none
  | .waiters bucket id op state =>
    if ¬ op.isModify ∧ Removes op state then
      (c.items.lookup bucket).filter fun it => it.id == id && it.fetchWaiters.isEmpty
    else none
  | .changed bucket id op state =>
    if Removes op state then (c.items.lookup bucket).filter fun it => it.id == id else none

/-- The entries that would be destroyed too early are spared: a call evicts no entry whose
callbacks are just being called, and when `on_done` removes an entry there is no other operation
in flight on it. -/
def Spares (c : S3BucketMetadataCache) (e : Event) : Prop :=
  c.Steady e ∧
    (∀ src ∈ e.source, ∀ now ∈ e.now, ∀ bucket ∈ c.victim src now, c.inLoop bucket = false) ∧
    (e = .resume → ∀ it ∈ c.doomed, it.canRemove = true)
deriving Decidable

/-! ### The containers -/

/-- The lists hold the entries of the map, in the order of their stamps. -/
structure Lists (items : AList fun _ : Bytes => Item) (access upd : List Bytes) : Prop where
  access : RecentFirst items.keys (stamp items Item.accessTime) access
  update : RecentFirst items.keys (stamp items Item.updateTime) upd
  positive : ∀ bucket it, items.lookup bucket = some it → 0 ≤ it.updateTime

theorem stamp_insert_self (items : AList fun _ : Bytes => Item) (time : Item → Int)
    (bucket : Bytes) (it : Item) : stamp (items.insert bucket it) time bucket = time it := by
  unfold stamp
  rw [AList.lookup_insert]
  rfl

variable {bucket : Bytes}

theorem stamp_insert_of_ne {b : Bytes} (h : b ≠ bucket) (items : AList fun _ : Bytes => Item)
    (time : Item → Int) (it : Item) :
    stamp (items.insert bucket it) time b = stamp items time b := by
  unfold stamp
  rw [AList.lookup_insert_ne h]

theorem stamp_erase_of_ne {b : Bytes} (h : b ≠ bucket) (items : AList fun _ : Bytes => Item)
    (time : Item → Int) : stamp (items.erase bucket) time b = stamp items time b := by
  unfold stamp
  rw [AList.lookup_erase_ne h]

variable {it : Item} {items : AList fun _ : Bytes => Item}

theorem stamp_of_lookup (h : items.lookup bucket = some it) (time : Item → Int) :
    stamp items time bucket = time it := by
  unfold stamp
  rw [h]
  rfl

theorem mem_keys_of_lookup (h : items.lookup bucket = some it) : bucket ∈ items.keys := by
  rw [← AList.mem_keys, ← AList.lookup_isSome, h]
  rfl

theorem lookup_of_mem_keys (h : bucket ∈ items.keys) : ∃ it, items.lookup bucket = some it := by
  rw [← AList.mem_keys, ← AList.lookup_isSome] at h
  exact Option.isSome_iff_exists.mp h

theorem notMem_keys_of_lookup (h : items.lookup bucket = none) : bucket ∉ items.keys := by
  intro hmem
  obtain ⟨it, hit⟩ := lookup_of_mem_keys hmem
  rw [h] at hit
  cases hit

theorem keys_insert_perm (h : bucket ∈ items.keys) (it : Item) :
    items.keys.Perm (items.insert bucket it).keys := by
  rw [perm_ext_iff_of_nodup items.keys_nodup (AList.keys_nodup _)]
  intro b
  rw [← AList.mem_keys, ← AList.mem_keys, AList.mem_insert]
  constructor
  · exact .inr
  · rintro (rfl | hb)
    · exact h
    · exact hb

theorem keys_insert_new_perm (h : items.lookup bucket = none) (it : Item) :
    (bucket :: items.keys).Perm (items.insert bucket it).keys := by
  have hnodup : (bucket :: items.keys).Nodup :=
    nodup_cons.mpr ⟨notMem_keys_of_lookup h, items.keys_nodup⟩
  rw [perm_ext_iff_of_nodup hnodup (AList.keys_nodup _)]
  intro b
  rw [← AList.mem_keys, AList.mem_insert, mem_cons, AList.mem_keys]

theorem keys_erase_perm (items : AList fun _ : Bytes => Item) (bucket : Bytes) :
    (items.keys.erase bucket).Perm (items.erase bucket).keys := by
  rw [perm_ext_iff_of_nodup (items.keys_nodup.erase bucket) (AList.keys_nodup _)]
  intro b
  rw [items.keys_nodup.mem_erase_iff, ← AList.mem_keys, ← AList.mem_keys, AList.mem_erase]

theorem Lists.empty : Lists ∅ [] [] := by
  refine ⟨⟨.refl _, .nil⟩, ⟨.refl _, .nil⟩, ?_⟩
  intro bucket it hit
  rw [AList.lookup_empty] at hit
  cases hit

section
variable {items : AList fun _ : Bytes => Item} {access upd : List Bytes} {bucket : Bytes}
  {it old : Item} {now : Int}

theorem Lists.positive_insert (h : Lists items access upd) (hit : 0 ≤ it.updateTime) :
    ∀ b x, (items.insert bucket it).lookup b = some x → 0 ≤ x.updateTime := by
  intro b x hx
  by_cases hb : b = bucket
  · rw [hb, AList.lookup_insert, some.injEq] at hx
    rw [← hx]
    exact hit
  · rw [AList.lookup_insert_ne hb] at hx
    exact h.positive b x hx

theorem Lists.put (h : Lists items access upd) (hold : items.lookup bucket = some old)
    (haccess : it.accessTime = old.accessTime) (hupdate : it.updateTime = old.updateTime) :
    Lists (items.insert bucket it) access upd := by
  have hkeys := keys_insert_perm (mem_keys_of_lookup hold) it
  have hstamp : ∀ time : Item → Int, time it = time old →
      ∀ b, stamp (items.insert bucket it) time b = stamp items time b := by
    intro time htime b
    by_cases hb : b = bucket
    · rw [hb, stamp_insert_self, stamp_of_lookup hold, htime]
    · exact stamp_insert_of_ne hb items time it
  refine ⟨h.access.congr hkeys fun b _ => hstamp _ haccess b,
    h.update.congr hkeys fun b _ => hstamp _ hupdate b, h.positive_insert ?_⟩
  rw [hupdate]
  exact h.positive bucket old hold

theorem Lists.erase (h : Lists items access upd) (bucket : Bytes) :
    Lists (items.erase bucket) (access.erase bucket) (upd.erase bucket) := by
  have hkeys := keys_erase_perm items bucket
  refine ⟨(h.access.erase bucket).congr hkeys fun b hb => ?_,
    (h.update.erase bucket).congr hkeys fun b hb => ?_, ?_⟩
  · exact stamp_erase_of_ne (h.access.ne_of_mem_erase items.keys_nodup hb) items _
  · exact stamp_erase_of_ne (h.update.ne_of_mem_erase items.keys_nodup hb) items _
  · intro b x hx
    by_cases hb : b = bucket
    · rw [hb, AList.lookup_erase] at hx
      cases hx
    · rw [AList.lookup_erase_ne hb] at hx
      exact h.positive b x hx

/-- No stamp is later than the clock. -/
def Before (items : AList fun _ : Bytes => Item) (now : Int) : Prop :=
  ∀ bucket it, items.lookup bucket = some it → it.accessTime ≤ now ∧ it.updateTime ≤ now

theorem Before.stamp_le (hnow : Before items now) {b : Bytes} {l : List Bytes}
    {time : Item → Int} (hkeys : l.Perm items.keys) (hb : b ∈ l)
    (htime : ∀ it : Item, it.accessTime ≤ now ∧ it.updateTime ≤ now → time it ≤ now) :
    stamp items time b ≤ now := by
  obtain ⟨x, hx⟩ := lookup_of_mem_keys (hkeys.mem_iff.mp hb)
  rw [stamp_of_lookup hx]
  exact htime x (hnow b x hx)

theorem Lists.touch (h : Lists items access upd) (hold : items.lookup bucket = some old)
    (hnow : Before items now) :
    Lists (items.insert bucket { old with accessTime := now }) (bucket :: access.erase bucket)
      upd := by
  have hmem := mem_keys_of_lookup hold
  have hkeys := keys_insert_perm hmem { old with accessTime := now }
  refine ⟨?_, ?_, h.positive_insert (h.positive bucket old hold)⟩
  · refine (h.access.toFront items.keys_nodup hmem ?_ ?_).congr hkeys fun _ _ => rfl
    · intro b hb
      exact stamp_insert_of_ne hb items _ _
    · intro b hb
      rw [stamp_insert_self]
      exact hnow.stamp_le h.access.perm hb fun _ hx => hx.1
  · refine h.update.congr hkeys ?_
    intro b _
    by_cases hb : b = bucket
    · rw [hb, stamp_insert_self, stamp_of_lookup hold]
    · exact stamp_insert_of_ne hb items _ _

theorem Lists.insert (h : Lists items access upd) (hnone : items.lookup bucket = none)
    (haccess : it.accessTime = now) (hupdate : it.updateTime = 0) (hnow : Before items now) :
    Lists (items.insert bucket it) (bucket :: access) (upd ++ [bucket]) := by
  have hkeys := keys_insert_new_perm hnone it
  have hne : ∀ b, ∀ l : List Bytes, l.Perm items.keys → b ∈ l → b ≠ bucket := by
    rintro b l hl hb rfl
    exact notMem_keys_of_lookup hnone (hl.mem_iff.mp hb)
  have haccess' : RecentFirst items.keys (stamp (items.insert bucket it) Item.accessTime) access :=
    h.access.congr (.refl _) fun b hb => stamp_insert_of_ne (hne b _ h.access.perm hb) items _ _
  have hupdate' : RecentFirst items.keys (stamp (items.insert bucket it) Item.updateTime) upd :=
    h.update.congr (.refl _) fun b hb => stamp_insert_of_ne (hne b _ h.update.perm hb) items _ _
  refine ⟨(haccess'.cons ?_).congr hkeys fun _ _ => rfl,
    (hupdate'.append ?_).congr hkeys fun _ _ => rfl, h.positive_insert hupdate.ge⟩
  · intro b hb
    rw [stamp_insert_self, stamp_insert_of_ne (hne b _ h.access.perm hb), haccess]
    exact hnow.stamp_le h.access.perm hb fun _ hx => hx.1
  · intro b hb
    rw [stamp_insert_self, stamp_insert_of_ne (hne b _ h.update.perm hb), hupdate]
    obtain ⟨x, hx⟩ := lookup_of_mem_keys (h.update.perm.mem_iff.mp hb)
    rw [stamp_of_lookup hx]
    exact h.positive b x hx

theorem Lists.updated (h : Lists items access upd) (hold : items.lookup bucket = some old)
    (haccess : it.accessTime = old.accessTime) (hupdate : it.updateTime = now) (hpos : 0 ≤ now)
    (hnow : Before items now) :
    Lists (items.insert bucket it) access (bucket :: upd.erase bucket) := by
  have hmem := mem_keys_of_lookup hold
  have hkeys := keys_insert_perm hmem it
  refine ⟨?_, ?_, h.positive_insert (by rw [hupdate]; exact hpos)⟩
  · refine h.access.congr hkeys ?_
    intro b _
    by_cases hb : b = bucket
    · rw [hb, stamp_insert_self, stamp_of_lookup hold, haccess]
    · exact stamp_insert_of_ne hb items _ _
  · refine (h.update.toFront items.keys_nodup hmem ?_ ?_).congr hkeys fun _ _ => rfl
    · intro b hb
      exact stamp_insert_of_ne hb items _ _
    · intro b hb
      rw [stamp_insert_self, hupdate]
      exact hnow.stamp_le h.update.perm hb fun _ hx => hx.2

end

/-! ### The invariant -/

/-- A callback that waits for nothing in flight is called by the loop that is under way. -/
structure Owed (control : Control) (bucket : Bytes) (it : Item) : Prop where
  modify : it.engineModify.isSome = true → it.currentOp.isModify
  waiters : it.canRemove = true → it.fetchWaiters ≠ [] →
    ∃ op state, control = .waiters bucket it.id op state
  changed : it.engineModify = none → it.onChanged ≠ none →
    ∃ op state, control = .waiters bucket it.id op state ∧ op.isModify

/-- What holds in every state. -/
structure Keeps (c : S3BucketMetadataCache) : Prop where
  lists : Lists c.items c.sortedByAccess c.sortedByUpdate
  size : c.items.keys.length ≤ c.maxCacheSize
  owed : ∀ bucket it, c.items.lookup bucket = some it → Owed c.control bucket it
  destroyed : ∀ it ∈ c.destroyed, Free it

theorem engineModify_of_canRemove (h : it.canRemove = true) : it.engineModify = none := by
  unfold Item.canRemove at h
  rw [Bool.and_eq_true] at h
  exact Option.isNone_iff_eq_none.mp h.2

variable {control : Control}

/-- What is not owed by the loop that is under way is not owed by any other. -/
theorem Owed.of_not_loop {control' : Control} (h : Owed control bucket it)
    (hno : ∀ id op state, control ≠ .waiters bucket id op state) : Owed control' bucket it := by
  refine ⟨h.modify, ?_, ?_⟩
  · intro hcan hne
    obtain ⟨op, state, hc⟩ := h.waiters hcan hne
    exact absurd hc (hno _ op state)
  · intro hmod hne
    obtain ⟨op, state, hc, _⟩ := h.changed hmod hne
    exact absurd hc (hno _ op state)

variable {c : S3BucketMetadataCache}

theorem Owed.free (h : Owed c.control bucket it) (hl : c.items.lookup bucket = some it)
    (hcan : it.canRemove = true) (hloop : c.inLoop bucket = false) : Free it := by
  refine ⟨hcan, ?_, ?_⟩
  · by_contra hne
    obtain ⟨op, state, hc⟩ := h.waiters hcan hne
    simp [inLoop, hc, hl, hne] at hloop
  · by_contra hne
    obtain ⟨op, state, hc, hop⟩ := h.changed (engineModify_of_canRemove hcan) hne
    simp [inLoop, hc, hop] at hloop

section
variable {c : S3BucketMetadataCache} {bucket : Bytes} {it old : Item} {now : Int}

theorem Keeps.answer (h : Keeps c) (w : Handler) (state : S3BucketMetadataState)
    (value : Option S3BucketMetadata) : Keeps (c.answer w state value) :=
  ⟨h.lists, h.size, h.owed, h.destroyed⟩

theorem Keeps.crash (h : Keeps c) : Keeps c.crash :=
  ⟨h.lists, h.size, h.owed, h.destroyed⟩

theorem length_insert (items : AList fun _ : Bytes => Item) (hold : items.lookup bucket = some old) :
    (items.insert bucket it).keys.length = items.keys.length :=
  (keys_insert_perm (mem_keys_of_lookup hold) it).length_eq.symm

theorem owed_insert {items : AList fun _ : Bytes => Item} {control : Control}
    (h : ∀ b x, b ≠ bucket → items.lookup b = some x → Owed control b x)
    (hit : Owed control bucket it) :
    ∀ b x, (items.insert bucket it).lookup b = some x → Owed control b x := by
  intro b x hx
  by_cases hb : b = bucket
  · rw [hb, AList.lookup_insert, some.injEq] at hx
    rw [hb, ← hx]
    exact hit
  · rw [AList.lookup_insert_ne hb] at hx
    exact h b x hb hx

/-- An entry may be replaced by one with the same stamps that is owed no more. -/
theorem Keeps.put (h : Keeps c) (hold : c.items.lookup bucket = some old)
    (howed : Owed c.control bucket it) (haccess : it.accessTime = old.accessTime)
    (hupdate : it.updateTime = old.updateTime) : Keeps (c.put bucket it) :=
  ⟨h.lists.put hold haccess hupdate, (length_insert c.items hold).trans_le h.size,
    owed_insert (fun b x _ hx => h.owed b x hx) howed, h.destroyed⟩

/-! ### The containers in a call -/

theorem removeItem_eq (hl : c.items.lookup bucket = some it) (hcan : it.canRemove = true) :
    c.removeItem bucket = { c with
      sortedByAccess := c.sortedByAccess.erase bucket
      sortedByUpdate := c.sortedByUpdate.erase bucket
      items := c.items.erase bucket
      destroyed := c.destroyed ++ [it] } := by
  simp only [removeItem, hl, hcan, if_true]

theorem length_erase (items : AList fun _ : Bytes => Item) (hl : items.lookup bucket = some it) :
    (items.erase bucket).keys.length + 1 = items.keys.length := by
  have hmem := mem_keys_of_lookup hl
  rw [← (keys_erase_perm items bucket).length_eq, length_erase_of_mem hmem]
  have := length_pos_of_mem hmem
  omega

theorem Keeps.removeItem (h : Keeps c) (hl : c.items.lookup bucket = some it) (hfree : Free it) :
    Keeps (c.removeItem bucket) := by
  rw [removeItem_eq hl hfree.canRemove]
  have hlength := length_erase c.items hl
  have hsize := h.size
  refine ⟨h.lists.erase bucket, ?_, ?_, ?_⟩
  · show (c.items.erase bucket).keys.length ≤ c.maxCacheSize
    omega
  · intro b x hx
    by_cases hb : b = bucket
    · have hx' : (c.items.erase bucket).lookup b = some x := hx
      rw [hb, AList.lookup_erase] at hx'
      cases hx'
    · have hx' : (c.items.erase bucket).lookup b = some x := hx
      rw [AList.lookup_erase_ne hb] at hx'
      exact h.owed b x hx'
  · intro x hx
    rcases mem_append.mp hx with hx | hx
    · exact h.destroyed x hx
    · rw [mem_singleton.mp hx]
      exact hfree

theorem expiredItem_canRemove :
    ∀ {l : List Bytes} {b : Bytes}, expiredItem c now l = some b →
      ∃ it, c.items.lookup b = some it ∧ it.canRemove = true := by
  intro l
  induction l with
  | nil =>
    intro b h
    cases h
  | cons a rest ih =>
    intro b h
    unfold expiredItem at h
    cases hl : c.items.lookup a with
    | none => simp [hl] at h
    | some it =>
      simp only [hl] at h
      split at h
      · cases h
      · split at h
        · rename_i hcan
          rw [← some.inj h]
          exact ⟨it, hl, hcan⟩
        · exact ih h

theorem removableItem_canRemove :
    ∀ {l : List Bytes} {b : Bytes}, removableItem c l = some b →
      ∃ it, c.items.lookup b = some it ∧ it.canRemove = true := by
  intro l
  induction l with
  | nil =>
    intro b h
    cases h
  | cons a rest ih =>
    intro b h
    unfold removableItem at h
    cases hl : c.items.lookup a with
    | none => simp [hl] at h
    | some it =>
      simp only [hl] at h
      split at h
      · rename_i hcan
        rw [← some.inj h]
        exact ⟨it, hl, hcan⟩
      · exact ih h

theorem shrink_eq (c : S3BucketMetadataCache) (now : Int) :
    c.shrink now = ((expiredItem c now c.sortedByUpdate.reverse).or
      (removableItem c c.sortedByAccess.reverse)).map c.removeItem := by
  unfold shrink
  cases expiredItem c now c.sortedByUpdate.reverse with
  | some b | none => rfl

end

/-- What a call finds when it goes on: the entry of its bucket. -/
structure Entry (c c' : S3BucketMetadataCache) (bucket : Bytes) (it : Item) : Prop where
  keeps : Keeps c'
  lookup : c'.items.lookup bucket = some it
  control : c'.control = c.control

variable {now : Int}

theorem touchItem_entry (h : Keeps c) (src : S3BucketMetadata) (hnow : Before c.items now)
    (hroom : c.items.lookup src.bucketName = none → c.items.keys.length < c.maxCacheSize) :
    Entry c (c.touchItem src now).1 src.bucketName (c.touchItem src now).2 := by
  unfold touchItem
  cases hl : c.items.lookup src.bucketName with
  | some it =>
    have howed := h.owed src.bucketName it hl
    exact ⟨⟨h.lists.touch hl hnow, (length_insert c.items hl).trans_le h.size,
      owed_insert (fun b x _ hx => h.owed b x hx) ⟨howed.modify, howed.waiters, howed.changed⟩,
      h.destroyed⟩, AList.lookup_insert _, rfl⟩
  | none =>
    obtain ⟨new, hnew⟩ : ∃ new : Item,
      new = { id := c.nextId, value := src, accessTime := now } := ⟨_, rfl⟩
    have howed : Owed c.control src.bucketName new := by
      rw [hnew]
      exact ⟨fun hm => (by cases hm), fun _ hne => absurd rfl hne, fun _ hne => absurd rfl hne⟩
    have hlength := (keys_insert_new_perm hl new).length_eq
    rw [length_cons] at hlength
    simp only [← hnew]
    refine ⟨⟨h.lists.insert hl (by rw [hnew]) (by rw [hnew]) hnow, ?_,
      owed_insert (fun b x _ hx => h.owed b x hx) howed, h.destroyed⟩,
      AList.lookup_insert _, rfl⟩
    have := hroom hl
    show (c.items.insert src.bucketName new).keys.length ≤ c.maxCacheSize
    omega

theorem Before.erase (h : Before items now) (bucket : Bytes) : Before (items.erase bucket) now := by
  intro b x hx
  by_cases hb : b = bucket
  · rw [hb, AList.lookup_erase] at hx
    cases hx
  · rw [AList.lookup_erase_ne hb] at hx
    exact h b x hx

variable {c' : S3BucketMetadataCache} {src : S3BucketMetadata}

/-- A call that goes on finds its entry in the cache as it was, or in the cache without the
entry that was evicted. -/
theorem getItem_cases (h : Keeps c) (hg : c.getItem src now = some (c', it)) :
    (c', it) = c.touchItem src now ∧
        (c.items.lookup src.bucketName = none → c.items.keys.length < c.maxCacheSize) ∨
      ∃ bucket x, c.victim src now = some bucket ∧ c.items.lookup bucket = some x ∧
        x.canRemove = true ∧ (c', it) = (c.removeItem bucket).touchItem src now := by
  have hlength : c.items.entries.length = c.items.keys.length := by
    simp [AList.keys, List.keys]
  have hsize := h.size
  unfold getItem at hg
  by_cases hfull : c.maxCacheSize < c.items.entries.length +
      (if (c.items.lookup src.bucketName).isNone then 1 else 0)
  · -- the cache is full, so the bucket is not in it
    have hnew : c.items.lookup src.bucketName = none := by
      cases hl : c.items.lookup src.bucketName with
      | none => rfl
      | some x =>
        rw [hl, hlength] at hfull
        simp only [Option.isNone_some, Bool.false_eq_true, if_false] at hfull
        omega
    simp only [hfull, if_true, shrink_eq] at hg
    cases hv : (expiredItem c now c.sortedByUpdate.reverse).or
        (removableItem c c.sortedByAccess.reverse) with
    | none => simp [hv] at hg
    | some bucket =>
      have hcan : ∃ x, c.items.lookup bucket = some x ∧ x.canRemove = true := by
        rcases Option.or_eq_some_iff.mp hv with hb | ⟨_, hb⟩
        · exact expiredItem_canRemove hb
        · exact removableItem_canRemove hb
      obtain ⟨x, hx, hxcan⟩ := hcan
      have hvictim : c.victim src now = some bucket := by
        rw [victim, if_pos hfull]
        exact hv
      rw [hv] at hg
      simp only [Option.map_some, hnew, isNone_none, Bool.not_true, Bool.false_and,
        Bool.false_eq_true, if_false] at hg
      exact .inr ⟨bucket, x, hvictim, hx, hxcan, (some.inj hg).symm⟩
  · simp only [hfull, if_false] at hg
    refine .inl ⟨(some.inj hg).symm, ?_⟩
    intro hnew
    rw [hnew, hlength] at hfull
    simp only [isNone_none, if_true] at hfull
    omega

/-- **A call that evicts no entry out of its loop finds the containers in order.** -/
theorem getItem_entry (h : Keeps c) (hnow : Before c.items now)
    (hloop : ∀ bucket ∈ c.victim src now, c.inLoop bucket = false)
    (hg : c.getItem src now = some (c', it)) : Entry c c' src.bucketName it := by
  rcases getItem_cases h hg with ⟨heq, hroom⟩ | ⟨bucket, x, hvictim, hx, hxcan, heq⟩
  · rw [Prod.ext_iff] at heq
    obtain ⟨rfl, rfl⟩ := heq
    exact touchItem_entry h src hnow hroom
  · have hfree := (h.owed bucket x hx).free hx hxcan (hloop bucket hvictim)
    have hkeeps := h.removeItem hx hfree
    rw [removeItem_eq hx hxcan] at hkeeps heq
    have hless := length_erase c.items hx
    have hsize := h.size
    have hentry := touchItem_entry hkeeps src (hnow.erase bucket) (by
      intro _
      show (c.items.erase bucket).keys.length < c.maxCacheSize
      omega)
    rw [Prod.ext_iff] at heq
    obtain ⟨rfl, rfl⟩ := heq
    exact ⟨hentry.keeps, hentry.lookup, hentry.control⟩

/-! ### Calls -/

theorem itemFetch_keeps (h : Entry c c' bucket it) (w : Handler) :
    Keeps (c'.itemFetch bucket it w) := by
  have howed := h.keeps.owed bucket it h.lookup
  unfold itemFetch
  simp only
  split
  · have hrest : Owed c'.control bucket
        { it with fetchWaiters := (it.fetchWaiters ++ [w]).tail } := by
      refine ⟨howed.modify, ?_, howed.changed⟩
      -- a waiter that is left was there before
      intro hcan hne
      refine howed.waiters hcan fun hnil => hne ?_
      simp [hnil]
    exact (h.keeps.put h.lookup hrest rfl rfl).answer _ _ _
  · split
    · rename_i hbusy
      refine h.keeps.put h.lookup ⟨howed.modify, ?_, howed.changed⟩ rfl rfl
      intro hcan _
      have hcan' : it.canRemove = true := hcan
      simp only [Item.canRemove, Bool.and_eq_true, Option.isNone_iff_eq_none] at hcan'
      simp [hcan'.1, hcan'.2] at hbusy
    · rename_i hbusy
      refine h.keeps.put h.lookup ⟨?_, ?_, howed.changed⟩ rfl rfl
      · intro hmod
        exact absurd (show it.engineModify.isSome = true from hmod) (by simp_all)
      · intro hcan _
        cases hcan

theorem itemModify_keeps (h : Entry c c' bucket it) {current : CurrentOp}
    (hcurrent : current.isModify) (op : EngineOp) (src : S3BucketMetadata) (w : Handler) :
    Keeps (c'.itemModify bucket it current op src w) := by
  unfold itemModify
  by_cases hbusy : it.engineModify.isSome = true
  · rw [if_pos hbusy]
    exact h.keeps.answer _ _ _
  · rw [if_neg hbusy]
    refine h.keeps.put h.lookup ⟨fun _ => hcurrent, ?_, ?_⟩ rfl rfl
    · intro hcan
      cases engineModify_of_canRemove hcan
    · intro hmod
      cases hmod

theorem withItem_keeps (h : Keeps c) (hnow : Before c.items now)
    (hloop : ∀ bucket ∈ c.victim src now, c.inLoop bucket = false) (w : Handler)
    (state : S3BucketMetadataState) (value : Option S3BucketMetadata)
    {call : S3BucketMetadataCache → Item → S3BucketMetadataCache}
    (hcall : ∀ c' it, Entry c c' src.bucketName it → Keeps (call c' it)) :
    Keeps (c.withItem src now (c.answer w state value) call) := by
  unfold withItem
  cases hg : c.getItem src now with
  | none => exact h.answer w state value
  | some p =>
    obtain ⟨c', it⟩ := p
    exact hcall c' it (getItem_entry h hnow hloop hg)

/-! ### The end of an operation -/

/-- `on_done` is at work on an entry: all others are owed nothing by it. -/
structure Working (c : S3BucketMetadataCache) (bucket : Bytes) (it : Item) (op : CurrentOp) :
    Prop where
  lists : Lists c.items c.sortedByAccess c.sortedByUpdate
  size : c.items.keys.length ≤ c.maxCacheSize
  destroyed : ∀ x ∈ c.destroyed, Free x
  lookup : c.items.lookup bucket = some it
  others : ∀ b x, b ≠ bucket → c.items.lookup b = some x → Owed .idle b x
  modify : it.engineModify.isSome = true → it.currentOp.isModify
  changed : it.engineModify = none → it.onChanged ≠ none → op.isModify

theorem assert_faults (c : S3BucketMetadataCache) (ok : Bool) (f : Fault) :
    ∃ faults, c.assert ok f = { c with faults := faults } := by
  unfold assert
  by_cases h : ok = true
  · exact ⟨c.faults, by rw [if_pos h]⟩
  · exact ⟨c.faults ++ [f], by rw [if_neg h]⟩

theorem Owed.of_idle (h : Owed .idle bucket it) : Owed control bucket it :=
  h.of_not_loop (by intro _ _ _ hc; cases hc)

variable {op : CurrentOp}

theorem Working.put {new : Item} (h : Working c bucket it op) (howed : Owed control bucket new)
    (haccess : new.accessTime = it.accessTime) (hupdate : new.updateTime = it.updateTime)
    (w : Handler) (state : S3BucketMetadataState) (value : Option S3BucketMetadata) :
    Keeps { (c.put bucket new).answer w state value with control := control } :=
  ⟨h.lists.put h.lookup haccess hupdate, (length_insert c.items h.lookup).trans_le h.size,
    owed_insert (fun b x hb hx => (h.others b x hb hx).of_idle) howed, h.destroyed⟩

theorem Working.keeps (h : Working c bucket it op) (howed : Owed control bucket it) :
    Keeps { c with control := control } := by
  refine ⟨h.lists, h.size, ?_, h.destroyed⟩
  intro b x hx
  by_cases hb : b = bucket
  · have heq : some it = some x := by
      rw [← h.lookup, ← hb]
      exact hx
    rw [hb, ← some.inj heq]
    exact howed
  · exact (h.others b x hb hx).of_idle

/-- **The loop of `on_done` goes well when nothing else is in flight on an entry it removes.** -/
theorem drain_keeps (h : Working c bucket it op) (state : S3BucketMetadataState)
    (hdoomed : it.fetchWaiters = [] → ¬ op.isModify → Removes op state → it.canRemove = true) :
    Keeps (c.drain bucket it op state) := by
  unfold drain
  cases hw : it.fetchWaiters with
  | cons w rest =>
    have howed : Owed (.waiters bucket it.id op state) bucket
        { it with fetchWaiters := rest } := by
      refine ⟨h.modify, fun _ _ => ⟨op, state, rfl⟩, ?_⟩
      intro hmod hne
      exact ⟨op, state, rfl, h.changed hmod hne⟩
    exact h.put howed rfl rfl w state _
  | nil =>
    simp only
    by_cases hop : op = .saving ∨ op = .deleting
    · rw [if_pos hop]
      obtain ⟨faults, hfaults⟩ := assert_faults c it.onChanged.isSome .noOnChanged
      rw [hfaults]
      cases hchanged : it.onChanged with
      | none =>
        have howed : Owed c.control bucket it := by
          refine ⟨h.modify, ?_, ?_⟩
          · intro _ hne
            exact absurd hw hne
          · intro _ hne
            exact absurd hchanged hne
        have hkeeps := h.keeps howed
        exact ⟨hkeeps.lists, hkeeps.size, hkeeps.owed, hkeeps.destroyed⟩
      | some w =>
        have howed : Owed (.changed bucket it.id op state) bucket
            { it with fetchWaiters := [], onChanged := none } := by
          refine ⟨h.modify, ?_, ?_⟩
          · intro _ hne
            exact absurd rfl hne
          · intro _ hne
            exact absurd rfl hne
        have hkeeps := h.put howed rfl rfl w state none
        exact ⟨hkeeps.lists, hkeeps.size, hkeeps.owed, hkeeps.destroyed⟩
    · rw [if_neg hop]
      have howed : Owed .idle bucket it := by
        refine ⟨h.modify, ?_, ?_⟩
        · intro _ hne
          exact absurd hw hne
        · intro hmod hne
          exact absurd (h.changed hmod hne) hop
      have hkeeps := h.keeps howed
      unfold finishDone
      simp only
      by_cases hrem : Removes op state
      · rw [if_pos hrem]
        have hcan := hdoomed hw hop hrem
        refine hkeeps.removeItem h.lookup ⟨hcan, hw, ?_⟩
        by_contra hne
        exact hop (h.changed (engineModify_of_canRemove hcan) hne)
      · rw [if_neg hrem]
        exact hkeeps

variable {e : Engine}

theorem onDone_working (h : Keeps c) {old : Item} (hl : c.items.lookup bucket = some old)
    (haccess : it.accessTime = old.accessTime) (hidle : c.control = .idle) (hpos : 0 ≤ now)
    (hnow : Before c.items now) (hchanged : it.onChanged ≠ none → it.currentOp.isModify) :
    Working ((c.put bucket (it.takeOver e c.clock now)).updated bucket) bucket
      (it.takeOver e c.clock now) it.currentOp := by
  obtain ⟨new, hnew⟩ : ∃ new, new = it.takeOver e c.clock now := ⟨_, rfl⟩
  rw [← hnew]
  refine ⟨?_, ?_, h.destroyed, AList.lookup_insert _, ?_, ?_, ?_⟩
  · exact h.lists.updated hl (by rw [hnew]; exact haccess) (by rw [hnew]; rfl) hpos hnow
  · exact (length_insert c.items hl).trans_le h.size
  · intro b x hb hx
    have hx' : (c.items.insert bucket new).lookup b = some x := hx
    rw [AList.lookup_insert_ne hb] at hx'
    have howed := h.owed b x hx'
    rw [hidle] at howed
    exact howed
  · rw [hnew]
    intro hm
    cases hm
  · rw [hnew]
    exact fun _ => hchanged

theorem onDone_keeps (h : Keeps c) {old : Item} (hl : c.items.lookup bucket = some old)
    (haccess : it.accessTime = old.accessTime) (hidle : c.control = .idle) (hpos : 0 ≤ now)
    (hnow : Before c.items now) (he : it.engineModify = some e)
    (hchanged : it.onChanged ≠ none → it.currentOp.isModify)
    (hload : it.engineLoad = none ∨ it.currentOp.isModify) : Keeps (c.onDone bucket it now) := by
  unfold onDone
  simp only [he]
  obtain ⟨f₁, hf₁⟩ := assert_faults c (it.currentOp ≠ .none) .noCurrentOp
  rw [hf₁]
  obtain ⟨f₂, hf₂⟩ := assert_faults { c with faults := f₁ } (Option.isSome (some e)) .noEngineModify
  rw [hf₂]
  obtain ⟨f₃, hf₃⟩ := assert_faults { c with faults := f₂ } (!Engine.stale e it) .staleLoad
  rw [hf₃]
  have hkeeps : Keeps { c with faults := f₃ } := ⟨h.lists, h.size, h.owed, h.destroyed⟩
  refine drain_keeps (onDone_working hkeeps hl haccess hidle hpos hnow hchanged) _ ?_
  intro _ hop _
  rcases hload with hload | hload
  · simp [Item.takeOver, Item.canRemove, hload]
  · exact absurd hload hop

theorem modifyDone_keeps (h : Keeps c) (hl : c.items.lookup bucket = some it)
    (hidle : c.control = .idle) (hpos : 0 ≤ now) (hnow : Before c.items now)
    (he : it.engineModify = some e) (state : S3BucketMetadataState) (content : Bytes) :
    Keeps (c.onDone bucket { it with engineModify := some (e.ended state content) } now) := by
  have hmod := (h.owed bucket it hl).modify (by rw [he]; rfl)
  exact onDone_keeps h hl rfl hidle hpos hnow rfl (fun _ => hmod) (.inr hmod)

theorem loadDone_keeps (h : Keeps c) (hl : c.items.lookup bucket = some it)
    (hidle : c.control = .idle) (hpos : 0 ≤ now) (hnow : Before c.items now)
    (state : S3BucketMetadataState) (content : Bytes) :
    Keeps (c.onLoad bucket { it with engineLoad := some (e.ended state content) } now) := by
  have howed := h.owed bucket it hl
  unfold onLoad
  simp only [Option.isSome_some, assert_of_true]
  by_cases hmod : it.engineModify.isSome = true
  · rw [if_pos hmod]
    refine h.put hl ⟨howed.modify, ?_, howed.changed⟩ rfl rfl
    intro hcan
    have hnone := engineModify_of_canRemove hcan
    rw [show it.engineModify = none from hnone] at hmod
    cases hmod
  · rw [if_neg hmod]
    refine onDone_keeps h hl rfl hidle hpos hnow rfl ?_ (.inl rfl)
    -- with no modification in flight, no loop under way and nothing to be called at its end
    intro hne
    obtain ⟨op, st, hc, _⟩ := howed.changed (by simpa using hmod) hne
    rw [hidle] at hc
    cases hc

theorem resume_keeps (h : Keeps c) (hdoomed : ∀ it ∈ c.doomed, it.canRemove = true)
    (hr : c.resume = some c') : Keeps c' := by
  unfold resume at hr
  cases hc : c.control with
  | idle => simp [hc] at hr
  | waiters bucket id op state =>
    simp only [hc] at hr
    cases hl : c.items.lookup bucket with
    | none =>
      rw [hl, some.injEq] at hr
      rw [← hr]
      exact h.crash
    | some it =>
      simp only [hl] at hr
      by_cases hid : it.id = id
      · rw [if_pos hid, some.injEq] at hr
        rw [← hr]
        have howed := h.owed bucket it hl
        refine drain_keeps ⟨h.lists, h.size, h.destroyed, hl, ?_, howed.modify, ?_⟩ state ?_
        · intro b x hb hx
          refine (h.owed b x hx).of_not_loop ?_
          intro id' op' st' hc'
          rw [hc] at hc'
          cases hc'
          exact hb rfl
        · intro hmod hne
          obtain ⟨op', st', hc', hop'⟩ := howed.changed hmod hne
          rw [hc] at hc'
          cases hc'
          exact hop'
        · intro hnil hop hrem
          refine hdoomed it ?_
          simp [doomed, hc, hop, hrem, hl, hid, hnil]
      · rw [if_neg hid, some.injEq] at hr
        rw [← hr]
        exact h.crash
  | changed bucket id op state =>
    have hidle : Keeps { c with control := .idle } := by
      refine ⟨h.lists, h.size, ?_, h.destroyed⟩
      intro b x hx
      refine (h.owed b x hx).of_not_loop ?_
      intro id' op' st' hc'
      rw [hc] at hc'
      cases hc'
    simp only [hc] at hr
    by_cases hrem : Removes op state
    · rw [if_pos hrem] at hr
      cases hl : c.items.lookup bucket with
      | none =>
        rw [hl, some.injEq] at hr
        rw [← hr]
        exact h.crash
      | some it =>
        simp only [hl] at hr
        by_cases hid : it.id = id
        · rw [if_pos hid, some.injEq] at hr
          have hcan := hdoomed it (by simp [doomed, hc, hrem, hl, hid])
          have hfree := (hidle.owed bucket it hl).free hl hcan rfl
          rw [← hr, finishDone, if_pos hrem]
          exact hidle.removeItem hl hfree
        · rw [if_neg hid, some.injEq] at hr
          rw [← hr]
          exact h.crash
    · rw [if_neg hrem, some.injEq] at hr
      rw [← hr, finishDone, if_neg hrem]
      exact hidle

/-! ### Runs -/

theorem Steady.before {e : Event} (h : c.Steady e) (hnow : e.now = some now) :
    0 ≤ now ∧ Before c.items now := by
  obtain ⟨hpos, hall⟩ := h now hnow
  refine ⟨hpos, ?_⟩
  intro bucket it hit
  exact hall ⟨bucket, it⟩ (of_mem_dlookup hit)

/-- **An event that spares what is in use keeps the containers in order.** -/
theorem react_keeps (h : Keeps c) {e : Event} (hok : c.Spares e) (hr : c.react e = some c') :
    Keeps c' := by
  obtain ⟨hsteady, hvictim, hdoomed⟩ := hok
  cases e with
  | fetch src w now =>
    obtain ⟨_, hnow⟩ := hsteady.before rfl
    rw [← some.inj hr]
    exact withItem_keeps h hnow (hvictim src rfl now rfl) _ _ _
      fun _ _ hentry => itemFetch_keeps hentry w
  | save src w now =>
    obtain ⟨_, hnow⟩ := hsteady.before rfl
    rw [← some.inj hr]
    exact withItem_keeps h hnow (hvictim src rfl now rfl) _ _ _
      fun _ _ hentry => itemModify_keeps hentry (.inl rfl) _ _ w
  | update src w now =>
    obtain ⟨_, hnow⟩ := hsteady.before rfl
    rw [← some.inj hr]
    exact withItem_keeps h hnow (hvictim src rfl now rfl) _ _ _
      fun _ _ hentry => itemModify_keeps hentry (.inl rfl) _ _ w
  | remove src w now =>
    obtain ⟨_, hnow⟩ := hsteady.before rfl
    rw [← some.inj hr]
    exact withItem_keeps h hnow (hvictim src rfl now rfl) _ _ _
      fun _ _ hentry => itemModify_keeps hentry (.inr rfl) _ _ w
  | loadDone bucket state content now =>
    obtain ⟨hpos, hnow⟩ := hsteady.before rfl
    obtain ⟨it, x, hidle, hl, -, rfl⟩ := react_loadDone_eq_some hr
    exact loadDone_keeps h hl hidle hpos hnow state content
  | modifyDone bucket state content now =>
    obtain ⟨hpos, hnow⟩ := hsteady.before rfl
    obtain ⟨it, x, hidle, hl, he, rfl⟩ := react_modifyDone_eq_some hr
    exact modifyDone_keeps h hl hidle hpos hnow he state content
  | resume => exact resume_keeps h (hdoomed rfl) hr

theorem step_keeps (h : Keeps c) {e : Event} (hok : c.Spares e) (hs : c.step e = some c') :
    Keeps c' := by
  obtain ⟨c₁, hr, rfl⟩ := step_eq_some hs
  have hkeeps := react_keeps h hok hr
  exact ⟨hkeeps.lists, hkeeps.size, hkeeps.owed, hkeeps.destroyed⟩

theorem init_keeps (maxSize expire refresh : Nat) : Keeps (init maxSize expire refresh) := by
  refine ⟨.empty, Nat.zero_le _, ?_, ?_⟩
  · intro bucket it hit
    have : (∅ : AList fun _ : Bytes => Item).lookup bucket = some it := hit
    rw [AList.lookup_empty] at this
    cases this
  · intro it hit
    cases hit

/-- **In a run that spares the entries in use the three containers hold the same entries, the
lists in the order of their stamps, no more entries than there may be; and no entry was
destroyed with an operation in flight or a callback waiting.** -/
theorem consistent_of_reachable (maxSize expire refresh : Nat) {c : S3BucketMetadataCache}
    (h : Runs.Reachable step Spares (init maxSize expire refresh) c) : Consistent c := by
  have hkeeps : Keeps c := by
    refine h.invariant (P := Keeps) (init_keeps maxSize expire refresh) ?_
    intro s e s' hs hok hstep
    exact step_keeps hs hok hstep
  exact ⟨hkeeps.lists.access, hkeeps.lists.update, hkeeps.size, hkeeps.destroyed⟩

/-- In a cache for one bucket, one is loaded, asked for again, and gives way to another. -/
def evictAndLoad : List Event :=
  [.fetch { bucketName := ascii "a" } 1 1000, .loadDone (ascii "a") .present [] 2000, .resume,
    .fetch { bucketName := ascii "a" } 2 3000, .fetch { bucketName := ascii "b" } 3 4000]

theorem consistent_of_reachable_evictAndLoad :
    ∃ c, Runs.run step (init 1 100 10) evictAndLoad = some c ∧ c.destroyed.length = 1 ∧
      Consistent c := by
  obtain ⟨c, hc, hlength⟩ := Option.map_eq_some_iff.mp (show (Runs.run step (init 1 100 10)
    evictAndLoad).map (fun c => c.destroyed.length) = some 1 by decide)
  exact ⟨c, hc, hlength, consistent_of_reachable 1 100 10
    (Runs.reachable_of_run evictAndLoad .start (by decide) hc)⟩

/-- A load is launched, the bucket is removed, and the removal ends first. -/
def removeBeforeLoad : List Event :=
  [.fetch { bucketName := ascii "b" } 1 1000, .remove { bucketName := ascii "b" } 2 2000,
    .modifyDone (ascii "b") .missing [] 3000, .resume, .resume]

/-- The entry is destroyed with its load in flight. -/
theorem destroyed_with_load :
    ¬ ∀ c, Runs.Reachable step Steady (init 10 100 10) c → Consistent c := by
  intro h
  obtain ⟨c, hc, hload⟩ := Option.map_eq_some_iff.mp (show (Runs.run step (init 10 100 10)
    removeBeforeLoad).map (fun c => c.destroyed.map Item.canRemove) = some [false]
      by decide)
  have hreach : Runs.Reachable step Steady (init 10 100 10) c :=
    Runs.reachable_of_run removeBeforeLoad .start (by decide) hc
  have hdestroyed := (h c hreach).destroyed
  have hmem : false ∈ c.destroyed.map Item.canRemove := by
    rw [hload]
    exact mem_singleton.mpr rfl
  obtain ⟨it, hit, hfalse⟩ := mem_map.mp hmem
  rw [(hdestroyed it hit).canRemove] at hfalse
  cases hfalse

end S3BucketMetadataCache

end CortxS3
