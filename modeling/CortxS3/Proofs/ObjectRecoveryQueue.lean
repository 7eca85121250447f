/-
What the producer and the consumer of the background delete do together.

Processing a message deletes at most the record it is about, and not even that when the call that
deletes it fails (`kept_results`); nothing else that they do touches the index of the records.  So a
record stays as long as nobody succeeds in deleting it, and what a run sends is told by the page it
sees (`comes_back`).  What a record asks for need not have been done when it is deleted: of a leak of
all parts of an upload the record goes, whatever becomes of the parts.  The loop over the page ends at a
record that cannot be read, and as that is never sent it never goes away: the records behind it wait for
ever (`starves`).
-/
import CortxS3.BackgroundDelete.ObjectRecoveryQueue
import CortxS3.Lib.Runs

namespace CortxS3

open Option (some.inj)
open List

namespace ObjectRecoveryQueue

open OrderedIndex ObjectRecoveryValidator

/-! ### What the validator leaves alone -/

/-- The indexes that a record names are not the index of the records. -/
structure NamesOthers (probableDeleteIndexId : Bytes) (info : ProbableDeleteJson) : Prop where
  versions : probableDeleteIndexId ≠ info.objectsVersionListIndexOid
  extended : probableDeleteIndexId ≠ info.extendedMdIdxOid.getD []

section

variable {v : Validator} {k : Bytes}

theorem kept_object (oid : Bytes) (s : Store) : (deleteObjectFromStorage v oid s).2.kv = s.kv := by
  unfold deleteObjectFromStorage
  split <;> rfl

theorem kept_key {i index key : Bytes}
    (h : i = index → k = key → v.api.kvDelete index key = false) (s : Store) :
    (deleteKeyFromIndex v index key s).2.kv i k = s.kv i k := by
  unfold deleteKeyFromIndex
  split
  · rename_i hdelete
    refine if_neg fun hboth => ?_
    rw [h hboth.1 hboth.2] at hdelete
    cases hdelete
  · rfl

theorem kept_extended {i index : Bytes} (h : i ≠ index) (key : Bytes) (s : Store) :
    (delObjFromExtendedIndex v index key s).2.kv i k = s.kv i k := by
  unfold delObjFromExtendedIndex
  grind [kept_object, kept_key]

theorem kept_parts {i index : Bytes} (h : i ≠ index) (version : Bytes) :
    ∀ (parts : List Nat) (status : Bool) (s : Store),
      (delParts v index version parts status s).2.kv i k = s.kv i k := by
  intro parts
  induction parts with
  | nil =>
    intro status s
    rfl
  | cons part rest ih =>
    intro status s
    rw [delParts, ih, kept_extended h]

theorem kept_list {i index : Bytes} (h : i ≠ index) (s : Store) :
    (delObjectsInExtendedlist v index s).2.kv i k = s.kv i k := by
  unfold delObjectsInExtendedlist
  grind [kept_parts]

variable (hnames : NamesOthers v.probableDeleteIndexId v.leakInfo)
variable (hk : k = v.key → v.api.kvDelete v.probableDeleteIndexId k = false)

include hnames

theorem deletePath_index : v.probableDeleteIndexId ≠ (deletePath v.leakInfo).2.1 := by
  unfold deletePath
  grind [hnames.versions, hnames.extended]

include hk

theorem kept_record (deleteObjFromStore : Bool) (s : Store) :
    (processProbableDeleteRecord v deleteObjFromStore s).2.kv v.probableDeleteIndexId k =
      s.kv v.probableDeleteIndexId k := by
  have hindex := deletePath_index hnames
  unfold processProbableDeleteRecord delObjFromVerIndex
  grind [kept_object, kept_key, kept_extended]

theorem kept_forced (s : Store) :
    (processForced v s).kv v.probableDeleteIndexId k = s.kv v.probableDeleteIndexId k := by
  unfold processForced
  grind [kept_object, kept_key, kept_list, kept_record, hnames.versions, hnames.extended]

theorem kept_unforced (s : Store) :
    (processUnforced v s).kv v.probableDeleteIndexId k = s.kv v.probableDeleteIndexId k := by
  unfold processUnforced processMultipartLeak
  grind [kept_object, kept_key, kept_list, kept_record, hnames.versions, hnames.extended]

end

/-- Processing a record deletes no other record, and itself only by a call that succeeds. -/
theorem kept_results {api : Api} {pd key k : Bytes} {info : ProbableDeleteJson}
    (hnames : NamesOthers pd info) (hk : k = key → api.kvDelete pd k = false) (s : Store) :
    (processResults api pd key info s).kv pd k = s.kv pd k := by
  unfold processResults processObjectLeak
  split
  · rfl
  · split
    · exact kept_forced hnames hk s
    · exact kept_unforced hnames hk s

/-! ### A record that stays -/

variable {c : Config} {st st' : State} {r b : Record} {e : Event}

/-- What is read of a value names other indexes than that of the records. -/
def Named (c : Config) (value : Bytes) : Prop :=
  ∀ time info, c.loads value = .leak time info → NamesOthers c.probableDeleteIndexId info

/-- So do all records of the index, and those that are sent or in hand. -/
structure AllNamed (c : Config) (st : State) : Prop where
  index : ∀ record ∈ st.index, Named c record.2
  topic : ∀ message ∈ st.topic, Named c message.2
  received : ∀ message ∈ st.received, Named c message.2

/-- And a record that the S3 server writes. -/
def PutsNamed (c : Config) : Event → Prop
  | .put _ value => Named c value
  | _ => True

/-- The S3 server leaves the record with this key alone. -/
def Untouched (k : Bytes) : Event → Prop
  | .put key _ | .drop key => key ≠ k
  | _ => True

/-- No message about the record with this key is processed by a call that deletes the record. -/
def Undeleted (c : Config) (k : Bytes) : Event → Prop
  | .process api message => k = message.1 → api.kvDelete c.probableDeleteIndexId k = false
  | _ => True

theorem processMsg_keeps (hs : Sorted st.index) (hr : r ∈ st.index) {api : Api}
    {message : Record} (hc : Named c message.2)
    (hk : r.1 = message.1 → api.kvDelete c.probableDeleteIndexId r.1 = false) :
    r ∈ (processMsg c api message st).index := by
  unfold processMsg
  split
  · rename_i time info hloads
    refine mem_filter.mpr ⟨hr, ?_⟩
    rw [kept_results (hc _ _ hloads) hk]
    have hget : SortedMap.get r.1 st.index = some r.2 := (SortedMap.get_eq_some_iff hs).mpr hr
    simp [State.view, hget]
  · exact hr

theorem sorted_step (hs : Sorted st.index) (hstep : step c st e = some st') : Sorted st'.index := by
  cases e with
  | put key value =>
    obtain rfl := some.inj hstep
    exact SortedMap.sorted_set hs
  | drop key =>
    obtain rfl := some.inj hstep
    exact hs.sublist filter_sublist
  | process api message =>
    unfold step processMsg at hstep
    grind [Sorted]
  | _ => grind [step, addKvToMsgbus]

theorem mem_step (hc : AllNamed c st) (hs : Sorted st.index) (hr : r ∈ st.index)
    (hu : Untouched r.1 e) (hd : Undeleted c r.1 e) (hstep : step c st e = some st') :
    r ∈ st'.index := by
  cases e with
  | put key value =>
    obtain rfl := some.inj hstep
    exact (SortedMap.mem_set hs r).mpr (Or.inr ⟨hu.symm, hr⟩)
  | drop key =>
    obtain rfl := some.inj hstep
    exact mem_filter.mpr ⟨hr, by simpa using hu.symm⟩
  | process api message =>
    simp only [step] at hstep
    split at hstep
    · rename_i hmem
      obtain rfl := some.inj hstep
      exact processMsg_keeps hs hr (hc.received message hmem) hd
    · cases hstep
  | _ => grind [step, addKvToMsgbus]

theorem mem_index_step {m : Record} (hs : Sorted st.index) (hstep : step c st e = some st')
    (hm : m ∈ st'.index) : m ∈ st.index ∨ ∃ key, e = .put key m.2 := by
  cases e with
  | put key value =>
    obtain rfl := some.inj hstep
    rcases (SortedMap.mem_set hs m).mp hm with rfl | ⟨-, hm⟩
    · exact Or.inr ⟨key, rfl⟩
    · exact Or.inl hm
  | process api message => grind [step, processMsg]
  | _ => grind [step, addKvToMsgbus]

/-! ### What a run sends -/

/-- A record that a run sends when it comes to it. -/
def Sent (c : Config) (now : Int) (sends : Bytes → Bool) (r : Record) : Prop :=
  ∃ time info, c.loads r.2 = .leak time info ∧
    isObjectLeakEntryOlderThan now time c.leakProcessingDelayInMins = true ∧ sends r.1 = true

/-- The page of the probable-delete index that a run looks at. -/
def page (c : Config) (st : State) : List Record := (listPage st.index [] c.maxKeys []).keys

theorem sorted_page (hs : Sorted st.index) : Sorted (page c st) :=
  (Pages.sorted_matching hs []).sublist (take_sublist _ _)

/-- What comes before a record of the page is on the page. -/
theorem mem_page_of_le (hs : Sorted st.index) (hr : r ∈ page c st) (hb : b ∈ st.index)
    (hpos : [] < b.1) (hle : b.1 ≤ r.1) : b ∈ page c st := by
  have hall : b ∈ Pages.matching (([] : Bytes).isPrefixOf ·) st.index [] :=
    Pages.mem_matching.mpr ⟨hb, hpos, rfl⟩
  have hsorted := Pages.sorted_matching (q := (([] : Bytes).isPrefixOf ·)) hs []
  rw [← take_append_drop c.maxKeys (Pages.matching _ _ _)] at hall hsorted
  refine (mem_append.mp hall).resolve_right fun hdrop => ?_
  exact absurd hle (not_le_of_gt ((pairwise_append.mp hsorted).2.2 r hr b hdrop))

/-- A run sends what is due, up to the first record that cannot be read. -/
theorem mem_sendRecords {now : Int} {sends : Bytes → Bool} :
    ∀ {records : List Record}, Sorted records → (r ∈ sendRecords c now sends records ↔
      r ∈ records ∧ Sent c now sends r ∧ ∀ b ∈ records, b.1 ≤ r.1 → c.loads b.2 ≠ .unreadable) := by
  intro records
  induction records with
  | nil => simp [sendRecords]
  | cons x rest ih =>
    intro hs
    obtain ⟨hlt, hrest⟩ := pairwise_cons.mp hs
    have hlater := ih hrest
    have hbefore : r ∈ x :: rest → x.1 ≤ r.1 := by
      intro hr
      rcases mem_cons.mp hr with rfl | hr
      · exact le_refl _
      · exact le_of_lt (hlt r hr)
    have hself : r ∈ rest → ¬ r.1 ≤ x.1 := fun hr => not_le_of_gt (hlt r hr)
    cases hloads : c.loads x.2 with
    | unreadable => grind [sendRecords]
    | null => grind [sendRecords, Sent]
    | leak time info => grind [sendRecords, Sent]

/-! ### Runs -/

theorem mem_topic_step {m : Record} (hstep : step c st e = some st') (hm : m ∈ st'.topic) :
    m ∈ st.topic ∨ ∃ now sends, m ∈ sendRecords c now sends (page c st) := by
  cases e with
  | run now purged listed sends => grind [step, addKvToMsgbus, page]
  | ack message => grind [step, mem_of_mem_erase]
  | process api message => grind [step, processMsg]
  | _ => grind [step]

theorem mem_received_step {m : Record} (hstep : step c st e = some st') (hm : m ∈ st'.received) :
    m ∈ st.received ∨ m ∈ st.topic := by
  cases e with
  | ack message => grind [step, mem_of_mem_erase]
  | process api message => grind [step, processMsg]
  | _ => grind [step, addKvToMsgbus]

/-- A run sends records of the index, so what is named so stays so. -/
theorem allNamed_step (hc : AllNamed c st) (hs : Sorted st.index) (hput : PutsNamed c e)
    (hstep : step c st e = some st') : AllNamed c st' := by
  refine ⟨fun m hm => ?_, fun m hm => ?_, fun m hm => ?_⟩
  · rcases mem_index_step hs hstep hm with hm | ⟨key, rfl⟩
    · exact hc.index m hm
    · exact hput
  · rcases mem_topic_step hstep hm with hm | ⟨now, sends, hm⟩
    · exact hc.topic m hm
    · have hpage := ((mem_sendRecords (sorted_page hs)).mp hm).1
      exact hc.index m (Pages.mem_matching.mp (mem_of_mem_take hpage)).1
  · rcases mem_received_step hstep hm with hm | hm
    · exact hc.received m hm
    · exact hc.topic m hm

/-- The record is in the index. -/
structure Stays (c : Config) (r : Record) (st : State) : Prop where
  named : AllNamed c st
  sorted : Sorted st.index
  mem : r ∈ st.index

theorem Stays.step (h : Stays c r st) (hput : PutsNamed c e) (hu : Untouched r.1 e)
    (hd : Undeleted c r.1 e) (hstep : ObjectRecoveryQueue.step c st e = some st') :
    Stays c r st' :=
  ⟨allNamed_step h.named h.sorted hput hstep, sorted_step h.sorted hstep,
    mem_step h.named h.sorted h.mem hu hd hstep⟩

/-- An empty value cannot be read, and every other one is the same record. -/
def someConfig : Config where
  loads value :=
    if value = [] then .unreadable
    else .leak 0 ⟨[], [], 1, [2], [3], [], true, [], false, none, [4], none, none, none, none, some [5]⟩
  probableDeleteIndexId := [1]
  maxKeys := 2
  leakProcessingDelayInMins := 15

def someState (index : List Record) : State where
  index := index
  store := { kv := fun _ _ => none }

theorem named_someConfig (value : Bytes) : Named someConfig value := by
  intro time info hloads
  unfold someConfig at hloads ⊢
  by_cases hvalue : value = []
  · simp [hvalue] at hloads
  · simp only [if_neg hvalue, LeakValue.leak.injEq] at hloads
    obtain ⟨-, rfl⟩ := hloads
    exact ⟨by decide, by decide⟩

theorem allNamed_someConfig (st : State) : AllNamed someConfig st :=
  ⟨fun _ _ => named_someConfig _, fun _ _ => named_someConfig _, fun _ _ => named_someConfig _⟩

/-- **A record that nobody succeeds in deleting comes back.**  Whatever is purged, not sent,
acknowledged without being processed or received twice, the record is in the index until the S3
server or the processing of a message about it has deleted it; and a run that purges and lists sends
it if and only if it is on the first page, with nothing before it that cannot be read, and is old
enough. -/
theorem comes_back (hc : AllNamed c st) (hs : Sorted st.index) (hr : r ∈ st.index)
    (h : Runs.Reachable (step c)
      (fun _ e => PutsNamed c e ∧ Untouched r.1 e ∧ Undeleted c r.1 e) st st')
    (now : Int) (sends : Bytes → Bool) :
    r ∈ st'.index ∧ (r ∈ (addKvToMsgbus c now true true sends st').topic ↔
      r ∈ page c st' ∧ Sent c now sends r ∧
        ∀ b ∈ page c st', b.1 ≤ r.1 → c.loads b.2 ≠ .unreadable) := by
  have hstays : Stays c r st' := h.invariant ⟨hc, hs, hr⟩ fun _ _ _ hstays hok hstep =>
    hstays.step hok.1 hok.2.1 hok.2.2 hstep
  exact ⟨hstays.mem, mem_sendRecords (sorted_page hstays.sorted)⟩

/-- The record is sent, received and processed, but the call that deletes it fails. -/
def sentInVain : List Event :=
  [.run 1000 true true fun _ => true, .receive ([2], [7]),
    .process ⟨fun _ _ => true, fun _ _ => false, fun _ => true⟩ ([2], [7]), .ack ([2], [7])]

theorem comes_back_sentInVain :
    ∃ st', Runs.run (step someConfig) (someState [([2], [7])]) sentInVain = some st' ∧
      st'.topic = [] ∧ st'.received = [] ∧ st'.store.deleted ≠ [] ∧
      ([2], [7]) ∈ (addKvToMsgbus someConfig 2000 true true (fun _ => true) st').topic := by
  have hs : Sorted (someState [([2], [7])]).index := by decide
  have h₁ : Runs.Reachable (step someConfig) (fun _ e => PutsNamed someConfig e ∧
      Untouched [2] e ∧ Undeleted someConfig [2] e) (someState [([2], [7])])
      (someState [([2], [7])]) := .start
  have h₂ := h₁.step (.run 1000 true true fun _ => true) ⟨trivial, trivial, trivial⟩ rfl
  have h₃ := h₂.step (.receive ([2], [7])) ⟨trivial, trivial, trivial⟩ rfl
  have h₄ := h₃.step (.process ⟨fun _ _ => true, fun _ _ => false, fun _ => true⟩ ([2], [7]))
    ⟨trivial, trivial, fun _ => rfl⟩ rfl
  have h₅ := h₄.step (.ack ([2], [7])) ⟨trivial, trivial, trivial⟩ rfl
  refine ⟨_, rfl, by decide, by decide, by decide,
    (comes_back (allNamed_someConfig _) hs (mem_singleton_self _) h₅ 2000 fun _ => true).2.mpr
      ⟨by decide, ⟨0, _, rfl, by decide, rfl⟩, fun b hb _ => ?_⟩⟩
  obtain rfl := mem_singleton.mp (show b ∈ [([2], [7])] from hb)
  exact nofun

/-- A record that cannot be read is in the index, and no message is about it or one behind it. -/
structure Stuck (c : Config) (b : Record) (st : State) : Prop where
  stays : Stays c b st
  topic : ∀ message ∈ st.topic, message.1 < b.1
  received : ∀ message ∈ st.received, message.1 < b.1

theorem undeleted_of_received {k : Bytes} (h : ∀ message ∈ st.received, message.1 < k)
    (hstep : step c st e = some st') : Undeleted c k e := by
  cases e with
  | process api message =>
    have hmem : message ∈ st.received := by grind [step]
    exact fun he => absurd he (ne_of_gt (h message hmem))
  | _ => exact trivial

theorem stuck_step (hb : c.loads b.2 = .unreadable) (hpos : [] < b.1) (h : Stuck c b st)
    (hput : PutsNamed c e) (hu : Untouched b.1 e) (hstep : step c st e = some st') :
    Stuck c b st' := by
  have hd := undeleted_of_received h.received hstep
  refine ⟨h.stays.step hput hu hd hstep, fun m hm => ?_, fun m hm => ?_⟩
  · rcases mem_topic_step hstep hm with hm | ⟨now, sends, hm⟩
    · exact h.topic m hm
    · obtain ⟨hpage, _, hreadable⟩ := (mem_sendRecords (sorted_page h.stays.sorted)).mp hm
      refine lt_of_not_ge fun hle => ?_
      exact hreadable b (mem_page_of_le h.stays.sorted hpage h.stays.mem hpos hle) hle hb
  · rcases mem_received_step hstep hm with hm | hm
    · exact h.received m hm
    · exact h.topic m hm

/-- **A record that cannot be read stops all records behind it.**  Once no message about one of them
is under way, none of them is sent, processed or deleted in any run of the producer and the
consumer, however long. -/
theorem starves (hc : AllNamed c st) (hb : c.loads b.2 = .unreadable) (hpos : [] < b.1)
    (hs : Sorted st.index) (hbmem : b ∈ st.index) (hr : r ∈ st.index) (hle : b.1 ≤ r.1)
    (htopic : ∀ message ∈ st.topic, message.1 < b.1)
    (hreceived : ∀ message ∈ st.received, message.1 < b.1)
    (h : Runs.Reachable (step c)
      (fun _ e => PutsNamed c e ∧ Untouched b.1 e ∧ Untouched r.1 e) st st') :
    r ∈ st'.index ∧ r ∉ st'.topic ∧ r ∉ st'.received := by
  have hstuck : Stuck c b st' ∧ Stays c r st' := by
    refine h.invariant (P := fun s => Stuck c b s ∧ Stays c r s)
      ⟨⟨⟨hc, hs, hbmem⟩, htopic, hreceived⟩, hc, hs, hr⟩ ?_
    intro s e s' hP hok hstep
    obtain ⟨hstuck, hstays⟩ := hP
    have hd := undeleted_of_received
      (fun m hm => lt_of_lt_of_le (hstuck.received m hm) hle) hstep
    exact ⟨stuck_step hb hpos hstuck hok.1 hok.2.1 hstep, hstays.step hok.1 hok.2.2 hd hstep⟩
  refine ⟨hstuck.2.mem, fun hmem => ?_, fun hmem => ?_⟩
  · exact absurd (hstuck.1.topic r hmem) (not_lt_of_ge hle)
  · exact absurd (hstuck.1.received r hmem) (not_lt_of_ge hle)

theorem starves_empty :
    ([2], [7]) ∉ (addKvToMsgbus someConfig 2000 true true (fun _ => true)
      (someState [([1], []), ([2], [7])])).topic := by
  have h : Runs.Reachable (step someConfig)
      (fun _ e => PutsNamed someConfig e ∧ Untouched [1] e ∧ Untouched [2] e)
      (someState [([1], []), ([2], [7])]) (someState [([1], []), ([2], [7])]) := .start
  have h₁ := h.step (.run 2000 true true fun _ => true) ⟨trivial, trivial, trivial⟩ rfl
  exact (starves (allNamed_someConfig _) (b := ([1], [])) (r := ([2], [7])) rfl (by decide)
    (by decide) (by decide) (by decide) (by decide) (by intro m hm; cases hm)
    (by intro m hm; cases hm) h₁).2.1

end ObjectRecoveryQueue

end CortxS3
