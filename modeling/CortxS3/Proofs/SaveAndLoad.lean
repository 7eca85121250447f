/-
What is left of the parts and fragments of an object when they are loaded again.

A load takes the own keys in the order of the index, together with whatever else begins with the
object's name and version, up to the number of keys it reads.  So it gives back what was saved
when two things hold.

  * The order of the index is the order of the numbers.  It is as long as no number has a second
    digit: `P10|` stands before `P9|` and `F10` before `F2`.  The number of parts is read from
    the last key, and with ten parts or more that is one of part 9.
  * No other key gets in between.  The keys of a version whose name continues this one begin
    with the same bytes, and they are taken for fragments when they are among those read.

That these are enough is `survives_of_oneDigit`.
-/
import CortxS3.Proofs.ObjectExtendedMetadata

namespace CortxS3

open List hiding after next set_set

namespace S3ObjectExtendedMetadata

open OrderedIndex SortedMap

/-! ### The entries in the order of their numbers -/

/-- Parts numbered from 1 on, or a single 0 for an object without parts. -/
def Numbered (l : Contents) : Prop :=
  l.map Prod.fst = [0] ∨ (l ≠ [] ∧ l.map Prod.fst = List.range' 1 l.length)

/-- The entries of one part. -/
def partEntries (part : Nat) (frags : List S3PartFragContext) : List Entry :=
  (frags.zipIdx 1).map fun f => ⟨part, f.2, f.1⟩

def entries (l : Contents) : List Entry := l.flatMap fun p => partEntries p.1 p.2

variable {e : Entry} {frags : List S3PartFragContext}

theorem mem_partEntries {part : Nat} :
    e ∈ partEntries part frags ↔ e.part = part ∧ 1 ≤ e.frag ∧ frags[e.frag - 1]? = some e.ctx := by
  obtain ⟨k, j, ctx⟩ := e
  unfold partEntries
  rw [mem_map]
  constructor
  · rintro ⟨⟨c, i⟩, hmem, heq⟩
    cases heq
    exact ⟨rfl, mk_mem_zipIdx_iff_le_and_getElem?_sub.mp hmem⟩
  · rintro ⟨hk, hmem⟩
    refine ⟨(ctx, j), mk_mem_zipIdx_iff_le_and_getElem?_sub.mpr hmem, ?_⟩
    rw [← hk]

variable {l : Contents}

theorem mem_entries :
    e ∈ entries l ↔
      ∃ frags, (e.part, frags) ∈ l ∧ 1 ≤ e.frag ∧ frags[e.frag - 1]? = some e.ctx := by
  unfold entries
  rw [mem_flatMap]
  constructor
  · rintro ⟨⟨k, frags⟩, hmem, he⟩
    obtain ⟨hk, hfrag⟩ := mem_partEntries.mp he
    refine ⟨frags, ?_, hfrag⟩
    rw [hk]
    exact hmem
  · rintro ⟨frags, hmem, hfrag⟩
    exact ⟨_, hmem, mem_partEntries.mpr ⟨rfl, hfrag⟩⟩

/-- First by part, then by fragment. -/
def Entry.Before (a b : Entry) : Prop :=
  a.part < b.part ∨ (a.part = b.part ∧ a.frag < b.frag)

theorem partEntries_pairwise (part : Nat) (frags : List S3PartFragContext) :
    (partEntries part frags).Pairwise Entry.Before := by
  unfold partEntries
  rw [pairwise_map]
  have hidx : ((frags.zipIdx 1).map Prod.snd).Pairwise (· < ·) := by
    rw [zipIdx_map_snd]
    exact pairwise_lt_range'
  rw [pairwise_map] at hidx
  apply List.Pairwise.imp _ hidx
  intro a b hlt
  exact Or.inr ⟨rfl, hlt⟩

theorem entries_pairwise (hs : Sorted l) : (entries l).Pairwise Entry.Before := by
  unfold entries
  rw [pairwise_flatMap]
  refine ⟨fun p _ => partEntries_pairwise p.1 p.2, ?_⟩
  apply List.Pairwise.imp _ hs
  intro p q hlt a ha b hb
  left
  rw [(mem_partEntries.mp ha).1, (mem_partEntries.mp hb).1]
  exact hlt

theorem length_entries (l : Contents) : (entries l).length = l.count := by
  unfold entries Contents.count
  rw [length_flatMap]
  congr 1
  apply map_congr_left
  intro p _
  unfold partEntries
  rw [length_map, length_zipIdx]

/-! ### The pairs of the entries -/

variable {k : Nat}

theorem pairsOfPart_eq (codec : JsonCodec) (m : S3ObjectExtendedMetadata) {i : Nat}
    (hmulti : ∀ c ∈ frags, c.isMultipart = decide (k ≠ 0)) (hi : k ≠ 0 → i = k) :
    pairsOfPart codec m i frags = (partEntries k frags).map (Entry.pair codec m) := by
  unfold pairsOfPart partEntries
  rw [map_map]
  apply map_congr_left
  intro f hf
  have hc := hmulti f.1 (fst_mem_of_mem_zipIdx hf)
  show (m.entryKey f.1.isMultipart i f.2, getJsonStr codec f.1) =
    (m.entryKey (decide (k ≠ 0)) k f.2, getJsonStr codec f.1)
  rw [hc]
  by_cases hk : k = 0
  · rw [show decide (k ≠ 0) = false by simp [hk], entryKey_simple, entryKey_simple]
  · rw [hi hk]

theorem flatMap_pairs (codec : JsonCodec) (m : S3ObjectExtendedMetadata) :
    ∀ (l : Contents) (k : Nat),
      (∀ p ∈ l, ∀ c ∈ p.2, c.isMultipart = decide (p.1 ≠ 0)) →
      l.map Prod.fst = List.range' k l.length →
      ((l.toExt.zipIdx k).flatMap fun p => pairsOfPart codec m p.2 p.1.2) =
        (entries l).map (Entry.pair codec m) := by
  intro l
  induction l with
  | nil => intro k _ _; rfl
  | cons p l ih =>
    intro k hmulti hkeys
    rw [map_cons, length_cons, range'_succ, List.cons.injEq] at hkeys
    have hrest := ih (k + 1) (fun q hq => hmulti q (mem_cons_of_mem _ hq)) hkeys.2
    show pairsOfPart codec m k p.2 ++
        ((Contents.toExt l).zipIdx (k + 1)).flatMap (fun p => pairsOfPart codec m p.2 p.1.2) =
      (partEntries p.1 p.2 ++ entries l).map (Entry.pair codec m)
    rw [hrest, map_append,
      pairsOfPart_eq codec m (hmulti p mem_cons_self) (fun _ => hkeys.1.symm)]

variable {m : S3ObjectExtendedMetadata}

/-- **What is written is the pair of each entry.** -/
theorem extendedEntries_eq (codec : JsonCodec) (hl : Invariant m l) (hnum : Numbered l) :
    extendedEntries codec m = (entries l).map (Entry.pair codec m) := by
  have hmulti : ∀ p ∈ l, ∀ c ∈ p.2, c.isMultipart = decide (p.1 ≠ 0) :=
    fun p hp c hc => (hl.belongs p hp c hc).multipart
  unfold extendedEntries
  rw [hl.ext]
  rcases hnum with hzero | ⟨_, hkeys⟩
  · obtain ⟨p, rfl, hp⟩ := map_eq_singleton_iff.mp hzero
    show pairsOfPart codec m 1 p.2 ++ [] = (partEntries p.1 p.2 ++ []).map (Entry.pair codec m)
    rw [append_nil, append_nil]
    exact pairsOfPart_eq codec m (hmulti p mem_cons_self) (fun h => absurd hp h)
  · exact flatMap_pairs codec m l 1 hmulti hkeys

theorem extendedEntries_keys (codec : JsonCodec) (m : S3ObjectExtendedMetadata) :
    (extendedEntries codec m).map Prod.fst = m.getExtendedEntriesKeyList := by
  unfold extendedEntries getExtendedEntriesKeyList
  rw [map_flatMap]
  apply flatMap_congr
  intro p _
  unfold pairsOfPart
  rw [map_map]
  rfl

/-! ### The keys of the entries -/

def Entry.key (m : S3ObjectExtendedMetadata) (e : Entry) : Bytes :=
  m.entryKey (e.part ≠ 0) e.part e.frag

theorem Entry.key_simple (m : S3ObjectExtendedMetadata) (h : e.part = 0) :
    e.key m = m.prefixOfUniqueObject ++ sep :: (70 :: decimal e.frag) := by
  unfold Entry.key
  rw [show decide (e.part ≠ 0) = false by simp [h], entryKey_simple]

theorem Entry.key_part (m : S3ObjectExtendedMetadata) (h : e.part ≠ 0) :
    e.key m = m.prefixOfUniqueObject ++
      sep :: (80 :: decimal e.part ++ sep :: (70 :: decimal e.frag)) := by
  unfold Entry.key
  rw [show decide (e.part ≠ 0) = true by simp [h], entryKey_part]

theorem Entry.key_eq_append (m : S3ObjectExtendedMetadata) (e : Entry) :
    ∃ rest, e.key m = m.prefixOfUniqueObject ++ sep :: rest := by
  by_cases h : e.part = 0
  · exact ⟨_, e.key_simple m h⟩
  · exact ⟨_, e.key_part m h⟩

theorem Entry.key_begins (m : S3ObjectExtendedMetadata) (e : Entry) :
    m.prefixOfUniqueObject.isPrefixOf (e.key m) = true := by
  obtain ⟨rest, hrest⟩ := e.key_eq_append m
  rw [hrest, isPrefixOf_iff_prefix]
  exact prefix_append _ _

theorem Entry.prefix_lt_key (m : S3ObjectExtendedMetadata) (e : Entry) :
    m.prefixOfUniqueObject < e.key m := by
  obtain ⟨rest, hrest⟩ := e.key_eq_append m
  rw [hrest]
  conv => lhs; rw [← append_nil m.prefixOfUniqueObject]
  exact append_lt_append_left _ (nil_lt_cons _ _)

variable {a b : Entry}

/-- **The numbers can be told from the key.** -/
theorem Entry.key_injective (hsep : sep ∉ m.versionId) (h : a.key m = b.key m) :
    a.part = b.part ∧ a.frag = b.frag := by
  have htokens : getlineTokens ((a.key m).drop (m.objectName.length + 1)) =
      getlineTokens ((b.key m).drop (m.objectName.length + 1)) := by rw [h]
  by_cases ha : a.part = 0
  · rw [a.key_simple m ha, drop_objectName, getlineTokens_simple hsep] at htokens
    by_cases hb : b.part = 0
    · rw [b.key_simple m hb, drop_objectName, getlineTokens_simple hsep] at htokens
      simp only [List.cons.injEq, true_and, and_true] at htokens
      exact ⟨ha.trans hb.symm, decimal_injective htokens⟩
    · rw [b.key_part m hb, drop_objectName, getlineTokens_part hsep] at htokens
      simp at htokens
  · rw [a.key_part m ha, drop_objectName, getlineTokens_part hsep] at htokens
    by_cases hb : b.part = 0
    · rw [b.key_simple m hb, drop_objectName, getlineTokens_simple hsep] at htokens
      simp at htokens
    · rw [b.key_part m hb, drop_objectName, getlineTokens_part hsep] at htokens
      simp only [List.cons.injEq, true_and, and_true] at htokens
      exact ⟨decimal_injective htokens.1, decimal_injective htokens.2⟩

theorem Entry.key_lt_of_part (m : S3ObjectExtendedMetadata) (ha : a.part ≠ 0) (hb : b.part ≠ 0)
    (h : ∀ x y, decimal a.part ++ sep :: x < decimal b.part ++ sep :: y) : a.key m < b.key m := by
  rw [a.key_part m ha, b.key_part m hb]
  apply append_lt_append_left
  apply cons_lt_cons_iff.mpr
  refine Or.inr ⟨rfl, ?_⟩
  rw [cons_append, cons_append]
  apply cons_lt_cons_iff.mpr
  exact Or.inr ⟨rfl, h _ _⟩

theorem Entry.key_lt_of_frag (m : S3ObjectExtendedMetadata) (hpart : a.part = b.part)
    (h : decimal a.frag < decimal b.frag) : a.key m < b.key m := by
  have hfield : sep :: 70 :: decimal a.frag < sep :: 70 :: decimal b.frag :=
    append_lt_append_left [sep, 70] h
  by_cases hb : b.part = 0
  · rw [a.key_simple m (hpart.trans hb), b.key_simple m hb]
    exact append_lt_append_left _ hfield
  · rw [a.key_part m (fun h => hb (hpart.symm.trans h)), b.key_part m hb, hpart]
    apply append_lt_append_left
    exact append_lt_append_left (sep :: 80 :: decimal b.part) hfield

/-- **Numbers of one digit are in the order of the index.** -/
theorem Entry.Before.key_lt (m : S3ObjectExtendedMetadata) (h : a.Before b)
    (hsame : a.part = 0 ↔ b.part = 0) (hpart : b.part < 10) (hfrag : b.frag < 10) :
    a.key m < b.key m := by
  rcases h with hlt | ⟨heq, hlt⟩
  · have hb : b.part ≠ 0 := by omega
    apply Entry.key_lt_of_part m (fun h => hb (hsame.mp h)) hb
    intro x y
    exact decimal_lt_of_lt_ten hpart hlt _ _
  · apply Entry.key_lt_of_frag m heq
    have := decimal_lt_of_lt_ten hfrag hlt [] []
    rwa [append_nil, append_nil] at this

/-! ### The pairs saved -/

theorem entries_keys_nodup (hsep : sep ∉ m.versionId) (hs : Sorted l) :
    ((entries l).map (Entry.key m)).Nodup := by
  apply pairwise_map.mpr
  apply List.Pairwise.imp _ (entries_pairwise hs)
  intro a b hbefore hkey
  obtain ⟨hpart, hfrag⟩ := Entry.key_injective hsep hkey
  rcases hbefore with h | h
  · omega
  · omega

theorem kvList_perm (codec : JsonCodec) (hsep : sep ∉ m.versionId) (hl : Invariant m l)
    (hnum : Numbered l) :
    (getKvListOfExtendedEntries codec m).Perm ((entries l).map (Entry.pair codec m)) := by
  unfold getKvListOfExtendedEntries
  rw [extendedEntries_eq codec hl hnum]
  apply ofWrites_perm
  rw [map_map]
  exact entries_keys_nodup hsep hl.sorted

theorem exists_sortedEntries (codec : JsonCodec) (hsep : sep ∉ m.versionId) (hl : Invariant m l)
    (hnum : Numbered l) :
    ∃ es : List Entry, es.Perm (entries l) ∧
      getKvListOfExtendedEntries codec m = es.map (Entry.pair codec m) ∧
      es.Pairwise fun a b => a.key m < b.key m := by
  have hsame : List.Forall₂ (fun kv e => kv = Entry.pair codec m e)
      ((entries l).map (Entry.pair codec m)) (entries l) := by
    rw [List.forall₂_map_left_iff, List.forall₂_same]
    intro e _
    rfl
  obtain ⟨es, hes, hperm⟩ := perm_comp_forall₂ (kvList_perm codec hsep hl hnum) hsame
  have hkv : getKvListOfExtendedEntries codec m = es.map (Entry.pair codec m) := by
    rw [← List.forall₂_eq_eq_eq, List.forall₂_map_right_iff]
    exact hes
  have hsorted : Sorted (getKvListOfExtendedEntries codec m) := sorted_ofWrites _
  unfold Sorted at hsorted
  rw [hkv, pairwise_map] at hsorted
  exact ⟨es, hperm, hkv, hsorted⟩

/-- What `add_extended_entry` builds, of an object that has a name, in a version without
separator, with parts numbered from 1 on or without parts. -/
structure Built (m : S3ObjectExtendedMetadata) : Prop where
  added : Added m.objectName m.versionId m
  named : m.objectName ≠ []
  version : sep ∉ m.versionId
  numbered : m.extObjects.map Prod.fst = [0] ∨
    (m.extObjects ≠ [] ∧
      m.extObjects.map Prod.fst = (List.range' 1 m.extObjects.length).map fun k : Nat => (k : Int))

theorem Built.contents (h : Built m) : ∃ l, Invariant m l ∧ Numbered l := by
  obtain ⟨_, _, l, hl⟩ := h.added.invariant
  refine ⟨l, hl, ?_⟩
  have hkeys : m.extObjects.map Prod.fst = (l.map Prod.fst).map fun k : Nat => (k : Int) := by
    rw [hl.ext]
    unfold Contents.toExt
    rw [map_map, map_map]
    rfl
  have hcast : Function.Injective fun k : Nat => (k : Int) := fun _ _ h => Int.ofNat.inj h
  have hlen : m.extObjects.length = l.length := by
    rw [hl.ext]
    exact length_map _
  rcases h.numbered with hzero | ⟨hne, hrange⟩
  · left
    apply map_injective_iff.mpr hcast
    rw [← hkeys, hzero]
    rfl
  · right
    refine ⟨?_, ?_⟩
    · intro hnil
      apply hne
      rw [hl.ext, hnil]
      rfl
    · apply map_injective_iff.mpr hcast
      rw [← hkeys, hrange, hlen]

/-! ### What a load reads -/

/-- A key that begins with name and version and is not one of the object's own. -/
def Intruder (m : S3ObjectExtendedMetadata) (k : Bytes) : Prop :=
  m.prefixOfUniqueObject.isPrefixOf k = true ∧ k ≠ m.prefixOfUniqueObject ∧
    k ∉ m.getExtendedEntriesKeyList

/-- The load stops before it meets an intruder: these come behind all own keys, and the last
batch ends with the last own key. -/
def Undisturbed (m : S3ObjectExtendedMetadata) (index : List (Bytes × Bytes)) (n : Nat) : Prop :=
  ∀ kv ∈ index, m.Intruder kv.1 →
    n ∣ m.fragments ∧ ∀ k ∈ m.getExtendedEntriesKeyList, k < kv.1

theorem keysRead_eq_self_iff {r n : Nat} (hn : 0 < n) : keysRead r n = r ↔ n ∣ r := by
  unfold keysRead
  constructor
  · intro h
    exact ⟨(r + n - 1) / n, by rw [Nat.mul_comm, h]⟩
  · rintro ⟨q, rfl⟩
    have hdiv : (n * q + n - 1) / n = q := by
      rw [show n * q + n - 1 = n * q + (n - 1) by omega, Nat.mul_add_div hn,
        Nat.div_eq_of_lt (by omega), Nat.add_zero]
    rw [hdiv, Nat.mul_comm]

/-- The keys that follow name and version and begin with them. -/
def following (pre : Bytes) (index : List (Bytes × Bytes)) : List (Bytes × Bytes) :=
  (after index pre).takeWhile (begins pre)

variable {index : List (Bytes × Bytes)} {kv : Bytes × Bytes}

theorem mem_following {pre : Bytes} (hs : Sorted index) :
    kv ∈ following pre index ↔ kv ∈ index ∧ pre.isPrefixOf kv.1 = true ∧ kv.1 ≠ pre := by
  have hfilter : following pre index = (after index pre).filter (begins pre) :=
    takeWhile_prefix_after hs pre
  rw [hfilter, mem_filter, mem_after, and_assoc]
  apply and_congr_right
  intro _
  constructor
  · rintro ⟨hlt, hpre⟩
    exact ⟨hpre, ne_of_gt hlt⟩
  · rintro ⟨hpre, hne⟩
    have hle : pre ≤ kv.1 := le_of_prefix (List.isPrefixOf_iff_prefix.mp hpre)
    exact ⟨lt_of_le_of_ne hle (Ne.symm hne), hpre⟩

theorem following_sorted {pre : Bytes} (hs : Sorted index) : Sorted (following pre index) :=
  hs.sublist ((List.takeWhile_prefix _).sublist.trans filter_sublist)

/-- One of the object's own keys. -/
noncomputable def own (m : S3ObjectExtendedMetadata) (kv : Bytes × Bytes) : Bool :=
  (Classical.propDecidable (kv.1 ∈ m.getExtendedEntriesKeyList)).decide

theorem own_iff : m.own kv = true ↔ kv.1 ∈ m.getExtendedEntriesKeyList :=
  @decide_eq_true_iff _ (Classical.propDecidable _)

theorem own_eq_false_iff : m.own kv = false ↔ kv.1 ∉ m.getExtendedEntriesKeyList := by
  rw [← own_iff, Bool.not_eq_true]

section Saved

variable (codec : JsonCodec) {m : S3ObjectExtendedMetadata} {index : List (Bytes × Bytes)}
  {l : Contents} {n : Nat}

theorem mem_keyList (codec : JsonCodec) (hl : Invariant m l) (hnum : Numbered l) {k : Bytes} :
    k ∈ m.getExtendedEntriesKeyList ↔ ∃ e ∈ entries l, e.key m = k := by
  rw [← extendedEntries_keys codec, extendedEntries_eq codec hl hnum, map_map, mem_map]
  rfl

theorem kvList_keys (hsep : sep ∉ m.versionId) (hl : Invariant m l) (hnum : Numbered l) :
    ((getKvListOfExtendedEntries codec m).map Prod.fst).Perm m.getExtendedEntriesKeyList := by
  rw [← extendedEntries_keys codec, extendedEntries_eq codec hl hnum]
  exact (kvList_perm codec hsep hl hnum).map Prod.fst

theorem save_sorted (hs : Sorted index) : Sorted (save codec m index) :=
  sorted_foldl_set _ hs

theorem mem_save (hs : Sorted index) (hsep : sep ∉ m.versionId) (hl : Invariant m l)
    (hnum : Numbered l) {kv : Bytes × Bytes} :
    kv ∈ save codec m index ↔
      kv ∈ getKvListOfExtendedEntries codec m ∨
        (kv ∈ index ∧ kv.1 ∉ m.getExtendedEntriesKeyList) := by
  unfold save
  have hsorted : Sorted (getKvListOfExtendedEntries codec m) := sorted_ofWrites _
  rw [mem_foldl_set _ hs hsorted.nodup_keys, (kvList_keys codec hsep hl hnum).mem_iff]

/-- **The own pairs are among those that follow name and version.** -/
theorem filter_own (hs : Sorted index) (hsep : sep ∉ m.versionId) (hl : Invariant m l)
    (hnum : Numbered l) :
    (following m.prefixOfUniqueObject (save codec m index)).filter m.own =
      getKvListOfExtendedEntries codec m := by
  have hsaved := save_sorted codec (m := m) hs
  have hsorted : Sorted (getKvListOfExtendedEntries codec m) := sorted_ofWrites _
  have hfiltered : Sorted
      ((following m.prefixOfUniqueObject (save codec m index)).filter m.own) :=
    (following_sorted hsaved).sublist filter_sublist
  apply Sorted.eq_of_perm hfiltered hsorted
  apply (perm_ext_iff_of_nodup hfiltered.nodup hsorted.nodup).mpr
  intro kv
  have hkey : kv ∈ getKvListOfExtendedEntries codec m → kv.1 ∈ m.getExtendedEntriesKeyList :=
    fun h => (kvList_keys codec hsep hl hnum).mem_iff.mp (mem_map_of_mem h)
  rw [mem_filter, mem_following hsaved, mem_save codec hs hsep hl hnum, own_iff]
  constructor
  · rintro ⟨⟨h | ⟨_, hnot⟩, _⟩, hmem⟩
    · exact h
    · exact absurd hmem hnot
  · intro h
    obtain ⟨e, _, he⟩ := (mem_keyList codec hl hnum).mp (hkey h)
    refine ⟨⟨Or.inl h, ?_, ?_⟩, hkey h⟩
    · rw [← he]
      exact e.key_begins m
    · rw [← he]
      exact ne_of_gt (e.prefix_lt_key m)

theorem length_kvList (hsep : sep ∉ m.versionId) (hl : Invariant m l) (hnum : Numbered l) :
    (getKvListOfExtendedEntries codec m).length = m.fragments := by
  rw [(kvList_perm codec hsep hl hnum).length_eq, length_map, length_entries, hl.fragments]

/-- **A load takes what follows name and version, as far as it reads.** -/
theorem load_eq (hs : Sorted index) (hn : 0 < n) (hsep : sep ∉ m.versionId)
    (hl : Invariant m l) (hnum : Numbered l) (hpos : 0 < m.fragments) :
    load codec m.forLoading (save codec m index) n =
      some (loadResult codec m.forLoading
        ((following m.prefixOfUniqueObject (save codec m index)).take
          (keysRead m.fragments n))) := by
  have hsaved := save_sorted codec (m := m) hs
  have hfollow : (following m.prefixOfUniqueObject (save codec m index)).length ≤
      (after (save codec m index) m.prefixOfUniqueObject).length :=
    (List.takeWhile_prefix _).length_le
  have hown : m.fragments ≤ (following m.prefixOfUniqueObject (save codec m index)).length := by
    rw [← length_kvList codec hsep hl hnum, ← filter_own codec hs hsep hl hnum]
    exact length_filter_le _ _
  have hafter : (after (save codec m index) m.prefixOfUniqueObject).length ≤
      (save codec m index).length := length_filter_le _ _
  have hload := loadFrom_eq codec hsaved hn ((save codec m index).length + 1) m.forLoading
    m.prefixOfUniqueObject 0 m.fragments _ rfl rfl (by omega) hpos (Nat.zero_add _).symm
    (by omega)
  unfold load following
  rw [take_takeWhile]
  exact hload

theorem take_of_undisturbed (hs : Sorted index) (hn : 0 < n) (hsep : sep ∉ m.versionId)
    (hl : Invariant m l) (hnum : Numbered l) (h : m.Undisturbed index n) :
    (following m.prefixOfUniqueObject (save codec m index)).take (keysRead m.fragments n) =
      getKvListOfExtendedEntries codec m := by
  have hsaved := save_sorted codec (m := m) hs
  have hlen : ((following m.prefixOfUniqueObject (save codec m index)).filter m.own).length =
      m.fragments := by
    rw [filter_own codec hs hsep hl hnum, length_kvList codec hsep hl hnum]
  rw [← filter_own codec hs hsep hl hnum]
  apply take_eq_filter (following_sorted hsaved)
  · rw [hlen]
    exact le_keysRead hn
  · intro x hx hforeign
    have hnot : x.1 ∉ m.getExtendedEntriesKeyList := own_eq_false_iff.mp hforeign
    obtain ⟨hmem, hpre, hne⟩ := (mem_following hsaved).mp hx
    rcases (mem_save codec hs hsep hl hnum).mp hmem with hkv | ⟨hindex, _⟩
    · exact absurd ((kvList_keys codec hsep hl hnum).mem_iff.mp (mem_map_of_mem hkv)) hnot
    · obtain ⟨hdvd, hlt⟩ := h x hindex ⟨hpre, hne, hnot⟩
      rw [hlen]
      exact ⟨(keysRead_eq_self_iff hn).mpr hdvd, fun o _ ho => hlt o.1 (own_iff.mp ho)⟩

theorem exists_intruder_taken (hs : Sorted index) (hn : 0 < n) (hsep : sep ∉ m.versionId)
    (hl : Invariant m l) (hnum : Numbered l) (h : ¬ m.Undisturbed index n) :
    ∃ kv ∈ (following m.prefixOfUniqueObject (save codec m index)).take
      (keysRead m.fragments n), kv ∈ index := by
  have hsaved := save_sorted codec (m := m) hs
  have hlen : ((following m.prefixOfUniqueObject (save codec m index)).filter m.own).length =
      m.fragments := by
    rw [filter_own codec hs hsep hl hnum, length_kvList codec hsep hl hnum]
  by_contra hnone
  apply h
  intro kv hkv hintruder
  have hmem : kv ∈ following m.prefixOfUniqueObject (save codec m index) := by
    rw [mem_following hsaved, mem_save codec hs hsep hl hnum]
    exact ⟨Or.inr ⟨hkv, hintruder.2.2⟩, hintruder.1, hintruder.2.1⟩
  have htaken : ∀ x ∈ (following m.prefixOfUniqueObject (save codec m index)).take
      (keysRead m.fragments n), m.own x = true := by
    intro x hx
    have hxmem := ((mem_following hsaved).mp (mem_of_mem_take hx)).1
    rcases (mem_save codec hs hsep hl hnum).mp hxmem with hown | ⟨hindex, _⟩
    · exact own_iff.mpr
        ((kvList_keys codec hsep hl hnum).mem_iff.mp (mem_map_of_mem hown))
    · exact absurd ⟨x, hx, hindex⟩ hnone
  obtain ⟨hkeys, hlt⟩ := foreign_of_take (following_sorted hsaved)
    (by rw [hlen]; exact le_keysRead hn) htaken hmem (own_eq_false_iff.mpr hintruder.2.2)
  rw [hlen] at hkeys
  refine ⟨(keysRead_eq_self_iff hn).mp hkeys, ?_⟩
  intro k hk
  obtain ⟨kv', hkv', rfl⟩ := mem_map.mp ((kvList_keys codec hsep hl hnum).mem_iff.mpr hk)
  have hown := filter_own codec hs hsep hl hnum
  rw [← hown] at hkv'
  exact hlt kv' (mem_filter.mp hkv').1 (mem_filter.mp hkv').2

end Saved

/-! ### What the entries leave -/

theorem toExt_sorted (hs : Sorted l) : Sorted l.toExt := by
  apply pairwise_map.mpr
  apply List.Pairwise.imp _ hs
  intro a b hab
  show (a.1 : Int) < (b.1 : Int)
  exact_mod_cast hab

theorem toExt_lt (h : ∀ p ∈ l, p.1 < k) : ∀ q ∈ l.toExt, q.1 < (k : Int) := by
  intro q hq
  obtain ⟨a, ha, rfl⟩ := mem_map.mp hq
  show (a.1 : Int) < (k : Int)
  exact_mod_cast h a ha

/-- The parts after some entries were read. -/
def pushAll (ext : List (Int × List S3PartFragContext)) (es : List Entry) :
    List (Int × List S3PartFragContext) :=
  es.foldl (fun ext e => pushEntry ext e.part e.loaded) ext

theorem pushAll_append (ext : List (Int × List S3PartFragContext)) (es es' : List Entry) :
    pushAll ext (es ++ es') = pushAll (pushAll ext es) es' :=
  foldl_append

/-- The number of parts after some entries were read: the part of the last one. -/
def lastPart (parts : Nat) (es : List Entry) : Nat :=
  es.foldl (fun parts e => if e.part = 0 then parts else e.part) parts

/-- **Own pairs are all read**, whatever their order. -/
theorem takeAll_pairs (codec : JsonCodec) (hsep : sep ∉ m.versionId) :
    ∀ (es : List Entry) (m₀ : S3ObjectExtendedMetadata), m₀.objectName = m.objectName →
      (∀ e ∈ es, Belongs m.versionId e.part e.ctx ∧ e.part < 2 ^ 31) →
      ∃ m', takeAll codec m₀ (es.map (Entry.pair codec m)) = some m' ∧
        m'.extObjects = pushAll m₀.extObjects es ∧ m'.parts = lastPart m₀.parts es := by
  intro es
  induction es with
  | nil =>
    intro m₀ _ _
    exact ⟨m₀, rfl, rfl, rfl⟩
  | cons e es ih =>
    intro m₀ hobj hfits
    obtain ⟨hbelongs, hpart⟩ := hfits e mem_cons_self
    obtain ⟨m₁, hjson, hext₁, hparts₁, hobj₁, _, _⟩ :=
      fromJson_pair codec hobj hsep hbelongs hpart
    obtain ⟨m', htake, hext, hparts⟩ :=
      ih m₁ (hobj₁.trans hobj) (fun e' he' => hfits e' (mem_cons_of_mem _ he'))
    refine ⟨m', ?_, ?_, ?_⟩
    · rw [map_cons, takeAll_cons, hjson]
      exact htake
    · rw [hext, hext₁]
      rfl
    · rw [hparts, hparts₁]
      rfl

variable {ext : List (Int × List S3PartFragContext)}

theorem pushEntry_last {k : Int} (hlt : ∀ p ∈ ext, p.1 < k) (frags : List S3PartFragContext)
    (ctx : S3PartFragContext) :
    pushEntry (ext ++ [(k, frags)]) k ctx = ext ++ [(k, frags ++ [ctx])] := by
  unfold pushEntry entriesOf
  rw [← set_of_all_lt hlt, get_set_self, set_set, set_of_all_lt hlt]
  rfl

theorem pushEntry_new {k : Int} (hs : Sorted ext) (hlt : ∀ p ∈ ext, p.1 < k)
    (ctx : S3PartFragContext) : pushEntry ext k ctx = ext ++ [(k, [ctx])] := by
  have hnone : SortedMap.get k ext = none := by
    rw [Option.eq_none_iff_forall_not_mem]
    intro v hv
    exact lt_irrefl _ (hlt _ ((get_eq_some_iff hs).mp hv))
  unfold pushEntry entriesOf
  rw [hnone, set_of_all_lt hlt]
  rfl

theorem pushAll_part (hs : Sorted ext) (hlt : ∀ p ∈ ext, p.1 < (k : Int)) (hne : frags ≠ []) :
    pushAll ext (partEntries k frags) =
      ext ++ [((k : Int), frags.map fun c => { c with partNumber := (k : Int) })] := by
  -- the rest of the part, when some fragments are there already
  have hrest : ∀ (frags : List S3PartFragContext) (i : Nat) (done : List S3PartFragContext),
      pushAll (ext ++ [((k : Int), done)]) ((frags.zipIdx i).map fun f => ⟨k, f.2, f.1⟩) =
        ext ++ [((k : Int), done ++ frags.map fun c => { c with partNumber := (k : Int) })] := by
    intro frags
    induction frags with
    | nil =>
      intro i done
      rw [map_nil, append_nil]
      rfl
    | cons c frags ih =>
      intro i done
      show pushAll (pushEntry (ext ++ [((k : Int), done)]) k { c with partNumber := (k : Int) })
        ((frags.zipIdx (i + 1)).map fun f => ⟨k, f.2, f.1⟩) = _
      rw [pushEntry_last hlt, ih, append_assoc]
      rfl
  cases frags with
  | nil => exact absurd rfl hne
  | cons c frags =>
    show pushAll (pushEntry ext k { c with partNumber := (k : Int) })
      ((frags.zipIdx (1 + 1)).map fun f => ⟨k, f.2, f.1⟩) = _
    rw [pushEntry_new hs hlt, hrest]
    rfl

/-- The fragments of each part, with the number that the key gives them. -/
def Contents.withPartNumbers (l : Contents) : Contents :=
  l.map fun p => (p.1, p.2.map fun c => { c with partNumber := (p.1 : Int) })

/-- **Read in the order of their numbers, the entries give the parts.** -/
theorem pushAll_entries (hs : Sorted l) (hne : ∀ p ∈ l, p.2 ≠ []) :
    pushAll [] (entries l) = l.withPartNumbers.toExt := by
  induction l using List.reverseRecOn with
  | nil => rfl
  | append_singleton l p ih =>
    obtain ⟨hsl, _, hlt⟩ := pairwise_append.mp hs
    have hext := ih hsl (fun q hq => hne q (mem_append_left _ hq))
    have hsorted : Sorted (Contents.withPartNumbers l) := pairwise_map.mpr hsl
    have hkeys : ∀ q ∈ Contents.withPartNumbers l, q.1 < p.1 := by
      intro q hq
      obtain ⟨a, ha, rfl⟩ := mem_map.mp hq
      exact hlt a ha p mem_cons_self
    have hentries : entries (l ++ [p]) = entries l ++ partEntries p.1 p.2 := by
      unfold entries
      rw [flatMap_append]
      congr 1
      exact append_nil _
    rw [hentries, pushAll_append, hext,
      pushAll_part (toExt_sorted hsorted) (toExt_lt hkeys) (hne p (mem_append_right _ mem_cons_self))]
    unfold Contents.toExt Contents.withPartNumbers
    rw [map_append, map_append]
    rfl

/-! ### The number of parts -/

theorem lastPart_of_simple {es : List Entry} (h : ∀ e ∈ es, e.part = 0) (parts : Nat) :
    lastPart parts es = parts := by
  induction es with
  | nil => rfl
  | cons e es ih =>
    show lastPart (if e.part = 0 then parts else e.part) es = parts
    rw [if_pos (h e mem_cons_self)]
    exact ih fun e' he' => h e' (mem_cons_of_mem _ he')

theorem lastPart_concat (parts : Nat) (es : List Entry) (h : e.part ≠ 0) :
    lastPart parts (es ++ [e]) = e.part := by
  unfold lastPart
  rw [foldl_append]
  show (if e.part = 0 then _ else e.part) = e.part
  rw [if_neg h]

theorem mem_range_keys (hkeys : l.map Prod.fst = List.range' 1 l.length) :
    (∃ p ∈ l, p.1 = k) ↔ 1 ≤ k ∧ k ≤ l.length := by
  rw [← mem_map, hkeys, mem_range'_1]
  omega

theorem parts_eq (hl : Invariant m l) (hne : l ≠ [])
    (hkeys : l.map Prod.fst = List.range' 1 l.length) : m.parts = l.length := by
  have hlen := length_pos_iff.mpr hne
  obtain ⟨last, hlast, hkey⟩ := (mem_range_keys hkeys).mpr ⟨hlen, le_refl l.length⟩
  have hle := hl.parts last hlast
  rcases hl.partsMem with hzero | hmem
  · omega
  · have := (mem_range_keys hkeys).mp hmem
    omega

theorem simple_part (hzero : l.map Prod.fst = [0]) : ∀ p ∈ l, p.1 = 0 := by
  intro p hp
  have hmem : p.1 ∈ l.map Prod.fst := mem_map_of_mem hp
  rw [hzero] at hmem
  exact mem_singleton.mp hmem

theorem lastPart_entries (hl : Invariant m l) (hnum : Numbered l) :
    lastPart m.parts (entries l) = m.parts := by
  rcases hnum with hzero | ⟨hne, hkeys⟩
  · apply lastPart_of_simple
    intro e he
    obtain ⟨frags, hmem, _⟩ := mem_entries.mp he
    exact simple_part hzero _ hmem
  · have hparts := parts_eq hl hne hkeys
    have hlen := length_pos_iff.mpr hne
    -- the last entry is the last fragment of the last part
    obtain ⟨l', p, rfl⟩ := (eq_nil_or_concat' l).resolve_left hne
    have hkey : p.1 = m.parts := by
      have hlast := congrArg List.getLast? hkeys
      rw [map_append, map_singleton, List.getLast?_concat, List.getLast?_range'] at hlast
      rw [if_neg (by omega)] at hlast
      rw [hparts, Option.some.inj hlast]
      omega
    obtain ⟨front, c, hfrags⟩ := (eq_nil_or_concat' p.2).resolve_left
      (hl.nonempty p (mem_append_right _ mem_cons_self))
    have hentries : entries (l' ++ [p]) =
        (entries l' ++ partEntries p.1 front) ++ [⟨p.1, 1 + front.length, c⟩] := by
      unfold entries partEntries
      rw [flatMap_append, append_assoc, flatMap_singleton, hfrags, zipIdx_append, map_append]
      rfl
    rw [hentries, lastPart_concat _ _ (by show p.1 ≠ 0; omega)]
    exact hkey

/-! ### One digit is enough -/

/-- The parts of an object with the number that the key gives to their fragments. -/
def withPartNumbers (m : S3ObjectExtendedMetadata) : List (Int × List S3PartFragContext) :=
  m.extObjects.map fun p => (p.1, p.2.map fun c => { c with partNumber := p.1 })

theorem withPartNumbers_eq (hl : Invariant m l) : m.withPartNumbers = l.withPartNumbers.toExt := by
  unfold withPartNumbers
  rw [hl.ext]
  unfold Contents.toExt Contents.withPartNumbers
  rw [map_map, map_map]
  rfl

/-- What was saved to the index is loaded from it: the fragments of each part in their order, and
the number of parts. -/
def Survives (codec : JsonCodec) (m : S3ObjectExtendedMetadata) (index : List (Bytes × Bytes))
    (n : Nat) : Prop :=
  ∃ r, load codec m.forLoading (save codec m index) n = some (.success r) ∧
    r.extObjects = m.withPartNumbers ∧ r.getPartCount = m.getPartCount

/-- At most nine parts, with at most nine fragments each. -/
structure OneDigit (m : S3ObjectExtendedMetadata) : Prop where
  parts : m.extObjects.length ≤ 9
  frags : ∀ p ∈ m.extObjects, p.2.length ≤ 9

theorem Invariant.fragments_pos (hl : Invariant m l) (hnum : Numbered l) : 0 < m.fragments := by
  have hne : l ≠ [] := by
    rcases hnum with hzero | ⟨hne, _⟩
    · rintro rfl
      cases hzero
    · exact hne
  obtain ⟨p, rest, rfl⟩ := exists_cons_of_ne_nil hne
  have hpos := length_pos_iff.mpr (hl.nonempty p mem_cons_self)
  rw [hl.fragments]
  unfold Contents.count
  rw [map_cons, sum_cons]
  omega

theorem part_le_length (hnum : Numbered l) {p : Nat × List S3PartFragContext} (hp : p ∈ l) :
    p.1 ≤ l.length := by
  rcases hnum with hzero | ⟨_, hkeys⟩
  · rw [simple_part hzero p hp]
    exact Nat.zero_le _
  · exact ((mem_range_keys hkeys).mp ⟨p, hp, rfl⟩).2

theorem part_zero_iff (hnum : Numbered l) {p q : Nat × List S3PartFragContext} (hp : p ∈ l)
    (hq : q ∈ l) : p.1 = 0 ↔ q.1 = 0 := by
  rcases hnum with hzero | ⟨_, hkeys⟩
  · rw [simple_part hzero p hp, simple_part hzero q hq]
  · have hp' := (mem_range_keys hkeys).mp ⟨p, hp, rfl⟩
    have hq' := (mem_range_keys hkeys).mp ⟨q, hq, rfl⟩
    omega

theorem frag_le_length (hfrag : 1 ≤ e.frag) (hget : frags[e.frag - 1]? = some e.ctx) :
    e.frag ≤ frags.length := by
  have := (List.getElem?_eq_some_iff.mp hget).1
  omega

theorem OneDigit.contents (h : OneDigit m) (hl : Invariant m l) :
    l.length ≤ 9 ∧ ∀ p ∈ l, p.2.length ≤ 9 := by
  have hparts := h.parts
  have hfrags := h.frags
  rw [hl.ext] at hparts hfrags
  unfold Contents.toExt at hparts hfrags
  rw [length_map] at hparts
  exact ⟨hparts, fun p hp => hfrags _ (mem_map_of_mem hp)⟩

theorem kvList_of_oneDigit (codec : JsonCodec) (hl : Invariant m l) (hnum : Numbered l)
    (hdigit : OneDigit m) :
    getKvListOfExtendedEntries codec m = (entries l).map (Entry.pair codec m) := by
  obtain ⟨hparts, hfrags⟩ := hdigit.contents hl
  unfold getKvListOfExtendedEntries
  rw [extendedEntries_eq codec hl hnum]
  apply ofWrites_of_sorted
  apply pairwise_map.mpr
  apply List.Pairwise.imp_of_mem _ (entries_pairwise hl.sorted)
  intro a b ha hb hbefore
  obtain ⟨fa, hamem, _, _⟩ := mem_entries.mp ha
  obtain ⟨fb, hbmem, hbfrag, hbget⟩ := mem_entries.mp hb
  have hpart := part_le_length hnum hbmem
  have hfrag := frag_le_length hbfrag hbget
  have hlen : fb.length ≤ 9 := hfrags _ hbmem
  exact hbefore.key_lt m (part_zero_iff hnum hamem hbmem) (by omega) (by omega)

/-- **With one digit and no intruder what was saved is loaded.** -/
theorem survives_of_oneDigit (codec : JsonCodec) {n : Nat} (hm : Built m) (hs : Sorted index)
    (hn : 0 < n) (hdigit : OneDigit m) (hundisturbed : m.Undisturbed index n) :
    Survives codec m index n := by
  obtain ⟨l, hl, hnum⟩ := hm.contents
  obtain ⟨hparts, _⟩ := hdigit.contents hl
  have hfits : ∀ e ∈ entries l, Belongs m.versionId e.part e.ctx ∧ e.part < 2 ^ 31 := by
    intro e he
    obtain ⟨frags, hmem, _, hget⟩ := mem_entries.mp he
    have hpart := part_le_length hnum hmem
    exact ⟨hl.belongs _ hmem _ (mem_of_getElem? hget), by omega⟩
  obtain ⟨r, htake, hext, hpartsr⟩ :=
    takeAll_pairs codec hm.version (entries l) m.forLoading rfl hfits
  refine ⟨r, ?_, ?_, ?_⟩
  · rw [load_eq codec hs hn hm.version hl hnum (hl.fragments_pos hnum),
      take_of_undisturbed codec hs hn hm.version hl hnum hundisturbed,
      kvList_of_oneDigit codec hl hnum hdigit]
    unfold loadResult
    rw [htake]
  · rw [hext, withPartNumbers_eq hl]
    exact pushAll_entries hl.sorted hl.nonempty
  · show r.parts = m.parts
    rw [hpartsr]
    show lastPart m.parts (entries l) = m.parts
    exact lastPart_entries hl hnum

end S3ObjectExtendedMetadata

end CortxS3
