/-
Which objects come back from the index, and which do not.

That the numbers have one digit and that no other key gets in between is enough for an object to
be loaded as it was saved.  Here both are shown to be needed: an intruder without a value makes
the load fail (`not_survives_of_intruder`), ten parts come back as nine
(`not_survives_of_ten_parts`), and of ten fragments the tenth comes back before the second
(`not_survives_of_marked`).  Not every object shows the last one, since fragments can be equal;
so the result is about all contents of a given layout (`survives_iff`).
-/
import CortxS3.Proofs.SaveAndLoad

namespace CortxS3

open List hiding after next set_set

namespace S3ObjectExtendedMetadata

open OrderedIndex SortedMap

/-! ### Contents of a given layout -/

/-- The same object with the same numbers of parts and fragments. -/
structure SameLayout (m m' : S3ObjectExtendedMetadata) : Prop where
  objectName : m'.objectName = m.objectName
  versionId : m'.versionId = m.versionId
  layout : (m'.extObjects.map fun p => (p.1, p.2.length)) =
    m.extObjects.map fun p => (p.1, p.2.length)

/-- The number of each part and how many fragments it has. -/
def Contents.layout (l : Contents) : List (Nat × Nat) := l.map fun p => (p.1, p.2.length)

variable {l : Contents} {m m' : S3ObjectExtendedMetadata}

theorem SameLayout.contents (h : SameLayout m m') {l' : Contents} (hl : Invariant m l)
    (hl' : Invariant m' l') : l'.layout = l.layout := by
  have hlayout := h.layout
  rw [hl.ext, hl'.ext] at hlayout
  unfold Contents.toExt at hlayout
  rw [map_map, map_map] at hlayout
  have hcast : Function.Injective fun q : Nat × Nat => ((q.1 : Int), q.2) := by
    intro a b hab
    obtain ⟨h1, h2⟩ := Prod.mk.inj hab
    exact Prod.ext (Int.ofNat.inj h1) h2
  apply map_injective_iff.mpr hcast
  unfold Contents.layout
  rw [map_map, map_map]
  exact hlayout

theorem layout_count (l : Contents) : (l.layout.map Prod.snd).sum = l.count := by
  unfold Contents.layout Contents.count
  rw [map_map]
  rfl

theorem mem_keyList_layout (codec : JsonCodec) (hl : Invariant m l) (hnum : Numbered l) {k : Bytes} :
    k ∈ m.getExtendedEntriesKeyList ↔
      ∃ q ∈ l.layout, ∃ j, 1 ≤ j ∧ j ≤ q.2 ∧ m.entryKey (q.1 ≠ 0) q.1 j = k := by
  rw [mem_keyList codec hl hnum]
  constructor
  · rintro ⟨e, he, hkey⟩
    obtain ⟨frags, hmem, hfrag, hget⟩ := mem_entries.mp he
    exact ⟨_, mem_map_of_mem hmem, e.frag, hfrag, frag_le_length hfrag hget, hkey⟩
  · rintro ⟨q, hq, j, hj, hjle, hkey⟩
    obtain ⟨p, hp, rfl⟩ := mem_map.mp hq
    have hlt : j - 1 < p.2.length := by
      have : j ≤ p.2.length := hjle
      omega
    exact ⟨⟨p.1, j, p.2[j - 1]⟩, mem_entries.mpr ⟨p.2, hp, hj, List.getElem?_eq_getElem hlt⟩, hkey⟩

theorem SameLayout.keyList (codec : JsonCodec) (h : SameLayout m m') (hm : Built m) (hm' : Built m')
    (k : Bytes) : k ∈ m'.getExtendedEntriesKeyList ↔ k ∈ m.getExtendedEntriesKeyList := by
  obtain ⟨l, hl, hnum⟩ := hm.contents
  obtain ⟨l', hl', hnum'⟩ := hm'.contents
  have hkey : m'.entryKey = m.entryKey := by
    funext b i j
    unfold entryKey prefixOfUniqueObject
    rw [h.objectName, h.versionId]
  rw [mem_keyList_layout codec hl' hnum', mem_keyList_layout codec hl hnum, h.contents hl hl', hkey]

theorem SameLayout.fragments (h : SameLayout m m') (hm : Built m) (hm' : Built m') :
    m'.fragments = m.fragments := by
  obtain ⟨l, hl, _⟩ := hm.contents
  obtain ⟨l', hl', _⟩ := hm'.contents
  rw [hl'.fragments, hl.fragments, ← layout_count, ← layout_count, h.contents hl hl']

variable {index : List (Bytes × Bytes)} {n : Nat}

theorem SameLayout.undisturbed (codec : JsonCodec) (h : SameLayout m m') (hm : Built m)
    (hm' : Built m') {index' : List (Bytes × Bytes)}
    (hkeys : index'.map Prod.fst = index.map Prod.fst) (hundisturbed : m.Undisturbed index n) :
    m'.Undisturbed index' n := by
  have hpre : m'.prefixOfUniqueObject = m.prefixOfUniqueObject := by
    unfold prefixOfUniqueObject
    rw [h.objectName, h.versionId]
  intro kv hkv hintruder
  have hmem : kv.1 ∈ index.map Prod.fst := by
    rw [← hkeys]
    exact mem_map_of_mem hkv
  obtain ⟨kv', hkv', hkey⟩ := mem_map.mp hmem
  have hintruder' : m.Intruder kv'.1 := by
    unfold Intruder at hintruder ⊢
    rw [hkey]
    rwa [hpre, h.keyList codec hm hm'] at hintruder
  obtain ⟨hdvd, hlt⟩ := hundisturbed kv' hkv' hintruder'
  rw [h.fragments hm hm']
  refine ⟨hdvd, ?_⟩
  intro k hk
  rw [← hkey]
  exact hlt k ((h.keyList codec hm hm' k).mp hk)

theorem SameLayout.oneDigit (h : SameLayout m m') (hdigit : OneDigit m) : OneDigit m' := by
  refine ⟨?_, ?_⟩
  · have hlen := congrArg List.length h.layout
    rw [length_map, length_map] at hlen
    rw [hlen]
    exact hdigit.parts
  · intro p hp
    have hmem : (p.1, p.2.length) ∈ m.extObjects.map fun p => (p.1, p.2.length) := by
      rw [← h.layout]
      exact mem_map_of_mem hp
    obtain ⟨q, hq, heq⟩ := mem_map.mp hmem
    rw [← (Prod.mk.inj heq).2]
    exact hdigit.frags q hq

theorem exists_added_part {objectName versionId : Bytes} (hm : Added objectName versionId m)
    {k : Nat} (hs : Sorted m.extObjects) (hkeys : ∀ q ∈ m.extObjects, q.1 < (k : Int))
    {frags : List S3PartFragContext} (hne : frags ≠ []) (hfits : ∀ c ∈ frags, Belongs versionId k c) :
    ∃ m', Added objectName versionId m' ∧ m'.extObjects = m.extObjects ++ [((k : Int), frags)] := by
  induction frags using List.reverseRecOn with
  | nil => exact absurd rfl hne
  | append_singleton frags c ih =>
    have hc := hfits c (mem_append_right _ mem_cons_self)
    by_cases hfirst : frags = []
    · subst hfirst
      have hentries : entriesOf m.extObjects k = [] := by
        have hnone : SortedMap.get (k : Int) m.extObjects = none := by
          rw [Option.eq_none_iff_forall_not_mem]
          intro v hv
          exact lt_irrefl _ (hkeys _ ((get_eq_some_iff hs).mp hv))
        unfold entriesOf
        rw [hnone]
        rfl
      refine ⟨m.addExtendedEntry c 1 k, hm.add c 1 k (le_refl 1) (by omega) hc, ?_⟩
      show SortedMap.set (k : Int) ((entriesOf m.extObjects k).insertIdx 0 c) m.extObjects = _
      rw [hentries, set_of_all_lt hkeys]
      rfl
    · obtain ⟨m₁, hm₁, hext₁⟩ :=
        ih hfirst (fun c' hc' => hfits c' (mem_append_left _ hc'))
      have hentries : entriesOf m₁.extObjects k = frags := by
        unfold entriesOf
        rw [hext₁, ← set_of_all_lt hkeys, get_set_self]
        rfl
      refine ⟨m₁.addExtendedEntry c (frags.length + 1) k,
        hm₁.add c (frags.length + 1) k (by omega) (by rw [hentries]) hc, ?_⟩
      show SortedMap.set (k : Int)
        ((entriesOf m₁.extObjects k).insertIdx (frags.length + 1 - 1) c) m₁.extObjects = _
      rw [hentries, Nat.add_sub_cancel, insertIdx_length_self, hext₁,
        ← set_of_all_lt hkeys, set_set, set_of_all_lt hkeys]

/-- **All contents can be built.** -/
theorem exists_added (objectName versionId : Bytes) (l : Contents) (hs : Sorted l)
    (hne : ∀ p ∈ l, p.2 ≠ []) (hbelongs : ∀ p ∈ l, ∀ c ∈ p.2, Belongs versionId p.1 c) :
    ∃ m, Added objectName versionId m ∧ m.extObjects = l.toExt := by
  induction l using List.reverseRecOn with
  | nil => exact ⟨_, Added.fresh, rfl⟩
  | append_singleton l p ih =>
    obtain ⟨hsl, _, hlt⟩ := pairwise_append.mp hs
    have hp : p ∈ l ++ [p] := mem_append_right _ mem_cons_self
    obtain ⟨m, hm, hext⟩ := ih hsl (fun q hq => hne q (mem_append_left _ hq))
      (fun q hq => hbelongs q (mem_append_left _ hq))
    obtain ⟨m', hm', hext'⟩ := exists_added_part hm (by rw [hext]; exact toExt_sorted hsl)
      (by rw [hext]; exact toExt_lt fun q hq => hlt q hq p mem_cons_self)
      (hne p hp) (hbelongs p hp)
    refine ⟨m', hm', ?_⟩
    rw [hext', hext]
    unfold Contents.toExt
    rw [map_append]
    rfl

/-! ### Where it goes wrong -/

theorem takeAll_eq_none {codec : JsonCodec} {kv : Bytes × Bytes}
    (h : ∀ m, fromJson codec m kv.1 kv.2 = none) :
    ∀ (l : List (Bytes × Bytes)) (m : S3ObjectExtendedMetadata), kv ∈ l →
      takeAll codec m l = none := by
  intro l
  induction l with
  | nil => intro m hmem; cases hmem
  | cons kv' l ih =>
    intro m hmem
    rw [takeAll_cons]
    rcases mem_cons.mp hmem with rfl | hmem
    · rw [h]
      rfl
    · cases fromJson codec m kv'.1 kv'.2 with
      | none => rfl
      | some m' => exact ih m' hmem

/-- **An intruder without a value makes the load fail.** -/
theorem not_survives_of_intruder (codec : JsonCodec) (hm : Built m) (hs : Sorted index) (hn : 0 < n)
    (hdisturbed : ¬ m.Undisturbed index n) (hempty : ∀ kv ∈ index, kv.2 = []) :
    ¬ Survives codec m index n := by
  obtain ⟨l, hl, hnum⟩ := hm.contents
  obtain ⟨kv, htaken, hkv⟩ := exists_intruder_taken codec hs hn hm.version hl hnum hdisturbed
  rintro ⟨r, hload, _⟩
  have hnone : ∀ m, fromJson codec m kv.1 kv.2 = none := by
    intro m
    unfold fromJson
    rw [hempty kv hkv, show cStr [] = [] from rfl, codec.parse_nil]
    rfl
  rw [load_eq codec hs hn hm.version hl hnum (hl.fragments_pos hnum)] at hload
  unfold loadResult at hload
  rw [takeAll_eq_none hnone _ _ htaken] at hload
  cases Option.some.inj hload

/-- A load that is not disturbed takes the own pairs in the order of the index. -/
theorem Survives.takeAll {codec : JsonCodec} (h : Survives codec m index n) (hs : Sorted index)
    (hn : 0 < n) (hsep : sep ∉ m.versionId) (hl : Invariant m l) (hnum : Numbered l)
    (hundisturbed : m.Undisturbed index n) :
    ∃ r, S3ObjectExtendedMetadata.takeAll codec m.forLoading (getKvListOfExtendedEntries codec m) =
        some r ∧
      r.extObjects = m.withPartNumbers ∧ r.parts = m.parts := by
  obtain ⟨r, hload, hext, hparts⟩ := h
  rw [load_eq codec hs hn hsep hl hnum (hl.fragments_pos hnum),
    take_of_undisturbed codec hs hn hsep hl hnum hundisturbed] at hload
  refine ⟨r, ?_, hext, hparts⟩
  unfold loadResult at hload
  cases htake : S3ObjectExtendedMetadata.takeAll codec m.forLoading
      (getKvListOfExtendedEntries codec m) with
  | none =>
    rw [htake] at hload
    cases Option.some.inj hload
  | some r' =>
    rw [htake] at hload
    cases Option.some.inj hload
    rfl

/-- **With ten parts the last key is one of part 9.** -/
theorem last_part_nine (hl : Invariant m l) (hkeys : l.map Prod.fst = List.range' 1 l.length)
    (hten : 10 ≤ l.length) {es : List Entry} (hperm : es.Perm (entries l))
    (hsorted : es.Pairwise fun a b => a.key m < b.key m) :
    ∃ front e, es = front ++ [e] ∧ e.part = 9 := by
  obtain ⟨p, hp, hnine⟩ := (mem_range_keys hkeys).mpr ⟨by omega, show 9 ≤ l.length by omega⟩
  obtain ⟨c, rest, hfrags⟩ := exists_cons_of_ne_nil (hl.nonempty p hp)
  obtain ⟨e9, he9, hpart9⟩ : ∃ e9 ∈ es, e9.part = 9 := by
    refine ⟨⟨p.1, 1, c⟩, ?_, hnine⟩
    apply hperm.mem_iff.mpr
    exact mem_entries.mpr ⟨p.2, hp, le_refl 1, by rw [hfrags]; rfl⟩
  obtain ⟨front, e, rfl⟩ := (eq_nil_or_concat' es).resolve_left (ne_nil_of_mem he9)
  refine ⟨front, e, rfl, ?_⟩
  by_contra hne
  obtain ⟨frags, hmem, _⟩ :=
    mem_entries.mp (hperm.mem_iff.mp (mem_append_right front mem_cons_self))
  have hpos := (mem_range_keys hkeys).mp ⟨_, hmem, rfl⟩
  -- nothing stands behind part 9
  have hlt : e.key m < e9.key m := by
    apply Entry.key_lt_of_part m (Nat.one_le_iff_ne_zero.mp hpos.1) (by omega)
    intro x y
    rw [hpart9]
    by_cases hsmall : e.part < 9
    · exact decimal_lt_of_lt_ten (by omega) hsmall _ _
    · exact decimal_lt_nine (by omega) (by decide) _ _
  rcases mem_append.mp he9 with hfront | hlast
  · exact lt_asymm hlt ((pairwise_append.mp hsorted).2.2 _ hfront e mem_cons_self)
  · rw [mem_singleton.mp hlast] at hpart9
    exact hne hpart9

/-- With ten parts the number of parts is lost. -/
theorem not_survives_of_ten_parts (codec : JsonCodec) (hm : Built m) (hs : Sorted index)
    (hn : 0 < n) (hundisturbed : m.Undisturbed index n) (hten : 10 ≤ m.extObjects.length) :
    ¬ Survives codec m index n := by
  obtain ⟨l, hl, hnum⟩ := hm.contents
  have hlen : m.extObjects.length = l.length := by
    rw [hl.ext]
    exact length_map _
  obtain ⟨hne, hkeys⟩ : l ≠ [] ∧ l.map Prod.fst = List.range' 1 l.length := by
    rcases hnum with hzero | h
    · have := congrArg List.length hzero
      rw [length_map, length_singleton] at this
      omega
    · exact h
  intro hsurvives
  obtain ⟨r, htake, _, hparts⟩ := hsurvives.takeAll hs hn hm.version hl hnum hundisturbed
  rw [parts_eq hl hne hkeys] at hparts
  obtain ⟨es, hperm, hkv, hsorted⟩ := exists_sortedEntries codec hm.version hl hnum
  obtain ⟨front, e, rfl, hpart⟩ := last_part_nine hl hkeys (by omega) hperm hsorted
  obtain ⟨frags, hmem, _, hget⟩ :=
    mem_entries.mp (hperm.mem_iff.mp (mem_append_right front mem_cons_self))
  rw [hkv, map_append, takeAll_append] at htake
  obtain ⟨m₁, hfront, hlast⟩ := Option.bind_eq_some_iff.mp htake
  have hobj : m₁.objectName = m.objectName := (takeAll_sameObject hfront).objectName
  obtain ⟨m₂, hjson, _, hparts₂, _⟩ := fromJson_pair codec hobj hm.version
    (hl.belongs _ hmem _ (mem_of_getElem? hget)) (by rw [hpart]; decide)
  rw [map_singleton, takeAll_cons, hjson] at hlast
  cases Option.some.inj hlast
  rw [hparts₂, if_neg (by omega)] at hparts
  omega

/-! #### Ten fragments -/

theorem entriesOf_pushAll (k : Nat) :
    ∀ (es : List Entry) (ext : List (Int × List S3PartFragContext)),
      entriesOf (pushAll ext es) k =
        entriesOf ext k ++ (es.filter fun e => e.part = k).map Entry.loaded := by
  intro es
  induction es with
  | nil =>
    intro ext
    rw [filter_nil, map_nil, append_nil]
    rfl
  | cons e es ih =>
    intro ext
    show entriesOf (pushAll (pushEntry ext e.part e.loaded) es) k = _
    rw [ih]
    by_cases hk : e.part = k
    · rw [filter_cons_of_pos (by simp [hk]), map_cons, append_cons, ← hk]
      congr 1
      unfold pushEntry
      conv => lhs; unfold entriesOf
      rw [get_set_self]
      rfl
    · have hne : (k : Int) ≠ (e.part : Int) := fun h => hk (Int.ofNat.inj h).symm
      rw [filter_cons_of_neg (by simp [hk])]
      congr 1
      unfold pushEntry
      conv => lhs; unfold entriesOf
      rw [get_set_of_ne hne]
      rfl

/-- Sizes that tell the second and the tenth fragment from the others. -/
def mark (frag : Nat) : Nat := if frag = 2 then 1 else if frag = 10 then 2 else 0

def markedFrag (version : Bytes) (part frag : Nat) : S3PartFragContext :=
  { versionID := version, isMultipart := part ≠ 0, itemSize := mark frag }

/-- Contents of the same layout with marked fragments. -/
def Contents.marked (version : Bytes) (l : Contents) : Contents :=
  l.map fun p => (p.1, (List.range p.2.length).map fun i => markedFrag version p.1 (i + 1))

theorem markedFrag_belongs (version : Bytes) (part frag : Nat) :
    Belongs version part (markedFrag version part frag) := by
  refine ⟨rfl, rfl, ?_, show 0 < 2 ^ 31 by decide⟩
  show mark frag < sizeMod
  unfold mark
  split
  · decide
  · split <;> decide

theorem marked_pairwise (version : Bytes) (part len : Nat) :
    ((List.range len).map fun i => markedFrag version part (i + 1)).Pairwise
      fun a b => ¬ (a.itemSize = 2 ∧ b.itemSize = 1) := by
  apply pairwise_map.mpr
  apply List.Pairwise.imp _ pairwise_lt_range
  intro i j hij
  show ¬ (mark (i + 1) = 2 ∧ mark (j + 1) = 1)
  unfold mark
  rintro ⟨h2, h1⟩
  split at h2
  · omega
  · split at h1
    · split at h2
      · omega
      · omega
    · split at h1 <;> omega

/-- **With ten fragments in a part some contents come back in another order**: `F10` is read
before `F2`. -/
theorem not_survives_of_marked (codec : JsonCodec) (hs : Sorted index) (hn : 0 < n)
    (hsep : sep ∉ m.versionId) (hl : Invariant m (l.marked m.versionId))
    (hnum : Numbered (l.marked m.versionId)) (hundisturbed : m.Undisturbed index n)
    (hparts : ∀ p ∈ l, p.1 < 2 ^ 31) {p : Nat × List S3PartFragContext} (hp : p ∈ l)
    (hten : 10 ≤ p.2.length) : ¬ Survives codec m index n := by
  intro hsurvives
  obtain ⟨r, htake, hext, _⟩ := hsurvives.takeAll hs hn hsep hl hnum hundisturbed
  obtain ⟨es, hperm, hkv, hsorted⟩ := exists_sortedEntries codec hsep hl hnum
  have hfits : ∀ e ∈ es, Belongs m.versionId e.part e.ctx ∧ e.part < 2 ^ 31 := by
    intro e he
    obtain ⟨frags, hmem, _, hget⟩ := mem_entries.mp (hperm.mem_iff.mp he)
    refine ⟨hl.belongs _ hmem _ (mem_of_getElem? hget), ?_⟩
    obtain ⟨q, hq, heq⟩ := mem_map.mp hmem
    rw [← (Prod.mk.inj heq).1]
    exact hparts q hq
  obtain ⟨r', htake', hext', _⟩ := takeAll_pairs codec hsep es m.forLoading rfl hfits
  rw [hkv, htake'] at htake
  obtain rfl := Option.some.inj htake
  -- the fragments of the part as they were read
  have hmarked : (p.1, (List.range p.2.length).map fun i => markedFrag m.versionId p.1 (i + 1)) ∈
      l.marked m.versionId := mem_map_of_mem hp
  have hread : (es.filter fun e => e.part = p.1).map Entry.loaded =
      ((List.range p.2.length).map fun i => markedFrag m.versionId p.1 (i + 1)).map
        fun c => { c with partNumber := (p.1 : Int) } := by
    have hentries := entriesOf_pushAll p.1 es []
    have hnumbers : Sorted (l.marked m.versionId).withPartNumbers := pairwise_map.mpr hl.sorted
    have hget := (get_eq_some_iff hnumbers).mpr (mem_map_of_mem hmarked)
    rw [show pushAll [] es = r'.extObjects from hext'.symm, hext, withPartNumbers_eq hl] at hentries
    unfold entriesOf at hentries
    rw [get_toExt, hget] at hentries
    exact hentries.symm
  have hloaded : ((es.filter fun e => e.part = p.1).map Entry.loaded).Pairwise
      fun a b => ¬ (a.itemSize = 2 ∧ b.itemSize = 1) := by
    rw [hread, pairwise_map]
    exact marked_pairwise m.versionId p.1 p.2.length
  rw [pairwise_map, pairwise_iff_getElem] at hloaded
  have hkeys := hsorted.filter fun e => e.part = p.1
  rw [pairwise_iff_getElem] at hkeys
  have hmem : ∀ j, 1 ≤ j → j ≤ 10 →
      ∃ (i : Nat) (hi : i < (es.filter fun e => e.part = p.1).length),
        (es.filter fun e => e.part = p.1)[i] = ⟨p.1, j, markedFrag m.versionId p.1 j⟩ := by
    intro j hj hle
    apply getElem_of_mem
    apply mem_filter.mpr
    refine ⟨hperm.mem_iff.mpr (mem_entries.mpr ⟨_, hmarked, hj, ?_⟩), by simp⟩
    show ((List.range p.2.length).map fun i => markedFrag m.versionId p.1 (i + 1))[j - 1]? = _
    rw [List.getElem?_map, List.getElem?_range (by omega), Option.map_some, Nat.sub_add_cancel hj]
  obtain ⟨i₂, hi₂, h₂⟩ := hmem 2 (by omega) (by omega)
  obtain ⟨i₁₀, hi₁₀, h₁₀⟩ := hmem 10 (by omega) (by omega)
  have hlt : (⟨p.1, 10, markedFrag m.versionId p.1 10⟩ : Entry).key m <
      (⟨p.1, 2, markedFrag m.versionId p.1 2⟩ : Entry).key m := by
    apply Entry.key_lt_of_frag m
    · rfl
    · have hten := decimal_ten_lt_two [] []
      rwa [append_nil, append_nil] at hten
  rcases lt_trichotomy i₂ i₁₀ with h | h | h
  · have hbefore := hkeys i₂ i₁₀ hi₂ hi₁₀ h
    rw [h₂, h₁₀] at hbefore
    exact lt_asymm hlt hbefore
  · subst h
    rw [h₂, Entry.mk.injEq] at h₁₀
    exact absurd h₁₀.2.1 (by decide)
  · have hmark := hloaded i₁₀ i₂ hi₁₀ hi₂ h
    rw [h₂, h₁₀] at hmark
    exact hmark ⟨rfl, rfl⟩

theorem toExt_injective : Function.Injective Contents.toExt := by
  apply map_injective_iff.mpr
  intro a b hab
  obtain ⟨h1, h2⟩ := Prod.mk.inj hab
  exact Prod.ext (Int.ofNat.inj h1) h2

theorem marked_layout (version : Bytes) (l : Contents) : (l.marked version).layout = l.layout := by
  unfold Contents.layout Contents.marked
  rw [map_map]
  apply map_congr_left
  intro p _
  show (p.1, ((List.range p.2.length).map _).length) = (p.1, p.2.length)
  rw [length_map, length_range]

theorem exists_marked (hm : Built m) (hl : Invariant m l) :
    ∃ m', Built m' ∧ SameLayout m m' ∧ Invariant m' (l.marked m.versionId) := by
  have hne : ∀ p ∈ l.marked m.versionId, p.2 ≠ [] := by
    intro p hp
    obtain ⟨q, hq, rfl⟩ := mem_map.mp hp
    have hpos := length_pos_iff.mpr (hl.nonempty q hq)
    intro hnil
    rw [map_eq_nil_iff, range_eq_nil] at hnil
    omega
  have hbelongs : ∀ p ∈ l.marked m.versionId, ∀ c ∈ p.2, Belongs m.versionId p.1 c := by
    intro p hp c hc
    obtain ⟨q, _, rfl⟩ := mem_map.mp hp
    obtain ⟨i, _, rfl⟩ := mem_map.mp hc
    exact markedFrag_belongs _ _ _
  obtain ⟨m', hm', hext⟩ := exists_added m.objectName m.versionId (l.marked m.versionId)
    (pairwise_map.mpr hl.sorted) hne hbelongs
  obtain ⟨hobj, hver, l', hl'⟩ := hm'.invariant
  obtain rfl : l.marked m.versionId = l' := toExt_injective (hext.symm.trans hl'.ext)
  have hlayout : SameLayout m m' := by
    refine ⟨hobj, hver, ?_⟩
    have h := congrArg (List.map fun q : Nat × Nat => ((q.1 : Int), q.2))
      (marked_layout m.versionId l)
    unfold Contents.layout at h
    rw [map_map, map_map] at h
    rw [hext, hl.ext]
    unfold Contents.toExt
    rw [map_map, map_map]
    exact h
  refine ⟨m', ⟨?_, ?_, ?_, ?_⟩, hlayout, hl'⟩
  · rw [hobj, hver]
    exact hm'
  · rw [hobj]
    exact hm.named
  · rw [hver]
    exact hm.version
  · have hkeys : m'.extObjects.map Prod.fst = m.extObjects.map Prod.fst := by
      have h := congrArg (List.map Prod.fst) hlayout.layout
      rw [map_map, map_map] at h
      exact h
    have hlen : m'.extObjects.length = m.extObjects.length := by
      rw [← length_map, hkeys, length_map]
    have hnumbered := hm.numbered
    rw [← hkeys, ← hlen] at hnumbered
    rcases hnumbered with h | ⟨hne, h⟩
    · exact Or.inl h
    · refine Or.inr ⟨?_, h⟩
      intro hnil
      rw [hnil, length_nil] at hlen
      exact hne (length_eq_zero_iff.mp hlen.symm)

theorem SameLayout.refl (m : S3ObjectExtendedMetadata) : SameLayout m m := ⟨rfl, rfl, rfl⟩

theorem frags_le_nine (codec : JsonCodec) (hm : Built m) (hs : Sorted index) (hn : 0 < n)
    (hundisturbed : m.Undisturbed index n) (hparts : m.extObjects.length ≤ 9)
    (h : ∀ m', Built m' → SameLayout m m' → Survives codec m' index n) :
    ∀ p ∈ m.extObjects, p.2.length ≤ 9 := by
  intro p hp
  by_contra hten
  obtain ⟨l, hl, hnum⟩ := hm.contents
  obtain ⟨m', hm', hlayout, hl'⟩ := exists_marked hm hl
  obtain ⟨l', hl'', hnum'⟩ := hm'.contents
  obtain rfl : l.marked m.versionId = l' := toExt_injective (hl'.ext.symm.trans hl''.ext)
  rw [hl.ext] at hp hparts
  obtain ⟨q, hq, rfl⟩ := mem_map.mp hp
  have hsmall : ∀ p ∈ l, p.1 < 2 ^ 31 := by
    intro p hp
    have hle := part_le_length hnum hp
    unfold Contents.toExt at hparts
    rw [length_map] at hparts
    omega
  rw [← hlayout.versionId] at hl' hnum'
  exact not_survives_of_marked codec hs hn hm'.version hl' hnum'
    (hlayout.undisturbed codec hm hm' rfl hundisturbed) hsmall hq (Nat.lt_of_not_le hten)
    (h m' hm' hlayout)

/-- **What is saved is loaded again if and only if the numbers have one digit and nothing is in
the way.**  The parts and fragments of an object come back, with the number of parts, for all
contents of its fragments and all values of the other keys, exactly when there are at most nine
parts with at most nine fragments each, and every other key that begins with name and version
comes behind the own ones, with the last batch ending before it. -/
theorem survives_iff (codec : JsonCodec) {m : S3ObjectExtendedMetadata}
    {index : List (Bytes × Bytes)} {n : Nat} (hm : Built m) (hs : Sorted index) (hn : 0 < n) :
    (∀ m' index', Built m' → SameLayout m m' → index'.map Prod.fst = index.map Prod.fst →
      Survives codec m' index' n) ↔
    OneDigit m ∧ m.Undisturbed index n := by
  constructor
  · intro h
    have hundisturbed : m.Undisturbed index n := by
      by_contra hdisturbed
      -- the other keys without values
      have hkeys : (index.map fun kv => (kv.1, ([] : Bytes))).map Prod.fst =
          index.map Prod.fst := by
        rw [map_map]
        rfl
      have hsorted : Sorted (index.map fun kv => (kv.1, ([] : Bytes))) := pairwise_map.mpr hs
      refine not_survives_of_intruder codec hm hsorted hn ?_ ?_
        (h m _ hm (SameLayout.refl m) hkeys)
      · intro hundisturbed
        exact hdisturbed
          ((SameLayout.refl m).undisturbed codec hm hm hkeys.symm hundisturbed)
      · intro kv hkv
        obtain ⟨kv', _, rfl⟩ := mem_map.mp hkv
        rfl
    have hparts : m.extObjects.length ≤ 9 := by
      by_contra hten
      exact not_survives_of_ten_parts codec hm hs hn hundisturbed (Nat.lt_of_not_le hten)
        (h m index hm (SameLayout.refl m) rfl)
    refine ⟨⟨hparts, ?_⟩, hundisturbed⟩
    exact frags_le_nine codec hm hs hn hundisturbed hparts
      fun m' hm' hlayout => h m' index hm' hlayout rfl
  · rintro ⟨hdigit, hundisturbed⟩ m' index' hm' hlayout hkeys
    have hs' : Sorted index' := by
      unfold Sorted at hs ⊢
      rw [← pairwise_map (f := Prod.fst) (R := (· < ·)), hkeys, pairwise_map]
      exact hs
    exact survives_of_oneDigit codec hm' hs' hn (hlayout.oneDigit hdigit)
      (hlayout.undisturbed codec hm hm' hkeys hundisturbed)

/-! ### A codec, and objects uploaded in parts -/

/-- Pieces with a quotation mark between them. -/
def quoted : List Bytes → Bytes
  | [] => []
  | [p] => p
  | p :: ps => p ++ 34 :: quoted ps

theorem pieces_quoted :
    ∀ {ps : List Bytes}, ps ≠ [] → (∀ p ∈ ps, (34 : UInt8) ∉ p) → pieces 34 (quoted ps) = ps := by
  intro ps
  induction ps with
  | nil => intro h; exact absurd rfl h
  | cons p ps ih =>
    intro _ hall
    have hp := hall p mem_cons_self
    cases ps with
    | nil => exact pieces_of_notMem hp
    | cons q ps =>
      show pieces 34 (p ++ 34 :: quoted (q :: ps)) = _
      rw [pieces_append _ hp,
        ih (cons_ne_nil _ _) fun r hr => hall r (mem_cons_of_mem _ hr)]

theorem nulFree_quoted : ∀ {ps : List Bytes}, (∀ p ∈ ps, NulFree p) → NulFree (quoted ps) := by
  intro ps
  induction ps with
  | nil => intro _ h; cases h
  | cons p ps ih =>
    intro hall
    have hp := hall p mem_cons_self
    cases ps with
    | nil => exact hp
    | cons q ps =>
      intro h
      rcases mem_append.mp h with h | h
      · exact hp h
      · rcases mem_cons.mp h with h | h
        · cases h
        · exact ih (fun r hr => hall r (mem_cons_of_mem _ hr)) h

/-- A piece that can stand between quotation marks. -/
def Quotable (p : Bytes) : Prop := NulFree p ∧ (34 : UInt8) ∉ p
deriving Decidable

theorem Quotable.append {p q : Bytes} (hp : Quotable p) (hq : Quotable q) : Quotable (p ++ q) := by
  refine ⟨?_, ?_⟩
  · intro h
    rcases mem_append.mp h with h | h
    · exact hp.1 h
    · exact hq.1 h
  · intro h
    rcases mem_append.mp h with h | h
    · exact hp.2 h
    · exact hq.2 h

theorem quotable_of_plain {p : Bytes} (h : ∀ c ∈ p, isPlain c = true) : Quotable p := by
  refine ⟨?_, ?_⟩
  · intro hc
    exact absurd (h 0 hc) (by decide)
  · intro hc
    exact absurd (h 34 hc) (by decide)

theorem quotable_decimal (n : Nat) : Quotable (decimal n) := by
  refine ⟨?_, ?_⟩
  · intro hc
    exact (decimal_isDigit n 0 hc).ne (Or.inl (by decide)) rfl
  · intro hc
    exact (decimal_isDigit n 34 hc).ne (Or.inl (by decide)) rfl

/-- What stands between the quotation marks of a fragment's JSON. -/
def jsonPieces (j : FragmentJson) : List Bytes :=
  [ascii "\x7b", ascii "OID", ascii ":", j.oid, ascii ",", ascii "PVID", ascii ":", j.pvid,
    ascii ",", ascii "layout-id", ascii ":" ++ (decimal j.layoutId ++ ascii ","),
    ascii "size", ascii ":" ++ (decimal j.size ++ ascii "\x7d\n")]

def parseJsonPieces : List Bytes → Option FragmentJson
  | [_, _, _, oid, _, _, _, pvid, _, _, layoutId, _, size] =>
    some {
      oid := oid
      pvid := pvid
      size := decimalValue (size.drop 1) 0
      layoutId := decimalValue (layoutId.drop 1) 0 }
  | _ => none

theorem parseJsonPieces_jsonPieces (j : FragmentJson) :
    parseJsonPieces (jsonPieces j) = some j := by
  have hcomma : ascii "," = [44] := by decide
  have hbrace : ascii "\x7d\n" = [125, 10] := by decide
  have hcolon : ascii ":" = [58] := by decide
  have hnumber : ∀ (n : Nat) (c : UInt8) (t : Bytes), ¬ IsDigit c →
      decimalValue (decimal n ++ c :: t) 0 = n := by
    intro n c t hc
    rw [decimalValue_append_of_not_digit (decimal_isDigit n) hc, decimalValue_decimal]
  unfold jsonPieces parseJsonPieces
  dsimp only
  rw [hcomma, hbrace, hcolon]
  show some (FragmentJson.mk j.oid j.pvid (decimalValue (decimal j.size ++ [125, 10]) 0)
    (decimalValue (decimal j.layoutId ++ [44]) 0)) = some j
  rw [hnumber _ 125 [10] (by unfold IsDigit; decide), hnumber _ 44 [] (by unfold IsDigit; decide)]

/-- JSON as it is written for a fragment. -/
def fragmentCodec : JsonCodec where
  write j := quoted (jsonPieces j)
  parse s := parseJsonPieces (pieces 34 s)
  parse_write := by
    intro j hoid hpvid _ _
    have hquotable : ∀ p ∈ jsonPieces j, Quotable p := by
      have hconst : ∀ p ∈ [ascii "\x7b", ascii "OID", ascii ":", ascii ",", ascii "PVID",
          ascii "layout-id", ascii "size", ascii "\x7d\n"], Quotable p := by decide
      have hlayout := quotable_decimal j.layoutId
      have hsize := quotable_decimal j.size
      intro p hp
      simp only [jsonPieces, mem_cons, not_mem_nil, or_false] at hp
      rcases hp with rfl | rfl | rfl | rfl | rfl | rfl | rfl | rfl | rfl | rfl | rfl | rfl | rfl
      · exact hconst _ (by simp)
      · exact hconst _ (by simp)
      · exact hconst _ (by simp)
      · exact quotable_of_plain hoid
      · exact hconst _ (by simp)
      · exact hconst _ (by simp)
      · exact hconst _ (by simp)
      · exact quotable_of_plain hpvid
      · exact hconst _ (by simp)
      · exact hconst _ (by simp)
      · exact (hconst _ (by simp)).append (hlayout.append (hconst _ (by simp)))
      · exact hconst _ (by simp)
      · exact (hconst _ (by simp)).append (hsize.append (hconst _ (by simp)))
    rw [cStr_of_nulFree (nulFree_quoted fun p hp => (hquotable p hp).1),
      pieces_quoted (show jsonPieces j ≠ [] from cons_ne_nil _ _)
        fun p hp => (hquotable p hp).2]
    exact parseJsonPieces_jsonPieces j
  parse_nil := rfl

/-- An object uploaded in some parts of one fragment each. -/
def uploaded : Nat → S3ObjectExtendedMetadata
  | 0 => { objectName := ascii "movie", versionId := ascii "MTg0" }
  | n + 1 => (uploaded n).addExtendedEntry (markedFrag (ascii "MTg0") (n + 1) 1) 1 (n + 1)

theorem uploaded_added (n : Nat) : Added (ascii "movie") (ascii "MTg0") (uploaded n) := by
  induction n with
  | zero => exact Added.fresh
  | succ n ih => exact ih.add _ 1 (n + 1) (le_refl 1) (by omega) (markedFrag_belongs _ _ _)

theorem uploaded_two_built : Built (uploaded 2) :=
  ⟨uploaded_added 2, by decide, by decide, by decide⟩

theorem uploaded_ten_built : Built (uploaded 10) :=
  ⟨uploaded_added 10, by decide, by decide, by decide⟩

/-- The fragments of another object. -/
def otherIndex : List (Bytes × Bytes) := [(ascii "movie|MTg1|F1", []), (ascii "song|MTg0|F1", [])]

/-- An object in two parts comes back, beside another version of it. -/
theorem survives_twoParts : Survives fragmentCodec (uploaded 2) otherIndex 1 := by
  refine (survives_iff fragmentCodec uploaded_two_built (by decide) (by decide)).mpr ⟨?_, ?_⟩
    (uploaded 2) otherIndex uploaded_two_built (SameLayout.refl _) rfl
  · exact ⟨by decide, by decide⟩
  · intro kv hkv hintruder
    have hforeign : ∀ kv ∈ otherIndex,
        (uploaded 2).prefixOfUniqueObject.isPrefixOf kv.1 = false := by decide
    have hbegins := hintruder.1
    rw [hforeign kv hkv] at hbegins
    cases hbegins

/-- An object in ten parts comes back with nine. -/
theorem not_survives_tenParts :
    Built (uploaded 10) ∧ ¬ Survives fragmentCodec (uploaded 10) [] 30 := by
  refine ⟨uploaded_ten_built, ?_⟩
  apply not_survives_of_ten_parts fragmentCodec uploaded_ten_built List.Pairwise.nil (by decide)
  · intro kv hkv
    cases hkv
  · decide

end S3ObjectExtendedMetadata

end CortxS3
