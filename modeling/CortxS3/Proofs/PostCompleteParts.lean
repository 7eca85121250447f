/-
What completing an upload in parts saves.

The point of saving is reached exactly when each part that was named is stored and fits and the
index has as many parts as the last number says (`complete_eq_some_iff`); what is saved then has
an entry for each part that was named.

That count is the only thing that stands for the parts that were not named.  A request that leaves
out a number below the last can have the right count, and then a part of the upload is lost; a
request that names as many parts as its last number says cannot.
-/
import CortxS3.Proofs.PostCompleteAction

namespace CortxS3

open List hiding after next set_set

open OrderedIndex

namespace S3PostCompleteAction

/-! ### What is saved -/

section Saved

variable {u : Upload} {md5String : Bytes → Bytes} {i : PartIndex} {parts : RequestedParts}
  {totalParts : Bytes}

/-- **The point of saving is reached when the whole index says so**, whatever the size of the
batches. -/
theorem complete_eq_some_iff {count : Nat} (hcount : 1 ≤ count) (hk : Keyed parts)
    {md : S3NewObjectMetadata} :
    complete u md5String i count parts totalParts = some md ↔
      Acceptable parts totalParts i.entries ∧ Counted i parts totalParts ∧
        savedMetadata u md5String i parts totalParts = some md := by
  have hstart : ({ parts := parts, totalParts := totalParts } : S3PostCompleteAction) =
      { taken u parts totalParts [] with
        validatedPartsCount := ([] : List (Bytes × Option StoredPart)).length
        lastKey := [] } := by
    unfold taken foundIn notIn
    simp
  have hafter : after i.entries ([] : Bytes) = i.entries := by
    unfold after
    rw [filter_eq_self]
    intro kv hkv
    obtain ⟨n, -, -, hkey, -⟩ := i.numbered kv hkv
    rw [hkey]
    simpa using nil_lt_decimal n
  have hempty : Acceptable parts totalParts ([] : List (Bytes × Option StoredPart)) := by
    constructor
    · intro e _ v hv
      cases hv
    · unfold foundIn
      simp [sizeOf]
  obtain ⟨r, hr, hsaves⟩ := getNextPartsInfo_saves u md5String hcount hk
    (i.entries.length + 2) (nil_append _).symm hafter (by omega) hempty
  rw [← hsaves md]
  unfold complete
  rw [hstart, hr]
  cases r with
  | ok a | error f => simp

/-- The entry of a part. -/
def entryOf (u : Upload) (p : StoredPart) : Int × List S3PartFragContext :=
  (p.partNumber, [partFragCtx u.objVersionKey p])

/-- What taking parts in ascending order leaves. -/
structure Noted (u : Upload) (l : List StoredPart) (a : S3PostCompleteAction) : Prop where
  size : a.objectSize = sizeOf l
  etags : a.partEtags = l.map fun p => (p.partNumber, p.md5)
  entries : (a.newObjectMetadata.getD (createObjectMetadata u)).extendedObjectMetadata.extObjects =
    l.map (entryOf u)
  version : (a.newObjectMetadata.getD (createObjectMetadata u)).objVersionKey = u.objVersionKey
  made : l ≠ [] → a.newObjectMetadata.isSome

variable {l : List StoredPart} {p : StoredPart}

theorem Noted.takePart {a : S3PostCompleteAction} (h : Noted u l a) (hp : Numbered p)
    (habove : ∀ q ∈ l, q.partNumber < p.partNumber) : Noted u (l ++ [p]) (takePart u a p) := by
  have hbelow : ∀ x ∈ l.map (entryOf u), x.1 < (p.partNumber : Int) := by
    intro x hx
    obtain ⟨q, hq, rfl⟩ := mem_map.mp hx
    have := habove q hq
    unfold entryOf
    omega
  constructor
  case size =>
    show a.objectSize + p.contentLength = _
    rw [h.size, sizeOf_append]
    simp [sizeOf]
  case etags =>
    show SortedMap.set p.partNumber p.md5 a.partEtags = _
    rw [h.etags, map_append]
    refine SortedMap.set_of_all_lt ?_
    intro x hx
    obtain ⟨q, hq, rfl⟩ := mem_map.mp hx
    exact habove q hq
  case entries =>
    show (addPartObjectToObjectExtended u p a.newObjectMetadata).extendedObjectMetadata.extObjects = _
    unfold addPartObjectToObjectExtended S3ObjectExtendedMetadata.addExtendedEntry
      S3ObjectExtendedMetadata.entriesOf
    dsimp only
    rw [hp.strtoul, h.entries, h.version, map_append,
      SortedMap.get_eq_none fun x hx => ne_of_lt (hbelow x hx)]
    exact SortedMap.set_of_all_lt hbelow
  case version => exact h.version
  case made =>
    intro _
    rfl

theorem noted_foldl (hnum : ∀ p ∈ l, Numbered p)
    (hasc : l.Pairwise fun p q => p.partNumber < q.partNumber) (parts : RequestedParts)
    (totalParts : Bytes) :
    Noted u l (l.foldl (takePart u) { parts := parts, totalParts := totalParts }) := by
  induction l using List.reverseRecOn with
  | nil => exact ⟨rfl, rfl, rfl, rfl, fun h => absurd rfl h⟩
  | append_singleton l p ih =>
    obtain ⟨hl, -, habove⟩ := pairwise_append.mp hasc
    rw [foldl_append]
    exact (ih (fun q hq => hnum q (mem_append_left _ hq)) hl).takePart (hnum p (by simp))
      fun q hq => habove q hq p (mem_singleton.mpr rfl)

theorem pairwise_foundIn (hk : Keyed parts) :
    (foundIn i.entries parts).Pairwise fun p q => p.partNumber < q.partNumber := by
  have hsorted : (parts.map Prod.fst).Pairwise (· < ·) := pairwise_map.mpr hk.sorted
  exact pairwise_map.mp (hsorted.sublist (map_foundIn_sublist i.numberedBatch hk))

variable (u md5String totalParts) in
/-- **What is saved**, by the parts that were named. -/
theorem savedMetadata_eq_some (hk : Keyed parts) (hne : foundIn i.entries parts ≠ []) :
    ∃ md, savedMetadata u md5String i parts totalParts = some md ∧
      md.extendedObjectMetadata.extObjects = (foundIn i.entries parts).map (entryOf u) ∧
      md.contentLength = decimal (sizeOf (foundIn i.entries parts)) ∧
      md.md5 = S3AwsEtag.ofParts md5String ((foundIn i.entries parts).map (·.md5)) := by
  have hnoted := noted_foldl (u := u)
    (fun p (hp : p ∈ foundIn i.entries parts) => numbered_of_mem_foundIn i.numberedBatch hp)
    (pairwise_foundIn hk) parts totalParts
  obtain ⟨a, ha⟩ : ∃ a, a = (foundIn i.entries parts).foldl (takePart u)
    { parts := parts, totalParts := totalParts } := ⟨_, rfl⟩
  rw [← ha] at hnoted
  obtain ⟨md, hmd⟩ := Option.isSome_iff_exists.mp (hnoted.made hne)
  have hentries := hnoted.entries
  rw [hmd] at hentries
  have hsaved : savedMetadata u md5String i parts totalParts = some { md with
      oid := u.newObjectOid
      layoutId := u.layoutId
      contentLength := decimal a.objectSize
      md5 := S3AwsEtag.ofParts md5String (a.partEtags.map (·.2)) } := by
    unfold savedMetadata taken metadataToSave generateEtag
    rw [← ha]
    dsimp only
    rw [hmd]
    rfl
  refine ⟨_, hsaved, hentries, ?_, ?_⟩
  · rw [hnoted.size]
  · rw [hnoted.etags, map_map]
    rfl

/-! ### The parts that are stored and those that were named -/

/-- The stored parts that can be read, in the order of their numbers. -/
def PartIndex.byNumber (i : PartIndex) : List StoredPart :=
  (i.entries.filterMap (·.2)).insertionSort fun p q => p.partNumber ≤ q.partNumber

/-- The upload can be completed with these parts, as far as the action looks. -/
structure Completable (i : PartIndex) (parts : RequestedParts) (totalParts : Bytes) : Prop where
  stored : ∀ e ∈ parts, ∃ p, (e.2.1, some p) ∈ i.entries ∧ Fits p e.2.1 totalParts
  fits : sizeOf (foundIn i.entries parts) ≤ maximumAllowedObjectSize
  count : stoul totalParts = some i.entries.length

theorem lookup_eq_some_iff {text : Bytes} {v : Option StoredPart} :
    i.entries.lookup text = some v ↔ (text, v) ∈ i.entries := by
  constructor
  · intro h
    obtain ⟨l₁, l₂, heq, -⟩ := List.lookup_eq_some_iff.mp h
    rw [heq]
    simp
  · exact fun h => i.sorted.lookup_of_mem h

theorem completable_iff :
    Completable i parts totalParts ↔
      Acceptable parts totalParts i.entries ∧ Counted i parts totalParts := by
  constructor
  · intro h
    refine ⟨⟨?_, h.fits⟩, ⟨?_, h.count⟩⟩
    · intro e he v hv
      obtain ⟨p, hp, hfits⟩ := h.stored e he
      rw [lookup_eq_some_iff.mpr hp, Option.some.injEq] at hv
      exact ⟨p, hv.symm, hfits⟩
    · unfold notIn
      rw [filter_eq_nil_iff]
      intro e he
      obtain ⟨p, hp, -⟩ := h.stored e he
      rw [lookup_eq_some_iff.mpr hp]
      simp
  · rintro ⟨haccept, hcounted⟩
    refine ⟨?_, haccept.fits, hcounted.count⟩
    intro e he
    have hfound := filter_eq_nil_iff.mp hcounted.found e he
    rw [Option.isNone_iff_eq_none] at hfound
    obtain ⟨v, hv⟩ := Option.ne_none_iff_exists'.mp hfound
    obtain ⟨p, rfl, hfits⟩ := haccept.usable e he v hv
    exact ⟨p, lookup_eq_some_iff.mp hv, hfits⟩

theorem Completable.map_foundIn (h : Completable i parts totalParts) (hk : Keyed parts) :
    (foundIn i.entries parts).map (·.partNumber) = parts.map Prod.fst := by
  unfold foundIn
  have hall : ∀ l ⊆ parts, (l.filterMap fun e => (i.entries.lookup e.2.1).join).map (·.partNumber) =
      l.map Prod.fst := by
    intro l
    induction l with
    | nil => intro _; rfl
    | cons e l ih =>
      intro hsub
      rw [cons_subset] at hsub
      obtain ⟨p, hp, -⟩ := h.stored e hsub.1
      have hlook := lookup_eq_some_iff.mpr hp
      obtain ⟨hnum, htext⟩ := i.numberedBatch.of_lookup hlook
      rw [filterMap_cons, hlook, map_cons, hk.number_eq hsub.1 hnum htext]
      dsimp only [Option.join_some]
      rw [map_cons, ih hsub.2]
  exact hall parts (List.Subset.refl _)

theorem mem_entries_of_mem_foundIn (hp : p ∈ foundIn i.entries parts) :
    (decimal p.partNumber, some p) ∈ i.entries := by
  obtain ⟨e, -, he⟩ := mem_filterMap.mp hp
  have hlook := Option.join_eq_some_iff.mp he
  obtain ⟨-, htext⟩ := i.numberedBatch.of_lookup hlook
  rw [← htext]
  exact lookup_eq_some_iff.mp hlook

section

variable (h : Completable i parts totalParts)

include h

theorem Completable.length_foundIn (hk : Keyed parts) :
    (foundIn i.entries parts).length = parts.length := by
  have := congrArg List.length (h.map_foundIn hk)
  rwa [length_map, length_map] at this

theorem Completable.foundIn_eq_byNumber (hk : Keyed parts)
    (hlen : parts.length = i.entries.length) : foundIn i.entries parts = i.byNumber := by
  have hdistinct := nodup_foundIn i.numberedBatch hk
  have hsub : foundIn i.entries parts ⊆ i.entries.filterMap (·.2) := fun p hp =>
    mem_filterMap.mpr ⟨_, mem_entries_of_mem_foundIn hp, rfl⟩
  have hperm : (foundIn i.entries parts).Perm (i.entries.filterMap (·.2)) := by
    refine (List.Nodup.of_map _ hdistinct).subperm hsub |>.perm_of_length_le ?_
    rw [h.length_foundIn hk, hlen]
    exact length_filterMap_le _ _
  have hsorted : (foundIn i.entries parts).Pairwise fun p q => p.partNumber ≤ q.partNumber :=
    (pairwise_foundIn hk).imp fun hlt => le_of_lt hlt
  have hsorted' : i.byNumber.Pairwise fun p q => p.partNumber ≤ q.partNumber :=
    pairwise_insertionSort _ _
  have hperm' := hperm.trans (perm_insertionSort (fun p q => p.partNumber ≤ q.partNumber) _).symm
  refine List.Perm.eq_of_pairwise ?_ hsorted hsorted' hperm'
  intro p q hp hq hle hge
  exact inj_on_of_nodup_map hdistinct hp (hperm'.mem_iff.mpr hq) (le_antisymm hle hge)

theorem Completable.stored_iff (hk : Keyed parts)
    (hlen : parts.length = i.entries.length) (n : Nat) :
    (∃ kv ∈ i.entries, kv.1 = decimal n) ↔ n ∈ parts.map Prod.fst := by
  rw [← h.map_foundIn hk]
  constructor
  · rintro ⟨kv, hkv, hkey⟩
    have hdistinct : ((foundIn i.entries parts).map fun p => decimal p.partNumber).Nodup := by
      have := (nodup_foundIn i.numberedBatch hk).map (f := decimal) fun _ _ => decimal_injective
      rwa [map_map] at this
    have hsub : ((foundIn i.entries parts).map fun p => decimal p.partNumber) ⊆
        i.entries.map Prod.fst := by
      intro key hmem
      obtain ⟨p, hp, rfl⟩ := mem_map.mp hmem
      exact mem_map.mpr ⟨_, mem_entries_of_mem_foundIn hp, rfl⟩
    have hperm := (hdistinct.subperm hsub).perm_of_length_le (by
      rw [length_map, length_map, h.length_foundIn hk, hlen])
    obtain ⟨p, hp, heq⟩ := mem_map.mp
      (hperm.mem_iff.mpr (mem_map.mpr ⟨kv, hkv, hkey⟩))
    exact mem_map.mpr ⟨p, hp, decimal_injective heq⟩
  · intro hn
    obtain ⟨p, hp, rfl⟩ := mem_map.mp hn
    exact ⟨_, mem_entries_of_mem_foundIn hp, rfl⟩

theorem Completable.text_eq (hk : Keyed parts)
    {e : Nat × Bytes × Bytes} (he : e ∈ parts) :
    e.2.1 = decimal e.1 ∧ stoi e.2.1 = some (e.1 : Int) ∧ 1 ≤ e.1 := by
  obtain ⟨p, hp, -⟩ := h.stored e he
  obtain ⟨hnum, htext⟩ := i.numberedBatch.of_lookup (lookup_eq_some_iff.mpr hp)
  have hnumber := hk.number_eq he hnum htext
  have hle := hnum.2
  unfold S3AbortMultipartAction.maximumPartNumber at hle
  rw [hnumber]
  exact ⟨htext, by rw [htext]; exact stoi_decimal (by omega), hnum.1⟩

theorem Completable.numbers {texts : List Bytes}
    (hread : Read parts texts) (hlast : texts.getLast? = some totalParts)
    (hlen : parts.length = i.entries.length) :
    stoi totalParts = some (i.entries.length : Int) ∧
      ∀ n, n ∈ parts.map Prod.fst ↔ 1 ≤ n ∧ n ≤ i.entries.length := by
  have hk := hread.toKeyed
  have hmem := mem_of_getLast? hlast
  obtain ⟨z, hz⟩ := hread.numeric totalParts hmem
  have hbound : ∀ e ∈ parts, (1 : Int) ≤ e.1 ∧ (e.1 : Int) ≤ z := by
    intro e he
    obtain ⟨-, hstoi, hpos⟩ := h.text_eq hk he
    exact ⟨by omega, hread.ascending totalParts hlast _ (hread.keyed e he).2 _ z hstoi hz⟩
  have hzpos : 0 ≤ z := by
    obtain ⟨e, he, -⟩ := hread.merged totalParts hmem
    have := hbound e he
    omega
  have hzlen : z = (i.entries.length : Int) := stoul_of_stoi hz hzpos h.count
  refine ⟨by rw [hz, hzlen], ?_⟩
  have hsub : (parts.map Prod.fst).toFinset ⊆ Finset.Icc 1 i.entries.length := by
    intro n hn
    obtain ⟨e, he, rfl⟩ := mem_map.mp (mem_toFinset.mp hn)
    have := hbound e he
    rw [Finset.mem_Icc]
    omega
  have hcard : (Finset.Icc 1 i.entries.length).card ≤ (parts.map Prod.fst).toFinset.card := by
    rw [toFinset_card_of_nodup hk.sorted.nodup_keys, length_map, hlen, Nat.card_Icc]
    omega
  have heq := Finset.eq_of_subset_of_card_le hsub hcard
  intro n
  rw [← mem_toFinset, heq, Finset.mem_Icc]

theorem Completable.requested_iff {elements : List XmlElement}
    (hbody : validateRequestBody (some elements) = .ok (parts, totalParts))
    (hlen : parts.length = i.entries.length) (n : Nat) :
    (∃ kv ∈ i.entries, kv.1 = decimal n) ↔ (n : Int) ∈ requestedNumbers elements := by
  obtain ⟨hread, hlast⟩ := validateRequestBody_read hbody
  have hk := hread.toKeyed
  obtain ⟨htotal, hnumbers⟩ := h.numbers hread hlast hlen
  rw [h.stored_iff hk hlen]
  unfold requestedNumbers
  rw [mem_filterMap]
  constructor
  · intro hn
    obtain ⟨e, he, rfl⟩ := mem_map.mp hn
    exact ⟨e.2.1, (hread.keyed e he).2, (h.text_eq hk he).2.1⟩
  · rintro ⟨t, ht, hstoi⟩
    obtain ⟨e, he, -, hle⟩ := hread.merged t ht
    obtain ⟨-, htext, hpos⟩ := h.text_eq hk he
    have hlow := hle _ _ htext hstoi
    have hhigh := hread.ascending totalParts hlast t ht _ _ hstoi htotal
    rw [hnumbers]
    omega

end

end Saved

/-! ### The upload that is completed -/

/-- The metadata saved has the parts stored, all of them. -/
structure SavesAllParts (md5String : Bytes → Bytes) (i : PartIndex) (elements : List XmlElement)
    (md : S3NewObjectMetadata) : Prop where
  requested : ∀ n : Nat,
    (∃ kv ∈ i.entries, kv.1 = decimal n) ↔ (n : Int) ∈ requestedNumbers elements
  readable : i.byNumber.length = i.entries.length
  entries : List.Forall₂ (fun (e : Int × List S3PartFragContext) (p : StoredPart) =>
    e.1 = p.partNumber ∧ ∃ c, e.2 = [c] ∧ c.motrOID = p.oid ∧ c.itemSize = p.contentLength ∧
      (c.layoutId : Int) = p.layoutId) md.extendedObjectMetadata.extObjects i.byNumber
  size : md.contentLength = decimal (i.byNumber.map (·.contentLength)).sum
  etag : md.md5 = S3AwsEtag.ofParts md5String (i.byNumber.map (·.md5))

/-- A request that reaches the point of saving saves all parts, with any size of the batches, and with
every size the same. -/
def LosesNoPart (u : Upload) (md5String : Bytes → Bytes) (i : PartIndex)
    (elements : List XmlElement) : Prop :=
  ∀ parts totalParts, validateRequestBody (some elements) = .ok (parts, totalParts) →
    ∀ count, 1 ≤ count → ∀ md, complete u md5String i count parts totalParts = some md →
      SavesAllParts md5String i elements md ∧
        ∀ count', 1 ≤ count' → complete u md5String i count' parts totalParts = some md

theorem PartIndex.layout_toNat (i : PartIndex) {p : StoredPart} (hp : p ∈ i.byNumber) :
    (p.layoutId.toNat : Int) = p.layoutId := by
  obtain ⟨kv, hkv, hval⟩ := mem_filterMap.mp ((mem_insertionSort _).mp hp)
  exact Int.toNat_of_nonneg (i.layouts kv hkv p hval)

variable {elements : List XmlElement} {i : PartIndex} {md5String : Bytes → Bytes}
  {parts : RequestedParts} {totalParts : Bytes} {u : Upload}

theorem losesNoPart_of_length
    (hbody : validateRequestBody (some elements) = .ok (parts, totalParts))
    (hlen : Completable i parts totalParts → stoul totalParts = some parts.length) :
    LosesNoPart u md5String i elements := by
  intro parts' totalParts' hbody' count hcount md hmd
  rw [hbody] at hbody'
  cases hbody'
  have hk := (validateRequestBody_read hbody).1.toKeyed
  have hall := (complete_eq_some_iff hcount hk).mp hmd
  have hcompletable := completable_iff.mpr ⟨hall.1, hall.2.1⟩
  have hlength : parts.length = i.entries.length := by
    have := (hlen hcompletable).symm.trans hcompletable.count
    rwa [Option.some.injEq] at this
  have hsame := hcompletable.foundIn_eq_byNumber hk hlength
  have hfound := hcompletable.length_foundIn hk
  have hne : foundIn i.entries parts ≠ [] := by
    obtain ⟨hread, hlast⟩ := validateRequestBody_read hbody
    obtain ⟨e, he, -⟩ := hread.merged totalParts (mem_of_getLast? hlast)
    rw [← length_pos_iff, hfound]
    exact length_pos_of_mem he
  obtain ⟨md', hmd', hentries, hsize, hetag⟩ :=
    savedMetadata_eq_some u md5String totalParts hk hne
  rw [hall.2.2, Option.some.injEq] at hmd'
  subst hmd'
  rw [hsame] at hentries hsize hetag
  refine ⟨⟨?_, ?_, ?_, hsize, hetag⟩, ?_⟩
  · exact hcompletable.requested_iff hbody hlength
  · rw [← hsame, hfound, hlength]
  · rw [hentries, List.forall₂_map_left_iff, List.forall₂_same]
    intro p hp
    exact ⟨rfl, _, rfl, rfl, rfl, i.layout_toNat hp⟩
  · intro count' hcount'
    exact (complete_eq_some_iff hcount' hk).mpr hall

theorem length_of_losesNoPart
    (hbody : validateRequestBody (some elements) = .ok (parts, totalParts))
    (h : LosesNoPart u md5String i elements) (hcompletable : Completable i parts totalParts) :
    stoul totalParts = some parts.length := by
  obtain ⟨hread, hlast⟩ := validateRequestBody_read hbody
  have hk := hread.toKeyed
  have hfound := hcompletable.length_foundIn hk
  have hne : foundIn i.entries parts ≠ [] := by
    obtain ⟨e, he, -⟩ := hread.merged totalParts (mem_of_getLast? hlast)
    rw [← length_pos_iff, hfound]
    exact length_pos_of_mem he
  obtain ⟨md, hmd, hentries, -, -⟩ :=
    savedMetadata_eq_some u md5String totalParts hk hne
  obtain ⟨haccept, hcounted⟩ := completable_iff.mp hcompletable
  have hone : complete u md5String i 1 parts totalParts = some md :=
    (complete_eq_some_iff (le_refl 1) hk).mpr ⟨haccept, hcounted, hmd⟩
  obtain ⟨hsaves, -⟩ := h parts totalParts hbody 1 (le_refl 1) md hone
  have hlength := hsaves.entries.length_eq
  rw [hentries, length_map, hfound, hsaves.readable] at hlength
  rw [hcompletable.count, hlength]

/-- A part of 5 MB. -/
def samplePart (n : Nat) : StoredPart where
  partNumber := n
  oid := {}
  layoutId := 9
  pvidStr := []
  contentLength := 5242880
  md5 := ascii "00112233445566778899aabbccddeeff"

/-- An upload of three parts. -/
def sampleIndex : PartIndex where
  entries := [1, 2, 3].map fun n => (decimal n, some (samplePart n))
  sorted := by decide
  numbered := by
    intro kv hkv
    obtain ⟨n, hn, rfl⟩ := mem_map.mp hkv
    refine ⟨n, ?_, ?_, rfl, ?_⟩
    · have hall : ∀ n ∈ [1, 2, 3], 1 ≤ n := by decide
      exact hall n hn
    · have hall : ∀ n ∈ [1, 2, 3], n ≤ S3AbortMultipartAction.maximumPartNumber := by decide
      exact hall n hn
    · intro p hp
      cases hp
      rfl
  layouts := by
    intro kv hkv p hp
    obtain ⟨n, -, rfl⟩ := mem_map.mp hkv
    cases hp
    exact Int.natCast_nonneg 9

def sampleUpload : Upload where
  objectName := ascii "film"
  newObjectOid := {}
  layoutId := 1
  objVersionKey := ascii "v1"

/-- A request for these parts. -/
def sampleRequest (numbers : List Nat) : List XmlElement :=
  numbers.map fun n =>
    { name := ascii "Part"
      children := [(ascii "PartNumber", decimal n), (ascii "ETag", ascii "e")] }

/-- **No part is lost exactly when the request is turned down or names as many parts as its last
number says.** -/
theorem losesNoPart_iff (u : Upload) (md5String : Bytes → Bytes) (i : PartIndex)
    (elements : List XmlElement) (parts : RequestedParts) (totalParts : Bytes)
    (hbody : validateRequestBody (some elements) = .ok (parts, totalParts)) :
    LosesNoPart u md5String i elements ↔
      (Completable i parts totalParts → stoul totalParts = some parts.length) :=
  ⟨length_of_losesNoPart hbody, losesNoPart_of_length hbody⟩

/-- All three parts are named. -/
theorem losesNoPart_iff_allNamed :
    LosesNoPart sampleUpload (fun s => s) sampleIndex (sampleRequest [1, 2, 3]) ∧
      (complete sampleUpload (fun s => s) sampleIndex 2
        [(1, ascii "1", ascii "e"), (2, ascii "2", ascii "e"), (3, ascii "3", ascii "e")]
        (ascii "3")).isSome = true :=
  ⟨(losesNoPart_iff sampleUpload (fun s => s) sampleIndex (sampleRequest [1, 2, 3])
    [(1, ascii "1", ascii "e"), (2, ascii "2", ascii "e"), (3, ascii "3", ascii "e")] (ascii "3")
    (by decide)).mpr fun _ => by decide, by decide⟩

/-- The second of three parts is not named, and the object is saved without it. -/
theorem losesPart_secondNotNamed :
    ¬ LosesNoPart sampleUpload (fun s => s) sampleIndex (sampleRequest [1, 3]) := by
  intro h
  have hbody : validateRequestBody (some (sampleRequest [1, 3])) =
      .ok ([(1, ascii "1", ascii "e"), (3, ascii "3", ascii "e")], ascii "3") := by decide
  have hsaved : (complete sampleUpload (fun s => s) sampleIndex 2
      [(1, ascii "1", ascii "e"), (3, ascii "3", ascii "e")] (ascii "3")).isSome = true := by
    decide
  obtain ⟨md, hmd⟩ := Option.isSome_iff_exists.mp hsaved
  obtain ⟨hall, -⟩ := h _ _ hbody 2 (by decide) md hmd
  have hstored : ∃ kv ∈ sampleIndex.entries, kv.1 = decimal 2 :=
    ⟨(decimal 2, some (samplePart 2)), by decide, rfl⟩
  have hrequested : ((2 : Nat) : Int) ∉ requestedNumbers (sampleRequest [1, 3]) := by decide
  exact hrequested ((hall.requested 2).mp hstored)

end S3PostCompleteAction

end CortxS3
