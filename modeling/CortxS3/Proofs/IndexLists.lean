/-
What the background delete makes of the indexes it reads in pages.

`check_instance_is_nonactive` goes through all pages, but what it finds on any page but the first is
lost, an instance as well as a listing that fails.

`process_objects_in_versionlist` goes through all pages, too.  It deletes every entry that is old
and does not name the current object, and what it takes for the current object on any page but the
first is the last key of the page before.  It does not ask whose entry it is: the listing is by
prefix.
-/
import CortxS3.BackgroundDelete.IndexLists

namespace CortxS3

open Option (some.inj)
open List hiding after next set_set

namespace ObjectRecoveryValidator

open OrderedIndex (Sorted after)
open Pages (matching pages)

/-! ### Pages -/

section Listing

variable {ν : Type}

/-- The listing of a prefix from a marker. -/
def listing (index : List (Bytes × ν)) (keyPrefix marker : Bytes) : List (Bytes × ν) :=
  matching (keyPrefix.isPrefixOf ·) index marker

theorem listPage_keys (index : List (Bytes × ν)) (keyPrefix : Bytes) (maxKeys : Nat)
    (marker : Bytes) :
    (listPage index keyPrefix maxKeys marker).keys = (listing index keyPrefix marker).take maxKeys :=
  rfl

theorem listPage_isTruncated (index : List (Bytes × ν)) (keyPrefix : Bytes) (maxKeys : Nat)
    (marker : Bytes) :
    (listPage index keyPrefix maxKeys marker).isTruncated = true ↔
      maxKeys ≤ (listing index keyPrefix marker).length := by
  show decide _ = true ↔ _
  rw [decide_eq_true_iff]
  rfl

variable {index : List (Bytes × ν)} {keyPrefix marker : Bytes} {maxKeys : Nat}

theorem listPage_nextMarker {kv : Bytes × ν}
    (hlast : (listPage index keyPrefix maxKeys marker).keys.getLast? = some kv)
    (htrunc : (listPage index keyPrefix maxKeys marker).isTruncated = true) :
    (listPage index keyPrefix maxKeys marker).nextMarker = kv.1 := by
  show (if (listPage index keyPrefix maxKeys marker).isTruncated then
    (((listPage index keyPrefix maxKeys marker).keys.getLast?).map (·.1)).getD [] else []) = kv.1
  rw [if_pos htrunc, hlast]
  rfl

theorem listPage_nextMarker_nil
    (htrunc : ¬ (listPage index keyPrefix maxKeys marker).isTruncated = true) :
    (listPage index keyPrefix maxKeys marker).nextMarker = [] := by
  show (if (listPage index keyPrefix maxKeys marker).isTruncated then
    (((listPage index keyPrefix maxKeys marker).keys.getLast?).map (·.1)).getD [] else []) = []
  rw [if_neg htrunc]

/-- The pages of a listing. -/
def pagesOf (index : List (Bytes × ν)) (keyPrefix : Bytes) (maxKeys : Nat) (marker : Bytes) :
    List (Bytes × List (Bytes × ν)) :=
  pages maxKeys ((listing index keyPrefix marker).length + 1) marker (listing index keyPrefix marker)

theorem length_listing_le (index : List (Bytes × ν)) (keyPrefix marker : Bytes) :
    (listing index keyPrefix marker).length ≤ index.length :=
  (length_filter_le _ _).trans (length_filter_le _ _)

end Listing

/-! ### Instances -/

section Instances

variable {listOk : Bytes → Bool} {index : List (Bytes × Bytes)} {maxKeys : Nat} {instanceId : Bytes}

/-- What `True` means of a page: it was listed, and the instance is not on it. -/
def Clear (listOk : Bytes → Bool) (instanceId : Bytes) (page : Bytes × List (Bytes × Bytes)) : Prop :=
  listOk page.1 = true ∧ ∀ kv ∈ page.2, kv.2 ≠ instanceId

variable {marker : Bytes}

theorem listing_nextMarker (hs : Sorted index) (hne : (listPage index [] maxKeys marker).keys ≠ [])
    (htrunc : (listPage index [] maxKeys marker).isTruncated = true) :
    listing index [] (listPage index [] maxKeys marker).nextMarker =
      (listing index [] marker).drop maxKeys := by
  obtain ⟨kv, hlast⟩ := Option.ne_none_iff_exists'.mp
    (fun hnone => hne (List.getLast?_eq_none_iff.mp hnone))
  rw [listPage_nextMarker hlast htrunc]
  exact Pages.matching_drop hs hlast

variable (listOk instanceId) in
theorem exists_checkFrom (hs : Sorted index) (hmax : 1 ≤ maxKeys) :
    ∀ (fuel : Nat) (marker : Bytes), (listing index [] marker).length < fuel →
      ∃ b, checkFrom listOk index maxKeys instanceId fuel marker = some b := by
  intro fuel
  induction fuel with
  | zero =>
    intro marker h
    exact absurd h (Nat.not_lt_zero _)
  | succ fuel ih =>
    intro marker h
    unfold checkFrom
    simp only
    by_cases hok : listOk marker = true
    · rw [if_pos hok]
      by_cases hany : ((listPage index [] maxKeys marker).keys.any (·.2 == instanceId)) = true
      · exact ⟨false, by rw [if_pos hany]⟩
      · rw [if_neg hany]
        by_cases hmore : (listPage index [] maxKeys marker).keys ≠ [] ∧
            (listPage index [] maxKeys marker).isTruncated = true
        · have hlength := (listPage_isTruncated index [] maxKeys marker).mp hmore.2
          obtain ⟨b, hb⟩ := ih (listPage index [] maxKeys marker).nextMarker (by
            rw [listing_nextMarker hs hmore.1 hmore.2, length_drop]
            omega)
          exact ⟨true, by rw [if_pos hmore, hb]; rfl⟩
        · exact ⟨true, by rw [if_neg hmore]⟩
    · exact ⟨false, by rw [if_neg hok]⟩

/-- **The answer is that of the first page.** -/
theorem checkFrom_true_iff (hs : Sorted index) (hmax : 1 ≤ maxKeys) {fuel : Nat}
    (h : (listing index [] marker).length < fuel + 1) :
    checkFrom listOk index maxKeys instanceId (fuel + 1) marker = some true ↔
      Clear listOk instanceId (marker, (listing index [] marker).take maxKeys) := by
  have hany : ((listPage index [] maxKeys marker).keys.any (·.2 == instanceId)) = true ↔
      ∃ kv ∈ (listing index [] marker).take maxKeys, kv.2 = instanceId := by
    rw [listPage_keys, any_eq_true]
    simp only [beq_iff_eq]
  unfold checkFrom
  simp only
  constructor
  · intro htrue
    by_cases hok : listOk marker = true
    · rw [if_pos hok] at htrue
      refine ⟨hok, fun kv hkv hid => ?_⟩
      rw [if_pos (hany.mpr ⟨kv, hkv, hid⟩)] at htrue
      cases htrue
    · rw [if_neg hok] at htrue
      cases htrue
  · rintro ⟨hok, hclear⟩
    have hnot : ¬ ((listPage index [] maxKeys marker).keys.any (·.2 == instanceId)) = true := by
      intro htrue
      obtain ⟨kv, hkv, hid⟩ := hany.mp htrue
      exact hclear kv hkv hid
    rw [if_pos hok, if_neg hnot]
    by_cases hmore : (listPage index [] maxKeys marker).keys ≠ [] ∧
        (listPage index [] maxKeys marker).isTruncated = true
    · have hlength := (listPage_isTruncated index [] maxKeys marker).mp hmore.2
      obtain ⟨b, hb⟩ := exists_checkFrom listOk instanceId hs hmax fuel
        (listPage index [] maxKeys marker).nextMarker (by
          rw [listing_nextMarker hs hmore.1 hmore.2, length_drop]
          omega)
      rw [if_pos hmore, hb]
      rfl
    · rw [if_neg hmore]

/-- The instance is called inactive only if every page was listed and it is on none of them. -/
def DecidedFromAllPages (listOk : Bytes → Bool) (index : List (Bytes × Bytes)) (maxKeys : Nat)
    (instanceId : Bytes) : Prop :=
  checkInstanceIsNonactive listOk index maxKeys instanceId = some true →
    ∀ page ∈ pagesOf index [] maxKeys [], Clear listOk instanceId page

theorem pagesOf_eq_cons {ν : Type} (index : List (Bytes × ν)) (keyPrefix : Bytes) (maxKeys : Nat)
    (marker : Bytes) :
    pagesOf index keyPrefix maxKeys marker =
      (marker, (listing index keyPrefix marker).take maxKeys) ::
        (pagesOf index keyPrefix maxKeys marker).tail := rfl

/-- **Whether an instance is active is decided from the whole list exactly when the first page
settles it or the others have nothing to say.** -/
theorem decidedFromAllPages_iff (listOk : Bytes → Bool) (index : List (Bytes × Bytes))
    (hs : Sorted index) (maxKeys : Nat) (hmax : 1 ≤ maxKeys) (instanceId : Bytes) :
    (∃ b, checkInstanceIsNonactive listOk index maxKeys instanceId = some b) ∧
      (DecidedFromAllPages listOk index maxKeys instanceId ↔
        listOk [] = false ∨ (∃ kv ∈ (listing index [] []).take maxKeys, kv.2 = instanceId) ∨
          ∀ page ∈ (pagesOf index [] maxKeys []).tail, Clear listOk instanceId page) := by
  have hfuel : (listing index [] []).length < index.length + 1 :=
    Nat.lt_succ_of_le (length_listing_le index [] [])
  have htrue : checkInstanceIsNonactive listOk index maxKeys instanceId = some true ↔
      Clear listOk instanceId ([], (listing index [] []).take maxKeys) :=
    checkFrom_true_iff hs hmax hfuel
  refine ⟨exists_checkFrom _ _ hs hmax _ _ hfuel, ?_⟩
  unfold DecidedFromAllPages
  rw [htrue, pagesOf_eq_cons]
  constructor
  · intro h
    by_cases hclear : Clear listOk instanceId ([], (listing index [] []).take maxKeys)
    · exact Or.inr (Or.inr fun page hpage => h hclear page (mem_cons_of_mem _ hpage))
    · cases hok : listOk [] with
      | false => exact Or.inl rfl
      | true =>
        refine Or.inr (Or.inl ?_)
        by_contra hnone
        exact hclear ⟨hok, fun kv hkv hid => hnone ⟨kv, hkv, hid⟩⟩
  · intro h hclear page hpage
    rcases mem_cons.mp hpage with rfl | hpage
    · exact hclear
    · rcases h with hok | ⟨kv, hkv, hid⟩ | htail
      · rw [hclear.1] at hok
        cases hok
      · exact absurd hid (hclear.2 kv hkv)
      · exact htail page hpage

/-- Two instances. -/
def twoInstances : List (Bytes × Bytes) := [(ascii "a", ascii "x"), (ascii "b", ascii "y")]

/-- An instance that is on none of the pages of one key each. -/
theorem decidedFromAllPages_iff_shortPages :
    checkInstanceIsNonactive (fun _ => true) twoInstances 1 (ascii "z") = some true ∧
      ∀ page ∈ pagesOf twoInstances [] 1 [], Clear (fun _ => true) (ascii "z") page := by
  have hinactive : checkInstanceIsNonactive (fun _ => true) twoInstances 1 (ascii "z") =
    some true := by decide
  exact ⟨hinactive,
    (decidedFromAllPages_iff (fun _ => true) twoInstances (by decide) 1 (by decide) _).2.mpr
      (.inr (.inr (by unfold Clear; decide))) hinactive⟩

/-- The second of two active instances is on the second page. -/
theorem not_decidedFromAllPages_secondPage :
    ¬ ∀ (listOk : Bytes → Bool) (index : List (Bytes × Bytes)), Sorted index →
      ∀ maxKeys, 1 ≤ maxKeys → ∀ instanceId, DecidedFromAllPages listOk index maxKeys instanceId := by
  intro h
  have hclear := h (fun _ => true) twoInstances (by decide) 1 (by decide) (ascii "y") (by decide)
    (ascii "a", [(ascii "b", ascii "y")]) (by decide)
  exact hclear.2 _ (mem_cons_self ..) rfl

end Instances

/-! ### Versions -/

section Versions

variable {c : VersionListCall}

/-- The entry is old enough to be deleted. -/
def Old (c : VersionListCall) (e : VersionEntry) : Prop :=
  isVersionEntryOlderThan c.now e c.timeVersionEntry = true

/-- The entry is passed to be deleted when `currentOid` is taken for the current object. -/
def Picked (c : VersionListCall) (currentOid : Bytes) (e : VersionEntry) : Prop :=
  versionEntryCb c.now e currentOid c.timeVersionEntry = true
deriving Decidable

variable {currentOid : Bytes}

theorem picked_iff {e : VersionEntry} :
    Picked c currentOid e ↔ e.motrOid ≠ currentOid ∧ Old c e := by
  unfold Picked Old versionEntryCb
  rw [Bool.and_eq_true, decide_eq_true_iff]

/-- Every call succeeds. -/
structure AllSucceed (c : VersionListCall) : Prop where
  list : ∀ marker, c.listOk marker = true
  kvGet : ∀ index key, c.api.kvGet index key = true
  kvDelete : ∀ index key, c.api.kvDelete index key = true
  objectDelete : ∀ oid, c.api.objectDelete oid = true

/-- What the delete of an entry does to the version index: the entry is gone, or nothing is. -/
structure Deleted (key : Bytes) (s : VersionStore) (r : Bool × VersionStore) : Prop where
  examined : r.2.examined = s.examined
  gone : r.1 = true → r.2.versions = s.versions.filter (·.1 ≠ key) ∧
    r.2.deletedEntries = s.deletedEntries ++ s.versions.filter (·.1 = key)
  kept : r.1 = false → r.2.versions = s.versions ∧ r.2.deletedEntries = s.deletedEntries

theorem deleted_delObjFromVerIndex (key : Bytes) (s : VersionStore) :
    Deleted key s (s.delObjFromVerIndex c key) := by
  unfold VersionStore.delObjFromVerIndex VersionStore.deleteObject VersionStore.deleteVersion
  by_cases hget : c.api.kvGet c.versionIndexId key = true
  · rw [if_pos hget]
    simp only
    by_cases hobject : c.api.objectDelete
        (((SortedMap.get key s.versions).map (·.motrOid)).getD c.leakId) = true
    · rw [if_pos hobject]
      simp only [if_true]
      by_cases hkey : c.api.kvDelete c.versionIndexId key = true
      · rw [if_pos hkey]
        exact ⟨rfl, fun _ => ⟨rfl, rfl⟩, fun h => (by cases h)⟩
      · rw [if_neg hkey]
        exact ⟨rfl, fun h => (by cases h), fun _ => ⟨rfl, rfl⟩⟩
    · rw [if_neg hobject]
      exact ⟨rfl, fun h => (by cases h), fun _ => ⟨rfl, rfl⟩⟩
  · rw [if_neg hget]
    exact ⟨rfl, fun h => (by cases h), fun _ => ⟨rfl, rfl⟩⟩

theorem delObjFromVerIndex_of_allSucceed (h : AllSucceed c) (key : Bytes) (s : VersionStore) :
    (s.delObjFromVerIndex c key).1 = true := by
  unfold VersionStore.delObjFromVerIndex VersionStore.deleteObject VersionStore.deleteVersion
  rw [if_pos (h.kvGet _ _)]
  simp only [if_pos (h.objectDelete _), if_true, if_pos (h.kvDelete _ _)]

theorem deleteProbable_eq (key : Bytes) (s : VersionStore) :
    (s.deleteProbable c key).versions = s.versions ∧
      (s.deleteProbable c key).deletedEntries = s.deletedEntries ∧
      (s.deleteProbable c key).examined = s.examined := by
  unfold VersionStore.deleteProbable
  split
  · exact ⟨rfl, rfl, rfl⟩
  · exact ⟨rfl, rfl, rfl⟩

/-- What the loop over a page does, when `currentOid` is taken for the current object. -/
structure PageDone (c : VersionListCall) (currentOid : Bytes) (page : List (Bytes × VersionEntry))
    (s : VersionStore) (r : Bool × VersionStore) : Prop where
  versions : r.2.versions.Sublist s.versions
  behind : ∀ last, (∀ kv ∈ page, kv.1 ≤ last) → after r.2.versions last = after s.versions last
  deleted : ∀ kv ∈ r.2.deletedEntries,
    kv ∈ s.deletedEntries ∨ (kv ∈ page ∧ Picked c currentOid kv.2)
  kept : ∀ kv ∈ s.deletedEntries, kv ∈ r.2.deletedEntries
  examined : r.1 = true → r.2.examined = s.examined ++ page
  all : AllSucceed c → r.1 = true ∧ ((∀ kv ∈ page, kv ∈ s.versions) → (page.map (·.1)).Nodup →
    ∀ kv ∈ page, Picked c currentOid kv.2 → kv ∈ r.2.deletedEntries)

variable {versions : List (Bytes × VersionEntry)}

theorem after_filter_ne {key last : Bytes} (h : key ≤ last) :
    after (versions.filter (·.1 ≠ key)) last = after versions last := by
  unfold after
  rw [filter_filter]
  refine filter_congr fun kv _ => ?_
  by_cases hlt : last < kv.1
  · have hne : kv.1 ≠ key := fun he => absurd (he ▸ hlt) (not_lt_of_ge h)
    simp [hlt, hne]
  · simp [hlt]

variable {known : List (Bytes × VersionEntry)}

/-- **A page is gone through entry by entry.**  `known` is what the index was in the beginning. -/
theorem pageDone_processPage (hknown : Sorted known) (currentOid : Bytes) :
    ∀ (page : List (Bytes × VersionEntry)) (s : VersionStore), s.versions.Sublist known →
      (∀ kv ∈ page, kv ∈ known) →
      PageDone c currentOid page s (processPage c currentOid page s) := by
  intro page
  induction page with
  | nil =>
    intro s hs hpage
    exact ⟨List.Sublist.refl _, fun _ _ => rfl, fun kv hkv => Or.inl hkv, fun kv hkv => hkv,
      fun _ => (append_nil _).symm, fun _ => ⟨rfl, fun _ _ kv hkv => nomatch hkv⟩⟩
  | cons kv rest ih =>
    intro s hs hpage
    obtain ⟨objVerKey, objVerMd⟩ := kv
    have hrest : ∀ kv ∈ rest, kv ∈ known := fun kv hkv => hpage kv (mem_cons_of_mem _ hkv)
    have hunique : ∀ kv ∈ s.versions, kv.1 = objVerKey → kv = (objVerKey, objVerMd) := by
      intro kv hkv hkey
      have hown := hpage (objVerKey, objVerMd) (mem_cons_self ..)
      have h₁ := (SortedMap.get_eq_some_iff hknown).mpr (hs.subset hkv)
      have h₂ := (SortedMap.get_eq_some_iff hknown).mpr hown
      rw [hkey] at h₁
      rw [h₁] at h₂
      exact Prod.ext hkey (some.inj h₂)
    unfold processPage
    simp only
    by_cases hcb : versionEntryCb c.now objVerMd currentOid c.timeVersionEntry = true
    · rw [if_pos hcb]
      -- the entry is passed to be deleted
      have hdel := deleted_delObjFromVerIndex (c := c) objVerKey
        { s with examined := s.examined ++ [(objVerKey, objVerMd)] }
      have hsucceed := fun h : AllSucceed c => delObjFromVerIndex_of_allSucceed h objVerKey
        { s with examined := s.examined ++ [(objVerKey, objVerMd)] }
      generalize hr : VersionStore.delObjFromVerIndex c objVerKey
        { s with examined := s.examined ++ [(objVerKey, objVerMd)] } = r at hdel hsucceed
      obtain ⟨status, s₁⟩ := r
      cases status with
      | false =>
        obtain ⟨hversions, hentries⟩ := hdel.kept rfl
        simp only [Bool.false_eq_true, if_false]
        exact ⟨by rw [hversions], fun last _ => by rw [hversions],
          fun kv hkv => Or.inl (by rw [hentries] at hkv; exact hkv),
          fun kv hkv => by rw [hentries]; exact hkv, fun h => (by cases h),
          fun h => absurd (hsucceed h) Bool.false_ne_true⟩
      | true =>
        obtain ⟨hversions, hentries⟩ := hdel.gone rfl
        obtain ⟨hpv, hpe, hpx⟩ := deleteProbable_eq (c := c) objVerMd.motrOid s₁
        simp only [if_true]
        have hsub : s₁.versions.Sublist s.versions := by
          rw [hversions]
          exact filter_sublist
        have hdone := ih (s₁.deleteProbable c objVerMd.motrOid) (by rw [hpv]; exact hsub.trans hs)
          hrest
        generalize processPage c currentOid rest (s₁.deleteProbable c objVerMd.motrOid) = r
          at hdone
        refine ⟨?_, ?_, ?_, ?_, ?_, ?_⟩
        · exact (hdone.versions.trans (by rw [hpv])).trans hsub
        · intro last hlast
          rw [hdone.behind last fun kv hkv => hlast kv (mem_cons_of_mem _ hkv), hpv,
            hversions]
          exact after_filter_ne (hlast (objVerKey, objVerMd) (mem_cons_self ..))
        · intro kv hkv
          rcases hdone.deleted kv hkv with hkv | ⟨hkv, hpicked⟩
          · rw [hpe, hentries] at hkv
            rcases mem_append.mp hkv with hkv | hkv
            · exact Or.inl hkv
            · obtain ⟨hmem, hkey⟩ := mem_filter.mp hkv
              rw [hunique kv hmem (by simpa using hkey)]
              exact Or.inr ⟨mem_cons_self .., hcb⟩
          · exact Or.inr ⟨mem_cons_of_mem _ hkv, hpicked⟩
        · intro kv hkv
          refine hdone.kept kv ?_
          rw [hpe, hentries]
          exact mem_append_left _ hkv
        · intro htrue
          rw [hdone.examined htrue, hpx, hdel.examined, append_assoc]
          rfl
        · intro h
          refine ⟨(hdone.all h).1, ?_⟩
          intro hmem hnodup kv hkv hpicked
          obtain ⟨hnotin, hnodup⟩ := nodup_cons.mp hnodup
          rcases mem_cons.mp hkv with rfl | hkv
          · refine hdone.kept _ ?_
            rw [hpe, hentries]
            exact mem_append_right _ (mem_filter.mpr
              ⟨hmem _ (mem_cons_self ..), by simp⟩)
          · refine (hdone.all h).2 ?_ hnodup kv hkv hpicked
            intro kv hkv
            rw [hpv, hversions]
            have hne : kv.1 ≠ objVerKey := fun he =>
              hnotin (mem_map.mpr ⟨kv, hkv, he⟩)
            exact mem_filter.mpr
              ⟨hmem kv (mem_cons_of_mem _ hkv), by simpa using hne⟩
    · rw [if_neg hcb]
      have hdone := ih { s with examined := s.examined ++ [(objVerKey, objVerMd)] } hs hrest
      generalize processPage c currentOid rest
        { s with examined := s.examined ++ [(objVerKey, objVerMd)] } = r at hdone
      refine ⟨hdone.versions, ?_, ?_, hdone.kept, ?_, ?_⟩
      · exact fun last hlast => hdone.behind last fun kv hkv => hlast kv (mem_cons_of_mem _ hkv)
      · intro kv hkv
        rcases hdone.deleted kv hkv with hkv | ⟨hkv, hpicked⟩
        · exact Or.inl hkv
        · exact Or.inr ⟨mem_cons_of_mem _ hkv, hpicked⟩
      · intro htrue
        rw [hdone.examined htrue, append_assoc]
        rfl
      · intro h
        refine ⟨(hdone.all h).1, ?_⟩
        intro hmem hnodup kv hkv hpicked
        rcases mem_cons.mp hkv with rfl | hkv
        · exact absurd hpicked hcb
        · exact (hdone.all h).2 (fun kv hkv => hmem kv (mem_cons_of_mem _ hkv))
            (nodup_cons.mp hnodup).2 kv hkv hpicked

/-- The pages with what is taken for the current object on each: on the first it is what the caller
says, on the others the marker they are asked for. -/
def comparisons (currentOid : Bytes) :
    List (Bytes × List (Bytes × VersionEntry)) → List (Bytes × List (Bytes × VersionEntry))
  | [] => []
  | (_, page) :: rest => (currentOid, page) :: rest

/-- What a run does to pages that lie before it. -/
structure RunDone (c : VersionListCall) (currentOid : Bytes)
    (ps : List (Bytes × List (Bytes × VersionEntry))) (s t : VersionStore) : Prop where
  deleted : ∀ kv ∈ t.deletedEntries, kv ∈ s.deletedEntries ∨
    ∃ p ∈ comparisons currentOid ps, kv ∈ p.2 ∧ Picked c p.1 kv.2
  kept : ∀ kv ∈ s.deletedEntries, kv ∈ t.deletedEntries
  all : AllSucceed c → t.examined = s.examined ++ ps.flatMap (·.2) ∧
    ∀ p ∈ comparisons currentOid ps, ∀ kv ∈ p.2, Picked c p.1 kv.2 → kv ∈ t.deletedEntries

theorem RunDone.refl (c : VersionListCall) (currentOid : Bytes) (s : VersionStore) :
    RunDone c currentOid [] s s where
  deleted _ hkv := Or.inl hkv
  kept _ hkv := hkv
  all _ := ⟨(append_nil _).symm, fun _ hp => nomatch hp⟩

theorem RunDone.cons {next marker : Bytes} {page : List (Bytes × VersionEntry)}
    {ps : List (Bytes × List (Bytes × VersionEntry))} {s t u : VersionStore}
    (hpage : PageDone c currentOid page s (true, t)) (hrun : RunDone c next ps t u)
    (hps : comparisons next ps = ps) (hmem : ∀ kv ∈ page, kv ∈ s.versions)
    (hnodup : (page.map (·.1)).Nodup) : RunDone c currentOid ((marker, page) :: ps) s u where
  deleted kv hkv := by
    rcases hrun.deleted kv hkv with hkv | ⟨p, hp, hkv⟩
    · rcases hpage.deleted kv hkv with hkv | hkv
      · exact Or.inl hkv
      · exact Or.inr ⟨(currentOid, page), mem_cons_self .., hkv⟩
    · rw [hps] at hp
      exact Or.inr ⟨p, mem_cons_of_mem _ hp, hkv⟩
  kept kv hkv := hrun.kept kv (hpage.kept kv hkv)
  all h := by
    obtain ⟨hexamined, hpicked⟩ := hrun.all h
    refine ⟨?_, ?_⟩
    · rw [hexamined, hpage.examined rfl, flatMap_cons, append_assoc]
    · intro p hp kv hkv hcb
      rcases mem_cons.mp hp with rfl | hp
      · exact hrun.kept kv ((hpage.all h).2 hmem hnodup kv hkv hcb)
      · exact hpicked p (by rw [hps]; exact hp) kv hkv hcb

/-- On the pages behind the first one it is their marker that is compared with. -/
theorem comparisons_pages (n fuel : Nat) (marker : Bytes) (rest : List (Bytes × VersionEntry)) :
    comparisons marker (pages n fuel marker rest) = pages n fuel marker rest := by
  cases fuel with
  | zero | succ fuel => rfl

theorem le_of_getLast? {l : List (Bytes × VersionEntry)} (hs : Sorted l) {last : Bytes × VersionEntry}
    (h : l.getLast? = some last) : ∀ kv ∈ l, kv.1 ≤ last.1 := by
  obtain ⟨front, rfl⟩ := List.getLast?_eq_some_iff.mp h
  intro kv hkv
  rcases mem_append.mp hkv with hkv | hkv
  · exact le_of_lt ((pairwise_append.mp hs).2.2 kv hkv last (mem_singleton_self last))
  · rw [mem_singleton.mp hkv]

/-- **A run goes from page to page.**  The keys it deletes lie before the marker it goes on from,
so the rest is as it was in the beginning. -/
theorem runDone_processFrom (hknown : Sorted known) (hmax : 1 ≤ c.maxKeys) (hkey : c.objectKey ≠ []) :
    ∀ (fuel : Nat) (currentOid marker : Bytes) (s : VersionStore), s.versions.Sublist known →
      after s.versions marker = after known marker →
      (listing known c.objectKey marker).length < fuel →
      ∃ r, processFrom c fuel currentOid marker s = some r ∧
        RunDone c currentOid
          (pages c.maxKeys fuel marker (listing known c.objectKey marker)) s r.2 := by
  intro fuel
  induction fuel with
  | zero =>
    intro currentOid marker s _ _ h
    exact absurd h (Nat.not_lt_zero _)
  | succ fuel ih =>
    intro currentOid marker s hsub hafter hfuel
    have hlisting : listing s.versions c.objectKey marker = listing known c.objectKey marker :=
      Pages.matching_congr hafter
    have hkeys : (listPage s.versions c.objectKey c.maxKeys marker).keys =
        (listing known c.objectKey marker).take c.maxKeys := by
      rw [listPage_keys, hlisting]
    unfold processFrom pages
    simp only
    by_cases hok : c.listOk marker = true
    · rw [if_pos hok, hkeys]
      cases hlast : ((listing known c.objectKey marker).take c.maxKeys).getLast? with
      | none =>
        have hnil := List.getLast?_eq_none_iff.mp hlast
        rw [hnil]
        refine ⟨_, rfl, fun kv hkv => Or.inl hkv, fun kv hkv => hkv, fun _ => ⟨?_, ?_⟩⟩
        · simp
        · intro p hp kv hkv
          obtain rfl := mem_singleton.mp hp
          cases hkv
      | some last =>
        have hpageSub : ((listing known c.objectKey marker).take c.maxKeys).Sublist known :=
          (take_sublist _ _).trans (filter_sublist.trans filter_sublist)
        have hpageSorted : Sorted ((listing known c.objectKey marker).take c.maxKeys) :=
          hknown.sublist hpageSub
        have hlastMem := Pages.mem_matching.mp
          (mem_of_mem_take (mem_of_getLast? hlast))
        have hdone := pageDone_processPage (c := c) hknown currentOid
          ((listing known c.objectKey marker).take c.maxKeys) s hsub
          fun kv hkv => hpageSub.subset hkv
        have hmem : ∀ kv ∈ (listing known c.objectKey marker).take c.maxKeys,
            kv ∈ s.versions := by
          intro kv hkv
          rw [← hlisting] at hkv
          exact (Pages.mem_matching.mp (mem_of_mem_take hkv)).1
        simp only
        generalize processPage c currentOid ((listing known c.objectKey marker).take c.maxKeys) s
          = r at hdone
        obtain ⟨status, t⟩ := r
        cases status with
        | false =>
          refine ⟨(.returned false, t), rfl, ?_, hdone.kept,
            fun h => absurd (hdone.all h).1 Bool.false_ne_true⟩
          intro kv hkv
          rcases hdone.deleted kv hkv with hkv | hkv
          · exact Or.inl hkv
          · exact Or.inr ⟨(currentOid, _), mem_cons_self .., hkv⟩
        | true =>
          simp only [if_true]
          by_cases htrunc : c.maxKeys ≤ (listing known c.objectKey marker).length
          · have hnext : (listPage s.versions c.objectKey c.maxKeys marker).nextMarker =
                last.1 := by
              refine listPage_nextMarker (by rw [hkeys]; exact hlast) ?_
              rw [listPage_isTruncated, hlisting]
              exact htrunc
            have hrest : listing known c.objectKey last.1 =
                (listing known c.objectKey marker).drop c.maxKeys :=
              Pages.matching_drop hknown hlast
            have hbehind : after t.versions last.1 = after known last.1 := by
              rw [hdone.behind last.1 (le_of_getLast? hpageSorted hlast),
                Pages.after_after (le_of_lt hlastMem.2.1), hafter,
                ← Pages.after_after (le_of_lt hlastMem.2.1)]
            obtain ⟨r, hr, hrun⟩ := ih last.1 last.1 t (hdone.versions.trans hsub) hbehind (by
              rw [hrest, length_drop]
              omega)
            rw [hnext, if_pos hlastMem.2.2, if_pos htrunc]
            refine ⟨r, hr, ?_⟩
            rw [hrest] at hrun
            exact RunDone.cons hdone hrun (comparisons_pages _ _ _ _) hmem
              hpageSorted.nodup_keys
          · have hnext : (listPage s.versions c.objectKey c.maxKeys marker).nextMarker = [] := by
              refine listPage_nextMarker_nil ?_
              rw [listPage_isTruncated, hlisting]
              exact htrunc
            have hprefix : ¬ c.objectKey.isPrefixOf [] = true := by
              rw [List.isPrefixOf_iff_prefix, prefix_nil]
              exact hkey
            rw [hnext, if_neg hprefix, if_neg htrunc]
            exact ⟨(.returned true, t), rfl, RunDone.cons hdone
              (RunDone.refl c currentOid t) rfl hmem hpageSorted.nodup_keys⟩
    · rw [if_neg hok]
      exact ⟨_, rfl, fun kv hkv => Or.inl hkv, fun kv hkv => hkv,
        fun h => absurd (h.list marker) hok⟩

/-- Nothing is raised as long as every listing succeeds. -/
theorem returned_processFrom (hlist : ∀ marker, c.listOk marker = true) :
    ∀ (fuel : Nat) (currentOid marker : Bytes) (s : VersionStore) {r : VersionListEnd × VersionStore},
      processFrom c fuel currentOid marker s = some r → ∃ bStatus, r.1 = .returned bStatus := by
  intro fuel
  induction fuel with
  | zero =>
    intro currentOid marker s r h
    cases h
  | succ fuel ih =>
    intro currentOid marker s r h
    simp only [processFrom, hlist, if_true] at h
    split at h
    · exact ⟨false, by rw [← some.inj h]⟩
    · split at h
      · split at h
        · exact ih _ _ _ h
        · exact ⟨true, by rw [← some.inj h]⟩
      · exact ⟨false, by rw [← some.inj h]⟩

/-- An old version of the object, and not the current one. -/
def Stale (c : VersionListCall) (currentOid : Bytes) (e : VersionEntry) : Prop :=
  e.objectName = c.objectKey ∧ e.motrOid ≠ currentOid ∧ Old c e

/-- The call comes to an end, what it deletes are old versions of the object, and if every call
succeeds it raises nothing and has looked at all that is listed. -/
def TouchesOnlyStale (c : VersionListCall) (currentOid marker : Bytes)
    (versions : List (Bytes × VersionEntry)) : Prop :=
  ∃ r, processObjectsInVersionlist c currentOid marker versions = some r ∧
    (∀ kv ∈ r.2.deletedEntries, Stale c currentOid kv.2) ∧
    (AllSucceed c → (∃ bStatus, r.1 = .returned bStatus) ∧
      r.2.examined = listing versions c.objectKey marker)

/-- No page has an entry that is picked but of another object or current. -/
def Harmless (c : VersionListCall) (currentOid marker : Bytes)
    (versions : List (Bytes × VersionEntry)) : Prop :=
  ∀ p ∈ comparisons currentOid (pagesOf versions c.objectKey c.maxKeys marker), ∀ kv ∈ p.2,
    Picked c p.1 kv.2 → kv.2.objectName = c.objectKey ∧ kv.2.motrOid ≠ currentOid
deriving Decidable

theorem runDone_process (hmax : 1 ≤ c.maxKeys) (hkey : c.objectKey ≠ []) (hs : Sorted versions)
    (currentOid marker : Bytes) :
    ∃ r, processObjectsInVersionlist c currentOid marker versions = some r ∧
      RunDone c currentOid (pagesOf versions c.objectKey c.maxKeys marker)
        { versions := versions } r.2 := by
  have hfuel := Nat.lt_succ_of_le (length_listing_le versions c.objectKey marker)
  obtain ⟨r, hr, hrun⟩ := runDone_processFrom hs hmax hkey (versions.length + 1) currentOid marker
    { versions := versions } (List.Sublist.refl _) rfl hfuel
  refine ⟨r, hr, ?_⟩
  rw [Pages.pages_fuel hmax _ ((listing versions c.objectKey marker).length + 1) _ _ hfuel
    (Nat.lt_succ_self _)] at hrun
  exact hrun

/-- **The clean-up of a version list touches only stale versions of its own object exactly when on
every page what is old, and is not what stands there for the current object, is such a version.**
For the first page that is the current identifier, for the others the last key of the page before.
-/
theorem touchesOnlyStale_iff (c : VersionListCall) (hmax : 1 ≤ c.maxKeys) (hkey : c.objectKey ≠ [])
    (currentOid marker : Bytes) (versions : List (Bytes × VersionEntry)) (hs : Sorted versions) :
    (∀ (api : Api) (listOk : Bytes → Bool),
        TouchesOnlyStale { c with api := api, listOk := listOk } currentOid marker versions) ↔
      Harmless c currentOid marker versions := by
  constructor
  · intro h p hp kv hkv hpicked
    -- the run in which every call succeeds
    obtain ⟨r, hr, hstale, -⟩ := h
      { kvGet := fun _ _ => true, kvDelete := fun _ _ => true, objectDelete := fun _ => true }
      fun _ => true
    obtain ⟨r', hr', hrun⟩ := runDone_process (c := { c with
      api := { kvGet := fun _ _ => true, kvDelete := fun _ _ => true, objectDelete := fun _ => true }
      listOk := fun _ => true }) hmax hkey hs currentOid marker
    obtain rfl := some.inj (hr.symm.trans hr')
    have hdeleted := (hrun.all ⟨fun _ => rfl, fun _ _ => rfl, fun _ _ => rfl, fun _ => rfl⟩).2
      p hp kv hkv hpicked
    exact ⟨(hstale kv hdeleted).1, (hstale kv hdeleted).2.1⟩
  · intro h api listOk
    obtain ⟨r, hr, hrun⟩ := runDone_process (c := { c with api := api, listOk := listOk }) hmax hkey hs
      currentOid marker
    refine ⟨r, hr, ?_, ?_⟩
    · intro kv hkv
      rcases hrun.deleted kv hkv with hkv | ⟨p, hp, hkv, hpicked⟩
      · cases hkv
      · obtain ⟨hown, hne⟩ := h p hp kv hkv hpicked
        exact ⟨hown, hne, (picked_iff.mp hpicked).2⟩
    · intro hall
      refine ⟨returned_processFrom hall.list _ _ _ _ hr, ?_⟩
      rw [(hrun.all hall).1]
      exact Pages.flatMap_pages hmax _ _ _ (Nat.lt_succ_self _)

/-- A film with two versions that are an hour old. -/
def filmVersions : List (Bytes × VersionEntry) :=
  [(ascii "film/1", ⟨ascii "film", ascii "old", 0⟩), (ascii "film/2", ⟨ascii "film", ascii "live", 0⟩)]

/-- The call for the film, with pages of so many keys. -/
def filmCall (maxKeys : Nat) : VersionListCall where
  api := { kvGet := fun _ _ => true, kvDelete := fun _ _ => true, objectDelete := fun _ => true }
  listOk := fun _ => true
  versionIndexId := ascii "versions"
  probableDeleteIndexId := ascii "probable"
  maxKeys := maxKeys
  now := 3600
  timeVersionEntry := 15
  objectKey := ascii "film"
  leakId := ascii "live"

/-- Two old versions on each of the first two pages, and the current one behind them is as young as
that of another object. -/
def youngVersions : List (Bytes × VersionEntry) :=
  [(ascii "film/1", ⟨ascii "film", ascii "a", 0⟩), (ascii "film/2", ⟨ascii "film", ascii "b", 60⟩),
    (ascii "film/3", ⟨ascii "film", ascii "c", 120⟩), (ascii "film/4", ⟨ascii "film", ascii "d", 180⟩),
    (ascii "film/5", ⟨ascii "film", ascii "live", 3000⟩),
    (ascii "films/1", ⟨ascii "films", ascii "e", 3300⟩)]

/-- On three pages four versions go; and whatever fails, no other does. -/
theorem touchesOnlyStale_iff_threePages :
    (processObjectsInVersionlist (filmCall 2) (ascii "live") (ascii "film/") youngVersions).map
        (fun r => (r.1, r.2.deletedObjects, r.2.versions)) =
      some (.returned false, [ascii "a", ascii "b", ascii "c", ascii "d"], youngVersions.drop 4) ∧
    ∀ (api : Api) (listOk : Bytes → Bool),
      TouchesOnlyStale { filmCall 2 with api := api, listOk := listOk } (ascii "live")
        (ascii "film/") youngVersions :=
  ⟨by decide, (touchesOnlyStale_iff (filmCall 2) (by decide) (by decide) _ _ _ (by decide)).mpr
    (by decide)⟩

/-- The object itself is deleted when its entry is on the second page. -/
theorem not_touchesOnlyStale_secondPage :
    ¬ ∀ (c : VersionListCall), 1 ≤ c.maxKeys → c.objectKey ≠ [] →
      ∀ (currentOid marker : Bytes) (versions : List (Bytes × VersionEntry)), Sorted versions →
        TouchesOnlyStale c currentOid marker versions := by
  intro h
  obtain ⟨r, hr, hstale, -⟩ := h (filmCall 1) (by decide) (by decide) (ascii "live") (ascii "film/")
    filmVersions (by decide)
  have hdeleted : (processObjectsInVersionlist (filmCall 1) (ascii "live") (ascii "film/")
      filmVersions).map (·.2.deletedEntries) = some filmVersions := by decide
  rw [hr] at hdeleted
  have hentries : r.2.deletedEntries = filmVersions := some.inj hdeleted
  have hlive : (ascii "film/2", ⟨ascii "film", ascii "live", 0⟩) ∈ r.2.deletedEntries := by
    rw [hentries]
    decide
  exact (hstale _ hlive).2.1 rfl

end Versions

end ObjectRecoveryValidator

end CortxS3
