/-
What the metadata of a copied object says of the Motr objects that were created for it.

A source in parts is described rightly: every part gets an entry behind those of the parts before it
(`createPartsFragments_entries`), with the identifier, the pool version and the layout of its own
object.  All parts of the source are copied, since there are no more of them than are asked for
(`partFragmentContextList_perm`).

For a source in one piece the layout that is saved is the one of the source.  It is the layout of
the new object only where the recommendation for that size is the same as when the source was
written.
-/
import CortxS3.Server.CopyObjectCreation
import CortxS3.Proofs.Base64

namespace CortxS3.CopyCreation

open List S3M0Uint128Helper

variable {env : Environment}

/-! ### A source in one piece -/

/-- The object has the recommended layout, whatever number of collisions there was. -/
theorem createObject_layoutId {size : Nat} {object : MotrObject} :
    ∀ {left tried : Nat}, createObject env size left tried = some object →
      object.layoutId = env.recommended size := by
  intro left
  induction left with
  | zero =>
    intro tried h
    unfold createObject at h
    split at h
    · cases h
      rfl
    · rename_i heq
      cases heq
    · cases h
  | succ left ih =>
    intro tried h
    unfold createObject at h
    split at h
    · cases h
      rfl
    · rename_i heq
      cases heq
      exact ih h
    · cases h

variable {c : Copied} {fresh source : S3ObjectMetadata}

/-- A copy in one piece describes its object exactly when the layout of the source is the one that
is recommended now. -/
theorem copySimple_describes (hsource : source.numberOfFragments = 0)
    (h : copySimple env source fresh = some c) :
    Describes c ↔ source.layoutId = env.recommended source.contentLength := by
  obtain ⟨object, hobject, rfl⟩ := Option.map_eq_some_iff.mp h
  have hlayout := createObject_layoutId hobject
  obtain ⟨saved, hsaved⟩ :
    ∃ saved, saved = saveMetadata source (createObjectSuccessful fresh object) := ⟨_, rfl⟩
  have hobjects : describedObjects saved =
      [(⟨object.oid, source.layoutId, object.pvid⟩, source.contentLength)] := by
    have hfragments : saved.numberOfFragments = 0 := by
      rw [hsaved]
      exact hsource
    unfold describedObjects
    rw [if_pos hfragments, hsaved]
    show [((⟨object.oid, source.layoutId, toM0Fid (fidToString object.pvid)⟩ : MotrObject),
      source.contentLength)] = _
    rw [toM0Fid_fidToString]
  have hbytes : (if source.contentLength = 0 then [] else [source.contentLength]).sum =
      source.contentLength := by
    by_cases hempty : source.contentLength = 0
    · rw [if_pos hempty, hempty]
      rfl
    · rw [if_neg hempty, sum_singleton]
  rw [← hsaved]
  constructor
  · intro hdescribes
    have := hdescribes.objects
    dsimp only at this
    rw [hobjects, map_singleton, List.cons.injEq] at this
    rw [← hlayout, ← this.1]
  · intro heq
    constructor
    case objects =>
      dsimp only
      rw [hobjects, heq, ← hlayout]
      rfl
    case sizes =>
      dsimp only
      rw [hobjects, hbytes]
      rfl
    case contentLength =>
      dsimp only
      rw [hbytes, hsaved]
      rfl

/-! ### A source in parts -/

/-- The fragments stand at the numbers that follow `k`. -/
def NumberedAfter (k : Nat) (frags : List S3PartFragContext) : Prop :=
  ∀ f ∈ frags.zipIdx (k + 1), f.1.partNumber = (f.2 : Int)

/-- Every part gets an entry behind those that are there, and it describes the object of the part.
-/
theorem createPartsFragments_entries :
    ∀ {frags : List S3PartFragContext} {k : Nat} {ext ext' : S3ObjectExtendedMetadata}
      {objects : List MotrObject}, NumberedAfter k frags →
      (∀ p ∈ ext.extObjects, p.1 < ((k + 1 : Nat) : Int)) →
      createPartsFragments env frags k ext = some (objects, ext') →
      ∃ made : List S3PartFragContext,
        ext'.extObjects.flatMap (·.2) = ext.extObjects.flatMap (·.2) ++ made ∧
        made.map (objectOf · |>.1) = objects ∧ made.map (·.itemSize) = frags.map (·.itemSize) := by
  intro frags
  induction frags with
  | nil =>
    intro k ext ext' objects _ _ h
    cases h
    exact ⟨[], by rw [append_nil], rfl, rfl⟩
  | cons frag rest ih =>
    intro k ext ext' objects hnumbered hbelow h
    rw [NumberedAfter, zipIdx_cons, forall_mem_cons] at hnumbered
    obtain ⟨hfrag, hrest⟩ := hnumbered
    unfold createPartsFragments at h
    split at h
    case h_2 => cases h
    case h_1 pvid hanswer =>
      dsimp only at h
      obtain ⟨⟨objects, ext'⟩, hnext, h⟩ := Option.map_eq_some_iff.mp h
      cases h
      obtain ⟨ctx, hctx⟩ : ∃ ctx, ctx = newPartFragCtx env frag
        ⟨env.newExtOid k, (frag.layoutId : Int), pvid⟩ := ⟨_, rfl⟩
      rw [← hctx] at hnext
      have hnumber : ctx.partNumber.toNat = k + 1 := by
        rw [hctx]
        show frag.partNumber.toNat = k + 1
        rw [hfrag]
        rfl
      have hadded : (ext.addExtendedEntry ctx 1 ctx.partNumber.toNat).extObjects =
          ext.extObjects ++ [(((k + 1 : Nat) : Int), [ctx])] := by
        rw [hnumber]
        unfold S3ObjectExtendedMetadata.addExtendedEntry S3ObjectExtendedMetadata.entriesOf
        dsimp only
        rw [SortedMap.get_eq_none fun x hx => ne_of_lt (hbelow x hx)]
        exact SortedMap.set_of_all_lt hbelow
      obtain ⟨made, hflat, hobjects, hsizes⟩ := ih hrest (by
        intro p hp
        rw [hadded, mem_append, mem_singleton] at hp
        rcases hp with hp | rfl
        · have := hbelow p hp
          omega
        · dsimp only
          omega) hnext
      refine ⟨ctx :: made, ?_, ?_, ?_⟩
      · rw [hflat, hadded, flatMap_append]
        simp
      · rw [map_cons, hobjects, hctx]
        rfl
      · rw [map_cons, hsizes, hctx]
        rfl

variable {ext : S3ObjectExtendedMetadata} {frags : List S3PartFragContext}

theorem mem_of_partFragmentContextList (hext : source.extended = some ext)
    (hsorted : OrderedIndex.Sorted ext.extObjects)
    (hentries : ∀ p ∈ ext.extObjects, ∃ f : S3PartFragContext, p = (f.partNumber, [f]))
    (h : partFragmentContextList source = some frags) :
    frags.length = source.numberOfFragments ∧ NumberedAfter 0 frags ∧
      ∀ f ∈ frags, (f.partNumber, [f]) ∈ ext.extObjects := by
  obtain ⟨hrange, hget⟩ := List.forall₂_iff_get.mp (forall₂_of_mapM h)
  have hlength : source.numberOfFragments = frags.length := by rw [← hrange, length_range]
  have hat : ∀ i (hi : i < frags.length), frags[i].partNumber = ((i + 1 : Nat) : Int) ∧
      (frags[i].partNumber, [frags[i]]) ∈ ext.extObjects := by
    intro i hi
    have hfound := hget i (by rw [length_range, hlength]; exact hi) hi
    rw [get_eq_getElem, getElem_range, get_eq_getElem] at hfound
    unfold S3DeleteObjectAction.fragmentAt at hfound
    rw [hext] at hfound
    obtain ⟨entry, hentry, hhead⟩ := Option.bind_eq_some_iff.mp hfound
    have hmem := (SortedMap.get_eq_some_iff hsorted).mp hentry
    obtain ⟨f, hf⟩ := hentries _ hmem
    obtain ⟨hnumber, rfl⟩ := Prod.mk.inj hf
    obtain rfl : f = frags[i] := Option.some.inj hhead
    exact ⟨hnumber.symm, by rw [← hnumber]; exact hmem⟩
  refine ⟨hlength.symm, ?_, ?_⟩
  · intro f hf
    obtain ⟨f, n⟩ := f
    obtain ⟨hle, hlt, hf⟩ := mem_zipIdx hf
    dsimp only
    rw [hf, (hat (n - (0 + 1)) (by omega)).1]
    congr 1
    omega
  · intro f hf
    obtain ⟨i, hi, rfl⟩ := getElem_of_mem hf
    exact (hat i hi).2

theorem partFragmentContextList_perm (hext : source.extended = some ext)
    (hsorted : OrderedIndex.Sorted ext.extObjects)
    (hlength : ext.extObjects.length = source.numberOfFragments)
    (hentries : ∀ p ∈ ext.extObjects, ∃ f : S3PartFragContext, p = (f.partNumber, [f]))
    (h : partFragmentContextList source = some frags) :
    frags.Perm (ext.extObjects.flatMap (·.2)) := by
  obtain ⟨hcount, hnumbered, hmem⟩ := mem_of_partFragmentContextList hext hsorted hentries h
  have hnodup : (frags.map (·.partNumber)).Nodup := by
    have hnumbers : frags.map (·.partNumber) = (List.range' 1 frags.length).map (↑· : Nat → Int) := by
      refine ext_getElem (by simp) ?_
      intro i hi _
      rw [getElem_map, getElem_map, getElem_range']
      rw [length_map] at hi
      have := hnumbered (frags[i], i + 1) (mem_iff_getElem.mpr
        ⟨i, by rw [length_zipIdx]; exact hi, by rw [getElem_zipIdx, zero_add, add_comm]⟩)
      rw [this]
      congr 1
      omega
    rw [hnumbers]
    exact (nodup_range').map fun _ _ => Int.ofNat_inj.mp
  have hpairs : (frags.map fun f => (f.partNumber, [f])).Perm ext.extObjects := by
    refine List.Subperm.perm_of_length_le ?_ ?_
    · refine List.Nodup.subperm ?_ ?_
      · exact hnodup.of_map.map fun a b hab => by
          simpa using (Prod.mk.inj hab).2
      · intro p hp
        obtain ⟨f, hf, rfl⟩ := mem_map.mp hp
        exact hmem f hf
    · rw [length_map, hcount, hlength]
  have hflat := hpairs.flatMap_right (·.2)
  rwa [flatMap_map, flatMap_singleton'] at hflat

theorem copyParts_describes (hwhole : WholeSource source) (hsource : source.numberOfFragments ≠ 0)
    (h : copyParts env source fresh = some c) : Describes c := by
  obtain ⟨ext, hext, hsorted, hlength, hentries, hsize⟩ := hwhole.entries hsource
  obtain ⟨frags, hfrags, h⟩ := Option.bind_eq_some_iff.mp h
  obtain ⟨⟨created, ext'⟩, hcreated, h⟩ := Option.bind_eq_some_iff.mp h
  cases h
  have hnumbered := (mem_of_partFragmentContextList hext hsorted hentries hfrags).2.1
  obtain ⟨made, hflat, hobjects, hsizes⟩ := createPartsFragments_entries hnumbered
    (by intro p hp; cases hp) hcreated
  have hbytes : (frags.map (·.itemSize)).sum = source.contentLength := by
    rw [← hsize]
    exact ((partFragmentContextList_perm hext hsorted hlength hentries hfrags).map _).sum_eq
  obtain ⟨saved, hsaved⟩ : ∃ saved, saved = saveMetadata source { fresh with
      oid := env.newOid 0
      extended := some ext' } := ⟨_, rfl⟩
  have hdescribed : describedObjects saved = made.map objectOf := by
    unfold describedObjects
    rw [hsaved]
    unfold saveMetadata
    dsimp only
    rw [if_neg hsource]
    show (ext'.extObjects.flatMap (·.2)).map objectOf = _
    rw [hflat]
    rfl
  rw [← hsaved]
  constructor
  case objects =>
    dsimp only
    rw [hdescribed, map_map, ← hobjects]
    rfl
  case sizes =>
    dsimp only
    rw [hdescribed, map_map, ← hsizes]
    rfl
  case contentLength =>
    dsimp only
    rw [hbytes, hsaved]
    rfl

/-! ### The copy -/

/-- **What a copy saves describes what it wrote** exactly when the source is in parts, or has the
layout that is recommended now for its size. -/
theorem describes_iff (env : Environment) (source : S3ObjectMetadata)
    (objectName versionKeyInIndex : Bytes) (c : Copied) (hwhole : WholeSource source)
    (h : copyObject env source objectName versionKeyInIndex = some c) :
    Describes c ↔
      (source.numberOfFragments = 0 →
        source.layoutId = env.recommended source.contentLength) := by
  unfold copyObject at h
  by_cases hsource : source.numberOfFragments = 0
  · rw [if_pos hsource] at h
    rw [copySimple_describes hsource h]
    exact ⟨fun heq _ => heq, fun heq => heq hsource⟩
  · rw [if_neg hsource] at h
    exact iff_of_true (copyParts_describes hwhole hsource h) fun hnone => absurd hnone hsource

/-- An object of 4096 bytes in one piece, with the layout it was written with. -/
def smallFilm (layoutId : Int) : S3ObjectMetadata where
  objectName := ascii "film"
  oid := { uHi := ⟨[5, 0, 0, 0, 0, 0, 0, 0], rfl⟩ }
  layoutId := layoutId
  pvidStr := fidToString (Raw.zero 16)
  contentLength := 4096
  versionKeyInIndex := ascii "film/v1"
  objVersionKey := ascii "v1"

/-- Motr creates everything, and layout 1 is recommended whatever the size. -/
def smallLayouts : Environment where
  recommended _ := 1
  newOid _ := { uHi := ⟨[2, 0, 0, 0, 0, 0, 0, 0], rfl⟩ }
  answer _ := .created (Raw.zero 16)
  newExtOid _ := { uHi := ⟨[3, 0, 0, 0, 0, 0, 0, 0], rfl⟩ }
  partAnswer _ := .created (Raw.zero 16)
  objVersionKey := ascii "v1"

theorem wholeSource_smallFilm (layoutId : Int) : WholeSource (smallFilm layoutId) :=
  ⟨fun h => absurd rfl h, fun h => absurd rfl h⟩

/-- The film was written with the layout that is recommended. -/
theorem describes_iff_smallFilm :
    ∃ c, copyObject smallLayouts (smallFilm 1) (ascii "movie") (ascii "movie/v1") = some c ∧
      Describes c :=
  ⟨_, rfl, (describes_iff smallLayouts (smallFilm 1) (ascii "movie") (ascii "movie/v1") _
    (wholeSource_smallFilm 1) rfl).mpr fun _ => rfl⟩

/-- The film was written with layout 9. -/
theorem not_describes_smallFilm :
    ¬ ∀ (env : Environment) (source : S3ObjectMetadata) (objectName versionKeyInIndex : Bytes)
      (c : Copied), WholeSource source →
      copyObject env source objectName versionKeyInIndex = some c → Describes c := by
  intro hall
  have hobjects := (hall smallLayouts (smallFilm 9) (ascii "movie") (ascii "movie/v1") _
    (wholeSource_smallFilm 9) rfl).objects
  have hlayouts : [(9 : Int)] = [1] := 
    congrArg (List.map MotrObject.layoutId) hobjects
  exact absurd hlayouts (by decide)

end CortxS3.CopyCreation
