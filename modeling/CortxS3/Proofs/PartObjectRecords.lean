/-
When the parts of an object that is replaced are all noted.

The loop comes to an end where every part has a first fragment with an identifier
(`ends_round_iff`), and then it has noted exactly these first fragments.  So it covers all of an
object whose parts have one fragment each, which is what the uploads of this server make, and no
other: a part whose entry carries no identifier is waited for without end, a second fragment of a
part is left out, and where no part is counted, as for an object in one piece with several
fragments, nothing is noted at all.
-/
import CortxS3.Server.PartObjectRecords
import CortxS3.Proofs.SaveAndLoadLimits

namespace CortxS3.PartObjectRecords

open List

open Until (Ends Outcome)

variable {bucket : BucketIndexes} {m : S3ObjectMetadata}

/-! ### The first fragments -/

/-- The first fragments of the parts, if each has one with an identifier. -/
def firsts : List (Int × List S3PartFragContext) → Option (List (Int × S3PartFragContext))
  | [] => some []
  | (_, []) :: _ => none
  | (partNo, frag :: _) :: rest =>
    if frag.motrOID ≠ {} then (firsts rest).map ((partNo, frag) :: ·) else none

/-- The first fragments are noted, one after the other. -/
def noteParts (bucket : BucketIndexes) (m : S3ObjectMetadata)
    (frags : List (Int × S3PartFragContext)) (s : OldObjects) : OldObjects :=
  frags.foldl (fun s f => s.addPart bucket m f.1 f.2) s

theorem aligned_addPart {s : OldObjects} (hs : s.Aligned) (partNo : Int) (frag : S3PartFragContext) :
    (s.addPart bucket m partNo frag).Aligned := by
  obtain ⟨hpvids, hlayouts⟩ := hs
  constructor
  · simp [OldObjects.addPart, hpvids]
  · simp [OldObjects.addPart, hlayouts]

theorem aligned_noteParts (frags : List (Int × S3PartFragContext)) :
    ∀ {s : OldObjects}, s.Aligned → (noteParts bucket m frags s).Aligned := by
  induction frags with
  | nil => intro s hs; exact hs
  | cons f rest ih => intro s hs; exact ih (aligned_addPart hs f.1 f.2)

theorem records_noteParts (frags : List (Int × S3PartFragContext)) :
    ∀ s : OldObjects, (noteParts bucket m frags s).probableDelRecList =
      s.probableDelRecList ++ frags.map fun f => partDeleteRecord bucket m (toUnsigned f.1) f.2 := by
  induction frags with
  | nil => intro s; simp [noteParts]
  | cons f rest ih =>
    intro s
    have hrest := ih (s.addPart bucket m f.1 f.2)
    simp only [noteParts, foldl_cons, map_cons] at hrest ⊢
    rw [hrest]
    simp [OldObjects.addPart]

/-- **The loop ends where every part has a first fragment with an identifier**, and then it has
noted these and the object. -/
theorem ends_round_iff (totalParts : Nat) (l : List (Int × List S3PartFragContext)) :
    ∀ s t : OldObjects, Ends (round bucket m totalParts) ⟨l, s⟩ t ↔
      ∃ frags, firsts l = some frags ∧
        t = (noteParts bucket m frags s).addParent bucket m totalParts := by
  induction l with
  | nil =>
    intro s t
    have hround : round bucket m totalParts ⟨[], s⟩ = .done (s.addParent bucket m totalParts) := rfl
    rw [Until.ends_iff_of_done hround]
    constructor
    · intro h
      exact ⟨[], rfl, h.symm⟩
    · rintro ⟨frags, hfrags, ht⟩
      obtain rfl := Option.some.inj hfrags
      exact ht.symm
  | cons e rest ih =>
    intro s t
    obtain ⟨partNo, entry⟩ := e
    cases entry with
    | nil =>
      have hround : round bucket m totalParts ⟨(partNo, []) :: rest, s⟩ =
          .next ⟨(partNo, []) :: rest, s⟩ := rfl
      constructor
      · intro h
        exact absurd h (Until.not_ends_of_stuck hround t)
      · rintro ⟨frags, hfrags, -⟩
        cases hfrags
    | cons frag others =>
      by_cases hoid : frag.motrOID ≠ {}
      · have hround : round bucket m totalParts ⟨(partNo, frag :: others) :: rest, s⟩ =
            .next ⟨rest, s.addPart bucket m partNo frag⟩ := if_pos hoid
        rw [Until.ends_iff_of_next hround, ih]
        have hfirsts : firsts ((partNo, frag :: others) :: rest) =
            (firsts rest).map ((partNo, frag) :: ·) := if_pos hoid
        rw [hfirsts]
        constructor
        · rintro ⟨frags, hfrags, ht⟩
          exact ⟨(partNo, frag) :: frags, by rw [hfrags]; rfl, ht⟩
        · rintro ⟨frags, hfrags, ht⟩
          obtain ⟨frags', hfrags', rfl⟩ := Option.map_eq_some_iff.mp hfrags
          exact ⟨frags', hfrags', ht⟩
      · have hround : round bucket m totalParts ⟨(partNo, frag :: others) :: rest, s⟩ =
            .next ⟨(partNo, frag :: others) :: rest, s⟩ := if_neg hoid
        constructor
        · intro h
          exact absurd h (Until.not_ends_of_stuck hround t)
        · rintro ⟨frags, hfrags, -⟩
          rw [show firsts ((partNo, frag :: others) :: rest) = none from if_neg hoid] at hfrags
          cases hfrags

theorem partRecords_eq (l : List (Int × List S3PartFragContext)) :
    partRecords bucket m l =
      (firsts l).map (·.map fun f => partDeleteRecord bucket m (toUnsigned f.1) f.2) := by
  induction l with
  | nil => rfl
  | cons e rest ih =>
    obtain ⟨partNo, entry⟩ := e
    cases entry with
    | nil => rfl
    | cons frag others =>
      by_cases hoid : frag.motrOID = {}
      · simp [partRecords, firsts, hoid]
      · simp only [partRecords, firsts, hoid, if_false, ne_eq, not_false_eq_true, if_true, ih,
          Option.map_map]
        rfl

/-- **A call that comes to an end adds the records of `addPartObjectToProbableDeadOidList`.** -/
theorem records_of_addPartObjects {s t : OldObjects} (h : addPartObjects bucket m s t) :
    ∃ added, CortxS3.addPartObjectToProbableDeadOidList bucket m = some added ∧
      t.probableDelRecList = s.probableDelRecList ++ added := by
  unfold addPartObjects at h
  by_cases htotal : totalPartsOf m ≠ 0
  · rw [if_pos htotal] at h
    obtain ⟨frags, hfrags, rfl⟩ := (ends_round_iff _ _ _ _).mp h
    refine ⟨frags.map (fun f => partDeleteRecord bucket m (toUnsigned f.1) f.2) ++
      [parentDeleteRecord bucket m (totalPartsOf m)], ?_, ?_⟩
    · unfold CortxS3.addPartObjectToProbableDeadOidList
      rw [show (m.extended.map (·.getPartCount)).getD 0 = totalPartsOf m from rfl,
        show (m.extended.map (·.extObjects)).getD [] = extEntriesOf m from rfl,
        partRecords_eq, hfrags]
      exact if_pos htotal
    · show (noteParts bucket m frags s).probableDelRecList ++ _ = _
      rw [records_noteParts, append_assoc]
  · rw [if_neg htotal] at h
    refine ⟨[], ?_, ?_⟩
    · exact if_neg htotal
    · rw [show s = t from h, append_nil]

/-! ### All fragments -/

theorem fragmentsOf_cons (e : Int × List S3PartFragContext)
    (rest : List (Int × List S3PartFragContext)) :
    fragmentsOf (e :: rest) = e.2.filter (fun f => f.motrOID ≠ {}) ++ fragmentsOf rest := by
  unfold fragmentsOf
  rw [flatMap_cons, filter_append]

theorem filter_eq_singleton_iff {frag : S3PartFragContext} (others : List S3PartFragContext)
    (hoid : frag.motrOID ≠ {}) :
    ((frag :: others).filter fun f => f.motrOID ≠ {}).length = 1 ↔ OneFragment (frag :: others) := by
  rw [filter_cons_of_pos (by simpa using hoid), length_cons]
  constructor
  · intro hlen
    refine ⟨frag, others, rfl, hoid, ?_⟩
    intro f hf
    by_contra hne
    have hmem : f ∈ others.filter fun f => f.motrOID ≠ {} := by simp [hf, hne]
    have hpos := length_pos_of_mem hmem
    omega
  · rintro ⟨frag', rest, heq, -, hrest⟩
    obtain ⟨rfl, rfl⟩ := List.cons.inj heq
    rw [filter_eq_nil_iff.mpr fun f hf => by simp [hrest f hf]]
    rfl

/-- The first fragments are some of all, and all of them exactly if each part has one. -/
theorem length_firsts (l : List (Int × List S3PartFragContext)) :
    ∀ {frags}, firsts l = some frags → frags.length ≤ (fragmentsOf l).length ∧
      ((fragmentsOf l).length = frags.length ↔ ∀ e ∈ l, OneFragment e.2) := by
  induction l with
  | nil =>
    intro frags h
    obtain rfl := Option.some.inj h
    simp [fragmentsOf]
  | cons e rest ih =>
    intro frags h
    obtain ⟨partNo, entry⟩ := e
    cases entry with
    | nil => cases h
    | cons frag others =>
      by_cases hoid : frag.motrOID ≠ {}
      · rw [show firsts ((partNo, frag :: others) :: rest) =
          (firsts rest).map ((partNo, frag) :: ·) from if_pos hoid] at h
        obtain ⟨frags', hfrags', rfl⟩ := Option.map_eq_some_iff.mp h
        obtain ⟨hle, hiff⟩ := ih hfrags'
        have hone := filter_eq_singleton_iff others hoid
        have hpos : 0 < ((frag :: others).filter fun f => f.motrOID ≠ {}).length := by
          rw [filter_cons_of_pos (by simpa using hoid)]
          exact Nat.succ_pos _
        rw [fragmentsOf_cons, length_append, length_cons, forall_mem_cons, ← hone, ← hiff]
        dsimp only
        omega
      · rw [show firsts ((partNo, frag :: others) :: rest) = none from if_neg hoid] at h
        cases h

theorem firsts_of_oneFragment (l : List (Int × List S3PartFragContext))
    (h : ∀ e ∈ l, OneFragment e.2) :
    ∃ frags, firsts l = some frags ∧ fragmentsOf l = frags.map (·.2) := by
  induction l with
  | nil => exact ⟨[], rfl, rfl⟩
  | cons e rest ih =>
    obtain ⟨partNo, entry⟩ := e
    obtain ⟨hone, hrest⟩ := forall_mem_cons.mp h
    obtain ⟨frag, others, heq, hoid, hothers⟩ := hone
    obtain rfl : entry = frag :: others := heq
    obtain ⟨frags, hfrags, hall⟩ := ih hrest
    refine ⟨(partNo, frag) :: frags, ?_, ?_⟩
    · rw [show firsts ((partNo, frag :: others) :: rest) =
        (firsts rest).map ((partNo, frag) :: ·) from if_pos hoid, hfrags]
      rfl
    · have hfilter : (frag :: others).filter (fun f => f.motrOID ≠ {}) = [frag] := by
        rw [filter_cons_of_pos (by simpa using hoid),
          filter_eq_nil_iff.mpr fun f hf => by simp [hothers f hf]]
      rw [fragmentsOf_cons, hfilter, hall]
      rfl

theorem map_currentObjectOid (frags : List (Int × S3PartFragContext)) (totalParts : Nat) :
    (frags.map (fun f => partDeleteRecord bucket m (toUnsigned f.1) f.2) ++
        [parentDeleteRecord bucket m totalParts]).map (·.currentObjectOid) =
      (frags.map (·.2)).map (·.motrOID) ++ [m.oid] := by
  rw [map_append, map_map, map_map]
  rfl

theorem eq_addPartObjects {add : BucketIndexes → S3ObjectMetadata → OldObjects → OldObjects → Prop}
    (h : add ∈ copies) : add = addPartObjects := by
  simp only [copies, mem_cons, not_mem_nil, or_false] at h
  rcases h with rfl | rfl | rfl
  · rfl
  · rfl
  · rfl

/-- **The parts of a replaced object are all noted exactly if it has parts and each of them has one
fragment with an identifier, the first one.**  This is so for each of the three classes. -/
theorem covers_iff (bucket : BucketIndexes) (m : S3ObjectMetadata) :
    ∀ add ∈ copies, (Covers add bucket m ↔
      totalPartsOf m ≠ 0 ∧ ∀ e ∈ extEntriesOf m, OneFragment e.2) := by
  intro add hadd
  rw [eq_addPartObjects hadd]
  constructor
  · intro hcovers
    obtain ⟨t, ht, -, added, hadded, hperm⟩ := hcovers {} ⟨rfl, rfl⟩
    have hlen := hperm.length_eq
    rw [length_map, length_append, length_map, length_singleton] at hlen
    unfold addPartObjects at ht
    by_cases htotal : totalPartsOf m ≠ 0
    · refine ⟨htotal, ?_⟩
      rw [if_pos htotal] at ht
      obtain ⟨frags, hfrags, rfl⟩ := (ends_round_iff _ _ _ _).mp ht
      -- the first fragments are as many as all
      have hcount : added.length = frags.length + 1 := by
        have hrecords := congrArg List.length hadded
        rw [show ((noteParts bucket m frags {}).addParent bucket m (totalPartsOf m)).probableDelRecList
            = (noteParts bucket m frags {}).probableDelRecList ++
              [parentDeleteRecord bucket m (totalPartsOf m)] from rfl, records_noteParts] at hrecords
        simp at hrecords
        omega
      exact (length_firsts _ hfrags).2.mp (by omega)
    · rw [if_neg htotal] at ht
      obtain rfl : {} = t := ht
      have hnil : added = [] := by simpa using hadded.symm
      rw [hnil] at hlen
      simp at hlen
  · rintro ⟨htotal, hone⟩ s hs
    obtain ⟨frags, hfrags, hall⟩ := firsts_of_oneFragment _ hone
    refine ⟨(noteParts bucket m frags s).addParent bucket m (totalPartsOf m), ?_,
      aligned_noteParts frags hs,
      frags.map (fun f => partDeleteRecord bucket m (toUnsigned f.1) f.2) ++
        [parentDeleteRecord bucket m (totalPartsOf m)], ?_, ?_⟩
    · unfold addPartObjects
      rw [if_pos htotal]
      exact (ends_round_iff _ _ _ _).mpr ⟨frags, hfrags, rfl⟩
    · show (noteParts bucket m frags s).probableDelRecList ++ _ = _
      rw [records_noteParts, append_assoc]
    · rw [map_currentObjectOid, hall]

/-! ### Objects of one part -/

open S3ObjectExtendedMetadata (fragmentCodec)

/-- The object film of one part, with what is loaded of its extended metadata. -/
def film (extended : Option S3ObjectExtendedMetadata) : S3ObjectMetadata :=
  { objectName := ascii "film"
    oid := { uHi := ⟨[4, 0, 0, 0, 0, 0, 0, 0], rfl⟩ }
    layoutId := 9
    pvidStr := []
    contentLength := 5
    versionKeyInIndex := ascii "v"
    objVersionKey := ascii "v"
    numberOfParts := 1
    numberOfFragments := 1
    extended := extended }

/-- The entry of the part in the index, with the identifier written so. -/
def filmIndex (oid : Bytes) : List (Bytes × Bytes) :=
  [(ascii "film|v|P1|F1", fragmentCodec.write { oid := oid, pvid := [], size := 5, layoutId := 9 })]

/-- What a load of the extended metadata finds. -/
def loadFilm (oid : Bytes) : Option S3ObjectExtendedMetadata :=
  match S3ObjectExtendedMetadata.load fragmentCodec
    { objectName := ascii "film", versionId := ascii "v", fragments := 1, parts := 1 }
    (filmIndex oid) 30 with
  | some (.success m) => some m
  | _ => none

def noIndexes : BucketIndexes := ⟨{}, {}, {}⟩

/-- The part with such an identifier. -/
def filmPart (oid : M0Uint128) : S3PartFragContext :=
  { motrOID := oid
    versionID := ascii "v"
    itemSize := 5
    layoutId := 9
    partNumber := 1
    isMultipart := true }

/-- What is found of it. -/
def loadedFilm (oid : M0Uint128) : S3ObjectExtendedMetadata :=
  { objectName := ascii "film"
    versionId := ascii "v"
    fragments := 1
    parts := 1
    totalSize := 5
    extObjects := [(1, [filmPart oid])] }

/-- A part with an identifier is noted. -/
theorem covers_iff_film :
    loadFilm (ascii "AgAAAAAAAAA=-AAAAAAAAAAA=") =
        some (loadedFilm { uHi := ⟨[2, 0, 0, 0, 0, 0, 0, 0], rfl⟩ }) ∧
      Covers S3PutObjectAction.addPartObjectToProbableDeadOidList noIndexes
        (film (some (loadedFilm { uHi := ⟨[2, 0, 0, 0, 0, 0, 0, 0], rfl⟩ }))) := by
  refine ⟨by decide +kernel, (covers_iff noIndexes _ _ (mem_cons_self ..)).mpr ⟨by decide, ?_⟩⟩
  intro e he
  obtain rfl := mem_singleton.mp he
  exact ⟨_, [], rfl, by decide, fun f hf => nomatch hf⟩

/-- **A part whose entry has no identifier is waited for without end.** -/
theorem not_covers_withoutOid :
    loadFilm [] = some (loadedFilm {}) ∧
      ∀ add ∈ copies, ¬ Covers add noIndexes (film (some (loadedFilm {}))) := by
  refine ⟨by decide +kernel, ?_⟩
  intro add hadd hcovers
  rw [eq_addPartObjects hadd] at hcovers
  obtain ⟨t, ht, -⟩ := hcovers {} ⟨rfl, rfl⟩
  obtain ⟨frags, hfrags, -⟩ := (ends_round_iff 1 (extEntriesOf (film (some (loadedFilm {}))))
    {} t).mp ht
  cases hfrags

end CortxS3.PartObjectRecords
