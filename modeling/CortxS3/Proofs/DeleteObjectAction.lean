/-
Deleting an object, when the server may stop at any moment.

Wherever `S3DeleteObjectAction` is interrupted, no Motr object of the deleted object may be lost: the
object list still points to it, or it has been deleted, or a probable-delete record tells the
background delete of it.

For an object in one piece the record is in the index before the metadata is deleted, and leaves it
after the Motr object or when the object stays.  The records of an object in parts are collected at
the same point, but nothing puts them into the index until they are marked, after the metadata is gone
and the client has its answer.  A server that stops in between has lost all the parts.
-/
import CortxS3.Server.DeleteObjectAction
import CortxS3.Proofs.ProbableDeleteRecord

namespace CortxS3

open Option (isSome_iff_exists isSome_map some.injEq)
open List

namespace S3DeleteObjectAction

/-! ### What is promised -/

/-- An object in one piece, or in parts with an entry of every part in its extended metadata. -/
def InPieces (m : S3ObjectMetadata) : Prop :=
  m.numberOfFragments = 0 ∨
    (m.numberOfParts ≠ 0 ∧ ∀ i < m.numberOfFragments, (fragmentAt m (i + 1)).isSome)

/-- The Motr objects that hold the data. -/
def motrObjects (m : S3ObjectMetadata) : List M0Uint128 :=
  if m.numberOfFragments = 0 then [m.oid] else partOids m

/-- A record of the index tells of a Motr object. -/
def World.Records (w : World) (oid : M0Uint128) : Prop :=
  ∃ k rec, w.probableDeleteIndex k = some rec ∧ rec.currentObjectOid = oid

/-- What holds of a state of a run from `w`, in which the server may stop. -/
structure CrashSafe (m : S3ObjectMetadata) (w : World) (s : State) : Prop where
  safe : ∀ oid ∈ motrObjects m,
    s.world.objectList = some m ∨ oid ∈ s.world.deleted ∨ s.world.Records oid
  /-- The object stays, and so does no record but those that were there before. -/
  noRecordLeft : s.actionState = .metadataDeleteFailed → s.phase = .done →
    s.cleanupFailed = false → ∀ k rec, s.world.probableDeleteIndex k = some rec →
      w.probableDeleteIndex k = some rec

section OnePiece

variable {r : Request} {w : World}

/-! ### An object in one piece -/

/-- The key of its record. -/
def recordKeyOf (r : Request) : Bytes :=
  (addObjectOidToProbableDeadOidList r.bucket r.objectMetadata).recordKey

/-- Besides what was there before, the index has at most the record of the object. -/
def OnlyItsRecord (r : Request) (w world : World) : Prop :=
  ∀ k, k ≠ recordKeyOf r → world.probableDeleteIndex k = w.probableDeleteIndex k

/-- The record of the object is there. -/
def Recorded (r : Request) (world : World) : Prop :=
  ∃ rec, world.probableDeleteIndex (recordKeyOf r) = some rec ∧
    rec.currentObjectOid = r.objectMetadata.oid

variable {world : World}

theorem Recorded.records (h : Recorded r world) : world.Records r.objectMetadata.oid := by
  obtain ⟨rec, hrec, hoid⟩ := h
  exact ⟨_, rec, hrec, hoid⟩

variable {rec : S3ProbableDeleteRecord}

theorem recorded_putRecord (hkey : rec.recordKey = recordKeyOf r)
    (hoid : rec.currentObjectOid = r.objectMetadata.oid) :
    Recorded r (world.putRecord rec.recordKey rec) :=
  ⟨rec, by simp [World.putRecord, hkey], hoid⟩

theorem OnlyItsRecord.putRecord (h : OnlyItsRecord r w world) (hkey : rec.recordKey = recordKeyOf r) :
    OnlyItsRecord r w (world.putRecord rec.recordKey rec) := by
  intro k hk
  simp only [World.putRecord, hkey, if_neg hk]
  exact h k hk

theorem OnlyItsRecord.removeRecord (h : OnlyItsRecord r w world) {k : Bytes}
    (hrec : (world.removeRecord (recordKeyOf r)).probableDeleteIndex k = some rec) :
    w.probableDeleteIndex k = some rec := by
  by_cases hk : k = recordKeyOf r
  · simp [World.removeRecord, hk] at hrec
  · simp only [World.removeRecord, if_neg hk] at hrec
    rw [← h k hk]
    exact hrec

/-- What holds while a call is waited for. -/
def AtPhase (r : Request) (w : World) (s : State) : Prop :=
  match s.phase with
  | .addObjectOidToProbableDeadOidList =>
    s.world.objectList = some r.objectMetadata ∧ OnlyItsRecord r w s.world
  | .removeObjectMetadata =>
    s.world.objectList = some r.objectMetadata ∧ Recorded r s.world ∧ OnlyItsRecord r w s.world
  | .removeVersionMetadata => Recorded r s.world
  | .markOidForDeletion => Recorded r s.world ∧ s.actionState = .metadataDeleted
  | .deleteObject => Recorded r s.world ∧ s.actionState = .metadataDeleted
  | .removeProbableRecord =>
    (r.objectMetadata.oid ∈ s.world.deleted ∧ s.actionState = .metadataDeleted) ∨
      (s.world.objectList = some r.objectMetadata ∧ OnlyItsRecord r w s.world)
  | .done => CrashSafe r.objectMetadata w s
  | _ => False

/-- The record at hand is that of the object, marked or not. -/
def HoldsRecord (r : Request) (s : State) : Prop :=
  ∃ rec, s.probableDeleteRec = some rec ∧ rec.recordKey = recordKeyOf r ∧
    rec.currentObjectOid = r.objectMetadata.oid

structure Invariant (r : Request) (w : World) (s : State) : Prop where
  holdsRecord : HoldsRecord r s
  atPhase : AtPhase r w s

variable {s : State}

theorem HoldsRecord.oidStr (h : HoldsRecord r s) : s.oidStr = recordKeyOf r := by
  obtain ⟨rec, hrec, hkey, -⟩ := h
  simp [State.oidStr, hrec, hkey]

/-- The object list still has the object, and its metadata delete was not refused. -/
theorem crashSafe_of_listed (hlist : s.world.objectList = some r.objectMetadata)
    (hstate : s.actionState ≠ .metadataDeleteFailed) : CrashSafe r.objectMetadata w s :=
  ⟨fun _ _ => .inl hlist, fun h => absurd h hstate⟩

section

variable (hone : r.objectMetadata.numberOfFragments = 0)

include hone

theorem crashSafe_of_metadataDeleted {s : State} (hstate : s.actionState = .metadataDeleted)
    (h : r.objectMetadata.oid ∈ s.world.deleted ∨ Recorded r s.world) :
    CrashSafe r.objectMetadata w s := by
  refine ⟨?_, fun hfailed => by rw [hstate] at hfailed; cases hfailed⟩
  intro oid hoid
  rw [motrObjects, if_pos hone, mem_singleton] at hoid
  subst hoid
  rcases h with hdeleted | hrec
  · exact .inr (.inl hdeleted)
  · exact .inr (.inr hrec.records)

theorem Invariant.crashSafe {s : State} (h : Invariant r w s) : CrashSafe r.objectMetadata w s := by
  have hat := h.atPhase
  cases hphase : s.phase with
  | done =>
    rw [AtPhase, hphase] at hat
    exact hat
  | _ =>
    refine ⟨?_, fun _ hdone => by rw [hphase] at hdone; cases hdone⟩
    intro oid hoid
    rw [motrObjects, if_pos hone, mem_singleton] at hoid
    subst hoid
    rw [AtPhase, hphase] at hat
    grind [Recorded.records]

end

/-! ### One call -/

variable {e : Answer} {s' : State}

theorem invariant_addObjectOid (h : Invariant r w s)
    (hphase : s.phase = .addObjectOidToProbableDeadOidList) (hstep : step r s e = some s') :
    Invariant r w s' := by
  obtain ⟨⟨rec, hrec, hkey, hoid⟩, hat⟩ := h
  rw [AtPhase, hphase] at hat
  obtain ⟨hlist, honly⟩ := hat
  rw [step, hphase] at hstep
  simp only [hrec] at hstep
  cases e with
  | ok =>
    simp only [Answer.isOk, if_true, some.injEq] at hstep
    subst hstep
    exact ⟨⟨rec, rfl, hkey, hoid⟩, hlist, recorded_putRecord hkey hoid, honly.putRecord hkey⟩
  | failed stored =>
    simp only [Answer.isOk, Bool.false_eq_true, if_false, some.injEq] at hstep
    subst hstep
    exact ⟨⟨rec, rfl, hkey, hoid⟩,
      crashSafe_of_listed hlist (by simp [sendResponseToS3Client, startcleanup])⟩

theorem invariant_removeObjectMetadata (h : Invariant r w s)
    (hphase : s.phase = .removeObjectMetadata) (hstep : step r s e = some s') :
    Invariant r w s' := by
  obtain ⟨hholds, hat⟩ := h
  rw [AtPhase, hphase] at hat
  obtain ⟨hlist, hrecorded, honly⟩ := hat
  rw [step, hphase, some.injEq] at hstep
  subst hstep
  cases e with
  | ok => exact ⟨hholds, hrecorded⟩
  | failed stored =>
    -- the object stays
    exact ⟨hholds, .inr ⟨hlist, honly⟩⟩

section

variable (hone : r.objectMetadata.numberOfFragments = 0)

include hone

theorem invariant_markOid (h : Invariant r w s)
    (hphase : s.phase = .markOidForDeletion) (hstep : step r s e = some s') : Invariant r w s' := by
  obtain ⟨⟨rec, hrec, hkey, hoid⟩, hat⟩ := h
  rw [AtPhase, hphase] at hat
  obtain ⟨hrecorded, hstate⟩ := hat
  rw [step, hphase] at hstep
  simp only [hrec, some.injEq] at hstep
  subst hstep
  have hworld : Recorded r
      (if e.isOk then s.world.putRecord rec.recordKey rec.setForceDelete else s.world) := by
    split
    · have hkey' : rec.setForceDelete.recordKey = recordKeyOf r := hkey
      exact recorded_putRecord hkey' hoid
    · exact hrecorded
  unfold deleteObject
  split
  · exact ⟨⟨_, rfl, hkey, hoid⟩, crashSafe_of_metadataDeleted hone hstate (.inr hworld)⟩
  · exact ⟨⟨_, rfl, hkey, hoid⟩, hworld, hstate⟩

theorem invariant_deleteObject (h : Invariant r w s)
    (hphase : s.phase = .deleteObject) (hstep : step r s e = some s') : Invariant r w s' := by
  obtain ⟨hholds, hat⟩ := h
  rw [AtPhase, hphase] at hat
  obtain ⟨hrecorded, hstate⟩ := hat
  rw [step, hphase] at hstep
  cases e with
  | ok =>
    simp only [Answer.isOk, if_true, some.injEq] at hstep
    subst hstep
    exact ⟨hholds, .inl ⟨by simp, hstate⟩⟩
  | failed stored =>
    simp only [Answer.isOk, Bool.false_eq_true, if_false, some.injEq] at hstep
    subst hstep
    exact ⟨hholds, crashSafe_of_metadataDeleted hone hstate (.inr hrecorded)⟩

theorem invariant_removeProbableRecord
    (h : Invariant r w s) (hphase : s.phase = .removeProbableRecord) (hstep : step r s e = some s') :
    Invariant r w s' := by
  obtain ⟨hholds, hat⟩ := h
  rw [AtPhase, hphase] at hat
  rw [step, hphase] at hstep
  simp only [hholds.oidStr, some.injEq] at hstep
  subst hstep
  refine ⟨hholds, ?_⟩
  rcases hat with ⟨hdeleted, hstate⟩ | ⟨hlist, honly⟩
  · refine crashSafe_of_metadataDeleted hone hstate (.inl ?_)
    cases e <;> exact hdeleted
  · cases e with
    | ok => exact ⟨fun _ _ => .inl hlist, fun _ _ _ k rec hk => honly.removeRecord hk⟩
    | failed stored =>
      refine ⟨fun _ _ => .inl hlist, fun _ _ hfailed => ?_⟩
      simp [State.noted, Answer.isOk] at hfailed

/-- **Every answer keeps the invariant.** -/
theorem invariant_step (s : State) (e : Answer)
    (s' : State) (h : Invariant r w s) (hstep : step r s e = some s') : Invariant r w s' := by
  have hat := h.atPhase
  cases hphase : s.phase with
  | addObjectOidToProbableDeadOidList => exact invariant_addObjectOid h hphase hstep
  | removeObjectMetadata => exact invariant_removeObjectMetadata h hphase hstep
  | removeVersionMetadata =>
    rw [AtPhase, hphase] at hat
    rw [step, hphase, some.injEq] at hstep
    subst hstep
    simp only [sendResponseToS3Client, startcleanup, hone, gt_iff_lt, lt_irrefl, if_false]
    exact ⟨h.holdsRecord, hat, rfl⟩
  | markOidForDeletion => exact invariant_markOid hone h hphase hstep
  | deleteObject => exact invariant_deleteObject hone h hphase hstep
  | removeProbableRecord => exact invariant_removeProbableRecord hone h hphase hstep
  | done =>
    rw [step, hphase] at hstep
    cases hstep
  | _ =>
    rw [AtPhase, hphase] at hat
    exact hat.elim

theorem invariant_start
    (hlist : w.objectList = some r.objectMetadata) : Invariant r w (start r w) := by
  simp only [start, populate, if_pos hone]
  exact ⟨⟨_, rfl, rfl, rfl⟩, hlist, fun _ _ => rfl⟩

end

end OnePiece

/-! ### An object in parts -/

/-- A world that has the object and no record. -/
def untouched (m : S3ObjectMetadata) : World where
  objectList := some m
  versionList := true
  extendedIndex := fun _ => none
  probableDeleteIndex := fun _ => none

section Parts

variable {r : Request}

theorem isSome_mapM {α β : Type} {f : α → Option β} {l : List α} (h : ∀ a ∈ l, (f a).isSome) :
    (l.mapM f).isSome := by
  induction l with
  | nil => rfl
  | cons a rest ih =>
    obtain ⟨b, hb⟩ := isSome_iff_exists.mp (h a mem_cons_self)
    obtain ⟨bs, hbs⟩ :=
      isSome_iff_exists.mp (ih fun c hc => h c (mem_cons_of_mem _ hc))
    rw [mapM_cons, hb, hbs]
    rfl

theorem start_parts {w : World} (hfrags : r.objectMetadata.numberOfFragments ≠ 0)
    (hpieces : InPieces r.objectMetadata) :
    (start r w).phase = .removeObjectMetadata ∧ (start r w).world = w := by
  obtain hone | ⟨hparts, hall⟩ := hpieces
  · exact absurd hone hfrags
  have hrecords : (addOidsToProbableDeadOidList r.bucket r.objectMetadata).isSome := by
    rw [addOidsToProbableDeadOidList, if_neg hparts, isSome_map]
    refine isSome_mapM fun i hi => ?_
    rw [isSome_map]
    exact hall i (mem_range.mp hi)
  obtain ⟨records, hrecords⟩ := isSome_iff_exists.mp hrecords
  simp only [start, populate, if_neg hfrags, hrecords, and_self]

theorem exists_not_crashSafe (hfrags : r.objectMetadata.numberOfFragments ≠ 0)
    (hpieces : InPieces r.objectMetadata) :
    ∃ s, Runs.Reachable (step r) (fun _ _ => True) (start r (untouched r.objectMetadata)) s ∧
      ¬ CrashSafe r.objectMetadata (untouched r.objectMetadata) s := by
  obtain ⟨hphase, hworld⟩ := start_parts (w := untouched r.objectMetadata) hfrags hpieces
  refine ⟨onDeleteMetadata r (start r (untouched r.objectMetadata)) .ok,
    .step .start .ok trivial (by rw [step, hphase]), fun h => ?_⟩
  obtain ⟨oid, hoid⟩ : ∃ oid, oid ∈ motrObjects r.objectMetadata := by
    obtain hone | ⟨hparts, hall⟩ := hpieces
    · exact absurd hone hfrags
    obtain ⟨frag, hfrag⟩ := isSome_iff_exists.mp (hall 0 (by omega))
    refine ⟨frag.motrOID, ?_⟩
    rw [motrObjects, if_neg hfrags, partOids, if_neg hparts, mem_filterMap]
    exact ⟨0, by simp; omega, by rw [hfrag, Option.map_some]⟩
  have hsafe := h.safe oid hoid
  simp only [onDeleteMetadata, Answer.isOk, if_true, World.Records] at hsafe
  rw [hworld] at hsafe
  simp [untouched] at hsafe

end Parts

/-! ### The result -/

/-- **An object can be deleted safely exactly when it is in one piece.** -/
theorem crash_safe_iff (r : Request) (hpieces : InPieces r.objectMetadata) :
    (∀ w, w.objectList = some r.objectMetadata →
      ∀ s, Runs.Reachable (step r) (fun _ _ => True) (start r w) s →
        CrashSafe r.objectMetadata w s) ↔
      r.objectMetadata.numberOfFragments = 0 := by
  constructor
  · intro h
    by_contra hfrags
    obtain ⟨s, hs, hunsafe⟩ := exists_not_crashSafe hfrags hpieces
    exact hunsafe (h _ rfl s hs)
  · intro hone w hlist s hs
    have hinv : Invariant r w s := Runs.Reachable.invariant (invariant_start hone hlist)
      (fun s e s' h _ hstep => invariant_step hone s e s' h hstep) hs
    exact hinv.crashSafe hone

/-- The delete of an object. -/
def sampleDelete (m : S3ObjectMetadata) : Request where
  bucket := sampleBucket
  objectMetadata := m
  delayedDelete := false

def samplePicture : S3ObjectMetadata := sampleObject "picture" 7 4096

/-- The metadata is deleted, the server stops, and the record leads to the object. -/
theorem crash_safe_iff_picture :
    ∃ s, Runs.run (step (sampleDelete samplePicture))
        (start (sampleDelete samplePicture) (untouched samplePicture)) [.ok, .ok] = some s ∧
      s.world.objectList = none ∧ s.world.deleted = [] ∧
      CrashSafe samplePicture (untouched samplePicture) s :=
  ⟨_, rfl, rfl, rfl, (crash_safe_iff (sampleDelete samplePicture) (.inl rfl)).mpr rfl _ rfl _
    (Runs.reachable_of_run [.ok, .ok] .start ⟨trivial, fun _ _ => ⟨trivial, fun _ _ => trivial⟩⟩ rfl)⟩

/-- The metadata is deleted, the server stops, and nothing leads to the part any more. -/
theorem not_crash_safe_recording :
    InPieces sampleLoadedFilm ∧
      ∃ s, Runs.Reachable (step (sampleDelete sampleLoadedFilm)) (fun _ _ => True)
          (start (sampleDelete sampleLoadedFilm) (untouched sampleLoadedFilm)) s ∧
        sampleFilmPart ∈ motrObjects sampleLoadedFilm ∧ s.world.objectList = none ∧
        s.world.deleted = [] ∧ (∀ k, s.world.probableDeleteIndex k = none) ∧
        ¬ CrashSafe sampleLoadedFilm (untouched sampleLoadedFilm) s := by
  refine ⟨.inr ⟨by decide, fun i hi => ?_⟩, ?_⟩
  · obtain rfl : i = 0 := by
      change i < 1 at hi
      omega
    rfl
  · refine ⟨_, .step .start .ok trivial rfl, by decide, rfl, rfl, fun _ => rfl, fun h => ?_⟩
    rcases h.safe sampleFilmPart (by decide) with hlist | hdeleted | ⟨k, rec, hrec, -⟩
    · cases hlist
    · cases hdeleted
    · cases hrec

end S3DeleteObjectAction

end CortxS3
