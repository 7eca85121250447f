/-
The list of objects that a bulk delete hands to Motr.

When a batch is finished, its objects are appended to the list one by one, and behind each of them
all parts of all objects of the batch.  The invariant says what belongs to the batch (`Pending`):
the parts at hand are those of its objects, the objects have different names, and the layouts and
pool versions stand at the same places.  So the lists always go together, and an identifier comes
twice when a batch has parts and more than one object, or an object that is on the list from an
earlier batch.

The second needs a delete of metadata that reports success and leaves a key, and a request that
names the key again.
-/
import CortxS3.Server.BulkDeleteVectors
import CortxS3.Proofs.DeleteMultipleObjectsListed

namespace CortxS3

open Option (bind_eq_some_iff some.inj)
open List

namespace S3DeleteMultipleObjectsAction

/-! ### The fragments of an object -/

/-- The identifiers of the fragments. -/
def fragmentOids (m : S3ObjectMetadata) : List M0Uint128 := (objectFragments m).map (·.motrOID)

theorem eq_filterMap_of_mapM {α β γ : Type} {f : α → Option β} {g : β → γ} :
    ∀ {l : List α} {rs : List γ}, l.mapM (fun a => (f a).map g) = some rs →
      rs = (l.filterMap f).map g := by
  intro l
  induction l with
  | nil =>
    intro rs h
    rw [mapM_nil] at h
    cases h
    rfl
  | cons a l ih =>
    intro rs h
    rw [mapM_cons] at h
    obtain ⟨c, hc, h⟩ := bind_eq_some_iff.mp h
    obtain ⟨rest, hrest, h⟩ := bind_eq_some_iff.mp h
    obtain ⟨b, hb, rfl⟩ := Option.map_eq_some_iff.mp hc
    cases h
    rw [filterMap_cons, hb, map_cons, ← ih hrest]

variable {m : S3ObjectMetadata}

theorem objectExtendedOids_eq {bucket : BucketIndexes} {records : List S3ProbableDeleteRecord}
    (h : objectRecords bucket m = some records) :
    objectExtendedOids m records = fragmentOids m := by
  unfold objectRecords at h
  unfold objectExtendedOids fragmentOids objectFragments
  by_cases hfrag : m.numberOfFragments = 0
  · rw [if_pos hfrag, if_pos (.inl hfrag), map_nil]
  · rw [if_neg hfrag] at h ⊢
    by_cases hext : m.extended = none
    · rw [if_pos hext] at h
      obtain rfl := some.inj h
      rw [if_pos (.inr hext), map_nil, map_nil]
    · rw [if_neg hext] at h
      rw [eq_filterMap_of_mapM h, if_neg (not_or.mpr ⟨hfrag, hext⟩), map_map]
      rfl

theorem fragmentOids_cases {w₀ : World} (hown : OwnName w₀) (hstored : Stored w₀ m)
    (hloaded : LoadedOwn w₀ m) : fragmentOids m = [] ∨ fragmentOids m = partOids w₀ m := by
  unfold fragmentOids objectFragments
  by_cases hnone : m.numberOfFragments = 0 ∨ m.extended = none
  · rw [if_pos hnone]
    exact .inl rfl
  · rw [if_neg hnone]
    rw [not_or] at hnone
    obtain ⟨hfrag, hext⟩ := hnone
    obtain ⟨ext, hext⟩ := Option.ne_none_iff_exists'.mp hext
    refine .inr ?_
    rw [totalObjects_of_stored hown hstored hfrag, partOids, partKeys, filterMap_map, map_filterMap]
    refine filterMap_congr fun i hi => ?_
    obtain ⟨frag, hat, hindex⟩ := hloaded ext hext i (mem_range.mp hi)
    rw [Function.comp_apply, hat, hindex]
    rfl

/-! ### What a batch appends -/

/-- An object and its parts are all different. -/
def Whole (w : World) : Prop :=
  ∀ k m, w.objectList k = some (.object m) → (ownedOids w m).Nodup

/-- The objects of a batch with the parts that are at hand. -/
structure Pending (w₀ : World) (s : State) : Prop where
  stored : ∀ m ∈ s.objectsMetadata, Stored w₀ m
  names : (s.objectsMetadata.map (·.objectName)).Nodup
  loaded : ∀ m ∈ s.objectsMetadata, LoadedOwn w₀ m
  parts : s.extendedOidsToDelete = s.objectsMetadata.flatMap fragmentOids

/-- The keys of the batches that have been appended. -/
def noteAppended (sv : State × Vectors) (e : Event) (keys : List Bytes) : List Bytes :=
  if appends sv.1 e then keys ++ sv.1.objectsMetadata.map (·.objectName) else keys

/-- On the list are the objects of these keys, and nothing but them and their parts. -/
structure Appended (w₀ : World) (s : State) (keys : List Bytes) : Prop where
  listed : ∀ k ∈ keys, ∃ m, w₀.objectList k = some (.object m) ∧ m.oid ∈ s.oidsToDelete
  owned : ∀ oid ∈ s.oidsToDelete, ∃ k ∈ keys, ∃ m, w₀.objectList k = some (.object m) ∧
    oid ∈ ownedOids w₀ m

/-- The batch can be appended without naming an object twice. -/
def AppendsNew (s : State) (keys : List Bytes) : Prop :=
  (s.objectsMetadata.length ≤ 1 ∨ s.extendedOidsToDelete = []) ∧
    ∀ m ∈ s.objectsMetadata, m.objectName ∉ keys

section Append

variable {w₀ : World} {s : State} {keys : List Bytes}

theorem Pending.owned (hown : OwnName w₀) (h : Pending w₀ s) {oid : M0Uint128}
    (hoid : oid ∈ pendingOids s) : ∃ m ∈ s.objectsMetadata, oid ∈ ownedOids w₀ m := by
  obtain ⟨m, hm, hoid⟩ := mem_flatMap.mp hoid
  rcases mem_cons.mp hoid with rfl | hoid
  · exact ⟨m, hm, mem_cons_self⟩
  · rw [h.parts] at hoid
    obtain ⟨m', hm', hoid⟩ := mem_flatMap.mp hoid
    refine ⟨m', hm', mem_cons_of_mem _ ?_⟩
    rcases fragmentOids_cases hown (h.stored m' hm') (h.loaded m' hm') with hnil | hparts
    · rw [hnil] at hoid
      cases hoid
    · rw [← hparts]
      exact hoid

theorem Pending.nodup_oids (hsep : Separate w₀) (h : Pending w₀ s) :
    (s.objectsMetadata.map (·.oid)).Nodup := by
  have hnames := h.names
  rw [List.Nodup, pairwise_map] at hnames ⊢
  refine hnames.imp_of_mem fun {m m'} hm hm' hne heq => ?_
  obtain ⟨m₀, hm₀, hbare⟩ := h.stored m hm
  obtain ⟨m₁, hm₁, hbare'⟩ := h.stored m' hm'
  have hoid : m₀.oid = m.oid := (congrArg (·.oid) hbare).symm
  have hoid' : m₁.oid = m'.oid := (congrArg (·.oid) hbare').symm
  refine hsep _ m₀ _ m₁ hm₀ hm₁ hne m₀.oid mem_cons_self ?_
  rw [hoid, heq, ← hoid']
  exact mem_cons_self

theorem Pending.nodup_of_one (hown : OwnName w₀) (hwhole : Whole w₀) (h : Pending w₀ s)
    (hone : s.objectsMetadata.length ≤ 1) : (pendingOids s).Nodup := by
  unfold pendingOids
  rw [h.parts]
  cases hobjects : s.objectsMetadata with
  | nil => exact nodup_nil
  | cons m rest =>
    have hrest : rest = [] := by
      rw [hobjects, length_cons] at hone
      exact length_eq_zero_iff.mp (by omega)
    have hm : m ∈ s.objectsMetadata := by
      rw [hobjects]
      exact mem_cons_self
    obtain ⟨m₀, hm₀, hbare⟩ := h.stored m hm
    have howned : (ownedOids w₀ m).Nodup := by
      rw [ownedOids_congr w₀ hbare]
      exact hwhole _ m₀ hm₀
    rw [hrest, flatMap_singleton, flatMap_singleton]
    rcases fragmentOids_cases hown (h.stored m hm) (h.loaded m hm) with hnil | hparts
    · rw [hnil]
      exact nodup_singleton _
    · rw [hparts]
      exact howned

theorem Pending.nodup_of_noParts (hsep : Separate w₀) (h : Pending w₀ s)
    (hparts : s.extendedOidsToDelete = []) : (pendingOids s).Nodup := by
  have hpending : pendingOids s = s.objectsMetadata.map (·.oid) := by
    unfold pendingOids
    rw [hparts]
    exact map_eq_flatMap.symm
  rw [hpending]
  exact h.nodup_oids hsep

/-- **A batch is appended without naming an object twice exactly when it is of one object or has no
parts, and none of its keys was appended before.** -/
theorem nodup_append_pending_iff (hown : OwnName w₀) (hsep : Separate w₀) (hwhole : Whole w₀)
    (hpending : Pending w₀ s) (hlisted : Appended w₀ s keys) :
    (s.oidsToDelete ++ pendingOids s).Nodup ↔ s.oidsToDelete.Nodup ∧ AppendsNew s keys := by
  constructor
  · intro h
    obtain ⟨hold, hnew, hdisjoint⟩ := nodup_append.mp h
    refine ⟨hold, ?_, fun m hm hmem => ?_⟩
    · by_contra hboth
      rw [not_or] at hboth
      obtain ⟨hmany, hparts⟩ := hboth
      obtain ⟨oid, hoid⟩ := exists_mem_of_ne_nil _ hparts
      unfold pendingOids at hnew
      cases hobjects : s.objectsMetadata with
      | nil => exact hmany (by rw [hobjects]; exact Nat.zero_le _)
      | cons m rest =>
        cases hrest : rest with
        | nil => exact hmany (by rw [hobjects, hrest]; exact le_rfl)
        | cons m' rest' =>
          rw [hobjects, hrest, flatMap_cons, flatMap_cons] at hnew
          exact (nodup_append.mp hnew).2.2 oid (mem_cons_of_mem _ hoid) oid
            (mem_append_left _ (mem_cons_of_mem _ hoid)) rfl
    · obtain ⟨m₁, hm₁, hlist⟩ := hlisted.listed _ hmem
      obtain ⟨m₀, hm₀, hbare⟩ := hpending.stored m hm
      rw [hm₁] at hm₀
      cases hm₀
      have hoid : m.oid = m₁.oid := congrArg (·.oid) hbare
      exact hdisjoint m.oid (hoid ▸ hlist) m.oid
        (mem_flatMap.mpr ⟨m, hm, mem_cons_self⟩) rfl
  · rintro ⟨hold, honce, hnew⟩
    refine nodup_append.mpr ⟨hold, ?_, ?_⟩
    · exact honce.elim (hpending.nodup_of_one hown hwhole) (hpending.nodup_of_noParts hsep)
    · intro oid hmem oid' hoid' heq
      rw [← heq] at hoid'
      obtain ⟨m, hm, howned⟩ := hpending.owned hown hoid'
      obtain ⟨k, hk, m₁, hm₁, howned₁⟩ := hlisted.owned oid hmem
      obtain ⟨m₀, hm₀, hbare⟩ := hpending.stored m hm
      rw [ownedOids_congr w₀ hbare] at howned
      -- an identifier belongs to one object, whose key was appended
      have hne : m.objectName ≠ k := fun he => hnew m hm (he ▸ hk)
      exact hsep _ m₀ _ m₁ hm₀ hm₁ hne oid howned howned₁

end Append

/-! ### The invariant -/

/-- The layouts and the pool versions of a list of objects, as they were created. -/
structure Along (created : M0Uint128 → Int × M0Fid) (oids : List M0Uint128) (layouts : List Int)
    (pvIds : List M0Fid) : Prop where
  layouts : layouts = oids.map fun oid => (created oid).1
  pvIds : pvIds = oids.map fun oid => (created oid).2

theorem Along.append {created : M0Uint128 → Int × M0Fid} {oids oids' : List M0Uint128}
    {layouts layouts' : List Int} {pvIds pvIds' : List M0Fid} (h : Along created oids layouts pvIds)
    (h' : Along created oids' layouts' pvIds') :
    Along created (oids ++ oids') (layouts ++ layouts') (pvIds ++ pvIds') where
  layouts := by rw [h.layouts, h'.layouts, map_append]
  pvIds := by rw [h.pvIds, h'.pvIds, map_append]

/-- The lists of everything go together. -/
def Aligned (created : M0Uint128 → Int × M0Fid) (s : State) (v : Vectors) : Prop :=
  Along created s.oidsToDelete v.layoutIdForObjsToDelete v.pvIdsToDelete

/-- Metadata names the layout and the pool version its object was created with. -/
def CreatedAs (created : M0Uint128 → Int × M0Fid) (w : World) : Prop :=
  ∀ k m, w.objectList k = some (.object m) →
    created m.oid = (m.layoutId, S3M0Uint128Helper.toM0Fid m.pvidStr)

/-- So do the fragments of an object. -/
def FragmentsCreatedAs (created : M0Uint128 → Int × M0Fid) (m : S3ObjectMetadata) : Prop :=
  ∀ frag ∈ objectFragments m, created frag.motrOID = ((frag.layoutId : Int), frag.pvid)

/-- Extended metadata that is loaded is what the index and Motr hold. -/
def LoadsStored (created : M0Uint128 → Int × M0Fid) (sv : State × Vectors) (e : Event) : Prop :=
  match sv.1.phase, e with
  | .fetchObjectsExtendedInfo _ m _, .extendedLoaded (some own) =>
    LoadsOwn sv.1.world m own ∧ FragmentsCreatedAs created { m with extended := some own }
  | _, _ => True

/-- A batch whose parts are at hand, with their layouts and pool versions. -/
structure Ready (created : M0Uint128 → Int × M0Fid) (w₀ : World) (s : State) (v : Vectors) :
    Prop where
  pending : Pending w₀ s
  parts : Along created s.extendedOidsToDelete v.extendedLayoutIdForObjsToDelete
    v.extendedPvIdsToDelete

/-- What holds of the batch in each phase. -/
def BatchReady (created : M0Uint128 → Int × M0Fid) (w₀ : World) (s : State) (v : Vectors) : Prop :=
  match s.phase with
  | .fetchObjectsExtendedInfo before _ after =>
    s.extendedOidsToDelete = [] ∧ v.extendedLayoutIdForObjsToDelete = [] ∧
      v.extendedPvIdsToDelete = [] ∧ ((batch s).map (·.objectName)).Nodup ∧
      (∀ m ∈ before, LoadedOwn w₀ m ∧ FragmentsCreatedAs created m) ∧
      ∀ m ∈ after, m.extended = none
  | .putProbableDelete _ => Ready created w₀ s v
  | .deleteObjectsMetadata => Ready created w₀ s v
  | .deleteExtendedMetadata => Ready created w₀ s v
  | _ => True

/-- **What holds of the lists in every run.** -/
structure Lists (created : M0Uint128 → Int × M0Fid) (w₀ : World) (sv : State × Vectors)
    (keys : List Bytes) : Prop where
  base : Base w₀ sv.1
  listed : Appended w₀ sv.1 keys
  aligned : Aligned created sv.1 sv.2
  batch : BatchReady created w₀ sv.1 sv.2

section Steps

variable {created : M0Uint128 → Int × M0Fid} {r : Request} {w₀ : World} {s t : State} {v : Vectors}
variable {keys : List Bytes}

theorem Appended.of_eq (h : Appended w₀ s keys) (hoids : t.oidsToDelete = s.oidsToDelete) :
    Appended w₀ t keys := by
  constructor
  · rw [hoids]
    exact h.listed
  · rw [hoids]
    exact h.owned

theorem Aligned.of_eq (h : Aligned created s v) (hoids : t.oidsToDelete = s.oidsToDelete) :
    Aligned created t v := by
  unfold Aligned
  rw [hoids]
  exact h

theorem Tail.batchReady (h : Tail r s t) : BatchReady created w₀ t v := by
  unfold BatchReady
  rcases h.phase with hp | hp | ⟨hp, -⟩ | ⟨hp, -⟩ | ⟨hp, -⟩ <;> rw [hp] <;> trivial

theorem along_fragments (objects : List S3ObjectMetadata)
    (h : ∀ m ∈ objects, FragmentsCreatedAs created m) :
    Along created (objects.flatMap fragmentOids)
      ((objects.flatMap objectFragments).map fun frag => (frag.layoutId : Int))
      ((objects.flatMap objectFragments).map (·.pvid)) := by
  have hoids : objects.flatMap fragmentOids = (objects.flatMap objectFragments).map (·.motrOID) := by
    rw [map_flatMap]
    rfl
  have hcreated : ∀ frag ∈ objects.flatMap objectFragments,
      created frag.motrOID = ((frag.layoutId : Int), frag.pvid) := by
    intro frag hfrag
    obtain ⟨m, hm, hfrag⟩ := mem_flatMap.mp hfrag
    exact h m hm frag hfrag
  rw [hoids]
  constructor
  · rw [map_map]
    exact map_congr_left fun frag hfrag => by
      rw [Function.comp_apply, hcreated frag hfrag]
  · rw [map_map]
    exact map_congr_left fun frag hfrag => by
      rw [Function.comp_apply, hcreated frag hfrag]

theorem flatMap_extendedOids {bucket : BucketIndexes} {objects : List S3ObjectMetadata}
    {records : List (List S3ProbableDeleteRecord)}
    (h : List.Forall₂ (fun m rs => objectRecords bucket m = some rs) objects records) :
    ((objects.zip records).flatMap fun p => objectExtendedOids p.1 p.2) =
      objects.flatMap fragmentOids := by
  induction h with
  | nil => rfl
  | cons hm _ ih =>
    rw [zip_cons_cons, flatMap_cons, flatMap_cons, ih, objectExtendedOids_eq hm]

theorem ready_addObjectOid (hstored : ∀ m ∈ s.objectsMetadata, Stored w₀ m)
    (hnames : (s.objectsMetadata.map (·.objectName)).Nodup)
    (hloaded : ∀ m ∈ s.objectsMetadata, LoadedOwn w₀ m ∧ FragmentsCreatedAs created m)
    (hoids : s.extendedOidsToDelete = []) (hlayouts : v.extendedLayoutIdForObjsToDelete = [])
    (hpvids : v.extendedPvIdsToDelete = []) :
    BatchReady created w₀ (addObjectOidToProbableDeadOidList r s) (v.addFragments s.objectsMetadata) ∧
      (addObjectOidToProbableDeadOidList r s).oidsToDelete = s.oidsToDelete := by
  rcases addObjectOid_cases (r := r) s with h | ⟨records, hrecords, h⟩ <;> rw [h]
  · exact ⟨trivial, rfl⟩
  · have hparts := flatMap_extendedOids hrecords
    refine ⟨⟨⟨hstored, hnames, fun m hm => (hloaded m hm).1, ?_⟩, ?_⟩, rfl⟩
    · dsimp only
      rw [hoids, hparts, nil_append]
    · dsimp only [Vectors.addFragments]
      rw [hoids, hlayouts, hpvids, hparts, nil_append, nil_append, nil_append]
      exact along_fragments s.objectsMetadata fun m hm => (hloaded m hm).2

variable {after : List S3ObjectMetadata}

theorem load_simple (v : Vectors) (h : ∀ o ∈ after, o.numberOfFragments = 0)
    (before : List S3ObjectMetadata) : v.load before after = v.addFragments (before ++ after) := by
  induction after generalizing before with
  | nil => rw [Vectors.load, append_nil]
  | cons m after ih =>
    rw [Vectors.load, if_pos (h m mem_cons_self),
      ih (fun o ho => h o (mem_cons_of_mem _ ho)), append_assoc]
    rfl

variable {m : S3ObjectMetadata}

theorem load_parts (v : Vectors) {simple : List S3ObjectMetadata}
    (h : ∀ o ∈ simple, o.numberOfFragments = 0) (hm : m.numberOfFragments ≠ 0)
    (rest before : List S3ObjectMetadata) : v.load before (simple ++ m :: rest) = v := by
  induction simple generalizing before with
  | nil => rw [nil_append, Vectors.load, if_neg hm]
  | cons o simple ih =>
    rw [cons_append, Vectors.load, if_pos (h o mem_cons_self)]
    exact ih (fun o' ho' => h o' (mem_cons_of_mem _ ho')) _

theorem loaded_of_none (h : m.extended = none) : LoadedOwn w₀ m ∧ FragmentsCreatedAs created m := by
  constructor
  · intro ext hext
    rw [h] at hext
    cases hext
  · intro frag hfrag
    rw [objectFragments, if_pos (.inr h)] at hfrag
    cases hfrag

variable (created r s v) in
theorem ready_fetchObjectsExtendedInfo (before : List S3ObjectMetadata)
    (hstored : ∀ m ∈ before ++ after, Stored w₀ m)
    (hnames : ((before ++ after).map (·.objectName)).Nodup)
    (hloaded : ∀ m ∈ before, LoadedOwn w₀ m ∧ FragmentsCreatedAs created m)
    (hafter : ∀ m ∈ after, m.extended = none) (hoids : s.extendedOidsToDelete = [])
    (hlayouts : v.extendedLayoutIdForObjsToDelete = []) (hpvids : v.extendedPvIdsToDelete = []) :
    BatchReady created w₀ (fetchObjectsExtendedInfo r s before after) (v.load before after) ∧
      (fetchObjectsExtendedInfo r s before after).oidsToDelete = s.oidsToDelete := by
  rcases fetchObjectsExtendedInfo_cases (r := r) s after before with
    ⟨simple, m, rest, rfl, hsimple, hm, h⟩ | ⟨hsimple, h⟩ <;> rw [h]
  · rw [load_parts v hsimple hm]
    refine ⟨⟨hoids, hlayouts, hpvids, ?_, ?_, ?_⟩, rfl⟩
    · show (((before ++ simple) ++ m :: rest).map (·.objectName)).Nodup
      rw [append_assoc]
      exact hnames
    · intro o ho
      rcases mem_append.mp ho with ho | ho
      · exact hloaded o ho
      · exact loaded_of_none (hafter o (mem_append_left _ ho))
    · intro o ho
      exact hafter o (mem_append_right _ (mem_cons_of_mem _ ho))
  · rw [load_simple v hsimple]
    refine ready_addObjectOid (s := { s with objectsMetadata := before ++ after }) hstored hnames ?_
      hoids hlayouts hpvids
    intro o ho
    rcases mem_append.mp ho with ho | ho
    · exact hloaded o ho
    · exact loaded_of_none (hafter o ho)

theorem nodup_objectNames (hown : OwnName w₀) (hbase : Base w₀ s) (unreadable : Bytes → Bool) :
    (((readPairs s unreadable).filterMap objectOf).map (·.objectName)).Nodup := by
  have hnames : ∀ kv ∈ readPairs s unreadable, ∀ m, objectOf kv = some m → m.objectName = kv.1 := by
    intro kv hkv m hm
    obtain ⟨m₀, hval, rfl⟩ := objectOf_eq_some hm
    have hread := (mem_readPairs hkv).2
    rw [hval] at hread
    split at hread
    · cases hread
    · exact hown.name _ m₀ (hbase.objectList _ _ hread.symm)
  have hkeys : ((readPairs s unreadable).map (·.1)).Nodup :=
    (SortedMap.sorted_ofWrites _).nodup_keys
  rw [List.Nodup, pairwise_map] at hkeys
  rw [List.Nodup, pairwise_map, pairwise_filterMap]
  refine hkeys.imp_of_mem fun {kv kv'} hkv hkv' hne m hm m' hm' => ?_
  rw [hnames kv hkv m hm, hnames kv' hkv' m' hm']
  exact hne

theorem aligned_finishedState (hcreated : CreatedAs created w₀) (h : Aligned created s v)
    (hready : Ready created w₀ s v) :
    Aligned created (finishedState s) (v.finish s.objectsMetadata) := by
  refine Along.append h ?_
  have hobject : ∀ m ∈ s.objectsMetadata,
      created m.oid = (m.layoutId, S3M0Uint128Helper.toM0Fid m.pvidStr) := by
    intro m hm
    obtain ⟨m₀, hm₀, hbare⟩ := hready.pending.stored m hm
    have hoid : m.oid = m₀.oid := congrArg (·.oid) hbare
    have hlayout : m.layoutId = m₀.layoutId := congrArg (·.layoutId) hbare
    have hpvid : m.pvidStr = m₀.pvidStr := congrArg (·.pvidStr) hbare
    rw [hoid, hlayout, hpvid]
    exact hcreated _ m₀ hm₀
  constructor
  · rw [hready.parts.layouts, map_flatMap]
    refine flatMap_congr fun m hm => ?_
    rw [map_cons, hobject m hm]
  · rw [hready.parts.pvIds, map_flatMap]
    refine flatMap_congr fun m hm => ?_
    rw [map_cons, hobject m hm]

theorem appended_finishedState (hown : OwnName w₀) (h : Appended w₀ s keys)
    (hpending : Pending w₀ s) :
    Appended w₀ (finishedState s) (keys ++ s.objectsMetadata.map (·.objectName)) := by
  constructor
  · intro k hk
    rcases mem_append.mp hk with hk | hk
    · obtain ⟨m, hm, hlist⟩ := h.listed k hk
      exact ⟨m, hm, mem_append_left _ hlist⟩
    · obtain ⟨m, hm, rfl⟩ := mem_map.mp hk
      obtain ⟨m₀, hm₀, hbare⟩ := hpending.stored m hm
      have hoid : m₀.oid = m.oid := (congrArg (·.oid) hbare).symm
      refine ⟨m₀, hm₀, mem_append_right _ ?_⟩
      rw [hoid]
      exact mem_flatMap.mpr ⟨m, hm, mem_cons_self⟩
  · intro oid hoid
    rcases mem_append.mp hoid with hold | hnew
    · obtain ⟨k, hk, m, hm, howned⟩ := h.owned oid hold
      exact ⟨k, mem_append_left _ hk, m, hm, howned⟩
    · obtain ⟨m, hm, howned⟩ := hpending.owned hown hnew
      obtain ⟨m₀, hm₀, hbare⟩ := hpending.stored m hm
      rw [ownedOids_congr w₀ hbare] at howned
      exact ⟨_, mem_append_right _ (mem_map.mpr ⟨m, hm, rfl⟩), m₀, hm₀, howned⟩

variable {e : Event}

theorem ready_of_appends (h : BatchReady created w₀ s v) (happ : appends s e = true) :
    Ready created w₀ s v := by
  unfold appends at happ
  unfold BatchReady at h
  split at happ
  · next hphase => simpa only [hphase] using h
  · next hphase => simpa only [hphase] using h
  · cases happ

/-- What is left alone by an answer that finishes no batch. -/
structure SameLists (s t : State) (v v' : Vectors) : Prop where
  oids : t.oidsToDelete = s.oidsToDelete
  layouts : v'.layoutIdForObjsToDelete = v.layoutIdForObjsToDelete
  pvIds : v'.pvIdsToDelete = v.pvIdsToDelete

theorem sameLists_load (v : Vectors) (before after : List S3ObjectMetadata) :
    (v.load before after).layoutIdForObjsToDelete = v.layoutIdForObjsToDelete ∧
      (v.load before after).pvIdsToDelete = v.pvIdsToDelete := by
  induction after generalizing before with
  | nil => exact ⟨rfl, rfl⟩
  | cons m after ih =>
    rw [Vectors.load]
    split
    · exact ih _
    · exact ⟨rfl, rfl⟩

variable (created r v) in
theorem getKeyvalSuccessful_lists (hown : OwnName w₀) (hbase : Base w₀ s)
    (hphase : s.phase = .fetchObjectsInfo) (unreadable : Bytes → Bool) :
    BatchReady created w₀ (getKeyvalSuccessful r s unreadable) (v.step s (.fetched unreadable)) ∧
      SameLists s (getKeyvalSuccessful r s unreadable) v (v.step s (.fetched unreadable)) := by
  have hvectors : v.step s (.fetched unreadable) =
      if (readPairs s unreadable).all (·.2.isNone) then v
      else if (readPairs s unreadable).filterMap objectOf = [] then
        { v with extendedLayoutIdForObjsToDelete := [], extendedPvIdsToDelete := [] }
      else Vectors.load { v with extendedLayoutIdForObjsToDelete := [], extendedPvIdsToDelete := [] }
        [] ((readPairs s unreadable).filterMap objectOf) := by
    unfold Vectors.step
    rw [hphase]
    rfl
  rw [hvectors]
  rcases getKeyvalSuccessful_cases (r := r) s unreadable with ⟨hnone, heq⟩ | ⟨hsome, heq⟩ <;> rw [heq]
  · have hall : (readPairs s unreadable).all (·.2.isNone) = true := by
      refine all_eq_true.mpr fun kv hkv => ?_
      rw [hnone kv hkv]
      rfl
    rw [if_pos hall]
    have htail := tail_fetchRemaining (r := r) { s with success := s.success ++ s.keysToDelete }
    exact ⟨htail.batchReady, htail.oidsToDelete, rfl, rfl⟩
  · have hall : ¬ (readPairs s unreadable).all (·.2.isNone) = true := by
      intro hall
      obtain ⟨kv, hkv, hne⟩ := hsome
      exact hne (Option.isNone_iff_eq_none.mp (all_eq_true.mp hall kv hkv))
    rw [if_neg hall]
    rcases fetchObjectsInfoSuccessful_cases (r := r) s (readPairs s unreadable) with
      ⟨hnil, heq⟩ | ⟨hnil, heq⟩ <;> rw [heq]
    · rw [if_pos hnil]
      have htail := tail_fetchRemainingOrFail (r := r) (fetchedState s (readPairs s unreadable))
      exact ⟨htail.batchReady, htail.oidsToDelete, rfl, rfl⟩
    · rw [if_neg hnil]
      have hobjects : ∀ m ∈ (readPairs s unreadable).filterMap objectOf, m.extended = none := by
        intro m hm
        obtain ⟨kv, _, hof⟩ := mem_filterMap.mp hm
        obtain ⟨m₀, _, rfl⟩ := objectOf_eq_some hof
        rfl
      obtain ⟨hready, hoids⟩ := ready_fetchObjectsExtendedInfo created r
        (fetchedState s (readPairs s unreadable))
        { v with extendedLayoutIdForObjsToDelete := [], extendedPvIdsToDelete := [] }
        [] (fun m hm => stored_of_mem_objects hown hbase.objectList hm)
        (nodup_objectNames hown hbase unreadable) nofun hobjects rfl rfl rfl
      obtain ⟨hlayouts, hpvids⟩ := sameLists_load
        { v with extendedLayoutIdForObjsToDelete := [], extendedPvIdsToDelete := [] } []
        ((readPairs s unreadable).filterMap objectOf)
      exact ⟨hready, hoids, hlayouts, hpvids⟩

/-- **An answer leaves the lists alone, or it finishes a batch that is ready.** -/
theorem step_lists (hown : OwnName w₀) (hbase : Base w₀ s) (hbatch : BatchReady created w₀ s v)
    (hok : LoadsStored created (s, v) e) (hstep : step r s e = some t) :
    BatchReady created w₀ t (v.step s e) ∧
      ((appends s e = false ∧ SameLists s t v (v.step s e)) ∨
        (appends s e = true ∧ v.step s e = v.finish s.objectsMetadata ∧
          t.oidsToDelete = s.oidsToDelete ++ pendingOids s)) := by
  have hstored := hbase.stored
  unfold batch at hstored
  unfold BatchReady at hbatch
  unfold LoadsStored at hok
  unfold step at hstep
  -- most answers append nothing and leave the lists as they are
  have hkept : appends s e = false ∧ v.step s e = v → BatchReady created w₀ t v →
      t.oidsToDelete = s.oidsToDelete → BatchReady created w₀ t (v.step s e) ∧
        ((appends s e = false ∧ SameLists s t v (v.step s e)) ∨
          (appends s e = true ∧ v.step s e = v.finish s.objectsMetadata ∧
            t.oidsToDelete = s.oidsToDelete ++ pendingOids s)) := by
    rintro ⟨happ, hvectors⟩ hready hoids
    rw [hvectors]
    exact ⟨hready, .inl ⟨happ, hoids, rfl, rfl⟩⟩
  split at hstep <;> cases hstep
  · next unreadable hphase =>
      obtain ⟨hready, hsame⟩ := getKeyvalSuccessful_lists created r v hown hbase
        hphase unreadable
      exact ⟨hready, .inl ⟨by simp [appends, hphase], hsame⟩⟩
  · next missing hphase =>
      have htail := tail_fetchObjectsInfoFailed (r := r) s missing
      exact hkept (by simp [Vectors.step, appends, hphase]) htail.batchReady htail.oidsToDelete
  · next before m after ext hphase =>
      simp only [hphase] at hbatch hok hstored
      obtain ⟨hoids, hlayouts, hpvids, hnames, hloaded, hafter⟩ := hbatch
      have hvectors : v.step s (.extendedLoaded ext) =
          v.load (before ++ [{ m with extended := ext }]) after := by
        simp only [Vectors.step, hphase]
      rw [hvectors]
      have hm : LoadedOwn w₀ { m with extended := ext } ∧
          FragmentsCreatedAs created { m with extended := ext } := by
        cases ext with
        | none => exact loaded_of_none rfl
        | some own =>
          obtain ⟨hload, hfragments⟩ := hok
          refine ⟨fun ext' hext' i hi => ?_, hfragments⟩
          obtain rfl := some.inj hext'
          obtain ⟨frag, hat, hindex⟩ := hload i hi
          exact ⟨frag, hat, hbase.extendedIndex _ _ hindex⟩
      have hnames' : ((before ++ [{ m with extended := ext }] ++ after).map
          fun o : S3ObjectMetadata => o.objectName).Nodup := by
        unfold batch at hnames
        rw [hphase] at hnames
        rw [append_assoc]
        simpa using hnames
      have hstored' : ∀ o ∈ before ++ [{ m with extended := ext }] ++ after, Stored w₀ o := by
        intro o ho
        rw [append_assoc] at ho
        rcases mem_append.mp ho with ho | ho
        · exact hstored o (mem_append_left _ ho)
        · rcases mem_cons.mp ho with rfl | ho
          · exact hstored m (mem_append_right _ mem_cons_self)
          · exact hstored o (mem_append_right _ (mem_cons_of_mem _ ho))
      obtain ⟨hready, hsame⟩ := ready_fetchObjectsExtendedInfo created r _ _ _ hstored'
        hnames' (by
          intro o ho
          rcases mem_append.mp ho with ho | ho
          · exact hloaded o ho
          · rw [mem_singleton.mp ho]
            exact hm) hafter hoids hlayouts hpvids
      obtain ⟨hmain, hmainPv⟩ := sameLists_load v (before ++ [{ m with extended := ext }]) after
      exact ⟨hready, .inl ⟨by simp [appends, hphase], hsame, hmain, hmainPv⟩⟩
  · next deleteList result stored hphase =>
      simp only [hphase] at hbatch
      have hnone : appends s (.probablePut result stored) = false ∧
          v.step s (.probablePut result stored) = v := by
        simp [Vectors.step, appends, hphase]
      cases result with
      | failedToLaunch =>
        have htail := tail_sendResponse (r := r) { s with s3Error := some .ServiceUnavailable }
        exact hkept hnone htail.batchReady htail.oidsToDelete
      | failed =>
        have htail := tail_sendResponse (r := r) { s with
          world.probableDeleteIndex := putPairs deleteList stored s.world.probableDeleteIndex
          s3Error := some .InternalError }
        exact hkept hnone htail.batchReady htail.oidsToDelete
      | success =>
        exact hkept hnone ⟨⟨hbatch.pending.stored, hbatch.pending.names, hbatch.pending.loaded,
          hbatch.pending.parts⟩, hbatch.parts⟩ rfl
  · next result left hphase =>
      simp only [hphase] at hbatch
      cases result with
      | failedToLaunch =>
        have htail := tail_metadataDeleted_failedToLaunch (r := r) s left
        exact hkept (by simp [Vectors.step, appends, hphase]) htail.batchReady htail.oidsToDelete
      | failed =>
        have htail := tail_metadataDeleted_failed (r := r) s left
        exact hkept (by simp [Vectors.step, appends, hphase]) htail.batchReady htail.oidsToDelete
      | success =>
        have happ : appends s (.metadataDeleted .success left) =
            decide (s.extendedKeysListToBeDeleted = []) := by simp [appends, hphase]
        have hvectors : v.step s (.metadataDeleted .success left) =
            if appends s (.metadataDeleted .success left) then v.finish s.objectsMetadata else v := by
          simp only [Vectors.step, hphase]
        rw [hvectors, happ]
        rcases metadataDeleted_success_cases (r := r) s left with ⟨hkeys, htail⟩ | heq
        · rw [if_pos (decide_eq_true hkeys)]
          exact ⟨htail.batchReady, .inr ⟨decide_eq_true hkeys, rfl, htail.oidsToDelete⟩⟩
        · by_cases hkeys : s.extendedKeysListToBeDeleted = []
          · rw [if_pos (decide_eq_true hkeys)]
            have htail : Tail r (finishedState (afterMetadata s left))
                (metadataDeleted r s .success left) := by
              rw [show metadataDeleted r s .success left =
                deleteExtendedMetadataSuccessful r (afterMetadata s left) from if_pos hkeys]
              exact tail_deleteExtendedMetadataSuccessful _
            exact ⟨htail.batchReady, .inr ⟨decide_eq_true hkeys, rfl, htail.oidsToDelete⟩⟩
          · rw [heq, if_neg (by simpa using hkeys)]
            exact ⟨⟨⟨hbatch.pending.stored, hbatch.pending.names, hbatch.pending.loaded,
              hbatch.pending.parts⟩, hbatch.parts⟩, .inl ⟨decide_eq_false hkeys, rfl, rfl, rfl⟩⟩
  · next result left hphase =>
      have happ : appends s (.extendedDeleted result left) = true := by simp [appends, hphase]
      have hvectors : v.step s (.extendedDeleted result left) = v.finish s.objectsMetadata := by
        simp only [Vectors.step, happ, hphase, if_true]
      have htail := tail_deleteExtendedMetadataSuccessful (r := r) { s with
        world.extendedIndex := removeKeys s.extendedKeysListToBeDeleted (result.left left)
          s.world.extendedIndex }
      rw [hvectors]
      exact ⟨htail.batchReady, .inr ⟨happ, rfl, htail.oidsToDelete⟩⟩
  · next failed missing hphase =>
      have hvectors : v.step s (.objectsDeleted failed missing) = v := by
        simp [Vectors.step, appends, hphase]
      obtain ⟨l, heq⟩ := objectsDeleted_eq s failed missing
      rw [hvectors, heq]
      unfold cleanupOidFromProbableDeadOidList
      split <;> exact ⟨trivial, .inl ⟨by simp [appends, hphase], rfl, rfl, rfl⟩⟩
  · next hphase =>
      exact hkept (by simp [Vectors.step, appends, hphase]) trivial rfl
  · next result left hphase =>
      exact hkept (by simp [Vectors.step, appends, hphase]) trivial rfl

/-! ### Runs -/

/-- The condition for an answer: a batch that it finishes names nothing twice. -/
def AppendsNewWhen (p : (State × Vectors) × List Bytes) (e : Event) : Prop :=
  appends p.1.1 e = true → AppendsNew p.1.1 p.2

/-- **Every answer keeps the lists, and the identifiers stay different exactly when the condition is
met.** -/
theorem lists_step (hown : OwnName w₀) (hsep : Separate w₀) (hwhole : Whole w₀)
    (hcreated : CreatedAs created w₀) {sv sv' : State × Vectors} (h : Lists created w₀ sv keys)
    (hok : LoadsStored created sv e) (hstep : stepWithVectors r sv e = some sv') :
    Lists created w₀ sv' (noteAppended sv e keys) ∧
      (sv'.1.oidsToDelete.Nodup ↔ sv.1.oidsToDelete.Nodup ∧ AppendsNewWhen (sv, keys) e) := by
  obtain ⟨t, ht, rfl⟩ := Option.map_eq_some_iff.mp hstep
  obtain ⟨hbase, hlisted, haligned, hbatch⟩ := h
  have hbase' := base_step hown hbase ht
  unfold noteAppended AppendsNewWhen
  obtain ⟨hready, ⟨happ, hoids, hlayouts, hpvids⟩ | ⟨happ, hvectors, hoids⟩⟩ :=
    step_lists hown hbase hbatch hok ht
  · rw [happ]
    refine ⟨⟨hbase', hlisted.of_eq hoids, ?_, hready⟩, ?_⟩
    · have h := haligned.of_eq hoids
      exact ⟨hlayouts.trans h.layouts, hpvids.trans h.pvIds⟩
    · dsimp only
      rw [hoids]
      exact ⟨fun hnodup => ⟨hnodup, nofun⟩, fun hboth => hboth.1⟩
  · have hready₀ := ready_of_appends hbatch happ
    rw [happ]
    refine ⟨⟨hbase', ?_, ?_, hready⟩, ?_⟩
    · exact (appended_finishedState hown hlisted hready₀.pending).of_eq hoids
    · rw [hvectors]
      exact (aligned_finishedState hcreated haligned hready₀).of_eq hoids
    · dsimp only
      rw [hoids, nodup_append_pending_iff hown hsep hwhole hready₀.pending hlisted]
      exact and_congr_right fun _ => ⟨fun hnew _ => hnew, fun hnew => hnew rfl⟩

theorem lists_run (hown : OwnName w₀) (hsep : Separate w₀) (hwhole : Whole w₀)
    (hcreated : CreatedAs created w₀) :
    ∀ (es : List Event) {sv sv' : State × Vectors} {keys : List Bytes}, Lists created w₀ sv keys →
      Runs.AllOk (stepWithVectors r) (LoadsStored created) sv es →
      Runs.run (stepWithVectors r) sv es = some sv' →
      (∃ keys', Lists created w₀ sv' keys') ∧ (sv'.1.oidsToDelete.Nodup ↔
        sv.1.oidsToDelete.Nodup ∧
          Runs.AllOk (Runs.observe (stepWithVectors r) noteAppended) AppendsNewWhen (sv, keys) es) := by
  intro es
  induction es with
  | nil =>
    intro sv sv' keys h _ hrun
    rw [Runs.run, Option.some.injEq] at hrun
    subst hrun
    exact ⟨⟨keys, h⟩, by simp [Runs.AllOk]⟩
  | cons e rest ih =>
    intro sv sv' keys h hok hrun
    obtain ⟨sv₁, hstep, hrest⟩ := bind_eq_some_iff.mp hrun
    obtain ⟨h₁, hnodup₁⟩ := lists_step hown hsep hwhole hcreated h hok.1 hstep
    obtain ⟨h', hnodup⟩ := ih h₁ (hok.2 sv₁ hstep) hrest
    refine ⟨h', hnodup.trans ?_⟩
    rw [hnodup₁, and_assoc]
    refine and_congr_right fun _ => and_congr_right fun _ => ?_
    constructor
    · intro hall p hp
      obtain ⟨hp₁, hp₂⟩ := Runs.observe_eq_some.mp hp
      obtain ⟨sv₂, keys₂⟩ := p
      rw [hstep] at hp₁
      obtain rfl := some.inj hp₁
      obtain rfl : noteAppended sv e keys = keys₂ := hp₂
      exact hall
    · intro hall
      exact hall _ (Runs.observe_eq_some.mpr ⟨hstep, rfl⟩)

theorem lists_start (w : World) : Lists created w (startWithVectors r w) [] := by
  have htail := tail_fetchObjectsInfo (r := r) { world := w, phase := .stuck }
  have hoids : (start r w).oidsToDelete = [] := htail.oidsToDelete
  refine ⟨base_start w, ⟨nofun, fun oid hoid => ?_⟩, ?_, htail.batchReady⟩
  · rw [startWithVectors, hoids] at hoid
    cases hoid
  · show Along created (start r w).oidsToDelete [] []
    rw [hoids]
    exact ⟨rfl, rfl⟩

end Steps

/-! ### The result -/

/-- **The lists of a bulk delete go together, and no object is on them twice exactly when every
batch that was appended was of one object or without parts, and none of its keys was appended with
an earlier batch.** -/
theorem oidsToDelete_nodup_iff {created : M0Uint128 → Int × M0Fid} {r : Request} {w₀ : World}
    (hown : OwnName w₀) (hsep : Separate w₀) (hwhole : Whole w₀) (hcreated : CreatedAs created w₀)
    {es : List Event} {sv : State × Vectors}
    (hloads : Runs.AllOk (stepWithVectors r) (LoadsStored created) (startWithVectors r w₀) es)
    (hrun : Runs.run (stepWithVectors r) (startWithVectors r w₀) es = some sv) :
    (sv.1.oidsToDelete.Nodup ∧ Aligned created sv.1 sv.2 ↔
      Runs.AllOk (Runs.observe (stepWithVectors r) noteAppended) AppendsNewWhen
        (startWithVectors r w₀, []) es) ∧
    Aligned created sv.1 sv.2 := by
  obtain ⟨⟨_, hlists⟩, hnodup⟩ := lists_run hown hsep hwhole hcreated es (lists_start w₀) hloads hrun
  have hstart : (startWithVectors r w₀).1.oidsToDelete.Nodup := by
    have htail := tail_fetchObjectsInfo (r := r) { world := w₀, phase := .stuck }
    show (start r w₀).oidsToDelete.Nodup
    rw [show (start r w₀).oidsToDelete = [] from htail.oidsToDelete]
    exact nodup_nil
  refine ⟨?_, hlists.aligned⟩
  rw [and_iff_left hlists.aligned, hnodup]
  exact and_iff_right hstart

/-- A request for both objects of the listing, in one batch. -/
def sampleOneBatch : Request := sampleRequest ["film", "movie"] 2

/-- What the objects were created with, by their metadata. -/
def sampleCreatedAs (oid : M0Uint128) : Int × M0Fid :=
  if oid = sampleFilmPart then (9, sampleFilmFragment.pvid)
  else (sampleFilm.layoutId, S3M0Uint128Helper.toM0Fid sampleFilm.pvidStr)

/-- Everything succeeds, up to the delete of the objects. -/
def sampleBatchRun : List Event :=
  [.fetched fun _ => false, .extendedLoaded (some sampleFilmExtended),
    .probablePut .success fun _ => true, .metadataDeleted .success fun _ => false,
    .extendedDeleted .success fun _ => false]

theorem whole_sampleListing : Whole sampleListing := by
  intro k m h
  rcases sampleListing_cases h with ⟨rfl, rfl⟩ | ⟨rfl, rfl⟩
  · decide
  · decide

theorem createdAs_sampleListing : CreatedAs sampleCreatedAs sampleListing := by
  intro k m h
  rcases sampleListing_cases h with ⟨rfl, rfl⟩ | ⟨rfl, rfl⟩
  · decide
  · decide

theorem loadsStored_sampleBatchRun :
    Runs.AllOk (stepWithVectors sampleOneBatch) (LoadsStored sampleCreatedAs)
      (startWithVectors sampleOneBatch sampleListing) sampleBatchRun := by
  refine ⟨trivial, fun s₁ h₁ => ?_⟩
  obtain rfl := some.inj h₁
  refine ⟨⟨?_, ?_⟩, fun s₂ h₂ => ?_⟩
  · intro i hi
    obtain rfl : i = 0 := Nat.lt_one_iff.mp hi
    exact ⟨sampleFilmFragment, rfl, by decide⟩
  · intro frag hfrag
    obtain rfl := mem_singleton.mp hfrag
    rfl
  obtain rfl := some.inj h₂
  refine ⟨trivial, fun s₃ h₃ => ?_⟩
  obtain rfl := some.inj h₃
  refine ⟨trivial, fun s₄ h₄ => ?_⟩
  obtain rfl := some.inj h₄
  exact ⟨trivial, fun _ _ => trivial⟩

theorem oidsToDelete_nodup_iff_film :
    ∃ sv, Runs.run (stepWithVectors sampleOneBatch) (startWithVectors sampleOneBatch sampleListing)
        sampleBatchRun = some sv ∧
      (sv.1.oidsToDelete.Nodup ∧ Aligned sampleCreatedAs sv.1 sv.2 ↔
        Runs.AllOk (Runs.observe (stepWithVectors sampleOneBatch) noteAppended) AppendsNewWhen
          (startWithVectors sampleOneBatch sampleListing, []) sampleBatchRun) ∧
      Aligned sampleCreatedAs sv.1 sv.2 :=
  ⟨_, rfl, oidsToDelete_nodup_iff ownName_sampleListing separate_sampleListing
    whole_sampleListing createdAs_sampleListing loadsStored_sampleBatchRun rfl⟩

/-- The part of the one object is on the list behind both. -/
theorem not_oidsToDelete_nodup_film :
    ∃ sv, Runs.run (stepWithVectors sampleOneBatch) (startWithVectors sampleOneBatch sampleListing)
        sampleBatchRun = some sv ∧
      Runs.AllOk (stepWithVectors sampleOneBatch) (LoadsStored sampleCreatedAs)
        (startWithVectors sampleOneBatch sampleListing) sampleBatchRun ∧
      sv.1.phase = .deleteObjects ∧ ¬ sv.1.oidsToDelete.Nodup :=
  ⟨_, rfl, loadsStored_sampleBatchRun, rfl, by decide⟩

end S3DeleteMultipleObjectsAction

end CortxS3
