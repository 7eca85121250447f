/-
The requests to Motr stay inside the parts.

While a part is read the counter of blocks and the place of the reader go on together
(`Progress`), and what is left of the part bounds each request behind the first one.  The parts
behind the first one are planned no longer than they are.  So only the first request can go beyond
its part, and it does when the range is long, begins in the first unit of a part, and this part is
shorter than a first read (`staysInside_iff`).
-/
import CortxS3.Proofs.GetObjectRange

namespace CortxS3

open List

namespace S3GetObjectAction

open Until

/-- The request that comes next is for blocks of a part, and the counter is not past the blocks. -/
structure InsidePart (parts : List PartLayout) (a : S3GetObjectAction) : Prop where
  counted : a.blocksAlreadyRead ≤ a.totalBlocksToRead
  asks : a.blocksAlreadyRead ≠ a.totalBlocksToRead →
    0 < a.blocksToRead ∧ a.blocksAlreadyRead + a.blocksToRead ≤ a.totalBlocksToRead
  inside : a.blocksAlreadyRead ≠ a.totalBlocksToRead →
    ∃ p, parts[a.currentObject.objectOID]? = some p ∧ a.currentObject.unitSize = p.unitSize ∧
      p.unitSize ∣ a.lastIndex ∧
      a.lastIndex + a.blocksToRead * p.unitSize ≤ blocks p * p.unitSize

/-- No more is planned of an object than its part has. -/
def PlannedOf (parts : List PartLayout) (o : S3ExtendedObjectInfo) : Prop :=
  ∃ p, parts[o.objectOID]? = some p ∧ o.unitSize = p.unitSize ∧ o.totalReadableBlocks ≤ blocks p

/-- How far a part is read, of which `start` blocks are skipped. -/
structure Progress (parts : List PartLayout) (start : Nat) (a : S3GetObjectAction) : Prop where
  part : ∃ p, parts[a.currentObject.objectOID]? = some p ∧
    a.currentObject.unitSize = p.unitSize ∧ start + a.totalBlocksToRead ≤ blocks p
  index : a.lastIndex = (start + a.blocksAlreadyRead) * a.currentObject.unitSize
  counted : a.blocksAlreadyRead ≤ a.totalBlocksToRead
  asks : a.blocksAlreadyRead ≠ a.totalBlocksToRead →
    0 < a.blocksToRead ∧ a.blocksAlreadyRead + a.blocksToRead ≤ a.totalBlocksToRead
  total_lt : a.totalBlocksToRead < sizeMod
  units : 0 < a.motrUnitsPerRequest
  others : ∀ o ∈ a.extendedObjects.drop (a.nextFragmentObject + 1), PlannedOf parts o

section Progress

variable {parts : List PartLayout} {start : Nat} {a : S3GetObjectAction}

theorem Progress.insidePart (h : Progress parts start a) : InsidePart parts a := by
  refine ⟨h.counted, h.asks, ?_⟩
  intro hmore
  obtain ⟨p, hpart, hunit, hfits⟩ := h.part
  have hasks := (h.asks hmore).2
  have hindex := h.index
  rw [hunit] at hindex
  refine ⟨p, hpart, hunit, ?_, ?_⟩
  · rw [hindex]
    exact Nat.dvd_mul_left _ _
  · rw [hindex, ← Nat.add_mul]
    apply Nat.mul_le_mul_right
    omega

variable {a' : S3GetObjectAction}

/-- **How a round goes on**: the same object with more blocks read, or the next object. -/
theorem readObjectData_next (h : readObjectData a = .next a') :
    (a.blocksAlreadyRead ≠ a.totalBlocksToRead ∧
        ∃ sent, a' = a.afterSending a.blocksToRead sent) ∨
      ∃ b : S3GetObjectAction, b.extendedObjects = a.extendedObjects ∧
        b.nextFragmentObject = a.nextFragmentObject ∧
        b.motrUnitsPerRequest = a.motrUnitsPerRequest ∧ b.readNextObject = .next a' := by
  unfold readObjectData at h
  split at h
  · rename_i hmore
    dsimp only at h
    split at h
    · unfold sendDataToClient at h
      generalize bytesToSend _ _ = sent at h
      dsimp only at h
      split at h
      · cases h
      · split at h
        · refine Or.inl ⟨hmore, sent, ?_⟩
          cases h
          rfl
        · exact Or.inr ⟨a.afterSending a.blocksToRead sent, rfl, rfl, rfl, h⟩
    · cases h
  · exact Or.inr ⟨a, rfl, rfl, rfl, h⟩

/-- What is left of a part bounds a request behind the first one. -/
theorem blocksToRead_inside (hlater : a.blocksAlreadyRead ≠ 0 ∨
      (a.nextFragmentObject ≠ 0 ∧ a.lastIndex = 0))
    (hcounted : a.blocksAlreadyRead ≤ a.totalBlocksToRead) (htotal : a.totalBlocksToRead < sizeMod) :
    a.blocksToRead = min a.motrUnitsPerRequest (a.totalBlocksToRead - a.blocksAlreadyRead) := by
  have hsub := subSize_of_le hcounted htotal
  have hfirst : ¬ (a.blocksAlreadyRead = 0 ∧ a.nextFragmentObject = 0 ∧
      a.motrUnitsPerRequest * a.currentObject.unitSize < a.getRequestedContentLength) := by
    intro hc
    rcases hlater with hread | ⟨hnext, _⟩
    · exact hread hc.1
    · exact hnext hc.2.1
  have hindex : ¬ (a.blocksAlreadyRead = 0 ∧ a.lastIndex % sizeMod ≠ 0 ∧
      a.currentObject.totalReadableBlocks <
        if a.motrUnitsPerRequest < a.totalBlocksToRead - a.blocksAlreadyRead then
          a.motrUnitsPerRequest
        else a.totalBlocksToRead - a.blocksAlreadyRead) := by
    intro hc
    rcases hlater with hread | ⟨_, hzero⟩
    · exact hread hc.1
    · exact hc.2.1 (by rw [hzero, Nat.zero_mod])
  unfold S3GetObjectAction.blocksToRead
  dsimp only
  rw [if_neg hfirst, hsub, if_neg hindex]
  split <;> omega

theorem Progress.afterSending (h : Progress parts start a)
    (hmore : a.blocksAlreadyRead ≠ a.totalBlocksToRead) (sent : Bytes) :
    Progress parts start (a.afterSending a.blocksToRead sent) := by
  obtain ⟨hpos, hle⟩ := h.asks hmore
  have htotal := h.total_lt
  have hunits := h.units
  have halready : (a.afterSending a.blocksToRead sent).blocksAlreadyRead =
      a.blocksAlreadyRead + a.blocksToRead := by
    show (a.blocksAlreadyRead + a.blocksToRead) % sizeMod = _
    rw [Nat.mod_eq_of_lt (by omega)]
  refine ⟨h.part, ?_, ?_, ?_, h.total_lt, h.units, h.others⟩
  · rw [halready, ← Nat.add_assoc, Nat.add_mul]
    show a.lastIndex + a.blocksToRead * a.currentObject.unitSize = _
    rw [h.index]
    rfl
  · rw [halready]
    exact hle
  · intro hmore'
    have hunits' : 0 < (a.afterSending a.blocksToRead sent).motrUnitsPerRequest := h.units
    have htotal' : (a.afterSending a.blocksToRead sent).totalBlocksToRead =
      a.totalBlocksToRead := rfl
    have hblocks := blocksToRead_inside (a := a.afterSending a.blocksToRead sent)
      (Or.inl (by omega)) (by omega) h.total_lt
    omega

theorem progress_of_readNextObject (hnext : a.readNextObject = .next a')
    (hothers : ∀ o ∈ a.extendedObjects.drop (a.nextFragmentObject + 1), PlannedOf parts o)
    (hsizes : ∀ p ∈ parts, p.size < sizeMod) (hunits : 0 < a.motrUnitsPerRequest) :
    Progress parts 0 a' := by
  unfold readNextObject at hnext
  dsimp only at hnext
  split at hnext
  · rename_i hlt
    obtain ⟨o, ho⟩ : ∃ o, a.extendedObjects[a.nextFragmentObject + 1]? = some o :=
      ⟨_, List.getElem?_eq_getElem hlt⟩
    have hmem : o ∈ a.extendedObjects.drop (a.nextFragmentObject + 1) := by
      apply mem_of_getElem? (i := 0)
      rw [List.getElem?_drop]
      exact ho
    obtain ⟨p, hpart, hunit, hfits⟩ := hothers o hmem
    cases hnext
    obtain ⟨b, hb⟩ : ∃ b, b = readFragmentedObject
      { a with nextFragmentObject := a.nextFragmentObject + 1 } := ⟨_, rfl⟩
    rw [← hb]
    have hcurrent : b.currentObject = o := by
      rw [hb]
      show a.extendedObjects.getD (a.nextFragmentObject + 1) default = o
      rw [getD_eq_getElem?_getD, ho]
      rfl
    have htotal : b.totalBlocksToRead = o.totalReadableBlocks := by
      rw [← hcurrent, hb]
      rfl
    have halready : b.blocksAlreadyRead = 0 := by
      rw [hb]
      rfl
    have hindex : b.lastIndex = 0 := by
      rw [hb]
      exact readFragmentedObject_lastIndex (Nat.succ_ne_zero _)
    have hfragment : b.nextFragmentObject ≠ 0 := by
      rw [hb]
      exact Nat.succ_ne_zero _
    have hmax : b.motrUnitsPerRequest = a.motrUnitsPerRequest := by
      rw [hb]
      rfl
    have hsize := hsizes p (mem_of_getElem? hpart)
    have hle := blocks_le_size p
    refine ⟨⟨p, by rw [hcurrent]; exact hpart, by rw [hcurrent]; exact hunit, by omega⟩, ?_, ?_, ?_,
      by omega, by omega, ?_⟩
    · rw [hindex, halready, Nat.zero_mul]
    · rw [halready]
      exact Nat.zero_le _
    · intro hmore
      rw [blocksToRead_inside (Or.inr ⟨hfragment, hindex⟩) (by omega) (by omega)]
      omega
    · intro q hq
      apply hothers q
      rw [hb] at hq
      apply mem_of_mem_drop (i := 1)
      rw [drop_drop]
      exact hq
  · cases hnext

/-- **Every round keeps inside the parts.** -/
theorem Progress.step (h : Progress parts start a) (hsizes : ∀ p ∈ parts, p.size < sizeMod)
    (hstep : readObjectData a = .next a') : ∃ start', Progress parts start' a' := by
  rcases readObjectData_next hstep with ⟨hmore, sent, rfl⟩ | ⟨b, hobjects, hfragment, hmax, hnext⟩
  · exact ⟨start, h.afterSending hmore sent⟩
  · refine ⟨0, progress_of_readNextObject hnext ?_ hsizes (by rw [hmax]; exact h.units)⟩
    rw [hobjects, hfragment]
    exact h.others

end Progress

/-! ### The plan and the first request -/

theorem plannedOf_planned {parts : List PartLayout} :
    ∀ (rest pre : List PartLayout) (offset m : Nat), parts = pre ++ rest →
      ∀ o ∈ planned pre.length offset m rest, PlannedOf parts o := by
  intro rest
  induction rest with
  | nil =>
    intro pre offset m _ o ho
    exact absurd ho not_mem_nil
  | cons p rest ih =>
    intro pre offset m hparts o ho
    have hpart : parts[pre.length]? = some p := by
      rw [hparts, List.getElem?_append_right (Nat.le_refl _), Nat.sub_self]
      rfl
    unfold planned at ho
    split at ho
    · rename_i hle
      obtain rfl := mem_singleton.mp ho
      refine ⟨p, hpart, rfl, ?_⟩
      have hdiv : (m - 1) / p.unitSize < blocks p := by
        apply (unit_mul_blocks (p := p) _).2.2
        have := p.size_pos
        omega
      exact hdiv
    · rcases mem_cons.mp ho with rfl | hmem
      · exact ⟨p, hpart, rfl, Nat.le_refl _⟩
      · apply ih (pre ++ [p]) (offset + p.size) (m - p.size)
        · rw [hparts, append_assoc]
          rfl
        · rw [length_append]
          exact hmem

section FirstRequest

variable {motr : MotrObjects} {units firstReadSize first last : Nat}
  {pre rest : List PartLayout} {p : PartLayout}

theorem plannedOf_others (hlo : contentLength pre ≤ first)
    (hhi : first < contentLength pre + p.size) (hle : first ≤ last)
    (hlast : last < contentLength (pre ++ p :: rest)) :
    ∀ o ∈ (setTotalBlocksToReadFromFragmentedObject (extendedObjectsFrom 0 0 (pre ++ p :: rest))
      (contentLength (pre ++ p :: rest)) first last).drop 1, PlannedOf (pre ++ p :: rest) o := by
  have hlen : (pre ++ [p]).length = pre.length + 1 := by
    rw [length_append]
    rfl
  have hsplit : pre ++ p :: rest = (pre ++ [p]) ++ rest := by
    rw [append_assoc]
    rfl
  have hplanned := fun offset m => plannedOf_planned rest (pre ++ [p]) offset m hsplit
  rw [hlen] at hplanned
  intro o ho
  by_cases hfull : first = 0 ∧ last = contentLength (pre ++ p :: rest) - 1
  · obtain ⟨rfl, hend⟩ := hfull
    obtain rfl : pre = [] := contentLength_eq_zero (by omega)
    rw [nil_append] at hend ho ⊢
    rw [plan_full hend] at ho
    exact hplanned p.size (contentLength rest) o ho
  · rw [plan_range hfull hlo hhi hle hlast] at ho
    by_cases hin : last < contentLength pre + p.size
    · rw [if_pos hin, if_pos hin] at ho
      exact absurd ho not_mem_nil
    · rw [if_neg hin, if_neg hin] at ho
      exact hplanned _ _ o ho

/-- What the first request needs: the range does not begin in the first unit of a part that is
shorter than a first read, or it is short. -/
def StartsInside (units firstReadSize : Nat) (parts : List PartLayout) (first last : Nat) : Prop :=
  ∀ pre p rest, parts = pre ++ p :: rest → contentLength pre ≤ first →
    first < contentLength pre + p.size → first < contentLength pre + p.unitSize →
    ¬ FirstReadTooLong units firstReadSize p (last - first + 1)

theorem startsInside_of_long {parts : List PartLayout}
    (hlong : ∀ p ∈ parts, min units firstReadSize ≤ blocks p) :
    StartsInside units firstReadSize parts first last := by
  intro pre p rest hparts _ _ _ htoo
  have hmin := hlong p (by rw [hparts]; exact mem_append_right _ mem_cons_self)
  have hshort := htoo.2
  omega

/-- **The first request asks for too much exactly in this case.** -/
theorem first_blocksToRead_le_iff {a : S3GetObjectAction} {i f : Nat} (h : Begin a i f p)
    (htotal : a.totalBlocksToRead = blocks p - f / p.unitSize) :
    a.blocksToRead ≤ a.totalBlocksToRead ↔
      ¬ (f < p.unitSize ∧ FirstReadTooLong a.motrUnitsPerRequest a.motrFirstReadSize p
        a.getRequestedContentLength) := by
  have hindex : a.lastIndex = 0 ↔ f < p.unitSize := by
    have hu := p.unit_pos
    rw [h.index, Nat.mul_eq_zero, Nat.div_eq_zero_iff]
    omega
  have hzero : f < p.unitSize → a.totalBlocksToRead = blocks p := by
    intro hlt
    rw [htotal, Nat.div_eq_of_lt hlt, Nat.sub_zero]
  unfold FirstReadTooLong
  rw [h.blocksToRead]
  dsimp only
  split
  · split
    · omega
    · constructor
      · intro hle hc
        have := hzero hc.1
        omega
      · rename_i hlong hnot
        intro hc
        by_contra hgt
        have hlt : f < p.unitSize := by
          by_contra hge
          exact hnot ⟨fun hz => hge (hindex.mp hz), by omega⟩
        have := hzero hlt
        exact hc ⟨hlt, hlong, by omega⟩
  · split <;> omega

end FirstRequest

/-- **Every request is for blocks of its part exactly when the first one is**: whatever the parts
hold, nothing is asked for outside a part, no request is empty and the counter is never past the
blocks of the part, unless a long range begins in the first unit of a part that is shorter than a
first read. -/
theorem staysInside_iff (motr : MotrObjects) {units firstReadSize first last : Nat}
    {parts : List PartLayout} (hle : first ≤ last) (hlast : last < contentLength parts)
    (hlen : contentLength parts < sizeMod) (hunits : 0 < units) (hread : 0 < firstReadSize) :
    (∀ a, Reaches readObjectData (readObject motr units firstReadSize parts first last) a →
      InsidePart parts a) ↔ StartsInside units firstReadSize parts first last := by
  constructor
  · intro hinside pre p rest hparts hlo hhi hunit hlong
    subst hparts
    obtain ⟨a, ha⟩ : ∃ a, a = readObject motr units firstReadSize (pre ++ p :: rest) first last :=
      ⟨_, rfl⟩
    obtain ⟨h, htotal, _⟩ := begin_request hlo hhi hle hlast hlen hunits hread ha
    have hfirst := hinside a (by rw [ha]; exact Reaches.start)
    have hasks := (hfirst.asks h.more).2
    have hbound : a.blocksToRead ≤ a.totalBlocksToRead := by omega
    refine (first_blocksToRead_le_iff h htotal).mp hbound ⟨by omega, ?_⟩
    rw [ha]
    exact hlong
  · intro hstarts
    obtain ⟨pre, p, rest, rfl, hlo, hhi⟩ := exists_part parts (Nat.lt_of_le_of_lt hle hlast)
    obtain ⟨a, ha⟩ : ∃ a, a = readObject motr units firstReadSize (pre ++ p :: rest) first last :=
      ⟨_, rfl⟩
    obtain ⟨h, htotal, _⟩ := begin_request hlo hhi hle hlast hlen hunits hread ha
    have hbound : a.blocksToRead ≤ a.totalBlocksToRead := by
      apply (first_blocksToRead_le_iff h htotal).mpr
      intro hc
      refine hstarts pre p rest rfl hlo hhi (by omega) ?_
      have hlong := hc.2
      rw [ha] at hlong
      exact hlong
    have hquot := (unit_mul_blocks h.inside).2.2
    have halready := h.fresh.already
    have hbegin : Progress (pre ++ p :: rest) ((first - contentLength pre) / p.unitSize) a := by
      refine ⟨⟨p, ?_, h.unit, by omega⟩, ?_, by omega, ?_, h.total_lt, h.fresh.units, ?_⟩
      · rw [h.oid, List.getElem?_append_right (Nat.le_refl _), Nat.sub_self]
        rfl
      · rw [halready, h.index, h.unit, Nat.add_zero]
      · intro _
        exact ⟨h.blocksToRead_pos, by omega⟩
      · rw [h.fragment, ha]
        exact plannedOf_others hlo hhi hle hlast
    have hsizes := sizes_lt hlen
    rw [← ha]
    intro b hb
    obtain ⟨start, hprogress⟩ := hb.invariant (I := fun b => ∃ start, Progress _ start b)
      (fun c c' hc hstep => hc.elim fun _ hc => hc.step hsizes hstep) ⟨_, hbegin⟩
    exact hprogress.insidePart

/-- Two parts of five units and a range over both. -/
theorem staysInside_twoParts :
    (∀ a, Reaches readObjectData (readObject (fun _ _ => 0) 4 4
        [⟨5242880, 1048576, by decide, by decide⟩, ⟨5242880, 1048576, by decide, by decide⟩]
        1000 9000000) a →
      InsidePart [⟨5242880, 1048576, by decide, by decide⟩,
        ⟨5242880, 1048576, by decide, by decide⟩] a) ∧
      StartsInside 4 4 [⟨5242880, 1048576, by decide, by decide⟩,
        ⟨5242880, 1048576, by decide, by decide⟩] 1000 9000000 := by
  have hstarts : StartsInside 4 4 [⟨5242880, 1048576, by decide, by decide⟩,
      ⟨5242880, 1048576, by decide, by decide⟩] 1000 9000000 := by
    apply startsInside_of_long
    simp [blocks]
  exact ⟨(staysInside_iff _ (by decide) (by decide) (by decide) (by decide) (by decide)).mpr
    hstarts, hstarts⟩

/-- A first read of eight units of a part of five. -/
theorem not_staysInside_shortPart :
    ¬ ∀ (motr : MotrObjects) (parts : List PartLayout) (units firstReadSize first last : Nat),
      0 < units → 0 < firstReadSize → first ≤ last → last < contentLength parts →
        ∀ a, Reaches readObjectData (readObject motr units firstReadSize parts first last) a →
          InsidePart parts a := by
  intro hall
  have hinside := hall (fun _ _ => 0) [⟨5242880, 1048576, by decide, by decide⟩,
    ⟨5242880, 1048576, by decide, by decide⟩] 8 8 0 10485759 (by decide) (by decide) (by decide)
    (by decide) _ Reaches.start
  exact absurd (hinside.asks (by decide)).2 (by decide)

end S3GetObjectAction

end CortxS3
