/-
A first read that goes beyond the first part.

The first read of a long range is as long as `motr_first_read_size` says, and nothing keeps it
inside a part that is shorter, unless the read starts behind the start of the part.  More blocks are
then counted than the part has, and `total_blocks_to_read - blocks_already_read` wraps.

When the whole object is read this does no harm: the part is known to be sent.  For a range the
length expected of the first part is one too large, so the action goes on reading.  Each read is cut
to nothing, up to 2^64 blocks, and only if the counter does not come to zero on its way does the
reply go on with the next part (`ends_iff_of_spent`, `not_ends_of_spent`).
-/
import CortxS3.Proofs.GetObjectAction

namespace CortxS3

namespace S3GetObjectAction

open Until

/-- The first part is sent but not left, and the end of the range is more than a read away. -/
structure Spent (a : S3GetObjectAction) : Prop where
  sentAll : a.dataSentToClientForObject = a.currentObject.objectSize
  sent_pos : 0 < a.dataSentToClient
  far : a.dataSentToClient + a.motrUnitsPerRequest * a.currentObject.unitSize <
    a.getRequestedContentLength
  unfinished : a.currentObject.objectSize ≠ a.currentObject.requestedObjectSize
  units : 0 < a.motrUnitsPerRequest
  fragment : a.nextFragmentObject = 0
  total : a.totalBlocksToRead = a.currentObject.totalReadableBlocks
  total_pos : 0 < a.totalBlocksToRead
  total_lt : a.totalBlocksToRead < sizeMod
  already_lt : a.blocksAlreadyRead < sizeMod

section Spent

variable {a : S3GetObjectAction}

theorem Spent.step (h : Spent a) (hmore : a.blocksAlreadyRead ≠ a.totalBlocksToRead)
    (hpos : 0 < a.blocksToRead) (hle : a.blocksToRead ≤ a.motrUnitsPerRequest) :
    readObjectData a = .next (a.advance a.blocksToRead 0) := by
  have hskip : a.skipped = 0 := by
    unfold skipped
    exact if_neg (Nat.pos_iff_ne_zero.mp h.sent_pos)
  have hmul : a.blocksToRead * a.currentObject.unitSize ≤
      a.motrUnitsPerRequest * a.currentObject.unitSize := Nat.mul_le_mul_right _ hle
  have hfar := h.far
  have hsentOf : a.sentOf (a.blocksToRead * a.currentObject.unitSize) = 0 := by
    unfold sentOf
    rw [h.sentAll, if_pos (Nat.le_add_right _ _), Nat.sub_self]
  have hread := readObjectData_read a hmore hpos
    (show a.blocksToRead * a.currentObject.unitSize =
      a.blocksToRead * a.currentObject.unitSize + a.skipped by rw [hskip]; rfl) (by omega)
  rw [if_neg (by omega), hsentOf, h.sentAll, Nat.add_zero, if_pos h.unfinished] at hread
  exact hread

theorem advance_zero_body (a : S3GetObjectAction) (r : Nat) : (a.advance r 0).body = a.body :=
  List.append_nil a.body

theorem Spent.advance (h : Spent a) (r : Nat) : Spent (a.advance r 0) := by
  refine ⟨?_, ?_, ?_, h.unfinished, h.units, h.fragment, h.total, h.total_pos, h.total_lt, ?_⟩
  · rw [advance_sentForObject]
    exact h.sentAll
  · rw [advance_sent]
    exact h.sent_pos
  · rw [advance_sent]
    exact h.far
  · show (a.blocksAlreadyRead + r) % sizeMod < sizeMod
    exact Nat.mod_lt _ (by decide)

theorem blocksToRead_later (hne : a.blocksAlreadyRead ≠ 0) :
    a.blocksToRead =
      min a.motrUnitsPerRequest (subSize a.totalBlocksToRead a.blocksAlreadyRead) := by
  unfold S3GetObjectAction.blocksToRead
  dsimp only
  rw [if_neg (fun hc => hne hc.1), if_neg (fun hc => hne hc.1)]
  split <;> omega

theorem subSize_of_lt {t k : Nat} (h : t < k) (hk : k < sizeMod) :
    subSize t k = t + (sizeMod - k) := by
  unfold subSize toSize
  have hmod : ((t : Int) - (k : Int)) % (sizeMod : Int) = ((t + (sizeMod - k) : Nat) : Int) := by
    rw [← Int.add_emod_right, Int.emod_eq_of_lt (by omega) (by omega)]
    omega
  rw [hmod, Int.toNat_natCast]

theorem Spent.round (h : Spent a) (hne : a.blocksAlreadyRead ≠ 0)
    (hmore : a.blocksAlreadyRead ≠ a.totalBlocksToRead) {r : Nat} (hr : 0 < r)
    (hblocks : min a.motrUnitsPerRequest (subSize a.totalBlocksToRead a.blocksAlreadyRead) = r)
    (w : Bytes) : Ends readObjectData a w ↔ Ends readObjectData (a.advance r 0) w := by
  have hbr := (blocksToRead_later hne).trans hblocks
  have hstep := h.step hmore (by omega) (by omega)
  rw [hbr] at hstep
  exact ends_iff_of_next hstep w

/-- **A part that is sent is left in the end**, when the counter does not come to zero. -/
theorem ends_iff_of_spent (h : Spent a) (hpast : a.totalBlocksToRead < a.blocksAlreadyRead)
    (hshort : a.totalBlocksToRead < a.motrUnitsPerRequest)
    (hunits : a.motrUnitsPerRequest < sizeMod)
    (hnot : ¬ a.motrUnitsPerRequest ∣ sizeMod - a.blocksAlreadyRead) :
    ∃ a', SameRequest a a' ∧ a'.dataSentToClient = a.dataSentToClient ∧ a'.body = a.body ∧
      ∀ w, Ends readObjectData a w ↔ (readNextObject a').Ends readObjectData w := by
  induction hn : sizeMod - a.blocksAlreadyRead using Nat.strong_induction_on generalizing a with
  | _ n ih =>
    have hlt := h.already_lt
    have htotal := h.total_lt
    have htpos := h.total_pos
    have hupos := h.units
    have hsub := subSize_of_lt hpast hlt
    have halready : ∀ r, (a.advance r 0).blocksAlreadyRead =
        (a.blocksAlreadyRead + r) % sizeMod := fun r => rfl
    -- the state that has counted exactly the blocks of the part
    have hfinish : ∀ a₁ : S3GetObjectAction, SameRequest a a₁ →
        a₁.dataSentToClient = a.dataSentToClient → a₁.body = a.body →
        (∀ w, Ends readObjectData a w ↔ Ends readObjectData a₁ w) →
        a₁.blocksAlreadyRead = a₁.totalBlocksToRead →
        ∃ a', SameRequest a a' ∧ a'.dataSentToClient = a.dataSentToClient ∧ a'.body = a.body ∧
          ∀ w, Ends readObjectData a w ↔ (readNextObject a').Ends readObjectData w := by
      intro a₁ hsame hsent hbody hends hall
      refine ⟨a₁, hsame, hsent, hbody, ?_⟩
      intro w
      rw [hends, ends_iff, readObjectData_all_read hall]
    by_cases hwrap : a.motrUnitsPerRequest < sizeMod - a.blocksAlreadyRead
    · -- the counter only grows
      have hround := h.round (by omega) (by omega) h.units
        (show min a.motrUnitsPerRequest _ = a.motrUnitsPerRequest by omega)
      have hnext : (a.advance a.motrUnitsPerRequest 0).blocksAlreadyRead =
          a.blocksAlreadyRead + a.motrUnitsPerRequest := by
        rw [halready, Nat.mod_eq_of_lt (by omega)]
      obtain ⟨a', hsame, hsent, hbody, hends⟩ :=
        ih (sizeMod - (a.advance a.motrUnitsPerRequest 0).blocksAlreadyRead)
          (by rw [hnext]; omega) (h.advance _)
          (by show a.totalBlocksToRead < _
              rw [hnext]
              omega)
          hshort hunits
          (by show ¬ a.motrUnitsPerRequest ∣ _
              rw [hnext, ← Nat.sub_sub]
              intro hdvd
              apply hnot
              have hadd := Nat.dvd_add hdvd (Nat.dvd_refl a.motrUnitsPerRequest)
              rw [Nat.sub_add_cancel (by omega)] at hadd
              exact hadd) rfl
      refine ⟨a', (sameRequest_advance _ _ _).trans hsame, ?_, ?_, ?_⟩
      · rw [hsent, advance_sent]
        rfl
      · rw [hbody, advance_zero_body]
      · intro w
        rw [hround w]
        exact hends w
    · have hexact : a.motrUnitsPerRequest ≠ sizeMod - a.blocksAlreadyRead := by
        intro heq
        exact hnot (by rw [← heq])
      by_cases hlast : a.totalBlocksToRead + (sizeMod - a.blocksAlreadyRead) ≤
          a.motrUnitsPerRequest
      · -- the rest of the count is one read
        refine hfinish _ (sameRequest_advance a
          (a.totalBlocksToRead + (sizeMod - a.blocksAlreadyRead)) 0) ?_ (advance_zero_body _ _)
          (h.round (by omega) (by omega) (by omega) (by omega)) ?_
        · rw [advance_sent]
          rfl
        · show (a.blocksAlreadyRead + (a.totalBlocksToRead + (sizeMod - a.blocksAlreadyRead))) %
            sizeMod = a.totalBlocksToRead
          rw [show a.blocksAlreadyRead + (a.totalBlocksToRead + (sizeMod - a.blocksAlreadyRead)) =
            a.totalBlocksToRead + sizeMod by omega, Nat.add_mod_right, Nat.mod_eq_of_lt htotal]
      · -- the counter wraps and stays below the number of blocks, then one more read
        have hround := h.round (by omega) (by omega) h.units
          (show min a.motrUnitsPerRequest _ = a.motrUnitsPerRequest by omega)
        have hnext : (a.advance a.motrUnitsPerRequest 0).blocksAlreadyRead =
            a.motrUnitsPerRequest - (sizeMod - a.blocksAlreadyRead) := by
          rw [halready, show a.blocksAlreadyRead + a.motrUnitsPerRequest =
            (a.motrUnitsPerRequest - (sizeMod - a.blocksAlreadyRead)) + sizeMod by omega,
            Nat.add_mod_right, Nat.mod_eq_of_lt (by omega)]
        have h₁ := h.advance a.motrUnitsPerRequest
        have hsub₁ : subSize (a.advance a.motrUnitsPerRequest 0).totalBlocksToRead
            (a.advance a.motrUnitsPerRequest 0).blocksAlreadyRead =
            a.totalBlocksToRead - (a.motrUnitsPerRequest - (sizeMod - a.blocksAlreadyRead)) := by
          rw [hnext]
          exact subSize_of_le (show _ ≤ a.totalBlocksToRead by omega) htotal
        have hround₁ := h₁.round (r := a.totalBlocksToRead -
            (a.motrUnitsPerRequest - (sizeMod - a.blocksAlreadyRead)))
          (by rw [hnext]; omega)
          (by rw [hnext]
              show _ ≠ a.totalBlocksToRead
              omega)
          (by omega)
          (by rw [hsub₁]
              show min a.motrUnitsPerRequest _ = _
              omega)
        refine hfinish _ ((sameRequest_advance a a.motrUnitsPerRequest 0).trans
          (sameRequest_advance _ _ 0)) ?_ ?_ (fun w => (hround w).trans (hround₁ w)) ?_
        · rw [advance_sent, advance_sent]
          rfl
        · rw [advance_zero_body, advance_zero_body]
        · show ((a.advance a.motrUnitsPerRequest 0).blocksAlreadyRead + _) % sizeMod =
            a.totalBlocksToRead
          rw [hnext, Nat.add_sub_cancel' (by omega), Nat.mod_eq_of_lt htotal]

/-- The counter goes round and round. -/
structure Circling (a : S3GetObjectAction) : Prop where
  spent : Spent a
  short : a.totalBlocksToRead < min a.motrUnitsPerRequest a.motrFirstReadSize
  units_lt : a.motrUnitsPerRequest < sizeMod
  again : a.motrUnitsPerRequest ∣ sizeMod - min a.motrUnitsPerRequest a.motrFirstReadSize
  index : a.lastIndex % sizeMod = a.blocksAlreadyRead * a.currentObject.unitSize % sizeMod
  counter : a.blocksAlreadyRead = 0 ∨ (a.totalBlocksToRead < a.blocksAlreadyRead ∧
    a.motrUnitsPerRequest ∣ sizeMod - a.blocksAlreadyRead)

theorem Circling.advance (h : Circling a) {r : Nat}
    (hcounter : (a.blocksAlreadyRead + r) % sizeMod = 0 ∨
      (a.totalBlocksToRead < (a.blocksAlreadyRead + r) % sizeMod ∧
        a.motrUnitsPerRequest ∣ sizeMod - (a.blocksAlreadyRead + r) % sizeMod)) :
    Circling (a.advance r 0) := by
  refine ⟨h.spent.advance r, h.short, h.units_lt, h.again, ?_, hcounter⟩
  show (a.lastIndex + r * a.currentObject.unitSize) % sizeMod =
    (a.blocksAlreadyRead + r) % sizeMod * a.currentObject.unitSize % sizeMod
  rw [Nat.mod_mul_mod, Nat.add_mul, Nat.add_mod, h.index, ← Nat.add_mod]

theorem Circling.step (h : Circling a) : ∃ r, readObjectData a = .next (a.advance r 0) ∧
    Circling (a.advance r 0) := by
  have hs := h.spent
  have hshort := h.short
  have hulpos := hs.units
  have hlt := h.units_lt
  rcases h.counter with hzero | ⟨hpast, hdvd⟩
  · -- it counts as the first read once more
    have hlong : a.motrUnitsPerRequest * a.currentObject.unitSize < a.getRequestedContentLength := by
      have := hs.far
      omega
    have hindex : a.lastIndex % sizeMod = 0 := by
      rw [h.index, hzero, Nat.zero_mul, Nat.zero_mod]
    have hblocks : a.blocksToRead = min a.motrUnitsPerRequest a.motrFirstReadSize := by
      unfold S3GetObjectAction.blocksToRead
      dsimp only
      rw [if_neg (fun hc => hc.2.1 hindex), if_pos ⟨hzero, hs.fragment, hlong⟩]
      split <;> omega
    have htpos := hs.total_pos
    refine ⟨a.blocksToRead, hs.step (by omega) (by omega) (by omega), h.advance (Or.inr ?_)⟩
    rw [hzero, Nat.zero_add, hblocks, Nat.mod_eq_of_lt (by omega)]
    exact ⟨hshort, h.again⟩
  · have halready := hs.already_lt
    have htpos := hs.total_pos
    have hle : a.motrUnitsPerRequest ≤ sizeMod - a.blocksAlreadyRead :=
      Nat.le_of_dvd (by omega) hdvd
    have hblocks : a.blocksToRead = a.motrUnitsPerRequest := by
      rw [blocksToRead_later (by omega), subSize_of_lt hpast halready]
      omega
    refine ⟨a.blocksToRead, hs.step (by omega) (by omega) (by omega), h.advance ?_⟩
    rw [hblocks]
    by_cases hwrap : a.blocksAlreadyRead + a.motrUnitsPerRequest = sizeMod
    · exact Or.inl (by rw [hwrap, Nat.mod_self])
    · rw [Nat.mod_eq_of_lt (by omega)]
      refine Or.inr ⟨by omega, ?_⟩
      rw [← Nat.sub_sub]
      exact Nat.dvd_sub hdvd (Nat.dvd_refl _)

/-- **When the counter comes to zero the reply never ends.** -/
theorem not_ends_of_circling (h : Circling a) (w : Bytes) : ¬ Ends readObjectData a w := by
  intro hends
  refine Ends.of_invariant (I := Circling) (Q := fun _ => False) ?_ ?_ h hends
  · intro s s' hs hstep
    obtain ⟨r, hr, hnext⟩ := hs.step
    rw [hstep] at hr
    cases hr
    exact hnext
  · intro s w hs hstep
    obtain ⟨r, hr, _⟩ := hs.step
    rw [hstep] at hr
    cases hr

end Spent

/-! ### The first read -/

section First

variable {a : S3GetObjectAction} {i : Nat} {p : PartLayout}

section

variable (h : Start a i 0 p)

include h

theorem first_overRead (hover : OverRead a)
    (hcover : p.size ≤ a.totalBlocksToRead * p.unitSize) {r : Nat}
    (hr : r = min a.motrUnitsPerRequest a.motrFirstReadSize) :
    readObjectData a =
      if p.size ≠ a.currentObject.requestedObjectSize then .next (a.advance r p.size)
      else (a.advance r p.size).readNextObject := by
  have hblocks := (h.blocksToRead_of_overRead hover).trans hr.symm
  obtain ⟨_, hlong, hshort⟩ := hover
  have hskip : a.skipped = 0 := by
    rw [h.skipped, Nat.zero_mod]
  have hmul : r * p.unitSize ≤ a.motrUnitsPerRequest * p.unitSize :=
    Nat.mul_le_mul_right _ (by omega)
  have hmul' : a.totalBlocksToRead * p.unitSize ≤ r * p.unitSize :=
    Nat.mul_le_mul_right _ (by omega)
  rw [h.unit] at hlong
  have hread := readObjectData_read a h.more h.blocksToRead_pos h.length
    (by rw [h.sent]; omega)
  rw [hskip, hblocks, h.sent, h.fresh.sentForObject, Nat.zero_add, Nat.zero_add,
    if_neg (by omega)] at hread
  have hsentOf : a.sentOf (r * p.unitSize - 0) = p.size := by
    unfold sentOf
    rw [h.size, h.fresh.sentForObject, if_pos (by omega)]
    omega
  rw [hsentOf] at hread
  exact hread

theorem spent_of_overRead {r : Nat}
    (hr : r = min a.motrUnitsPerRequest a.motrFirstReadSize)
    (hfar : p.size + a.motrUnitsPerRequest * p.unitSize < a.getRequestedContentLength)
    (hreq : p.size ≠ a.currentObject.requestedObjectSize)
    (hunits : a.motrUnitsPerRequest < sizeMod) :
    Spent (a.advance r p.size) ∧ (a.advance r p.size).blocksAlreadyRead = r := by
  have hupos := h.fresh.units
  have halready : (a.advance r p.size).blocksAlreadyRead = r := by
    show (a.blocksAlreadyRead + r) % sizeMod = r
    rw [h.fresh.already, Nat.zero_add, Nat.mod_eq_of_lt (by omega)]
  refine ⟨⟨?_, ?_, ?_, ?_, hupos, h.fragment, h.fresh.total, h.total_pos, h.total_lt, ?_⟩, halready⟩
  · rw [advance_sentForObject, h.fresh.sentForObject, Nat.zero_add]
    exact h.size.symm
  · rw [advance_sent]
    have := p.size_pos
    omega
  · rw [advance_sent, h.sent, Nat.zero_add]
    show p.size + a.motrUnitsPerRequest * a.currentObject.unitSize < a.getRequestedContentLength
    rw [h.unit]
    exact hfar
  · show a.currentObject.objectSize ≠ a.currentObject.requestedObjectSize
    rw [h.size]
    exact hreq
  · rw [halready]
    omega

/-- **The first part is passed** by a first read beyond it, when this is the whole object, or the
range is long and the counter does not come to zero. -/
theorem pass_overRead (hover : OverRead a)
    (hcover : p.size ≤ a.totalBlocksToRead * p.unitSize) (hunits : a.motrUnitsPerRequest < sizeMod)
    (hok : p.size ≠ a.currentObject.requestedObjectSize →
      p.size + a.motrUnitsPerRequest * p.unitSize < a.getRequestedContentLength ∧
        ¬ a.motrUnitsPerRequest ∣ sizeMod - min a.motrUnitsPerRequest a.motrFirstReadSize) :
    ∃ a', SameRequest a a' ∧ a'.dataSentToClient = p.size ∧
      a'.body = motrRead a.motr i 0 p.size ∧
      ∀ w, Ends readObjectData a w ↔ (readNextObject a').Ends readObjectData w := by
  have hread := first_overRead h hover hcover rfl
  by_cases hreq : p.size ≠ a.currentObject.requestedObjectSize
  · obtain ⟨hfar, hnot⟩ := hok hreq
    obtain ⟨hspent, halready⟩ := spent_of_overRead h rfl hfar hreq hunits
    have hshort := hover.2.2
    rw [if_pos hreq] at hread
    obtain ⟨a', hsame, hsent, hbody, hends⟩ := ends_iff_of_spent hspent
      (by rw [halready]; exact hshort)
      (show a.totalBlocksToRead < a.motrUnitsPerRequest by omega) hunits
      (by rw [halready]; exact hnot)
    refine ⟨a', (sameRequest_advance _ _ _).trans hsame, ?_, ?_, ?_⟩
    · rw [hsent, advance_sent, h.sent, Nat.zero_add]
    · rw [hbody, h.advance_body]
    · intro w
      rw [ends_iff, hread]
      exact hends w
  · rw [if_neg hreq] at hread
    refine ⟨_, sameRequest_advance a (min a.motrUnitsPerRequest a.motrFirstReadSize) p.size, ?_,
      h.advance_body _ _, ?_⟩
    · rw [advance_sent, h.sent, Nat.zero_add]
    · intro w
      rw [ends_iff, hread]

/-- When the counter comes to zero the reply to such a request never ends. -/
theorem not_ends_of_overRead (hover : OverRead a)
    (hcover : p.size ≤ a.totalBlocksToRead * p.unitSize)
    (hunits : a.motrUnitsPerRequest < sizeMod)
    (hreq : p.size ≠ a.currentObject.requestedObjectSize)
    (hfar : p.size + a.motrUnitsPerRequest * p.unitSize < a.getRequestedContentLength)
    (hdvd : a.motrUnitsPerRequest ∣ sizeMod - min a.motrUnitsPerRequest a.motrFirstReadSize)
    (w : Bytes) : ¬ Ends readObjectData a w := by
  have hread := first_overRead h hover hcover rfl
  rw [if_pos hreq] at hread
  obtain ⟨hspent, halready⟩ := spent_of_overRead h rfl hfar hreq hunits
  rw [ends_iff, hread]
  refine not_ends_of_circling ⟨hspent, hover.2.2, hunits, hdvd, ?_, Or.inr ⟨?_, ?_⟩⟩ w
  · rw [halready]
    show (a.lastIndex + _ * a.currentObject.unitSize) % sizeMod = _ * a.currentObject.unitSize % sizeMod
    rw [hover.1, Nat.zero_add]
  · rw [halready]
    exact hover.2.2
  · rw [halready]
    exact hdvd

/-- **A range that ends soon behind the first part is completed with padding of it.** -/
theorem ends_of_overRead (hover : OverRead a)
    (hcover : p.size ≤ a.totalBlocksToRead * p.unitSize)
    (hunits : 2 * a.motrUnitsPerRequest < sizeMod)
    (hreq : p.size ≠ a.currentObject.requestedObjectSize)
    (hbeyond : p.size < a.getRequestedContentLength)
    (hnear : a.getRequestedContentLength ≤ p.size + a.motrUnitsPerRequest * p.unitSize)
    {r : Nat} (hr : r = min a.motrUnitsPerRequest a.motrFirstReadSize) :
    Ends readObjectData a (motrRead a.motr i 0 p.size ++
      motrRead a.motr i (r * p.unitSize) (a.getRequestedContentLength - p.size)) := by
  have hread := first_overRead h hover hcover hr
  have hupos := h.fresh.units
  have hshort := hover.2.2
  have hsize := p.size_pos
  rw [if_pos hreq] at hread
  rw [ends_iff, hread]
  show Ends readObjectData (a.advance r p.size) _
  have halready : (a.advance r p.size).blocksAlreadyRead = r := by
    show (a.blocksAlreadyRead + r) % sizeMod = r
    rw [h.fresh.already, Nat.zero_add, Nat.mod_eq_of_lt (by omega)]
  have hsent : (a.advance r p.size).dataSentToClient = p.size := by
    rw [advance_sent, h.sent, Nat.zero_add]
  have hskip : (a.advance r p.size).skipped = 0 := by
    unfold skipped
    rw [hsent, if_neg (by omega)]
  have hblocks : (a.advance r p.size).blocksToRead = a.motrUnitsPerRequest := by
    rw [blocksToRead_later (by rw [halready]; omega), halready]
    show min a.motrUnitsPerRequest (subSize a.totalBlocksToRead r) = a.motrUnitsPerRequest
    rw [subSize_of_lt (by omega) (by omega)]
    omega
  have hindex : (a.advance r p.size).lastIndex = r * p.unitSize := by
    show a.lastIndex + r * a.currentObject.unitSize = _
    rw [hover.1, Nat.zero_add, h.unit]
  have hunit : (a.advance r p.size).currentObject.unitSize = p.unitSize := h.unit
  have hdone := readObjectData_read (a.advance r p.size)
    (by rw [halready]
        show r ≠ a.totalBlocksToRead
        omega)
    (by rw [hblocks]; exact hupos)
    (show _ = a.motrUnitsPerRequest * p.unitSize + _ by rw [hskip, hblocks, hunit]; rfl)
    (by rw [hsent]
        exact hbeyond)
  rw [if_pos (by rw [hsent]; exact hnear), hsent, hskip, hindex, h.advance_body] at hdone
  rw [ends_iff, hdone, ← h.oid]
  rfl

end

end First

end S3GetObjectAction

end CortxS3
