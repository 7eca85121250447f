/-
The conditions of `Servable` are needed.

Two kinds of content show it.  In parts whose bytes are zero and whose padding is one, a reply that
holds a one has sent padding: a range completed with the padding of a part, a part of which too much
is sent, a first read beyond a part.  And when one byte alone is marked, the first byte of the range,
a reply from a part that is not aligned begins with another byte.
-/
import CortxS3.Proofs.GetObjectRange

namespace CortxS3

open List

namespace S3GetObjectAction

open Until

/-! ### What is sent stays sent -/

/-- What was sent when a step is done. -/
def produced : Outcome S3GetObjectAction Bytes → Bytes
  | .next a => a.body
  | .done w => w

theorem produced_readNextObject (a : S3GetObjectAction) : produced a.readNextObject = a.body := by
  unfold readNextObject
  dsimp only
  split <;> rfl

theorem produced_sendDataToClient (a : S3GetObjectAction) (n : Nat) (evbuffer : Bytes) :
    produced (a.sendDataToClient n evbuffer) = a.body ++ a.bytesToSend evbuffer := by
  unfold sendDataToClient
  dsimp only
  split
  · rfl
  · split
    · rfl
    · exact produced_readNextObject _

theorem body_isPrefix_produced (a : S3GetObjectAction) :
    a.body <+: produced (readObjectData a) := by
  unfold readObjectData
  dsimp only
  split
  · split
    · rw [produced_sendDataToClient]
      exact prefix_append _ _
    · exact prefix_refl _
  · rw [produced_readNextObject]

/-- **What was sent is the beginning of the reply.** -/
theorem isPrefix_of_ends {a : S3GetObjectAction} {w : Bytes} (h : Ends readObjectData a w) :
    a.body <+: w := by
  refine Ends.of_invariant (I := fun s => a.body <+: s.body) (Q := fun w => a.body <+: w) ?_ ?_
    (prefix_refl _) h
  · intro s s' hs hstep
    have hgrow := body_isPrefix_produced s
    rw [hstep] at hgrow
    exact hs.trans hgrow
  · intro s w hs hstep
    have hgrow := body_isPrefix_produced s
    rw [hstep] at hgrow
    exact hs.trans hgrow

theorem produced_isPrefix {o : Outcome S3GetObjectAction Bytes} {w : Bytes}
    (h : o.Ends readObjectData w) : produced o <+: w := by
  cases o with
  | next a => exact isPrefix_of_ends h
  | done w' =>
    obtain rfl : w' = w := h
    exact prefix_refl _

/-! ### Marked padding -/

/-- Parts whose bytes are zero, with padding that is not. -/
def padded (parts : List PartLayout) : MotrObjects := fun i j =>
  match parts[i]? with
  | some p => if j < p.size then 0 else 1
  | none => 1

theorem padded_at {pre rest : List PartLayout} {p : PartLayout} (j : Nat) :
    padded (pre ++ p :: rest) pre.length j = if j < p.size then 0 else 1 := by
  unfold padded
  rw [List.getElem?_append_right (le_refl _), Nat.sub_self]
  rfl

variable {parts : List PartLayout}

theorem eq_zero_of_mem_bytesFrom {c : UInt8} :
    ∀ (rest pre : List PartLayout), parts = pre ++ rest →
      c ∈ bytesFrom (padded parts) pre.length rest → c = 0 := by
  intro rest
  induction rest with
  | nil =>
    intro pre _ hc
    cases hc
  | cons p rest ih =>
    intro pre hparts hc
    rw [bytesFrom_cons, mem_append] at hc
    rcases hc with hc | hc
    · obtain ⟨j, hj, rfl⟩ := mem_motrRead.mp hc
      rw [hparts, padded_at, Nat.zero_add, if_pos hj]
    · apply ih (pre ++ [p])
      · rw [hparts, append_assoc]
        rfl
      · rw [length_append]
        exact hc

theorem eq_zero_of_mem_requested {first last : Nat} {c : UInt8}
    (hc : c ∈ requestedBytes (padded parts) parts first last) : c = 0 :=
  eq_zero_of_mem_bytesFrom parts [] rfl (mem_of_mem_drop (mem_of_mem_take hc))

/-! ### Parts behind the first one -/

theorem pred_mul_lt_size (p : PartLayout) {n : Nat} (hn : n < blocks p) :
    n * p.unitSize < p.size := by
  have hle : (n + 1) * p.unitSize ≤ blocks p * p.unitSize := Nat.mul_le_mul_right _ hn
  have hlt := blocks_lt_size p
  rw [Nat.succ_mul] at hle
  omega

/-- **When the padding of a part reaches the end of the range, the range is completed with it.** -/
theorem exposes_of_not_fits :
    ∀ (rest : List PartLayout) (i offset m : Nat) (a : S3GetObjectAction), Behind a →
      a.extendedObjects.drop a.nextFragmentObject = planned i offset m rest →
      (∀ p ∈ rest, p.size < sizeMod) → 0 < m → m ≤ contentLength rest → ¬ RangeFits m rest →
      a.getRequestedContentLength = a.dataSentToClient + m →
      ∃ pre p rest' w, rest = pre ++ p :: rest' ∧ Ends readObjectData a w ∧
        a.motr (i + pre.length) p.size ∈ w := by
  intro rest
  induction rest with
  | nil =>
    intro i offset m a _ _ _ hm hle
    change m ≤ 0 at hle
    omega
  | cons p rest ih =>
    intro i offset m a h hobjects hsizes hm hle hnot hreq
    have hsize := hsizes p mem_cons_self
    rw [contentLength_cons] at hle
    have hlast : ¬ m ≤ p.size := fun hc => hnot (Or.inl hc)
    unfold planned at hobjects
    rw [if_neg hlast] at hobjects
    by_cases hpad : blocks p * p.unitSize < m
    · have hrest : ¬ RangeFits (m - p.size) rest := fun hc => hnot (Or.inr ⟨hpad, hc⟩)
      have hne : rest ≠ [] := by
        rintro rfl
        change m ≤ p.size + 0 at hle
        omega
      obtain ⟨a', h', hmotr, hsent, hbody, hreq', hdrop, hends⟩ :=
        pass_part h (planned_ne_nil hne) hobjects hsize (by omega)
      obtain ⟨pre, q, rest', w, hparts, hw, hmem⟩ :=
        ih (i + 1) (offset + p.size) (m - p.size) a' h' hdrop
          (fun q hq => hsizes q (mem_cons_of_mem _ hq)) (by omega) (by omega) hrest (by omega)
      refine ⟨p :: pre, q, rest', w, by rw [hparts]; rfl, (hends w).mpr hw, ?_⟩
      rw [hmotr, show i + 1 + pre.length = i + (p :: pre).length by
        rw [length_cons]
        omega] at hmem
      exact hmem
    · -- the range ends in the padding of this part
      have hcurrent := currentObject_of_drop hobjects
      have htotal : a.totalBlocksToRead = blocks p := by
        rw [h.fresh.total, hcurrent]
      have hunit : a.currentObject.unitSize = p.unitSize := by
        rw [hcurrent]
        rfl
      have hbsize := blocks_le_size p
      have hends := ends_of_mid h.fresh.units (by omega) h.mid (by omega)
        (by rw [htotal, hunit]
            omega)
        (by intro n hn _
            rw [htotal] at hn
            have hlt := pred_mul_lt_size p hn
            rw [hcurrent]
            show n * p.unitSize - 0 < p.size ∧ n * p.unitSize - 0 ≠ p.size
            omega)
      refine ⟨[], p, rest, _, rfl, hends, mem_append_right _ ?_⟩
      rw [mem_motrRead]
      refine ⟨p.size, by omega, ?_⟩
      rw [h.index, Nat.zero_add, hcurrent]
      rfl

/-- Where the range fits, the padding of no part reaches its end. -/
theorem padding_of_rangeFits {last : Nat} :
    ∀ (rest pre : List PartLayout), parts = pre ++ rest →
      RangeFits (last + 1 - contentLength pre) rest →
      ∀ pre' p rest', parts = pre' ++ p :: rest' → contentLength pre ≤ contentLength pre' →
        contentLength pre' + p.size ≤ last → contentLength pre' + blocks p * p.unitSize ≤ last := by
  intro rest
  induction rest with
  | nil =>
    intro pre _ hfits
    exact absurd hfits id
  | cons q rest ih =>
    intro pre hparts hfits pre' p rest' hparts' hpos hbefore
    have hlen : contentLength (pre ++ [q]) = contentLength pre + q.size := by
      rw [contentLength_append, contentLength_cons]
      rfl
    by_cases hsame : contentLength pre' < contentLength pre + q.size
    · -- it is this part
      have heq : pre' = pre ∧ p = q := by
        rw [hparts, append_eq_append_iff] at hparts'
        rcases hparts' with ⟨as, rfl, has⟩ | ⟨as, rfl, has⟩
        · cases as with
          | nil =>
            cases has
            exact ⟨append_nil _, rfl⟩
          | cons r as =>
            cases has
            rw [contentLength_append, contentLength_cons] at hsame
            omega
        · cases as with
          | nil =>
            cases has
            exact ⟨(append_nil _).symm, rfl⟩
          | cons r as =>
            rw [contentLength_append, contentLength_cons] at hpos
            have := r.size_pos
            omega
      obtain ⟨rfl, rfl⟩ := heq
      rcases hfits with hfits | ⟨hfits, _⟩
      · omega
      · omega
    · rcases hfits with hfits | ⟨_, hfits⟩
      · omega
      · refine ih (pre ++ [q]) (by rw [hparts, append_assoc]; rfl) ?_ pre' p rest' hparts'
          (by omega) hbefore
        rw [hlen, ← Nat.sub_sub]
        exact hfits

/-! ### The first part -/

theorem head?_motrRead {motr : MotrObjects} {i index n : Nat} (hn : 0 < n) :
    (motrRead motr i index n).head? = some (motr i index) := by
  obtain ⟨k, rfl⟩ := Nat.exists_eq_succ_of_ne_zero (Nat.pos_iff_ne_zero.mp hn)
  unfold motrRead
  rw [range_succ_eq_map]
  rfl

section FirstPart

variable {a : S3GetObjectAction} {i f : Nat} {p : PartLayout} {w : Bytes}

theorem head?_of_ends (h : Begin a i f p) (hends : Ends readObjectData a w) :
    w.head? = some (a.motr i (f / p.unitSize * p.unitSize + a.skipped)) := by
  have hskip : a.skipped < p.unitSize := by
    unfold skipped
    rw [if_pos h.sent, h.unit]
    exact Nat.mod_lt _ p.unit_pos
  have hle : p.unitSize ≤ a.blocksToRead * p.unitSize :=
    Nat.le_mul_of_pos_left _ h.blocksToRead_pos
  have hread := readObjectData_read a h.more h.blocksToRead_pos
    (show a.blocksToRead * a.currentObject.unitSize =
      (a.blocksToRead * p.unitSize - a.skipped) + a.skipped by
        rw [h.unit]
        omega)
    (by rw [h.sent]
        exact Nat.succ_pos _)
  have hsize := p.size_pos
  have hsome : ∃ n, 0 < n ∧ produced (readObjectData a) =
      motrRead a.motr i (f / p.unitSize * p.unitSize + a.skipped) n := by
    have hbody : ∀ n, a.body ++ motrRead a.motr a.currentObject.objectOID
        (a.lastIndex + a.skipped) n =
        motrRead a.motr i (f / p.unitSize * p.unitSize + a.skipped) n := by
      intro n
      rw [h.body, h.oid, h.index, nil_append]
    have hsentOf : 0 < a.sentOf (a.blocksToRead * p.unitSize - a.skipped) := by
      unfold sentOf
      rw [h.size, h.fresh.sentForObject]
      split <;> omega
    rw [hread]
    split
    · refine ⟨_, ?_, hbody _⟩
      rw [h.sent]
      exact Nat.succ_pos _
    · split
      · exact ⟨_, hsentOf, hbody _⟩
      · rw [produced_readNextObject]
        exact ⟨_, hsentOf, hbody _⟩
  obtain ⟨n, hn, hproduced⟩ := hsome
  rw [ends_iff] at hends
  have hfront := produced_isPrefix hends
  rw [hproduced] at hfront
  obtain ⟨t, rfl⟩ := hfront
  rw [List.head?_append, head?_motrRead hn]
  rfl

/-- A range that ends in the padding of the first part is completed with it. -/
theorem exposes_of_padding (h : Start a i f p)
    (htotal : a.totalBlocksToRead = blocks p - f / p.unitSize)
    (hreq : p.size - f ≤ a.currentObject.requestedObjectSize)
    (hbeyond : p.size - f < a.getRequestedContentLength)
    (hpad : a.getRequestedContentLength ≤ blocks p * p.unitSize - f)
    (hends : Ends readObjectData a w) : a.motr i p.size ∈ w := by
  have hf := h.inside
  have hlt := blocks_lt_size p
  obtain ⟨hmul, hpred, hquot⟩ := unit_mul_blocks hf
  have hfull : Ends readObjectData a (motrRead a.motr i f a.getRequestedContentLength) := by
    apply ends_of_start h
    · rw [htotal, h.skipped]
      omega
    · intro n hn _
      have hle : n * p.unitSize ≤ (blocks p - f / p.unitSize - 1) * p.unitSize :=
        Nat.mul_le_mul_right _ (by omega)
      rw [h.skipped]
      omega
  rw [hfull.unique hends, mem_motrRead]
  refine ⟨p.size - f, hbeyond, ?_⟩
  rw [Nat.add_sub_cancel' (Nat.le_of_lt hf)]

/-- A first read beyond the part that begins behind its start is cut too late. -/
theorem exposes_of_overRead (h : Start a i f p) (hpos : 0 < f) (hover : OverRead a)
    (htotal : a.totalBlocksToRead = blocks p - f / p.unitSize)
    (hends : Ends readObjectData a w) : a.motr i p.size ∈ w := by
  have hf := h.inside
  have hcover := size_le_blocks p
  obtain ⟨hmul, hpred, hquot⟩ := unit_mul_blocks hf
  have hblocks := h.blocksToRead_of_overRead hover
  obtain ⟨hindex, hlong, hshort⟩ := hover
  have hskip := h.skipped_lt
  have hadd := h.index_add_skipped
  rw [h.unit] at hlong
  -- the unit that holds byte `f` is the first one
  have hzero : f / p.unitSize = 0 := by
    rw [Nat.div_eq_zero_iff]
    omega
  rw [hzero, Nat.sub_zero] at htotal
  have hle : (blocks p + 1) * p.unitSize ≤ a.blocksToRead * p.unitSize :=
    Nat.mul_le_mul_right _ (by omega)
  have hle' : a.blocksToRead * p.unitSize ≤ a.motrUnitsPerRequest * p.unitSize :=
    Nat.mul_le_mul_right _ (by omega)
  rw [Nat.succ_mul] at hle
  have hread := readObjectData_read a h.more h.blocksToRead_pos h.length (by rw [h.sent]; omega)
  have hsentOf : a.sentOf (a.blocksToRead * p.unitSize - a.skipped) = p.size := by
    unfold sentOf
    rw [h.size, h.fresh.sentForObject, if_pos (by omega)]
    omega
  rw [if_neg (by rw [h.sent]; omega), hsentOf] at hread
  have hproduced : produced (readObjectData a) = motrRead a.motr i f p.size := by
    rw [hread]
    split
    · exact h.advance_body _ _
    · rw [produced_readNextObject]
      exact h.advance_body _ _
  rw [ends_iff] at hends
  have hfront := produced_isPrefix hends
  rw [hproduced] at hfront
  apply hfront.subset
  rw [mem_motrRead]
  refine ⟨p.size - f, by omega, ?_⟩
  rw [Nat.add_sub_cancel' (Nat.le_of_lt hf)]

theorem exposes_of_inside (h : Start a i f p) (hpos : 0 < f) (hover : ¬ OverRead a)
    (htotal : a.totalBlocksToRead = blocks p - f / p.unitSize)
    (hreq : p.size - f ≤ a.currentObject.requestedObjectSize)
    (hbeyond : blocks p * p.unitSize - f < a.getRequestedContentLength)
    (hndvd : ¬ p.unitSize ∣ p.size)
    (hends : Ends readObjectData a w) : a.motr i p.size ∈ w := by
  have hf := h.inside
  have hcover := size_le_blocks p
  have hlt := blocks_lt_size p
  have hne : blocks p * p.unitSize ≠ p.size := fun hc => hndvd ((blocks_eq_iff p).mp hc)
  obtain ⟨hmul, hpred, hquot⟩ := unit_mul_blocks hf
  obtain ⟨a', _, _, hbody, hiff⟩ := pass_start h hover
    (min p.size (a.totalBlocksToRead * p.unitSize - a.skipped)) rfl
    (by rw [htotal, h.skipped, hmul]
        exact hbeyond)
    (by rw [htotal, h.skipped]
        omega)
    (by rw [htotal, h.skipped]
        omega)
  rw [hiff] at hends
  have hfront := produced_isPrefix hends
  rw [produced_readNextObject, hbody, htotal, h.skipped, hmul] at hfront
  apply hfront.subset
  rw [mem_motrRead]
  refine ⟨p.size - f, by omega, ?_⟩
  rw [Nat.add_sub_cancel' (Nat.le_of_lt hf)]

/-- A first read beyond a part that the range begins with completes a short range with padding, and
a longer one never ends if the counter comes to zero. -/
theorem exposes_of_atStart (h : Start a i 0 p) (hover : OverRead a)
    (htotal : a.totalBlocksToRead = blocks p)
    (hreq : p.size ≠ a.currentObject.requestedObjectSize)
    (hunits : 2 * a.motrUnitsPerRequest < sizeMod)
    (hbeyond : p.size < a.getRequestedContentLength)
    (hnot : ¬ (p.size + a.motrUnitsPerRequest * p.unitSize < a.getRequestedContentLength ∧
      ¬ a.motrUnitsPerRequest ∣ sizeMod - min a.motrUnitsPerRequest a.motrFirstReadSize))
    (hends : Ends readObjectData a w) : ∃ j, p.size ≤ j ∧ a.motr i j ∈ w := by
  have hcover : p.size ≤ a.totalBlocksToRead * p.unitSize := by
    rw [htotal]
    exact size_le_blocks p
  by_cases hfar : p.size + a.motrUnitsPerRequest * p.unitSize < a.getRequestedContentLength
  · have hdvd : a.motrUnitsPerRequest ∣
        sizeMod - min a.motrUnitsPerRequest a.motrFirstReadSize := by
      by_contra hc
      exact hnot ⟨hfar, hc⟩
    exact absurd hends (not_ends_of_overRead h hover hcover (by omega) hreq hfar hdvd w)
  · have hfull := ends_of_overRead h hover hcover hunits hreq hbeyond (by omega) rfl
    have hle : a.totalBlocksToRead * p.unitSize ≤
        min a.motrUnitsPerRequest a.motrFirstReadSize * p.unitSize :=
      Nat.mul_le_mul_right _ (by have := hover.2.2; omega)
    refine ⟨min a.motrUnitsPerRequest a.motrFirstReadSize * p.unitSize, by omega, ?_⟩
    rw [hfull.unique hends, mem_append]
    right
    rw [mem_motrRead]
    exact ⟨0, by omega, rfl⟩

end FirstPart

/-! ### Exactly the servable requests are served -/

section Needed

variable {motr : MotrObjects} {units firstReadSize first last : Nat}
  {pre rest : List PartLayout} {p : PartLayout}

/-- One byte alone is not zero. -/
def marked (i j : Nat) : MotrObjects := fun i' j' => if i' = i ∧ j' = j then 1 else 0

theorem head?_requestedBytes (hlo : contentLength pre ≤ first)
    (hhi : first < contentLength pre + p.size) (hle : first ≤ last) :
    (requestedBytes motr (pre ++ p :: rest) first last).head? =
      some (motr pre.length (first - contentLength pre)) := by
  by_cases hin : last < contentLength pre + p.size
  · rw [requestedBytes_inside motr hlo hle hin]
    exact head?_motrRead (Nat.succ_pos _)
  · rw [requestedBytes_beyond motr hlo hhi (by omega), List.head?_append,
      head?_motrRead (by omega)]
    rfl

/-- **A range that begins in a part that is not aligned begins with the wrong byte.**  The first byte
of the range is the only one that is marked. -/
theorem not_ends_of_unaligned (hlo : contentLength pre ≤ first)
    (hhi : first < contentLength pre + p.size) (hle : first ≤ last)
    (hlast : last < contentLength (pre ++ p :: rest))
    (hlen : contentLength (pre ++ p :: rest) < sizeMod)
    (hunits : 0 < units) (hread : 0 < firstReadSize) (hndvd : ¬ p.unitSize ∣ contentLength pre) :
    ¬ Ends readObjectData
      (readObject (marked pre.length (first - contentLength pre)) units firstReadSize
        (pre ++ p :: rest) first last)
      (requestedBytes (marked pre.length (first - contentLength pre)) (pre ++ p :: rest)
        first last) := by
  intro hends
  obtain ⟨a, ha⟩ : ∃ a, a = readObject (marked pre.length (first - contentLength pre))
      units firstReadSize (pre ++ p :: rest) first last := ⟨_, rfl⟩
  obtain ⟨h, _⟩ := begin_request hlo hhi hle hlast hlen hunits hread ha
  rw [← ha] at hends
  have hhead := head?_of_ends h hends
  have hskip : a.skipped = first % p.unitSize := by
    unfold skipped
    rw [if_pos h.sent, h.unit, ha]
    rfl
  have hother : first % p.unitSize ≠ (first - contentLength pre) % p.unitSize := by
    intro hmod
    apply hndvd
    have hdvd := (Nat.modEq_iff_dvd' (Nat.sub_le first (contentLength pre))).mp hmod.symm
    rw [Nat.sub_sub_self hlo] at hdvd
    exact hdvd
  have hdiv := Nat.div_add_mod (first - contentLength pre) p.unitSize
  rw [Nat.mul_comm] at hdiv
  have hmotr : a.motr = marked pre.length (first - contentLength pre) := by
    rw [ha]
    rfl
  rw [head?_requestedBytes hlo hhi hle, hmotr, hskip] at hhead
  have heq := Option.some.inj hhead
  unfold marked at heq
  rw [if_pos ⟨rfl, rfl⟩, if_neg (fun hc => hother (by omega))] at heq
  exact absurd heq (by decide)

theorem aligned_of_serves (hlo : contentLength pre ≤ first)
    (hhi : first < contentLength pre + p.size) (hle : first ≤ last)
    (hlast : last < contentLength (pre ++ p :: rest))
    (hlen : contentLength (pre ++ p :: rest) < sizeMod)
    (hunits : 0 < units) (hread : 0 < firstReadSize)
    (hserves : ∀ motr, Ends readObjectData
      (readObject motr units firstReadSize (pre ++ p :: rest) first last)
      (requestedBytes motr (pre ++ p :: rest) first last)) : p.unitSize ∣ contentLength pre := by
  by_contra hndvd
  exact not_ends_of_unaligned hlo hhi hle hlast hlen hunits hread hndvd (hserves _)

/-- What is known of a reply to a request that ends in another part, when the padding is marked. -/
theorem clean_of_serves (hserves : ∀ motr, Ends readObjectData
      (readObject motr units firstReadSize (pre ++ p :: rest) first last)
      (requestedBytes motr (pre ++ p :: rest) first last)) {a : S3GetObjectAction}
    (ha : a = readObject (padded (pre ++ p :: rest)) units firstReadSize (pre ++ p :: rest)
      first last) {w : Bytes} (hends : Ends readObjectData a w) {pre' rest' : List PartLayout}
    {q : PartLayout} (hparts : pre ++ p :: rest = pre' ++ q :: rest') {j : Nat} (hj : q.size ≤ j) :
    a.motr pre'.length j ∉ w := by
  intro hmem
  have hfull := hserves (padded (pre ++ p :: rest))
  rw [← ha] at hfull
  rw [hfull.unique hends] at hmem
  have hzero := eq_zero_of_mem_requested hmem
  rw [show a.motr = padded (pre ++ p :: rest) by rw [ha]; rfl, hparts, padded_at,
    if_neg (Nat.not_lt_of_le hj)] at hzero
  exact absurd hzero (by decide)

/-- **The conditions on the first part are needed.** -/
theorem first_of_serves (hlo : contentLength pre ≤ first)
    (hhi : first < contentLength pre + p.size) (hle : first ≤ last)
    (hbeyond : contentLength pre + p.size ≤ last) (hlast : last < contentLength (pre ++ p :: rest))
    (hlen : contentLength (pre ++ p :: rest) < sizeMod)
    (hunits : 0 < units) (hunits' : 2 * units < sizeMod) (hread : 0 < firstReadSize)
    (hserves : ∀ motr, Ends readObjectData
      (readObject motr units firstReadSize (pre ++ p :: rest) first last)
      (requestedBytes motr (pre ++ p :: rest) first last)) :
    contentLength pre + blocks p * p.unitSize ≤ last ∧
      (contentLength pre < first → p.unitSize ∣ p.size ∧
        ¬ (first - contentLength pre < p.unitSize ∧
          FirstReadTooLong units firstReadSize p (last - first + 1))) ∧
      (contentLength pre = first →
        ¬ (first = 0 ∧ last = contentLength (pre ++ p :: rest) - 1) →
        FirstReadTooLong units firstReadSize p (last - first + 1) →
        p.size + units * p.unitSize < last - first + 1 ∧
          ¬ units ∣ sizeMod - min units firstReadSize) ∧
      RangeFits (last + 1 - contentLength (pre ++ [p])) rest := by
  obtain ⟨a, ha⟩ : ∃ a, a = readObject (padded (pre ++ p :: rest)) units firstReadSize
    (pre ++ p :: rest) first last := ⟨_, rfl⟩
  obtain ⟨hbegin, htotal, _, hplan⟩ := begin_request hlo hhi hle hlast hlen hunits hread ha
  obtain ⟨hrequested, head, hobjects⟩ := hplan hbeyond
  have h := start_request ha hbegin hlo
    (aligned_of_serves hlo hhi hle hlast hlen hunits hread hserves)
  have hends := hserves (padded (pre ++ p :: rest))
  rw [← ha] at hends
  have hclean := clean_of_serves hserves ha hends rfl (le_refl p.size)
  have hreq : a.getRequestedContentLength = last - first + 1 := by
    rw [ha]
    rfl
  have hmax : a.motrUnitsPerRequest = units := by
    rw [ha]
    rfl
  have hfirst : a.motrFirstReadSize = firstReadSize := by
    rw [ha]
    rfl
  have hover := overRead_iff h htotal
  rw [hmax, hfirst, hreq] at hover
  have hwanted : p.size - (first - contentLength pre) ≤ a.currentObject.requestedObjectSize := by
    rw [hrequested]
    split <;> omega
  have hpad : contentLength pre + blocks p * p.unitSize ≤ last := by
    by_contra hc
    exact hclean (exposes_of_padding h htotal hwanted (by omega) (by omega) hends)
  have hinside : contentLength pre < first → p.unitSize ∣ p.size ∧ ¬ OverRead a := by
    intro hlt
    have hnot : ¬ OverRead a := by
      intro hlong
      exact hclean (exposes_of_overRead h (by omega) hlong htotal hends)
    refine ⟨?_, hnot⟩
    by_contra hndvd
    exact hclean (exposes_of_inside h (by omega) hnot htotal hwanted (by omega) hndvd hends)
  have hatStart : contentLength pre = first →
      p.size ≠ a.currentObject.requestedObjectSize → OverRead a →
      p.size + units * p.unitSize < last - first + 1 ∧
        ¬ units ∣ sizeMod - min units firstReadSize := by
    intro heq hne hlong
    have hzero : first - contentLength pre = 0 := by omega
    rw [hzero] at h htotal
    rw [Nat.zero_div, Nat.sub_zero] at htotal
    by_contra hnot
    rw [← hmax, ← hfirst, ← hreq] at hnot
    obtain ⟨j, hj, hmem⟩ := exposes_of_atStart h hlong htotal hne (by omega) (by omega) hnot hends
    exact clean_of_serves hserves ha hends rfl hj hmem
  refine ⟨hpad, ?_, ?_, ?_⟩
  · intro hlt
    obtain ⟨hdvd, hnot⟩ := hinside hlt
    rw [hover] at hnot
    exact ⟨hdvd, hnot⟩
  · intro heq hfull hlong
    refine hatStart heq ?_ (hover.mpr ⟨?_, hlong⟩)
    · rw [hrequested, if_neg hfull]
      omega
    · have := p.unit_pos
      omega
  · -- the first part is passed, so it is the parts behind it
    obtain ⟨a', hsame, hsent, hbody, hiff⟩ := passes h htotal (by omega) hwanted (by omega)
      (fun hne => hinside (by omega))
      (by intro hzero hlong hne
          rw [hmax, hfirst, hreq]
          exact hatStart (by omega) hne hlong)
    have hlen' : contentLength (pre ++ [p]) = contentLength pre + p.size := by
      rw [contentLength_append, contentLength_cons]
      rfl
    rw [contentLength_append, contentLength_cons] at hlast
    have hne : rest ≠ [] := by
      rintro rfl
      change last < contentLength pre + (p.size + 0) at hlast
      omega
    have hdrop : a'.extendedObjects.drop a'.nextFragmentObject = head ::
        planned (pre.length + 1) (contentLength pre + p.size)
          (last + 1 - (contentLength pre + p.size)) rest := by
      rw [hsame.objects, hsame.fragment, h.fragment, hobjects]
      rfl
    obtain ⟨a'', hstep, hbehind, hmotr, hsent', _, hreq', hdrop'⟩ :=
      readNextObject_of_drop hdrop (planned_ne_nil hne) (by omega)
        (by rw [hsame.units]; exact h.fresh.units)
    rw [hlen']
    by_contra hnot
    obtain ⟨pre', q, rest', w, hparts, hw, hmem⟩ := exposes_of_not_fits rest _ _ _ a'' hbehind
      hdrop' (fun q hq => sizes_lt hlen q (mem_append_right _ (mem_cons_of_mem _ hq)))
      (by omega) (by omega) hnot (by rw [hreq', hsame.requested, hreq, hsent', hsent]; omega)
    have hw' : Ends readObjectData a w := by
      rw [hiff, hstep]
      exact hw
    rw [hmotr, hsame.motr] at hmem
    refine clean_of_serves hserves ha hw'
      (show pre ++ p :: rest = (pre ++ p :: pre') ++ q :: rest' by
        rw [hparts, append_assoc]
        rfl) (le_refl q.size) ?_
    rw [length_append, length_cons, show pre.length + (pre'.length + 1) =
      pre.length + 1 + pre'.length by omega]
    exact hmem

end Needed

/-- **A range of an object is served with its bytes, whatever these are, exactly when the request is
servable**: the part that it begins in is aligned to its unit, no padding reaches its end, a part
that it begins inside of and goes beyond has no padding, and the first read is not longer than the
first part. -/
theorem serves_iff {units firstReadSize first last : Nat} {parts : List PartLayout}
    (hle : first ≤ last) (hlast : last < contentLength parts)
    (hlen : contentLength parts < sizeMod) (hunits : 0 < units) (hunits' : units < 2 ^ 32)
    (hread : 0 < firstReadSize) :
    (∀ motr, Ends readObjectData (readObject motr units firstReadSize parts first last)
      (requestedBytes motr parts first last)) ↔ Servable units firstReadSize parts first last := by
  have hmod : 2 * 2 ^ 32 < sizeMod := by decide
  constructor
  · intro hserves
    refine ⟨?_, ?_, ?_, ?_⟩
    · intro pre p rest hparts hlo hhi
      subst hparts
      exact aligned_of_serves hlo hhi hle hlast hlen hunits hread hserves
    · intro pre' q rest' hparts' hafter hbefore
      obtain ⟨pre, p, rest, hparts, hlo, hhi⟩ := exists_part parts (Nat.lt_of_le_of_lt hle hlast)
      have hpos : contentLength pre ≤ contentLength pre' := by
        rw [hparts, append_eq_append_iff] at hparts'
        rcases hparts' with ⟨as, rfl, _⟩ | ⟨as, rfl, has⟩
        · rw [contentLength_append]
          omega
        · cases as with
          | nil => rw [append_nil]
          | cons r as =>
            cases has
            rw [contentLength_append, contentLength_cons] at hlo
            omega
      refine padding_of_rangeFits (p :: rest) pre hparts ?_ pre' q rest' hparts' hpos hbefore
      by_cases hin : last < contentLength pre + p.size
      · exact Or.inl (by omega)
      · subst hparts
        obtain ⟨hpad, _, _, hfits⟩ := first_of_serves hlo hhi hle (by omega) hlast hlen hunits
          (by omega) hread hserves
        rw [contentLength_append, contentLength_cons,
          show contentLength ([] : List PartLayout) = 0 from rfl, Nat.add_zero,
          ← Nat.sub_sub] at hfits
        exact Or.inr ⟨by omega, hfits⟩
    · intro pre p rest hparts hlt hhi hbeyond
      subst hparts
      exact (first_of_serves (Nat.le_of_lt hlt) hhi hle hbeyond hlast hlen hunits (by omega) hread
        hserves).2.1 hlt
    · intro pre p rest hparts heq hbeyond
      subst hparts
      have := p.size_pos
      exact (first_of_serves (by omega) (by omega) hle hbeyond hlast hlen hunits (by omega) hread
        hserves).2.2.1 heq
  · intro hs motr
    obtain ⟨pre, p, rest, rfl, hlo, hhi⟩ := exists_part parts (Nat.lt_of_le_of_lt hle hlast)
    exact serves_part hs hlo hhi hle hlast hlen hunits (by omega) hread

/-- Parts of whole units of one size, none shorter than the first read, are served. -/
theorem servable_of_whole_units {units firstReadSize u : Nat} (hunit : ∀ p ∈ parts, p.unitSize = u)
    (hwhole : ∀ p ∈ parts, u ∣ p.size) (hlong : ∀ p ∈ parts, min units firstReadSize ≤ blocks p)
    (first last : Nat) : Servable units firstReadSize parts first last := by
  have hmem : ∀ pre p rest, parts = pre ++ p :: rest → p ∈ parts := by
    intro pre p rest hparts
    rw [hparts]
    exact mem_append_right _ mem_cons_self
  have hdvd : ∀ pre rest, parts = pre ++ rest → u ∣ contentLength pre := by
    intro pre rest hparts
    apply dvd_sum
    intro n hn
    obtain ⟨p, hp, rfl⟩ := mem_map.mp hn
    apply hwhole
    rw [hparts]
    exact mem_append_left _ hp
  refine ⟨?_, ?_, ?_, ?_⟩
  · intro pre p rest hparts _ _
    rw [hunit p (hmem pre p rest hparts)]
    exact hdvd pre _ hparts
  · intro pre p rest hparts _ hbeyond
    have hp := hmem pre p rest hparts
    rw [(blocks_eq_iff p).mpr (by rw [hunit p hp]; exact hwhole p hp)]
    exact hbeyond
  · intro pre p rest hparts _ _ _
    have hp := hmem pre p rest hparts
    have hle := hlong p hp
    refine ⟨by rw [hunit p hp]; exact hwhole p hp, ?_⟩
    intro hc
    have := hc.2.2
    omega
  · intro pre p rest hparts _ _ _ hc
    have hle := hlong p (hmem pre p rest hparts)
    have := hc.2
    omega

/-- Two parts of five units and a range over both. -/
theorem serves_iff_twoParts :
    (∀ motr, Ends readObjectData
      (readObject motr 8 1 [⟨5242880, 1048576, by decide, by decide⟩,
        ⟨5242880, 1048576, by decide, by decide⟩] 1000 9000000)
      (requestedBytes motr [⟨5242880, 1048576, by decide, by decide⟩,
        ⟨5242880, 1048576, by decide, by decide⟩] 1000 9000000)) ∧
      Servable 8 1 [⟨5242880, 1048576, by decide, by decide⟩,
        ⟨5242880, 1048576, by decide, by decide⟩] 1000 9000000 := by
  have hservable : Servable 8 1 [⟨5242880, 1048576, by decide, by decide⟩,
      ⟨5242880, 1048576, by decide, by decide⟩] 1000 9000000 := by
    apply servable_of_whole_units (u := 1048576)
    · simp
    · simp
    · simp [blocks]
  exact ⟨(serves_iff (by decide) (by decide) (by decide) (by decide) (by decide)
    (by decide)).mpr hservable, hservable⟩

/-- The second of two parts does not start at a whole unit: the first byte of it is not what a
request for this byte gets. -/
theorem not_serves_unalignedPart :
    ¬ Ends readObjectData
      (readObject (marked 1 0) 8 1 [⟨5242881, 1048576, by decide, by decide⟩,
        ⟨100, 1048576, by decide, by decide⟩] 5242881 5242881)
      (requestedBytes (marked 1 0) [⟨5242881, 1048576, by decide, by decide⟩,
        ⟨100, 1048576, by decide, by decide⟩] 5242881 5242881) :=
  not_ends_of_unaligned
    (show contentLength [⟨5242881, 1048576, by decide, by decide⟩] ≤ 5242881 by decide)
    (by decide) (by decide) (by decide) (by decide) (by decide) (by decide) (by decide)

end S3GetObjectAction

end CortxS3
