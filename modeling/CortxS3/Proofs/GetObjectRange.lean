/-
Which requests are served with the right bytes.

The list of objects that the action reads is the first part of the range and what is planned of
the others (`plan_full`, `plan_range`, `begin_request`).  Whether the bytes of the range are sent
then depends on where the range begins and ends and on the padding of the parts: `Servable` lists
the conditions, and they are enough (`serves_part`).
-/
import CortxS3.Proofs.GetObjectOverRead

namespace CortxS3

open List

namespace S3GetObjectAction

open Until

/-! ### The plan -/

theorem contentLength_append (l l' : List PartLayout) :
    contentLength (l ++ l') = contentLength l + contentLength l' := by
  unfold contentLength
  rw [map_append, sum_append]

theorem contentLength_cons (p : PartLayout) (l : List PartLayout) :
    contentLength (p :: l) = p.size + contentLength l := by
  unfold contentLength
  rw [map_cons, sum_cons]

theorem extendedObjectsFrom_cons (i offset : Nat) (p : PartLayout) (rest : List PartLayout) :
    extendedObjectsFrom i offset (p :: rest) =
      partInfo i offset p :: extendedObjectsFrom (i + 1) (offset + p.size) rest := rfl

theorem extendedObjectsFrom_append (rest : List PartLayout) :
    ∀ (pre : List PartLayout) (i offset : Nat),
      extendedObjectsFrom i offset (pre ++ rest) =
        extendedObjectsFrom i offset pre ++
          extendedObjectsFrom (i + pre.length) (offset + contentLength pre) rest := by
  intro pre
  induction pre with
  | nil =>
    intro i offset
    rfl
  | cons p pre ih =>
    intro i offset
    rw [cons_append, extendedObjectsFrom_cons, extendedObjectsFrom_cons, ih,
      contentLength_cons, cons_append, length_cons]
    congr 3
    · omega
    · omega

theorem length_extendedObjectsFrom : ∀ (parts : List PartLayout) (i offset : Nat),
    (extendedObjectsFrom i offset parts).length = parts.length := by
  intro parts
  induction parts with
  | nil => intro i offset; rfl
  | cons p parts ih =>
    intro i offset
    rw [extendedObjectsFrom_cons, length_cons, length_cons, ih]

theorem findIdx?_before {x : Nat} : ∀ (pre : List PartLayout) (i offset : Nat),
    offset + contentLength pre ≤ x →
    (extendedObjectsFrom i offset pre).findIdx?
      (fun o => x < o.startOffsetInObject + o.objectSize) = none := by
  intro pre
  induction pre with
  | nil => intro i offset _; rfl
  | cons p pre ih =>
    intro i offset h
    rw [contentLength_cons] at h
    rw [extendedObjectsFrom_cons, List.findIdx?_cons, ih (i + 1) (offset + p.size) (by omega)]
    have hnot : ¬ x < (partInfo i offset p).startOffsetInObject + (partInfo i offset p).objectSize := by
      show ¬ x < offset + p.size
      omega
    rw [if_neg (by simpa using hnot)]
    rfl

/-- Where the range ends among some parts of which `m` bytes are wanted. -/
def lastOf : Nat → List PartLayout → Nat
  | _, [] => 0
  | m, p :: rest => if m ≤ p.size then 0 else lastOf (m - p.size) rest + 1

theorem findIdx?_last : ∀ (rest : List PartLayout) (i offset m : Nat), 0 < m →
    m ≤ contentLength rest →
    (extendedObjectsFrom i offset rest).findIdx?
      (fun o => offset + m - 1 < o.startOffsetInObject + o.objectSize) = some (lastOf m rest) := by
  intro rest
  induction rest with
  | nil =>
    intro i offset m hm hle
    change m ≤ 0 at hle
    omega
  | cons p rest ih =>
    intro i offset m hm hle
    rw [contentLength_cons] at hle
    rw [extendedObjectsFrom_cons, List.findIdx?_cons]
    unfold lastOf
    by_cases hin : m ≤ p.size
    · have hyes : offset + m - 1 <
          (partInfo i offset p).startOffsetInObject + (partInfo i offset p).objectSize := by
        show offset + m - 1 < offset + p.size
        omega
      rw [if_pos hin, if_pos (by simpa using hyes)]
    · have hno : ¬ offset + m - 1 <
          (partInfo i offset p).startOffsetInObject + (partInfo i offset p).objectSize := by
        show ¬ offset + m - 1 < offset + p.size
        omega
      have hrest := ih (i + 1) (offset + p.size) (m - p.size) (by omega) (by omega)
      rw [show offset + p.size + (m - p.size) - 1 = offset + m - 1 by omega] at hrest
      rw [if_neg hin, if_neg (by simpa using hno), hrest]
      rfl

theorem take_mapIdx_eq_planned : ∀ (rest : List PartLayout) (i offset m : Nat)
    (g : Nat → S3ExtendedObjectInfo → S3ExtendedObjectInfo), 0 < m → m ≤ contentLength rest →
    (∀ k < lastOf m rest, ∀ o, g k o = { o with totalReadableBlocks := o.totalBlocksInObject }) →
    (∀ o, g (lastOf m rest) o =
      { o with
        requestedObjectSize := offset + m - 1 - o.startOffsetInObject + 1
        totalReadableBlocks := (offset + m - 1 - o.startOffsetInObject + o.unitSize) / o.unitSize }) →
    ((extendedObjectsFrom i offset rest).mapIdx g).take (lastOf m rest + 1) =
      planned i offset m rest := by
  intro rest
  induction rest with
  | nil =>
    intro i offset m g hm hle
    change m ≤ 0 at hle
    omega
  | cons p rest ih =>
    intro i offset m g hm hle hbefore hlast
    rw [contentLength_cons] at hle
    rw [extendedObjectsFrom_cons, mapIdx_cons]
    unfold planned
    by_cases hin : m ≤ p.size
    · have hzero : lastOf m (p :: rest) = 0 := if_pos hin
      rw [hzero] at hlast ⊢
      rw [if_pos hin, take_succ_cons, take_zero, hlast]
      have hreq : offset + m - 1 - offset + 1 = m := by omega
      have hread : (offset + m - 1 - offset + p.unitSize) / p.unitSize =
          (m - 1) / p.unitSize + 1 := by
        rw [Nat.add_div_right _ p.unit_pos]
        congr 2
        omega
      show [S3ExtendedObjectInfo.mk offset (blocks p) p.size (offset + m - 1 - offset + 1)
        ((offset + m - 1 - offset + p.unitSize) / p.unitSize) i p.unitSize] = _
      rw [hreq, hread]
      rfl
    · have hsucc : lastOf m (p :: rest) = lastOf (m - p.size) rest + 1 := if_neg hin
      rw [hsucc] at hbefore hlast ⊢
      rw [if_neg hin, take_succ_cons, hbefore 0 (by omega)]
      congr 1
      apply ih (i + 1) (offset + p.size) (m - p.size) (fun k => g (k + 1)) (by omega) (by omega)
      · intro k hk o
        exact hbefore (k + 1) (by omega) o
      · intro o
        rw [show offset + p.size + (m - p.size) - 1 = offset + m - 1 by omega]
        exact hlast o

section Plan

variable {pre rest : List PartLayout} {p : PartLayout} {first last : Nat}

theorem objectIndex_first (hlo : contentLength pre ≤ first)
    (hhi : first < contentLength pre + p.size) :
    objectIndex (extendedObjectsFrom 0 0 (pre ++ p :: rest)) first 0 0 = pre.length := by
  have hyes : first < (partInfo pre.length (contentLength pre) p).startOffsetInObject +
      (partInfo pre.length (contentLength pre) p).objectSize := hhi
  unfold objectIndex
  rw [drop_zero, extendedObjectsFrom_append, List.findIdx?_append,
    findIdx?_before pre 0 0 (by omega), Nat.zero_add, Nat.zero_add, extendedObjectsFrom_cons,
    List.findIdx?_cons, if_pos (by simpa using hyes), length_extendedObjectsFrom]
  show 0 + (0 + pre.length) = pre.length
  omega

theorem objectIndex_last (hlo : contentLength pre ≤ last)
    (hhi : last < contentLength pre + contentLength (p :: rest)) (dflt : Nat) :
    objectIndex (extendedObjectsFrom 0 0 (pre ++ p :: rest)) last pre.length dflt =
      pre.length + lastOf (last + 1 - contentLength pre) (p :: rest) := by
  have hfind := findIdx?_last (p :: rest) pre.length (contentLength pre)
    (last + 1 - contentLength pre) (by omega) (by omega)
  rw [show contentLength pre + (last + 1 - contentLength pre) - 1 = last by omega] at hfind
  have hdrop : (extendedObjectsFrom 0 0 (pre ++ p :: rest)).drop pre.length =
      extendedObjectsFrom pre.length (contentLength pre) (p :: rest) := by
    rw [extendedObjectsFrom_append, drop_left' (length_extendedObjectsFrom pre 0 0),
      Nat.zero_add, Nat.zero_add]
  unfold objectIndex
  rw [hdrop, hfind]

/-- **The plan for a range**: its first part, and what is wanted of the others. -/
theorem plan_range (hfull : ¬ (first = 0 ∧ last = contentLength (pre ++ p :: rest) - 1))
    (hlo : contentLength pre ≤ first) (hhi : first < contentLength pre + p.size)
    (hle : first ≤ last) (hlast : last < contentLength (pre ++ p :: rest)) :
    setTotalBlocksToReadFromFragmentedObject (extendedObjectsFrom 0 0 (pre ++ p :: rest))
        (contentLength (pre ++ p :: rest)) first last =
      { partInfo pre.length (contentLength pre) p with
        requestedObjectSize :=
          if last < contentLength pre + p.size then last - first + 1
          else p.size - (first - contentLength pre) + 1
        totalReadableBlocks :=
          blocks p - (first - contentLength pre + p.unitSize) / p.unitSize + 1 } ::
      (if last < contentLength pre + p.size then []
        else planned (pre.length + 1) (contentLength pre + p.size)
          (last + 1 - (contentLength pre + p.size)) rest) := by
  rw [contentLength_append] at hlast
  have hlastIndex := objectIndex_last (by omega) hlast
    ((extendedObjectsFrom 0 0 (pre ++ p :: rest)).length - 1)
  unfold setTotalBlocksToReadFromFragmentedObject
  rw [if_neg hfull]
  dsimp only
  rw [objectIndex_first hlo hhi, hlastIndex, extendedObjectsFrom_append, mapIdx_append,
    drop_left' (by rw [length_mapIdx, length_extendedObjectsFrom]),
    length_extendedObjectsFrom, Nat.zero_add, Nat.zero_add, extendedObjectsFrom_cons,
    mapIdx_cons]
  rw [contentLength_cons] at hlast
  by_cases hin : last < contentLength pre + p.size
  · have hzero : lastOf (last + 1 - contentLength pre) (p :: rest) = 0 := if_pos (by omega)
    rw [hzero, if_pos hin, if_pos hin, Nat.add_zero, Nat.add_sub_cancel_left,
      take_succ_cons, take_zero]
    unfold updateForRange partInfo
    simp
  · have hsucc : lastOf (last + 1 - contentLength pre) (p :: rest) =
        lastOf (last + 1 - contentLength pre - p.size) rest + 1 := if_neg (by omega)
    rw [hsucc, if_neg hin, if_neg hin,
      show pre.length + (lastOf (last + 1 - contentLength pre - p.size) rest + 1) + 1 - pre.length =
        lastOf (last + 1 - contentLength pre - p.size) rest + 1 + 1 by omega,
      take_succ_cons, Nat.sub_sub]
    congr 1
    · unfold updateForRange partInfo
      simp
    · apply take_mapIdx_eq_planned
      · omega
      · omega
      · intro k hk o
        unfold updateForRange
        rw [if_neg (by omega), if_neg (by omega), if_neg (by omega), if_neg (by omega),
          if_neg (by omega), if_pos ⟨by omega, by omega⟩]
      · intro o
        unfold updateForRange
        rw [if_neg (by omega), if_neg (by omega), if_pos (by omega), if_neg (by omega),
          if_pos (by omega), show contentLength pre + p.size +
            (last + 1 - (contentLength pre + p.size)) - 1 = last by omega]

theorem planned_whole : ∀ (rest : List PartLayout) (i offset : Nat),
    planned i offset (contentLength rest) rest =
      (extendedObjectsFrom i offset rest).map
        fun o => { o with totalReadableBlocks := o.totalBlocksInObject } := by
  intro rest
  induction rest with
  | nil => intro i offset; rfl
  | cons p rest ih =>
    intro i offset
    rw [extendedObjectsFrom_cons, map_cons, contentLength_cons]
    unfold planned
    cases rest with
    | nil =>
      rw [show contentLength ([] : List PartLayout) = 0 from rfl, Nat.add_zero,
        if_pos (le_refl _)]
      have hblocks : (p.size - 1) / p.unitSize + 1 = blocks p := by
        unfold blocks
        rw [← Nat.add_div_right _ p.unit_pos]
        congr 1
        have := p.size_pos
        have := p.unit_pos
        omega
      rw [hblocks]
      rfl
    | cons q rest =>
      have hpos : 0 < contentLength (q :: rest) := by
        rw [contentLength_cons]
        have := q.size_pos
        omega
      rw [if_neg (by omega), Nat.add_sub_cancel_left, ih]
      rfl

/-- **The plan for a whole object.** -/
theorem plan_full (hlast : last = contentLength (p :: rest) - 1) :
    setTotalBlocksToReadFromFragmentedObject (extendedObjectsFrom 0 0 (p :: rest))
        (contentLength (p :: rest)) 0 last =
      { partInfo 0 0 p with totalReadableBlocks := blocks p } ::
        planned 1 p.size (contentLength rest) rest := by
  unfold setTotalBlocksToReadFromFragmentedObject
  rw [if_pos ⟨rfl, hlast⟩, extendedObjectsFrom_cons, map_cons, planned_whole]
  show _ :: List.map _ (extendedObjectsFrom 1 (0 + p.size) rest) = _
  rw [Nat.zero_add p.size]
  rfl

end Plan

/-! ### The bytes of the range -/

/-- What a client asks for. -/
def requestedBytes (motr : MotrObjects) (parts : List PartLayout) (first last : Nat) : Bytes :=
  ((bytesFrom motr 0 parts).drop first).take (last - first + 1)

theorem bytesFrom_cons (motr : MotrObjects) (i : Nat) (p : PartLayout) (rest : List PartLayout) :
    bytesFrom motr i (p :: rest) = motrRead motr i 0 p.size ++ bytesFrom motr (i + 1) rest := rfl

theorem length_bytesFrom (motr : MotrObjects) : ∀ (parts : List PartLayout) (i : Nat),
    (bytesFrom motr i parts).length = contentLength parts := by
  intro parts
  induction parts with
  | nil => intro i; rfl
  | cons p parts ih =>
    intro i
    unfold bytesFrom
    rw [length_append, length_motrRead, ih, contentLength_cons]

theorem bytesFrom_append (motr : MotrObjects) (rest : List PartLayout) :
    ∀ (pre : List PartLayout) (i : Nat),
      bytesFrom motr i (pre ++ rest) = bytesFrom motr i pre ++ bytesFrom motr (i + pre.length) rest := by
  intro pre
  induction pre with
  | nil => intro i; rfl
  | cons p pre ih =>
    intro i
    rw [cons_append, bytesFrom_cons, bytesFrom_cons, ih, append_assoc,
      length_cons, show i + 1 + pre.length = i + (pre.length + 1) by
      omega]

theorem exists_part {x : Nat} : ∀ (parts : List PartLayout), x < contentLength parts →
    ∃ pre p rest, parts = pre ++ p :: rest ∧ contentLength pre ≤ x ∧
      x < contentLength pre + p.size := by
  intro parts
  induction parts generalizing x with
  | nil =>
    intro h
    change x < 0 at h
    omega
  | cons p parts ih =>
    intro h
    rw [contentLength_cons] at h
    by_cases hin : x < p.size
    · refine ⟨[], p, parts, rfl, Nat.zero_le _, ?_⟩
      change x < 0 + p.size
      omega
    · obtain ⟨pre, q, rest, hparts, hlo, hhi⟩ := ih (x := x - p.size) (by omega)
      refine ⟨p :: pre, q, rest, ?_, ?_, ?_⟩
      · rw [hparts, cons_append]
      · rw [contentLength_cons]
        omega
      · rw [contentLength_cons]
        omega

section Bytes

variable {pre rest : List PartLayout} {p : PartLayout} {first last : Nat} (motr : MotrObjects)

theorem requestedBytes_drop (hlo : contentLength pre ≤ first) :
    requestedBytes motr (pre ++ p :: rest) first last =
      ((bytesFrom motr pre.length (p :: rest)).drop (first - contentLength pre)).take
        (last - first + 1) := by
  unfold requestedBytes
  rw [bytesFrom_append, drop_append, length_bytesFrom,
    drop_eq_nil_of_le (by rw [length_bytesFrom]; exact hlo), nil_append, Nat.zero_add]

theorem requestedBytes_inside (hlo : contentLength pre ≤ first) (hle : first ≤ last)
    (hin : last < contentLength pre + p.size) :
    requestedBytes motr (pre ++ p :: rest) first last =
      motrRead motr pre.length (first - contentLength pre) (last - first + 1) := by
  rw [requestedBytes_drop motr hlo, bytesFrom_cons,
    drop_append_of_le_length (by rw [length_motrRead]; omega),
    drop_motrRead _ _ _ (by omega), Nat.zero_add,
    take_append_of_le_length (by rw [length_motrRead]; omega), take_motrRead _ _ _ (by omega)]

theorem requestedBytes_beyond (hlo : contentLength pre ≤ first)
    (hhi : first < contentLength pre + p.size) (hbeyond : contentLength pre + p.size ≤ last) :
    requestedBytes motr (pre ++ p :: rest) first last =
      motrRead motr pre.length (first - contentLength pre) (p.size - (first - contentLength pre)) ++
        (bytesFrom motr (pre.length + 1) rest).take (last + 1 - (contentLength pre + p.size)) := by
  rw [requestedBytes_drop motr hlo, bytesFrom_cons,
    drop_append_of_le_length (by rw [length_motrRead]; omega),
    drop_motrRead _ _ _ (by omega), Nat.zero_add, take_append, length_motrRead,
    take_of_length_le (by rw [length_motrRead]; omega)]
  congr 2
  omega

end Bytes

/-! ### Requests that are served -/

/-- A first read of a range of `n` bytes goes beyond the part. -/
def FirstReadTooLong (units firstReadSize : Nat) (p : PartLayout) (n : Nat) : Prop :=
  units * p.unitSize < n ∧ blocks p < min units firstReadSize

/-- Parts and range for which the right bytes are sent. -/
structure Servable (units firstReadSize : Nat) (parts : List PartLayout) (first last : Nat) :
    Prop where
  /-- The part that the range begins in starts at a multiple of its unit size. -/
  aligned : ∀ pre p rest, parts = pre ++ p :: rest → contentLength pre ≤ first →
    first < contentLength pre + p.size → p.unitSize ∣ contentLength pre
  /-- The padding of a part that the range goes beyond does not reach the end of the range. -/
  padding : ∀ pre p rest, parts = pre ++ p :: rest → first < contentLength pre + p.size →
    contentLength pre + p.size ≤ last → contentLength pre + blocks p * p.unitSize ≤ last
  /-- A part that the range begins inside of and goes beyond has no padding, and is not shorter than
  the first read. -/
  inside : ∀ pre p rest, parts = pre ++ p :: rest → contentLength pre < first →
    first < contentLength pre + p.size → contentLength pre + p.size ≤ last →
    p.unitSize ∣ p.size ∧
      ¬ (first - contentLength pre < p.unitSize ∧
        FirstReadTooLong units firstReadSize p (last - first + 1))
  /-- If the range begins at the start of a part shorter than the first read, it ends far behind it
  and the block counter does not come to zero when it wraps. -/
  atStart : ∀ pre p rest, parts = pre ++ p :: rest → contentLength pre = first →
    contentLength pre + p.size ≤ last → ¬ (first = 0 ∧ last = contentLength parts - 1) →
    FirstReadTooLong units firstReadSize p (last - first + 1) →
    p.size + units * p.unitSize < last - first + 1 ∧ ¬ units ∣ sizeMod - min units firstReadSize

/-- The first part is passed and the others are as planned. -/
theorem ends_of_passed {a a' : S3GetObjectAction} {head : S3ExtendedObjectInfo}
    {i offset m : Nat} {rest : List PartLayout} {front : Bytes}
    (hfragment : a.nextFragmentObject = 0) (hunits : 0 < a.motrUnitsPerRequest)
    (hobjects : a.extendedObjects = head :: planned i offset m rest) (hsame : SameRequest a a')
    (hfront : front ≠ []) (hsent : a'.dataSentToClient = front.length) (hbody : a'.body = front)
    (hends : ∀ w, Ends readObjectData a w ↔ (readNextObject a').Ends readObjectData w)
    (hsizes : ∀ p ∈ rest, p.size < sizeMod) (hm : 0 < m) (hfits : RangeFits m rest)
    (hreq : a.getRequestedContentLength = front.length + m) :
    Ends readObjectData a (front ++ (bytesFrom a.motr i rest).take m) := by
  have hne : rest ≠ [] := by
    rintro rfl
    exact hfits
  have hdrop : a'.extendedObjects.drop a'.nextFragmentObject = head :: planned i offset m rest := by
    rw [hsame.objects, hsame.fragment, hfragment, hobjects]
    rfl
  obtain ⟨a'', hstep, hbehind, hmotr, hsent', hbody', hreq', hdrop'⟩ :=
    readNextObject_of_drop hdrop (planned_ne_nil hne)
      (by rw [hsent]; exact length_pos_iff.mpr hfront)
      (by rw [hsame.units]; exact hunits)
  have hfinal := ends_of_planned rest i offset m a'' hbehind hdrop' hsizes hm hfits
    (by rw [hreq', hsame.requested, hreq, hsent', hsent])
  rw [hbody', hbody, hmotr, hsame.motr] at hfinal
  rw [hends, hstep]
  exact hfinal

theorem rangeFits_of_padding {parts : List PartLayout} {last : Nat} :
    ∀ (rest pre : List PartLayout), parts = pre ++ rest →
      (∀ pre' p rest', parts = pre' ++ p :: rest' → contentLength pre ≤ contentLength pre' →
        contentLength pre' + p.size ≤ last → contentLength pre' + blocks p * p.unitSize ≤ last) →
      contentLength pre ≤ last → last < contentLength parts →
      RangeFits (last + 1 - contentLength pre) rest := by
  intro rest
  induction rest with
  | nil =>
    intro pre hparts _ hlo hhi
    rw [hparts, append_nil] at hhi
    omega
  | cons p rest ih =>
    intro pre hparts hpad hlo hhi
    by_cases hin : last + 1 - contentLength pre ≤ p.size
    · exact Or.inl hin
    · right
      have hlen : contentLength (pre ++ [p]) = contentLength pre + p.size := by
        rw [contentLength_append, contentLength_cons]
        rfl
      have hp := hpad pre p rest hparts (le_refl _) (by omega)
      have hrest := ih (pre ++ [p]) (by rw [hparts, append_assoc]; rfl)
        (fun pre' q rest' h hle => hpad pre' q rest' h (by omega)) (by omega) hhi
      rw [hlen, ← Nat.sub_sub] at hrest
      exact ⟨by omega, hrest⟩

section Served

variable {motr : MotrObjects} {units firstReadSize first last : Nat}
  {pre rest : List PartLayout} {p : PartLayout}

theorem contentLength_eq_zero {l : List PartLayout} (h : contentLength l = 0) : l = [] := by
  cases l with
  | nil => rfl
  | cons p l =>
    rw [contentLength_cons] at h
    have := p.size_pos
    omega

variable {f : Nat}

theorem unit_mul_blocks (hf : f < p.size) :
    (blocks p - f / p.unitSize) * p.unitSize - f % p.unitSize = blocks p * p.unitSize - f ∧
      (blocks p - f / p.unitSize - 1) * p.unitSize + p.unitSize =
        (blocks p - f / p.unitSize) * p.unitSize ∧
      f / p.unitSize < blocks p := by
  have hdiv := Nat.div_add_mod f p.unitSize
  have hle := size_le_blocks p
  have hmod := Nat.mod_lt f p.unit_pos
  have hlt : f / p.unitSize < blocks p := by
    apply Nat.lt_of_mul_lt_mul_right (a := p.unitSize)
    rw [Nat.mul_comm] at hdiv
    omega
  refine ⟨?_, ?_, hlt⟩
  · rw [Nat.sub_mul, Nat.mul_comm (f / p.unitSize)]
    omega
  · rw [← Nat.succ_mul]
    congr 1
    omega

variable {a : S3GetObjectAction}

/-- The action begins with the part that holds the first byte. -/
theorem begin_readObject {head : S3ExtendedObjectInfo} {tail : List S3ExtendedObjectInfo}
    (ha : a = readObject motr units firstReadSize (pre ++ p :: rest) first last)
    (hobjects : a.extendedObjects = head :: tail) (hoid : head.objectOID = pre.length)
    (hunit : head.unitSize = p.unitSize) (hsize : head.objectSize = p.size)
    (hstart : head.startOffsetInObject = contentLength pre)
    (hreadable : head.totalReadableBlocks = blocks p - (first - contentLength pre) / p.unitSize)
    (hlo : contentLength pre ≤ first) (hhi : first < contentLength pre + p.size)
    (hfirst : first < sizeMod) (hblocks : blocks p < sizeMod) (hunits : 0 < units)
    (hread : 0 < firstReadSize) :
    Begin a pre.length (first - contentLength pre) p ∧
      a.totalBlocksToRead = blocks p - (first - contentLength pre) / p.unitSize ∧
      a.currentObject = head := by
  subst ha
  have hcurrent : (readObject motr units firstReadSize (pre ++ p :: rest) first last).currentObject =
      head := currentObject_of_drop (show List.drop 0 _ = head :: tail from hobjects)
  have htotal : (readObject motr units firstReadSize (pre ++ p :: rest) first last).totalBlocksToRead =
      blocks p - (first - contentLength pre) / p.unitSize := by
    rw [← hreadable, ← hcurrent]
    rfl
  have hindex : (readObject motr units firstReadSize (pre ++ p :: rest) first last).lastIndex =
      ((first - head.startOffsetInObject + head.unitSize) / head.unitSize - 1) * head.unitSize := by
    rw [← hcurrent]
    rfl
  have hquot := (unit_mul_blocks (show first - contentLength pre < p.size by omega)).2.2
  refine ⟨⟨⟨rfl, rfl, rfl, hunits⟩, hread, rfl, rfl, rfl, ?_, ?_, ?_, by omega, ?_, by omega, ?_, ?_⟩,
    htotal, hcurrent⟩
  · rw [hcurrent]
    exact hoid
  · rw [hcurrent]
    exact hunit
  · rw [hcurrent]
    exact hsize
  · rw [hindex, hstart, hunit, Nat.add_div_right _ p.unit_pos, Nat.add_sub_cancel]
  · rw [htotal]
    omega
  · rw [htotal]
    exact Nat.lt_of_le_of_lt (Nat.sub_le _ _) hblocks

/-- **What the action begins with**: the part that holds the first byte, and what is planned of the
parts behind it. -/
theorem begin_request (hlo : contentLength pre ≤ first) (hhi : first < contentLength pre + p.size)
    (hle : first ≤ last) (hlast : last < contentLength (pre ++ p :: rest))
    (hlen : contentLength (pre ++ p :: rest) < sizeMod) (hunits : 0 < units)
    (hread : 0 < firstReadSize)
    (ha : a = readObject motr units firstReadSize (pre ++ p :: rest) first last) :
    Begin a pre.length (first - contentLength pre) p ∧
      a.totalBlocksToRead = blocks p - (first - contentLength pre) / p.unitSize ∧
      (last < contentLength pre + p.size →
        a.currentObject.requestedObjectSize = last - first + 1) ∧
      (contentLength pre + p.size ≤ last →
        a.currentObject.requestedObjectSize =
          (if first = 0 ∧ last = contentLength (pre ++ p :: rest) - 1 then p.size
            else p.size - (first - contentLength pre) + 1) ∧
        ∃ head, a.extendedObjects = head ::
          planned (pre.length + 1) (contentLength pre + p.size)
            (last + 1 - (contentLength pre + p.size)) rest) := by
  have hbsize := blocks_le_size p
  have hsum : contentLength (pre ++ p :: rest) =
      contentLength pre + (p.size + contentLength rest) := by
    rw [contentLength_append, contentLength_cons]
  have hobjects : a.extendedObjects = setTotalBlocksToReadFromFragmentedObject
      (extendedObjectsFrom 0 0 (pre ++ p :: rest)) (contentLength (pre ++ p :: rest)) first last := by
    rw [ha]
    rfl
  by_cases hfull : first = 0 ∧ last = contentLength (pre ++ p :: rest) - 1
  · obtain rfl : pre = [] := contentLength_eq_zero (by omega)
    obtain ⟨rfl, hend⟩ := hfull
    have hnil : contentLength ([] : List PartLayout) = 0 := rfl
    rw [nil_append] at hobjects hend hsum
    rw [plan_full hend] at hobjects
    obtain ⟨h, htotal, hcurrent⟩ := begin_readObject ha hobjects rfl rfl rfl rfl
      (show blocks p = blocks p - (0 - 0) / p.unitSize by
        rw [Nat.sub_self, Nat.zero_div, Nat.sub_zero]) hlo hhi (by omega) (by omega) hunits hread
    refine ⟨h, htotal, ?_, ?_⟩
    · intro hin
      rw [hcurrent]
      show p.size = last - 0 + 1
      omega
    · intro hbeyond
      rw [if_pos ⟨rfl, hend⟩, hcurrent]
      refine ⟨rfl, { partInfo 0 0 p with totalReadableBlocks := blocks p }, ?_⟩
      rw [hnil, Nat.zero_add p.size, show last + 1 - p.size = contentLength rest by omega]
      exact hobjects
  · rw [plan_range hfull hlo hhi hle hlast] at hobjects
    have hquot := (unit_mul_blocks (show first - contentLength pre < p.size by omega)).2.2
    have hreadable : blocks p - (first - contentLength pre + p.unitSize) / p.unitSize + 1 =
        blocks p - (first - contentLength pre) / p.unitSize := by
      rw [Nat.add_div_right _ p.unit_pos]
      omega
    obtain ⟨h, htotal, hcurrent⟩ := begin_readObject ha hobjects rfl rfl rfl rfl hreadable hlo hhi
      (by omega) (by omega) hunits hread
    refine ⟨h, htotal, ?_, ?_⟩
    · intro hin
      rw [hcurrent]
      exact if_pos hin
    · intro hbeyond
      rw [if_neg hfull, hcurrent]
      have hnot : ¬ last < contentLength pre + p.size := by omega
      rw [if_neg hnot, if_neg hnot] at hobjects
      exact ⟨if_neg hnot, _, hobjects⟩

theorem start_request (ha : a = readObject motr units firstReadSize (pre ++ p :: rest) first last)
    (h : Begin a pre.length (first - contentLength pre) p) (hlo : contentLength pre ≤ first)
    (halign : p.unitSize ∣ contentLength pre) :
    Start a pre.length (first - contentLength pre) p := by
  refine ⟨h, ?_⟩
  unfold skipped
  rw [if_pos h.sent, h.unit, show a.firstByteOffsetToRead = first by rw [ha]; rfl]
  obtain ⟨c, hc⟩ := halign
  conv => lhs; rw [show first = first - contentLength pre + p.unitSize * c by omega]
  rw [Nat.add_mul_mod_self_left]

variable {i : Nat}

/-- **The first part is passed**, if it has no padding or the range begins at its start. -/
theorem passes (h : Start a i f p) (htotal : a.totalBlocksToRead = blocks p - f / p.unitSize)
    (hpad : blocks p * p.unitSize - f < a.getRequestedContentLength)
    (hreq : p.size - f ≤ a.currentObject.requestedObjectSize)
    (hunits : a.motrUnitsPerRequest < sizeMod) (hin : f ≠ 0 → p.unitSize ∣ p.size ∧ ¬ OverRead a)
    (hover : f = 0 → OverRead a → p.size ≠ a.currentObject.requestedObjectSize →
      p.size + a.motrUnitsPerRequest * p.unitSize < a.getRequestedContentLength ∧
        ¬ a.motrUnitsPerRequest ∣ sizeMod - min a.motrUnitsPerRequest a.motrFirstReadSize) :
    ∃ a', SameRequest a a' ∧ a'.dataSentToClient = p.size - f ∧
      a'.body = motrRead a.motr i f (p.size - f) ∧
      ∀ w, Ends readObjectData a w ↔ (readNextObject a').Ends readObjectData w := by
  have hle := size_le_blocks p
  have hlt := blocks_lt_size p
  have hinside := h.inside
  obtain ⟨hmul, hpred, hquot⟩ := unit_mul_blocks hinside
  by_cases hf : f = 0
  · subst hf
    by_cases hlong : OverRead a
    · rw [Nat.zero_div, Nat.sub_zero] at htotal
      exact pass_overRead h hlong (by rw [htotal]; exact hle) hunits (hover rfl hlong)
    · apply pass_start h hlong
      · rw [htotal, h.skipped, hmul]
        omega
      · rw [htotal, h.skipped, hmul]
        exact hpad
      · rw [htotal, h.skipped]
        omega
      · rw [htotal, h.skipped]
        omega
  · obtain ⟨hdvd, hlong⟩ := hin hf
    have hsize := (blocks_eq_iff p).mpr hdvd
    have hu := p.unit_pos
    apply pass_start h hlong
    · rw [htotal, h.skipped, hmul]
      omega
    · rw [htotal, h.skipped, hmul]
      exact hpad
    · rw [htotal, h.skipped]
      omega
    · rw [htotal, h.skipped]
      omega

theorem motrRead_ne_nil {motr : MotrObjects} {index n : Nat} (hn : 0 < n) :
    motrRead motr i index n ≠ [] := by
  intro h
  have := congrArg List.length h
  rw [length_motrRead, length_nil] at this
  omega

theorem overRead_iff (h : Start a i f p) (htotal : a.totalBlocksToRead = blocks p - f / p.unitSize) :
    OverRead a ↔ f < p.unitSize ∧
      FirstReadTooLong a.motrUnitsPerRequest a.motrFirstReadSize p a.getRequestedContentLength := by
  have hu := p.unit_pos
  have hindex : a.lastIndex = 0 ↔ f < p.unitSize := by
    rw [h.index, Nat.mul_eq_zero, Nat.div_eq_zero_iff]
    omega
  unfold OverRead FirstReadTooLong
  rw [hindex, h.unit, htotal]
  constructor
  · intro hc
    rw [Nat.div_eq_of_lt hc.1, Nat.sub_zero] at hc
    exact hc
  · intro hc
    rw [Nat.div_eq_of_lt hc.1, Nat.sub_zero]
    exact hc

theorem sizes_lt {parts : List PartLayout} (hlen : contentLength parts < sizeMod) :
    ∀ q ∈ parts, q.size < sizeMod := by
  intro q hq
  obtain ⟨pre, rest, rfl⟩ := append_of_mem hq
  rw [contentLength_append, contentLength_cons] at hlen
  omega

/-- **A servable request is served.** -/
theorem serves_part (hs : Servable units firstReadSize (pre ++ p :: rest) first last)
    (hlo : contentLength pre ≤ first) (hhi : first < contentLength pre + p.size)
    (hle : first ≤ last) (hlast : last < contentLength (pre ++ p :: rest))
    (hlen : contentLength (pre ++ p :: rest) < sizeMod)
    (hunits : 0 < units) (hunits' : units < sizeMod) (hread : 0 < firstReadSize) :
    Ends readObjectData (readObject motr units firstReadSize (pre ++ p :: rest) first last)
      (requestedBytes motr (pre ++ p :: rest) first last) := by
  obtain ⟨a, ha⟩ : ∃ a, a = readObject motr units firstReadSize (pre ++ p :: rest) first last :=
    ⟨_, rfl⟩
  obtain ⟨hbegin, htotal, hinside, hbeyond⟩ :=
    begin_request hlo hhi hle hlast hlen hunits hread ha
  have h := start_request ha hbegin hlo (hs.aligned pre p rest rfl hlo hhi)
  have hreq : a.getRequestedContentLength = last - first + 1 := by
    rw [ha]
    rfl
  have hmotr : a.motr = motr := by
    rw [ha]
    rfl
  have hmax : a.motrUnitsPerRequest = units := by
    rw [ha]
    rfl
  have hfirst : a.motrFirstReadSize = firstReadSize := by
    rw [ha]
    rfl
  have hover := overRead_iff h htotal
  rw [hmax, hfirst, hreq] at hover
  have hf := h.inside
  have hcover := size_le_blocks p
  obtain ⟨hmul, _, _⟩ := unit_mul_blocks hf
  rw [← ha]
  by_cases hin : last < contentLength pre + p.size
  · have hrequested := hinside hin
    rw [requestedBytes_inside motr hlo hle hin, ← hreq, ← hmotr]
    apply ends_of_start h
    · rw [htotal, h.skipped, hreq]
      omega
    · intro n _ hn
      rw [hreq] at hn
      rw [hrequested]
      omega
  · obtain ⟨hrequested, head, hobjects⟩ := hbeyond (by omega)
    have hpad := hs.padding pre p rest rfl hhi (by omega)
    obtain ⟨a', hsame, hsent, hbody, hends⟩ := passes h htotal
      (by rw [hreq]
          omega)
      (by rw [hrequested]
          split <;> omega)
      (by rw [hmax]
          exact hunits')
      (by intro hne
          obtain ⟨hdvd, hnot⟩ := hs.inside pre p rest rfl (by omega) hhi (by omega)
          refine ⟨hdvd, ?_⟩
          rw [hover]
          exact hnot)
      (by intro hzero hlong hne
          rw [hmax, hfirst, hreq]
          refine hs.atStart pre p rest rfl (by omega) (by omega) ?_ (hover.mp hlong).2
          intro hfull
          rw [hrequested, if_pos hfull] at hne
          exact hne rfl)
    have hlen' : contentLength (pre ++ [p]) = contentLength pre + p.size := by
      rw [contentLength_append, contentLength_cons]
      rfl
    have hfits := rangeFits_of_padding rest (pre ++ [p])
      (show pre ++ p :: rest = pre ++ [p] ++ rest by rw [append_assoc]; rfl)
      (fun pre' q rest' heq hpos => hs.padding pre' q rest' heq (by omega)) (by omega) hlast
    rw [hlen'] at hfits
    have hfinal := ends_of_passed h.fragment h.fresh.units hobjects hsame
      (motrRead_ne_nil (by omega)) (by rw [hsent, length_motrRead]) hbody hends
      (fun q hq => sizes_lt hlen q
        (mem_append_right _ (mem_cons_of_mem _ hq))) (by omega) hfits
      (by rw [hreq, length_motrRead]
          omega)
    rw [requestedBytes_beyond motr hlo hhi (by omega), ← hmotr]
    exact hfinal

end Served

end S3GetObjectAction

end CortxS3
