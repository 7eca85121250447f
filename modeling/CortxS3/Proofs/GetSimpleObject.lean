/-
A range of a simple object is sent byte for byte.

After `k` blocks the reader stands behind the `k`-th block of the range, and what was sent are the bytes
from the start of the range to there: `k * unit - skip` of them, where `skip` is what is in front of the
range in its first block (`stateAt`).  A round reads some blocks more, never more than are left, and it is
the last one just if none are left then (`readObjectData_stateAt`).
-/
import CortxS3.Server.GetSimpleObject

namespace CortxS3

open List

namespace S3GetSimpleObject

/-! ### Bytes of the object -/

@[simp] theorem length_bytesOf (object : Nat → UInt8) (index n : Nat) :
    (bytesOf object index n).length = n := by
  simp [bytesOf]

theorem bytesOf_append (object : Nat → UInt8) (index n k : Nat) :
    bytesOf object index n ++ bytesOf object (index + n) k = bytesOf object index (n + k) := by
  unfold bytesOf
  rw [range_add, map_append, map_map]
  congr 1
  refine map_congr_left fun j _ => ?_
  simp only [Function.comp_apply, Nat.add_assoc]

theorem take_bytesOf (object : Nat → UInt8) (index : Nat) {n k : Nat} (h : k ≤ n) :
    (bytesOf object index n).take k = bytesOf object index k := by
  unfold bytesOf
  rw [← map_take, take_range, Nat.min_eq_left h]

theorem drop_bytesOf (object : Nat → UInt8) (index : Nat) {n k : Nat} (h : k ≤ n) :
    (bytesOf object index n).drop k = bytesOf object (index + k) (n - k) := by
  have happ := bytesOf_append object index k (n - k)
  rw [Nat.add_sub_cancel' h] at happ
  rw [← happ, drop_left' (length_bytesOf _ _ _)]

/-! ### The blocks of a range -/

/-- What is in front of the range in its first block. -/
def skip (a : S3GetSimpleObject) : Nat := a.firstByteOffsetToRead % a.motrUnitSize

/-- The number of the first block. -/
def firstBlock (a : S3GetSimpleObject) : Nat := a.firstByteOffsetToRead / a.motrUnitSize

/-- A range that is valid, with its blocks counted. -/
structure Ready (a : S3GetSimpleObject) : Prop where
  unit : 0 < a.motrUnitSize
  units : 0 < a.motrUnitsPerRequest
  firstRead : 0 < a.motrFirstReadSize
  range : a.firstByteOffsetToRead ≤ a.lastByteOffsetToRead
  blocks : a.totalBlocksToRead = a.lastByteOffsetToRead / a.motrUnitSize - a.firstBlock + 1
  size : a.lastByteOffsetToRead + 1 < sizeMod

theorem totalBlocksToReadFromObject_eq {contentLength motrUnitSize first last : Nat}
    (hunit : 0 < motrUnitSize) (hlast : last < contentLength) :
    totalBlocksToReadFromObject contentLength motrUnitSize
      ((contentLength + (motrUnitSize - 1)) / motrUnitSize) first last =
      last / motrUnitSize - first / motrUnitSize + 1 := by
  unfold totalBlocksToReadFromObject
  split
  · rename_i hwhole
    obtain ⟨rfl, rfl⟩ := hwhole
    have heq : contentLength + (motrUnitSize - 1) = contentLength - 1 + motrUnitSize := by omega
    rw [heq, Nat.add_div_right _ hunit, Nat.zero_div, Nat.sub_zero]
  · rw [Nat.add_div_right _ hunit, Nat.add_div_right _ hunit, Nat.succ_sub_succ]

section

variable {a : S3GetSimpleObject}

theorem Ready.skip_lt (h : Ready a) : a.skip < a.motrUnitSize := Nat.mod_lt _ h.unit

theorem firstBlock_mul (a : S3GetSimpleObject) :
    a.firstBlock * a.motrUnitSize + a.skip = a.firstByteOffsetToRead := by
  unfold firstBlock skip
  rw [Nat.mul_comm]
  exact Nat.div_add_mod _ _

theorem requested_eq (h : Ready a) :
    a.firstByteOffsetToRead + a.getRequestedContentLength = a.lastByteOffsetToRead + 1 := by
  have := h.range
  unfold getRequestedContentLength
  omega

theorem requested_le (h : Ready a) :
    a.getRequestedContentLength + a.skip ≤ a.totalBlocksToRead * a.motrUnitSize := by
  have hlt := Nat.lt_mul_div_succ a.lastByteOffsetToRead h.unit
  have hmul : a.motrUnitSize * (a.lastByteOffsetToRead / a.motrUnitSize + 1) =
      a.firstBlock * a.motrUnitSize + a.totalBlocksToRead * a.motrUnitSize := by
    have hle : a.firstBlock ≤ a.lastByteOffsetToRead / a.motrUnitSize :=
      Nat.div_le_div_right h.range
    rw [← Nat.add_mul, Nat.mul_comm, h.blocks]
    congr 1
    omega
  have := firstBlock_mul a
  have := requested_eq h
  omega

theorem lt_requested (h : Ready a) {k : Nat} (hk : k < a.totalBlocksToRead) :
    k * a.motrUnitSize < a.getRequestedContentLength + a.skip := by
  have hle : (a.firstBlock + k) * a.motrUnitSize ≤ a.lastByteOffsetToRead := by
    have hdiv : a.firstBlock + k ≤ a.lastByteOffsetToRead / a.motrUnitSize := by
      have hfirst : a.firstBlock ≤ a.lastByteOffsetToRead / a.motrUnitSize :=
        Nat.div_le_div_right h.range
      have := h.blocks
      omega
    exact (Nat.mul_le_mul_right _ hdiv).trans (Nat.div_mul_le_self _ _)
  rw [Nat.add_mul] at hle
  have := firstBlock_mul a
  have := requested_eq h
  omega

theorem Ready.total_lt (h : Ready a) : a.totalBlocksToRead < sizeMod := by
  have := h.blocks
  have := h.size
  have := Nat.div_le_self a.lastByteOffsetToRead a.motrUnitSize
  omega

/-! ### A round -/

/-- The action when it has read `k` blocks of the range, in `reads`, and sent `n` bytes. -/
def stateAt (a : S3GetSimpleObject) (k n : Nat) (reads : List (Nat × Nat)) : S3GetSimpleObject :=
  { a with
    lastIndex := (a.firstBlock + k) * a.motrUnitSize
    blocksAlreadyRead := k
    dataSentToClient := n
    reads := reads
    body := bytesOf a.object a.firstByteOffsetToRead n }

/-- The bytes sent after `k` blocks, if these are not all. -/
def sentAt (a : S3GetSimpleObject) (k : Nat) : Nat := k * a.motrUnitSize - a.skip

theorem blocksToRead_stateAt (h : Ready a) {k n : Nat} (hk : k < a.totalBlocksToRead)
    (reads : List (Nat × Nat)) :
    0 < (a.stateAt k n reads).blocksToRead ∧
      k + (a.stateAt k n reads).blocksToRead ≤ a.totalBlocksToRead := by
  have hunits := h.units
  have hfirst := h.firstRead
  have hsub : subSize a.totalBlocksToRead k = a.totalBlocksToRead - k :=
    subSize_of_le (Nat.le_of_lt hk) h.total_lt
  change 0 < (if k = 0 ∧ a.motrUnitsPerRequest * a.motrUnitSize < a.getRequestedContentLength then
        if a.motrUnitsPerRequest < a.motrFirstReadSize then a.motrUnitsPerRequest
        else a.motrFirstReadSize
      else if a.motrUnitsPerRequest < subSize a.totalBlocksToRead k then a.motrUnitsPerRequest
      else subSize a.totalBlocksToRead k) ∧
    k + (if k = 0 ∧ a.motrUnitsPerRequest * a.motrUnitSize < a.getRequestedContentLength then
        if a.motrUnitsPerRequest < a.motrFirstReadSize then a.motrUnitsPerRequest
        else a.motrFirstReadSize
      else if a.motrUnitsPerRequest < subSize a.totalBlocksToRead k then a.motrUnitsPerRequest
      else subSize a.totalBlocksToRead k) ≤ a.totalBlocksToRead
  rw [hsub]
  by_cases hlong : k = 0 ∧ a.motrUnitsPerRequest * a.motrUnitSize < a.getRequestedContentLength
  · -- a range longer than one request has more blocks than one request
    have hmore : a.motrUnitsPerRequest < a.totalBlocksToRead := by
      have hle := requested_le h
      exact Nat.lt_of_mul_lt_mul_right (a := a.motrUnitSize) (by omega)
    rw [if_pos hlong]
    split <;> omega
  · rw [if_neg hlong]
    split <;> omega

theorem sentAt_pos (h : Ready a) {k : Nat} (hk : 0 < k) : 0 < a.sentAt k := by
  have hle : 1 * a.motrUnitSize ≤ k * a.motrUnitSize := Nat.mul_le_mul_right _ hk
  have := h.skip_lt
  unfold sentAt
  omega

theorem drained_stateAt (h : Ready a) {k r : Nat} (hr : 0 < r) :
    (if a.sentAt k = 0 ∧ a.skip ≠ 0 then
        (bytesOf a.object ((a.firstBlock + k) * a.motrUnitSize) (r * a.motrUnitSize)).drop a.skip
      else bytesOf a.object ((a.firstBlock + k) * a.motrUnitSize) (r * a.motrUnitSize)) =
      bytesOf a.object (a.firstByteOffsetToRead + a.sentAt k) (a.sentAt (k + r) - a.sentAt k) := by
  have hfb := firstBlock_mul a
  have hskip := h.skip_lt
  have hle : 1 * a.motrUnitSize ≤ r * a.motrUnitSize := Nat.mul_le_mul_right _ hr
  rcases Nat.eq_zero_or_pos k with rfl | hk
  · have hzero : a.sentAt 0 = 0 := by
      unfold sentAt
      omega
    have hsent : a.sentAt (0 + r) = r * a.motrUnitSize - a.skip := by
      unfold sentAt
      rw [Nat.zero_add]
    rw [hzero, hsent, Nat.add_zero, Nat.add_zero, Nat.sub_zero]
    by_cases hno : a.skip = 0
    · rw [if_neg (by simp [hno]), hno]
      congr 1
      omega
    · rw [if_pos ⟨rfl, hno⟩, drop_bytesOf _ _ (by omega), hfb]
  · have hpos := sentAt_pos h hk
    rw [if_neg (by omega)]
    have hmul : 1 * a.motrUnitSize ≤ k * a.motrUnitSize := Nat.mul_le_mul_right _ hk
    unfold sentAt
    rw [Nat.add_mul, Nat.add_mul]
    congr 1 <;> omega

theorem bytesToSend_stateAt (h : Ready a) {k r : Nat} (hk : k < a.totalBlocksToRead) (hr : 0 < r)
    (reads : List (Nat × Nat)) :
    (a.stateAt k (a.sentAt k) reads).bytesToSend r
        (bytesOf a.object ((a.firstBlock + k) * a.motrUnitSize) (r * a.motrUnitSize)) =
      bytesOf a.object (a.firstByteOffsetToRead + a.sentAt k)
        (min a.getRequestedContentLength (a.sentAt (k + r)) - a.sentAt k) := by
  have hdrained := drained_stateAt (k := k) h hr
  have hlt := lt_requested h hk
  have hskip := h.skip_lt
  have hrange := requested_eq h
  have hsize := h.size
  have hle : 1 * a.motrUnitSize ≤ r * a.motrUnitSize := Nat.mul_le_mul_right _ hr
  have hsentk : a.sentAt k < a.getRequestedContentLength := by
    unfold sentAt
    unfold getRequestedContentLength at hlt ⊢
    omega
  have hsub : subSize a.getRequestedContentLength (a.sentAt k) =
      a.getRequestedContentLength - a.sentAt k :=
    subSize_of_le (Nat.le_of_lt hsentk) (by omega)
  -- the length the source works with is that of what is left
  have hlength : (if a.sentAt k = 0 ∧ a.skip ≠ 0 then
      ((bytesOf a.object ((a.firstBlock + k) * a.motrUnitSize) (r * a.motrUnitSize)).drop
        a.skip).length
      else r * a.motrUnitSize) = a.sentAt (k + r) - a.sentAt k := by
    have hlen := congrArg List.length hdrained
    rw [length_bytesOf, apply_ite List.length, length_bytesOf] at hlen
    exact hlen
  have hmono : a.sentAt k ≤ a.sentAt (k + r) := by
    unfold sentAt
    rw [Nat.add_mul]
    omega
  have heq : (a.stateAt k (a.sentAt k) reads).bytesToSend r
      (bytesOf a.object ((a.firstBlock + k) * a.motrUnitSize) (r * a.motrUnitSize)) =
      if a.getRequestedContentLength ≤ a.sentAt k + (a.sentAt (k + r) - a.sentAt k) ∨
          a.getRequestedContentLength ≤ (bytesOf a.object
            (a.firstByteOffsetToRead + a.sentAt k) (a.sentAt (k + r) - a.sentAt k)).length then
        (bytesOf a.object (a.firstByteOffsetToRead + a.sentAt k)
          (a.sentAt (k + r) - a.sentAt k)).take
          (subSize a.getRequestedContentLength (a.sentAt k))
      else bytesOf a.object (a.firstByteOffsetToRead + a.sentAt k)
        (a.sentAt (k + r) - a.sentAt k) := by
    rw [← hdrained, ← hlength]
    rfl
  rw [heq, length_bytesOf, hsub]
  by_cases hall : a.getRequestedContentLength ≤ a.sentAt (k + r)
  · rw [if_pos (Or.inl (by omega)), take_bytesOf _ _ (by omega), Nat.min_eq_left hall]
  · rw [if_neg (by omega), Nat.min_eq_right (by omega)]

/-- The bytes that were sent after `k` blocks. -/
def sentUpTo (a : S3GetSimpleObject) (k : Nat) : Nat := min a.getRequestedContentLength (a.sentAt k)

theorem sentUpTo_eq_iff (h : Ready a) {k : Nat} (hk : k ≤ a.totalBlocksToRead) :
    a.sentUpTo k = a.getRequestedContentLength ↔ k = a.totalBlocksToRead := by
  have hle := requested_le h
  have hpos : 0 < a.getRequestedContentLength := Nat.succ_pos _
  unfold sentUpTo sentAt
  constructor
  · intro heq
    by_contra hne
    have hlt := lt_requested h (by omega : k < a.totalBlocksToRead)
    omega
  · intro heq
    rw [heq]
    omega

theorem sendDataToClient_of_sent {a' : S3GetSimpleObject} {blocks : Nat} {evbuffer sent : Bytes}
    (h : a.bytesToSend blocks evbuffer = sent)
    (hstate : { a with
      blocksAlreadyRead := (a.blocksAlreadyRead + blocks) % sizeMod
      dataSentToClient := a.dataSentToClient + sent.length
      body := a.body ++ sent } = a') :
    a.sendDataToClient blocks evbuffer =
      if a'.dataSentToClient ≠ a'.getRequestedContentLength then .next a' else .done a' := by
  subst h
  subst hstate
  rfl

/-- **A round reads the next blocks of the range and sends what is in them.**  It is the last one just if
no block is left. -/
theorem readObjectData_stateAt (h : Ready a) {k : Nat} (hk : k < a.totalBlocksToRead)
    (reads : List (Nat × Nat)) :
    ∃ r, 0 < r ∧ k + r ≤ a.totalBlocksToRead ∧
      readObjectData (a.stateAt k (a.sentUpTo k) reads) =
        (let a' := a.stateAt (k + r) (a.sentUpTo (k + r))
          (reads ++ [((a.firstBlock + k) * a.motrUnitSize, r)])
        if k + r = a.totalBlocksToRead then .done a' else .next a') := by
  have hsentk : a.sentUpTo k = a.sentAt k := by
    have hlt := lt_requested h hk
    have hpos : 0 < a.getRequestedContentLength := Nat.succ_pos _
    unfold sentUpTo sentAt
    omega
  obtain ⟨r, hrdef⟩ : ∃ r, r = (a.stateAt k (a.sentAt k) reads).blocksToRead := ⟨_, rfl⟩
  obtain ⟨hr, hle⟩ := blocksToRead_stateAt (n := a.sentAt k) h hk reads
  rw [← hrdef] at hr hle
  refine ⟨r, hr, hle, ?_⟩
  have hsend := bytesToSend_stateAt h hk hr (reads ++ [((a.firstBlock + k) * a.motrUnitSize, r)])
  have hmono : a.sentAt k ≤ a.sentUpTo (k + r) := by
    have hlt := lt_requested h hk
    have hpos : 0 < a.getRequestedContentLength := Nat.succ_pos _
    unfold sentUpTo sentAt
    rw [Nat.add_mul]
    omega
  have hmod : (k + r) % sizeMod = k + r :=
    Nat.mod_eq_of_lt (Nat.lt_of_le_of_lt hle h.total_lt)
  rw [hsentk]
  unfold readObjectData
  rw [if_pos (by exact Nat.ne_of_lt hk)]
  simp only
  rw [← hrdef, if_pos hr]
  -- what is sent does not depend on where the reader stands by then
  have hbytes : ({ a.stateAt k (a.sentAt k) reads with
      lastIndex := (a.firstBlock + k) * a.motrUnitSize + r * a.motrUnitSize
      reads := reads ++ [((a.firstBlock + k) * a.motrUnitSize, r)] } :
        S3GetSimpleObject).bytesToSend r
      (bytesOf a.object ((a.firstBlock + k) * a.motrUnitSize) (r * a.motrUnitSize)) =
      bytesOf a.object (a.firstByteOffsetToRead + a.sentAt k) (a.sentUpTo (k + r) - a.sentAt k) :=
    hsend
  have hindex : (a.firstBlock + k) * a.motrUnitSize + r * a.motrUnitSize =
      (a.firstBlock + (k + r)) * a.motrUnitSize := by
    rw [← Nat.add_mul, Nat.add_assoc]
  have hstate : ({ a.stateAt k (a.sentAt k) reads with
      lastIndex := (a.firstBlock + k) * a.motrUnitSize + r * a.motrUnitSize
      reads := reads ++ [((a.firstBlock + k) * a.motrUnitSize, r)]
      blocksAlreadyRead := (k + r) % sizeMod
      dataSentToClient := a.sentAt k + (bytesOf a.object (a.firstByteOffsetToRead + a.sentAt k)
        (a.sentUpTo (k + r) - a.sentAt k)).length
      body := bytesOf a.object a.firstByteOffsetToRead (a.sentAt k) ++
        bytesOf a.object (a.firstByteOffsetToRead + a.sentAt k)
          (a.sentUpTo (k + r) - a.sentAt k) } : S3GetSimpleObject) =
      a.stateAt (k + r) (a.sentUpTo (k + r))
        (reads ++ [((a.firstBlock + k) * a.motrUnitSize, r)]) := by
    rw [bytesOf_append, length_bytesOf, Nat.add_sub_cancel' hmono, hmod, hindex]
    rfl
  refine (sendDataToClient_of_sent hbytes hstate).trans ?_
  have hiff : (a.stateAt (k + r) (a.sentUpTo (k + r))
      (reads ++ [((a.firstBlock + k) * a.motrUnitSize, r)])).dataSentToClient =
      (a.stateAt (k + r) (a.sentUpTo (k + r))
        (reads ++ [((a.firstBlock + k) * a.motrUnitSize, r)])).getRequestedContentLength ↔
      k + r = a.totalBlocksToRead := sentUpTo_eq_iff h hle
  by_cases hlast : k + r = a.totalBlocksToRead
  · simp only [ne_eq, hiff.mpr hlast, not_true_eq_false, if_false, if_pos hlast]
  · simp only [ne_eq, hiff, hlast, not_false_eq_true, if_true, if_false]

/-! ### The run -/

theorem blocksOf_read (h : Ready a) (k r : Nat) :
    blocksOf a.motrUnitSize ((a.firstBlock + k) * a.motrUnitSize, r) =
      List.range' (a.firstBlock + k) r := by
  unfold blocksOf
  rw [Nat.mul_div_cancel _ h.unit]

/-- The reads so far are of whole blocks, and are the first `k` blocks of the range in turn. -/
structure Covers (a : S3GetSimpleObject) (k : Nat) (reads : List (Nat × Nat)) : Prop where
  blocks : reads.flatMap (blocksOf a.motrUnitSize) = List.range' a.firstBlock k
  aligned : ∀ read ∈ reads, a.motrUnitSize ∣ read.1

theorem Covers.read (h : Ready a) {k : Nat} {reads : List (Nat × Nat)} (hc : Covers a k reads)
    (r : Nat) : Covers a (k + r) (reads ++ [((a.firstBlock + k) * a.motrUnitSize, r)]) := by
  refine ⟨?_, ?_⟩
  · rw [flatMap_append, hc.blocks, flatMap_singleton, blocksOf_read h,
      range'_append_1]
  · intro read hread
    rcases mem_append.mp hread with hread | hread
    · exact hc.aligned read hread
    · obtain rfl := mem_singleton.mp hread
      exact Nat.dvd_mul_left _ _

theorem ends_of_stateAt (h : Ready a) :
    ∀ (left k : Nat) (reads : List (Nat × Nat)), k + left = a.totalBlocksToRead → 0 < left →
      Covers a k reads →
      ∃ reads', Covers a a.totalBlocksToRead reads' ∧
        Until.Ends readObjectData (a.stateAt k (a.sentUpTo k) reads)
          (a.stateAt a.totalBlocksToRead a.getRequestedContentLength reads') := by
  intro left
  induction left using Nat.strong_induction_on with
  | h left ih =>
    intro k reads hleft hpos hc
    obtain ⟨r, hr, hle, hround⟩ := readObjectData_stateAt h (by omega : k < a.totalBlocksToRead)
      reads
    have hc' := hc.read h r
    simp only at hround
    by_cases hlast : k + r = a.totalBlocksToRead
    · rw [if_pos hlast, (sentUpTo_eq_iff h hle).mpr hlast, hlast] at hround
      rw [hlast] at hc'
      exact ⟨_, hc', (Until.ends_iff_of_done hround _).mpr rfl⟩
    · rw [if_neg hlast] at hround
      obtain ⟨reads', hcovers, hends⟩ := ih (left - r) (by omega) (k + r) _ (by omega)
        (by omega) hc'
      exact ⟨reads', hcovers, (Until.ends_iff_of_next hround _).mpr hends⟩

end

/-- **A range of a simple object is sent byte for byte.**  For every length and every unit size whose sum
is a `size_t`, every valid range and every limit on the reads, the run ends; the reads begin at blocks,
together they are the blocks from the first to the last one of the range, each once; and what was sent
are the bytes of the range. -/
theorem sends_range (object : Nat → UInt8) {contentLength motrUnitSize unitsPerRequest
    firstReadSize first last : Nat} (hunit : 0 < motrUnitSize) (hunits : 1 ≤ unitsPerRequest)
    (hfirstRead : 1 ≤ firstReadSize) (hrange : first ≤ last) (hlast : last < contentLength)
    (hsize : contentLength + motrUnitSize < sizeMod) :
    ∃ a, Until.Ends readObjectData
        (readObject object contentLength motrUnitSize unitsPerRequest firstReadSize first last) a ∧
      a.body = bytesOf object first (last - first + 1) ∧
      a.reads.flatMap (blocksOf motrUnitSize) =
        List.range' (first / motrUnitSize) (last / motrUnitSize - first / motrUnitSize + 1) ∧
      ∀ read ∈ a.reads, motrUnitSize ∣ read.1 := by
  -- `a` is the action before its first read
  obtain ⟨a, ha⟩ : ∃ a, a =
    readObject object contentLength motrUnitSize unitsPerRequest firstReadSize first last := ⟨_, rfl⟩
  have hblocks : a.totalBlocksToRead = last / motrUnitSize - first / motrUnitSize + 1 := by
    rw [ha]
    exact totalBlocksToReadFromObject_eq hunit hlast
  have hready : Ready a := by
    rw [ha] at hblocks ⊢
    exact ⟨hunit, hunits, hfirstRead, hrange, hblocks, by simp only [readObject]; omega⟩
  have hsent : a.sentUpTo 0 = 0 := by
    unfold sentUpTo sentAt
    omega
  have hstart : a.stateAt 0 (a.sentUpTo 0) [] = a := by
    have hindex : (a.firstBlock + 0) * a.motrUnitSize = a.lastIndex := by
      have hmul := firstBlock_mul a
      rw [Nat.add_zero]
      have hskip : a.skip = first % motrUnitSize := by
        rw [ha]
        rfl
      have hoffset : a.firstByteOffsetToRead = first := by
        rw [ha]
        rfl
      have hlastIndex : a.lastIndex = first - first % motrUnitSize := by
        rw [ha]
        rfl
      omega
    rw [hsent]
    unfold stateAt
    rw [hindex, ha]
    rfl
  obtain ⟨reads', hcovers, hends⟩ := ends_of_stateAt hready a.totalBlocksToRead 0 []
    (Nat.zero_add _) (by rw [hblocks]; omega) ⟨rfl, by simp⟩
  rw [hstart] at hends
  refine ⟨_, by rw [← ha]; exact hends, ?_, ?_, ?_⟩
  · rw [ha]
    rfl
  · have hcov := hcovers.blocks
    rw [hblocks] at hcov
    rw [ha] at hcov ⊢
    exact hcov
  · intro read hread
    have hdvd := hcovers.aligned read hread
    rw [ha] at hdvd
    exact hdvd

/-- Ten bytes from inside the second of seven blocks on, at most two blocks at a time, the first read of
one. -/
theorem sends_range_tenBytes :
    ∃ a, Until.Ends readObjectData (readObject (fun i => UInt8.ofNat i) 26 4 2 1 6 15) a ∧
      a.body = bytesOf (fun i => UInt8.ofNat i) 6 10 ∧
      a.reads.flatMap (blocksOf 4) = List.range' 1 3 ∧
      ∀ read ∈ a.reads, 4 ∣ read.1 :=
  sends_range (fun i => UInt8.ofNat i) (by decide) (by decide) (by decide) (by decide) (by decide)
    (by decide)

/-- Its reads. -/
example : (Until.run readObjectData 5
    (readObject (fun i => UInt8.ofNat i) 26 4 2 1 6 15)).map (·.reads) = some [(4, 1), (8, 2)] := by
  decide

end S3GetSimpleObject

end CortxS3
