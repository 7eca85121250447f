/-
What the reader checks a unit against is what the writer made its checksum from.

Both sides find the offset of a unit by counting, each in its own way.  The writer counts buffers, and
calculates whenever the data of the operation is a whole number of units; `Progress` says where all its
counters are after any number of buffers.  At the end of an operation every unit has its checksum
(`setUp_spec`), also the one that had to be filled up.

`Written` is what holds between two operations, of the writer and the object together: unit `k` has been
calculated with the offset of unit `k`, from the bytes that Motr has there.  So the reader, which starts
at some unit and counts bytes, comes by the same input again.  What the contexts are does not matter for
that: the reader takes them from the attribute.
-/
import CortxS3.Server.MotrUnitChecksums
import Mathlib

namespace CortxS3

open Option (bind_eq_bind bind_some)
open List S3MotrWiter

/-! ### Buffers of one size -/

section Lists

variable {α : Type} {l : List (List α)} {b : Nat}

section

variable (h : ∀ x ∈ l, x.length = b)

include h

theorem length_flatten_of_uniform : l.flatten.length = l.length * b := by
  induction l with
  | nil => simp
  | cons x l ih =>
    have hl := ih fun y hy => h y (mem_cons_of_mem _ hy)
    have hx := h x mem_cons_self
    simp only [flatten_cons, length_append, length_cons, hl, hx]
    ring

theorem flatten_drop_of_uniform (n : Nat) :
    (l.drop n).flatten = l.flatten.drop (n * b) := by
  induction l generalizing n with
  | nil => simp
  | cons x l ih =>
    have hx := h x mem_cons_self
    cases n with
    | zero => simp
    | succ n =>
      have hn : (n + 1) * b = x.length + n * b := by rw [hx]; ring
      rw [drop_succ_cons, ih (fun y hy => h y (mem_cons_of_mem _ hy)), flatten_cons, hn,
        drop_length_add_append]

theorem flatten_take_of_uniform (n : Nat) :
    (l.take n).flatten = l.flatten.take (n * b) := by
  induction l generalizing n with
  | nil => simp
  | cons x l ih =>
    have hx := h x mem_cons_self
    cases n with
    | zero => simp
    | succ n =>
      have hn : (n + 1) * b = x.length + n * b := by rw [hx]; ring
      rw [take_succ_cons, flatten_cons, ih (fun y hy => h y (mem_cons_of_mem _ hy)),
        flatten_cons, hn, take_length_add_append]

theorem flatten_unit_of_uniform (j r : Nat) :
    ((l.drop (j * r)).take r).flatten = (l.flatten.drop (j * (r * b))).take (r * b) := by
  have hd : ∀ x ∈ l.drop (j * r), x.length = b := fun x hx => h x (mem_of_mem_drop hx)
  rw [flatten_take_of_uniform hd, flatten_drop_of_uniform h, Nat.mul_assoc]

end

end Lists

/-! ### The object in Motr -/

namespace MotrObject

variable {Ctx Digest : Type} {o : MotrObject Ctx Digest}

theorem writeExtents_attr (ext : List Nat) (data : List Bytes) (o : MotrObject Ctx Digest) :
    (o.writeExtents ext data).attr = o.attr := by
  induction ext generalizing data o with
  | nil => rfl
  | cons index ext ih =>
    cases data with
    | nil => rfl
    | cons buf data =>
      rw [writeExtents, ih]
      rfl

theorem writeExtents_data {data : List Bytes} {b : Nat} (h : ∀ x ∈ data, x.length = b)
    (o : MotrObject Ctx Digest) (start i : Nat) :
    (o.writeExtents ((List.range data.length).map (start + · * b)) data).data i =
      if start ≤ i ∧ i < start + data.length * b then data.flatten[i - start]? else o.data i := by
  induction data generalizing o start with
  | nil =>
    have hno : ¬ (start ≤ i ∧ i < start + ([] : List Bytes).length * b) := by simp
    rw [if_neg hno]
    rfl
  | cons buf data ih =>
    have hbuf := h buf mem_cons_self
    have hext : (List.range (buf :: data).length).map (start + · * b) =
        start :: (List.range data.length).map (start + b + · * b) := by
      rw [length_cons, range_succ_eq_map, map_cons, map_map]
      refine congrArg₂ List.cons (by simp) (map_congr_left fun k _ => ?_)
      simp only [Function.comp_apply, Nat.succ_eq_add_one]
      ring
    have hlen : (buf :: data).length * b = b + data.length * b := by rw [length_cons]; ring
    rw [hext, writeExtents, ih (fun x hx => h x (mem_cons_of_mem _ hx)), hlen, flatten_cons]
    simp only [writeAt, hbuf]
    by_cases hfirst : start ≤ i ∧ i < start + b
    · rw [if_neg (by omega), if_pos hfirst, if_pos (by omega),
        List.getElem?_append_left (by omega)]
    · by_cases hrest : start + b ≤ i ∧ i < start + b + data.length * b
      · rw [if_pos hrest, if_pos (by omega), List.getElem?_append_right (by omega), hbuf]
        congr 1
        omega
      · rw [if_neg hrest, if_neg hfirst, if_neg (by omega)]

theorem mapM_range_eq_some {β : Type} {f : Nat → Option β} {xs : List β} {n : Nat}
    (hn : n = xs.length) (h : ∀ i, i < n → f i = xs[i]?) : (List.range n).mapM f = some xs := by
  induction xs using List.reverseRecOn generalizing n with
  | nil =>
    subst hn
    rfl
  | append_singleton xs x ih =>
    have hn' : n = xs.length + 1 := by simpa using hn
    subst hn'
    have hprev : (List.range xs.length).mapM f = some xs := by
      refine ih rfl fun i hi => ?_
      rw [h i (by omega), List.getElem?_append_left hi]
    have hlast : f xs.length = some x := by
      rw [h _ (by omega)]
      simp
    rw [range_succ, mapM_append, hprev]
    simp [hlast]

theorem readAt_eq {content : Bytes} (h : ∀ i, i < content.length → o.data i = content[i]?)
    {index len : Nat} (hlen : index + len ≤ content.length) :
    o.readAt index len = some ((content.drop index).take len) := by
  refine mapM_range_eq_some (by simp; omega) fun i hi => ?_
  rw [h _ (by omega), List.getElem?_take_of_lt hi, List.getElem?_drop]

end MotrObject

/-! ### The writer: one operation -/

namespace S3MotrWiter

variable {Ctx Digest : Type} {m : MotrPi Ctx Digest} {w : S3MotrWiter Ctx Digest}

/-- The buffers divide the unit, and checksums are stored. -/
structure Sized (w : S3MotrWiter Ctx Digest) : Prop where
  buf_pos : 0 < w.sizeOfEachBuf
  unit_pos : 0 < w.motrUnitSize
  dvd : w.sizeOfEachBuf ∣ w.motrUnitSize
  checked : w.isS3WriteDiCheckEnabled = true

theorem Sized.perUnit_mul (hw : Sized w) : w.buffersPerUnit * w.sizeOfEachBuf = w.motrUnitSize := by
  have hdiv : w.motrUnitSize / w.sizeOfEachBuf * w.sizeOfEachBuf = w.motrUnitSize :=
    Nat.div_mul_cancel hw.dvd
  have hne : w.motrUnitSize / w.sizeOfEachBuf ≠ 0 := by
    intro h
    rw [h, Nat.zero_mul] at hdiv
    have := hw.unit_pos
    omega
  simp only [buffersPerUnit, if_neg hne, hdiv]

theorem perUnit_pos : 0 < w.buffersPerUnit := by
  unfold buffersPerUnit
  by_cases h : w.motrUnitSize / w.sizeOfEachBuf = 0
  · simp [h]
  · simp only [if_neg h]
    exact Nat.pos_of_ne_zero h

/-- What a checksum is stored as. -/
def attrOf (m : MotrPi Ctx Digest) (t : PiInput Ctx) : M0Md5IncContextPi Ctx Digest :=
  ⟨t.context, m.value t⟩

/-- The first units of an operation that starts at `start` have got their checksums. -/
structure Calculated (m : MotrPi Ctx Digest) (w : S3MotrWiter Ctx Digest) (start : Nat)
    (buffers : List Bytes) (attr : List (M0Md5IncContextPi Ctx Digest)) (inputs : List (PiInput Ctx)) :
    Prop where
  seed : ∀ (j : Nat) (t : PiInput Ctx), inputs[j]? = some t →
    t.seed = some ⟨start + j * w.motrUnitSize, w.oid⟩
  data : ∀ (j : Nat) (t : PiInput Ctx), inputs[j]? = some t →
    t.data = ((buffers.drop (j * w.buffersPerUnit)).take w.buffersPerUnit).flatten
  stored : ∀ (j : Nat) (t : PiInput Ctx), inputs[j]? = some t → attr[j]? = some (attrOf m t)

/-- How far an operation has come when these buffers have been added. -/
structure Progress (m : MotrPi Ctx Digest) (w : S3MotrWiter Ctx Digest) (start units : Nat)
    (before : List (PiInput Ctx)) (buffers : List Bytes) (s : SetUp Ctx Digest) : Prop where
  data : s.rwCtx.data = buffers
  ext : s.rwCtx.ext = (List.range buffers.length).map (start + · * w.sizeOfEachBuf)
  lastIndex : s.lastIndex = start + buffers.length * w.sizeOfEachBuf
  bufIdx : s.bufIdx = buffers.length
  attr_length : s.rwCtx.attr.length = units
  pi_length : s.rwCtx.piBufvec.length = w.buffersPerUnit
  split : buffers.length = s.chksumBufIdx * w.buffersPerUnit + s.startingChecksumBufIdx
  starting_le : s.startingChecksumBufIdx ≤ w.buffersPerUnit
  pi : s.rwCtx.piBufvec.take s.startingChecksumBufIdx =
    buffers.drop (s.chksumBufIdx * w.buffersPerUnit)
  saved : s.savedLastIndex = start + s.chksumBufIdx * w.motrUnitSize
  offset : s.unalignedBufIdxOffset = s.chksumBufIdx * w.buffersPerUnit
  inputs : ∃ done, s.md5.unitInputs = before ++ done ∧ done.length = s.chksumBufIdx ∧
    Calculated m w start buffers s.rwCtx.attr done

section Operation

variable {start units : Nat} {before : List (PiInput Ctx)} {buffers : List Bytes}
  {s : SetUp Ctx Digest}

theorem Calculated.append {attr : List (M0Md5IncContextPi Ctx Digest)} {done : List (PiInput Ctx)}
    (hc : Calculated m w start buffers attr done)
    (hlen : done.length * w.buffersPerUnit ≤ buffers.length) (more : List Bytes) :
    Calculated m w start (buffers ++ more) attr done := by
  refine ⟨hc.seed, fun j t ht => ?_, hc.stored⟩
  have hj : j < done.length := (List.getElem?_eq_some_iff.1 ht).1
  have hunit : (j + 1) * w.buffersPerUnit ≤ buffers.length :=
    Nat.le_trans (Nat.mul_le_mul_right _ hj) hlen
  have hsum : (j + 1) * w.buffersPerUnit = j * w.buffersPerUnit + w.buffersPerUnit := by ring
  rw [hc.data j t ht, drop_append_of_le_length (by omega),
    take_append_of_le_length (by rw [length_drop]; omega)]

variable {n : Nat}

theorem take_set_succ {α : Type} {l : List α} (h : n < l.length) (a : α) :
    (l.set n a).take (n + 1) = l.take n ++ [a] := by
  rw [take_add_one, take_set_of_le (Nat.le_refl n), List.getElem?_set_self h]
  rfl

theorem progress_addBuffer (hp : Progress m w start units before buffers s)
    (hroom : s.startingChecksumBufIdx < w.buffersPerUnit) (buf : Bytes) :
    Progress m w start units before (buffers ++ [buf]) (addBufferToMotrStructures w s buf) := by
  have hlen : (buffers ++ [buf]).length = buffers.length + 1 := by simp
  obtain ⟨done, hinputs, hdone, hcalc⟩ := hp.inputs
  have hsplit := hp.split
  refine
    { data := ?_, ext := ?_, lastIndex := ?_, bufIdx := ?_, attr_length := hp.attr_length,
      pi_length := ?_, split := ?_, starting_le := hroom, pi := ?_, saved := hp.saved,
      offset := hp.offset, inputs := ⟨done, hinputs, hdone, hcalc.append (by rw [hdone]; omega) _⟩ }
  · simp [addBufferToMotrStructures, hp.data]
  · simp only [addBufferToMotrStructures]
    rw [hlen, range_succ, map_append, hp.ext, hp.lastIndex]
    rfl
  · simp only [addBufferToMotrStructures]
    rw [hlen, hp.lastIndex]
    ring
  · simp only [addBufferToMotrStructures]
    rw [hlen, hp.bufIdx]
  · simpa [addBufferToMotrStructures] using hp.pi_length
  · simp only [addBufferToMotrStructures]
    omega
  · simp only [addBufferToMotrStructures]
    rw [take_set_succ (by rw [hp.pi_length]; exact hroom), hp.pi,
      drop_append_of_le_length (by omega)]

/-- Nothing but the checksums changes. -/
theorem calcUnitPiInfo_frame (m : MotrPi Ctx Digest) (w : S3MotrWiter Ctx Digest)
    (s : SetUp Ctx Digest) (reset : Bool) :
    (calcUnitPiInfo m w s reset).rwCtx.data = s.rwCtx.data ∧
      (calcUnitPiInfo m w s reset).rwCtx.ext = s.rwCtx.ext ∧
      (calcUnitPiInfo m w s reset).lastIndex = s.lastIndex ∧
      (calcUnitPiInfo m w s reset).bufIdx = s.bufIdx ∧
      (calcUnitPiInfo m w s reset).rwCtx.piBufvec = s.rwCtx.piBufvec ∧
      (calcUnitPiInfo m w s reset).chksumBufIdx = s.chksumBufIdx + 1 := by
  simp only [calcUnitPiInfo, MD5hash.s3CalculateUnitPi, calledForFirstUnit]
  split <;> simp

theorem calcAlignedPiInfo_size (s : SetUp Ctx Digest) :
    (calcAlignedPiInfo m w s).sizeInCurrentWrite = s.sizeInCurrentWrite := by
  simp only [calcAlignedPiInfo, calcUnitPiInfo, calledForFirstUnit]
  split <;> rfl

/-- A buffer of data, before the question whether the unit is full. -/
def addedBuffer (w : S3MotrWiter Ctx Digest) (s : SetUp Ctx Digest) (buf : DataBuffer) :
    SetUp Ctx Digest :=
  { addBufferToMotrStructures w s buf.mem with
    calculatedChksumAtUnitBoundary := false
    lenInBuf := buf.len
    sizeInCurrentWrite := s.sizeInCurrentWrite + buf.len }

theorem addDataBuffer_eq (s : SetUp Ctx Digest) (buf : DataBuffer) :
    addDataBuffer m w s buf =
      if (addedBuffer w s buf).sizeInCurrentWrite % w.motrUnitSize = 0 then
        calcAlignedPiInfo m w (addedBuffer w s buf)
      else addedBuffer w s buf := rfl

theorem progress_addedBuffer (hp : Progress m w start units before buffers s)
    (hroom : s.startingChecksumBufIdx < w.buffersPerUnit) (buf : DataBuffer) :
    Progress m w start units before (buffers ++ [buf.mem]) (addedBuffer w s buf) := by
  obtain ⟨hdata, hext, hlast, hidx, hattr, hpil, hsplit, hle, hpi, hsaved, hoff, hin⟩ :=
    progress_addBuffer hp hroom buf.mem
  exact ⟨hdata, hext, hlast, hidx, hattr, hpil, hsplit, hle, hpi, hsaved, hoff, hin⟩

theorem calculated_calcUnit (hw : Sized w) (hp : Progress m w start units before buffers s)
    (hfull : s.startingChecksumBufIdx = w.buffersPerUnit) (hroom : s.chksumBufIdx < units)
    (reset : Bool) :
    (calcUnitPiInfo m w s reset).rwCtx.attr.length = units ∧
      ∃ done, (calcUnitPiInfo m w s reset).md5.unitInputs = before ++ done ∧
        done.length = s.chksumBufIdx + 1 ∧
        Calculated m w start buffers (calcUnitPiInfo m w s reset).rwCtx.attr done := by
  obtain ⟨done, hinputs, hdone, hcalc⟩ := hp.inputs
  have hpi : s.rwCtx.piBufvec = (buffers.drop (s.chksumBufIdx * w.buffersPerUnit)).take
      w.buffersPerUnit := by
    rw [← hp.pi, hfull, take_take, Nat.min_self, take_of_length_le (by rw [hp.pi_length])]
  -- Whatever the flags are, there is a context, and it goes into the attribute.
  obtain ⟨t, hseed, hdata, hafter, hattr⟩ : ∃ t : PiInput Ctx,
      t.seed = some ⟨s.savedLastIndex, w.oid⟩ ∧ t.data = s.rwCtx.piBufvec.flatten ∧
      (calcUnitPiInfo m w s reset).md5.unitInputs = s.md5.unitInputs ++ [t] ∧
      (calcUnitPiInfo m w s reset).rwCtx.attr = s.rwCtx.attr.set s.chksumBufIdx (attrOf m t) := by
    have hsame : (calledForFirstUnit s reset).md5 = s.md5 ∧
        (calledForFirstUnit s reset).rwCtx = s.rwCtx ∧
        (calledForFirstUnit s reset).chksumBufIdx = s.chksumBufIdx ∧
        (calledForFirstUnit s reset).savedLastIndex = s.savedLastIndex := by
      unfold calledForFirstUnit
      split <;> simp
    obtain ⟨hmd5, hrw, hidx, hsaved⟩ := hsame
    simp only [calcUnitPiInfo, MD5hash.s3CalculateUnitPi, MotrPi.motrClientCalculatePi, hmd5, hrw, hidx,
      hsaved, hw.checked, Bool.or_true, if_true]
    exact ⟨_, rfl, rfl, rfl, rfl⟩
  refine ⟨by rw [hattr, length_set, hp.attr_length], done ++ [t], ?_, by simp [hdone], ?_⟩
  · rw [hafter, hinputs, append_assoc]
  · -- The new unit is the last one; the others keep what they have.
    have hcases : ∀ j u, (done ++ [t])[j]? = some u →
        (j < s.chksumBufIdx ∧ done[j]? = some u) ∨ (j = s.chksumBufIdx ∧ u = t) := by
      intro j u hj
      have hjlen : j < (done ++ [t]).length := (List.getElem?_eq_some_iff.1 hj).1
      rw [length_append, length_singleton] at hjlen
      rcases Nat.lt_or_ge j done.length with hlt | hge
      · exact .inl ⟨by omega, by rwa [List.getElem?_append_left hlt] at hj⟩
      · have hjeq : j = done.length := by omega
        subst hjeq
        rw [List.getElem?_concat_length, Option.some_inj] at hj
        exact .inr ⟨hdone, hj.symm⟩
    refine ⟨fun j u hj => ?_, fun j u hj => ?_, fun j u hj => ?_⟩
    · rcases hcases j u hj with ⟨-, hold⟩ | ⟨rfl, rfl⟩
      · exact hcalc.seed j u hold
      · rw [hseed, hp.saved]
    · rcases hcases j u hj with ⟨-, hold⟩ | ⟨rfl, rfl⟩
      · exact hcalc.data j u hold
      · rw [hdata, hpi]
    · rcases hcases j u hj with ⟨hlt, hold⟩ | ⟨rfl, rfl⟩
      · rw [hattr, List.getElem?_set_ne (by omega)]
        exact hcalc.stored j u hold
      · rw [hattr, List.getElem?_set_self (by rw [hp.attr_length]; exact hroom)]

theorem progress_calcAligned (hw : Sized w) (hp : Progress m w start units before buffers s)
    (hfull : s.startingChecksumBufIdx = w.buffersPerUnit) (hroom : s.chksumBufIdx < units) :
    Progress m w start units before buffers (calcAlignedPiInfo m w s) := by
  obtain ⟨hattr, hdone⟩ := calculated_calcUnit hw hp hfull hroom true
  obtain ⟨hdata, hext, hlast, hidx, hpi, hnext⟩ := calcUnitPiInfo_frame m w s true
  have hsplit := hp.split
  have hmul : (s.chksumBufIdx + 1) * w.buffersPerUnit =
      s.chksumBufIdx * w.buffersPerUnit + w.buffersPerUnit := by ring
  have hbytes : buffers.length * w.sizeOfEachBuf = (s.chksumBufIdx + 1) * w.motrUnitSize := by
    rw [hsplit, hfull, ← hmul, ← hw.perUnit_mul]
    ring
  refine
    { data := hdata.trans hp.data, ext := hext.trans hp.ext, lastIndex := hlast.trans hp.lastIndex,
      bufIdx := hidx.trans hp.bufIdx, attr_length := hattr,
      pi_length := (congrArg List.length hpi).trans hp.pi_length, split := ?_,
      starting_le := Nat.zero_le _, pi := ?_, saved := ?_, offset := ?_, inputs := ?_ }
  · simp only [calcAlignedPiInfo, hnext]
    omega
  · simp only [calcAlignedPiInfo, hnext]
    rw [take_zero, drop_of_length_le (by omega)]
  · simp only [calcAlignedPiInfo, hnext, hlast, hp.lastIndex, hbytes]
  · simp only [calcAlignedPiInfo, hnext, hidx, hp.bufIdx]
    omega
  · simpa only [calcAlignedPiInfo, hnext] using hdone

variable {buf : DataBuffer}

/-- A buffer full of data.  The checksum is calculated if and only if the unit is full. -/
theorem progress_addDataBuffer (hw : Sized w) (hp : Progress m w start units before buffers s)
    (hroom : s.startingChecksumBufIdx < w.buffersPerUnit)
    (hsize : s.sizeInCurrentWrite = buffers.length * w.sizeOfEachBuf)
    (hunits : buffers.length < units * w.buffersPerUnit) (hlen : buf.len = w.sizeOfEachBuf) :
    Progress m w start units before (buffers ++ [buf.mem]) (addDataBuffer m w s buf) ∧
      (addDataBuffer m w s buf).startingChecksumBufIdx < w.buffersPerUnit ∧
      (addDataBuffer m w s buf).sizeInCurrentWrite =
        (buffers ++ [buf.mem]).length * w.sizeOfEachBuf := by
  obtain ⟨t, ht⟩ : ∃ t, t = addedBuffer w s buf := ⟨_, rfl⟩
  have hpt : Progress m w start units before (buffers ++ [buf.mem]) t := by
    subst ht
    exact progress_addedBuffer hp hroom buf
  have hstart : t.startingChecksumBufIdx = s.startingChecksumBufIdx + 1 := by subst ht; rfl
  have hchk : t.chksumBufIdx = s.chksumBufIdx := by subst ht; rfl
  have hsizeT : t.sizeInCurrentWrite = (buffers ++ [buf.mem]).length * w.sizeOfEachBuf := by
    subst ht
    simp only [addedBuffer, addBufferToMotrStructures, hsize, hlen, length_append, length_singleton]
    ring
  have hsplit := hp.split
  have hboundary : t.sizeInCurrentWrite % w.motrUnitSize = 0 ↔
      s.startingChecksumBufIdx + 1 = w.buffersPerUnit := by
    have hcount : (buffers ++ [buf.mem]).length =
        s.chksumBufIdx * w.buffersPerUnit + (s.startingChecksumBufIdx + 1) := by
      rw [length_append, length_singleton]
      omega
    have hmod : (s.chksumBufIdx * w.buffersPerUnit + (s.startingChecksumBufIdx + 1)) %
        w.buffersPerUnit = (s.startingChecksumBufIdx + 1) % w.buffersPerUnit := by
      rw [Nat.add_comm, Nat.add_mul_mod_self_right]
    rw [hsizeT, hcount, ← hw.perUnit_mul, Nat.mul_mod_mul_right, hmod, Nat.mul_eq_zero]
    have hbuf := hw.buf_pos
    rcases Nat.lt_or_ge (s.startingChecksumBufIdx + 1) w.buffersPerUnit with hlt | hge
    · rw [Nat.mod_eq_of_lt hlt]
      omega
    · have heq : s.startingChecksumBufIdx + 1 = w.buffersPerUnit := by omega
      simp [heq]
  rw [addDataBuffer_eq, ← ht]
  by_cases hfull : s.startingChecksumBufIdx + 1 = w.buffersPerUnit
  · have hnext : t.chksumBufIdx < units := by
      rw [hchk]
      have hle : (s.chksumBufIdx + 1) * w.buffersPerUnit ≤ units * w.buffersPerUnit := by
        rw [Nat.add_mul, Nat.one_mul]
        omega
      exact Nat.le_of_mul_le_mul_right hle perUnit_pos
    rw [if_pos (hboundary.2 hfull)]
    refine ⟨progress_calcAligned hw hpt (hstart.trans hfull) hnext, perUnit_pos, ?_⟩
    rw [calcAlignedPiInfo_size, hsizeT]
  · rw [if_neg (fun h => hfull (hboundary.1 h))]
    exact ⟨hpt, by omega, hsizeT⟩

/-- The last buffer, when it is not full.  No whole number of units ends in it. -/
theorem progress_addLastBuffer (hw : Sized w) (hp : Progress m w start units before buffers s)
    (hroom : s.startingChecksumBufIdx < w.buffersPerUnit)
    (hsize : s.sizeInCurrentWrite = buffers.length * w.sizeOfEachBuf) (hpos : 0 < buf.len)
    (hlen : buf.len < w.sizeOfEachBuf) :
    Progress m w start units before (buffers ++ [buf.mem]) (addDataBuffer m w s buf) := by
  have hno : ¬ (addedBuffer w s buf).sizeInCurrentWrite % w.motrUnitSize = 0 := by
    intro h
    have hdvd : w.sizeOfEachBuf ∣ buffers.length * w.sizeOfEachBuf + buf.len := by
      have hunit : w.motrUnitSize ∣ s.sizeInCurrentWrite + buf.len := Nat.dvd_of_mod_eq_zero h
      rw [hsize] at hunit
      exact hw.dvd.trans hunit
    have hrest : w.sizeOfEachBuf ∣ buf.len := (Nat.dvd_add_right (Nat.dvd_mul_left _ _)).1 hdvd
    have := Nat.le_of_dvd hpos hrest
    omega
  rw [addDataBuffer_eq, if_neg hno]
  exact progress_addedBuffer hp hroom buf

theorem progress_foldl (hw : Sized w) (bufs : List DataBuffer)
    (hfull : ∀ buf ∈ bufs, buf.len = w.sizeOfEachBuf)
    (hp : Progress m w start units before buffers s)
    (hroom : s.startingChecksumBufIdx < w.buffersPerUnit)
    (hsize : s.sizeInCurrentWrite = buffers.length * w.sizeOfEachBuf)
    (hunits : buffers.length + bufs.length ≤ units * w.buffersPerUnit) :
    Progress m w start units before (buffers ++ bufs.map (·.mem)) (bufs.foldl (addDataBuffer m w) s) ∧
      (bufs.foldl (addDataBuffer m w) s).startingChecksumBufIdx < w.buffersPerUnit ∧
      (bufs.foldl (addDataBuffer m w) s).sizeInCurrentWrite =
        (buffers ++ bufs.map (·.mem)).length * w.sizeOfEachBuf := by
  induction bufs generalizing buffers s with
  | nil => simpa using ⟨hp, hroom, hsize⟩
  | cons buf bufs ih =>
    rw [length_cons] at hunits
    obtain ⟨hp', hroom', hsize'⟩ :=
      progress_addDataBuffer hw hp hroom hsize (by omega) (hfull buf mem_cons_self)
    have hrest := ih (fun x hx => hfull x (mem_cons_of_mem _ hx)) hp' hroom' hsize'
      (by rw [length_append, length_singleton]; omega)
    simpa using hrest

/-- An operation is set up: whole units, each with its checksum. -/
structure Finished (m : MotrPi Ctx Digest) (w : S3MotrWiter Ctx Digest) (start units : Nat)
    (before : List (PiInput Ctx)) (buffers : List Bytes) (s : SetUp Ctx Digest) : Prop where
  whole : buffers.length = units * w.buffersPerUnit
  data : s.rwCtx.data = buffers
  ext : s.rwCtx.ext = (List.range buffers.length).map (start + · * w.sizeOfEachBuf)
  lastIndex : s.lastIndex = start + buffers.length * w.sizeOfEachBuf
  attr_length : s.rwCtx.attr.length = units
  inputs : ∃ done, s.md5.unitInputs = before ++ done ∧ done.length = units ∧
    Calculated m w start buffers s.rwCtx.attr done

theorem Progress.withFlag (hp : Progress m w start units before buffers s) (flag : ChecksumFlag) :
    Progress m w start units before buffers { s with s3ChecksumFlag := flag } :=
  ⟨hp.data, hp.ext, hp.lastIndex, hp.bufIdx, hp.attr_length, hp.pi_length, hp.split, hp.starting_le,
    hp.pi, hp.saved, hp.offset, hp.inputs⟩

theorem Finished.withFlag (hf : Finished m w start units before buffers s) (flag : ChecksumFlag) :
    Finished m w start units before buffers { s with s3ChecksumFlag := flag } :=
  ⟨hf.whole, hf.data, hf.ext, hf.lastIndex, hf.attr_length, hf.inputs⟩

theorem progress_align (placeHolder : Bytes) (k : Nat)
    (hp : Progress m w start units before buffers s)
    (hroom : s.startingChecksumBufIdx + k ≤ w.buffersPerUnit) :
    Progress m w start units before (buffers ++ List.replicate k placeHolder)
        ((List.replicate k placeHolder).foldl (addBufferToMotrStructures w) s) ∧
      ((List.replicate k placeHolder).foldl (addBufferToMotrStructures w) s).startingChecksumBufIdx =
        s.startingChecksumBufIdx + k ∧
      ((List.replicate k placeHolder).foldl (addBufferToMotrStructures w) s).chksumBufIdx =
        s.chksumBufIdx := by
  induction k generalizing buffers s with
  | zero => simpa using hp
  | succ k ih =>
    have hstart : (addBufferToMotrStructures w s placeHolder).startingChecksumBufIdx =
        s.startingChecksumBufIdx + 1 := rfl
    obtain ⟨hp', hstart', hchk'⟩ := ih (progress_addBuffer hp (by omega) placeHolder)
      (by rw [hstart]; omega)
    rw [replicate_succ, foldl_cons]
    refine ⟨by simpa using hp', by rw [hstart', hstart]; omega, hchk'⟩

theorem motrBufCount_eq {q rest : Nat} (hn : n = q * w.buffersPerUnit + rest)
    (hle : rest ≤ w.buffersPerUnit) :
    w.motrBufCount n = (if rest = 0 then q else q + 1) * w.buffersPerUnit := by
  have hpos : 0 < w.buffersPerUnit := perUnit_pos
  have hmul : (q + 1) * w.buffersPerUnit = q * w.buffersPerUnit + w.buffersPerUnit := by ring
  have hmod : n % w.buffersPerUnit = rest % w.buffersPerUnit := by
    rw [hn, Nat.add_comm, Nat.add_mul_mod_self_right]
  unfold motrBufCount
  rw [hmod]
  rcases Nat.lt_or_ge rest w.buffersPerUnit with hlt | hge
  · rw [Nat.mod_eq_of_lt hlt]
    by_cases hrest : rest = 0
    · rw [if_neg (by omega), if_pos hrest]
      omega
    · rw [if_pos (by omega), if_neg hrest]
      omega
  · have heq : rest = w.buffersPerUnit := by omega
    rw [heq, Nat.mod_self, if_neg (by omega), if_neg (by omega)]
    omega

theorem calcFinal_finished (hf : Finished m w start units before buffers s) (bufvec : List Bytes) :
    Finished m w start units before buffers (calcFinalPiInfo m s bufvec) := by
  have hframe : (calcFinalPiInfo m s bufvec).rwCtx.data = s.rwCtx.data ∧
      (calcFinalPiInfo m s bufvec).rwCtx.ext = s.rwCtx.ext ∧
      (calcFinalPiInfo m s bufvec).rwCtx.attr = s.rwCtx.attr ∧
      (calcFinalPiInfo m s bufvec).lastIndex = s.lastIndex ∧
      (calcFinalPiInfo m s bufvec).md5.unitInputs = s.md5.unitInputs := by
    simp only [calcFinalPiInfo, MD5hash.s3CalculateUnalignedBuffsPi, calledForFirstUnit]
    split <;> simp
  obtain ⟨hdata, hext, hattr, hlast, hinputs⟩ := hframe
  exact
    { whole := hf.whole, data := hdata.trans hf.data, ext := hext.trans hf.ext,
      lastIndex := hlast.trans hf.lastIndex, attr_length := by rw [hattr]; exact hf.attr_length,
      inputs := by rw [hinputs, hattr]; exact hf.inputs }

theorem finished_of_progress (hp : Progress m w start units before buffers s)
    (hstart : s.startingChecksumBufIdx = 0) (hunits : s.chksumBufIdx = units) :
    Finished m w start units before buffers s where
  whole := by rw [hp.split, hstart, hunits, Nat.add_zero]
  data := hp.data
  ext := hp.ext
  lastIndex := hp.lastIndex
  attr_length := hp.attr_length
  inputs := by rw [← hunits]; exact hp.inputs

theorem finished_calcUnit (hw : Sized w) (hp : Progress m w start units before buffers s)
    (hfull : s.startingChecksumBufIdx = w.buffersPerUnit) (hunits : s.chksumBufIdx + 1 = units)
    (reset : Bool) : Finished m w start units before buffers (calcUnitPiInfo m w s reset) := by
  obtain ⟨hattr, hdone⟩ := calculated_calcUnit hw hp hfull (by omega) reset
  obtain ⟨hdata, hext, hlast, -, -, -⟩ := calcUnitPiInfo_frame m w s reset
  exact
    { whole := by rw [hp.split, hfull, ← hunits]; ring
      data := hdata.trans hp.data
      ext := hext.trans hp.ext
      lastIndex := hlast.trans hp.lastIndex
      attr_length := hattr
      inputs := by rw [← hunits]; exact hdone }

theorem finished_finish (hw : Sized w) (hp : Progress m w start units before buffers s)
    (hunits : w.motrBufCount buffers.length = units * w.buffersPerUnit) (placeHolder : Bytes) :
    Finished m w start units before
      (buffers ++ List.replicate (units * w.buffersPerUnit - buffers.length) placeHolder)
      (finishMotrDataBuffers m w s placeHolder (units * w.buffersPerUnit)) := by
  have hsplit := hp.split
  have hle := hp.starting_le
  have hpos : 0 < w.buffersPerUnit := perUnit_pos
  have hcount := motrBufCount_eq hsplit hle
  rw [hunits] at hcount
  have hq := Nat.eq_of_mul_eq_mul_right hpos hcount
  have hmul : (s.chksumBufIdx + 1) * w.buffersPerUnit =
      s.chksumBufIdx * w.buffersPerUnit + w.buffersPerUnit := by ring
  -- The context is remembered, and the unit is filled.
  obtain ⟨s₁, hs₁⟩ : ∃ s₁, s₁ =
      if s.md5.checksumSaved then { s with md5 := { s.md5 with md5ctxPreUnaligned := s.md5.md5ctx } }
      else s := ⟨_, rfl⟩
  have hp₁ : Progress m w start units before buffers s₁ ∧ s₁.bufIdx = s.bufIdx ∧
      s₁.startingChecksumBufIdx = s.startingChecksumBufIdx ∧ s₁.chksumBufIdx = s.chksumBufIdx := by
    subst hs₁
    split
    · exact ⟨⟨hp.data, hp.ext, hp.lastIndex, hp.bufIdx, hp.attr_length, hp.pi_length, hp.split,
        hp.starting_le, hp.pi, hp.saved, hp.offset, hp.inputs⟩, rfl, rfl, rfl⟩
    · exact ⟨hp, rfl, rfl, rfl⟩
  obtain ⟨hp₁, hidx₁, hstart₁, hchk₁⟩ := hp₁
  obtain ⟨s₂, hs₂⟩ : ∃ s₂, s₂ =
      alignDataToMotrUnitSize w s₁ placeHolder (units * w.buffersPerUnit) := ⟨_, rfl⟩
  have hfill : s₁.startingChecksumBufIdx + (units * w.buffersPerUnit - buffers.length) =
      if s.startingChecksumBufIdx = 0 then 0 else w.buffersPerUnit := by
    rw [hstart₁]
    split_ifs at hq ⊢ with hst
    · subst hq
      omega
    · subst hq
      omega
  have hk : units * w.buffersPerUnit - s₁.bufIdx = units * w.buffersPerUnit - buffers.length := by
    rw [hidx₁, hp.bufIdx]
  obtain ⟨hp₂, hstart₂, hchk₂⟩ := progress_align placeHolder
    (units * w.buffersPerUnit - buffers.length) hp₁ (by rw [hfill]; split <;> omega)
  have halign : s₂ = (List.replicate (units * w.buffersPerUnit - buffers.length) placeHolder).foldl
      (addBufferToMotrStructures w) s₁ := by
    rw [hs₂, alignDataToMotrUnitSize, hk]
  rw [← halign] at hp₂ hstart₂ hchk₂
  rw [hfill] at hstart₂
  rw [hchk₁] at hchk₂
  have hunaligned : s.bufIdx - s.unalignedBufIdxOffset = s.startingChecksumBufIdx := by
    rw [hp.bufIdx, hp.offset]
    omega
  -- A unit that was begun gets its checksum now.
  obtain ⟨s₃, hs₃⟩ : ∃ s₃, s₃ =
      if w.isS3WriteDiCheckEnabled && s.bufIdx - s.unalignedBufIdxOffset ≠ 0 then
        calcUnitPiInfo m w { s₂ with s3ChecksumFlag := { seedUnit := true } } false
      else s₂ := ⟨_, rfl⟩
  have hf₃ : Finished m w start units before
      (buffers ++ List.replicate (units * w.buffersPerUnit - buffers.length) placeHolder) s₃ := by
    rw [hunaligned, hw.checked, Bool.true_and] at hs₃
    split_ifs at hq hstart₂ with hst
    · rw [if_neg (by simp [hst])] at hs₃
      rw [hs₃]
      exact finished_of_progress hp₂ hstart₂ (hchk₂.trans hq.symm)
    · rw [if_pos (by simp [hst])] at hs₃
      have hone : s₂.chksumBufIdx + 1 = units := by omega
      rw [hs₃]
      exact finished_calcUnit hw (hp₂.withFlag { seedUnit := true }) hstart₂ hone false
  -- The digest of the content changes none of it.
  simp only [finishMotrDataBuffers]
  rw [← hs₁, ← hs₂, ← hs₃]
  split
  · exact calcFinal_finished (hf₃.withFlag _) _
  · exact hf₃

end Operation

/-- Only the last buffer of a call can have less data than fits. -/
structure WriteOp.Sequence (size : Nat) (op : WriteOp) : Prop where
  placeHolder : op.placeHolder.length = size
  mem : ∀ buf ∈ op.buffers, buf.mem.length = size
  full : ∀ buf ∈ op.buffers.dropLast, buf.len = size
  last : ∀ buf ∈ op.buffers.getLast?, 0 < buf.len ∧ buf.len ≤ size

/-- The units of a call, the last of them perhaps filled up. -/
def WriteOp.unitCount (motrUnitSize sizeOfEachBuf : Nat) (op : WriteOp) : Nat :=
  (op.buffers.length * sizeOfEachBuf + (motrUnitSize - 1)) / motrUnitSize

/-- As the writer counts them. -/
def WriteOp.units (w : S3MotrWiter Ctx Digest) (op : WriteOp) : Nat :=
  w.motrBufCount op.buffers.length / w.buffersPerUnit

/-- What a call hands to Motr. -/
def WriteOp.padded (w : S3MotrWiter Ctx Digest) (op : WriteOp) : List Bytes :=
  op.buffers.map (·.mem) ++
    List.replicate (op.units w * w.buffersPerUnit - op.buffers.length) op.placeHolder

theorem WriteOp.units_mul (op : WriteOp) :
    w.motrBufCount op.buffers.length = op.units w * w.buffersPerUnit := by
  have hpos : 0 < w.buffersPerUnit := perUnit_pos
  have hsplit : op.buffers.length =
      op.buffers.length / w.buffersPerUnit * w.buffersPerUnit +
        op.buffers.length % w.buffersPerUnit := (Nat.div_add_mod' _ _).symm
  have heq := motrBufCount_eq (w := w) hsplit (Nat.le_of_lt (Nat.mod_lt _ hpos))
  rw [WriteOp.units, heq, Nat.mul_div_cancel _ hpos]

theorem WriteOp.units_eq (hw : Sized w) (op : WriteOp) :
    op.units w = op.unitCount w.motrUnitSize w.sizeOfEachBuf := by
  have hpos : 0 < w.buffersPerUnit := perUnit_pos
  obtain ⟨q, hq⟩ : ∃ q, q = op.buffers.length / w.buffersPerUnit := ⟨_, rfl⟩
  obtain ⟨rest, hrest⟩ : ∃ rest, rest = op.buffers.length % w.buffersPerUnit := ⟨_, rfl⟩
  have hsplit : op.buffers.length = q * w.buffersPerUnit + rest := by
    rw [hq, hrest]
    exact (Nat.div_add_mod' _ _).symm
  have hlt : rest < w.buffersPerUnit := hrest ▸ Nat.mod_lt _ hpos
  have hbytes : op.buffers.length * w.sizeOfEachBuf + (w.motrUnitSize - 1) =
      w.motrUnitSize * q + (rest * w.sizeOfEachBuf + (w.motrUnitSize - 1)) := by
    rw [hsplit, ← hw.perUnit_mul]
    ring
  have hbelow : rest * w.sizeOfEachBuf < w.motrUnitSize := by
    rw [← hw.perUnit_mul]
    exact Nat.mul_lt_mul_of_pos_right hlt hw.buf_pos
  rw [WriteOp.units, motrBufCount_eq hsplit (Nat.le_of_lt hlt), Nat.mul_div_cancel _ hpos,
    WriteOp.unitCount, hbytes, Nat.mul_add_div hw.unit_pos]
  split_ifs with hzero
  · rw [hzero, Nat.div_eq_of_lt (by omega), Nat.add_zero]
  · have hone : 1 ≤ rest * w.sizeOfEachBuf :=
      Nat.mul_pos (Nat.pos_of_ne_zero hzero) hw.buf_pos
    rw [Nat.div_eq_of_lt_le (k := 1) (by omega) (by omega)]

theorem le_motrBufCount (n : Nat) : n ≤ w.motrBufCount n := by
  unfold motrBufCount
  split <;> omega

variable {op : WriteOp}

theorem setUp_spec (hw : Sized w) (hop : op.Sequence w.sizeOfEachBuf) (first : Bool) :
    Finished m w w.lastIndex (op.units w) w.md5.unitInputs (op.padded w)
      (w.setUpMotrDataBuffers m first op.buffers op.placeHolder) := by
  have hunits : w.motrBufCount op.buffers.length = op.units w * w.buffersPerUnit := op.units_mul
  have hle : op.buffers.length ≤ op.units w * w.buffersPerUnit := by
    rw [← hunits]
    exact le_motrBufCount _
  obtain ⟨s₀, hs₀⟩ : ∃ s₀ : SetUp Ctx Digest, s₀ =
      { rwCtx := w.initWriteOpCtx m (w.motrBufCount op.buffers.length)
        md5 := w.md5
        lastIndex := w.lastIndex
        savedLastIndex := w.lastIndex
        initialBuffersPartWrite := first } := ⟨_, rfl⟩
  have hp₀ : Progress m w w.lastIndex (op.units w) w.md5.unitInputs [] s₀ := by
    subst hs₀
    refine
      { data := rfl, ext := rfl, lastIndex := by simp, bufIdx := rfl,
        attr_length := by simp [initWriteOpCtx, WriteOp.units], pi_length := by simp [initWriteOpCtx],
        split := by simp, starting_le := Nat.zero_le _, pi := by simp, saved := by simp,
        offset := by simp, inputs := ⟨[], by simp, rfl, ?_⟩ }
    exact ⟨by simp, by simp, by simp⟩
  have hsize₀ : s₀.sizeInCurrentWrite = ([] : List Bytes).length * w.sizeOfEachBuf := by
    subst hs₀
    simp
  have hstart₀ : s₀.startingChecksumBufIdx < w.buffersPerUnit := by
    subst hs₀
    exact perUnit_pos
  have hp : Progress m w w.lastIndex (op.units w) w.md5.unitInputs (op.buffers.map (·.mem))
      (op.buffers.foldl (addDataBuffer m w) s₀) := by
    rcases eq_nil_or_concat' op.buffers with hnil | ⟨init, last, hconcat⟩
    · simpa [hnil] using hp₀
    · have hfull : ∀ buf ∈ init, buf.len = w.sizeOfEachBuf := by
        intro buf hbuf
        exact hop.full buf (by simpa [hconcat] using hbuf)
      obtain ⟨hpos, hmax⟩ := hop.last last (by simp [hconcat])
      rw [hconcat, length_append, length_singleton] at hle
      obtain ⟨hp₁, hroom₁, hsize₁⟩ := progress_foldl hw init hfull hp₀ hstart₀ hsize₀ (by simp; omega)
      rw [nil_append] at hp₁ hsize₁
      rw [hconcat, foldl_append, map_append]
      rcases Nat.lt_or_ge last.len w.sizeOfEachBuf with hlt | hge
      · exact progress_addLastBuffer hw hp₁ hroom₁ hsize₁ hpos hlt
      · exact (progress_addDataBuffer hw hp₁ hroom₁ hsize₁ (by rw [length_map]; omega)
          (by omega)).1
  have hfin := finished_finish hw hp (by rw [length_map]; exact hunits) op.placeHolder
  rw [length_map] at hfin
  simp only [setUpMotrDataBuffers]
  rw [← hs₀, hunits]
  exact hfin

/-! ### The writer: an upload -/

/-- What has been written so far: bytes without a gap, and for each unit a checksum that was made from
those of the unit. -/
structure Written (m : MotrPi Ctx Digest) (w : S3MotrWiter Ctx Digest) (o : MotrObject Ctx Digest)
    (content : Bytes) : Prop where
  lastIndex : w.lastIndex = content.length
  whole : content.length = w.md5.unitInputs.length * w.motrUnitSize
  data : ∀ i, i < content.length → o.data i = content[i]?
  seed : ∀ (k : Nat) (t : PiInput Ctx), w.md5.unitInputs[k]? = some t →
    t.seed = some ⟨k * w.motrUnitSize, w.oid⟩
  unit : ∀ (k : Nat) (t : PiInput Ctx), w.md5.unitInputs[k]? = some t →
    t.data = (content.drop (k * w.motrUnitSize)).take w.motrUnitSize
  attr : ∀ (k : Nat) (t : PiInput Ctx), w.md5.unitInputs[k]? = some t → o.attr k = some (attrOf m t)

theorem WriteOp.padded_uniform (hop : op.Sequence w.sizeOfEachBuf) :
    ∀ x ∈ op.padded w, x.length = w.sizeOfEachBuf := by
  intro x hx
  rcases mem_append.1 hx with hdata | hfill
  · obtain ⟨buf, hbuf, rfl⟩ := mem_map.1 hdata
    exact hop.mem buf hbuf
  · rw [eq_of_mem_replicate hfill]
    exact hop.placeHolder

variable {content : Bytes} {o : MotrObject Ctx Digest}

theorem written_writeContent (hw : Sized w) (h : Written m w o content)
    (hop : op.Sequence w.sizeOfEachBuf) (first : Bool) :
    Written m (w.writeContent m o first op.buffers op.placeHolder).1
      (w.writeContent m o first op.buffers op.placeHolder).2 (content ++ (op.padded w).flatten) := by
  obtain ⟨s, hs⟩ : ∃ s, s = w.setUpMotrDataBuffers m first op.buffers op.placeHolder := ⟨_, rfl⟩
  have hf : Finished m w w.lastIndex (op.units w) w.md5.unitInputs (op.padded w) s := by
    rw [hs]
    exact setUp_spec hw hop first
  have huniform := WriteOp.padded_uniform hop
  obtain ⟨done, hinputs, hdone, hcalc⟩ := hf.inputs
  have hbytes : (op.padded w).length * w.sizeOfEachBuf = op.units w * w.motrUnitSize := by
    rw [hf.whole, Nat.mul_assoc, hw.perUnit_mul]
  have hflat : (op.padded w).flatten.length = op.units w * w.motrUnitSize := by
    rw [length_flatten_of_uniform huniform, hbytes]
  have hstart : w.lastIndex = w.md5.unitInputs.length * w.motrUnitSize := h.lastIndex.trans h.whole
  -- The attributes go to the units after those that are there.
  have hattr : ∀ k, (w.writeContent m o first op.buffers op.placeHolder).2.attr k =
      if w.md5.unitInputs.length ≤ k ∧ k < w.md5.unitInputs.length + op.units w then
        s.rwCtx.attr[k - w.md5.unitInputs.length]?
      else o.attr k := by
    intro k
    simp only [writeContent, ← hs, hw.checked, if_true, MotrObject.writeAttrs,
      MotrObject.writeExtents_attr, hf.attr_length]
    rcases Nat.eq_zero_or_pos (op.units w) with hzero | hpos
    · rw [if_neg (by omega), if_neg (by omega)]
    · have hlen : 0 < (op.padded w).length := by
        rw [hf.whole]
        exact Nat.mul_pos hpos perUnit_pos
      have hhead : s.rwCtx.ext.headD 0 / w.motrUnitSize = w.md5.unitInputs.length := by
        obtain ⟨n, hn⟩ : ∃ n, (op.padded w).length = n + 1 := ⟨_, (Nat.succ_pred_eq_of_pos hlen).symm⟩
        rw [hf.ext, hn, range_succ_eq_map, map_cons, headD_cons, Nat.zero_mul,
          Nat.add_zero, hstart, Nat.mul_div_cancel _ hw.unit_pos]
      rw [hhead]
  have hdata : ∀ i, (w.writeContent m o first op.buffers op.placeHolder).2.data i =
      if w.lastIndex ≤ i ∧ i < w.lastIndex + (op.padded w).length * w.sizeOfEachBuf then
        (op.padded w).flatten[i - w.lastIndex]?
      else o.data i := by
    intro i
    simp only [writeContent, ← hs, hw.checked, if_true, MotrObject.writeAttrs]
    rw [hf.ext, hf.data]
    exact MotrObject.writeExtents_data huniform o w.lastIndex i
  have hinputs' : (w.writeContent m o first op.buffers op.placeHolder).1.md5.unitInputs =
      w.md5.unitInputs ++ done := by
    simp only [writeContent, ← hs, hinputs]
  -- A unit is one of those before, or one of this call.
  have hcases : ∀ (k : Nat) (t : PiInput Ctx), (w.md5.unitInputs ++ done)[k]? = some t →
      (k < w.md5.unitInputs.length ∧ w.md5.unitInputs[k]? = some t) ∨
        ∃ j, j < op.units w ∧ k = w.md5.unitInputs.length + j ∧ done[j]? = some t := by
    intro k t hk
    rcases Nat.lt_or_ge k w.md5.unitInputs.length with hlt | hge
    · exact .inl ⟨hlt, by rwa [List.getElem?_append_left hlt] at hk⟩
    · rw [List.getElem?_append_right hge] at hk
      have hj := (List.getElem?_eq_some_iff.1 hk).1
      exact .inr ⟨_, by omega, by omega, hk⟩
  refine
    { lastIndex := ?_, whole := ?_, data := ?_, seed := ?_, unit := ?_, attr := ?_ }
  · simp only [writeContent, ← hs]
    rw [hf.lastIndex, hbytes, length_append, hflat, h.lastIndex]
  · rw [hinputs', length_append, length_append, hflat, h.whole, hdone]
    simp only [writeContent]
    ring
  · intro i hi
    rw [length_append, hflat, ← h.lastIndex] at hi
    rw [hdata i, hbytes]
    rcases Nat.lt_or_ge i w.lastIndex with hlt | hge
    · rw [if_neg (by omega), h.data i (by rw [← h.lastIndex]; exact hlt),
        List.getElem?_append_left (by rw [← h.lastIndex]; exact hlt)]
    · rw [if_pos ⟨hge, hi⟩, List.getElem?_append_right (by rw [← h.lastIndex]; exact hge), h.lastIndex]
  · intro k t hk
    rw [hinputs'] at hk
    rcases hcases k t hk with ⟨-, hold⟩ | ⟨j, -, rfl, hnew⟩
    · exact h.seed k t hold
    · rw [hcalc.seed j t hnew, hstart, ← Nat.add_mul]
      rfl
  · intro k t hk
    rw [hinputs'] at hk
    simp only [writeContent]
    rcases hcases k t hk with ⟨hlt, hold⟩ | ⟨j, hj, rfl, hnew⟩
    · have hunit : (k + 1) * w.motrUnitSize ≤ content.length := by
        rw [h.whole]
        exact Nat.mul_le_mul_right _ hlt
      have hsum : (k + 1) * w.motrUnitSize = k * w.motrUnitSize + w.motrUnitSize := by ring
      rw [h.unit k t hold, drop_append_of_le_length (by omega),
        take_append_of_le_length (by rw [length_drop]; omega)]
    · have hpos : (w.md5.unitInputs.length + j) * w.motrUnitSize =
          content.length + j * w.motrUnitSize := by
        rw [h.whole]
        ring
      rw [hcalc.data j t hnew, flatten_unit_of_uniform huniform, hw.perUnit_mul, hpos,
        drop_length_add_append]
  · intro k t hk
    rw [hinputs'] at hk
    rw [hattr k]
    rcases hcases k t hk with ⟨hlt, hold⟩ | ⟨j, hj, rfl, hnew⟩
    · rw [if_neg (by omega)]
      exact h.attr k t hold
    · rw [if_pos (by omega), Nat.add_sub_cancel_left]
      exact hcalc.stored j t hnew

theorem sized_writeContent (hw : Sized w) (o : MotrObject Ctx Digest) (first : Bool)
    (buffers : List DataBuffer) (placeHolder : Bytes) :
    Sized (w.writeContent m o first buffers placeHolder).1 :=
  ⟨hw.buf_pos, hw.unit_pos, hw.dvd, hw.checked⟩

/-- A whole upload. -/
theorem written_writeAll (ops : List WriteOp) (hw : Sized w) (h : Written m w o content)
    (hops : ∀ op ∈ ops, op.Sequence w.sizeOfEachBuf) (first : Bool) :
    ∃ content', Written m (writeAll m (w, o) first ops).1 (writeAll m (w, o) first ops).2 content' ∧
      (writeAll m (w, o) first ops).1.oid = w.oid ∧
      (writeAll m (w, o) first ops).1.motrUnitSize = w.motrUnitSize ∧
      (writeAll m (w, o) first ops).1.md5.unitInputs.length = w.md5.unitInputs.length +
        (ops.map (WriteOp.unitCount w.motrUnitSize w.sizeOfEachBuf)).sum := by
  induction ops generalizing w o content first with
  | nil => exact ⟨content, h, rfl, rfl, rfl⟩
  | cons op ops ih =>
    have hop := hops op mem_cons_self
    rw [writeAll]
    obtain ⟨content', hwr, hoid, hsize, hcount⟩ :=
      ih (sized_writeContent hw o first op.buffers op.placeHolder)
        (written_writeContent hw h hop first)
        (fun op' hop' => hops op' (mem_cons_of_mem _ hop')) false
    refine ⟨content', hwr, hoid, hsize, ?_⟩
    have hadded : (w.writeContent m o first op.buffers op.placeHolder).1.md5.unitInputs.length =
        w.md5.unitInputs.length + op.unitCount w.motrUnitSize w.sizeOfEachBuf := by
      obtain ⟨done, hinputs, hdone, -⟩ := (setUp_spec (m := m) hw hop first).inputs
      rw [← WriteOp.units_eq hw, ← hdone, ← length_append, ← hinputs]
      rfl
    rw [hcount, hadded, map_cons, sum_cons, Nat.add_assoc]
    rfl

end S3MotrWiter

/-! ### The reader -/

namespace S3MotrReader

open S3MotrWiter (Written attrOf)

variable {Ctx Digest : Type} [DecidableEq Digest] {m : MotrPi Ctx Digest}
  {w : S3MotrWiter Ctx Digest} {o : MotrObject Ctx Digest} {content : Bytes} {r : S3MotrReader Ctx}

/-- The bytes from `start` on, in buffers. -/
def buffersFrom (content : Bytes) (size start count : Nat) : List Bytes :=
  (List.range count).map fun i => (content.drop (start + i * size)).take size

theorem buffersFrom_add (content : Bytes) (size start a b : Nat) :
    buffersFrom content size start (a + b) =
      buffersFrom content size start a ++ buffersFrom content size (start + a * size) b := by
  simp only [buffersFrom, range_add, map_append, map_map]
  congr 1
  refine map_congr_left fun i _ => ?_
  simp only [Function.comp_apply]
  rw [show start + (a + i) * size = start + a * size + i * size by ring]

theorem buffersFrom_flatten (content : Bytes) (size start count : Nat) :
    (buffersFrom content size start count).flatten = (content.drop start).take (count * size) := by
  induction count with
  | zero => simp [buffersFrom]
  | succ count ih =>
    rw [buffersFrom_add, flatten_append, ih, Nat.add_mul, Nat.one_mul, take_add, drop_drop]
    simp [buffersFrom]

theorem buffersFrom_length (content : Bytes) (size start count : Nat) :
    (buffersFrom content size start count).length = count := by
  simp [buffersFrom]

/-- The units are gone through from the one at `p`. -/
theorem validateUnits_spec (h : Written m w o content) {size ratio : Nat}
    (hratio : ratio * size = w.motrUnitSize) (inputs : List (PiInput Ctx)) (r : S3MotrReader Ctx)
    (hoid : r.oid = w.oid) (p : Nat)
    (hinputs : ∀ i t, inputs[i]? = some t → w.md5.unitInputs[p + i]? = some t) :
    validateUnits m r ratio (p * w.motrUnitSize)
        (buffersFrom content size (p * w.motrUnitSize) (inputs.length * ratio))
        (inputs.map (attrOf m)) =
      some { r with unitInputs := r.unitInputs ++ inputs } := by
  induction inputs generalizing r p with
  | nil => simp [validateUnits]
  | cons t inputs ih =>
    have ht : w.md5.unitInputs[p]? = some t := hinputs 0 t rfl
    have hbufs : buffersFrom content size (p * w.motrUnitSize) ((t :: inputs).length * ratio) =
        buffersFrom content size (p * w.motrUnitSize) ratio ++
          buffersFrom content size ((p + 1) * w.motrUnitSize) (inputs.length * ratio) := by
      have hcount : (t :: inputs).length * ratio = ratio + inputs.length * ratio := by
        rw [length_cons]
        ring
      rw [hcount, buffersFrom_add, hratio, Nat.add_mul, Nat.one_mul]
    have htake : (buffersFrom content size (p * w.motrUnitSize) ((t :: inputs).length * ratio)).take
        ratio = buffersFrom content size (p * w.motrUnitSize) ratio := by
      rw [hbufs, take_left' (buffersFrom_length ..)]
    have hdrop : (buffersFrom content size (p * w.motrUnitSize) ((t :: inputs).length * ratio)).drop
        ratio = buffersFrom content size ((p + 1) * w.motrUnitSize) (inputs.length * ratio) := by
      rw [hbufs, drop_left' (buffersFrom_length ..)]
    -- The bytes of the unit are there, so the reader counts a whole unit.
    have hflat : (buffersFrom content size (p * w.motrUnitSize) ratio).flatten = t.data := by
      rw [buffersFrom_flatten, hratio, h.unit p t ht]
    have hinput : (⟨some ⟨p * w.motrUnitSize, r.oid⟩, t.context,
        (buffersFrom content size (p * w.motrUnitSize) ratio).flatten⟩ : PiInput Ctx) = t := by
      rw [hflat, hoid, ← h.seed p t ht]
    have hcounted : calculateBytesProcessed (buffersFrom content size (p * w.motrUnitSize) ratio) =
        w.motrUnitSize := by
      have hp : p < w.md5.unitInputs.length := (List.getElem?_eq_some_iff.1 ht).1
      have hend : (p + 1) * w.motrUnitSize ≤ content.length := by
        rw [h.whole]
        exact Nat.mul_le_mul_right _ hp
      have hsum : (p + 1) * w.motrUnitSize = p * w.motrUnitSize + w.motrUnitSize := by ring
      rw [calculateBytesProcessed, ← length_flatten, buffersFrom_flatten, hratio,
        length_take, length_drop]
      omega
    have hvalid : validateStoredMD5Chksum m (buffersFrom content size (p * w.motrUnitSize) ratio)
        (attrOf m t) ⟨p * w.motrUnitSize, r.oid⟩ = (t, true) := by
      simp only [validateStoredMD5Chksum, MotrPi.motrClientCalculatePi, attrOf]
      simp [hinput]
    rw [map_cons, validateUnits, htake, hdrop, hvalid, hcounted]
    have hnext := ih { r with unitInputs := r.unitInputs ++ [t] } hoid (p + 1) fun i u hu => by
      rw [Nat.add_assoc, Nat.add_comm 1 i]
      exact hinputs (i + 1) u hu
    simpa [Nat.add_mul] using hnext

/-- The sizes of the reader.  It reads the object that `w` writes. -/
structure Matches (r : S3MotrReader Ctx) (w : S3MotrWiter Ctx Digest) : Prop where
  oid : r.oid = w.oid
  unit : r.motrUnitSize = w.motrUnitSize
  unit_pos : 0 < w.motrUnitSize
  buf_pos : 0 < r.evbufUnitBufSz
  dvd : r.evbufUnitBufSz ∣ r.motrUnitSize
  checked : r.isS3ReadDiCheckEnabled = true

theorem ceilDiv_mul {a b : Nat} (hb : 0 < b) (n : Nat) : (n * (a * b) + (b - 1)) / b = n * a := by
  have hmul : n * (a * b) = b * (n * a) := by ring
  rw [hmul, Nat.mul_add_div hb, Nat.div_eq_of_lt (by omega), Nat.add_zero]

variable {n p : Nat}

theorem readObjectData_spec (h : Written m w o content) (hr : Matches r w) (hn : 0 < n)
    (hin : p + n ≤ w.md5.unitInputs.length) (hlast : r.lastIndex = p * w.motrUnitSize)
    (hstart : r.startingIndexForRead = p * w.motrUnitSize) :
    readObjectData m o r n =
      some { r with
        lastIndex := (p + n) * w.motrUnitSize
        startingIndexForRead := (p + n) * w.motrUnitSize
        unitInputs := r.unitInputs ++ (w.md5.unitInputs.drop p).take n } := by
  obtain ⟨ratio, hratio⟩ := hr.dvd
  rw [Nat.mul_comm] at hratio
  have hratio' : ratio * r.evbufUnitBufSz = w.motrUnitSize := by rw [← hratio, hr.unit]
  have hratiopos : 0 < ratio := by
    rcases Nat.eq_zero_or_pos ratio with rfl | hpos
    · have := hr.unit_pos
      omega
    · exact hpos
  have hcount : r.bufCountInEvbuf n = n * ratio := by
    rw [bufCountInEvbuf, hratio, ceilDiv_mul hr.buf_pos]
  have hper : r.bufPerMotrUnit = ratio := by
    have := ceilDiv_mul (a := ratio) hr.buf_pos 1
    rw [bufPerMotrUnit, hratio]
    simpa using this
  have hcountpos : 0 < n * ratio := Nat.mul_pos hn hratiopos
  have hbytes : n * ratio * r.evbufUnitBufSz = n * w.motrUnitSize := by
    rw [Nat.mul_assoc, hratio']
  have hend : (p + n) * w.motrUnitSize ≤ content.length := by
    rw [h.whole]
    exact Nat.mul_le_mul_right _ hin
  rw [Nat.add_mul] at hend
  have hdata : (List.range (n * ratio)).mapM (fun i =>
      o.readAt (p * w.motrUnitSize + i * r.evbufUnitBufSz) r.evbufUnitBufSz) =
      some (buffersFrom content r.evbufUnitBufSz (p * w.motrUnitSize) (n * ratio)) := by
    refine MotrObject.mapM_range_eq_some (by rw [buffersFrom_length]) fun i hi => ?_
    have hbuf : (i + 1) * r.evbufUnitBufSz ≤ n * w.motrUnitSize := by
      rw [← hbytes]
      exact Nat.mul_le_mul_right _ hi
    have hsum : (i + 1) * r.evbufUnitBufSz = i * r.evbufUnitBufSz + r.evbufUnitBufSz := by ring
    rw [MotrObject.readAt_eq h.data (by omega)]
    simp [buffersFrom, hi]
  obtain ⟨inputs, hinputs⟩ : ∃ inputs, inputs = (w.md5.unitInputs.drop p).take n := ⟨_, rfl⟩
  have hlen : inputs.length = n := by
    rw [hinputs, length_take, length_drop]
    omega
  have hget : ∀ i t, inputs[i]? = some t → w.md5.unitInputs[p + i]? = some t := by
    intro i t ht
    have hi : i < n := hlen ▸ (List.getElem?_eq_some_iff.1 ht).1
    rwa [hinputs, List.getElem?_take_of_lt hi, List.getElem?_drop] at ht
  have hattr : o.readAttrs p n = some (inputs.map (attrOf m)) := by
    refine MotrObject.mapM_range_eq_some (by rw [length_map, hlen]) fun i hi => ?_
    have hi' : i < inputs.length := by omega
    rw [List.getElem?_map, List.getElem?_eq_getElem hi', Option.map_some]
    exact h.attr (p + i) _ (hget i _ (List.getElem?_eq_getElem hi'))
  have hunits := validateUnits_spec h hratio' inputs
    { r with lastIndex := r.lastIndex + n * ratio * r.evbufUnitBufSz } hr.oid p hget
  have hfirst : r.lastIndex / r.motrUnitSize = p := by
    rw [hlast, hr.unit, Nat.mul_div_cancel _ hr.unit_pos]
  have hcounted : (buffersFrom content r.evbufUnitBufSz (p * w.motrUnitSize) (n * ratio)).length /
      (inputs.map (attrOf m)).length = ratio := by
    rw [buffersFrom_length, length_map, hlen, Nat.mul_div_cancel_left _ hn]
  have hguard : (guard (0 < n * ratio) : Option Unit) = some () := by
    simp only [guard, if_pos hcountpos]
    rfl
  simp only [readObjectData, hcount]
  rw [hguard, bind_eq_bind, bind_some]
  rw [hlen] at hunits
  simp only [hlast] at hunits ⊢
  rw [hdata, bind_eq_bind, bind_some, if_pos hr.checked]
  have hper' : n * ratio / bufPerMotrUnit { r with
      lastIndex := p * w.motrUnitSize + n * ratio * r.evbufUnitBufSz } = n := by
    have hsame : bufPerMotrUnit { r with
        lastIndex := p * w.motrUnitSize + n * ratio * r.evbufUnitBufSz } = r.bufPerMotrUnit := rfl
    rw [hsame, hper, Nat.mul_div_cancel _ hratiopos]
  rw [hlast] at hfirst
  rw [hfirst, hper', hattr, bind_eq_bind, bind_some, validateStoredChksum, hcounted]
  simp only [hstart] at hunits ⊢
  rw [hunits, bind_eq_bind, bind_some, hbytes, ← Nat.add_mul, hinputs]
  rfl

/-! ### Any sequence of reads -/

/-- The units that are read, one after the other, from a position on. -/
def unitsRead (motrUnitSize : Nat) : Nat → List ReadEvent → List Nat
  | _, [] => []
  | _, .setLastIndex index :: events => unitsRead motrUnitSize index events
  | index, .readObjectData numOfBlocks :: events =>
    List.range' (index / motrUnitSize) numOfBlocks ++
      unitsRead motrUnitSize (index + numOfBlocks * motrUnitSize) events

/-- Reading starts at the beginning of a unit, and there is something to read. -/
def ReadEvent.BlockAligned (motrUnitSize : Nat) : ReadEvent → Prop
  | .setLastIndex index => motrUnitSize ∣ index
  | .readObjectData numOfBlocks => 0 < numOfBlocks

theorem map_range'_getElem? {α : Type} {l : List α} (h : p + n ≤ l.length) :
    (List.range' p n).map (l[·]?) = ((l.drop p).take n).map some := by
  refine ext_getElem? fun i => ?_
  rcases Nat.lt_or_ge i n with hi | hi
  · have hlen : p + i < l.length := by omega
    simp [hi, hlen]
  · rw [List.getElem?_eq_none (by simpa using hi),
      List.getElem?_eq_none (by rw [length_map, length_take]; omega)]

/-- All reads succeed, and each unit is checked with the input it was stored with. -/
theorem readAll_spec (h : Written m w o content) (events : List ReadEvent)
    (haligned : ∀ ev ∈ events, ev.BlockAligned w.motrUnitSize) (r : S3MotrReader Ctx)
    (hr : Matches r w) (p : Nat)
    (hin : ∀ k ∈ unitsRead w.motrUnitSize (p * w.motrUnitSize) events, k < w.md5.unitInputs.length)
    (hlast : r.lastIndex = p * w.motrUnitSize)
    (hstart : r.startingIndexForRead = p * w.motrUnitSize) :
    ∃ r', readAll m o r events = some r' ∧
      r'.unitInputs.map some = r.unitInputs.map some ++
        (unitsRead w.motrUnitSize (p * w.motrUnitSize) events).map (w.md5.unitInputs[·]?) := by
  induction events generalizing r p with
  | nil => exact ⟨r, rfl, by simp [unitsRead]⟩
  | cons ev events ih =>
    have hrest : ∀ ev ∈ events, ev.BlockAligned w.motrUnitSize :=
      fun ev' hev' => haligned ev' (mem_cons_of_mem _ hev')
    have hev := haligned ev mem_cons_self
    cases ev with
    | setLastIndex index =>
      obtain ⟨q, rfl⟩ : w.motrUnitSize ∣ index := hev
      have hunits : unitsRead w.motrUnitSize (p * w.motrUnitSize)
          (.setLastIndex (w.motrUnitSize * q) :: events) =
          unitsRead w.motrUnitSize (q * w.motrUnitSize) events := by
        rw [unitsRead, Nat.mul_comm]
      rw [hunits] at hin ⊢
      exact ih hrest (r.setLastIndex (w.motrUnitSize * q))
        ⟨hr.oid, hr.unit, hr.unit_pos, hr.buf_pos, hr.dvd, hr.checked⟩ q hin (Nat.mul_comm _ _)
        (Nat.mul_comm _ _)
    | readObjectData n =>
      have hn : 0 < n := hev
      have hunits : unitsRead w.motrUnitSize (p * w.motrUnitSize) (.readObjectData n :: events) =
          List.range' p n ++ unitsRead w.motrUnitSize ((p + n) * w.motrUnitSize) events := by
        rw [unitsRead, Nat.mul_div_cancel _ hr.unit_pos, ← Nat.add_mul]
      rw [hunits] at hin ⊢
      -- The last unit of the read is one that was written, and so are those before it.
      have hinside : p + n ≤ w.md5.unitInputs.length := by
        have hmem : p + (n - 1) ∈ List.range' p n := by
          rw [mem_range'_1]
          omega
        have := hin _ (mem_append_left _ hmem)
        omega
      obtain ⟨r', hread, hinputs⟩ := ih hrest
        { r with
          lastIndex := (p + n) * w.motrUnitSize
          startingIndexForRead := (p + n) * w.motrUnitSize
          unitInputs := r.unitInputs ++ (w.md5.unitInputs.drop p).take n }
        ⟨hr.oid, hr.unit, hr.unit_pos, hr.buf_pos, hr.dvd, hr.checked⟩ (p + n)
        (fun k hk => hin k (mem_append_right _ hk)) rfl rfl
      refine ⟨r', ?_, ?_⟩
      · rw [readAll, foldlM_cons, readEvent,
          readObjectData_spec h hr hn hinside hlast hstart]
        exact hread
      · rw [hinputs, map_append, map_append, map_range'_getElem? hinside, append_assoc]

end S3MotrReader

open S3MotrWiter in
/-- **The reader recalculates the checksum of every unit from what the writer calculated it from.**
Whatever is written in whatever calls, and whatever units of it are read in whatever order: the checksum
that is stored with a unit was made from an input of its own, the reader comes by the same input, and so
every read is found to be in order. -/
theorem validates_stored {Ctx Digest : Type} [DecidableEq Digest] (m : MotrPi Ctx Digest)
    (writeCheck readCheck : Bool) (oid : M0Uint128) (motrUnitSize sizeOfEachBuf evbufUnitBufSz : Nat)
    (hcheck : (S3DataIntegrityOption.load writeCheck readCheck).readDiCheckEnabled = true)
    (hunit : 0 < motrUnitSize) (hbuf : sizeOfEachBuf ∣ motrUnitSize)
    (hevbuf : evbufUnitBufSz ∣ motrUnitSize) (ops : List WriteOp)
    (hops : ∀ op ∈ ops, op.Sequence sizeOfEachBuf) (firstPart : Bool)
    (w : S3MotrWiter Ctx Digest) (o : MotrObject Ctx Digest)
    (hwritten : (w, o) = writeAll m (S3MotrWiter.create m
      (S3DataIntegrityOption.load writeCheck readCheck) oid motrUnitSize sizeOfEachBuf, {}) firstPart ops)
    (events : List S3MotrReader.ReadEvent) (haligned : ∀ ev ∈ events, ev.BlockAligned motrUnitSize)
    (hinside : ∀ k ∈ S3MotrReader.unitsRead motrUnitSize 0 events,
      k < (ops.map (WriteOp.unitCount motrUnitSize sizeOfEachBuf)).sum) :
    w.md5.unitInputs.length = (ops.map (WriteOp.unitCount motrUnitSize sizeOfEachBuf)).sum ∧
      (∀ (k : Nat) (input : PiInput Ctx), w.md5.unitInputs[k]? = some input →
        o.attr k = some ⟨input.context, m.value input⟩) ∧
      ∃ r, S3MotrReader.readAll m o (S3MotrReader.create
          (S3DataIntegrityOption.load writeCheck readCheck) oid motrUnitSize evbufUnitBufSz) events =
            some r ∧
        r.unitInputs.map some =
          (S3MotrReader.unitsRead motrUnitSize 0 events).map (w.md5.unitInputs[·]?) := by
  have hload : writeCheck = true := by
    cases writeCheck
    · simp [S3DataIntegrityOption.load] at hcheck
    · rfl
  obtain ⟨w₀, hw₀⟩ : ∃ w₀, w₀ = S3MotrWiter.create m
      (S3DataIntegrityOption.load writeCheck readCheck) oid motrUnitSize sizeOfEachBuf := ⟨_, rfl⟩
  have hsized : Sized w₀ := by
    subst hw₀
    exact ⟨Nat.pos_of_dvd_of_pos hbuf hunit, hunit, hbuf, hload⟩
  have hstart : Written m w₀ {} [] := by
    subst hw₀
    exact ⟨rfl, by simp [S3MotrWiter.create], by simp, by simp [S3MotrWiter.create],
      by simp [S3MotrWiter.create], by simp [S3MotrWiter.create]⟩
  have hops₀ : ∀ op ∈ ops, op.Sequence w₀.sizeOfEachBuf := by
    subst hw₀
    exact hops
  obtain ⟨content, hw, hoid, hsize, hcount⟩ := written_writeAll ops hsized hstart hops₀ firstPart
  rw [← hw₀] at hwritten
  rw [← hwritten] at hw hoid hsize hcount
  subst hw₀
  have hlen : w.md5.unitInputs.length =
      (ops.map (WriteOp.unitCount motrUnitSize sizeOfEachBuf)).sum := by
    simpa [S3MotrWiter.create] using hcount
  have hunitSize : w.motrUnitSize = motrUnitSize := hsize
  refine ⟨hlen, fun k input hk => hw.attr k input hk, ?_⟩
  obtain ⟨r, hread, hinputs⟩ := S3MotrReader.readAll_spec hw events (by rw [hunitSize]; exact haligned)
    (S3MotrReader.create (S3DataIntegrityOption.load writeCheck readCheck) oid motrUnitSize
      evbufUnitBufSz)
    ⟨hoid.symm, hunitSize.symm, by rw [hunitSize]; exact hunit, Nat.pos_of_dvd_of_pos hevbuf hunit,
      hevbuf, hcheck⟩ 0
    (by rw [Nat.zero_mul, hunitSize, hlen]; exact hinside) (Nat.zero_mul _).symm (Nat.zero_mul _).symm
  rw [Nat.zero_mul, hunitSize] at hinputs
  exact ⟨r, hread, by simpa [S3MotrReader.create] using hinputs⟩

/-- A digest that keeps all it has seen, and the offset. -/
def plainPi : MotrPi Bytes (Bytes × Nat) where
  init := []
  update t := t.context ++ t.data
  value t := (t.context ++ t.data, (t.seed.map (·.dataUnitOffset)).getD 0)
  zero := ⟨[], ([], 0)⟩

/-- Three buffers of two bytes for units of four: the second unit is filled up. -/
def threeBuffers : S3MotrWiter.WriteOp where
  buffers := [⟨[1, 2], 2⟩, ⟨[3, 4], 2⟩, ⟨[5, 0], 1⟩]
  placeHolder := [9, 9]

theorem threeBuffers_sequence : threeBuffers.Sequence 2 where
  placeHolder := rfl
  mem := by decide
  full := by decide
  last := by decide

/-- Both units are read, and then the second alone. -/
theorem validates_threeBuffers :
    ∃ r, S3MotrReader.readAll plainPi (S3MotrWiter.writeAll plainPi (S3MotrWiter.create plainPi
        (S3DataIntegrityOption.load true true) {} 4 2, {}) false [threeBuffers]).2
      (S3MotrReader.create (S3DataIntegrityOption.load true true) {} 4 2)
      [.setLastIndex 0, .readObjectData 2, .setLastIndex 4, .readObjectData 1] = some r := by
  obtain ⟨-, -, r, hr, -⟩ := validates_stored plainPi true true {} 4 2 2 rfl (by decide) (by decide)
    (by decide) [threeBuffers] (by simpa using threeBuffers_sequence) false _ _ rfl
    [.setLastIndex 0, .readObjectData 2, .setLastIndex 4, .readObjectData 1]
    (by simp [S3MotrReader.ReadEvent.BlockAligned]) (by decide)
  exact ⟨r, hr⟩

end CortxS3
