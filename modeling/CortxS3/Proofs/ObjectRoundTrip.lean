/-
What was uploaded is what is downloaded.

The writer fills up the last unit, so what Motr stores is the content and some bytes behind it
(`written_content`).  A download reads whole blocks and cuts the range out of them.  Each of its reads
goes on where the one before it ended, and so the reader, which keeps a place of its own, reads the
same blocks, and finds the checksum of each unit in order.
-/
import CortxS3.Proofs.GetSimpleObject
import CortxS3.Proofs.MotrContentMd5

namespace CortxS3

open List

/-! ### What is stored -/

namespace S3MotrWiter

variable {Ctx Digest : Type} {m : MotrPi Ctx Digest} {w : S3MotrWiter Ctx Digest} {op : WriteOp}

/-- A call hands over its data, and behind it what is not data. -/
theorem padded_content (hop : op.Filled w.sizeOfEachBuf) :
    ∃ fill, (op.padded w).flatten = op.content ++ fill := by
  obtain ⟨init, last, hbufs⟩ : ∃ init last, op.buffers = init ++ [last] :=
    ⟨_, _, (dropLast_append_getLast hop.nonempty).symm⟩
  have hinit : init.flatMap (fun buf => buf.mem.take buf.len) = (init.map (·.mem)).flatten := by
    refine content_of_full (fun buf hbuf => hop.mem buf ?_) (fun buf hbuf => hop.full buf ?_)
    · rw [hbufs]
      exact mem_append_left _ hbuf
    · rw [hbufs, dropLast_concat]
      exact hbuf
  refine ⟨last.mem.drop last.len ++ (List.replicate
    (op.units w * w.buffersPerUnit - op.buffers.length) op.placeHolder).flatten, ?_⟩
  unfold WriteOp.padded WriteOp.content
  rw [flatten_append, hbufs, map_append, flatten_append, flatMap_append, hinit]
  simp only [map_cons, map_nil, flatten_cons, flatten_nil, append_nil,
    flatMap_cons, flatMap_nil, append_assoc]
  conv_lhs => rw [← take_append_drop last.len last.mem, append_assoc]

/-- A call of whole units hands over its data and nothing else. -/
theorem padded_whole (hw : Sized w) (hop : op.Filled w.sizeOfEachBuf)
    (hfull : ∀ buf ∈ op.buffers, buf.len = w.sizeOfEachBuf)
    (hwhole : w.motrUnitSize ∣ op.buffers.length * w.sizeOfEachBuf) :
    (op.padded w).flatten = op.content := by
  rw [← hw.perUnit_mul] at hwhole
  have hdvd : w.buffersPerUnit ∣ op.buffers.length := Nat.dvd_of_mul_dvd_mul_right hw.buf_pos hwhole
  have hcount : op.units w * w.buffersPerUnit = op.buffers.length := by
    rw [← WriteOp.units_mul]
    unfold motrBufCount
    rw [if_neg]
    rintro ⟨-, hpos⟩
    rw [Nat.mod_eq_zero_of_dvd hdvd] at hpos
    exact Nat.lt_irrefl 0 hpos
  unfold WriteOp.padded WriteOp.content
  rw [hcount, Nat.sub_self, replicate_zero, append_nil, content_of_full hop.mem hfull]

/-- **An upload stores its content from the front on.** -/
theorem written_content (ops : List WriteOp) (hw : Sized w) {o : MotrObject Ctx Digest}
    {content : Bytes} (h : Written m w o content)
    (hops : Upload w.motrUnitSize w.sizeOfEachBuf ops)
    (hfill : ∀ op ∈ ops, op.placeHolder.length = w.sizeOfEachBuf) (first : Bool) :
    ∃ fill, Written m (writeAll m (w, o) first ops).1 (writeAll m (w, o) first ops).2
        (content ++ ops.flatMap WriteOp.content ++ fill) ∧
      (writeAll m (w, o) first ops).1.oid = w.oid ∧
      (writeAll m (w, o) first ops).1.motrUnitSize = w.motrUnitSize := by
  induction ops generalizing w o content first with
  | nil =>
    refine ⟨[], ?_, rfl, rfl⟩
    rw [flatMap_nil, append_nil, append_nil]
    exact h
  | cons op ops ih =>
    have hop := hops.filled op mem_cons_self
    have hwritten := written_writeContent hw h
      ⟨hfill op mem_cons_self, hop.mem, hop.full, hop.last⟩ first
    rw [writeAll]
    cases ops with
    | nil =>
      obtain ⟨fill, hpadded⟩ := padded_content hop
      refine ⟨fill, ?_, rfl, rfl⟩
      rw [flatMap_cons, flatMap_nil, append_nil, append_assoc, ← hpadded]
      exact hwritten
    | cons next rest =>
      obtain ⟨hfull, hwhole⟩ := hops.whole op (by simp)
      obtain ⟨fill, hrest, hoid, hsize⟩ := ih (sized_writeContent hw o first op.buffers op.placeHolder)
        hwritten hops.tail (fun op' hop' => hfill op' (mem_cons_of_mem _ hop')) false
      refine ⟨fill, ?_, hoid, hsize⟩
      rw [padded_whole hw hop hfull hwhole] at hrest
      rw [flatMap_cons, ← append_assoc content]
      exact hrest

end S3MotrWiter

/-! ### What is read -/

namespace S3MotrReader

/-- Reads that go on where the one before ended cover their blocks in turn. -/
theorem unitsRead_counts {motrUnitSize : Nat} (hunit : 0 < motrUnitSize) :
    ∀ (counts : List Nat) (p : Nat), unitsRead motrUnitSize (p * motrUnitSize)
      (counts.map ReadEvent.readObjectData) = List.range' p counts.sum := by
  intro counts
  induction counts with
  | nil =>
    intro p
    rfl
  | cons n counts ih =>
    intro p
    rw [map_cons, unitsRead, Nat.mul_div_cancel _ hunit, ← Nat.add_mul, ih, sum_cons,
      range'_append_1]

end S3MotrReader

namespace S3GetSimpleObject

/-- A read of no blocks is not launched. -/
theorem reads_of_ends {a a' : S3GetSimpleObject} (h : ∀ read ∈ a.reads, 0 < read.2)
    (hends : Until.Ends readObjectData a a') : ∀ read ∈ a'.reads, 0 < read.2 := by
  let P (s : S3GetSimpleObject) : Prop := ∀ read ∈ s.reads, 0 < read.2
  refine Until.Ends.of_invariant (I := P) (Q := P) (fun s s' hs hnext => ?_)
    (fun s s' hs hdone => ?_) h hends
  · unfold readObjectData sendDataToClient at hnext
    grind
  · unfold readObjectData sendDataToClient at hdone
    grind

/-- A download ends with the bytes of the range, and has read their blocks in turn. -/
theorem ends_readObject (object : Nat → UInt8) {contentLength motrUnitSize unitsPerRequest
    firstReadSize first last : Nat} (hunit : 0 < motrUnitSize) (hunits : 1 ≤ unitsPerRequest)
    (hfirstRead : 1 ≤ firstReadSize) (hrange : first ≤ last) (hlast : last < contentLength)
    (hsize : contentLength < sizeMod) :
    ∃ a, Until.Ends readObjectData
        (readObject object contentLength motrUnitSize unitsPerRequest firstReadSize first last) a ∧
      a.body = bytesOf object first (last - first + 1) ∧ (∀ read ∈ a.reads, 0 < read.2) ∧
      (a.reads.map (·.2)).sum = last / motrUnitSize - first / motrUnitSize + 1 := by
  set a := readObject object contentLength motrUnitSize unitsPerRequest firstReadSize first last
    with ha
  have hblocks : a.totalBlocksToRead = last / motrUnitSize - first / motrUnitSize + 1 :=
    totalBlocksToReadFromObject_eq hunit hlast
  have hready : Ready a :=
    ⟨hunit, hunits, hfirstRead, hrange, hblocks, by simp only [ha, readObject]; omega⟩
  have hstart : a.stateAt 0 0 [] = a := by
    have hindex : (first / motrUnitSize + 0) * motrUnitSize = first - first % motrUnitSize := by
      have hmod := Nat.div_add_mod' first motrUnitSize
      rw [Nat.add_zero]
      omega
    simp only [ha, stateAt, readObject, firstBlock, hindex, bytesOf, range_zero, map_nil]
  obtain ⟨reads, hcovers, hends⟩ := ends_of_stateAt hready _ 0 [] (Nat.zero_add _)
    (by rw [hblocks]; omega) ⟨rfl, by simp⟩
  rw [show a.sentUpTo 0 = 0 by unfold sentUpTo sentAt; omega, hstart] at hends
  refine ⟨_, hends, rfl, reads_of_ends (by simp [ha, readObject]) hends, ?_⟩
  have hlength := congrArg List.length hcovers.blocks
  rw [length_range', length_flatMap] at hlength
  simp only [blocksOf, length_range'] at hlength
  exact hlength.trans hblocks

end S3GetSimpleObject

/-! ### Up and down -/

/-- The bytes of a Motr object, as far as it has them. -/
def MotrObject.bytes {Ctx Digest : Type} (o : MotrObject Ctx Digest) (i : Nat) : UInt8 :=
  (o.data i).getD 0

open S3MotrWiter S3GetSimpleObject in
/-- **What was uploaded is what is downloaded**, and each unit on the way is found to be in order.  For
every cut of a content into calls, every unit size, every size of the buffers on both sides, every limit
on the reads and every range: the download ends with the bytes of the range, and the reader gets all
blocks that the download asks for, with the checksum of each unit the one that the upload stored. -/
theorem downloads_uploaded {Ctx Digest : Type} [DecidableEq Digest] (m : MotrPi Ctx Digest)
    (oid : M0Uint128) {motrUnitSize sizeOfEachBuf evbufUnitBufSz : Nat} (hunit : 0 < motrUnitSize)
    (hbuf : sizeOfEachBuf ∣ motrUnitSize) (hevbuf : evbufUnitBufSz ∣ motrUnitSize)
    (ops : List WriteOp) (hops : Upload motrUnitSize sizeOfEachBuf ops)
    (hfill : ∀ op ∈ ops, op.placeHolder.length = sizeOfEachBuf) {w : S3MotrWiter Ctx Digest}
    {o : MotrObject Ctx Digest}
    (hwritten : (w, o) = writeAll m (S3MotrWiter.create m (S3DataIntegrityOption.load true true) oid
      motrUnitSize sizeOfEachBuf, {}) false ops)
    {unitsPerRequest firstReadSize first last : Nat} (hunits : 1 ≤ unitsPerRequest)
    (hfirstRead : 1 ≤ firstReadSize) (hrange : first ≤ last)
    (hlast : last < (ops.flatMap WriteOp.content).length)
    (hsize : (ops.flatMap WriteOp.content).length < sizeMod) :
    ∃ a, Until.Ends readObjectData (readObject o.bytes (ops.flatMap WriteOp.content).length
        motrUnitSize unitsPerRequest firstReadSize first last) a ∧
      a.body = ((ops.flatMap WriteOp.content).drop first).take (last - first + 1) ∧
      ∃ r, S3MotrReader.readAll m o (S3MotrReader.create (S3DataIntegrityOption.load true true) oid
          motrUnitSize evbufUnitBufSz) (.setLastIndex (first - first % motrUnitSize) ::
            (a.reads.map (·.2)).map .readObjectData) = some r ∧
        r.unitInputs.map some =
          (List.range' (first / motrUnitSize) (last / motrUnitSize - first / motrUnitSize + 1)).map
            (w.md5.unitInputs[·]?) := by
  obtain ⟨content, hcontent⟩ : ∃ content, content = ops.flatMap WriteOp.content := ⟨_, rfl⟩
  rw [← hcontent] at hlast hsize ⊢
  obtain ⟨fill, hstored, hoid, hsame⟩ := written_content (m := m)
    (w := S3MotrWiter.create m (S3DataIntegrityOption.load true true) oid motrUnitSize sizeOfEachBuf)
    ops ⟨Nat.pos_of_dvd_of_pos hbuf hunit, hunit, hbuf, rfl⟩
    (⟨rfl, by simp [S3MotrWiter.create], by simp, by simp [S3MotrWiter.create],
      by simp [S3MotrWiter.create], by simp [S3MotrWiter.create]⟩ : Written m _ {} []) hops hfill false
  rw [← hwritten, nil_append, ← hcontent] at hstored
  rw [← hwritten] at hoid hsame
  replace hstored : Written m w o (content ++ fill) := hstored
  have hunitSize : w.motrUnitSize = motrUnitSize := hsame
  obtain ⟨a, hends, hbody, hpositive, hcount⟩ :=
    ends_readObject o.bytes hunit hunits hfirstRead hrange hlast hsize
  refine ⟨a, hends, ?_, ?_⟩
  · rw [hbody]
    refine ext_getElem? fun i => ?_
    by_cases hi : i < last - first + 1
    · have hin : first + i < content.length := by omega
      have hdata := hstored.data (first + i) (by rw [length_append]; omega)
      rw [List.getElem?_append_left hin] at hdata
      rw [List.getElem?_take_of_lt hi, List.getElem?_drop]
      simp [bytesOf, hi, MotrObject.bytes, hdata, hin]
    · rw [List.getElem?_eq_none (by rw [length_bytesOf]; omega),
        List.getElem?_eq_none (by rw [length_take]; omega)]
  · have hunitsRead : S3MotrReader.unitsRead motrUnitSize 0
        (.setLastIndex (first - first % motrUnitSize) :: (a.reads.map (·.2)).map .readObjectData) =
        List.range' (first / motrUnitSize) (last / motrUnitSize - first / motrUnitSize + 1) := by
      have hindex : first - first % motrUnitSize = first / motrUnitSize * motrUnitSize := by
        have hmod := Nat.div_add_mod' first motrUnitSize
        omega
      rw [S3MotrReader.unitsRead, hindex, S3MotrReader.unitsRead_counts hunit, hcount]
    obtain ⟨r, hread, hinputs⟩ := S3MotrReader.readAll_spec hstored
      (.setLastIndex (first - first % motrUnitSize) :: (a.reads.map (·.2)).map .readObjectData)
      (by
        intro ev hev
        rcases mem_cons.mp hev with rfl | hev
        · rw [hunitSize]
          exact Nat.dvd_sub_mod first
        · obtain ⟨n, hn, rfl⟩ := mem_map.mp hev
          obtain ⟨read, hread, rfl⟩ := mem_map.mp hn
          exact hpositive read hread)
      (S3MotrReader.create (S3DataIntegrityOption.load true true) oid motrUnitSize evbufUnitBufSz)
      ⟨hoid.symm, hunitSize.symm, by rw [hunitSize]; exact hunit, Nat.pos_of_dvd_of_pos hevbuf hunit,
        hevbuf, rfl⟩ 0
      (by
        intro k hk
        rw [Nat.zero_mul, hunitSize, hunitsRead, mem_range'_1] at hk
        have hmono : first / motrUnitSize ≤ last / motrUnitSize := Nat.div_le_div_right hrange
        have hle : k * motrUnitSize ≤ last := by
          refine (Nat.le_div_iff_mul_le hunit).mp ?_
          omega
        have hwhole := hstored.whole
        rw [length_append, hunitSize] at hwhole
        have hlt : k * motrUnitSize < w.md5.unitInputs.length * motrUnitSize := by omega
        exact Nat.lt_of_mul_lt_mul_right hlt)
      (Nat.zero_mul _).symm (Nat.zero_mul _).symm
    rw [Nat.zero_mul, hunitSize, hunitsRead] at hinputs
    exact ⟨r, hread, by simpa [S3MotrReader.create] using hinputs⟩

/-- Five bytes in two calls; three of them are read back, from both units. -/
theorem downloads_uploaded_halfUnit :
    ∃ a, Until.Ends S3GetSimpleObject.readObjectData (S3GetSimpleObject.readObject
        (S3MotrWiter.writeAll S3MotrWiter.md5Pi (S3MotrWiter.create S3MotrWiter.md5Pi
          (S3DataIntegrityOption.load true true) {} 4 2, {}) false S3MotrWiter.halfUnit).2.bytes 5 4 1 1
        2 4) a ∧ a.body = [3, 4, 5] := by
  obtain ⟨a, hends, hbody, -⟩ := downloads_uploaded S3MotrWiter.md5Pi {} (by decide : 0 < 4)
    (by decide : 2 ∣ 4) (by decide : 2 ∣ 4) S3MotrWiter.halfUnit
    ⟨by
      intro op hop
      rcases mem_cons.mp hop with rfl | hop
      · exact ⟨by decide, by decide, by decide, by decide⟩
      · obtain rfl := mem_singleton.mp hop
        exact ⟨by decide, by decide, by decide, by decide⟩, by decide⟩ (by decide) rfl
    (by decide : 1 ≤ 1) (by decide : 1 ≤ 1) (by decide : 2 ≤ 4) (by decide) (by decide)
  exact ⟨a, hends, hbody⟩

end CortxS3
