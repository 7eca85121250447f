/-
The copier copies everything and reports once.

`Inv` has four cases: before the copy, while it runs, when it has failed and waits for what is under way,
and after the report.  While it runs, what was written and what waits are together the first buffers of
the source (`Data`), and they are followed by what is being read.

Two kinds of steps break this.  A launch failure makes the copier report, and it is reported to the copier
again when nothing is under way any more.  And a copier that was told to give up reports when the first
of its two operations succeeds, though the other is still under way; it waits only when an operation
of its own has failed.  `Steady` leaves these out.
-/
import CortxS3.Server.ObjectDataCopier

namespace CortxS3

open List

namespace S3ObjectDataCopier

variable {α : Type} (c : Config α)

/-- No launch fails but for want of memory, and no operation succeeds for a copy that has failed while
the other operation is under way. -/
def Steady (s : State α) : Event → Prop
  | .copy rl => rl ≠ .failedToLaunch
  | .readSuccess rl wl =>
    rl ≠ .failedToLaunch ∧ wl ≠ .failedToLaunch ∧ ¬ (s.copyFailed = true ∧ s.writing = true)
  | .writeSuccess rl wl =>
    rl ≠ .failedToLaunch ∧ wl ≠ .failedToLaunch ∧
      ¬ (s.copyFailed = true ∧ s.reading.isSome = true)
  | _ => True

/-- What is asked of a run. -/
structure Exact (s : State α) : Prop where
  asserts : s.assertFailed = false
  reportsOnce : s.successes + s.failures ≤ 1
  reports : s.copyStarted = true → s.busy = false → s.successes + s.failures = 1
  notBusy : s.endedBusy = false
  copied : s.successes = 1 → ∃ n, s.written = (List.range n).map c.source ∧
    c.objectSize ≤ n * c.sizeOfEvBuffer ∧
    n * c.sizeOfEvBuffer < c.objectSize + c.motrUnitSize + c.sizeOfEvBuffer

/-! ### The invariant -/

/-- What has been read: written, or waiting to be written. -/
def State.blocks (s : State α) : List α := s.written ++ s.dataBlocksRead

/-- The buffers of the source from `i` on that a read of what is left returns. -/
def nextBlocks (i : Nat) (left : Nat) : List α :=
  (List.range (buffersFor c (unitsToRead c left))).map fun k => c.source (i + k)

structure Data (s : State α) : Prop where
  blocks : s.blocks = (List.range s.blocks.length).map c.source
  left : s.bytesLeftToRead = c.objectSize - s.blocks.length * c.sizeOfEvBuffer
  bound : s.blocks.length * c.sizeOfEvBuffer < c.objectSize + c.motrUnitSize + c.sizeOfEvBuffer

/-- What holds at all times. -/
structure Base (s : State α) : Prop where
  asserts : s.assertFailed = false
  notBusy : s.endedBusy = false
  readReports : s.readReports = 0
  writeReports : s.writeReports = 0
  reading : s.readInProgress = s.reading.isSome
  writing : s.writeInProgress = s.writing

/-- Before the copy. -/
structure Fresh (s : State α) : Prop where
  copyStarted : s.copyStarted = false
  reading : s.reading = none
  writing : s.writing = false
  waiting : s.dataBlocksRead = []
  written : s.written = []
  evbufferRead : s.evbufferRead = false
  evbufferWrite : s.evbufferWrite = false
  lastIndex : s.lastIndex = 0
  notReported : s.successes = 0 ∧ s.failures = 0

/-- While it runs, also in the middle of a callback. -/
structure Live (s : State α) : Prop where
  base : Base s
  copyStarted : s.copyStarted = true
  notReported : s.successes = 0 ∧ s.failures = 0
  notFailed : s.copyFailed = false
  data : Data c s
  lastIndex : s.lastIndex = s.blocks.length + (s.reading.map List.length).getD 0
  reading : ∀ bs, s.reading = some bs →
    0 < s.bytesLeftToRead ∧ bs = nextBlocks c s.blocks.length s.bytesLeftToRead
  evbufferWrite : s.evbufferWrite = s.writing
  waiting : s.dataBlocksRead ≠ [] → s.evbufferRead = true ∧ s.reading = none
  noEvbufferRead : s.dataBlocksRead = [] → s.evbufferRead = false

/-- While it runs, between callbacks: what waits to be written waits for a write, and nothing is read
only when all is read or something waits. -/
structure Working (s : State α) : Prop where
  live : Live c s
  busy : s.reading.isSome = true ∨ s.writing = true
  writing : s.dataBlocksRead ≠ [] → s.writing = true
  readNext : s.reading = none → s.bytesLeftToRead = 0 ∨ s.dataBlocksRead ≠ []

/-- It has failed, and waits for what is under way. -/
structure GivingUp (s : State α) : Prop where
  copyStarted : s.copyStarted = true
  notReported : s.successes = 0 ∧ s.failures = 0
  failed : s.copyFailed = true
  busy : s.reading.isSome = true ∨ s.writing = true
  evbufferWrite : s.writing = true → s.evbufferWrite = true

/-- After the report. -/
structure Ended (s : State α) : Prop where
  copyStarted : s.copyStarted = true
  reading : s.reading = none
  writing : s.writing = false
  reported : s.successes + s.failures = 1
  copied : s.successes = 1 → Data c s ∧ s.bytesLeftToRead = 0 ∧ s.dataBlocksRead = []

structure Inv (s : State α) : Prop where
  base : Base s
  stage : Fresh s ∨ Working c s ∨ GivingUp s ∨ Ended c s

variable {s : State α}

theorem Inv.exact (hs : Inv c s) : Exact c s := by
  have hb := hs.base
  have running : s.successes = 0 ∧ s.failures = 0 →
      s.reading.isSome = true ∨ s.writing = true → Exact c s := by
    rintro ⟨h1, h2⟩ hbusy
    refine ⟨hb.asserts, by omega, ?_, hb.notBusy, by omega⟩
    intro _ hidle
    rcases hbusy with hr | hw
    · simp [State.busy, hr] at hidle
    · simp [State.busy, hw] at hidle
  rcases hs.stage with h | h | h | h
  · obtain ⟨h1, h2⟩ := h.notReported
    exact ⟨hb.asserts, by omega, by simp [h.copyStarted], hb.notBusy, by omega⟩
  · exact running h.live.notReported h.busy
  · exact running h.notReported h.busy
  · refine ⟨hb.asserts, h.reported.le, fun _ _ => h.reported, hb.notBusy, ?_⟩
    intro hsucc
    obtain ⟨hdata, hleft, hwait⟩ := h.copied hsucc
    have hblocks : s.blocks = s.written := by rw [State.blocks, hwait, append_nil]
    refine ⟨s.written.length, ?_, ?_, ?_⟩
    · rw [← hblocks]
      exact hdata.blocks
    · have := hdata.left
      rw [hblocks, hleft] at this
      omega
    · have := hdata.bound
      rwa [hblocks] at this

/-! ### How much is read -/

variable {c}

variable {left : Nat}

theorem unitsToRead_pos (hunit : 0 < c.motrUnitSize) (hper : 0 < c.motrUnitsPerRequest)
    (hleft : 0 < left) : 0 < unitsToRead c left := by
  rw [unitsToRead, Nat.lt_min]
  exact ⟨hper, Nat.div_pos (by omega) hunit⟩

theorem nextBlocks_ne_nil (hunit : 0 < c.motrUnitSize) (hper : 0 < c.motrUnitsPerRequest)
    (hev : 0 < c.sizeOfEvBuffer) (i : Nat) (hleft : 0 < left) : nextBlocks c i left ≠ [] := by
  have hunits := unitsToRead_pos hunit hper hleft
  have hbytes : 0 < unitsToRead c left * c.motrUnitSize := Nat.mul_pos hunits hunit
  have hn : 0 < buffersFor c (unitsToRead c left) := Nat.div_pos (by omega) hev
  intro h
  have hlen := congrArg List.length h
  simp only [nextBlocks, length_map, length_range, length_nil] at hlen
  omega

theorem buffersFor_mul_lt (hunit : 0 < c.motrUnitSize) (hev : 0 < c.sizeOfEvBuffer)
    (hleft : 0 < left) :
    buffersFor c (unitsToRead c left) * c.sizeOfEvBuffer <
      left + c.motrUnitSize + c.sizeOfEvBuffer := by
  have h1 : unitsToRead c left * c.motrUnitSize ≤ left + c.motrUnitSize - 1 := by
    calc unitsToRead c left * c.motrUnitSize
        ≤ (left + c.motrUnitSize - 1) / c.motrUnitSize * c.motrUnitSize :=
          Nat.mul_le_mul_right _ (Nat.min_le_right _ _)
      _ ≤ left + c.motrUnitSize - 1 := Nat.div_mul_le_self _ _
  have h2 : buffersFor c (unitsToRead c left) * c.sizeOfEvBuffer ≤
      unitsToRead c left * c.motrUnitSize + (c.sizeOfEvBuffer - 1) := Nat.div_mul_le_self _ _
  omega

theorem Data.append {t : State α} (hs : Data c s) (hunit : 0 < c.motrUnitSize)
    (hev : 0 < c.sizeOfEvBuffer) (hleft : 0 < s.bytesLeftToRead)
    (hblocks : t.blocks = s.blocks ++ nextBlocks c s.blocks.length s.bytesLeftToRead)
    (hbytes : t.bytesLeftToRead = s.bytesLeftToRead -
      (nextBlocks c s.blocks.length s.bytesLeftToRead).length * c.sizeOfEvBuffer) : Data c t := by
  have hlen : (nextBlocks c s.blocks.length s.bytesLeftToRead).length =
      buffersFor c (unitsToRead c s.bytesLeftToRead) := by simp [nextBlocks]
  have hl := hs.left
  have hlt := buffersFor_mul_lt hunit hev hleft
  refine ⟨?_, ?_, ?_⟩
  · rw [hblocks, length_append, hlen, range_add, map_append, map_map,
      ← hs.blocks]
    rfl
  · rw [hbytes, hblocks, length_append, hlen, Nat.add_mul]
    omega
  · rw [hblocks, length_append, hlen, Nat.add_mul]
    omega

/-! ### Failing -/

@[simp] theorem assert_true (s : State α) : assert true s = s := rfl

theorem inv_fail (hbase : Base s) (hstarted : s.copyStarted = true)
    (hnot : s.successes = 0 ∧ s.failures = 0) (hfailed : s.copyFailed = true)
    (hevbuffer : s.writing = true → s.evbufferWrite = true) (wait : Bool) (hwait : wait = s.busy) :
    Inv c (if wait then s else onFailure s) := by
  obtain ⟨h1, h2⟩ := hnot
  split
  · next h =>
      refine ⟨hbase, Or.inr (Or.inr (Or.inl ⟨hstarted, ⟨h1, h2⟩, hfailed, ?_, hevbuffer⟩))⟩
      rw [hwait, State.busy, Bool.or_eq_true] at h
      exact h
  · next h =>
      rw [hwait, Bool.not_eq_true] at h
      have hidle := h
      rw [State.busy, Bool.or_eq_false_iff, Option.isSome_eq_false_iff, Option.isNone_iff_eq_none]
        at hidle
      refine ⟨⟨hbase.asserts, ?_, hbase.readReports, hbase.writeReports, hbase.reading,
        hbase.writing⟩, Or.inr (Or.inr (Or.inr ⟨hstarted, hidle.1, hidle.2, ?_, ?_⟩))⟩
      · rw [onFailure, hbase.notBusy, h]
        rfl
      · simp only [onFailure]
        omega
      · intro hs
        simp only [onFailure] at hs
        omega

/-! ### Reading on -/

/-- The asserts of `read_data_block`. -/
structure MayRead (s : State α) : Prop where
  idle : s.readInProgress = false
  waiting : s.dataBlocksRead = []
  evbuffer : s.evbufferRead = false
  left : 0 < s.bytesLeftToRead

theorem readDataBlock_launched (h : MayRead s) :
    readDataBlock c .launched s =
      { s with
        reading := some (nextBlocks c s.lastIndex s.bytesLeftToRead)
        lastIndex := s.lastIndex + buffersFor c (unitsToRead c s.bytesLeftToRead)
        readInProgress := true } := by
  simp [readDataBlock, readObjectData, nextBlocks, h.idle, h.waiting, h.evbuffer, h.left]

theorem readDataBlock_outOfMemory (h : MayRead s) :
    readDataBlock c .outOfMemory s =
      if s.writeInProgress then { s with copyFailed := true, s3Error := some .InternalError }
      else onFailure { s with copyFailed := true, s3Error := some .InternalError } := by
  simp [readDataBlock, readObjectData, h.idle, h.waiting, h.evbuffer, h.left]

variable {rl : ReadLaunch}

theorem Live.inv_readDataBlock (hs : Live c s) (hread : s.reading = none)
    (hwait : s.dataBlocksRead = []) (hleft : 0 < s.bytesLeftToRead) (hrl : rl ≠ .failedToLaunch) :
    Inv c (readDataBlock c rl s) := by
  have hmay : MayRead s :=
    ⟨by rw [hs.base.reading, hread]; rfl, hwait, hs.noEvbufferRead hwait, hleft⟩
  cases rl with
  | launched =>
    have hlast := hs.lastIndex
    rw [hread] at hlast
    simp only [Option.map_none, Option.getD_none, Nat.add_zero] at hlast
    rw [readDataBlock_launched hmay, hlast]
    have hbase : Base { s with
        reading := some (nextBlocks c s.blocks.length s.bytesLeftToRead)
        lastIndex := s.blocks.length + buffersFor c (unitsToRead c s.bytesLeftToRead)
        readInProgress := true } :=
      ⟨hs.base.asserts, hs.base.notBusy, hs.base.readReports, hs.base.writeReports, rfl,
        hs.base.writing⟩
    refine ⟨hbase, Or.inr (Or.inl ⟨?_, Or.inl rfl, fun h => absurd hwait h, by simp⟩)⟩
    refine ⟨hbase, hs.copyStarted, hs.notReported, hs.notFailed,
      ⟨hs.data.blocks, hs.data.left, hs.data.bound⟩, ?_, ?_, hs.evbufferWrite,
      fun h => absurd hwait h, hs.noEvbufferRead⟩
    · simp [nextBlocks, State.blocks]
    · intro bs hbs
      rw [← Option.some.inj hbs]
      exact ⟨hleft, rfl⟩
  | failedToLaunch => exact absurd rfl hrl
  | outOfMemory =>
    rw [readDataBlock_outOfMemory hmay]
    refine inv_fail (s := { s with copyFailed := true, s3Error := some .InternalError }) ?_
      hs.copyStarted hs.notReported rfl ?_ s.writeInProgress ?_
    · exact ⟨hs.base.asserts, hs.base.notBusy, hs.base.readReports, hs.base.writeReports,
        hs.base.reading, hs.base.writing⟩
    · intro h
      exact hs.evbufferWrite.trans h
    · simp [State.busy, hread, hs.base.writing]

theorem Live.inv_readOn (hs : Live c s) (hwait : s.dataBlocksRead = []) (hrl : rl ≠ .failedToLaunch) :
    Inv c (readOn c rl s) := by
  have heq : readOn c rl s =
      if s.bytesLeftToRead ≠ 0 then if s.readInProgress then s else readDataBlock c rl s
      else if s.writeInProgress then s else onSuccess s := by
    simp [readOn, hs.notFailed, hwait]
  rw [heq]
  split
  · next hleft =>
      split
      · next hread =>
          rw [hs.base.reading] at hread
          refine ⟨hs.base, Or.inr (Or.inl ⟨hs, Or.inl hread, fun h => absurd hwait h, ?_⟩)⟩
          intro h
          rw [h] at hread
          cases hread
      · next hread =>
          rw [hs.base.reading, Bool.not_eq_true, Option.isSome_eq_false_iff,
            Option.isNone_iff_eq_none] at hread
          exact hs.inv_readDataBlock hread hwait (Nat.pos_of_ne_zero hleft) hrl
  · next hleft =>
      have hzero : s.bytesLeftToRead = 0 := not_not.mp hleft
      have hread : s.reading = none := by
        cases hr : s.reading with
        | none => rfl
        | some bs =>
          have := (hs.reading bs hr).1
          omega
      split
      · next hwrite =>
          rw [hs.base.writing] at hwrite
          exact ⟨hs.base, Or.inr (Or.inl ⟨hs, Or.inr hwrite, fun h => absurd hwait h,
            fun _ => Or.inl hzero⟩)⟩
      · next hwrite =>
          rw [hs.base.writing, Bool.not_eq_true] at hwrite
          obtain ⟨h1, h2⟩ := hs.notReported
          refine ⟨⟨hs.base.asserts, ?_, hs.base.readReports, hs.base.writeReports, hs.base.reading,
            hs.base.writing⟩, Or.inr (Or.inr (Or.inr ⟨hs.copyStarted, hread, hwrite, ?_, ?_⟩))⟩
          · simp [onSuccess, hs.base.notBusy, State.busy, hread, hwrite]
          · simp only [onSuccess]
            omega
          · exact fun _ => ⟨⟨hs.data.blocks, hs.data.left, hs.data.bound⟩, hzero, hwait⟩

/-! ### Writing -/

theorem writeDataBlock_launched (hidle : s.writeInProgress = false) (hwait : s.dataBlocksRead ≠ [])
    (hread : s.evbufferRead = true) (hwrite : s.evbufferWrite = false) :
    writeDataBlock .launched s =
      { s with
        evbufferWrite := true
        evbufferRead := false
        written := s.written ++ s.dataBlocksRead
        dataBlocksRead := []
        writing := true
        writeInProgress := true } := by
  have hne : s.dataBlocksRead.isEmpty = false := by simpa using hwait
  simp [writeDataBlock, hidle, hne, hread, hwrite]

theorem live_writeDataBlock (hs : Live c s) (hidle : s.writing = false)
    (hwait : s.dataBlocksRead ≠ []) :
    Live c (writeDataBlock .launched s) ∧ (writeDataBlock .launched s).dataBlocksRead = [] ∧
      (writeDataBlock .launched s).writing = true ∧
      (writeDataBlock .launched s).reading = none := by
  obtain ⟨hev, hread⟩ := hs.waiting hwait
  rw [writeDataBlock_launched (hs.base.writing.trans hidle) hwait hev
    (hs.evbufferWrite.trans hidle)]
  have hblocks : State.blocks { s with
      evbufferWrite := true
      evbufferRead := false
      written := s.written ++ s.dataBlocksRead
      dataBlocksRead := []
      writing := true
      writeInProgress := true } = s.blocks := by simp [State.blocks]
  refine ⟨⟨?_, hs.copyStarted, hs.notReported, hs.notFailed, ?_, ?_, ?_, rfl, ?_, ?_⟩, rfl, rfl,
    hread⟩
  · exact ⟨hs.base.asserts, hs.base.notBusy, hs.base.readReports, hs.base.writeReports,
      hs.base.reading, rfl⟩
  · refine ⟨?_, ?_, ?_⟩
    · rw [hblocks]
      exact hs.data.blocks
    · rw [hblocks]
      exact hs.data.left
    · rw [hblocks]
      exact hs.data.bound
  · rw [hblocks]
    exact hs.lastIndex
  · rw [hblocks]
    exact hs.reading
  · intro h
    exact absurd rfl h
  · intro _
    rfl

/-! ### The callbacks -/

/-- A read that succeeds, up to where what it returned waits. -/
def received (c : Config α) (blocks : List α) (s : State α) : State α :=
  { s with
    readInProgress := false
    dataBlocksRead := blocks
    evbufferRead := true
    bytesLeftToRead := s.bytesLeftToRead - blocks.length * c.sizeOfEvBuffer }

theorem readDataBlockSuccess_eq {bs : List α} {wl : WriteLaunch} (hread : s.readInProgress = true)
    (hok : s.copyFailed = false) (hwait : s.dataBlocksRead = []) (hev : s.evbufferRead = false)
    (hne : bs ≠ []) :
    readDataBlockSuccess c bs rl wl s =
      let t := received c bs s
      if s.writeInProgress then t
      else
        let t := writeDataBlock wl t
        if t.writeInProgress && t.bytesLeftToRead ≠ 0 then
          let t := assert t.dataBlocksRead.isEmpty t
          let t := assert (!t.evbufferRead) t
          readDataBlock c rl t
        else t := by
  have hemp : bs.isEmpty = false := by simpa using hne
  simp only [readDataBlockSuccess, received, hread, hok, hwait, hev, hemp, assert_true,
    isEmpty_nil, Bool.not_false, Bool.false_eq_true, if_false]

section Callbacks

variable (hunit : 0 < c.motrUnitSize) (hper : 0 < c.motrUnitsPerRequest)
  (hev : 0 < c.sizeOfEvBuffer)

variable {s : State α}

include hunit hev in
theorem Live.received (hs : Live c s) {bs : List α} (hread : s.reading = some bs) (hne : bs ≠ []) :
    Live c (received c bs { s with reading := none, isObjectOpened := true }) := by
  obtain ⟨hleft, hbs⟩ := hs.reading bs hread
  have hwait : s.dataBlocksRead = [] := by
    by_contra h
    have := (hs.waiting h).2
    rw [hread] at this
    cases this
  have hsblocks : s.blocks = s.written := by rw [State.blocks, hwait, append_nil]
  have hblocks : (S3ObjectDataCopier.received c bs
      { s with reading := none, isObjectOpened := true }).blocks = s.blocks ++ bs := by
    rw [hsblocks]
    rfl
  refine ⟨?_, hs.copyStarted, hs.notReported, hs.notFailed, ?_, ?_, ?_, hs.evbufferWrite, ?_, ?_⟩
  · exact ⟨hs.base.asserts, hs.base.notBusy, hs.base.readReports, hs.base.writeReports, rfl,
      hs.base.writing⟩
  · refine hs.data.append hunit hev hleft ?_ ?_
    · rw [hblocks, ← hbs]
    · rw [← hbs]
      rfl
  · have hlast := hs.lastIndex
    rw [hread] at hlast
    rw [hblocks, length_append]
    exact hlast
  · intro bs' h
    cases h
  · exact fun _ => ⟨rfl, rfl⟩
  · exact fun h => absurd h hne

include hunit hper hev in
theorem Working.inv_readSuccess (hs : Working c s) {bs : List α} (hread : s.reading = some bs)
    {rl : ReadLaunch} {wl : WriteLaunch} (hrl : rl ≠ .failedToLaunch) (hwl : wl ≠ .failedToLaunch) :
    Inv c (readDataBlockSuccess c bs rl wl { s with reading := none, isObjectOpened := true }) := by
  have hl := hs.live
  obtain ⟨hleft, hbs⟩ := hl.reading bs hread
  have hne : bs ≠ [] := by
    rw [hbs]
    exact nextBlocks_ne_nil hunit hper hev _ hleft
  have hwait : s.dataBlocksRead = [] := by
    by_contra h
    have := (hl.waiting h).2
    rw [hread] at this
    cases this
  have hlive := hl.received hunit hev hread hne
  have hinProgress : s.readInProgress = true := by rw [hl.base.reading, hread]; rfl
  rw [readDataBlockSuccess_eq (s := { s with reading := none, isObjectOpened := true })
    hinProgress hl.notFailed hwait (hl.noEvbufferRead hwait) hne]
  simp only
  split
  · next hw =>
      rw [hl.base.writing] at hw
      exact ⟨hlive.base, Or.inr (Or.inl ⟨hlive, Or.inr hw, fun _ => hw, fun _ => Or.inr hne⟩)⟩
  · next hw =>
      rw [hl.base.writing, Bool.not_eq_true] at hw
      cases wl with
      | failedToLaunch => exact absurd rfl hwl
      | launched =>
        obtain ⟨hu, hempty, hwriting, hnone⟩ := live_writeDataBlock hlive hw hne
        set u := writeDataBlock .launched
          (S3ObjectDataCopier.received c bs { s with reading := none, isObjectOpened := true })
        split
        · next hmore =>
            rw [hempty, isEmpty_nil, assert_true, hu.noEvbufferRead hempty, Bool.not_false,
              assert_true]
            simp only [Bool.and_eq_true, decide_eq_true_eq] at hmore
            exact hu.inv_readDataBlock hnone hempty (Nat.pos_of_ne_zero hmore.2) hrl
        · next hmore =>
            simp only [Bool.and_eq_true, decide_eq_true_eq, hu.base.writing, hwriting, true_and,
              not_not] at hmore
            exact ⟨hu.base, Or.inr (Or.inl ⟨hu, Or.inr hwriting, fun h => absurd hempty h,
              fun _ => Or.inl hmore⟩)⟩

theorem Working.inv_writeSuccess (hs : Working c s) (hwrite : s.writing = true) {rl : ReadLaunch}
    {wl : WriteLaunch} (hrl : rl ≠ .failedToLaunch) (hwl : wl ≠ .failedToLaunch) :
    Inv c (writeDataBlockSuccess c rl wl { s with writing := false }) := by
  have hl := hs.live
  have hlive : Live c { s with
      writing := false, evbufferWrite := false, writeInProgress := false } :=
    ⟨⟨hl.base.asserts, hl.base.notBusy, hl.base.readReports, hl.base.writeReports, hl.base.reading,
      rfl⟩, hl.copyStarted, hl.notReported, hl.notFailed,
      ⟨hl.data.blocks, hl.data.left, hl.data.bound⟩, hl.lastIndex, hl.reading, rfl, hl.waiting,
      hl.noEvbufferRead⟩
  have heq : writeDataBlockSuccess c rl wl { s with writing := false } =
      let t := { s with writing := false, evbufferWrite := false, writeInProgress := false }
      if s.dataBlocksRead.isEmpty then readOn c rl t
      else if (writeDataBlock wl t).copyFailed then writeDataBlock wl t
      else readOn c rl (writeDataBlock wl t) := by
    simp only [writeDataBlockSuccess, hl.evbufferWrite, hwrite, hl.base.writing, assert_true,
      hl.notFailed, Bool.false_eq_true, if_false]
  rw [heq]
  simp only
  split
  · next hempty => exact hlive.inv_readOn (isEmpty_iff.mp hempty) hrl
  · next hwait =>
      cases wl with
      | failedToLaunch => exact absurd rfl hwl
      | launched =>
        obtain ⟨hu, hempty, -, -⟩ := live_writeDataBlock hlive rfl (by simpa using hwait)
        rw [if_neg (by rw [hu.notFailed]; simp)]
        exact hu.inv_readOn hempty hrl

end Callbacks

theorem running_cases (hs : Inv c s) (hbusy : s.reading.isSome = true ∨ s.writing = true) :
    s.copyStarted = true ∧ (s.successes = 0 ∧ s.failures = 0) ∧
      (s.writing = true → s.evbufferWrite = true) ∧
      (Working c s ∨ s.copyFailed = true) := by
  rcases hs.stage with h | h | h | h
  · rw [h.reading, h.writing] at hbusy
    simp at hbusy
  · exact ⟨h.live.copyStarted, h.live.notReported, fun hw => h.live.evbufferWrite.trans hw,
      Or.inl h⟩
  · exact ⟨h.copyStarted, h.notReported, h.evbufferWrite, Or.inr h.failed⟩
  · rw [h.reading, h.writing] at hbusy
    simp at hbusy

theorem inv_report {t : State α} (hs : Inv c s) (hbusy : s.reading.isSome = true ∨ s.writing = true)
    (hfailed : t.copyFailed = true) (hbase : Base t) (hidle : t.busy = false)
    (hstarted : t.copyStarted = s.copyStarted) (hsuccesses : t.successes = s.successes)
    (hfailures : t.failures = s.failures) : Inv c (onFailure t) := by
  obtain ⟨h1, h2, -, -⟩ := running_cases hs hbusy
  have hno : t.writing = false := by
    rw [State.busy, Bool.or_eq_false_iff] at hidle
    exact hidle.2
  refine inv_fail hbase (hstarted.trans h1) ⟨hsuccesses.trans h2.1, hfailures.trans h2.2⟩ hfailed ?_
    false hidle.symm
  intro h
  rw [hno] at h
  cases h

/-! ### The run -/

theorem inv_start : Inv c (start : State α) :=
  ⟨⟨rfl, rfl, rfl, rfl, rfl, rfl⟩, Or.inl ⟨rfl, rfl, rfl, rfl, rfl, rfl, rfl, rfl, rfl, rfl⟩⟩

theorem Fresh.inv_copy (hbase : Base s) (hs : Fresh s) (hsize : 0 < c.objectSize)
    (hunit : 0 < c.motrUnitSize) (hrl : rl ≠ .failedToLaunch) : Inv c (copy c rl s) := by
  have hblocks : s.blocks = [] := by rw [State.blocks, hs.written, hs.waiting, append_nil]
  refine Live.inv_readDataBlock (s := { s with
      copyStarted := true
      bytesLeftToRead := c.objectSize
      copyFailed := false
      readInProgress := false
      writeInProgress := false }) ?_ hs.reading hs.waiting hsize hrl
  refine ⟨?_, rfl, hs.notReported, rfl, ⟨?_, ?_, ?_⟩, ?_, ?_, ?_, fun h => absurd hs.waiting h,
    fun _ => hs.evbufferRead⟩
  · refine ⟨hbase.asserts, hbase.notBusy, hbase.readReports, hbase.writeReports, ?_, hs.writing.symm⟩
    rw [hs.reading]
    rfl
  · change s.blocks = (List.range s.blocks.length).map c.source
    rw [hblocks]
    rfl
  · change c.objectSize = c.objectSize - s.blocks.length * c.sizeOfEvBuffer
    rw [hblocks, length_nil, Nat.zero_mul, Nat.sub_zero]
  · change s.blocks.length * c.sizeOfEvBuffer < c.objectSize + c.motrUnitSize + c.sizeOfEvBuffer
    rw [hblocks, length_nil, Nat.zero_mul]
    omega
  · change s.lastIndex = s.blocks.length + (s.reading.map List.length).getD 0
    rw [hblocks, hs.lastIndex, hs.reading]
    rfl
  · intro bs h
    rw [hs.reading] at h
    cases h
  · exact hs.evbufferWrite.trans hs.writing.symm

theorem inv_step (hsize : 0 < c.objectSize) (hunit : 0 < c.motrUnitSize)
    (hper : 0 < c.motrUnitsPerRequest) (hev : 0 < c.sizeOfEvBuffer) {s' : State α} (hs : Inv c s)
    (e : Event) (hok : Steady s e) (h : step c s e = some s') : Inv c s' := by
  have hb := hs.base
  cases e with
  | copy rl =>
    rw [step] at h
    split at h
    · cases h
    · next hnew =>
        rw [← Option.some.inj h]
        rcases hs.stage with hf | hw | hg | he
        · exact hf.inv_copy hb hsize hunit hok
        · exact absurd hw.live.copyStarted hnew
        · exact absurd hg.copyStarted hnew
        · exact absurd he.copyStarted hnew
  | readSuccess rl wl =>
    obtain ⟨bs, hread, rfl⟩ := Option.map_eq_some_iff.mp h
    have hbusy : s.reading.isSome = true ∨ s.writing = true := Or.inl (by rw [hread]; rfl)
    obtain ⟨hrl, hwl, hother⟩ := hok
    by_cases hfailed : s.copyFailed = true
    · have hw : s.writing = false := by simpa [hfailed] using hother
      have heq : readDataBlockSuccess c bs rl wl
          { s with reading := none, isObjectOpened := true } =
          onFailure { s with reading := none, isObjectOpened := true, readInProgress := false } := by
        have hinProgress : s.readInProgress = true := by rw [hb.reading, hread]; rfl
        simp only [readDataBlockSuccess, hinProgress, assert_true, hfailed, if_true, hb.writing,
          hw, Bool.not_false]
      rw [heq]
      exact inv_report hs hbusy hfailed
        ⟨hb.asserts, hb.notBusy, hb.readReports, hb.writeReports, rfl, hb.writing⟩
        (by simp [State.busy, hw]) rfl rfl rfl
    · obtain ⟨-, -, -, hw | hf⟩ := running_cases hs hbusy
      · exact hw.inv_readSuccess hunit hper hev hread hrl hwl
      · exact absurd hf hfailed
  | readFailed =>
    rw [step] at h
    split at h
    · next hread =>
        rw [← Option.some.inj h]
        obtain ⟨h1, h2, h3, -⟩ := running_cases hs (Or.inl hread)
        have hinProgress : s.readInProgress = true := hb.reading.trans hread
        simp only [readDataBlockFailed, hinProgress, assert_true]
        exact inv_fail (s := { s with
            reading := none
            readInProgress := false
            copyFailed := true
            s3Error := some .InternalError })
          ⟨hb.asserts, hb.notBusy, hb.readReports, hb.writeReports, rfl, hb.writing⟩ h1 h2 rfl h3
          s.writeInProgress (by simp [State.busy, hb.writing])
    · cases h
  | readReport code =>
    rw [step, if_neg (by simp [hb.readReports])] at h
    cases h
  | writeSuccess rl wl =>
    rw [step] at h
    split at h
    · next hwrite =>
        rw [← Option.some.inj h]
        obtain ⟨hrl, hwl, hother⟩ := hok
        obtain ⟨-, -, h3, hcase⟩ := running_cases hs (Or.inr hwrite)
        by_cases hfailed : s.copyFailed = true
        · have hr : s.reading.isSome = false := by simpa [hfailed] using hother
          have heq : writeDataBlockSuccess c rl wl { s with writing := false } =
              onFailure { s with
                writing := false, evbufferWrite := false, writeInProgress := false } := by
            simp only [writeDataBlockSuccess, h3 hwrite, hb.writing, hwrite, assert_true, hfailed,
              if_true, hb.reading, hr, Bool.not_false]
          rw [heq]
          exact inv_report hs (Or.inr hwrite) hfailed
            ⟨hb.asserts, hb.notBusy, hb.readReports, hb.writeReports, hb.reading, rfl⟩
            (by simpa [State.busy] using hr) rfl rfl rfl
        · rcases hcase with hw | hf
          · exact hw.inv_writeSuccess hwrite hrl hwl
          · exact absurd hf hfailed
    · cases h
  | writeFailed =>
    rw [step] at h
    split at h
    · next hwrite =>
        rw [← Option.some.inj h]
        obtain ⟨h1, h2, -, -⟩ := running_cases hs (Or.inr hwrite)
        have hinProgress : s.writeInProgress = true := hb.writing.trans hwrite
        simp only [writeDataBlockFailed, hinProgress, assert_true]
        exact inv_fail (s := { s with
            writing := false
            writeInProgress := false
            copyFailed := true
            s3Error := some .InternalError })
          ⟨hb.asserts, hb.notBusy, hb.readReports, hb.writeReports, hb.reading, rfl⟩ h1 h2 rfl
          (fun hf => nomatch hf) s.readInProgress (by simp [State.busy, hb.reading])
    · cases h
  | writeReport code =>
    rw [step, if_neg (by simp [hb.writeReports])] at h
    cases h
  | setS3CopyFailed =>
    rw [step, Option.some.injEq] at h
    rw [← h]
    refine ⟨⟨hb.asserts, hb.notBusy, hb.readReports, hb.writeReports, hb.reading, hb.writing⟩, ?_⟩
    rcases hs.stage with hf | hw | hg | he
    · exact Or.inl ⟨hf.copyStarted, hf.reading, hf.writing, hf.waiting, hf.written,
        hf.evbufferRead, hf.evbufferWrite, hf.lastIndex, hf.notReported⟩
    · exact Or.inr (Or.inr (Or.inl ⟨hw.live.copyStarted, hw.live.notReported, rfl, hw.busy,
        fun hwr => hw.live.evbufferWrite.trans hwr⟩))
    · exact Or.inr (Or.inr (Or.inl ⟨hg.copyStarted, hg.notReported, rfl, hg.busy,
        hg.evbufferWrite⟩))
    · refine Or.inr (Or.inr (Or.inr ⟨he.copyStarted, he.reading, he.writing, he.reported, ?_⟩))
      intro hsucc
      obtain ⟨hd, hleft, hwait⟩ := he.copied hsucc
      exact ⟨⟨hd.blocks, hd.left, hd.bound⟩, hleft, hwait⟩

/-- **The copier copies everything and reports once, as long as its steps are steady.** -/
theorem copier_exact (c : Config α) (hsize : 0 < c.objectSize) (hunit : 0 < c.motrUnitSize)
    (hper : 0 < c.motrUnitsPerRequest) (hev : 0 < c.sizeOfEvBuffer) {s : State α}
    (h : Runs.Reachable (step c) Steady (start : State α) s) : Exact c s := by
  have hs : Inv c s := h.invariant inv_start fun _ e _ hi hok hstep =>
    inv_step hsize hunit hper hev hi e hok hstep
  exact hs.exact

/-- Five bytes in buffers of two, read a unit of two buffers at a time. -/
def fiveBytes : Config Nat :=
  { sizeOfEvBuffer := 2, motrUnitSize := 4, motrUnitsPerRequest := 1, objectSize := 5, source := id }

/-- The second read ends before the first write. -/
theorem copier_exact_fiveBytes :
    ∃ s, s.successes = 1 ∧ s.written = [0, 1, 2, 3] ∧ Exact fiveBytes s := by
  have h₀ : Runs.Reachable (step fiveBytes) Steady start start := .start
  have h₁ := h₀.step (.copy .launched) (by simp [Steady]) rfl
  have h₂ := h₁.step (.readSuccess .launched .launched) ⟨by decide, by decide, by decide⟩ rfl
  have h₃ := h₂.step (.readSuccess .launched .launched) ⟨by decide, by decide, by decide⟩ rfl
  have h₄ := h₃.step (.writeSuccess .launched .launched) ⟨by decide, by decide, by decide⟩ rfl
  have h₅ := h₄.step (.writeSuccess .launched .launched) ⟨by decide, by decide, by decide⟩ rfl
  exact ⟨_, rfl, rfl, copier_exact fiveBytes (by decide) (by decide) (by decide) (by decide) h₅⟩

/-- A sibling fails while the copier reads and writes; the read succeeds, and the copier reports with the
write under way. -/
theorem not_exact_toldToGiveUp :
    ¬ ∀ (c : Config Nat), 0 < c.objectSize → 0 < c.motrUnitSize → 0 < c.motrUnitsPerRequest →
      0 < c.sizeOfEvBuffer → ∀ s, Runs.Reachable (step c) (fun _ _ => True) start s →
        Exact c s := by
  intro h
  have h₀ : Runs.Reachable (step fiveBytes) (fun _ _ => True) start start := .start
  have hrun := Runs.reachable_of_run
    [.copy .launched, .readSuccess .launched .launched, .setS3CopyFailed,
      .readSuccess .launched .launched] h₀ (by simp [Runs.AllOk]) rfl
  have hassert := (h fiveBytes (by decide) (by decide) (by decide) (by decide) _ hrun).asserts
  revert hassert
  decide

end S3ObjectDataCopier

end CortxS3
