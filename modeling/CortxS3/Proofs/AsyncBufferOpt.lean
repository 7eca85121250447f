/-
The buffers of a body come out as they went in.

What is asked for is turned into a number of buffers by a division.  Once everything is there the
number is rounded up; before that it is rounded down, so that a size that is no multiple of the
buffer size brings less than was asked for, be there as much as there may.  Nothing is lost: the
bytes that were not handed out stay in the queue (`Fifo`).

The invariant is `Stacked`: only the last buffer may be short, and none is while more is expected.
-/
import CortxS3.Server.AsyncBufferOpt

namespace CortxS3

open List

/-! ### Full buffers -/

/-- All buffers but the last have the size, and the last has no more. -/
def AllButLastFull (size : Nat) : List EvBuffer → Prop
  | [] => True
  | [buf] => buf.length ≤ size
  | buf :: next :: rest => buf.length = size ∧ AllButLastFull size (next :: rest)

variable {size : Nat}

variable {buf : EvBuffer} {rest : List EvBuffer}

theorem AllButLastFull.tail (h : AllButLastFull size (buf :: rest)) : AllButLastFull size rest := by
  cases rest with
  | nil => trivial
  | cons next rest => exact h.2

theorem AllButLastFull.head_le (h : AllButLastFull size (buf :: rest)) : buf.length ≤ size := by
  cases rest with
  | nil => exact h
  | cons next rest => exact h.1.le

variable {bufs : List EvBuffer}

theorem AllButLastFull.drop (h : AllButLastFull size bufs) (k : Nat) :
    AllButLastFull size (bufs.drop k) := by
  induction k generalizing bufs with
  | zero => exact h
  | succ k ih =>
    cases bufs with
    | nil => trivial
    | cons buf rest => exact ih h.tail

theorem allButLastFull_append (hbuf : buf.length ≤ size) :
    ∀ bufs : List EvBuffer, (∀ b ∈ bufs, b.length = size) →
      AllButLastFull size (bufs ++ [buf]) := by
  intro bufs
  induction bufs with
  | nil => exact fun _ => hbuf
  | cons b rest ih =>
    intro hall
    have hrest := ih fun b' hb' => hall b' (mem_cons_of_mem _ hb')
    cases rest with
    | nil | cons next rest => exact ⟨hall b mem_cons_self, hrest⟩

theorem bytesIn_le (bufs : List EvBuffer) (h : AllButLastFull size bufs) :
    bytesIn bufs ≤ bufs.length * size := by
  induction bufs with
  | nil => exact Nat.zero_le _
  | cons buf rest ih =>
    have hhead := h.head_le
    have hrest := ih h.tail
    have hbytes : bytesIn (buf :: rest) = buf.length + bytesIn rest := rfl
    rw [hbytes, length_cons, Nat.succ_mul]
    omega

theorem bytesIn_take (bufs : List EvBuffer) (h : AllButLastFull size bufs) :
    ∀ k, k < bufs.length → bytesIn (bufs.take k) = k * size := by
  induction bufs with
  | nil => exact fun k hk => absurd hk (Nat.not_lt_zero k)
  | cons buf rest ih =>
    intro k hk
    cases k with
    | zero =>
      rw [Nat.zero_mul]
      rfl
    | succ k =>
      rw [length_cons] at hk
      have hbytes : bytesIn ((buf :: rest).take (k + 1)) = buf.length + bytesIn (rest.take k) := rfl
      cases rest with
      | nil => exact absurd hk (by simp)
      | cons next rest =>
        rw [hbytes, ih h.2 k (by omega), h.1, Nat.succ_mul, Nat.add_comm]

/-- The buffers that reach over the first `n` bytes are there, and they hold as much. -/
theorem le_bytesIn_take (h : AllButLastFull size bufs) {n k : Nat} (hn : n ≤ bytesIn bufs)
    (hk : n ≤ k * size) : n ≤ bytesIn (bufs.take k) := by
  by_cases hlt : k < bufs.length
  · rw [bytesIn_take bufs h k hlt]
    exact hk
  · rw [take_of_length_le (Nat.le_of_not_lt hlt)]
    exact hn

namespace S3AsyncBufferOptContainer

variable {c : S3AsyncBufferOptContainer}

/-- What is still queued. -/
def queued (c : S3AsyncBufferOptContainer) : Bytes := c.readyQ.flatMap EvBuffer.content

theorem flatten_flatMap_extents (bufs : List EvBuffer) :
    (bufs.flatMap EvBuffer.extents).flatten = bufs.flatMap EvBuffer.content := by
  induction bufs with
  | nil => rfl
  | cons buf rest ih =>
    rw [flatMap_cons, flatMap_cons, flatten_append, ih]
    rfl

/-- Only the last buffer is short, and none while more is expected; the length is that of the
buffers. -/
structure Stacked (size : Nat) (c : S3AsyncBufferOptContainer) : Prop where
  full : AllButLastFull size c.readyQ
  fullBefore : c.isExpectingMore = true → ∀ buf ∈ c.readyQ, buf.length = size
  length : c.contentLength = bytesIn c.readyQ

/-! ### What each operation keeps -/

theorem Stacked.freeze (h : c.Stacked size) : c.freeze.Stacked size :=
  ⟨h.full, fun hmore => Bool.noConfusion hmore, h.length⟩

theorem Stacked.flushUsedBuffers (h : c.Stacked size) : c.flushUsedBuffers.Stacked size :=
  ⟨h.full, h.fullBefore, h.length⟩

theorem bytesIn_append (bufs : List EvBuffer) (buf : EvBuffer) :
    bytesIn (bufs ++ [buf]) = bytesIn bufs + buf.length := by
  simp [bytesIn]

variable {buf : EvBuffer}

theorem Stacked.pushReady (hfull : ∀ b ∈ c.readyQ, b.length = size)
    (hlength : c.contentLength = bytesIn c.readyQ) (hbuf : buf.length ≤ size)
    (hmore : c.isExpectingMore = true → buf.length = size) : (c.pushReady buf).Stacked size := by
  refine ⟨allButLastFull_append hbuf c.readyQ hfull, fun hm b hb => ?_, ?_⟩
  · rcases mem_append.mp hb with hb | hb
    · exact hfull b hb
    · rw [mem_singleton.mp hb]
      exact hmore hm
  · show c.contentLength + buf.length = bytesIn (c.readyQ ++ [buf])
    rw [bytesIn_append, hlength]

/-- What is taken is appended to the queue. -/
theorem addContent_spec (h : c.Stacked size)
    {isFirstBuf isLastBuf isPutRequest : Bool} (hmore : c.isExpectingMore = true)
    (hbuf : if isLastBuf then buf.length ≤ size
      else buf.length = size ∨ isPutRequest = true ∨ isFirstBuf = false) :
    ((c.addContent size buf isFirstBuf isLastBuf isPutRequest).2).Stacked size ∧
      (c.addContent size buf isFirstBuf isLastBuf isPutRequest).2.queued =
        c.queued ++ if (c.addContent size buf isFirstBuf isLastBuf isPutRequest).1 then buf.content
          else [] := by
  have hfull := h.fullBefore hmore
  have hqueued : c.queued ++ buf.content = (c.readyQ ++ [buf]).flatMap EvBuffer.content := by
    rw [flatMap_append, flatMap_singleton]
    rfl
  unfold addContent
  cases isLastBuf with
  | true =>
    rw [if_pos rfl] at hbuf
    simp only [if_true]
    exact ⟨.pushReady hfull h.length hbuf fun hm => Bool.noConfusion hm, hqueued.symm⟩
  | false =>
    simp only [Bool.false_eq_true, if_false] at hbuf ⊢
    split
    · exact ⟨h, (append_nil _).symm⟩
    · rename_i hfits
      have hlength : buf.length = size := by
        by_contra hne
        rcases hbuf with heq | hput | hfirst
        · exact hne heq
        · exact hfits ⟨Ne.symm hne, Or.inl hput⟩
        · refine hfits ⟨Ne.symm hne, ?_⟩
          cases isPutRequest with
          | true => exact Or.inl rfl
          | false => exact Or.inr ⟨rfl, by rw [hfirst]; rfl⟩
      exact ⟨.pushReady hfull h.length hlength.le fun _ => hlength, hqueued.symm⟩

theorem handOut_eq :
    ∀ (count : Nat) (c : S3AsyncBufferOptContainer) (bufferSequence : List Bytes),
      count ≤ c.readyQ.length →
        handOut count c bufferSequence =
          some (bufferSequence ++ (c.readyQ.take count).flatMap EvBuffer.extents, { c with
            readyQ := c.readyQ.drop count
            processingQ := c.processingQ ++ c.readyQ.take count
            contentLength := c.contentLength - bytesIn (c.readyQ.take count) }) := by
  intro count
  induction count with
  | zero =>
    intro c bufferSequence _
    simp [handOut, bytesIn]
  | succ count ih =>
    intro c bufferSequence hle
    cases hready : c.readyQ with
    | nil =>
      rw [hready] at hle
      exact absurd hle (Nat.not_succ_le_zero count)
    | cons buf rest =>
      rw [hready, length_cons] at hle
      have hbytes : bytesIn ((buf :: rest).take (count + 1)) =
          buf.length + bytesIn (rest.take count) := rfl
      rw [handOut, hready]
      simp only
      rw [ih { c with
        readyQ := rest
        processingQ := c.processingQ ++ [buf]
        contentLength := c.contentLength - buf.length } _ (by simpa using hle), hbytes]
      simp [Nat.sub_sub]

/-- What a call of `get_buffers` hands out, for a size that is there. -/
structure HandsOut (size n : Nat) (c c' : S3AsyncBufferOptContainer) (data : List Bytes) :
    Prop where
  conserved : data.flatten ++ c'.queued = c.queued
  expecting : c'.isExpectingMore = c.isExpectingMore
  enough : c.isExpectingMore = false ∨ size ∣ n → n ≤ data.flatten.length
  less : c.isExpectingMore = true → data.flatten.length = n / size * size

variable {n : Nat}

theorem Stacked.bufferCount_le (h : c.Stacked size) (hn : n ≤ c.contentLength) :
    c.bufferCount size n ≤ c.readyQ.length := by
  rw [h.length] at hn
  have hbound := hn.trans (bytesIn_le c.readyQ h.full)
  have hdiv : n / size ≤ c.readyQ.length :=
    Nat.div_le_of_le_mul (by rw [Nat.mul_comm]; exact hbound)
  unfold bufferCount
  simp only
  split
  · rename_i hround
    -- the remainder lies in one buffer more
    by_contra hlt
    have heq : n / size = c.readyQ.length := by omega
    have hn' := Nat.div_add_mod n size
    rw [heq, Nat.mul_comm] at hn'
    have := hround.2
    omega
  · exact hdiv

theorem Stacked.getBuffers (h : c.Stacked size) (hsize : 0 < size) (hn : n ≤ c.contentLength) :
    ∃ data c', c.getBuffers size n = some (data, c') ∧ c'.Stacked size ∧
      HandsOut size n c c' data := by
  obtain ⟨d, hd⟩ : ∃ d, d = c.startOver := ⟨_, rfl⟩
  have hsame : d.readyQ = c.readyQ ∧ d.contentLength = c.contentLength ∧
      d.isExpectingMore = c.isExpectingMore := by
    rw [hd]
    unfold startOver
    by_cases hnil : c.processingQ = []
    · rw [if_pos hnil]
      exact ⟨rfl, rfl, rfl⟩
    · rw [if_neg hnil]
      exact ⟨rfl, rfl, rfl⟩
  obtain ⟨hready, hlength, hmore⟩ := hsame
  have hcount : d.bufferCount size n = c.bufferCount size n := by
    unfold bufferCount
    rw [hmore]
  have hle := h.bufferCount_le hn
  obtain ⟨k, hk⟩ : ∃ k, k = c.bufferCount size n := ⟨_, rfl⟩
  rw [← hk] at hcount hle
  have hout := handOut_eq k { d with countBufsSharedForRead := k } []
    (by rw [hready]; exact hle)
  have hget : c.getBuffers size n = handOut k { d with countBufsSharedForRead := k } [] := by
    unfold S3AsyncBufferOptContainer.getBuffers
    simp only
    rw [← hd, if_pos (Or.inl (by rw [hlength]; exact hn)), hcount,
      if_pos (by rw [hready]; exact hle)]
  rw [hout] at hget
  simp only [hready, hlength, nil_append] at hget
  have hsplit : bytesIn c.readyQ = bytesIn (c.readyQ.take k) + bytesIn (c.readyQ.drop k) := by
    unfold bytesIn
    rw [← sum_append, ← map_append, take_append_drop]
  have hdata : ((c.readyQ.take k).flatMap EvBuffer.extents).flatten.length =
      bytesIn (c.readyQ.take k) := by
    rw [flatten_flatMap_extents, length_flatMap]
    rfl
  refine ⟨_, _, hget, ⟨h.full.drop k, fun hm b hb => ?_, ?_⟩,
    ⟨?_, hmore, fun henough => ?_, fun hm => ?_⟩⟩
  · exact h.fullBefore (hmore.symm.trans hm) b (mem_of_mem_drop hb)
  · show c.contentLength - bytesIn (c.readyQ.take k) = bytesIn (c.readyQ.drop k)
    rw [h.length, hsplit, Nat.add_sub_cancel_left]
  · rw [flatten_flatMap_extents]
    show (c.readyQ.take k).flatMap EvBuffer.content ++
      (c.readyQ.drop k).flatMap EvBuffer.content = c.queued
    rw [← flatMap_append, take_append_drop]
    rfl
  · rw [hdata]
    refine le_bytesIn_take h.full (by rw [← h.length]; exact hn) ?_
    have hmod := Nat.div_add_mod n size
    have hlt := Nat.mod_lt n hsize
    rw [hk]
    unfold bufferCount
    simp only
    split
    · rw [Nat.succ_mul, Nat.mul_comm]
      omega
    · rename_i hround
      have hzero : n % size = 0 := by
        rcases henough with hfrozen | hdvd
        · by_contra hne
          exact hround ⟨by rw [hfrozen]; rfl, hne⟩
        · exact Nat.mod_eq_zero_of_dvd hdvd
      rw [Nat.mul_comm]
      omega
  · have hkdiv : k = n / size := by
      rw [hk]
      unfold bufferCount
      simp [hm]
    have hall : ∀ b ∈ c.readyQ.take k, b.length = size :=
      fun b hb => h.fullBefore hm b (mem_of_mem_take hb)
    rw [hdata, ← hkdiv]
    unfold bytesIn
    rw [map_congr_left hall, map_const', sum_replicate, length_take, Nat.min_eq_left hle]
    rfl

/-! ### Every run -/

/-- Nothing is lost and nothing comes in another order, the length is that of what is queued, no
assertion fails, and `get_buffers` hands out what is asked for; before the freeze, of a size that
is no multiple of the buffer size it hands out the full buffers in it. -/
structure Fifo (size : Nat) (s : Session) : Prop where
  conserved : s.handedOut.flatten ++ s.container.queued = s.added.flatten
  counted : s.container.contentLength = s.container.queued.length
  goesOn : ∀ call, Allowed size s call → ∃ s', s.step size call = some s'
  handsOut : ∀ n, n ≤ s.container.contentLength →
    ∃ data c', s.container.getBuffers size n = some (data, c') ∧
      (s.container.isExpectingMore = false ∨ size ∣ n → n ≤ data.flatten.length) ∧
      (s.container.isExpectingMore = true → data.flatten.length = n / size * size)

/-- What every step keeps. -/
structure Keeps (size : Nat) (s : Session) : Prop where
  stacked : s.container.Stacked size
  conserved : s.handedOut.flatten ++ s.container.queued = s.added.flatten

variable {s : Session}

theorem Keeps.step (hsize : 0 < size) {s' : Session} (h : Keeps size s) (call : Call)
    (hallowed : Allowed size s call) (hstep : s.step size call = some s') : Keeps size s' := by
  cases call with
  | addContent buf isFirstBuf isLastBuf isPutRequest =>
    obtain ⟨hstacked, hqueued⟩ := addContent_spec h.stacked hallowed.1 hallowed.2
    obtain ⟨taken, c, hadd⟩ :
        ∃ taken c, s.container.addContent size buf isFirstBuf isLastBuf isPutRequest = (taken, c) :=
      ⟨_, _, rfl⟩
    rw [Session.step, hadd] at hstep
    rw [hadd] at hstacked hqueued
    obtain rfl := Option.some.inj hstep
    refine ⟨hstacked, ?_⟩
    simp only at hqueued ⊢
    rw [hqueued, ← append_assoc, h.conserved]
    split
    · rw [flatten_append, flatten_singleton]
    · rw [append_nil]
  | getBuffers n =>
    obtain ⟨data, c', hget, hstacked, hout⟩ := h.stacked.getBuffers hsize hallowed
    rw [Session.step, hget] at hstep
    obtain rfl := Option.some.inj hstep
    refine ⟨hstacked, ?_⟩
    simp only
    rw [flatten_append, append_assoc, hout.conserved, h.conserved]
  | flushUsedBuffers =>
    obtain rfl := Option.some.inj hstep
    exact ⟨h.stacked.flushUsedBuffers, h.conserved⟩
  | freeze =>
    obtain rfl := Option.some.inj hstep
    exact ⟨h.stacked.freeze, h.conserved⟩

theorem Keeps.fifo (hsize : 0 < size) (h : Keeps size s) : Fifo size s where
  conserved := h.conserved
  counted := by
    rw [h.stacked.length]
    unfold queued
    rw [length_flatMap]
    rfl
  goesOn := by
    intro call hallowed
    cases call with
    | addContent buf isFirstBuf isLastBuf isPutRequest => exact ⟨_, rfl⟩
    | getBuffers n =>
      obtain ⟨data, c', hget, -, -⟩ := h.stacked.getBuffers hsize hallowed
      exact ⟨_, by rw [Session.step, hget]; rfl⟩
    | flushUsedBuffers | freeze => exact ⟨_, rfl⟩
  handsOut := by
    intro n hn
    obtain ⟨data, c', hget, -, hout⟩ := h.stacked.getBuffers hsize hn
    exact ⟨data, c', hget, hout.enough, hout.less⟩

/-- **The container is a queue that loses nothing.** -/
theorem reachable_fifo (hsize : 0 < size) {s : Session}
    (h : Runs.Reachable (Session.step size) (Allowed size) {} s) : Fifo size s := by
  refine Keeps.fifo hsize (h.invariant (P := Keeps size) ?_ ?_)
  · exact ⟨⟨trivial, fun _ _ hb => absurd hb not_mem_nil, rfl⟩, rfl⟩
  · exact fun s call s' hs hallowed hstep => hs.step hsize call hallowed hstep

/-- A full buffer and a short one. -/
def twoBuffers : List Call :=
  [.addContent (.ofBytes (ascii "body") (by decide)) true false true,
    .addContent (.ofBytes (ascii "of") (by decide)) false true true, .getBuffers 6,
    .flushUsedBuffers]

theorem reachable_fifo_twoBuffers :
    ∃ s, Runs.run (Session.step 4) {} twoBuffers = some s ∧ Fifo 4 s := by
  obtain ⟨s, hs⟩ := Option.isSome_iff_exists.mp
    (by decide : (Runs.run (Session.step 4) {} twoBuffers).isSome)
  exact ⟨s, hs, reachable_fifo (by decide)
    (Runs.reachable_of_run twoBuffers .start (by decide) hs)⟩

/-- A layout with a unit of 1 MiB, one unit in a request, and buffers of 2 MiB: a buffer is there and
nothing is handed out. -/
theorem not_handsOut_smallUnit :
    ¬ ∀ (size : Nat) (s : Session), 0 < size →
      Runs.Reachable (Session.step size) (Allowed size) {} s →
        ∀ n, n ≤ s.container.contentLength →
          ∃ data c', s.container.getBuffers size n = some (data, c') ∧
            (n ≤ data.flatten.length ∨ c'.queued = []) := by
  intro h
  obtain ⟨content, hcontent⟩ : ∃ content : Bytes, content = List.replicate 2097152 0 := ⟨_, rfl⟩
  have hlength : content.length = 2097152 := by rw [hcontent, length_replicate]
  have hne : content ≠ [] := ne_nil_of_length_pos (by omega)
  obtain ⟨buf, hbuf⟩ : ∃ buf, buf = EvBuffer.ofBytes content hne := ⟨_, rfl⟩
  have hsize : buf.length = 2097152 := by rw [hbuf, EvBuffer.length_ofBytes, hlength]
  obtain ⟨data, c', hget, hout⟩ := h 2097152
    { container := { readyQ := [buf], contentLength := buf.length }, added := [buf.content] }
    (by decide)
    (.step .start (.addContent buf true false true) ⟨rfl, Or.inl hsize⟩
      (by simp [Session.step, S3AsyncBufferOptContainer.addContent, pushReady, hsize]))
    1048576 (by show 1048576 ≤ buf.length; omega)
  have hnothing : S3AsyncBufferOptContainer.getBuffers 2097152
      { readyQ := [buf], contentLength := buf.length } 1048576 =
        some ([], { readyQ := [buf], contentLength := buf.length }) := by
    simp [S3AsyncBufferOptContainer.getBuffers, startOver, bufferCount, handOut, hsize]
  rw [hnothing] at hget
  obtain ⟨rfl, rfl⟩ := Prod.mk.inj (Option.some.inj hget)
  rcases hout with hout | hout
  · exact absurd hout (by decide)
  · have hqueued := congrArg List.length hout
    simp only [queued, flatMap_cons, flatMap_nil, append_nil] at hqueued
    change buf.length = 0 at hqueued
    omega

end S3AsyncBufferOptContainer

end CortxS3
