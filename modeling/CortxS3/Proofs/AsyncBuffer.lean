/-
What is left in the container when data have been consumed.

`get_buffers_ref` counts the buffers it shares data from, and an empty buffer is not one of them.
`mark_size_of_data_consumed` walks that many buffers from the front, and there an empty one
counts.  So with empty buffers in between it can stop too early: it removes what was consumed
exactly when the buffers it has to walk (`touched`) are no more than those that data were shared
from (`sharedBuffers`).
-/
import CortxS3.Server.AsyncBuffer

namespace CortxS3

open List

/-! ### Walking along buffers -/

/-- How many buffers there are up to the one with the last of `n` bytes. -/
def touched : Nat → List Nat → Nat
  | _, [] => 0
  | n, size :: rest => if n = 0 then 0 else touched (n - size) rest + 1

/-- How many of them are used up with it. -/
def usedUp : Nat → List Nat → Nat
  | _, [] => 0
  | n, size :: rest => if n = 0 ∨ n < size then 0 else usedUp (n - size) rest + 1

/-- How many of them are not empty. -/
def sharedBuffers : Nat → List Nat → Nat
  | _, [] => 0
  | n, size :: rest =>
    if n = 0 then 0 else sharedBuffers (n - size) rest + if size = 0 then 0 else 1

theorem touched_zero (sizes : List Nat) : touched 0 sizes = 0 := by
  cases sizes with
  | nil => rfl
  | cons size rest => exact if_pos rfl

theorem usedUp_zero (sizes : List Nat) : usedUp 0 sizes = 0 := by
  cases sizes with
  | nil => rfl
  | cons size rest => exact if_pos (Or.inl rfl)

theorem sharedBuffers_zero (sizes : List Nat) : sharedBuffers 0 sizes = 0 := by
  cases sizes with
  | nil => rfl
  | cons size rest => exact if_pos rfl

theorem sharedBuffers_min (sizes : List Nat) :
    ∀ n, sharedBuffers (min n sizes.sum) sizes = sharedBuffers n sizes := by
  induction sizes with
  | nil => exact fun _ => rfl
  | cons size rest ih =>
    intro n
    have hsub : min n (size :: rest).sum - size = min (n - size) rest.sum := by
      rw [sum_cons]
      omega
    unfold sharedBuffers
    rw [hsub, ih]
    by_cases hn : n = 0
    · rw [if_pos (by omega), if_pos hn]
    · rw [if_neg hn]
      split
      · -- the rest is empty, and so is this buffer
        rename_i hzero
        rw [sum_cons] at hzero
        have hsize : size = 0 := by omega
        have hrest : rest.sum = 0 := by omega
        rw [hsize, if_pos rfl, ← ih, hrest, Nat.min_zero, sharedBuffers_zero]
      · rfl

theorem touched_append (more sizes : List Nat) :
    ∀ n, n ≤ sizes.sum → touched n (sizes ++ more) = touched n sizes := by
  induction sizes with
  | nil =>
    intro n hn
    rw [sum_nil, Nat.le_zero] at hn
    rw [hn, nil_append, touched_zero, touched_zero]
  | cons size rest ih =>
    intro n hn
    rw [sum_cons] at hn
    rw [cons_append]
    unfold touched
    rw [ih (n - size) (by omega)]

namespace S3AsyncBufferContainer

def sizes (c : S3AsyncBufferContainer) : List Nat := c.bufferedInput.map EvBuffer.length

/-- All that waits to be consumed. -/
def content (c : S3AsyncBufferContainer) : Bytes := c.bufferedInput.flatMap EvBuffer.content

theorem length_flatMap_content (bufs : List EvBuffer) :
    (bufs.flatMap EvBuffer.content).length = bytesIn bufs := by
  rw [length_flatMap]
  rfl

theorem length_eq_content (c : S3AsyncBufferContainer) : c.length = c.content.length := by
  unfold content
  rw [length_flatMap_content]
  exact c.length_eq

/-! ### Sharing -/

/-- Enough is there, or nothing more is expected. -/
def Sharing.Shares (m : Bool) (s : Sharing) : Prop :=
  s.expectedContentSize ≤ s.sizeWeCanShare ∨ m = false

theorem shareExtents_spec (m : Bool) :
    ∀ (extents : List Bytes) (s : Sharing) (isShared : Bool), s.Shares m →
      (∀ extent ∈ extents, extent ≠ []) →
        ∃ s' go, shareExtents m s isShared extents = (s', go) ∧ s'.Shares m ∧
          (go = false → s'.expectedContentSize = 0) ∧
          s'.expectedContentSize = s.expectedContentSize - extents.flatten.length ∧
          s'.dataItems.flatten =
            s.dataItems.flatten ++ extents.flatten.take s.expectedContentSize ∧
          s'.countBufsSharedForRead = s.countBufsSharedForRead +
            if isShared ∨ s.expectedContentSize = 0 ∨ extents = [] then 0 else 1 := by
  intro extents
  induction extents with
  | nil =>
    intro s isShared hshares _
    exact ⟨s, true, rfl, hshares, fun h => Bool.noConfusion h, by simp, by simp, by simp⟩
  | cons extent rest ih =>
    intro s isShared hshares hne
    have hrest := fun e he => hne e (mem_cons_of_mem _ he)
    have hpos : 0 < extent.length := length_pos_of_ne_nil (hne extent mem_cons_self)
    unfold shareExtents
    by_cases hzero : s.expectedContentSize = 0
    · rw [if_neg (by omega)]
      exact ⟨s, false, rfl, hshares, fun _ => hzero, by simp [hzero], by simp [hzero],
        by simp [hzero]⟩
    · rw [if_pos ⟨Nat.pos_of_ne_zero hzero, hshares⟩]
      simp only
      split
      · rename_i hle
        obtain ⟨s', go, heq, hshares', hgo, hsize, hdata, hcount⟩ := ih {
          expectedContentSize := s.expectedContentSize - extent.length
          sizeWeCanShare := s.sizeWeCanShare - extent.length
          dataItems := s.dataItems ++ [extent]
          countBufsSharedForRead :=
            if isShared then s.countBufsSharedForRead else s.countBufsSharedForRead + 1 }
          true (by
            rcases hshares with h | h
            · exact Or.inl (Nat.sub_le_sub_right h _)
            · exact Or.inr h) hrest
        refine ⟨s', go, heq, hshares', hgo, ?_, ?_, ?_⟩
        · rw [hsize, flatten_cons, length_append]
          exact Nat.sub_sub _ _ _
        · rw [hdata, flatten_cons, take_append, take_of_length_le hle]
          simp
        · rw [hcount]
          cases isShared <;> simp [hzero]
      · rename_i hlt
        obtain ⟨s', go, heq, hshares', hgo, hsize, hdata, hcount⟩ := ih {
          expectedContentSize := 0
          sizeWeCanShare := s.sizeWeCanShare - s.expectedContentSize
          dataItems := s.dataItems ++ [extent.take s.expectedContentSize]
          countBufsSharedForRead :=
            if isShared then s.countBufsSharedForRead else s.countBufsSharedForRead + 1 }
          true (Or.inl (Nat.zero_le _)) hrest
        refine ⟨s', go, heq, hshares', hgo, ?_, ?_, ?_⟩
        · rw [hsize, flatten_cons, length_append]
          simp only
          omega
        · rw [hdata, flatten_cons, take_append_of_le_length (by omega)]
          simp
        · rw [hcount]
          cases isShared <;> simp [hzero]

theorem shareBuffers_zero (m : Bool) :
    ∀ (bufs : List EvBuffer) (s : Sharing), s.expectedContentSize = 0 →
      shareBuffers m s bufs = s := by
  intro bufs
  induction bufs with
  | nil => exact fun _ _ => rfl
  | cons buf rest ih =>
    intro s hs
    unfold shareBuffers
    cases hext : buf.extents with
    | nil =>
      unfold shareExtents
      exact ih s hs
    | cons extent more =>
      unfold shareExtents
      rw [if_neg (by omega)]

theorem shareBuffers_spec (m : Bool) :
    ∀ (bufs : List EvBuffer) (s : Sharing), s.Shares m →
      (shareBuffers m s bufs).dataItems.flatten =
          s.dataItems.flatten ++ (bufs.flatMap EvBuffer.content).take s.expectedContentSize ∧
        (shareBuffers m s bufs).countBufsSharedForRead = s.countBufsSharedForRead +
          sharedBuffers s.expectedContentSize (bufs.map EvBuffer.length) := by
  intro bufs
  induction bufs with
  | nil => exact fun s _ => ⟨by simp [shareBuffers], rfl⟩
  | cons buf rest ih =>
    intro s hshares
    obtain ⟨s', go, heq, hshares', hgo, hsize, hdata, hcount⟩ :=
      shareExtents_spec m buf.extents s false hshares buf.nonempty
    have hnext : shareBuffers m s (buf :: rest) = shareBuffers m s' rest := by
      rw [shareBuffers, heq]
      cases go with
      | true => rfl
      | false => exact (shareBuffers_zero m rest s' (hgo rfl)).symm
    have hempty : buf.extents = [] ↔ buf.length = 0 := by
      unfold EvBuffer.length EvBuffer.content
      rw [length_eq_zero_iff, flatten_eq_nil_iff]
      refine ⟨fun h => by simp [h], fun h => ?_⟩
      exact eq_nil_iff_forall_not_mem.mpr fun e he => buf.nonempty e he (h e he)
    have hlength : buf.extents.flatten.length = buf.length := rfl
    simp only [hempty, Bool.false_eq_true, false_or] at hcount
    obtain ⟨hitems, hcounted⟩ := ih s' hshares'
    rw [hnext, hitems, hcounted, hdata, hcount, hsize, hlength]
    refine ⟨?_, ?_⟩
    · rw [flatMap_cons, take_append, append_assoc]
      rfl
    · rw [map_cons, sharedBuffers]
      by_cases hzero : s.expectedContentSize = 0
      · rw [if_pos (Or.inl hzero), if_pos hzero, hzero, Nat.zero_sub, sharedBuffers_zero]
      · rw [if_neg hzero]
        simp only [hzero, false_or]
        omega

theorem getBuffersRef_spec (c : S3AsyncBufferContainer) (n : Nat) :
    (c.getBuffersRef n).1.flatten = c.content.take (c.getBuffersRef n).1.flatten.length ∧
      (c.getBuffersRef n).2.countBufsSharedForRead =
        sharedBuffers (c.getBuffersRef n).1.flatten.length c.sizes ∧
      (c.getBuffersRef n).1.flatten.length ≤ c.content.length := by
  unfold getBuffersRef
  simp only
  split
  · rename_i h
    obtain ⟨hitems, hcount⟩ := shareBuffers_spec c.isExpectingMore c.bufferedInput
      { expectedContentSize := n, sizeWeCanShare := c.length } h
    have hlength : (List.take n c.content).length = min n c.sizes.sum := by
      rw [length_take]
      unfold content
      rw [length_flatMap_content]
      rfl
    simp only [flatten_nil, nil_append, Nat.zero_add] at hitems hcount
    change _ = List.take n c.content at hitems
    change _ = sharedBuffers n c.sizes at hcount
    rw [hitems, hcount, hlength, sharedBuffers_min]
    refine ⟨?_, rfl, ?_⟩
    · have hsum : c.content.length = c.sizes.sum := length_flatMap_content _
      rw [take_eq_take_iff]
      omega
    · rw [← hlength]
      exact length_take_le' _ _
  · refine ⟨by simp, ?_, by simp⟩
    exact (sharedBuffers_zero _).symm

/-! ### Consuming -/

/-- The rounds on the buffers alone. -/
def consumeBuffers : Nat → List EvBuffer → Nat → List EvBuffer
  | 0, bufs, _ => bufs
  | _, [], _ => []
  | rounds + 1, buf :: rest, n =>
    if n = 0 then buf :: rest
    else if buf.length ≤ n then consumeBuffers rounds rest (n - buf.length)
    else buf.drain n :: rest

theorem consumeRounds_zero :
    ∀ (rounds : Nat) (c : S3AsyncBufferContainer), consumeRounds rounds c 0 = c := by
  intro rounds
  induction rounds with
  | zero => exact fun _ => rfl
  | succ rounds ih =>
    intro c
    unfold consumeRounds
    split
    · rfl
    · unfold consume
      simp only [if_true]
      exact ih c

theorem consume_spec {c : S3AsyncBufferContainer} {buf : EvBuffer} {rest : List EvBuffer}
    (hfront : c.bufferedInput = buf :: rest) {n : Nat} (hn : n ≠ 0) :
    (buf.length ≤ n → (c.consume buf rest hfront n).1.bufferedInput = rest ∧
        (c.consume buf rest hfront n).2 = n - buf.length) ∧
      (¬ buf.length ≤ n → (c.consume buf rest hfront n).1.bufferedInput = buf.drain n :: rest ∧
        (c.consume buf rest hfront n).2 = 0) := by
  unfold consume
  rw [if_neg hn]
  refine ⟨fun hle => ?_, fun hle => ?_⟩
  · rw [dif_pos hle]
    exact ⟨rfl, rfl⟩
  · rw [dif_neg hle]
    exact ⟨rfl, rfl⟩

theorem bufferedInput_consumeRounds :
    ∀ (rounds : Nat) (c : S3AsyncBufferContainer) (n : Nat),
      (consumeRounds rounds c n).bufferedInput = consumeBuffers rounds c.bufferedInput n := by
  intro rounds
  induction rounds with
  | zero => exact fun _ _ => rfl
  | succ rounds ih =>
    intro c n
    by_cases hn : n = 0
    · rw [hn, consumeRounds_zero]
      cases c.bufferedInput with
      | nil => rfl
      | cons buf rest => exact (if_pos rfl).symm
    · unfold consumeRounds
      split
      · rename_i hnil
        rw [hnil]
        rfl
      · rename_i buf rest hfront
        have hround : consumeBuffers (rounds + 1) c.bufferedInput n =
            if buf.length ≤ n then consumeBuffers rounds rest (n - buf.length)
            else buf.drain n :: rest := by
          rw [hfront, consumeBuffers, if_neg hn]
        obtain ⟨hall, hpart⟩ := consume_spec hfront hn
        rw [hround]
        by_cases hle : buf.length ≤ n
        · obtain ⟨hbufs, hleft⟩ := hall hle
          rw [if_pos hle]
          have hrest := ih (c.consume buf rest hfront n).1 (c.consume buf rest hfront n).2
          rw [hbufs] at hrest
          rw [← hleft]
          exact hrest
        · obtain ⟨hbufs, hleft⟩ := hpart hle
          rw [if_neg hle]
          simp only [hleft]
          rw [consumeRounds_zero, hbufs]

theorem consumeBuffers_of_touched :
    ∀ (rounds : Nat) (bufs : List EvBuffer) (n : Nat), n ≤ bytesIn bufs →
      touched n (bufs.map EvBuffer.length) ≤ rounds →
        (consumeBuffers rounds bufs n).flatMap EvBuffer.content =
            (bufs.flatMap EvBuffer.content).drop n ∧
          (consumeBuffers rounds bufs n).length + usedUp n (bufs.map EvBuffer.length) =
            bufs.length := by
  intro rounds
  induction rounds with
  | zero =>
    intro bufs n hn htouched
    have hzero : n = 0 := by
      cases bufs with
      | nil => exact Nat.le_zero.mp hn
      | cons buf rest =>
        by_contra hne
        rw [map_cons, touched, if_neg hne] at htouched
        omega
    subst hzero
    rw [usedUp_zero]
    exact ⟨rfl, rfl⟩
  | succ rounds ih =>
    intro bufs n hn htouched
    cases bufs with
    | nil => exact ⟨by simp [consumeBuffers], rfl⟩
    | cons buf rest =>
      unfold consumeBuffers
      by_cases hzero : n = 0
      · rw [if_pos hzero, hzero, usedUp_zero]
        exact ⟨rfl, rfl⟩
      · have hbytes : bytesIn (buf :: rest) = buf.length + bytesIn rest := rfl
        rw [map_cons, touched, if_neg hzero] at htouched
        rw [if_neg hzero, flatMap_cons, map_cons, usedUp, length_cons]
        by_cases hle : buf.length ≤ n
        · obtain ⟨hcontent, hcount⟩ := ih rest (n - buf.length) (by omega) (by omega)
          rw [if_pos hle, if_neg (by omega)]
          refine ⟨?_, by omega⟩
          rw [hcontent, drop_append, drop_eq_nil_of_le hle, nil_append]
          rfl
        · rw [if_neg hle, if_pos (by omega), flatMap_cons, EvBuffer.content_drain,
            drop_append_of_le_length (Nat.le_of_not_le hle)]
          exact ⟨rfl, rfl⟩

theorem lt_bytesIn_consumeBuffers :
    ∀ (rounds : Nat) (bufs : List EvBuffer) (n : Nat), n ≤ bytesIn bufs →
      rounds < touched n (bufs.map EvBuffer.length) →
        bytesIn bufs < bytesIn (consumeBuffers rounds bufs n) + n := by
  intro rounds
  induction rounds with
  | zero =>
    intro bufs n _ htouched
    have hne : n ≠ 0 := by
      rintro rfl
      rw [touched_zero] at htouched
      exact absurd htouched (Nat.lt_irrefl 0)
    show bytesIn bufs < bytesIn bufs + n
    omega
  | succ rounds ih =>
    intro bufs n hn htouched
    cases bufs with
    | nil => exact absurd htouched (Nat.not_lt_zero _)
    | cons buf rest =>
      have hbytes : bytesIn (buf :: rest) = buf.length + bytesIn rest := rfl
      have hne : n ≠ 0 := by
        rintro rfl
        rw [touched_zero] at htouched
        exact absurd htouched (Nat.not_lt_zero _)
      rw [map_cons, touched, if_neg hne] at htouched
      unfold consumeBuffers
      rw [if_neg hne]
      by_cases hle : buf.length ≤ n
      · have hrest := ih rest (n - buf.length) (by omega) (by omega)
        rw [if_pos hle]
        omega
      · -- the bytes end in this buffer
        rw [show n - buf.length = 0 by omega, touched_zero] at htouched
        omega

/-! ### What is left -/

/-- The first `n` bytes are gone, the length is that of the rest, and so is the number of buffers.
-/
structure RemovesExactly (c c' : S3AsyncBufferContainer) (n : Nat) : Prop where
  content : c'.content = c.content.drop n
  length : c'.length = (c.content.drop n).length
  count : c'.bufferedInput.length + usedUp n c.sizes = c.bufferedInput.length

theorem markSizeOfDataConsumed_iff (c : S3AsyncBufferContainer) {n : Nat}
    (hn : n ≤ c.content.length) :
    RemovesExactly c (c.markSizeOfDataConsumed n) n ↔
      touched n c.sizes ≤ c.countBufsSharedForRead := by
  have hbufs := bufferedInput_consumeRounds c.countBufsSharedForRead c n
  have hbytes : c.content.length = bytesIn c.bufferedInput := length_flatMap_content _
  constructor
  · intro h
    by_contra hlt
    have hleft := lt_bytesIn_consumeBuffers c.countBufsSharedForRead c.bufferedInput n
      (by omega) (Nat.lt_of_not_le hlt)
    rw [← hbufs] at hleft
    have hlength := congrArg List.length h.content
    rw [length_drop] at hlength
    have hcontent : (c.markSizeOfDataConsumed n).content.length =
        bytesIn (c.markSizeOfDataConsumed n).bufferedInput := length_flatMap_content _
    unfold markSizeOfDataConsumed at hlength hcontent
    omega
  · intro h
    obtain ⟨hcontent, hcount⟩ := consumeBuffers_of_touched c.countBufsSharedForRead
      c.bufferedInput n (by omega) h
    rw [← hbufs] at hcontent hcount
    refine ⟨hcontent, ?_, hcount⟩
    rw [length_eq_content]
    exact congrArg List.length hcontent

/-- Data were handed out, and more have come in since. -/
def handedOut (c : S3AsyncBufferContainer) (expectedContentSize : Nat) (more : List EvBuffer) :
    S3AsyncBufferContainer :=
  more.foldl addContent (c.getBuffersRef expectedContentSize).2

theorem foldl_addContent (more : List EvBuffer) :
    ∀ c : S3AsyncBufferContainer,
      (more.foldl addContent c).bufferedInput = c.bufferedInput ++ more ∧
        (more.foldl addContent c).countBufsSharedForRead = c.countBufsSharedForRead := by
  induction more with
  | nil => exact fun c => ⟨(append_nil _).symm, rfl⟩
  | cons buf rest ih =>
    intro c
    obtain ⟨hbufs, hcount⟩ := ih (c.addContent buf)
    rw [foldl_cons, hbufs, hcount]
    exact ⟨by simp [addContent], rfl⟩

/-- **What was consumed is removed exactly when it lies in no more buffers than were counted.**
Up to its last byte there may be empty buffers; they must not be more than the other buffers that
data were handed out from behind it. -/
theorem markSizeOfDataConsumed_handedOut_iff (c : S3AsyncBufferContainer)
    (expectedContentSize : Nat) (more : List EvBuffer) {n : Nat}
    (hn : n ≤ (c.getBuffersRef expectedContentSize).1.flatten.length) :
    RemovesExactly (c.handedOut expectedContentSize more)
        ((c.handedOut expectedContentSize more).markSizeOfDataConsumed n) n ↔
      touched n c.sizes ≤
        sharedBuffers (c.getBuffersRef expectedContentSize).1.flatten.length c.sizes := by
  obtain ⟨-, hcount, hle⟩ := c.getBuffersRef_spec expectedContentSize
  obtain ⟨hbufs, hcount'⟩ := foldl_addContent more (c.getBuffersRef expectedContentSize).2
  have hsum : c.content.length = c.sizes.sum := length_flatMap_content _
  have hcontent : (c.handedOut expectedContentSize more).content =
      c.content ++ more.flatMap EvBuffer.content := by
    unfold content handedOut
    rw [hbufs, flatMap_append]
    rfl
  have hsizes : (c.handedOut expectedContentSize more).sizes =
      c.sizes ++ more.map EvBuffer.length := by
    unfold sizes handedOut
    rw [hbufs, map_append]
    rfl
  rw [markSizeOfDataConsumed_iff _ (by rw [hcontent, length_append]; omega), hsizes,
    touched_append _ _ _ (by omega), ← hcount, ← hcount']
  rfl

/-- The container with these buffers. -/
def holding (bufs : List EvBuffer) : S3AsyncBufferContainer := bufs.foldl addContent {}

theorem markSizeOfDataConsumed_handedOut_iff_three :
    let c := holding [.ofBytes (ascii "abc") (by decide), .ofBytes (ascii "de") (by decide)]
    RemovesExactly (c.handedOut 4 []) ((c.handedOut 4 []).markSizeOfDataConsumed 3) 3 ↔
      touched 3 c.sizes ≤ sharedBuffers (c.getBuffersRef 4).1.flatten.length c.sizes :=
  markSizeOfDataConsumed_handedOut_iff _ 4 [] (by decide)

/-- Behind an empty buffer everything that was consumed stays. -/
theorem not_removesExactly_emptyBuffer :
    let c := holding [⟨[], by simp⟩, .ofBytes (ascii "ab") (by decide)]
    2 ≤ (c.getBuffersRef 2).1.flatten.length ∧
      ¬ RemovesExactly (c.handedOut 2 []) ((c.handedOut 2 []).markSizeOfDataConsumed 2) 2 := by
  refine ⟨by decide, fun h => ?_⟩
  exact absurd h.content (by decide)

end S3AsyncBufferContainer

end CortxS3
