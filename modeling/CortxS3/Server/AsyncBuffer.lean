/-
Incoming data that waits to be consumed, `S3AsyncBufferContainer`.

The data are in the buffers of libevent, each of them a chain of extents.  `get_buffers_ref` shows
the front of the data and takes nothing out; `mark_size_of_data_consumed` takes out what the
caller has used since.  Between the two the container only remembers from how many buffers it has
shown data.

No extent is empty: libevent drops a chain that has been drained.  A buffer without extents is an
empty buffer, and `add_content` takes it like any other.
-/
import CortxS3.Basic

namespace CortxS3

/-! ### Buffers of libevent -/

structure EvBuffer where
  extents : List Bytes
  nonempty : ∀ extent ∈ extents, extent ≠ []
deriving DecidableEq

namespace EvBuffer

def content (buf : EvBuffer) : Bytes := buf.extents.flatten

/-- `evbuffer_get_length`. -/
def length (buf : EvBuffer) : Nat := buf.content.length

def drainExtents : Nat → List Bytes → List Bytes
  | _, [] => []
  | n, extent :: rest =>
    if n < extent.length then extent.drop n :: rest else drainExtents (n - extent.length) rest

theorem drainExtents_nonempty :
    ∀ (n : Nat) (extents : List Bytes), (∀ extent ∈ extents, extent ≠ []) →
      ∀ extent ∈ drainExtents n extents, extent ≠ [] := by
  intro n extents
  induction extents generalizing n with
  | nil => exact fun h => h
  | cons extent rest ih =>
    intro h
    have hrest := fun e he => h e (List.mem_cons_of_mem _ he)
    unfold drainExtents
    split
    · rename_i hlt
      intro e he
      rcases List.mem_cons.mp he with rfl | he
      · rw [Ne, List.drop_eq_nil_iff]
        omega
      · exact hrest e he
    · exact ih _ hrest

/-- `evbuffer_drain`. -/
def drain (buf : EvBuffer) (n : Nat) : EvBuffer :=
  ⟨drainExtents n buf.extents, drainExtents_nonempty n buf.extents buf.nonempty⟩

theorem flatten_drainExtents (n : Nat) (extents : List Bytes) :
    (drainExtents n extents).flatten = extents.flatten.drop n := by
  induction extents generalizing n with
  | nil => simp [drainExtents]
  | cons extent rest ih =>
    unfold drainExtents
    split
    · rename_i hlt
      rw [List.flatten_cons, List.flatten_cons, List.drop_append_of_le_length (Nat.le_of_lt hlt)]
    · rename_i hle
      rw [ih, List.flatten_cons, List.drop_append,
        List.drop_eq_nil_of_le (Nat.le_of_not_lt hle), List.nil_append]

@[simp] theorem content_drain (buf : EvBuffer) (n : Nat) :
    (buf.drain n).content = buf.content.drop n :=
  flatten_drainExtents n buf.extents

@[simp] theorem length_drain (buf : EvBuffer) (n : Nat) :
    (buf.drain n).length = buf.length - n := by
  unfold length
  rw [content_drain, List.length_drop]

/-- A buffer of one extent. -/
def ofBytes (content : Bytes) (h : content ≠ []) : EvBuffer :=
  ⟨[content], fun _ he => by rw [List.mem_singleton.mp he]; exact h⟩

@[simp] theorem length_ofBytes (content : Bytes) (h : content ≠ []) :
    (ofBytes content h).length = content.length := by
  simp [ofBytes, length, EvBuffer.content]

end EvBuffer

/-! ### The container -/

/-- How many bytes a list of buffers has. -/
def bytesIn (bufs : List EvBuffer) : Nat := (bufs.map EvBuffer.length).sum

/-- The length is that of the buffers. -/
structure S3AsyncBufferContainer where
  bufferedInput : List EvBuffer := []
  bufferedInputLength : Nat := 0
  isExpectingMore : Bool := true
  countBufsSharedForRead : Nat := 0
  length_eq : bufferedInputLength = bytesIn bufferedInput := by rfl

namespace S3AsyncBufferContainer

def freeze (c : S3AsyncBufferContainer) : S3AsyncBufferContainer :=
  { c with isExpectingMore := false }

def isFreezed (c : S3AsyncBufferContainer) : Bool := !c.isExpectingMore

def length (c : S3AsyncBufferContainer) : Nat := c.bufferedInputLength

def addContent (c : S3AsyncBufferContainer) (buf : EvBuffer) : S3AsyncBufferContainer :=
  { c with
    bufferedInput := c.bufferedInput ++ [buf]
    bufferedInputLength := c.bufferedInputLength + buf.length
    length_eq := by simp [bytesIn, c.length_eq] }

/-! ### `get_buffers_ref` -/

/-- The variables of its loops. -/
structure Sharing where
  expectedContentSize : Nat
  sizeWeCanShare : Nat
  dataItems : List Bytes := []
  countBufsSharedForRead : Nat := 0

/-- The loop over the extents of a buffer, and whether the caller has not got enough with it. -/
def shareExtents (isExpectingMore : Bool) : Sharing → Bool → List Bytes → Sharing × Bool
  | s, _, [] => (s, true)
  | s, isSharedForRead, extent :: rest =>
    if 0 < s.expectedContentSize ∧
        (s.expectedContentSize ≤ s.sizeWeCanShare ∨ isExpectingMore = false) then
      let count :=
        if isSharedForRead then s.countBufsSharedForRead else s.countBufsSharedForRead + 1
      if extent.length ≤ s.expectedContentSize then
        shareExtents isExpectingMore {
          expectedContentSize := s.expectedContentSize - extent.length
          sizeWeCanShare := s.sizeWeCanShare - extent.length
          dataItems := s.dataItems ++ [extent]
          countBufsSharedForRead := count } true rest
      else
        shareExtents isExpectingMore {
          expectedContentSize := 0
          sizeWeCanShare := s.sizeWeCanShare - s.expectedContentSize
          dataItems := s.dataItems ++ [extent.take s.expectedContentSize]
          countBufsSharedForRead := count } true rest
    else (s, false)

def shareBuffers (isExpectingMore : Bool) : Sharing → List EvBuffer → Sharing
  | s, [] => s
  | s, buf :: rest =>
    match shareExtents isExpectingMore s false buf.extents with
    | (s', true) => shareBuffers isExpectingMore s' rest
    | (s', false) => s'

def getBuffersRef (c : S3AsyncBufferContainer) (expectedContentSize : Nat) :
    List Bytes × S3AsyncBufferContainer :=
  let fresh : Sharing :=
    { expectedContentSize := expectedContentSize, sizeWeCanShare := c.length }
  let s :=
    if expectedContentSize ≤ c.length ∨ c.isExpectingMore = false then
      shareBuffers c.isExpectingMore fresh c.bufferedInput
    else fresh
  (s.dataItems, { c with countBufsSharedForRead := s.countBufsSharedForRead })

/-! ### `mark_size_of_data_consumed` -/

/-- One round of its loop, at the front buffer: all of it is consumed, or part of it. -/
def consume (c : S3AsyncBufferContainer) (buf : EvBuffer) (rest : List EvBuffer)
    (hfront : c.bufferedInput = buf :: rest) (sizeConsumed : Nat) :
    S3AsyncBufferContainer × Nat :=
  have hlength : c.bufferedInputLength = buf.length + bytesIn rest := by
    rw [c.length_eq, hfront]
    rfl
  if sizeConsumed = 0 then (c, 0)
  else if h : buf.length ≤ sizeConsumed then
    ({ c with
        bufferedInput := rest
        bufferedInputLength := c.bufferedInputLength - buf.length
        length_eq := by omega }, sizeConsumed - buf.length)
  else
    ({ c with
        bufferedInput := buf.drain sizeConsumed :: rest
        bufferedInputLength := c.bufferedInputLength - sizeConsumed
        length_eq := by
          show c.bufferedInputLength - sizeConsumed =
            (buf.drain sizeConsumed).length + bytesIn rest
          rw [EvBuffer.length_drain]
          omega }, 0)

def consumeRounds : Nat → S3AsyncBufferContainer → Nat → S3AsyncBufferContainer
  | 0, c, _ => c
  | rounds + 1, c, sizeConsumed =>
    match h : c.bufferedInput with
    | [] => c
    | buf :: rest =>
      let (c', sizeConsumed') := c.consume buf rest h sizeConsumed
      consumeRounds rounds c' sizeConsumed'

def markSizeOfDataConsumed (c : S3AsyncBufferContainer) (sizeConsumed : Nat) :
    S3AsyncBufferContainer :=
  consumeRounds c.countBufsSharedForRead c sizeConsumed

end S3AsyncBufferContainer

end CortxS3
