/-
When a client gets the bytes it asked for.

A read sends a stretch of one Motr object (`readObjectData_read`), and an object is read from one
block to the next until the range is complete (`ends_of_mid`) or the object is (`leads_of_mid`).
The range itself is cut from the parts in the same way, one part after another (`slice_cons`).

Three comparisons decide what is cut off, and none of them fits a range that begins inside a part
and goes on in the next.  The offset in the first block is taken from the start of the whole
object.  The end of the range is looked for before the end of the part, with the padding counted.
And the end of the part is compared with the bytes sent of it, although these begin behind its
start.  `serves_iff` says what must hold of parts and range for the right bytes to be sent.
-/
import CortxS3.Server.GetObjectAction

namespace CortxS3

open List

namespace S3GetObjectAction

open Until

/-! ### Blocks -/

/-- How many blocks a part has. -/
def blocks (p : PartLayout) : Nat := (p.size + (p.unitSize - 1)) / p.unitSize

theorem size_le_blocks (p : PartLayout) : p.size ≤ blocks p * p.unitSize := by
  unfold blocks
  have h := Nat.div_add_mod (p.size + (p.unitSize - 1)) p.unitSize
  have hlt := Nat.mod_lt (p.size + (p.unitSize - 1)) p.unit_pos
  rw [Nat.mul_comm] at h
  omega

theorem blocks_lt_size (p : PartLayout) : blocks p * p.unitSize < p.size + p.unitSize := by
  unfold blocks
  have h := Nat.div_mul_le_self (p.size + (p.unitSize - 1)) p.unitSize
  have := p.unit_pos
  omega

theorem blocks_pos (p : PartLayout) : 0 < blocks p := by
  unfold blocks
  apply Nat.div_pos _ p.unit_pos
  have := p.size_pos
  have := p.unit_pos
  omega

theorem blocks_le_size (p : PartLayout) : blocks p ≤ p.size := by
  have h := blocks_lt_size p
  have hu := p.unit_pos
  by_contra hlt
  have hmul : (p.size + 1) * p.unitSize ≤ blocks p * p.unitSize :=
    Nat.mul_le_mul_right _ (Nat.lt_of_not_le hlt)
  have hs : p.size ≤ p.size * p.unitSize := Nat.le_mul_of_pos_right _ hu
  rw [Nat.succ_mul] at hmul
  omega

theorem blocks_eq_iff (p : PartLayout) : blocks p * p.unitSize = p.size ↔ p.unitSize ∣ p.size := by
  constructor
  · intro h
    exact ⟨blocks p, by rw [Nat.mul_comm, h]⟩
  · rintro ⟨n, hn⟩
    have hle := size_le_blocks p
    have hlt := blocks_lt_size p
    rw [hn] at hle hlt ⊢
    rw [Nat.mul_comm p.unitSize n] at hle hlt ⊢
    have h1 : n ≤ blocks p := Nat.le_of_mul_le_mul_right hle p.unit_pos
    have h2 : blocks p < n + 1 := by
      apply Nat.lt_of_mul_lt_mul_right (a := p.unitSize)
      rw [Nat.succ_mul]
      exact hlt
    rw [show blocks p = n by omega]

/-! ### Stretches of an object -/

@[simp] theorem length_motrRead (motr : MotrObjects) (oid index n : Nat) :
    (motrRead motr oid index n).length = n := by
  unfold motrRead
  rw [length_map, length_range]

theorem motrRead_append (motr : MotrObjects) (oid index n k : Nat) :
    motrRead motr oid index n ++ motrRead motr oid (index + n) k =
      motrRead motr oid index (n + k) := by
  unfold motrRead
  rw [range_add, map_append, map_map]
  congr 1
  apply map_congr_left
  intro j _
  show motr oid (index + n + j) = motr oid (index + (n + j))
  rw [Nat.add_assoc]

variable {n : Nat}

variable {k : Nat}

theorem motrRead_split (motr : MotrObjects) (oid index : Nat) (h : k ≤ n) :
    motrRead motr oid index k ++ motrRead motr oid (index + k) (n - k) =
      motrRead motr oid index n := by
  rw [motrRead_append, Nat.add_sub_of_le h]

theorem take_motrRead (motr : MotrObjects) (oid index : Nat) (h : k ≤ n) :
    (motrRead motr oid index n).take k = motrRead motr oid index k := by
  rw [← motrRead_split motr oid index h, take_append_of_le_length (by rw [length_motrRead]),
    take_of_length_le (by rw [length_motrRead])]

theorem drop_motrRead (motr : MotrObjects) (oid index : Nat) (h : k ≤ n) :
    (motrRead motr oid index n).drop k = motrRead motr oid (index + k) (n - k) := by
  rw [← motrRead_split motr oid index h, drop_append_of_le_length (by rw [length_motrRead]),
    drop_eq_nil_of_le (by rw [length_motrRead]), nil_append]

theorem mem_motrRead {motr : MotrObjects} {oid index : Nat} {c : UInt8} :
    c ∈ motrRead motr oid index n ↔ ∃ j < n, motr oid (index + j) = c := by
  unfold motrRead
  rw [mem_map]
  constructor
  · rintro ⟨j, hj, hc⟩
    exact ⟨j, mem_range.mp hj, hc⟩
  · rintro ⟨j, hj, hc⟩
    exact ⟨j, mem_range.mpr hj, hc⟩

/-! ### One read -/

/-- What is left out at the front of a read. -/
def skipped (a : S3GetObjectAction) : Nat :=
  if a.dataSentToClient = 0 then a.firstByteOffsetToRead % a.currentObject.unitSize else 0

/-- The action after `r` blocks were read and some bytes of them sent. -/
def afterSending (a : S3GetObjectAction) (r : Nat) (sent : Bytes) : S3GetObjectAction :=
  { a with
    blocksAlreadyRead := (a.blocksAlreadyRead + r) % sizeMod
    lastIndex := a.lastIndex + r * a.currentObject.unitSize
    dataSentToClient := a.dataSentToClient + sent.length
    dataSentToClientForObject := a.dataSentToClientForObject + sent.length
    body := a.body ++ sent }

/-- The action after `r` blocks were read and `n` bytes of them sent. -/
def advance (a : S3GetObjectAction) (r n : Nat) : S3GetObjectAction :=
  a.afterSending r (motrRead a.motr a.currentObject.objectOID (a.lastIndex + a.skipped) n)

/-- How many bytes a read sends that does not complete the range. -/
def sentOf (a : S3GetObjectAction) (length : Nat) : Nat :=
  if a.currentObject.objectSize ≤ a.dataSentToClientForObject + length then
    a.currentObject.objectSize - a.dataSentToClientForObject
  else length

theorem bytesToSend_motrRead (a : S3GetObjectAction) (hskip : a.skipped ≤ n)
    (hsent : a.dataSentToClient < a.getRequestedContentLength) :
    a.bytesToSend (motrRead a.motr a.currentObject.objectOID a.lastIndex n) =
      motrRead a.motr a.currentObject.objectOID (a.lastIndex + a.skipped)
        (if a.getRequestedContentLength ≤ a.dataSentToClient + (n - a.skipped) then
          a.getRequestedContentLength - a.dataSentToClient
        else a.sentOf (n - a.skipped)) := by
  have hbuf : (if a.dataSentToClient = 0 then
      (motrRead a.motr a.currentObject.objectOID a.lastIndex n).drop
          (a.firstByteOffsetToRead % a.currentObject.unitSize)
      else motrRead a.motr a.currentObject.objectOID a.lastIndex n) =
      motrRead a.motr a.currentObject.objectOID (a.lastIndex + a.skipped) (n - a.skipped) := by
    unfold skipped at hskip ⊢
    by_cases hzero : a.dataSentToClient = 0
    · rw [if_pos hzero] at hskip
      rw [if_pos hzero, if_pos hzero, drop_motrRead _ _ _ hskip]
    · rw [if_neg hzero, if_neg hzero]
      rfl
  unfold bytesToSend
  dsimp only
  rw [hbuf, length_motrRead]
  by_cases hdone : a.getRequestedContentLength ≤ a.dataSentToClient + (n - a.skipped)
  · rw [if_pos hdone, if_pos hdone, take_motrRead _ _ _ (by omega)]
  · rw [if_neg hdone, if_neg hdone]
    unfold sentOf
    by_cases hobj : a.currentObject.objectSize ≤ a.dataSentToClientForObject + (n - a.skipped)
    · rw [if_pos hobj, if_pos hobj, take_motrRead _ _ _ (by omega)]
    · rw [if_neg hobj, if_neg hobj]

theorem sentOf_le (a : S3GetObjectAction) (length : Nat) : a.sentOf length ≤ length := by
  unfold sentOf
  split <;> omega

/-- **A read sends a stretch of the object**, and goes on from there. -/
theorem readObjectData_read (a : S3GetObjectAction)
    (hmore : a.blocksAlreadyRead ≠ a.totalBlocksToRead) (hblocks : 0 < a.blocksToRead)
    {length : Nat} (hlength : a.blocksToRead * a.currentObject.unitSize = length + a.skipped)
    (hsent : a.dataSentToClient < a.getRequestedContentLength) :
    readObjectData a =
      if a.getRequestedContentLength ≤ a.dataSentToClient + length then
        .done (a.body ++ motrRead a.motr a.currentObject.objectOID (a.lastIndex + a.skipped)
          (a.getRequestedContentLength - a.dataSentToClient))
      else if a.dataSentToClientForObject + a.sentOf length ≠
          a.currentObject.requestedObjectSize then
        .next (a.advance a.blocksToRead (a.sentOf length))
      else (a.advance a.blocksToRead (a.sentOf length)).readNextObject := by
  have hbytes := bytesToSend_motrRead a
    (n := a.blocksToRead * a.currentObject.unitSize) (by omega) hsent
  have hlen : a.blocksToRead * a.currentObject.unitSize - a.skipped = length := by omega
  rw [hlen] at hbytes
  unfold readObjectData
  rw [if_pos hmore]
  dsimp only
  rw [if_pos hblocks]
  show (let sent := a.bytesToSend (motrRead a.motr a.currentObject.objectOID a.lastIndex
      (a.blocksToRead * a.currentObject.unitSize))
    if a.dataSentToClient + sent.length = a.getRequestedContentLength then
      Outcome.done (a.body ++ sent)
    else if a.dataSentToClientForObject + sent.length ≠ a.currentObject.requestedObjectSize then
      Outcome.next (a.afterSending a.blocksToRead sent)
    else (a.afterSending a.blocksToRead sent).readNextObject) = _
  rw [hbytes]
  dsimp only
  by_cases hdone : a.getRequestedContentLength ≤ a.dataSentToClient + length
  · rw [if_pos hdone, if_pos hdone, length_motrRead, if_pos (by omega)]
  · have hle := sentOf_le a length
    rw [if_neg hdone, if_neg hdone, length_motrRead, if_neg (by omega)]
    rfl

variable {a : S3GetObjectAction}

theorem readObjectData_all_read (h : a.blocksAlreadyRead = a.totalBlocksToRead) :
    readObjectData a = a.readNextObject :=
  if_neg (not_not.mpr h)

theorem ends_iff_of_last_read (hmore : a.blocksAlreadyRead ≠ a.totalBlocksToRead)
    (hblocks : 0 < a.blocksToRead) {length : Nat}
    (hlength : a.blocksToRead * a.currentObject.unitSize = length + a.skipped)
    (hsent : a.dataSentToClient + length < a.getRequestedContentLength)
    (htotal : (a.blocksAlreadyRead + a.blocksToRead) % sizeMod = a.totalBlocksToRead) (w : Bytes) :
    Ends readObjectData a w ↔
      (a.advance a.blocksToRead (a.sentOf length)).readNextObject.Ends readObjectData w := by
  rw [ends_iff, readObjectData_read a hmore hblocks hlength (by omega),
    if_neg (Nat.not_le_of_lt hsent)]
  by_cases hreq : a.dataSentToClientForObject + a.sentOf length ≠
      a.currentObject.requestedObjectSize
  · rw [if_pos hreq]
    show Ends readObjectData (a.advance _ _) w ↔ _
    rw [ends_iff, readObjectData_all_read htotal]
  · rw [if_neg hreq]

/-! ### Block after block -/

/-- What a read does not change. -/
structure SameRequest (a a' : S3GetObjectAction) : Prop where
  motr : a'.motr = a.motr
  units : a'.motrUnitsPerRequest = a.motrUnitsPerRequest
  firstRead : a'.motrFirstReadSize = a.motrFirstReadSize
  first : a'.firstByteOffsetToRead = a.firstByteOffsetToRead
  last : a'.lastByteOffsetToRead = a.lastByteOffsetToRead
  objects : a'.extendedObjects = a.extendedObjects
  fragment : a'.nextFragmentObject = a.nextFragmentObject
  total : a'.totalBlocksToRead = a.totalBlocksToRead

variable {a' : S3GetObjectAction}

theorem SameRequest.trans {a'' : S3GetObjectAction} (h : SameRequest a a') (h' : SameRequest a' a'') :
    SameRequest a a'' :=
  ⟨h'.motr.trans h.motr, h'.units.trans h.units, h'.firstRead.trans h.firstRead,
    h'.first.trans h.first, h'.last.trans h.last, h'.objects.trans h.objects,
    h'.fragment.trans h.fragment, h'.total.trans h.total⟩

theorem sameRequest_advance (a : S3GetObjectAction) (r n : Nat) : SameRequest a (a.advance r n) :=
  ⟨rfl, rfl, rfl, rfl, rfl, rfl, rfl, rfl⟩

theorem SameRequest.requested (h : SameRequest a a') :
    a'.getRequestedContentLength = a.getRequestedContentLength := by
  unfold getRequestedContentLength
  rw [h.first, h.last]

theorem advance_sent (a : S3GetObjectAction) (r n : Nat) :
    (a.advance r n).dataSentToClient = a.dataSentToClient + n := by
  show a.dataSentToClient + List.length _ = _
  rw [length_motrRead]

theorem advance_sentForObject (a : S3GetObjectAction) (r n : Nat) :
    (a.advance r n).dataSentToClientForObject = a.dataSentToClientForObject + n := by
  show a.dataSentToClientForObject + List.length _ = _
  rw [length_motrRead]

/-- In the middle of an object: `k` blocks of it were read, all of it sent but for the first `d`
bytes, and `before` bytes of earlier objects. -/
structure Mid (a : S3GetObjectAction) (d before k : Nat) : Prop where
  already : a.blocksAlreadyRead = k
  left : d ≤ k * a.currentObject.unitSize
  sentForObject : a.dataSentToClientForObject = k * a.currentObject.unitSize - d
  sent : a.dataSentToClient = before + (k * a.currentObject.unitSize - d)
  sent_pos : 0 < a.dataSentToClient
  later : k ≠ 0 ∨ (a.nextFragmentObject ≠ 0 ∧ a.lastIndex = 0)

section Loop

variable {a : S3GetObjectAction} {d before k : Nat}

section

variable (h : Mid a d before k)

include h

theorem Mid.skipped : a.skipped = 0 := by
  unfold S3GetObjectAction.skipped
  exact if_neg (Nat.pos_iff_ne_zero.mp h.sent_pos)

theorem Mid.blocksToRead (hk : k < a.totalBlocksToRead)
    (htotal : a.totalBlocksToRead < sizeMod) :
    a.blocksToRead = min a.motrUnitsPerRequest (a.totalBlocksToRead - k) := by
  have hsub : subSize a.totalBlocksToRead a.blocksAlreadyRead = a.totalBlocksToRead - k := by
    rw [h.already, subSize_of_le (by omega) htotal]
  have hfirst : ¬ (a.blocksAlreadyRead = 0 ∧ a.nextFragmentObject = 0 ∧
      a.motrUnitsPerRequest * a.currentObject.unitSize < a.getRequestedContentLength) := by
    intro hc
    rcases h.later with hne | hne
    · exact hne (h.already ▸ hc.1)
    · exact hne.1 hc.2.1
  have hstart : ∀ n, ¬ (a.blocksAlreadyRead = 0 ∧ a.lastIndex % sizeMod ≠ 0 ∧
      a.currentObject.totalReadableBlocks < n) := by
    intro n hc
    rcases h.later with hne | hne
    · exact hne (h.already ▸ hc.1)
    · exact hc.2.1 (by rw [hne.2, Nat.zero_mod])
  unfold S3GetObjectAction.blocksToRead
  dsimp only
  rw [if_neg hfirst, if_neg (hstart _), hsub]
  by_cases hlt : a.motrUnitsPerRequest < a.totalBlocksToRead - k
  · rw [if_pos hlt, Nat.min_eq_left (by omega)]
  · rw [if_neg hlt, Nat.min_eq_right (by omega)]

theorem Mid.advance {r : Nat} (hr : 0 < r) (hlt : k + r < sizeMod) :
    Mid (a.advance r (r * a.currentObject.unitSize)) d before (k + r) := by
  have hmul : (k + r) * a.currentObject.unitSize =
      k * a.currentObject.unitSize + r * a.currentObject.unitSize := Nat.add_mul _ _ _
  have hsum : k * a.currentObject.unitSize - d + r * a.currentObject.unitSize =
      (k + r) * a.currentObject.unitSize - d := by
    have := h.left
    omega
  refine ⟨?_, ?_, ?_, ?_, ?_, ?_⟩
  · show (a.blocksAlreadyRead + r) % sizeMod = k + r
    rw [h.already, Nat.mod_eq_of_lt hlt]
  · show d ≤ (k + r) * a.currentObject.unitSize
    have := h.left
    omega
  · rw [advance_sentForObject, h.sentForObject, hsum]
    rfl
  · rw [advance_sent, h.sent, Nat.add_assoc, hsum]
    rfl
  · rw [advance_sent]
    have := h.sent_pos
    omega
  · exact Or.inl (by omega)

theorem Mid.advance_body (r n : Nat) :
    (a.advance r n).body = a.body ++ motrRead a.motr a.currentObject.objectOID a.lastIndex n := by
  show a.body ++ motrRead _ _ (a.lastIndex + a.skipped) n = _
  rw [h.skipped]
  rfl

/-- The read that comes next in the middle of an object. -/
theorem Mid.read (hk : k < a.totalBlocksToRead) (hpos : 0 < a.blocksToRead)
    (hsent : a.dataSentToClient < a.getRequestedContentLength) :
    readObjectData a =
      if a.getRequestedContentLength ≤
          a.dataSentToClient + a.blocksToRead * a.currentObject.unitSize then
        .done (a.body ++ motrRead a.motr a.currentObject.objectOID a.lastIndex
          (a.getRequestedContentLength - a.dataSentToClient))
      else if a.dataSentToClientForObject + a.sentOf (a.blocksToRead * a.currentObject.unitSize) ≠
          a.currentObject.requestedObjectSize then
        .next (a.advance a.blocksToRead (a.sentOf (a.blocksToRead * a.currentObject.unitSize)))
      else (a.advance a.blocksToRead
        (a.sentOf (a.blocksToRead * a.currentObject.unitSize))).readNextObject := by
  have hmore : a.blocksAlreadyRead ≠ a.totalBlocksToRead := by
    rw [h.already]
    omega
  have hlength : a.blocksToRead * a.currentObject.unitSize =
      a.blocksToRead * a.currentObject.unitSize + a.skipped := by
    rw [h.skipped]
    rfl
  rw [readObjectData_read a hmore hpos hlength hsent, h.skipped]
  rfl

end

/-- **The rest of a range that ends in what is read of this object is sent**, if neither the size of
the object nor what is wanted of it cuts a read before.  The induction is on the blocks that are
left. -/
theorem ends_of_mid (hunits : 0 < a.motrUnitsPerRequest)
    (htotal : a.totalBlocksToRead < sizeMod) (h : Mid a d before k)
    (hsent : a.dataSentToClient < a.getRequestedContentLength)
    (henough : a.getRequestedContentLength ≤
      before + (a.totalBlocksToRead * a.currentObject.unitSize - d))
    (huncut : ∀ n < a.totalBlocksToRead,
      before + (n * a.currentObject.unitSize - d) < a.getRequestedContentLength →
      n * a.currentObject.unitSize - d < a.currentObject.objectSize ∧
        n * a.currentObject.unitSize - d ≠ a.currentObject.requestedObjectSize) :
    Ends readObjectData a (a.body ++ motrRead a.motr a.currentObject.objectOID a.lastIndex
      (a.getRequestedContentLength - a.dataSentToClient)) := by
  induction hn : a.totalBlocksToRead - k using Nat.strong_induction_on generalizing a k with
  | _ n ih =>
    have hleft := h.left
    have hk : k < a.totalBlocksToRead := by
      by_contra hge
      have hmul : a.totalBlocksToRead * a.currentObject.unitSize ≤ k * a.currentObject.unitSize :=
        Nat.mul_le_mul_right _ (Nat.le_of_not_lt hge)
      have := h.sent
      omega
    have hblocks := h.blocksToRead hk htotal
    have hpos : 0 < a.blocksToRead := by omega
    have hle : a.blocksToRead ≤ a.totalBlocksToRead - k := by omega
    rw [ends_iff, h.read hk hpos hsent]
    by_cases hdone : a.getRequestedContentLength ≤
        a.dataSentToClient + a.blocksToRead * a.currentObject.unitSize
    · rw [if_pos hdone]
      rfl
    · have h1 := h.sent
      have h2 := h.sentForObject
      have hmul : (k + a.blocksToRead) * a.currentObject.unitSize =
          k * a.currentObject.unitSize + a.blocksToRead * a.currentObject.unitSize :=
        Nat.add_mul _ _ _
      have hlt : k + a.blocksToRead < a.totalBlocksToRead := by
        by_contra hge
        rw [show k + a.blocksToRead = a.totalBlocksToRead by omega] at hmul
        omega
      obtain ⟨hcut, hwanted⟩ := huncut _ hlt (by omega)
      have hsentOf : a.sentOf (a.blocksToRead * a.currentObject.unitSize) =
          a.blocksToRead * a.currentObject.unitSize := by
        unfold sentOf
        rw [if_neg]
        omega
      have hne : a.dataSentToClientForObject + a.blocksToRead * a.currentObject.unitSize ≠
          a.currentObject.requestedObjectSize := by
        omega
      rw [if_neg hdone, hsentOf, if_pos hne]
      have hnext := ih (a.totalBlocksToRead - (k + a.blocksToRead)) (by omega)
        (a := a.advance a.blocksToRead (a.blocksToRead * a.currentObject.unitSize))
        hunits htotal (h.advance hpos (by omega))
        (by rw [advance_sent]; exact Nat.lt_of_not_le hdone) henough huncut rfl
      show Ends readObjectData (a.advance _ _) _
      rw [h.advance_body, advance_sent, append_assoc] at hnext
      rw [← motrRead_split _ _ _ (show a.blocksToRead * a.currentObject.unitSize ≤
        a.getRequestedContentLength - a.dataSentToClient by omega), Nat.sub_sub]
      exact hnext

/-- **An object that the range goes beyond is sent to its end.**  Only the last read reaches the
end of the object. -/
theorem ends_iff_of_mid (hunits : 0 < a.motrUnitsPerRequest)
    (htotal : a.totalBlocksToRead < sizeMod) (h : Mid a d before k) (hk : k < a.totalBlocksToRead)
    (size : Nat)
    (hsize : size = min a.currentObject.objectSize
      (a.totalBlocksToRead * a.currentObject.unitSize - d))
    (hbeyond : before + (a.totalBlocksToRead * a.currentObject.unitSize - d) <
      a.getRequestedContentLength)
    (hlast : (a.totalBlocksToRead - 1) * a.currentObject.unitSize - d < size)
    (hreq : (a.totalBlocksToRead - 1) * a.currentObject.unitSize - d <
      a.currentObject.requestedObjectSize) :
    ∃ a', SameRequest a a' ∧ a'.dataSentToClient = before + size ∧
      a'.body = a.body ++ motrRead a.motr a.currentObject.objectOID a.lastIndex
        (size - a.dataSentToClientForObject) ∧
      ∀ w, Ends readObjectData a w ↔ (readNextObject a').Ends readObjectData w := by
  induction hn : a.totalBlocksToRead - k using Nat.strong_induction_on generalizing a k with
  | _ n ih =>
    have hleft := h.left
    have h1 := h.sent
    have h2 := h.sentForObject
    have hblocks := h.blocksToRead hk htotal
    have hpos : 0 < a.blocksToRead := by omega
    have hle : k + a.blocksToRead ≤ a.totalBlocksToRead := by omega
    have hmul : (k + a.blocksToRead) * a.currentObject.unitSize =
        k * a.currentObject.unitSize + a.blocksToRead * a.currentObject.unitSize := Nat.add_mul _ _ _
    have hmulle : (k + a.blocksToRead) * a.currentObject.unitSize ≤
        a.totalBlocksToRead * a.currentObject.unitSize := Nat.mul_le_mul_right _ hle
    have hkle : k * a.currentObject.unitSize ≤
        (a.totalBlocksToRead - 1) * a.currentObject.unitSize :=
      Nat.mul_le_mul_right _ (by omega)
    have hdone : ¬ a.getRequestedContentLength ≤
        a.dataSentToClient + a.blocksToRead * a.currentObject.unitSize := by omega
    have hstep := h.read hk hpos (by omega)
    rw [if_neg hdone] at hstep
    by_cases hfull : k + a.blocksToRead = a.totalBlocksToRead
    · -- the last read of the object
      rw [hfull] at hmul
      have hsentOf : a.dataSentToClientForObject +
          a.sentOf (a.blocksToRead * a.currentObject.unitSize) = size := by
        unfold sentOf
        split <;> omega
      refine ⟨_, sameRequest_advance a a.blocksToRead
        (a.sentOf (a.blocksToRead * a.currentObject.unitSize)), ?_, ?_, ?_⟩
      · rw [advance_sent]
        omega
      · rw [h.advance_body]
        congr 2
        omega
      · intro w
        apply ends_iff_of_last_read _ hpos _ (Nat.lt_of_not_le hdone)
        · rw [h.already, hfull, Nat.mod_eq_of_lt htotal]
        · rw [h.already]
          omega
        · rw [h.skipped]
          rfl
    · have hle' : (k + a.blocksToRead) * a.currentObject.unitSize ≤
          (a.totalBlocksToRead - 1) * a.currentObject.unitSize :=
        Nat.mul_le_mul_right _ (by omega)
      have hsentOf : a.sentOf (a.blocksToRead * a.currentObject.unitSize) =
          a.blocksToRead * a.currentObject.unitSize := by
        unfold sentOf
        rw [if_neg]
        omega
      rw [hsentOf, if_pos (by omega)] at hstep
      obtain ⟨a', hsame, hsent, hbody, hends⟩ :=
        ih (a.totalBlocksToRead - (k + a.blocksToRead)) (by omega)
        (a := a.advance a.blocksToRead (a.blocksToRead * a.currentObject.unitSize))
        hunits htotal (h.advance hpos (by omega)) (by show k + a.blocksToRead < a.totalBlocksToRead; omega)
        hsize hbeyond hlast hreq rfl
      refine ⟨a', (sameRequest_advance _ _ _).trans hsame, hsent, ?_, ?_⟩
      · rw [hbody, h.advance_body, advance_sentForObject, append_assoc]
        rw [← motrRead_split _ _ _ (show a.blocksToRead * a.currentObject.unitSize ≤
          size - a.dataSentToClientForObject by omega), Nat.sub_sub]
        rfl
      · intro w
        rw [ends_iff, hstep]
        exact hends w

end Loop

/-! ### Part after part -/

/-- The bytes of the parts, from Motr object `i` on. -/
def bytesFrom (motr : MotrObjects) : Nat → List PartLayout → Bytes
  | _, [] => []
  | i, p :: rest => motrRead motr i 0 p.size ++ bytesFrom motr (i + 1) rest

/-- What the action knows of a part at the start. -/
def partInfo (i offset : Nat) (p : PartLayout) : S3ExtendedObjectInfo :=
  { startOffsetInObject := offset
    totalBlocksInObject := blocks p
    objectSize := p.size
    requestedObjectSize := p.size
    objectOID := i
    unitSize := p.unitSize }

/-- The objects behind the first one when `m` bytes are wanted of them. -/
def planned : Nat → Nat → Nat → List PartLayout → List S3ExtendedObjectInfo
  | _, _, _, [] => []
  | i, offset, m, p :: rest =>
    if m ≤ p.size then
      [{ partInfo i offset p with
          requestedObjectSize := m
          totalReadableBlocks := (m - 1) / p.unitSize + 1 }]
    else { partInfo i offset p with totalReadableBlocks := blocks p } ::
      planned (i + 1) (offset + p.size) (m - p.size) rest

/-- In no part before the last one does the padding reach the end of the range. -/
def RangeFits : Nat → List PartLayout → Prop
  | _, [] => False
  | m, p :: rest =>
    m ≤ p.size ∨ (blocks p * p.unitSize < m ∧ RangeFits (m - p.size) rest)

variable {m : Nat}

variable {i offset : Nat}

theorem planned_ne_nil {rest : List PartLayout} (h : rest ≠ []) : planned i offset m rest ≠ [] := by
  cases rest with
  | nil => exact absurd rfl h
  | cons p rest =>
    unfold planned
    split <;> exact cons_ne_nil _ _

/-- An object that is about to be read. -/
structure Fresh (a : S3GetObjectAction) : Prop where
  already : a.blocksAlreadyRead = 0
  sentForObject : a.dataSentToClientForObject = 0
  total : a.totalBlocksToRead = a.currentObject.totalReadableBlocks
  units : 0 < a.motrUnitsPerRequest

/-- An object behind the first one is about to be read. -/
structure Behind (a : S3GetObjectAction) : Prop where
  fresh : Fresh a
  fragment : a.nextFragmentObject ≠ 0
  index : a.lastIndex = 0
  sent_pos : 0 < a.dataSentToClient

theorem Behind.mid (h : Behind a) : Mid a 0 a.dataSentToClient 0 := by
  refine ⟨h.fresh.already, Nat.zero_le _, ?_, ?_, h.sent_pos, Or.inr ⟨h.fragment, h.index⟩⟩
  · rw [h.fresh.sentForObject, Nat.zero_mul]
  · rw [Nat.zero_mul]
    rfl

variable {o : S3ExtendedObjectInfo} {rest : List S3ExtendedObjectInfo}

theorem currentObject_of_drop (h : a.extendedObjects.drop a.nextFragmentObject = o :: rest) :
    a.currentObject = o := by
  have hget : a.extendedObjects[a.nextFragmentObject]? = some o := by
    rw [← List.head?_drop, h]
    rfl
  unfold currentObject
  rw [getD_eq_getElem?_getD, hget]
  rfl

theorem readFragmentedObject_lastIndex (h : a.nextFragmentObject ≠ 0) :
    a.readFragmentedObject.lastIndex = 0 :=
  if_neg h

/-- The next object of the list, once this one is sent. -/
theorem readNextObject_of_drop (h : a.extendedObjects.drop a.nextFragmentObject = o :: rest)
    (hne : rest ≠ []) (hsent : 0 < a.dataSentToClient) (hunits : 0 < a.motrUnitsPerRequest) :
    ∃ a', a.readNextObject = .next a' ∧ Behind a' ∧ a'.motr = a.motr ∧
      a'.dataSentToClient = a.dataSentToClient ∧ a'.body = a.body ∧
      a'.getRequestedContentLength = a.getRequestedContentLength ∧
      a'.extendedObjects.drop a'.nextFragmentObject = rest := by
  have hdrop : a.extendedObjects.drop (a.nextFragmentObject + 1) = rest := by
    rw [← drop_drop, h]
    rfl
  have hmore : a.nextFragmentObject + 1 < a.extendedObjects.length := by
    by_contra hlt
    apply hne
    rw [← hdrop]
    exact drop_eq_nil_of_le (Nat.le_of_not_lt hlt)
  refine ⟨_, if_pos hmore, ⟨⟨rfl, rfl, rfl, hunits⟩, Nat.succ_ne_zero _, ?_, hsent⟩, rfl, rfl, rfl,
    rfl, hdrop⟩
  exact readFragmentedObject_lastIndex (Nat.succ_ne_zero _)

/-- **A part that the range goes beyond is passed**, when its padding does not reach the end of the
range. -/
theorem pass_part (h : Behind a) {p : PartLayout}
    {objects : List S3ExtendedObjectInfo} (hne : objects ≠ [])
    (hobjects : a.extendedObjects.drop a.nextFragmentObject =
      { partInfo i offset p with totalReadableBlocks := blocks p } :: objects)
    (hsize : p.size < sizeMod)
    (hpad : a.dataSentToClient + blocks p * p.unitSize < a.getRequestedContentLength) :
    ∃ a', Behind a' ∧ a'.motr = a.motr ∧
      a'.dataSentToClient = a.dataSentToClient + p.size ∧
      a'.body = a.body ++ motrRead a.motr i 0 p.size ∧
      a'.getRequestedContentLength = a.getRequestedContentLength ∧
      a'.extendedObjects.drop a'.nextFragmentObject = objects ∧
      ∀ w, Ends readObjectData a w ↔ Ends readObjectData a' w := by
  have hcurrent := currentObject_of_drop hobjects
  have htotal : a.totalBlocksToRead = blocks p := by
    rw [h.fresh.total, hcurrent]
  have hunit : a.currentObject.unitSize = p.unitSize := by
    rw [hcurrent]
    rfl
  have hle := size_le_blocks p
  have hlt := blocks_lt_size p
  have hbpos := blocks_pos p
  have hbsize := blocks_le_size p
  obtain ⟨a', hsame, hsent, hbody, hends⟩ := ends_iff_of_mid h.fresh.units
    (by omega) h.mid (by omega) p.size
    (by rw [htotal, hunit, hcurrent]
        show p.size = min p.size (blocks p * p.unitSize - 0)
        omega)
    (by rw [htotal, hunit]
        omega)
    (by rw [htotal, hunit, Nat.sub_mul]
        omega)
    (by rw [htotal, hunit, Nat.sub_mul, hcurrent]
        show _ < p.size
        omega)
  rw [← hsame.objects, ← hsame.fragment] at hobjects
  obtain ⟨a'', hstep, hbehind, hmotr, hsent', hbody', hreq, hdrop⟩ :=
    readNextObject_of_drop hobjects hne (by omega) (by rw [hsame.units]; exact h.fresh.units)
  refine ⟨a'', hbehind, hmotr.trans hsame.motr, hsent'.trans hsent, ?_,
    hreq.trans hsame.requested, hdrop, ?_⟩
  · rw [hbody', hbody, h.index, h.fresh.sentForObject, hcurrent]
    rfl
  · intro w
    rw [hends, hstep]
    rfl

theorem take_bytesFrom (motr : MotrObjects) (i : Nat) (p : PartLayout) (rest : List PartLayout)
    (hm : p.size ≤ m) :
    (bytesFrom motr i (p :: rest)).take m =
      motrRead motr i 0 p.size ++ (bytesFrom motr (i + 1) rest).take (m - p.size) := by
  rw [show bytesFrom motr i (p :: rest) =
    motrRead motr i 0 p.size ++ bytesFrom motr (i + 1) rest from rfl,
    take_append, length_motrRead,
    take_of_length_le (by rw [length_motrRead]; exact hm)]

theorem take_bytesFrom_of_le (motr : MotrObjects) (i : Nat) (p : PartLayout)
    (rest : List PartLayout) (hm : m ≤ p.size) :
    (bytesFrom motr i (p :: rest)).take m = motrRead motr i 0 m := by
  unfold bytesFrom
  rw [take_append_of_le_length (by rw [length_motrRead]; exact hm), take_motrRead _ _ _ hm]

/-- **The parts behind the first one are sent one after another.**  The induction is on the parts
that are left, and `m` is how much is wanted of them. -/
theorem ends_of_planned :
    ∀ (rest : List PartLayout) (i offset m : Nat) (a : S3GetObjectAction), Behind a →
      a.extendedObjects.drop a.nextFragmentObject = planned i offset m rest →
      (∀ p ∈ rest, p.size < sizeMod) → 0 < m → RangeFits m rest →
      a.getRequestedContentLength = a.dataSentToClient + m →
      Ends readObjectData a (a.body ++ (bytesFrom a.motr i rest).take m) := by
  intro rest
  induction rest with
  | nil => intro i offset m a _ _ _ _ hfits; exact absurd hfits id
  | cons p rest ih =>
    intro i offset m a h hobjects hsizes hm hfits hreq
    have hsize := hsizes p mem_cons_self
    unfold planned at hobjects
    by_cases hlast : m ≤ p.size
    · -- the range ends in this part
      rw [if_pos hlast] at hobjects
      have hcurrent := currentObject_of_drop hobjects
      have htotal : a.totalBlocksToRead = (m - 1) / p.unitSize + 1 := by
        rw [h.fresh.total, hcurrent]
      have hunit : a.currentObject.unitSize = p.unitSize := by
        rw [hcurrent]
        rfl
      have hdiv := Nat.div_add_mod (m - 1) p.unitSize
      have hmod := Nat.mod_lt (m - 1) p.unit_pos
      have hquot := Nat.div_le_self (m - 1) p.unitSize
      have hends := ends_of_mid h.fresh.units (by omega) h.mid (by omega)
        (by rw [htotal, hunit, Nat.succ_mul, Nat.mul_comm]
            omega)
        (by intro n _ hn
            rw [hcurrent] at hn ⊢
            show n * p.unitSize - 0 < p.size ∧ n * p.unitSize - 0 ≠ m
            change a.dataSentToClient + (n * p.unitSize - 0) < _ at hn
            omega)
      have hoid : a.currentObject.objectOID = i := by
        rw [hcurrent]
        rfl
      rw [hoid, h.index, hreq, Nat.add_sub_cancel_left] at hends
      rw [take_bytesFrom_of_le _ _ _ _ hlast]
      exact hends
    · rw [if_neg hlast] at hobjects
      obtain ⟨hpad, hrest⟩ := hfits.resolve_left hlast
      have hne : rest ≠ [] := by
        rintro rfl
        exact hrest
      obtain ⟨a', h', hmotr, hsent, hbody, hreq', hdrop, hends⟩ :=
        pass_part h (planned_ne_nil hne) hobjects hsize (by omega)
      have hfollow := ih (i + 1) (offset + p.size) (m - p.size) a' h' hdrop
        (fun q hq => hsizes q (mem_cons_of_mem _ hq)) (by omega) hrest (by omega)
      rw [hends, take_bytesFrom _ _ _ _ (by omega), ← append_assoc, ← hbody, ← hmotr]
      exact hfollow

/-! ### The first part -/

/-- The first object of the range is about to be read, from the unit that holds byte `f` on. -/
structure Begin (a : S3GetObjectAction) (i f : Nat) (p : PartLayout) : Prop where
  fresh : Fresh a
  firstRead : 0 < a.motrFirstReadSize
  fragment : a.nextFragmentObject = 0
  sent : a.dataSentToClient = 0
  body : a.body = []
  oid : a.currentObject.objectOID = i
  unit : a.currentObject.unitSize = p.unitSize
  size : a.currentObject.objectSize = p.size
  inside : f < p.size
  index : a.lastIndex = f / p.unitSize * p.unitSize
  inside_lt : f < sizeMod
  total_pos : 0 < a.totalBlocksToRead
  total_lt : a.totalBlocksToRead < sizeMod

/-- And what is before byte `f` is cut off. -/
structure Start (a : S3GetObjectAction) (i f : Nat) (p : PartLayout) : Prop
    extends Begin a i f p where
  skipped : a.skipped = f % p.unitSize

/-- The first read goes beyond the object. -/
def OverRead (a : S3GetObjectAction) : Prop :=
  a.lastIndex = 0 ∧
    a.motrUnitsPerRequest * a.currentObject.unitSize < a.getRequestedContentLength ∧
    a.totalBlocksToRead < min a.motrUnitsPerRequest a.motrFirstReadSize

section First

variable {a : S3GetObjectAction} {i f : Nat} {p : PartLayout}

theorem Begin.blocksToRead (h : Begin a i f p) :
    a.blocksToRead =
      (let b := if a.motrUnitsPerRequest * p.unitSize < a.getRequestedContentLength then
          min a.motrUnitsPerRequest a.motrFirstReadSize
        else min a.motrUnitsPerRequest a.totalBlocksToRead
      if a.lastIndex ≠ 0 ∧ a.totalBlocksToRead < b then a.totalBlocksToRead else b) := by
  have hsub : subSize a.totalBlocksToRead a.blocksAlreadyRead = a.totalBlocksToRead := by
    rw [h.fresh.already, subSize_of_le (Nat.zero_le _) h.total_lt, Nat.sub_zero]
  have hindex : a.lastIndex % sizeMod = a.lastIndex := by
    apply Nat.mod_eq_of_lt
    have hle := Nat.div_mul_le_self f p.unitSize
    have hlt := h.inside_lt
    rw [h.index]
    omega
  have hmin : ∀ x y : Nat, (if x < y then x else y) = min x y := by
    intro x y
    split <;> omega
  unfold S3GetObjectAction.blocksToRead
  dsimp only
  rw [hsub, hindex, h.unit, hmin, hmin, ← h.fresh.total]
  simp only [h.fresh.already, h.fragment, true_and]

theorem Begin.blocksToRead_pos (h : Begin a i f p) : 0 < a.blocksToRead := by
  have hu := h.fresh.units
  have hf := h.firstRead
  have ht := h.total_pos
  rw [h.blocksToRead]
  dsimp only
  split <;> split <;> omega

section

variable (h : Start a i f p)

include h

/-- Either the first read stays inside the object, or it is as long as a first read is. -/
theorem Start.blocksToRead_le (hover : ¬ OverRead a) :
    a.blocksToRead ≤ a.totalBlocksToRead := by
  unfold OverRead at hover
  rw [h.unit] at hover
  rw [h.blocksToRead]
  dsimp only
  split <;> split <;> omega

theorem Start.blocksToRead_of_overRead (hover : OverRead a) :
    a.blocksToRead = min a.motrUnitsPerRequest a.motrFirstReadSize := by
  obtain ⟨hindex, hlong, _⟩ := hover
  rw [h.unit] at hlong
  rw [h.blocksToRead]
  dsimp only
  rw [if_pos hlong, if_neg (fun hc => hc.1 hindex)]

theorem Start.index_add_skipped : a.lastIndex + a.skipped = f := by
  rw [h.index, h.skipped, Nat.mul_comm]
  exact Nat.div_add_mod f p.unitSize

theorem Start.skipped_lt : a.skipped < p.unitSize := by
  rw [h.skipped]
  exact Nat.mod_lt _ p.unit_pos

theorem Start.length :
    a.blocksToRead * a.currentObject.unitSize =
      (a.blocksToRead * p.unitSize - a.skipped) + a.skipped := by
  have hlt := h.skipped_lt
  have hle : p.unitSize ≤ a.blocksToRead * p.unitSize :=
    Nat.le_mul_of_pos_left _ h.blocksToRead_pos
  rw [h.unit]
  omega

end

theorem Begin.more (h : Begin a i f p) : a.blocksAlreadyRead ≠ a.totalBlocksToRead := by
  rw [h.fresh.already]
  exact Nat.ne_of_lt h.total_pos

section

variable (h : Start a i f p)

include h

theorem Start.mid (hlt : a.blocksToRead < sizeMod) :
    Mid (a.advance a.blocksToRead (a.blocksToRead * p.unitSize - a.skipped)) a.skipped 0
      a.blocksToRead := by
  have hskip := h.skipped_lt
  have hpos := h.blocksToRead_pos
  have hle : p.unitSize ≤ a.blocksToRead * p.unitSize := Nat.le_mul_of_pos_left _ hpos
  have hunit : (a.advance a.blocksToRead
      (a.blocksToRead * p.unitSize - a.skipped)).currentObject.unitSize = p.unitSize := h.unit
  refine ⟨?_, ?_, ?_, ?_, ?_, Or.inl (by omega)⟩
  · show (a.blocksAlreadyRead + a.blocksToRead) % sizeMod = a.blocksToRead
    rw [h.fresh.already, Nat.zero_add, Nat.mod_eq_of_lt hlt]
  · rw [hunit]
    omega
  · rw [hunit, advance_sentForObject, h.fresh.sentForObject, Nat.zero_add]
  · rw [hunit, advance_sent, h.sent]
  · rw [advance_sent, h.sent]
    omega

theorem Start.advance_body (r n : Nat) :
    (a.advance r n).body = motrRead a.motr i f n := by
  show a.body ++ motrRead a.motr a.currentObject.objectOID (a.lastIndex + a.skipped) n = _
  rw [h.body, h.oid, h.index_add_skipped, nil_append]

theorem Start.advance_lastIndex :
    (a.advance a.blocksToRead (a.blocksToRead * p.unitSize - a.skipped)).lastIndex =
      f + (a.blocksToRead * p.unitSize - a.skipped) := by
  show a.lastIndex + a.blocksToRead * a.currentObject.unitSize = _
  have hadd := h.index_add_skipped
  have hlen := h.length
  omega

/-- **A range that ends in what is read of the first part is sent.** -/
theorem ends_of_start
    (henough : a.getRequestedContentLength + a.skipped ≤ a.totalBlocksToRead * p.unitSize)
    (huncut : ∀ n < a.totalBlocksToRead, n * p.unitSize - a.skipped < a.getRequestedContentLength →
      n * p.unitSize - a.skipped < p.size ∧
        n * p.unitSize - a.skipped ≠ a.currentObject.requestedObjectSize) :
    Ends readObjectData a (motrRead a.motr i f a.getRequestedContentLength) := by
  have hover : ¬ OverRead a := by
    intro hc
    have hmul : a.totalBlocksToRead * p.unitSize ≤ a.motrUnitsPerRequest * p.unitSize :=
      Nat.mul_le_mul_right _ (by have := hc.2.2; omega)
    have hlong := hc.2.1
    rw [h.unit] at hlong
    omega
  have hle := h.blocksToRead_le hover
  have hpos : 0 < a.getRequestedContentLength := Nat.succ_pos _
  have htotal := h.total_lt
  have hskip := h.skipped_lt
  have hread := readObjectData_read a h.more h.blocksToRead_pos h.length (by rw [h.sent]; exact hpos)
  rw [h.sent, h.fresh.sentForObject, Nat.zero_add, Nat.zero_add] at hread
  by_cases hdone : a.getRequestedContentLength ≤ a.blocksToRead * p.unitSize - a.skipped
  · rw [ends_iff, hread, if_pos hdone, h.body, h.oid, h.index_add_skipped]
    rfl
  · have hlt : a.blocksToRead < a.totalBlocksToRead := by
      by_contra hge
      rw [show a.blocksToRead = a.totalBlocksToRead by omega] at hdone
      omega
    obtain ⟨hcut, hwanted⟩ := huncut _ hlt (by omega)
    have hsentOf : a.sentOf (a.blocksToRead * p.unitSize - a.skipped) =
        a.blocksToRead * p.unitSize - a.skipped := by
      unfold sentOf
      rw [h.size, h.fresh.sentForObject, if_neg (by omega)]
    rw [if_neg hdone, hsentOf, if_pos hwanted] at hread
    have hends := ends_of_mid
      (a := a.advance a.blocksToRead (a.blocksToRead * p.unitSize - a.skipped))
      h.fresh.units htotal (h.mid (by omega))
      (by rw [advance_sent, h.sent]
          show 0 + _ < a.getRequestedContentLength
          omega)
      (by show a.getRequestedContentLength ≤
            0 + (a.totalBlocksToRead * a.currentObject.unitSize - a.skipped)
          rw [h.unit]
          omega)
      (by show ∀ n < a.totalBlocksToRead,
            0 + (n * a.currentObject.unitSize - a.skipped) < a.getRequestedContentLength →
            n * a.currentObject.unitSize - a.skipped < a.currentObject.objectSize ∧
              n * a.currentObject.unitSize - a.skipped ≠ a.currentObject.requestedObjectSize
          intro n hn hlen
          rw [h.unit] at hlen ⊢
          rw [h.size]
          exact huncut n hn (by omega))
    rw [h.advance_body, h.advance_lastIndex, advance_sent, h.sent, Nat.zero_add] at hends
    rw [ends_iff, hread]
    rw [← motrRead_split _ _ _ (show a.blocksToRead * p.unitSize - a.skipped ≤
      a.getRequestedContentLength by omega), ← h.oid]
    rw [← h.oid] at hends
    exact hends

/-- **The first part is passed** by reads that stay inside it; `size` bytes of it are sent. -/
theorem pass_start (hover : ¬ OverRead a) (size : Nat)
    (hsize : size = min p.size (a.totalBlocksToRead * p.unitSize - a.skipped))
    (hbeyond : a.totalBlocksToRead * p.unitSize - a.skipped < a.getRequestedContentLength)
    (hlast : (a.totalBlocksToRead - 1) * p.unitSize - a.skipped < size)
    (hreq : (a.totalBlocksToRead - 1) * p.unitSize - a.skipped <
      a.currentObject.requestedObjectSize) :
    ∃ a', SameRequest a a' ∧ a'.dataSentToClient = size ∧
      a'.body = motrRead a.motr i f (size) ∧
      ∀ w, Ends readObjectData a w ↔ (readNextObject a').Ends readObjectData w := by
  have hle := h.blocksToRead_le hover
  have htotal := h.total_lt
  have hskip := h.skipped_lt
  have hmulle : a.blocksToRead * p.unitSize ≤ a.totalBlocksToRead * p.unitSize :=
    Nat.mul_le_mul_right _ hle
  have hsent : a.dataSentToClient + (a.blocksToRead * p.unitSize - a.skipped) <
      a.getRequestedContentLength := by
    rw [h.sent]
    omega
  by_cases hfull : a.blocksToRead = a.totalBlocksToRead
  · -- one read is enough
    have hsentOf : a.sentOf (a.blocksToRead * p.unitSize - a.skipped) = size := by
      unfold sentOf
      rw [h.size, h.fresh.sentForObject, hfull]
      split <;> omega
    refine ⟨_, sameRequest_advance a a.blocksToRead (size), ?_, h.advance_body _ _, ?_⟩
    · rw [advance_sent, h.sent, Nat.zero_add]
    · intro w
      have hends := ends_iff_of_last_read h.more h.blocksToRead_pos h.length hsent
        (by rw [h.fresh.already, hfull, Nat.zero_add, Nat.mod_eq_of_lt htotal]) w
      rw [hsentOf] at hends
      exact hends
  · have hmul : a.blocksToRead * p.unitSize ≤ (a.totalBlocksToRead - 1) * p.unitSize :=
      Nat.mul_le_mul_right _ (by omega)
    have hsentOf : a.sentOf (a.blocksToRead * p.unitSize - a.skipped) =
        a.blocksToRead * p.unitSize - a.skipped := by
      unfold sentOf
      rw [h.size, h.fresh.sentForObject, if_neg (by omega)]
    have hread := readObjectData_read a h.more h.blocksToRead_pos h.length (by omega)
    rw [if_neg (Nat.not_le_of_lt hsent), hsentOf, h.fresh.sentForObject,
      if_pos (by omega)] at hread
    obtain ⟨a', hsame, hsent', hbody, hends⟩ := ends_iff_of_mid
      (a := a.advance a.blocksToRead (a.blocksToRead * p.unitSize - a.skipped))
      h.fresh.units htotal (h.mid (by omega))
      (show a.blocksToRead < a.totalBlocksToRead by omega) (size)
      (by show size = min a.currentObject.objectSize
            (a.totalBlocksToRead * a.currentObject.unitSize - a.skipped)
          rw [h.size, h.unit]
          exact hsize)
      (by show 0 + (a.totalBlocksToRead * a.currentObject.unitSize - a.skipped) <
            a.getRequestedContentLength
          rw [h.unit]
          omega)
      (by show (a.totalBlocksToRead - 1) * a.currentObject.unitSize - a.skipped < size
          rw [h.unit]
          exact hlast)
      (by show (a.totalBlocksToRead - 1) * a.currentObject.unitSize - a.skipped <
            a.currentObject.requestedObjectSize
          rw [h.unit]
          exact hreq)
    refine ⟨a', (sameRequest_advance _ _ _).trans hsame, by omega, ?_, ?_⟩
    · rw [hbody, h.advance_body, h.advance_lastIndex, advance_sentForObject,
        h.fresh.sentForObject, Nat.zero_add]
      rw [← motrRead_split _ _ _ (show a.blocksToRead * p.unitSize - a.skipped ≤ size by omega),
        ← h.oid]
      rfl
    · intro w
      rw [ends_iff, hread]
      exact hends w

end

end First

end S3GetObjectAction

end CortxS3
