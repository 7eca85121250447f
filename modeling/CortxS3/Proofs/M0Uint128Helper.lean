/-
Which texts are read back as they should be.

A text is read back lawfully if nothing is copied that there is no room for, what an encoder wrote
comes back as it was, and anything else comes back as zero (`Lawful`).

The conversions of ids and of pool versions look at the length of what they decoded, and never copy
too much.  They do not look at the text: what the decoder puts up with, blanks, text behind the
padding, bits that no byte takes, is accepted as an id that nobody wrote.  The conversion of an
index layout does not look at anything.
-/
import CortxS3.Server.M0Uint128Helper
import CortxS3.Proofs.Base64

namespace CortxS3

open List

namespace S3M0Uint128Helper

/-! ### Copying -/

theorem copyTo_of_length {n : Nat} (dst : Raw n) {src : Bytes} (h : src.length = n) :
    copyTo dst src = ⟨src, h⟩ := by
  apply Subtype.ext
  have hdrop : dst.1.drop src.length = [] := drop_eq_nil_of_le (by rw [dst.2, h])
  show (src ++ dst.1.drop src.length).take n = src
  rw [hdrop, append_nil, ← h, take_length]

/-- Bytes that are all zero. -/
def Zeros (b : Bytes) : Prop := ∀ c ∈ b, c = 0

theorem eq_zero_iff {n : Nat} {b : Bytes} (h : b.length = n) :
    (⟨b, h⟩ : Raw n) = Raw.zero n ↔ Zeros b := by
  constructor
  · intro heq c hc
    have hval : b = List.replicate n 0 := congrArg Subtype.val heq
    rw [hval] at hc
    exact eq_of_mem_replicate hc
  · intro hz
    exact Subtype.ext (eq_replicate_iff.mpr ⟨h, hz⟩)

theorem copyTo_zero_iff {n : Nat} {src : Bytes} (h : src.length ≤ n) :
    copyTo (Raw.zero n) src = Raw.zero n ↔ Zeros src := by
  have hval : (copyTo (Raw.zero n) src).1 = src ++ List.replicate (n - src.length) 0 := by
    show (src ++ (List.replicate n 0).drop src.length).take n = _
    rw [drop_replicate, take_of_length_le]
    rw [length_append, length_replicate]
    omega
  constructor
  · intro heq c hc
    have hmem : c ∈ (copyTo (Raw.zero n) src).1 := by
      rw [hval]
      exact mem_append_left _ hc
    rw [heq] at hmem
    exact eq_of_mem_replicate hmem
  · intro hz
    apply Subtype.ext
    rw [hval, eq_replicate_iff.mpr ⟨rfl, hz⟩, length_replicate]
    show _ = List.replicate n 0
    rw [← replicate_add]
    congr 1
    omega

/-! ### The law -/

/-- **A text read back lawfully**: no copy is longer than its room, what was encoded comes back, and
what nobody encoded comes back as zero. -/
structure Lawful {α τ : Type} (toText : α → τ) (zero : α) (text : τ) (r : Conversion α) : Prop where
  inBounds : ∀ c ∈ r.copies, c.count ≤ c.room
  exact : ∀ v, toText v = text → r.value = v
  failed : (∀ v, toText v ≠ text) → r.value = zero

/-- A text as the encoder writes it. -/
def Canonical (text : Bytes) : Prop := base64Encode (base64Decode text) = text
deriving Decidable

theorem exists_encode_iff {n : Nat} {text : Bytes} :
    (∃ v : Raw n, base64Encode v.1 = text) ↔ (base64Decode text).length = n ∧ Canonical text := by
  constructor
  · rintro ⟨v, rfl⟩
    unfold Canonical
    rw [base64Decode_base64Encode]
    exact ⟨v.2, rfl⟩
  · rintro ⟨hlen, hcanon⟩
    exact ⟨⟨base64Decode text, hlen⟩, hcanon⟩

/-! ### Ids -/

/-- The two halves of an id make one that was written, or zero, or nothing. -/
def IdHalves (hi lo : Bytes) : Prop :=
  (base64Decode hi).length = 8 → (base64Decode lo).length = 8 →
    (Canonical hi ∧ Canonical lo) ∨ (Zeros (base64Decode hi) ∧ Zeros (base64Decode lo))

theorem m0Uint128OfDecoded_zero_iff {hi lo : Bytes} (hhi : hi.length = 8) (hlo : lo.length = 8) :
    (m0Uint128OfDecoded hi lo).value = {} ↔ Zeros hi ∧ Zeros lo := by
  have hvalue : (m0Uint128OfDecoded hi lo).value = { uHi := ⟨hi, hhi⟩, uLo := ⟨lo, hlo⟩ } := by
    unfold m0Uint128OfDecoded
    rw [if_pos ⟨hhi, hlo⟩, copyTo_of_length _ hhi, copyTo_of_length _ hlo]
  rw [hvalue, M0Uint128.mk.injEq, eq_zero_iff, eq_zero_iff]

theorem m0Uint128OfDecoded_inBounds (hi lo : Bytes) :
    ∀ c ∈ (m0Uint128OfDecoded hi lo).copies, c.count ≤ c.room := by
  unfold m0Uint128OfDecoded
  split
  · simp
  · simp

theorem m0Uint128OfDecoded_encoded (v : M0Uint128) :
    (m0Uint128OfDecoded (base64Decode (base64Encode v.uHi.1))
      (base64Decode (base64Encode v.uLo.1))).value = v := by
  unfold m0Uint128OfDecoded
  rw [base64Decode_base64Encode, base64Decode_base64Encode, if_pos ⟨v.uHi.2, v.uLo.2⟩]
  simp only [copyTo_of_length _ v.uHi.2, copyTo_of_length _ v.uLo.2]

/-- **Two halves are read back lawfully** when they make an id that was written, or zero, or none. -/
theorem lawful_pair_iff (hi lo : Bytes) :
    Lawful toStringPair {} (hi, lo) (m0Uint128OfPair lo hi) ↔ IdHalves hi lo := by
  have himage : (∃ v, toStringPair v = (hi, lo)) ↔
      ((base64Decode hi).length = 8 ∧ Canonical hi) ∧ (base64Decode lo).length = 8 ∧ Canonical lo := by
    rw [← exists_encode_iff, ← exists_encode_iff]
    constructor
    · rintro ⟨v, hv⟩
      exact ⟨⟨v.uHi, congrArg Prod.fst hv⟩, v.uLo, congrArg Prod.snd hv⟩
    · rintro ⟨⟨uHi, rfl⟩, uLo, rfl⟩
      exact ⟨⟨uHi, uLo⟩, rfl⟩
  constructor
  · intro h hhi hlo
    by_cases hcanon : Canonical hi ∧ Canonical lo
    · exact .inl hcanon
    · refine .inr ((m0Uint128OfDecoded_zero_iff hhi hlo).mp (h.failed fun v hv => hcanon ?_))
      have := himage.mp ⟨v, hv⟩
      exact ⟨this.1.2, this.2.2⟩
  · intro h
    refine ⟨m0Uint128OfDecoded_inBounds _ _, ?_, ?_⟩
    · rintro v hv
      obtain ⟨rfl, rfl⟩ := Prod.mk.inj hv
      exact m0Uint128OfDecoded_encoded v
    · intro hno
      by_cases hlen : (base64Decode hi).length = 8 ∧ (base64Decode lo).length = 8
      · refine (m0Uint128OfDecoded_zero_iff hlen.1 hlen.2).mpr ?_
        refine (h hlen.1 hlen.2).resolve_left fun hcanon => ?_
        obtain ⟨v, hv⟩ := himage.mpr ⟨⟨hlen.1, hcanon.1⟩, hlen.2, hcanon.2⟩
        exact hno v hv
      · unfold m0Uint128OfPair m0Uint128OfDecoded
        rw [if_neg hlen]

/-- The halves of a text, when there is a `-` in it. -/
def IdText (text : Bytes) : Prop :=
  ∀ pos, find (ascii "-") text = some pos → IdHalves (text.take pos) (text.drop (pos + 1))

theorem find_toString (v : M0Uint128) :
    find (ascii "-") (toString v) = some (base64Encode v.uHi.1).length ∧
      (toString v).take (base64Encode v.uHi.1).length = base64Encode v.uHi.1 ∧
      (toString v).drop ((base64Encode v.uHi.1).length + 1) = base64Encode v.uLo.1 := by
  have hno : (45 : UInt8) ∉ base64Encode v.uHi.1 := by
    intro h
    exact (base64Encode_plain _ _ h).2 rfl
  have hstr : toString v = base64Encode v.uHi.1 ++ 45 :: base64Encode v.uLo.1 := by
    unfold toString
    rw [append_assoc]
    rfl
  rw [hstr]
  refine ⟨find_singleton_append _ hno, take_left, ?_⟩
  rw [drop_append]
  simp

theorem lawful_string_iff (text : Bytes) :
    Lawful toString {} text (m0Uint128OfString text) ↔ IdText text := by
  cases hfind : find (ascii "-") text with
  | none =>
    have hvalue : m0Uint128OfString text = { value := {} } := by
      unfold m0Uint128OfString
      rw [hfind]
    have hno : ∀ v, toString v ≠ text := by
      rintro v rfl
      rw [(find_toString v).1] at hfind
      cases hfind
    constructor
    · intro _ pos hpos
      rw [hfind] at hpos
      cases hpos
    · intro _
      rw [hvalue]
      exact ⟨by simp, fun v hv => absurd hv (hno v), fun _ => rfl⟩
  | some pos =>
    have hvalue : m0Uint128OfString text =
        m0Uint128OfPair (text.drop (pos + 1)) (text.take pos) := by
      unfold m0Uint128OfString m0Uint128OfPair
      rw [hfind]
    have himage : ∀ v, toString v = text ↔ toStringPair v = (text.take pos, text.drop (pos + 1)) := by
      intro v
      constructor
      · rintro rfl
        obtain ⟨hpos, htake, hdrop⟩ := find_toString v
        obtain rfl := Option.some.inj (hpos.symm.trans hfind)
        rw [htake, hdrop]
        rfl
      · intro hv
        obtain ⟨hhi, hlo⟩ := Prod.mk.inj hv
        obtain ⟨before, after, rfl, -, htake, hdrop⟩ := split_of_find (c := 45) hfind
        unfold toString
        rw [hhi, hlo, htake, hdrop, append_assoc]
        rfl
    have hlaw : Lawful toString {} text (m0Uint128OfString text) ↔
        Lawful toStringPair {} (text.take pos, text.drop (pos + 1)) (m0Uint128OfString text) := by
      constructor
      · intro h
        exact ⟨h.inBounds, fun v hv => h.exact v ((himage v).mpr hv),
          fun hno => h.failed fun v hv => hno v ((himage v).mp hv)⟩
      · intro h
        exact ⟨h.inBounds, fun v hv => h.exact v ((himage v).mp hv),
          fun hno => h.failed fun v hv => hno v ((himage v).mpr hv)⟩
    rw [hlaw, hvalue, lawful_pair_iff]
    constructor
    · intro h pos' hpos'
      obtain rfl := Option.some.inj (hfind.symm.trans hpos')
      exact h
    · intro h
      exact h pos hfind

/-! ### Pool versions -/

/-- A text makes a pool version that was written, or zero, or none. -/
def FidText (text : Bytes) : Prop :=
  (base64Decode text).length = 16 → Canonical text ∨ Zeros (base64Decode text)

theorem lawful_fid_iff (text : Bytes) (dst : M0Fid) :
    Lawful fidToString (Raw.zero 16) text (m0FidOfString text dst).2 ↔ FidText text := by
  by_cases hlen : (base64Decode text).length = 16
  · have hvalue : (m0FidOfString text dst).2 =
        { value := ⟨base64Decode text, hlen⟩, copies := [⟨16, 16⟩] } := by
      unfold m0FidOfString
      simp only [hlen, if_true, copyTo_of_length dst hlen]
    rw [hvalue]
    constructor
    · intro h _
      by_cases hcanon : Canonical text
      · exact .inl hcanon
      · refine .inr ((eq_zero_iff hlen).mp (h.failed fun v hv => hcanon ?_))
        exact (exists_encode_iff.mp ⟨v, hv⟩).2
    · intro h
      refine ⟨by simp, ?_, ?_⟩
      · rintro v rfl
        exact Subtype.ext (base64Decode_base64Encode v.1)
      · intro hno
        refine (eq_zero_iff hlen).mpr ((h hlen).resolve_left fun hcanon => ?_)
        obtain ⟨v, hv⟩ := exists_encode_iff.mpr ⟨hlen, hcanon⟩
        exact hno v hv
  · have hvalue : (m0FidOfString text dst).2 = { value := Raw.zero 16 } := by
      unfold m0FidOfString
      simp only [hlen, if_false]
    rw [hvalue]
    constructor
    · intro _ h
      exact absurd h hlen
    · intro _
      refine ⟨by simp, ?_, fun _ => rfl⟩
      rintro v rfl
      rw [fidToString, base64Decode_base64Encode] at hlen
      exact absurd v.2 hlen

/-! ### Index layouts -/

/-- A text makes no more than an index layout, and one that was written or zero. -/
def IdxLayoutText (text : Bytes) : Prop :=
  (base64Decode text).length ≤ 40 ∧
    (((base64Decode text).length = 40 ∧ Canonical text) ∨ Zeros (base64Decode text))

theorem lawful_idxLayout_iff (text : Bytes) :
    Lawful idxLayoutToString (Raw.zero 40) text (toIdxLayout text) ↔ IdxLayoutText text := by
  have hvalue : (toIdxLayout text).value = copyTo (Raw.zero 40) (base64Decode text) := rfl
  constructor
  · intro h
    have hle : (base64Decode text).length ≤ 40 := h.inBounds _ (mem_singleton.mpr rfl)
    refine ⟨hle, ?_⟩
    by_cases hcanon : (base64Decode text).length = 40 ∧ Canonical text
    · exact .inl hcanon
    · refine .inr ((copyTo_zero_iff hle).mp ?_)
      rw [← hvalue]
      exact h.failed fun v hv => hcanon (exists_encode_iff.mp ⟨v, hv⟩)
  · rintro ⟨hle, htext⟩
    refine ⟨?_, ?_, ?_⟩
    · intro c hc
      obtain rfl := mem_singleton.mp hc
      exact hle
    · rintro v rfl
      rw [hvalue, idxLayoutToString, base64Decode_base64Encode]
      exact copyTo_of_length _ v.2
    · intro hno
      rw [hvalue, copyTo_zero_iff hle]
      refine htext.resolve_left fun hcanon => ?_
      obtain ⟨v, hv⟩ := exists_encode_iff.mpr hcanon
      exact hno v hv

/-! ### Every text -/

/-- **Which texts are read back lawfully**: of those that decode to the size of the value the ones that
an encoder wrote, and zero; and for ids and pool versions all that decode to another size, for index
layouts of these only zeros of at most the size. -/
theorem lawful_iff (text hi lo : Bytes) (dst : M0Fid) :
    (Lawful toString {} text (m0Uint128OfString text) ↔ IdText text) ∧
    (Lawful toStringPair {} (hi, lo) (m0Uint128OfPair lo hi) ↔ IdHalves hi lo) ∧
    (Lawful fidToString (Raw.zero 16) text (m0FidOfString text dst).2 ↔ FidText text) ∧
    (Lawful idxLayoutToString (Raw.zero 40) text (toIdxLayout text) ↔
      IdxLayoutText text) :=
  ⟨lawful_string_iff text, lawful_pair_iff hi lo, lawful_fid_iff text dst,
    lawful_idxLayout_iff text⟩

/-- The text of 48 bytes, of which eight are written behind the layout. -/
theorem not_lawful_longText :
    ¬ ∀ text, Lawful idxLayoutToString (Raw.zero 40) text (toIdxLayout text) := by
  intro h
  have hcopied := (h (List.replicate 64 65)).inBounds ⟨48, 40⟩ (by decide)
  exact absurd hcopied (by decide)

end S3M0Uint128Helper

end CortxS3
