/-
Base64 is read back as it was written, and so are the identifiers that are kept in it.
-/
import CortxS3.Server.Base64

namespace CortxS3

open List S3M0Uint128Helper

/-! ### One character -/

theorem base64_char {d : Nat} (hd : d < 64) :
    isSpace (base64Char d) = false ∧ base64Value (base64Char d) = some d := by
  have h : ∀ d < 64, isSpace (base64Char d) = false ∧ base64Value (base64Char d) = some d := by
    decide
  exact h d hd

section

variable {d : Nat} (hd : d < 64) (current : Nat) (rest : Bytes)

include hd

theorem decodeLoop_zero :
    base64DecodeLoop 0 current (base64Char d :: rest) = base64DecodeLoop 1 (d * 4) rest := by
  obtain ⟨hspace, hval⟩ := base64_char hd
  simp [base64DecodeLoop, hspace, hval]

theorem decodeLoop_one :
    base64DecodeLoop 1 current (base64Char d :: rest) =
      UInt8.ofNat (current + d / 16 % 4) :: base64DecodeLoop 2 (d * 16 % 256) rest := by
  obtain ⟨hspace, hval⟩ := base64_char hd
  simp [base64DecodeLoop, hspace, hval]

theorem decodeLoop_two :
    base64DecodeLoop 2 current (base64Char d :: rest) =
      UInt8.ofNat (current + d / 4 % 16) :: base64DecodeLoop 3 (d * 64 % 256) rest := by
  obtain ⟨hspace, hval⟩ := base64_char hd
  simp [base64DecodeLoop, hspace, hval]

theorem decodeLoop_three :
    base64DecodeLoop 3 current (base64Char d :: rest) =
      UInt8.ofNat (current + d % 64) :: base64DecodeLoop 0 0 rest := by
  obtain ⟨hspace, hval⟩ := base64_char hd
  simp [base64DecodeLoop, hspace, hval]

end

theorem decodeLoop_pad (modulo current : Nat) (rest : Bytes) :
    base64DecodeLoop modulo current (61 :: rest) = [] := by
  rw [base64DecodeLoop.eq_def]
  rfl

theorem ofNat_of_toNat {n : Nat} {b : UInt8} (h : n = b.toNat) : UInt8.ofNat n = b := by
  rw [h, UInt8.ofNat_toNat]

/-! ### Whole texts -/

/-- **What is written in base64 is read back.** -/
theorem base64Decode_base64Encode : ∀ b : Bytes, base64Decode (base64Encode b) = b
  | [] => rfl
  | [a] => by
    have ha := a.toNat_lt
    show base64DecodeLoop 0 0 [base64Char (a.toNat / 4), base64Char (a.toNat % 4 * 16), 61, 61] = _
    rw [decodeLoop_zero (by omega), decodeLoop_one (by omega), decodeLoop_pad,
      ofNat_of_toNat (b := a) (by omega)]
  | [a, b] => by
    have ha := a.toNat_lt
    have hb := b.toNat_lt
    show base64DecodeLoop 0 0 [base64Char (a.toNat / 4),
      base64Char (a.toNat % 4 * 16 + b.toNat / 16), base64Char (b.toNat % 16 * 4), 61] = _
    rw [decodeLoop_zero (by omega), decodeLoop_one (by omega), decodeLoop_two (by omega),
      decodeLoop_pad, ofNat_of_toNat (b := a) (by omega), ofNat_of_toNat (b := b) (by omega)]
  | a :: b :: c :: rest => by
    have ha := a.toNat_lt
    have hb := b.toNat_lt
    have hc := c.toNat_lt
    have ih : base64DecodeLoop 0 0 (base64EncodeLoop 0 0 rest) = rest :=
      base64Decode_base64Encode rest
    show base64DecodeLoop 0 0 (base64Char (a.toNat / 4) ::
      base64Char (a.toNat % 4 * 16 + b.toNat / 16) ::
      base64Char (b.toNat % 16 * 4 + c.toNat / 64) :: base64Char (c.toNat % 64) ::
      base64EncodeLoop 0 0 rest) = _
    rw [decodeLoop_zero (by omega), decodeLoop_one (by omega), decodeLoop_two (by omega),
      decodeLoop_three (by omega), ih, ofNat_of_toNat (b := a) (by omega),
      ofNat_of_toNat (b := b) (by omega), ofNat_of_toNat (b := c) (by omega)]

theorem base64Encode_ne_nil {b : Bytes} (h : b ≠ []) : base64Encode b ≠ [] := by
  intro hnil
  have hback := base64Decode_base64Encode b
  rw [hnil] at hback
  exact h hback.symm

theorem base64Char_plain {d : Nat} (hd : d < 64) :
    isPlain (base64Char d) = true ∧ base64Char d ≠ 45 := by
  have h : ∀ d < 64, isPlain (base64Char d) = true ∧ base64Char d ≠ 45 := by decide
  exact h d hd

/-- Base64 has no `-` in it, and nothing that JSON would not write as it is. -/
theorem base64Encode_plain :
    ∀ (b : Bytes), ∀ c ∈ base64Encode b, isPlain c = true ∧ c ≠ 45
  | [] => by
    intro c hc
    cases hc
  | [a] => by
    have ha := a.toNat_lt
    have hpad : isPlain 61 = true ∧ (61 : UInt8) ≠ 45 := by decide
    intro c hc
    have hc' : c ∈ [base64Char (a.toNat / 4), base64Char (a.toNat % 4 * 16), 61, 61] := hc
    simp only [mem_cons, not_mem_nil, or_false] at hc'
    rcases hc' with rfl | rfl | rfl | rfl
    · exact base64Char_plain (by omega)
    · exact base64Char_plain (by omega)
    · exact hpad
    · exact hpad
  | [a, b] => by
    have ha := a.toNat_lt
    have hb := b.toNat_lt
    have hpad : isPlain 61 = true ∧ (61 : UInt8) ≠ 45 := by decide
    intro c hc
    have hc' : c ∈ [base64Char (a.toNat / 4), base64Char (a.toNat % 4 * 16 + b.toNat / 16),
      base64Char (b.toNat % 16 * 4), 61] := hc
    simp only [mem_cons, not_mem_nil, or_false] at hc'
    rcases hc' with rfl | rfl | rfl | rfl
    · exact base64Char_plain (by omega)
    · exact base64Char_plain (by omega)
    · exact base64Char_plain (by omega)
    · exact hpad
  | a :: b :: c :: rest => by
    have ha := a.toNat_lt
    have hb := b.toNat_lt
    have hc := c.toNat_lt
    have ih := base64Encode_plain rest
    intro x hx
    have hx' : x ∈ base64Char (a.toNat / 4) :: base64Char (a.toNat % 4 * 16 + b.toNat / 16) ::
      base64Char (b.toNat % 16 * 4 + c.toNat / 64) :: base64Char (c.toNat % 64) ::
      base64Encode rest := hx
    simp only [mem_cons] at hx'
    rcases hx' with rfl | rfl | rfl | rfl | hx'
    · exact base64Char_plain (by omega)
    · exact base64Char_plain (by omega)
    · exact base64Char_plain (by omega)
    · exact base64Char_plain (by omega)
    · exact ih x hx'

/-! ### Identifiers -/

theorem find_singleton_append {c : UInt8} :
    ∀ {s : Bytes} (t : Bytes), c ∉ s → find [c] (s ++ c :: t) = some s.length := by
  intro s
  induction s with
  | nil =>
    intro t _
    exact (find_eq_zero_iff _ _).mpr (by simp)
  | cons d s ih =>
    intro t hc
    rw [mem_cons, not_or] at hc
    rw [cons_append]
    unfold find
    rw [if_neg (by simpa using hc.1), ih t hc.2]
    rfl

theorem find_singleton_eq_none {c : UInt8} {s : Bytes} : find [c] s = none ↔ c ∉ s := by
  constructor
  · intro h hc
    obtain ⟨before, after, rfl, hbefore⟩ := eq_append_cons_of_mem hc
    rw [find_singleton_append after hbefore] at h
    cases h
  · intro h
    induction s with
    | nil => rfl
    | cons d s ih =>
      rw [mem_cons, not_or] at h
      unfold find
      rw [if_neg (by simpa using h.1), ih h.2]
      rfl

theorem split_of_find {c : UInt8} {s : Bytes} {pos : Nat} (h : find [c] s = some pos) :
    ∃ before after, s = before ++ c :: after ∧ c ∉ before ∧ s.take pos = before ∧
      s.drop (pos + 1) = after := by
  have hc : c ∈ s := by
    by_contra hc
    rw [find_singleton_eq_none.mpr hc] at h
    cases h
  obtain ⟨before, after, rfl, hbefore⟩ := eq_append_cons_of_mem hc
  rw [find_singleton_append after hbefore, Option.some.injEq] at h
  refine ⟨before, after, rfl, hbefore, ?_, ?_⟩
  · rw [← h, take_left]
  · rw [← h, ← drop_drop, drop_left]
    rfl

theorem Raw.ofBytes_val {n : Nat} (r : Raw n) : Raw.ofBytes n r.1 = some r := by
  unfold Raw.ofBytes
  rw [dif_pos r.2]

/-- **An identifier is read back as it was written.** -/
theorem S3M0Uint128Helper.toM0Uint128_toString (id : M0Uint128) :
    toM0Uint128 (toString id) = id := by
  have hno : (45 : UInt8) ∉ base64Encode id.uHi.1 := by
    intro h
    exact (base64Encode_plain _ _ h).2 rfl
  have hstr : toString id =
      base64Encode id.uHi.1 ++ 45 :: base64Encode id.uLo.1 := by
    unfold toString
    rw [append_assoc]
    rfl
  unfold toM0Uint128
  rw [hstr, show ascii "-" = [45] by decide, find_singleton_append _ hno]
  dsimp only
  rw [take_left', drop_length_add_append]
  · rw [drop_one, tail_cons, base64Decode_base64Encode, base64Decode_base64Encode,
      Raw.ofBytes_val, Raw.ofBytes_val]
  · rfl

theorem S3M0Uint128Helper.toM0Fid_fidToString (fid : M0Fid) : toM0Fid (fidToString fid) = fid := by
  unfold toM0Fid fidToString
  rw [base64Decode_base64Encode, Raw.ofBytes_val]
  rfl

theorem S3M0Uint128Helper.toString_plain (id : M0Uint128) :
    ∀ c ∈ toString id, isPlain c = true := by
  intro c hc
  unfold toString at hc
  rcases mem_append.mp hc with hc | hc
  · rcases mem_append.mp hc with hc | hc
    · exact (base64Encode_plain _ c hc).1
    · rw [show ascii "-" = [45] by decide, mem_singleton] at hc
      rw [hc]
      decide
  · exact (base64Encode_plain _ c hc).1

end CortxS3
