/-
Base64 and version ids.

The loops with their bit operations and assertions do what the loops of `Base64` do, for every byte
string (`base64EncodeAsserted_eq`, `base64DecodeAsserted_eq`): no assertion fails, whatever is
encoded and whatever is decoded.  What is left to say is about those loops.

A text in base64 is its characters and behind them the padding, and the decoder stops at the first
`=` or at the end, so taking the padding away takes nothing away.  How much of it is put back does
not matter.

The complement turns the order of times around, and numbers with the same number of digits are in
the order of their digits.
-/
import CortxS3.Server.ObjectVersioningHelper
import CortxS3.Proofs.Base64
import CortxS3.Proofs.Decimal

namespace CortxS3

open List

/-! ### The assertions -/

theorem charAt_eq {d : Nat} (hd : d < 64) : charAt d = some (base64Char d) := by
  have h : ∀ d < 64, charAt d = some (base64Char d) := by decide +kernel
  exact h d hd

theorem bits_of_byte (b : UInt8) :
    b.toNat >>> 2 &&& 0x3F = b.toNat / 4 ∧ (b.toNat &&& 3) <<< 4 = b.toNat % 4 * 16 ∧
      b.toNat >>> 4 &&& 0xF = b.toNat / 16 ∧ (b.toNat &&& 0x0F) <<< 2 = b.toNat % 16 * 4 ∧
      b.toNat >>> 6 &&& 3 = b.toNat / 64 ∧ b.toNat &&& 0x3F = b.toNat % 64 := by
  have h : ∀ n < 256, n >>> 2 &&& 0x3F = n / 4 ∧ (n &&& 3) <<< 4 = n % 4 * 16 ∧
      n >>> 4 &&& 0xF = n / 16 ∧ (n &&& 0x0F) <<< 2 = n % 16 * 4 ∧
      n >>> 6 &&& 3 = n / 64 ∧ n &&& 0x3F = n % 64 := by decide +kernel
  exact h b.toNat b.toNat_lt

/-- What is left of the first byte of a group has its bits at one place, and nowhere else. -/
theorem bits_of_first {x y : Nat} (hx : x < 4) (hy : y < 16) :
    x * 16 &&& 0x30 = x * 16 ∧ x * 16 ||| y = x * 16 + y ∧ x * 16 &&& 0x3F = x * 16 := by
  have h : ∀ x < 4, ∀ y < 16, x * 16 &&& 0x30 = x * 16 ∧ x * 16 ||| y = x * 16 + y ∧
      x * 16 &&& 0x3F = x * 16 := by decide
  exact h x hx y hy

theorem bits_of_second {x y : Nat} (hx : x < 16) (hy : y < 4) :
    x * 4 &&& 0x3C = x * 4 ∧ x * 4 ||| y = x * 4 + y ∧ x * 4 &&& 0x3F = x * 4 := by
  have h : ∀ x < 16, ∀ y < 4, x * 4 &&& 0x3C = x * 4 ∧ x * 4 ||| y = x * 4 + y ∧
      x * 4 &&& 0x3F = x * 4 := by decide
  exact h x hx y hy

/-- **No assertion fails while encoding**, one group of bytes after the other. -/
theorem assertedEncodeLoop_zero (forNext : Nat) :
    ∀ bytes : Bytes, assertedEncodeLoop 0 forNext bytes = some (base64EncodeLoop 0 0 bytes)
  | [] => rfl
  | [a] => by
    have ha := a.toNat_lt
    obtain ⟨h1, h2, -⟩ := bits_of_byte a
    obtain ⟨-, -, h3⟩ := bits_of_first (x := a.toNat % 4) (y := 0) (by omega) (by omega)
    have hc := charAt_eq (d := a.toNat / 4) (by omega)
    have hd := charAt_eq (d := a.toNat % 4 * 16) (by omega)
    simp [assertedEncodeLoop, base64EncodeLoop, h1, h2, h3, hc, hd, guard]
  | [a, b] => by
    have ha := a.toNat_lt
    have hb := b.toNat_lt
    obtain ⟨h1, h2, -⟩ := bits_of_byte a
    obtain ⟨-, -, h3, h4, -⟩ := bits_of_byte b
    obtain ⟨h5, h6, -⟩ := bits_of_first (x := a.toNat % 4) (y := b.toNat / 16) (by omega) (by omega)
    obtain ⟨-, -, h7⟩ := bits_of_second (x := b.toNat % 16) (y := 0) (by omega) (by omega)
    have hc := charAt_eq (d := a.toNat / 4) (by omega)
    have hd := charAt_eq (d := a.toNat % 4 * 16 + b.toNat / 16) (by omega)
    have he := charAt_eq (d := b.toNat % 16 * 4) (by omega)
    simp [assertedEncodeLoop, base64EncodeLoop, h1, h2, h3, h4, h5, h6, h7, hc, hd, he, guard]
  | a :: b :: c :: rest => by
    have ha := a.toNat_lt
    have hb := b.toNat_lt
    have hc := c.toNat_lt
    obtain ⟨h1, h2, -⟩ := bits_of_byte a
    obtain ⟨-, -, h3, h4, -⟩ := bits_of_byte b
    obtain ⟨-, -, -, -, h5, h6⟩ := bits_of_byte c
    obtain ⟨h7, h8, -⟩ := bits_of_first (x := a.toNat % 4) (y := b.toNat / 16) (by omega) (by omega)
    obtain ⟨h9, h10, -⟩ := bits_of_second (x := b.toNat % 16) (y := c.toNat / 64) (by omega)
      (by omega)
    have hd := charAt_eq (d := a.toNat / 4) (by omega)
    have he := charAt_eq (d := a.toNat % 4 * 16 + b.toNat / 16) (by omega)
    have hf := charAt_eq (d := b.toNat % 16 * 4 + c.toNat / 64) (by omega)
    have hg := charAt_eq (d := c.toNat % 64) (by omega)
    have ih := assertedEncodeLoop_zero (b.toNat % 16 * 4) rest
    simp [assertedEncodeLoop, base64EncodeLoop, h1, h2, h3, h4, h5, h6, h7, h8, h9, h10, hd, he, hf,
      hg, ih, guard]

theorem base64EncodeAsserted_eq (bytes : Bytes) :
    base64EncodeAsserted bytes = some (base64Encode bytes) :=
  assertedEncodeLoop_zero 0 bytes

theorem base64Value_lt {c : UInt8} {d : Nat} (h : base64Value c = some d) : d < 64 := by
  have hall : ∀ n < 256, ∀ d ∈ base64Value (UInt8.ofNat n), d < 64 := by decide +kernel
  have := hall c.toNat c.toNat_lt d
  rw [UInt8.ofNat_toNat] at this
  exact this h

theorem bits_of_value {d : Nat} (hd : d < 64) :
    d <<< 2 &&& 3 = 0 ∧ d <<< 4 &&& 0x0F = 0 ∧ d <<< 6 &&& 0x3F = 0 ∧ d >>> 4 &&& 3 = d / 16 % 4 ∧
      d >>> 2 &&& 0x0F = d / 4 % 16 ∧ d &&& 0x3F = d % 64 := by
  have h : ∀ d < 64, d <<< 2 &&& 3 = 0 ∧ d <<< 4 &&& 0x0F = 0 ∧ d <<< 6 &&& 0x3F = 0 ∧
      d >>> 4 &&& 3 = d / 16 % 4 ∧ d >>> 2 &&& 0x0F = d / 4 % 16 ∧ d &&& 0x3F = d % 64 := by
    decide
  exact h d hd

theorem byte_of_values {d y : Nat} (hd : d < 64) :
    (y < 4 → UInt8.ofNat (d <<< 2 ||| y) = UInt8.ofNat (d * 4 + y)) ∧
      (y < 16 → UInt8.ofNat (d <<< 4 ||| y) = UInt8.ofNat (d * 16 % 256 + y)) ∧
      (y < 64 → UInt8.ofNat (d <<< 6 ||| y) = UInt8.ofNat (d * 64 % 256 + y)) := by
  have h4 : ∀ d < 64, ∀ y < 4, UInt8.ofNat (d <<< 2 ||| y) = UInt8.ofNat (d * 4 + y) := by
    decide
  have h16 : ∀ d < 64, ∀ y < 16, UInt8.ofNat (d <<< 4 ||| y) = UInt8.ofNat (d * 16 % 256 + y) := by
    decide
  have h64 : ∀ d < 64, ∀ y < 64, UInt8.ofNat (d <<< 6 ||| y) = UInt8.ofNat (d * 64 % 256 + y) := by
    decide
  exact ⟨h4 d hd y, h16 d hd y, h64 d hd y⟩

/-- **No assertion fails while decoding**, whatever the text: each state of the loop by the character
before it. -/
theorem assertedDecodeLoop_eq (s : Bytes) :
    (∀ currentByte, assertedDecodeLoop 0 currentByte s = some (base64DecodeLoop 0 0 s)) ∧
      (∀ d < 64, assertedDecodeLoop 1 (d <<< 2) s = some (base64DecodeLoop 1 (d * 4) s)) ∧
      (∀ d < 64, assertedDecodeLoop 2 (d <<< 4) s = some (base64DecodeLoop 2 (d * 16 % 256) s)) ∧
      ∀ d < 64, assertedDecodeLoop 3 (d <<< 6) s = some (base64DecodeLoop 3 (d * 64 % 256) s) := by
  induction s with
  | nil => exact ⟨fun _ => rfl, fun _ _ => rfl, fun _ _ => rfl, fun _ _ => rfl⟩
  | cons ch rest ih =>
    obtain ⟨ih0, ih1, ih2, ih3⟩ := ih
    by_cases hspace : isSpace ch = true
    · simp [assertedDecodeLoop, base64DecodeLoop, hspace, ih0]
    · cases hval : base64Value ch with
      | none => simp [assertedDecodeLoop, base64DecodeLoop, hspace, hval]
      | some e =>
        have he := base64Value_lt hval
        obtain ⟨-, -, -, h4, h2, h0⟩ := bits_of_value he
        refine ⟨?_, ?_, ?_, ?_⟩
        · intro currentByte
          simp [assertedDecodeLoop, base64DecodeLoop, hspace, hval, ih1 e he]
        · intro d hd
          have hguard := (bits_of_value hd).1
          have hbyte := (byte_of_values (y := e / 16 % 4) hd).1 (by omega)
          simp [assertedDecodeLoop, base64DecodeLoop, hspace, hval, ih2 e he, h4, hguard, hbyte,
            guard]
        · intro d hd
          have hguard := (bits_of_value hd).2.1
          have hbyte := (byte_of_values (y := e / 4 % 16) hd).2.1 (by omega)
          simp [assertedDecodeLoop, base64DecodeLoop, hspace, hval, ih3 e he, h2, hguard, hbyte,
            guard]
        · intro d hd
          have hguard := (bits_of_value hd).2.2.1
          have hbyte := (byte_of_values (y := e % 64) hd).2.2 (by omega)
          simp [assertedDecodeLoop, base64DecodeLoop, hspace, hval, ih0, h0, hguard, hbyte, guard]

theorem base64DecodeAsserted_eq (s : Bytes) : base64DecodeAsserted s = some (base64Decode s) :=
  (assertedDecodeLoop_eq s).1 0

/-! ### The text -/

theorem base64Char_mem {d : Nat} (hd : d < 64) : base64Char d ∈ base64Chars :=
  mem_of_getElem? (charAt_eq hd)

/-- A text in base64 without its padding. -/
structure Unpadded (bytes body : Bytes) : Prop where
  text : base64Encode bytes = body ++ List.replicate ((3 - bytes.length % 3) % 3) 61
  alphabet : ∀ c ∈ body, c ∈ base64Chars
  length : body.length + (3 - bytes.length % 3) % 3 = 4 * ((bytes.length + 2) / 3)

theorem exists_unpadded : ∀ bytes : Bytes, ∃ body, Unpadded bytes body
  | [] => ⟨[], rfl, by simp, rfl⟩
  | [a] => by
    have ha := a.toNat_lt
    refine ⟨[base64Char (a.toNat / 4), base64Char (a.toNat % 4 * 16)], rfl, ?_, by simp⟩
    intro c hc
    simp only [mem_cons, not_mem_nil, or_false] at hc
    rcases hc with rfl | rfl
    · exact base64Char_mem (by omega)
    · exact base64Char_mem (by omega)
  | [a, b] => by
    have ha := a.toNat_lt
    have hb := b.toNat_lt
    refine ⟨[base64Char (a.toNat / 4), base64Char (a.toNat % 4 * 16 + b.toNat / 16),
      base64Char (b.toNat % 16 * 4)], rfl, ?_, by simp⟩
    intro c hc
    simp only [mem_cons, not_mem_nil, or_false] at hc
    rcases hc with rfl | rfl | rfl
    · exact base64Char_mem (by omega)
    · exact base64Char_mem (by omega)
    · exact base64Char_mem (by omega)
  | a :: b :: c :: rest => by
    have ha := a.toNat_lt
    have hb := b.toNat_lt
    have hc := c.toNat_lt
    obtain ⟨body, hbody⟩ := exists_unpadded rest
    have hlen : (a :: b :: c :: rest).length = rest.length + 3 := rfl
    have hmod : (3 - (rest.length + 3) % 3) % 3 = (3 - rest.length % 3) % 3 := by omega
    refine ⟨base64Char (a.toNat / 4) :: base64Char (a.toNat % 4 * 16 + b.toNat / 16) ::
      base64Char (b.toNat % 16 * 4 + c.toNat / 64) :: base64Char (c.toNat % 64) :: body, ?_, ?_, ?_⟩
    · rw [hlen, hmod]
      show _ :: _ :: _ :: _ :: base64Encode rest = _
      rw [hbody.text]
      rfl
    · intro x hx
      simp only [mem_cons] at hx
      rcases hx with rfl | rfl | rfl | rfl | hx
      · exact base64Char_mem (by omega)
      · exact base64Char_mem (by omega)
      · exact base64Char_mem (by omega)
      · exact base64Char_mem (by omega)
      · exact hbody.alphabet x hx
    · have hlength := hbody.length
      rw [hlen, hmod]
      simp only [length_cons]
      omega

theorem Unpadded.pad_notMem {bytes body : Bytes} (h : Unpadded bytes body) : (61 : UInt8) ∉ body := by
  intro hmem
  exact absurd (h.alphabet 61 hmem) (by decide)

/-- **What is encoded is decoded**, no assertion fails, and the text is of whole groups: characters of
the alphabet, and behind them as many `=` as bytes are missing in the last group. -/
theorem base64_encodes_decodes (s : Bytes) :
    ∃ t, base64EncodeAsserted s = some t ∧ base64DecodeAsserted t = some s ∧
      t.length = 4 * ((s.length + 2) / 3) ∧
      ∃ body, t = body ++ List.replicate ((3 - s.length % 3) % 3) 61 ∧
        ∀ c ∈ body, c ∈ base64Chars := by
  obtain ⟨body, hbody⟩ := exists_unpadded s
  refine ⟨base64Encode s, base64EncodeAsserted_eq s, ?_, ?_, body, hbody.text, hbody.alphabet⟩
  · rw [base64DecodeAsserted_eq, base64Decode_base64Encode]
  · rw [hbody.text, length_append, length_replicate]
    exact hbody.length

/-! ### Taking the padding away -/

theorem base64DecodeLoop_pad (t : Bytes) :
    ∀ (s : Bytes) (modulo current : Nat),
      base64DecodeLoop modulo current (s ++ 61 :: t) = base64DecodeLoop modulo current s := by
  intro s
  induction s with
  | nil =>
    intro modulo current
    rw [nil_append, decodeLoop_pad]
    unfold base64DecodeLoop
    rfl
  | cons c rest ih =>
    intro modulo current
    rw [cons_append, base64DecodeLoop.eq_def, base64DecodeLoop.eq_def modulo current (c :: rest)]
    simp only [ih]

theorem base64Decode_padded (s : Bytes) (n : Nat) :
    base64Decode (s ++ List.replicate n 61) = base64Decode s := by
  cases n with
  | zero => rw [replicate_zero, append_nil]
  | succ n =>
    rw [replicate_succ]
    exact base64DecodeLoop_pad _ s 0 0

/-- **Replacing a character by nothing** leaves the others. -/
theorem replaceAll_singleton (c : UInt8) :
    ∀ (n : Nat) (data : Bytes), data.length ≤ n → replaceAll [c] [] n data = data.filter (· ≠ c) := by
  intro n data
  induction n generalizing data with
  | zero =>
    intro h
    have : data = [] := length_eq_zero_iff.mp (Nat.le_zero.mp h)
    subst this
    rfl
  | succ n ih =>
    intro h
    cases data with
    | nil => rfl
    | cons x rest =>
      have hrest : rest.length ≤ n := by simpa using h
      unfold replaceAll
      by_cases hx : x = c
      · subst hx
        have hmatch : [x].isPrefixOf (x :: rest) = true := by simp
        rw [if_pos hmatch, nil_append]
        show replaceAll [x] [] n rest = _
        rw [ih rest hrest]
        simp
      · have hmatch : ¬[c].isPrefixOf (x :: rest) = true := by
          intro hprefix
          have : [c] <+: x :: rest := isPrefixOf_iff_prefix.mp hprefix
          exact hx (cons_prefix_cons.mp this).1.symm
        rw [if_neg hmatch, ih rest hrest]
        simp [hx]

theorem findAndReplaceall_singleton (c : UInt8) (data : Bytes) :
    findAndReplaceall data [c] [] = data.filter (· ≠ c) := by
  unfold findAndReplaceall
  rw [if_neg (cons_ne_nil _ _)]
  exact replaceAll_singleton c _ data (Nat.le_refl _)

/-! ### Versions -/

namespace S3ObjectVersioingHelper

/-- The version id of a key is its text in base64 without the padding. -/
theorem getVersionid_of_lt {key : Bytes} (h : key.length < 2 ^ 32) :
    ∃ versionid, getVersionidFromEpochTime key = some versionid ∧ Unpadded key versionid := by
  obtain ⟨body, hbody⟩ := exists_unpadded key
  have htake : key.take (toUInt key.length) = key := by
    unfold toUInt
    rw [Nat.mod_eq_of_lt h, take_length]
  have hfilter : (body ++ List.replicate ((3 - key.length % 3) % 3) 61).filter (· ≠ 61) = body := by
    rw [filter_append, filter_eq_self.mpr, filter_eq_nil_iff.mpr, append_nil]
    · intro x hx
      rw [eq_of_mem_replicate hx]
      decide
    · intro x hx
      have : x ≠ 61 := fun h => hbody.pad_notMem (h ▸ hx)
      simpa using this
  refine ⟨body, ?_, hbody⟩
  unfold getVersionidFromEpochTime
  rw [htake, base64EncodeAsserted_eq, hbody.text]
  show some (findAndReplaceall _ [61] []) = _
  rw [findAndReplaceall_singleton, hfilter]

theorem generateKeyid_of_unpadded {key versionid : Bytes} (h : Unpadded key versionid) :
    generateKeyidFromVersionid versionid = some key := by
  unfold generateKeyidFromVersionid
  rw [base64DecodeAsserted_eq, base64Decode_padded, ← base64Decode_base64Encode key, h.text,
    base64Decode_padded]

theorem generateNewEpochTime_eq (t : UInt64) :
    generateNewEpochTime t = decimal (2 ^ 64 - 1 - t.toNat) := by
  unfold generateNewEpochTime
  rw [UInt64.toNat_not]
  rfl

/-- **Version ids and version keys correspond and are in order.**  A key of fewer than `2 ^ 32` bytes
comes back from its id, and while the complements have twenty digits a later version has the smaller
key. -/
theorem versions_correspond_and_order :
    (∀ key : Bytes, key.length < 2 ^ 32 →
      ∃ versionid, getVersionidFromEpochTime key = some versionid ∧
        generateKeyidFromVersionid versionid = some key) ∧
    ∀ t₁ t₂ : UInt64, t₁ < t₂ → 10 ^ 19 ≤ 2 ^ 64 - 1 - t₁.toNat → 10 ^ 19 ≤ 2 ^ 64 - 1 - t₂.toNat →
      generateNewEpochTime t₂ < generateNewEpochTime t₁ := by
  constructor
  · intro key h
    obtain ⟨versionid, hid, hunpadded⟩ := getVersionid_of_lt h
    exact ⟨versionid, hid, generateKeyid_of_unpadded hunpadded⟩
  · intro t₁ t₂ hlt h₁ h₂
    have hnat : t₁.toNat < t₂.toNat := UInt64.lt_iff_toNat_lt.mp hlt
    rw [generateNewEpochTime_eq, generateNewEpochTime_eq]
    refine decimal_lt_of_length_eq (by omega) ?_
    rw [length_decimal (k := 19) h₁ (by omega), length_decimal (k := 19) h₂ (by omega)]

/-- The versions of two milliseconds, one after the other. -/
theorem versions_correspond_and_order_twoVersions :
    (∃ versionid, getVersionidFromEpochTime (generateNewEpochTime 1637200000000) = some versionid ∧
      generateKeyidFromVersionid versionid = some (generateNewEpochTime 1637200000000)) ∧
    generateNewEpochTime 1637200000001 < generateNewEpochTime 1637200000000 :=
  ⟨versions_correspond_and_order.1 (generateNewEpochTime 1637200000000) (by decide),
    versions_correspond_and_order.2 1637200000000 1637200000001 (by decide) (by decide) (by decide)⟩

/-- Of a key of `2 ^ 32` digits the `unsigned` length is zero, and nothing of it is in the id. -/
theorem not_correspond_of_longKey :
    ¬ ∀ key : Bytes, key ≠ [] → (∀ c ∈ key, IsDigit c) →
      ∃ versionid, getVersionidFromEpochTime key = some versionid ∧
        generateKeyidFromVersionid versionid = some key := by
  intro h
  obtain ⟨key, hlen, hdigits⟩ : ∃ key : Bytes, key.length = 2 ^ 32 ∧ ∀ c ∈ key, IsDigit c := by
    refine ⟨List.replicate (2 ^ 32) 49, length_replicate, ?_⟩
    intro c hc
    rw [eq_of_mem_replicate hc]
    exact ⟨by decide, by decide⟩
  have hne : key ≠ [] := by
    intro hnil
    rw [hnil] at hlen
    simp at hlen
  obtain ⟨versionid, hid, hkey⟩ := h key hne hdigits
  have hempty : getVersionidFromEpochTime key = some [] := by
    have hzero : toUInt (2 ^ 32) = 0 := by decide
    unfold getVersionidFromEpochTime
    rw [hlen, hzero, take_zero]
    rfl
  rw [hempty] at hid
  obtain rfl := Option.some.inj hid
  exact hne (Option.some.inj (hkey.symm.trans rfl))

end S3ObjectVersioingHelper

end CortxS3
