/-
Numbers written in decimal and read back, and where they stand among strings.

A number without leading zeros is read back as it is (`leadingInt_decimal`).  Numbers of one
digit are in the order of their digits.  With a second digit the order is lost: behind a
separator that is larger than every digit, a longer number that begins with the same digit
comes first (`decimal_lt_of_ten_le`).
-/
import CortxS3.Lib.OrderedIndex
import CortxS3.Basic

namespace CortxS3

open List

/-! ### The digits -/

def IsDigit (c : UInt8) : Prop := 48 ≤ c ∧ c ≤ 57

theorem isDigit_ofNat {d : Nat} (hd : d < 10) :
    IsDigit (UInt8.ofNat (48 + d)) ∧ (UInt8.ofNat (48 + d)).toNat - 48 = d := by
  have h : ∀ d < 10, ((48 ≤ UInt8.ofNat (48 + d)) ∧ (UInt8.ofNat (48 + d) ≤ 57)) ∧
      (UInt8.ofNat (48 + d)).toNat - 48 = d := by decide
  exact h d hd

theorem lowDigits_isDigit : ∀ (fuel n : Nat), ∀ c ∈ lowDigits fuel n, IsDigit c := by
  intro fuel
  induction fuel with
  | zero =>
    intro n c hc
    cases hc
  | succ fuel ih =>
    intro n c hc
    unfold lowDigits at hc
    rcases mem_cons.mp hc with rfl | hc
    · exact (isDigit_ofNat (Nat.mod_lt n (by omega))).1
    · split at hc
      · cases hc
      · exact ih _ c hc

theorem decimal_isDigit (n : Nat) : ∀ c ∈ decimal n, IsDigit c := by
  intro c hc
  exact lowDigits_isDigit _ _ c (mem_reverse.mp hc)

variable {n : Nat}

theorem decimal_of_lt_ten (h : n < 10) : decimal n = [UInt8.ofNat (48 + n)] := by
  unfold decimal lowDigits
  rw [if_pos h, Nat.mod_eq_of_lt h]
  rfl

theorem decimal_ne_nil (n : Nat) : decimal n ≠ [] := by
  unfold decimal
  rw [Ne, reverse_eq_nil_iff]
  unfold lowDigits
  exact cons_ne_nil _ _

theorem decimal_of_ten_le (h : 10 ≤ n) :
    ∃ a b rest, decimal n = a :: b :: rest ∧ IsDigit a ∧ IsDigit b := by
  have hlen : 2 ≤ (decimal n).length := by
    obtain ⟨f, rfl⟩ : ∃ f, n = f + 1 := ⟨n - 1, by omega⟩
    unfold decimal
    rw [length_reverse, lowDigits, if_neg (by omega), length_cons]
    unfold lowDigits
    rw [length_cons]
    omega
  match hdec : decimal n, hlen with
  | a :: b :: rest, _ =>
    have hall := decimal_isDigit n
    rw [hdec] at hall
    exact ⟨a, b, rest, rfl, hall a (by simp), hall b (by simp)⟩

theorem lowDigits_getLast :
    ∀ (fuel n : Nat), n < fuel → 0 < n → ∃ low c, lowDigits fuel n = low ++ [c] ∧ 48 < c := by
  intro fuel
  induction fuel with
  | zero =>
    intro n h
    omega
  | succ fuel ih =>
    intro n h hpos
    unfold lowDigits
    by_cases hn : n < 10
    · rw [if_pos hn]
      refine ⟨[], UInt8.ofNat (48 + n % 10), rfl, ?_⟩
      have hall : ∀ d < 10, 0 < d → (48 : UInt8) < UInt8.ofNat (48 + d) := by decide
      rw [Nat.mod_eq_of_lt hn]
      exact hall n hn hpos
    · rw [if_neg hn]
      obtain ⟨low, c, hlow, hc⟩ := ih (n / 10) (by omega) (by omega)
      exact ⟨UInt8.ofNat (48 + n % 10) :: low, c, by rw [hlow]; rfl, hc⟩

theorem zero_lt_decimal (h : 0 < n) : ascii "0" < decimal n := by
  obtain ⟨low, c, hlow, hc⟩ := lowDigits_getLast (n + 1) n (Nat.lt_succ_self n) h
  unfold decimal
  rw [hlow, reverse_append]
  exact cons_lt_cons_iff.mpr (.inl hc)

theorem decimal_eq_cons (h : 0 < n) : ∃ c rest, decimal n = c :: rest ∧ 48 < c ∧ IsDigit c := by
  obtain ⟨low, c, hlow, hc⟩ := lowDigits_getLast (n + 1) n (Nat.lt_succ_self n) h
  have hdec : decimal n = c :: low.reverse := by
    unfold decimal
    rw [hlow, reverse_append]
    rfl
  exact ⟨c, low.reverse, hdec, hc, decimal_isDigit n c (by rw [hdec]; simp)⟩

theorem nil_lt_decimal (n : Nat) : ([] : Bytes) < decimal n := by
  cases h : decimal n with
  | nil => exact absurd h (decimal_ne_nil n)
  | cons c rest => exact nil_lt_cons c rest

variable {c : UInt8}

theorem IsDigit.ne {d : UInt8} (h : IsDigit c) (hd : d < 48 ∨ 57 < d) : c ≠ d := by
  rintro rfl
  rcases hd with hd | hd
  · exact absurd h.1 (not_le_of_gt hd)
  · exact absurd h.2 (not_le_of_gt hd)

variable {s : Bytes}

theorem nulFree_of_digits (hs : ∀ c ∈ s, IsDigit c) : NulFree s := by
  intro h
  exact (hs 0 h).ne (Or.inl (by decide)) rfl

theorem nulFree_decimal (n : Nat) : NulFree (decimal n) := nulFree_of_digits (decimal_isDigit n)

theorem IsDigit.not_isSpace (h : IsDigit c) : isSpace c = false := by
  unfold isSpace
  have h1 : c ≠ 32 := h.ne (Or.inl (by decide))
  have h2 : ¬ c ≤ 13 := fun hle => absurd (le_trans h.1 hle) (by decide)
  simp [h1, h2]

/-! ### Reading a number back -/

theorem decimalValue_append (hs : ∀ c ∈ s, IsDigit c) (hc : IsDigit c) :
    ∀ acc, decimalValue (s ++ [c]) acc = decimalValue s acc * 10 + (c.toNat - 48) := by
  induction s with
  | nil =>
    intro acc
    simp [decimalValue, hc.1, hc.2]
  | cons d s ih =>
    intro acc
    have hd := hs d mem_cons_self
    rw [cons_append]
    unfold decimalValue
    rw [if_pos (by simp [hd.1, hd.2]), if_pos (by simp [hd.1, hd.2])]
    exact ih (fun c hc => hs c (mem_cons_of_mem _ hc)) _

theorem decimalValue_lowDigits :
    ∀ (fuel n : Nat), n < fuel → decimalValue (lowDigits fuel n).reverse 0 = n := by
  intro fuel
  induction fuel with
  | zero =>
    intro n h
    omega
  | succ fuel ih =>
    intro n h
    have hd := isDigit_ofNat (Nat.mod_lt n (show 0 < 10 by omega))
    unfold lowDigits
    rw [reverse_cons]
    by_cases hn : n < 10
    · rw [if_pos hn, reverse_nil, decimalValue_append (by simp) hd.1, hd.2]
      simp [decimalValue, Nat.mod_eq_of_lt hn]
    · rw [if_neg hn, decimalValue_append _ hd.1, ih _ (by omega), hd.2]
      · omega
      · intro c hc
        exact lowDigits_isDigit _ _ c (mem_reverse.mp hc)

theorem decimalValue_append_of_not_digit (hs : ∀ c ∈ s, IsDigit c) (hc : ¬ IsDigit c) (t : Bytes) :
    ∀ acc, decimalValue (s ++ c :: t) acc = decimalValue s acc := by
  induction s with
  | nil =>
    intro acc
    rw [nil_append]
    unfold decimalValue
    rw [if_neg]
    intro h
    rw [Bool.and_eq_true, decide_eq_true_eq, decide_eq_true_eq] at h
    exact hc h
  | cons d s ih =>
    intro acc
    have hd := hs d mem_cons_self
    rw [cons_append]
    unfold decimalValue
    rw [if_pos (by simp [hd.1, hd.2]), if_pos (by simp [hd.1, hd.2])]
    exact ih (fun c hc => hs c (mem_cons_of_mem _ hc)) _

/-- **A number is read back as it was written.** -/
theorem decimalValue_decimal (n : Nat) : decimalValue (decimal n) 0 = n :=
  decimalValue_lowDigits _ _ (Nat.lt_succ_self n)

theorem decimal_injective {k : Nat} (h : decimal n = decimal k) : n = k := by
  rw [← decimalValue_decimal n, h, decimalValue_decimal]

/-- A string of digits is a number, whether or not zeros stand before it. -/
theorem leadingInt_of_digits (hne : s ≠ []) (hs : ∀ c ∈ s, IsDigit c) :
    leadingInt (cStr s) = some (decimalValue s 0 : Int) := by
  rw [cStr_of_nulFree (nulFree_of_digits hs)]
  cases s with
  | nil => exact absurd rfl hne
  | cons c rest =>
    have hc : IsDigit c := hs c mem_cons_self
    have hminus : c ≠ 45 := hc.ne (Or.inl (by decide))
    have hplus : c ≠ 43 := hc.ne (Or.inl (by decide))
    unfold leadingInt
    rw [dropWhile_cons_of_neg (by simp [hc.not_isSpace])]
    dsimp only
    split
    · rename_i heq
      exact absurd (List.cons.inj heq).1 hminus
    · rename_i heq
      exact absurd (List.cons.inj heq).1 hplus
    · simp [hc.1, hc.2]

theorem leadingInt_decimal (n : Nat) : leadingInt (cStr (decimal n)) = some (n : Int) := by
  rw [leadingInt_of_digits (decimal_ne_nil n) (decimal_isDigit n), decimalValue_decimal]

theorem stoi_of_digits (hne : s ≠ []) (hs : ∀ c ∈ s, IsDigit c) (hlt : decimalValue s 0 < 2 ^ 31) :
    stoi s = some (decimalValue s 0 : Int) := by
  unfold stoi
  rw [leadingInt_of_digits hne hs, Option.filter_some, if_pos]
  simp only [Bool.and_eq_true, decide_eq_true_eq]
  omega

theorem stoi_decimal (h : n < 2 ^ 31) : stoi (decimal n) = some (n : Int) := by
  have hvalue := decimalValue_decimal n
  rw [stoi_of_digits (decimal_ne_nil n) (decimal_isDigit n) (by rw [hvalue]; exact h), hvalue]

theorem atoi_decimal (h : n < 2 ^ 31) : atoi (decimal n) = (n : Int) := by
  unfold atoi
  rw [leadingInt_decimal]
  show toInt32 (max (-(2 ^ 63 : Int)) (min (2 ^ 63 - 1 : Int) (n : Int))) = (n : Int)
  have hclamp : max (-(2 ^ 63 : Int)) (min (2 ^ 63 - 1 : Int) (n : Int)) = n := by omega
  rw [hclamp]
  unfold toInt32
  omega

/-! ### Numbers among strings -/

open OrderedIndex in
theorem append_lt_append_left (p : Bytes) {a b : Bytes} (h : a < b) : p ++ a < p ++ b := by
  induction p with
  | nil => exact h
  | cons c p ih =>
    rw [cons_append, cons_append, cons_lt_cons_iff]
    exact Or.inr ⟨rfl, ih⟩

theorem digit_lt {i j : Nat} (hj : j < 10) (h : i < j) :
    UInt8.ofNat (48 + i) < UInt8.ofNat (48 + j) := by
  have hall : ∀ j < 10, ∀ i < j, UInt8.ofNat (48 + i) < UInt8.ofNat (48 + j) := by
    decide
  exact hall j hj i h

theorem decimal_lt_of_lt_ten {i j : Nat} (hj : j < 10) (h : i < j) (x y : Bytes) :
    decimal i ++ x < decimal j ++ y := by
  rw [decimal_of_lt_ten (by omega), decimal_of_lt_ten hj]
  exact cons_lt_cons_iff.mpr (Or.inl (digit_lt hj h))

/-- **A number with more digits stands before nine.** -/
theorem decimal_lt_nine (h : 10 ≤ n) (hc : 57 < c) (x y : Bytes) :
    decimal n ++ x < decimal 9 ++ c :: y := by
  obtain ⟨a, b, rest, hdec, ha, hb⟩ := decimal_of_ten_le h
  have hnine : decimal 9 = [57] := by decide
  rw [hdec, hnine, cons_append, cons_append, singleton_append, cons_lt_cons_iff]
  rcases lt_or_eq_of_le ha.2 with hlt | heq
  · exact Or.inl hlt
  · refine Or.inr ⟨heq, ?_⟩
    exact cons_lt_cons_iff.mpr (Or.inl (lt_of_le_of_lt hb.2 hc))

theorem decimal_ten_lt_two (x y : Bytes) : decimal 10 ++ x < decimal 2 ++ y := by
  have h10 : decimal 10 = [49, 48] := by decide
  have h2 : decimal 2 = [50] := by decide
  rw [h10, h2]
  exact cons_lt_cons_iff.mpr (Or.inl (by decide))

/-! ### Numbers of the same length -/

/-- With fuel enough the last digit is taken off, and no more of the fuel matters. -/
theorem lowDigits_fuel :
    ∀ (fuel fuel' n : Nat), n < fuel → n < fuel' → lowDigits fuel n = lowDigits fuel' n := by
  intro fuel
  induction fuel with
  | zero =>
    intro fuel' n h
    omega
  | succ fuel ih =>
    intro fuel' n h h'
    obtain ⟨fuel', rfl⟩ : ∃ f, fuel' = f + 1 := ⟨fuel' - 1, by omega⟩
    unfold lowDigits
    by_cases hn : n < 10
    · rw [if_pos hn, if_pos hn]
    · rw [if_neg hn, if_neg hn, ih fuel' (n / 10) (by omega) (by omega)]

theorem decimal_split (h : 10 ≤ n) :
    decimal n = decimal (n / 10) ++ [UInt8.ofNat (48 + n % 10)] := by
  have hlow : lowDigits (n + 1) n = UInt8.ofNat (48 + n % 10) :: lowDigits n (n / 10) := by
    conv_lhs => unfold lowDigits
    rw [if_neg (by omega)]
  unfold decimal
  rw [hlow, reverse_cons, lowDigits_fuel n (n / 10 + 1) (n / 10) (by omega) (by omega)]

theorem lt_append_of_lt_of_length_eq {a b : Bytes} (x y : Bytes) (hlen : a.length = b.length)
    (h : a < b) : a ++ x < b ++ y := by
  induction a generalizing b with
  | nil =>
    cases b with
    | nil => exact absurd h (lt_irrefl _)
    | cons d b => cases hlen
  | cons c a ih =>
    cases b with
    | nil => cases hlen
    | cons d b =>
      rcases cons_lt_cons_iff.mp h with hcd | ⟨rfl, hab⟩
      · exact cons_lt_cons_iff.mpr (.inl hcd)
      · exact cons_lt_cons_iff.mpr (.inr ⟨rfl, ih (Nat.succ.inj hlen) hab⟩)

/-- **Numbers of the same length are in the order of their texts.** -/
theorem decimal_lt_of_length_eq :
    ∀ {m n : Nat}, n < m → (decimal n).length = (decimal m).length → decimal n < decimal m := by
  intro m
  induction m using Nat.strongRecOn with
  | ind m ih =>
    intro n hlt hlen
    by_cases hm : m < 10
    · rw [decimal_of_lt_ten hm, decimal_of_lt_ten (by omega : n < 10)]
      exact cons_lt_cons_iff.mpr (.inl (digit_lt hm hlt))
    · have hn : 10 ≤ n := by
        by_contra hn
        obtain ⟨a, b, rest, hdec, -⟩ := decimal_of_ten_le (by omega : 10 ≤ m)
        rw [decimal_of_lt_ten (by omega : n < 10), hdec] at hlen
        simp at hlen
      rw [decimal_split hn, decimal_split (by omega : 10 ≤ m)] at hlen ⊢
      rw [length_append, length_append] at hlen
      by_cases hq : n / 10 = m / 10
      · rw [hq]
        refine append_lt_append_left _ ?_
        exact cons_lt_cons_iff.mpr (.inl (digit_lt (by omega) (by omega)))
      · exact lt_append_of_lt_of_length_eq _ _ (by simpa using hlen)
          (ih (m / 10) (by omega) (by omega) (by simpa using hlen))

theorem length_decimal :
    ∀ {k n : Nat}, 10 ^ k ≤ n → n < 10 ^ (k + 1) → (decimal n).length = k + 1 := by
  intro k
  induction k with
  | zero =>
    intro n _ h
    rw [decimal_of_lt_ten (by omega)]
    rfl
  | succ k ih =>
    intro n hle hlt
    have hten : 10 ≤ n := by
      have : 10 ^ 1 ≤ 10 ^ (k + 1) := Nat.pow_le_pow_right (by omega) (by omega)
      omega
    rw [decimal_split hten, length_append, ih (n := n / 10)]
    · rfl
    · rw [Nat.le_div_iff_mul_le (by omega), ← Nat.pow_succ]
      exact hle
    · rw [Nat.div_lt_iff_lt_mul (by omega), ← Nat.pow_succ]
      exact hlt

end CortxS3
