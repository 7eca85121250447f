/-
What the pattern matcher of the policies decides.

`isPatternMatching` fills a table row by row: the cell in row `i` and column `j` says whether the
first `i` characters of the input match the first `j` of the pattern.  A cell is computed from
cells filled before it, by what the last token of a pattern decides.
-/
import CortxS3.Auth.PolicyUtil
import CortxS3.Lib.Wildcard

namespace CortxS3

open List

namespace PolicyUtil

open Wildcard

/-! ### Patterns -/

/-- What a character of a pattern stands for. -/
def token (c : UInt16) : Token UInt16 :=
  if c = 42 then .anyMany else if c = 63 then .anyOne else .char c

variable {c : UInt16}

theorem token_star (h : c = 42) : token c = .anyMany := if_pos h

theorem token_mark (h : c = 63) : token c = .anyOne := by
  rw [h]
  rfl

theorem token_other (hstar : c ≠ 42) (hmark : c ≠ 63) : token c = .char c := by
  rw [token, if_neg hstar, if_neg hmark]

/-- **The input is the pattern with each `?` replaced by one character and each `*` by any
characters.** -/
def Replaces (pattern input : JavaString) : Prop := Matches (pattern.map token) input

/-- What a cell of the table has to say. -/
def Fits (input pattern : JavaString) (i j : Nat) : Prop :=
  Replaces (pattern.take j) (input.take i)

variable {input pattern : JavaString} {data : Table} {i j : Nat}

variable {s : JavaString}

theorem charAt_eq (h : i < s.length) : charAt s i = s[i] := by
  unfold charAt
  simp [h]

theorem take_succ_eq (h : i < s.length) : s.take (i + 1) = s.take i ++ [charAt s i] := by
  rw [charAt_eq h, take_succ_eq_append_getElem h]

theorem map_token_succ (hj : j < pattern.length) :
    (pattern.take (j + 1)).map token = (pattern.take j).map token ++ [token (charAt pattern j)] := by
  rw [take_succ_eq hj, map_append]
  rfl

theorem fits_zero_zero : Fits input pattern 0 0 := by
  simp [Fits, Replaces]

theorem not_fits_succ_zero (hi : i < input.length) : ¬Fits input pattern (i + 1) 0 := by
  unfold Fits Replaces
  rw [take_succ_eq hi]
  simp

/-- The first row: a `*` may stand for nothing, another token may not. -/
theorem fits_zero_succ (hj : j < pattern.length) :
    Fits input pattern 0 (j + 1) ↔ charAt pattern j = 42 ∧ Fits input pattern 0 j := by
  unfold Fits Replaces
  rw [map_token_succ hj, take_zero]
  by_cases hstar : charAt pattern j = 42
  · rw [token_star hstar, matches_anyMany_nil]
    exact ⟨fun h => ⟨hstar, h⟩, fun h => h.2⟩
  · refine iff_of_false ?_ (fun h => hstar h.1)
    by_cases hmark : charAt pattern j = 63
    · rw [token_mark hmark]
      exact not_matches_anyOne_nil
    · rw [token_other hstar hmark]
      exact not_matches_char_nil

theorem fits_succ_succ (hi : i < input.length) (hj : j < pattern.length) :
    Fits input pattern (i + 1) (j + 1) ↔
      if charAt pattern j = 42 then
        Fits input pattern (i + 1) j ∨ Fits input pattern i (j + 1)
      else if charAt pattern j = 63 ∨ charAt input i = charAt pattern j then
        Fits input pattern i j
      else False := by
  unfold Fits Replaces
  rw [map_token_succ hj, take_succ_eq hi]
  by_cases hstar : charAt pattern j = 42
  · rw [if_pos hstar, token_star hstar]
    exact matches_anyMany_concat
  · rw [if_neg hstar]
    by_cases hmark : charAt pattern j = 63
    · rw [if_pos (Or.inl hmark), token_mark hmark]
      exact matches_anyOne_concat
    · rw [token_other hstar hmark, matches_char_concat]
      simp only [hmark, false_or]
      by_cases heq : charAt input i = charAt pattern j
      · simp [heq]
      · simp [heq, Ne.symm heq]

/-! ### The table -/

/-- The table has a row for every beginning of the input and a column for every beginning of the
pattern. -/
structure Sized (n m : Nat) (data : Table) : Prop where
  rows : data.size = n + 1
  columns : ∀ r, r ≤ n → (data.getD r #[]).size = m + 1

theorem sized_replicate (n m : Nat) :
    Sized n m (Array.replicate (n + 1) (Array.replicate (m + 1) false)) := by
  refine ⟨by simp, ?_⟩
  intro r hr
  simp [Array.getD_eq_getD_getElem?, show r < n + 1 by omega]

variable {b : Bool} {r : Nat}

theorem getD_setCell (hi : i < data.size) :
    (setCell data i j b).getD r #[] =
      if r = i then (data.getD i #[]).setIfInBounds j b else data.getD r #[] := by
  unfold setCell
  rw [Array.getD_eq_getD_getElem?, Array.getElem?_setIfInBounds]
  by_cases h : i = r
  · rw [if_pos h, if_pos hi, if_pos h.symm]
    rfl
  · rw [if_neg h, if_neg (Ne.symm h), Array.getD_eq_getD_getElem?]

variable {m n : Nat}

theorem Sized.setCell (h : Sized n m data) (hi : i ≤ n) : Sized n m (setCell data i j b) := by
  refine ⟨by simpa [PolicyUtil.setCell] using h.rows, ?_⟩
  intro r hr
  rw [getD_setCell (by rw [h.rows]; omega)]
  by_cases hri : r = i
  · rw [if_pos hri, Array.size_setIfInBounds]
    exact h.columns i hi
  · rw [if_neg hri]
    exact h.columns r hr

theorem cell_setCell {c : Nat} (h : Sized n m data) (hi : i ≤ n) (hj : j ≤ m) :
    cell (setCell data i j b) r c = if r = i ∧ c = j then b else cell data r c := by
  unfold cell
  rw [getD_setCell (by rw [h.rows]; omega)]
  by_cases hri : r = i
  · have hcol : j < (data.getD i #[]).size := by
      rw [h.columns i hi]
      omega
    rw [if_pos hri, Array.getD_eq_getD_getElem?, Array.getElem?_setIfInBounds]
    by_cases hcj : j = c
    · rw [if_pos hcj, if_pos hcol, if_pos ⟨hri, hcj.symm⟩]
      rfl
    · rw [if_neg hcj, if_neg (fun h => hcj h.2.symm), hri]
      exact (Array.getD_eq_getD_getElem?).symm
  · rw [if_neg hri, if_neg (fun h => hri h.1)]

/-- The cells that have been filled: the rows above row `i`, and of that row the columns up to
`j`. -/
def Done (i j r c : Nat) : Prop := r < i ∨ r = i ∧ c ≤ j

/-- The table filled up to a cell.  What has not been filled is still false. -/
structure Filled (input pattern : JavaString) (i j : Nat) (data : Table) : Prop where
  sized : Sized input.length pattern.length data
  done : ∀ r c, c ≤ pattern.length → Done i j r c →
    (cell data r c = true ↔ Fits input pattern r c)
  fresh : ∀ r c, c ≤ pattern.length → ¬Done i j r c → cell data r c = false

theorem Filled.next (h : Filled input pattern i j data) (hi : i ≤ input.length)
    (hj : j < pattern.length) (hb : b = true ↔ Fits input pattern i (j + 1)) :
    Filled input pattern i (j + 1) (setCell data i (j + 1) b) := by
  refine ⟨h.sized.setCell hi, ?_, ?_⟩
  · intro r c hc hdone
    rw [cell_setCell h.sized hi hj]
    by_cases heq : r = i ∧ c = j + 1
    · rw [if_pos heq, heq.1, heq.2]
      exact hb
    · rw [if_neg heq]
      refine h.done r c hc ?_
      unfold Done at hdone ⊢
      omega
  · intro r c hc hdone
    unfold Done at hdone
    rw [cell_setCell h.sized hi hj, if_neg (by omega)]
    refine h.fresh r c hc ?_
    unfold Done
    omega

theorem Filled.skip (h : Filled input pattern i j data) (hfits : ¬Fits input pattern i (j + 1)) :
    Filled input pattern i (j + 1) data := by
  refine ⟨h.sized, ?_, ?_⟩
  · intro r c hc hdone
    by_cases heq : r = i ∧ c = j + 1
    · have hfresh := h.fresh r c hc (by unfold Done; omega)
      rw [heq.1, heq.2] at hfresh ⊢
      rw [hfresh]
      simpa using hfits
    · refine h.done r c hc ?_
      unfold Done at hdone ⊢
      omega
  · intro r c hc hdone
    refine h.fresh r c hc ?_
    unfold Done at hdone ⊢
    omega

/-- Behind a full row the next one has begun: its first cell is false, and nothing fits there. -/
theorem Filled.newRow (h : Filled input pattern i pattern.length data) (hi : i < input.length) :
    Filled input pattern (i + 1) 0 data := by
  refine ⟨h.sized, ?_, ?_⟩
  · intro r c hc hdone
    by_cases heq : r = i + 1
    · have hc0 : c = 0 := by
        unfold Done at hdone
        omega
      have hfresh := h.fresh r c hc (by unfold Done; omega)
      rw [heq, hc0] at hfresh ⊢
      rw [hfresh]
      simpa using @not_fits_succ_zero input pattern i hi
    · refine h.done r c hc ?_
      unfold Done at hdone ⊢
      omega
  · intro r c hc hdone
    refine h.fresh r c hc ?_
    unfold Done at hdone ⊢
    omega

/-! ### The loops -/

theorem Filled.firstRowStep (h : Filled input pattern 0 j data) (hj : j < pattern.length) :
    Filled input pattern 0 (j + 1) (firstRowStep pattern data (j + 1)) := by
  unfold PolicyUtil.firstRowStep
  rw [Nat.add_sub_cancel]
  by_cases hstar : charAt pattern j = 42
  · rw [if_pos hstar]
    refine h.next (Nat.zero_le _) hj ?_
    rw [fits_zero_succ hj, h.done 0 j (by omega) (Or.inr ⟨rfl, le_refl j⟩)]
    simp [hstar]
  · rw [if_neg hstar]
    refine h.skip ?_
    rw [fits_zero_succ hj]
    exact fun hfits => hstar hfits.1

theorem Filled.cellStep (h : Filled input pattern (i + 1) j data) (hi : i < input.length)
    (hj : j < pattern.length) :
    Filled input pattern (i + 1) (j + 1) (cellStep input pattern (i + 1) data (j + 1)) := by
  have hleft := h.done (i + 1) j (by omega) (Or.inr ⟨rfl, le_refl j⟩)
  have habove := h.done i (j + 1) hj (Or.inl (by omega))
  have hdiagonal := h.done i j (by omega) (Or.inl (by omega))
  unfold PolicyUtil.cellStep
  rw [Nat.add_sub_cancel, Nat.add_sub_cancel]
  refine h.next hi hj ?_
  rw [fits_succ_succ hi hj]
  by_cases hstar : charAt pattern j = 42
  · rw [if_pos hstar, if_pos hstar, Bool.or_eq_true, hleft, habove]
  · rw [if_neg hstar, if_neg hstar]
    by_cases hone : charAt pattern j = 63 ∨ charAt input i = charAt pattern j
    · rw [if_pos hone, if_pos hone, hdiagonal]
    · rw [if_neg hone, if_neg hone]
      simp

theorem Filled.columns {step : Table → Nat → Table} {i : Nat}
    (hstep : ∀ j data, j < pattern.length → Filled input pattern i j data →
      Filled input pattern i (j + 1) (step data (j + 1)))
    (h : Filled input pattern i 0 data) :
    ∀ k, k ≤ pattern.length → Filled input pattern i k ((List.range' 1 k).foldl step data) := by
  intro k
  induction k with
  | zero => exact fun _ => h
  | succ k ih =>
    intro hk
    rw [range'_concat, foldl_append]
    have := hstep k _ (by omega) (ih (by omega))
    simpa [Nat.add_comm] using this

theorem Filled.rowStep (h : Filled input pattern i pattern.length data) (hi : i < input.length) :
    Filled input pattern (i + 1) pattern.length (rowStep input pattern data (i + 1)) :=
  (h.newRow hi).columns (fun _ _ hj hdata => hdata.cellStep hi hj) _ (le_refl _)

theorem Filled.rows (h : Filled input pattern 0 pattern.length data) :
    ∀ k, k ≤ input.length →
      Filled input pattern k pattern.length
        ((List.range' 1 k).foldl (PolicyUtil.rowStep input pattern) data) := by
  intro k
  induction k with
  | zero => exact fun _ => h
  | succ k ih =>
    intro hk
    rw [range'_concat, foldl_append]
    have := (ih (by omega)).rowStep (show k < input.length by omega)
    simpa [Nat.add_comm] using this

theorem filled_start (input pattern : JavaString) :
    Filled input pattern 0 0
      (setCell (Array.replicate (input.length + 1)
        (Array.replicate (pattern.length + 1) false)) 0 0 true) := by
  have hsized := sized_replicate input.length pattern.length
  have hfalse : ∀ r c, cell (Array.replicate (input.length + 1)
      (Array.replicate (pattern.length + 1) false)) r c = false := by
    intro r c
    unfold cell
    by_cases hr : r < input.length + 1
    · by_cases hc : c < pattern.length + 1
      · simp [Array.getD_eq_getD_getElem?, hr, hc]
      · simp [Array.getD_eq_getD_getElem?, hr, hc]
    · simp [Array.getD_eq_getD_getElem?, hr]
  refine ⟨hsized.setCell (Nat.zero_le _), ?_, ?_⟩
  · intro r c hc hdone
    unfold Done at hdone
    have hr : r = 0 := by omega
    have hc : c = 0 := by omega
    rw [cell_setCell hsized (Nat.zero_le _) (Nat.zero_le _), if_pos ⟨hr, hc⟩, hr, hc]
    simpa using fits_zero_zero
  · intro r c _ hdone
    unfold Done at hdone
    rw [cell_setCell hsized (Nat.zero_le _) (Nat.zero_le _), if_neg (by omega)]
    exact hfalse r c

theorem isPatternMatching_eq_true (input pattern : JavaString) :
    isPatternMatching input pattern = true ↔ Replaces pattern input := by
  unfold isPatternMatching
  by_cases hempty : pattern.length = 0
  · rw [if_pos hempty, length_eq_zero_iff.mp hempty, decide_eq_true_eq,
      length_eq_zero_iff]
    simp [Replaces]
  · rw [if_neg hempty]
    have hfirst := (filled_start input pattern).columns
      (fun _ _ hj hdata => hdata.firstRowStep hj) _ (le_refl _)
    have hall := hfirst.rows _ (le_refl _)
    rw [hall.done input.length pattern.length (le_refl _) (Or.inr ⟨rfl, le_refl _⟩)]
    unfold Fits
    rw [take_length, take_length]

/-! ### Actions -/

theorem mem_getAllMatchingActions {C : CharacterData} {A : S3Actions} {inputAction action : JavaString} :
    action ∈ getAllMatchingActions C A inputAction ↔
      action ∈ A.known ∧ Replaces (C.toLowerCase inputAction) (C.toLowerCase action) := by
  unfold getAllMatchingActions S3Actions.known
  rw [mem_append, mem_append, mem_filter, mem_filter, isPatternMatching_eq_true, or_and_right]

/-- Of actions in ASCII, those are found that the pattern stands for with its letters in lower case. -/
theorem mem_getAllMatchingActions_ascii {C : CharacterData} (hC : C.LowersAscii) {A : S3Actions}
    {inputAction action : JavaString} (hinput : ∀ c ∈ inputAction, c < 128)
    (haction : ∀ c ∈ action, c < 128) :
    action ∈ getAllMatchingActions C A inputAction ↔ action ∈ A.known ∧
      Replaces (inputAction.map CharacterData.asciiToLower)
        (action.map CharacterData.asciiToLower) := by
  rw [mem_getAllMatchingActions, hC _ hinput, hC _ haction]

/-- **The matcher is the definition of a wildcard, and the actions found for a pattern are the
known ones that it stands for when letter case does not count.** -/
theorem wildcards_decided (C : CharacterData) (A : S3Actions) :
    (∀ input pattern, isPatternMatching input pattern = true ↔ Replaces pattern input) ∧
    ∀ inputAction action, action ∈ getAllMatchingActions C A inputAction ↔
      action ∈ A.known ∧ Replaces (C.toLowerCase inputAction) (C.toLowerCase action) :=
  ⟨isPatternMatching_eq_true, fun _ _ => mem_getAllMatchingActions⟩

end PolicyUtil

end CortxS3
