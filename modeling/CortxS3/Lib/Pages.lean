/-
An ordered index that is listed in pages.

A listing gives the keys behind a marker that meet a condition, `n` of them at most, and the
reader comes back with the last key it was given.  Where it then goes on is right behind that page
(`matching_of_split`), so the pages that a reader sees are the listing cut into pieces
(`pages`).  When a page is full the reader asks for one more, which may be empty.
-/
import CortxS3.Lib.OrderedIndex

namespace Pages

universe u v

variable {κ : Type u} {ν : Type v} [LinearOrder κ]

open OrderedIndex

/-- The pairs behind `start` whose key meets a condition. -/
def matching (q : κ → Bool) (idx : List (κ × ν)) (start : κ) : List (κ × ν) :=
  (after idx start).filter fun kv => q kv.1

theorem mem_matching {q : κ → Bool} {idx : List (κ × ν)} {start : κ} {kv : κ × ν} :
    kv ∈ matching q idx start ↔ kv ∈ idx ∧ start < kv.1 ∧ q kv.1 = true := by
  unfold matching
  rw [List.mem_filter, mem_after, and_assoc]

theorem sorted_matching {q : κ → Bool} {idx : List (κ × ν)} (hs : Sorted idx) (start : κ) :
    Sorted (matching q idx start) :=
  (hs.sublist List.filter_sublist).sublist List.filter_sublist

/-- What lies behind a key lies behind every smaller one. -/
theorem after_after {idx : List (κ × ν)} {start k : κ} (h : start ≤ k) :
    after idx k = after (after idx start) k := by
  unfold after
  rw [List.filter_filter]
  refine List.filter_congr fun kv _ => ?_
  by_cases hk : k < kv.1
  · simp [hk, lt_of_le_of_lt h hk]
  · simp [hk]

/-- Only what lies behind the marker is listed. -/
theorem matching_congr {q : κ → Bool} {idx idx' : List (κ × ν)} {start : κ}
    (h : after idx start = after idx' start) : matching q idx start = matching q idx' start := by
  unfold matching
  rw [h]

/-- **Behind the last key of a page the listing goes on.** -/
theorem matching_of_split {q : κ → Bool} {idx batch rest : List (κ × ν)} {start : κ} {kv : κ × ν}
    (hs : Sorted idx) (h : matching q idx start = batch ++ kv :: rest) :
    matching q idx kv.1 = rest := by
  have hmem : kv ∈ matching q idx start := by
    rw [h]
    exact List.mem_append_right _ (List.mem_cons_self ..)
  have hlt : start < kv.1 := (mem_matching.mp hmem).2.1
  have hsplit : matching q idx kv.1 = after (matching q idx start) kv.1 := by
    unfold matching
    rw [after_after (le_of_lt hlt)]
    unfold after
    simp only [List.filter_filter]
    refine List.filter_congr fun x _ => ?_
    rw [Bool.and_comm (q x.1), Bool.and_comm (q x.1), Bool.and_assoc]
  have hsorted := sorted_matching (q := q) hs start
  rw [hsplit, h]
  rw [h] at hsorted
  exact after_append hsorted

/-- The pages of a listing, each with the marker it is asked for. -/
def pages (n : Nat) : Nat → κ → List (κ × ν) → List (κ × List (κ × ν))
  | 0, _, _ => []
  | fuel + 1, marker, rest =>
    (marker, rest.take n) ::
      match (rest.take n).getLast? with
      | some kv => if n ≤ rest.length then pages n fuel kv.1 (rest.drop n) else []
      | none => []

omit [LinearOrder κ] in
/-- More fuel than there are pairs makes no difference. -/
theorem pages_fuel {n : Nat} (hn : 1 ≤ n) :
    ∀ (fuel fuel' : Nat) (marker : κ) (rest : List (κ × ν)), rest.length < fuel →
      rest.length < fuel' → pages n fuel marker rest = pages n fuel' marker rest := by
  intro fuel
  induction fuel with
  | zero =>
    intro fuel' marker rest h
    exact absurd h (Nat.not_lt_zero _)
  | succ fuel ih =>
    intro fuel' marker rest h h'
    cases fuel' with
    | zero => exact absurd h' (Nat.not_lt_zero _)
    | succ fuel' =>
      unfold pages
      congr 1
      cases (rest.take n).getLast? with
      | none => rfl
      | some kv =>
        simp only
        by_cases hle : n ≤ rest.length
        · rw [if_pos hle, if_pos hle]
          exact ih fuel' kv.1 (rest.drop n) (by rw [List.length_drop]; omega)
            (by rw [List.length_drop]; omega)
        · rw [if_neg hle, if_neg hle]

omit [LinearOrder κ] in
/-- All pages together are the listing. -/
theorem flatMap_pages {n : Nat} (hn : 1 ≤ n) :
    ∀ (fuel : Nat) (marker : κ) (rest : List (κ × ν)), rest.length < fuel →
      (pages n fuel marker rest).flatMap (·.2) = rest := by
  intro fuel
  induction fuel with
  | zero =>
    intro marker rest h
    exact absurd h (Nat.not_lt_zero _)
  | succ fuel ih =>
    intro marker rest h
    unfold pages
    rw [List.flatMap_cons]
    cases hlast : (rest.take n).getLast? with
    | none =>
      have hnil : rest.take n = [] := List.getLast?_eq_none_iff.mp hlast
      have hrest : rest = [] := by
        rcases List.take_eq_nil_iff.mp hnil with h0 | h0
        · omega
        · exact h0
      rw [hrest]
      simp
    | some kv =>
      simp only
      by_cases hle : n ≤ rest.length
      · rw [if_pos hle, ih kv.1 (rest.drop n) (by rw [List.length_drop]; omega),
          List.take_append_drop]
      · rw [if_neg hle, List.take_of_length_le (by omega)]
        simp

/-- A page that is not empty ends at its last key, with what lies behind it to come. -/
theorem matching_drop {q : κ → Bool} {idx : List (κ × ν)} {start : κ} {n : Nat} {kv : κ × ν}
    (hs : Sorted idx) (h : ((matching q idx start).take n).getLast? = some kv) :
    matching q idx kv.1 = (matching q idx start).drop n := by
  obtain ⟨batch, hbatch⟩ := List.getLast?_eq_some_iff.mp h
  have hsplit : matching q idx start = batch ++ kv :: (matching q idx start).drop n := by
    calc matching q idx start
        = (matching q idx start).take n ++ (matching q idx start).drop n :=
          (List.take_append_drop n _).symm
      _ = batch ++ kv :: (matching q idx start).drop n := by
          rw [hbatch, List.append_assoc, List.singleton_append]
  exact matching_of_split hs hsplit

end Pages
