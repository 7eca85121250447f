/-
Where a list is cut that is read until enough of what is wanted has been found.

A reader goes through a list, keeps what it wants and stops at the `j`-th of these.  Either there
are fewer, and it reads the list to its end, or the list falls into what stands in front of the
`j`-th, that element, and what is left (`Cut`).
-/
import Mathlib

universe u

variable {α : Type u}

/-- A list against the `j`-th of the wanted elements. -/
inductive Cut (own : α → Bool) (j : Nat) (l : List α) : Prop where
  | full (front : List α) (x : α) (rest : List α) (hsplit : l = front ++ x :: rest)
      (hx : own x = true) (hcount : (front.filter own).length + 1 = j)
  | few (hcount : (l.filter own).length < j)

/-- **A list is either cut at the `j`-th wanted element or has fewer of them.** -/
theorem cut (own : α → Bool) {j : Nat} (hj : 0 < j) (l : List α) : Cut own j l := by
  induction l generalizing j with
  | nil => exact .few hj
  | cons x l ih =>
    by_cases hx : own x = true
    · by_cases h1 : j = 1
      · exact .full [] x l rfl hx (by rw [h1]; rfl)
      · cases ih (show 0 < j - 1 by omega) with
        | full front y rest hsplit hy hcount =>
          refine .full (x :: front) y rest (by rw [hsplit]; rfl) hy ?_
          rw [List.filter_cons_of_pos hx, List.length_cons]
          omega
        | few hcount =>
          refine .few ?_
          rw [List.filter_cons_of_pos hx, List.length_cons]
          omega
    · cases ih hj with
      | full front y rest hsplit hy hcount =>
        refine .full (x :: front) y rest (by rw [hsplit]; rfl) hy ?_
        rw [List.filter_cons_of_neg hx]
        exact hcount
      | few hcount =>
        refine .few ?_
        rw [List.filter_cons_of_neg hx]
        exact hcount

/-! ### Pages -/

/-- What is left of a list behind its full pages, when a page ends with its `m`-th wanted element. -/
def openPage (own : α → Bool) (m : Nat) (l : List α) : List α :=
  l.foldl (fun page x =>
    if own x ∧ (page.filter own).length + 1 = m then [] else page ++ [x]) []

theorem foldl_openPage_of_few {own : α → Bool} {m : Nat} :
    ∀ (l page : List α), (page.filter own).length + (l.filter own).length < m →
      l.foldl (fun page x =>
        if own x ∧ (page.filter own).length + 1 = m then [] else page ++ [x]) page = page ++ l := by
  intro l
  induction l with
  | nil =>
    intro page _
    rw [List.foldl_nil, List.append_nil]
  | cons x l ih =>
    intro page h
    have hnot : ¬ (own x = true ∧ (page.filter own).length + 1 = m) := by
      rintro ⟨hx, hm⟩
      rw [List.filter_cons_of_pos hx, List.length_cons] at h
      omega
    rw [List.foldl_cons, if_neg hnot, ih, List.append_assoc, List.singleton_append]
    rw [List.filter_append, List.length_append]
    rw [← List.singleton_append, List.filter_append, List.length_append] at h
    omega

/-- The first page is open until it is full. -/
theorem openPage_of_few {own : α → Bool} {m : Nat} {l : List α} (h : (l.filter own).length < m) :
    openPage own m l = l := by
  unfold openPage
  rw [foldl_openPage_of_few l [] (by simpa using h), List.nil_append]

/-- **Behind a full page a new one begins.** -/
theorem openPage_of_full {own : α → Bool} {m : Nat} {front : List α} {x : α} (hx : own x = true)
    (hm : (front.filter own).length + 1 = m) (l : List α) :
    openPage own m (front ++ x :: l) = openPage own m l := by
  unfold openPage
  rw [List.foldl_append, foldl_openPage_of_few front [] (by simp; omega), List.nil_append,
    List.foldl_cons, if_pos ⟨hx, hm⟩]
