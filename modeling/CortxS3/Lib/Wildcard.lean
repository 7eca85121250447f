/-
Patterns with wildcards.

A pattern is a row of tokens: one character, any one character, or any characters.  A text matches
a pattern when it falls into pieces, one for each token.  `Matches` says just that.  A matcher
usually goes through both of them character by character, so the lemmas say what the last token
and the last character decide, once what stands in front of them is decided.
-/
import Mathlib

namespace Wildcard

open List

universe u

variable {α : Type u}

/-- One token of a pattern. -/
inductive Token (α : Type u) where
  | char (a : α)
  | anyOne
  | anyMany

/-- The texts a token can be replaced by. -/
def Token.Stands : Token α → List α → Prop
  | .char a, s => s = [a]
  | .anyOne, s => ∃ a, s = [a]
  | .anyMany, _ => True

/-- The text is the pattern with each token replaced. -/
def Matches (p : List (Token α)) (s : List α) : Prop :=
  ∃ parts, List.Forall₂ Token.Stands p parts ∧ parts.flatten = s

/-! ### The last token -/

@[simp] theorem matches_nil {s : List α} : Matches [] s ↔ s = [] := by
  constructor
  · intro ⟨parts, hparts, hs⟩
    cases hparts
    exact hs.symm
  · intro hs
    exact ⟨[], .nil, hs.symm⟩

theorem matches_concat {p : List (Token α)} {t : Token α} {s : List α} :
    Matches (p ++ [t]) s ↔ ∃ u v, Matches p u ∧ t.Stands v ∧ u ++ v = s := by
  constructor
  · intro ⟨parts, hparts, hs⟩
    have hfront : List.Forall₂ Token.Stands p (parts.take p.length) :=
      (List.forall₂_take_append parts p [t] hparts.flip).flip
    have hback : List.Forall₂ Token.Stands [t] (parts.drop p.length) :=
      (List.forall₂_drop_append parts p [t] hparts.flip).flip
    obtain ⟨last, rest, hlast, hrest, hdrop⟩ := List.forall₂_cons_left_iff.mp hback
    cases hrest
    refine ⟨(parts.take p.length).flatten, last, ⟨_, hfront, rfl⟩, hlast, ?_⟩
    calc (parts.take p.length).flatten ++ last
        = (parts.take p.length ++ parts.drop p.length).flatten := by
          rw [hdrop, flatten_append]
          simp
      _ = s := by rw [take_append_drop, hs]
  · intro ⟨u, v, ⟨front, hfront, hu⟩, hv, hs⟩
    refine ⟨front ++ [v], rel_append hfront (.cons hv .nil), ?_⟩
    rw [flatten_append, hu]
    simpa using hs

/-! ### The last token against the last character -/

theorem concat_inj {u s : List α} {b a : α} : u ++ [b] = s ++ [a] ↔ u = s ∧ b = a := by
  constructor
  · intro h
    exact ⟨append_inj_left' h rfl, by simpa using append_inj_right' h rfl⟩
  · intro ⟨hu, hb⟩
    rw [hu, hb]

theorem matches_char_concat {p : List (Token α)} {b a : α} {s : List α} :
    Matches (p ++ [.char b]) (s ++ [a]) ↔ Matches p s ∧ b = a := by
  rw [matches_concat]
  constructor
  · intro ⟨u, v, hu, hv, hs⟩
    rw [show v = [b] from hv, concat_inj] at hs
    exact ⟨hs.1 ▸ hu, hs.2⟩
  · intro ⟨hp, hb⟩
    exact ⟨s, [a], hp, congrArg (fun c => [c]) hb.symm, rfl⟩

theorem matches_anyOne_concat {p : List (Token α)} {a : α} {s : List α} :
    Matches (p ++ [.anyOne]) (s ++ [a]) ↔ Matches p s := by
  rw [matches_concat]
  constructor
  · intro ⟨u, v, hu, ⟨b, hb⟩, hs⟩
    rw [hb, concat_inj] at hs
    exact hs.1 ▸ hu
  · intro hp
    exact ⟨s, [a], hp, ⟨a, rfl⟩, rfl⟩

/-- Either the last token stands for nothing, or it takes the last character as well. -/
theorem matches_anyMany_concat {p : List (Token α)} {a : α} {s : List α} :
    Matches (p ++ [.anyMany]) (s ++ [a]) ↔ Matches p (s ++ [a]) ∨ Matches (p ++ [.anyMany]) s := by
  rw [matches_concat, matches_concat]
  constructor
  · intro ⟨u, v, hu, _, hs⟩
    rcases eq_nil_or_concat v with hv | ⟨w, c, hv⟩
    · left
      rw [hv, append_nil] at hs
      exact hs ▸ hu
    · right
      rw [hv, concat_eq_append, ← append_assoc, concat_inj] at hs
      exact ⟨u, w, hu, trivial, hs.1⟩
  · intro h
    rcases h with h | ⟨u, v, hu, _, hs⟩
    · exact ⟨s ++ [a], [], h, trivial, append_nil _⟩
    · exact ⟨u, v ++ [a], hu, trivial, by rw [← append_assoc, hs]⟩

/-! ### The last token against nothing -/

theorem not_matches_char_nil {p : List (Token α)} {b : α} : ¬Matches (p ++ [.char b]) [] := by
  rw [matches_concat]
  intro ⟨u, v, _, hv, hs⟩
  rw [show v = [b] from hv] at hs
  simp at hs

theorem not_matches_anyOne_nil {p : List (Token α)} : ¬Matches (p ++ [.anyOne]) [] := by
  rw [matches_concat]
  intro ⟨u, v, _, ⟨b, hb⟩, hs⟩
  rw [hb] at hs
  simp at hs

theorem matches_anyMany_nil {p : List (Token α)} : Matches (p ++ [.anyMany]) [] ↔ Matches p [] := by
  rw [matches_concat]
  constructor
  · intro ⟨u, v, hu, _, hs⟩
    rw [append_eq_nil_iff] at hs
    exact hs.1 ▸ hu
  · intro hp
    exact ⟨[], [], hp, trivial, rfl⟩

end Wildcard
