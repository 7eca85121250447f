/-
Lists that keep the keys of a map with the most recent one in front.

Each key has a stamp, and the list is to hold every key once, in descending order of the stamps
(`RecentFirst`).  A cache does this by hand: it moves a key to the front when it stamps it, and
takes a key out when the map loses it.  Nothing is ever sorted, so that the list stays in order
is a fact about clocks: a key that is stamped now is the most recent one only because no other
stamp is later.
-/
import Mathlib

universe u v

variable {α : Type u} {τ : Type v} [Preorder τ]

/-- The list holds the keys, those with the later stamps first. -/
structure RecentFirst (keys : List α) (stamp : α → τ) (l : List α) : Prop where
  perm : l.Perm keys
  order : l.Pairwise fun a b => stamp b ≤ stamp a

namespace RecentFirst

open List

variable {keys keys' l : List α} {stamp stamp' : α → τ}

section

variable (h : RecentFirst keys stamp l)

include h

/-- Only the stamps of the keys matter. -/
theorem congr (hkeys : keys.Perm keys')
    (hstamp : ∀ a ∈ l, stamp' a = stamp a) : RecentFirst keys' stamp' l := by
  refine ⟨h.perm.trans hkeys, h.order.imp_of_mem ?_⟩
  intro a b ha hb hab
  rw [hstamp a ha, hstamp b hb]
  exact hab

theorem nodup (hkeys : keys.Nodup) : l.Nodup :=
  h.perm.nodup_iff.mpr hkeys

/-- A new key with the latest stamp of all goes to the front. -/
theorem cons {a : α} (hlast : ∀ b ∈ l, stamp b ≤ stamp a) :
    RecentFirst (a :: keys) stamp (a :: l) :=
  ⟨h.perm.cons a, pairwise_cons.mpr ⟨hlast, h.order⟩⟩

/-- A new key with the earliest stamp of all goes to the back. -/
theorem append {a : α} (hfirst : ∀ b ∈ l, stamp a ≤ stamp b) :
    RecentFirst (a :: keys) stamp (l ++ [a]) := by
  refine ⟨(perm_append_singleton a l).trans (h.perm.cons a), ?_⟩
  rw [pairwise_append]
  refine ⟨h.order, pairwise_singleton _ _, ?_⟩
  intro b hb x hx
  rw [mem_singleton.mp hx]
  exact hfirst b hb

end

variable [BEq α] [LawfulBEq α]

theorem erase (h : RecentFirst keys stamp l) (a : α) :
    RecentFirst (keys.erase a) stamp (l.erase a) :=
  ⟨h.perm.erase a, h.order.sublist erase_sublist⟩

theorem ne_of_mem_erase (h : RecentFirst keys stamp l) (hkeys : keys.Nodup) {a b : α}
    (hb : b ∈ l.erase a) : b ≠ a :=
  ((h.nodup hkeys).mem_erase_iff.mp hb).1

/-- **A key that is stamped anew, no other stamp being later, goes from its place to the
front.** -/
theorem toFront (h : RecentFirst keys stamp l) (hkeys : keys.Nodup) {a : α} (ha : a ∈ keys)
    (hstamp : ∀ b, b ≠ a → stamp' b = stamp b) (hlast : ∀ b ∈ l, stamp b ≤ stamp' a) :
    RecentFirst keys stamp' (a :: l.erase a) := by
  have hrest : RecentFirst (keys.erase a) stamp' (l.erase a) :=
    (h.erase a).congr (.refl _) fun b hb => hstamp b (h.ne_of_mem_erase hkeys hb)
  refine (hrest.cons ?_).congr (perm_cons_erase ha).symm fun _ _ => rfl
  intro b hb
  rw [hstamp b (h.ne_of_mem_erase hkeys hb)]
  exact hlast b (mem_of_mem_erase hb)

end RecentFirst
