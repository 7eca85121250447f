/-
An index that hands its keys out in order.

A key-value store that is read from front to back is a list of pairs whose keys strictly
ascend.  It is read in batches: `next` gives the first `n` pairs behind a start key, and the
reader comes back with the last key it was given.  What makes such a reader correct is that a
key says where the reader stands: behind the last key of any front part of the index lies the
rest of it (`after_append`), so a sequence of batches walks the list (`after_of_split`).

Keys that are strings have one more property.  The strings with a given prefix lie next to
each other, starting at the prefix itself (`prefix_of_between`), so that a reader may start
there and stop at the first key that does not match (`filter_prefix_eq_takeWhile`).
-/
import Mathlib

namespace OrderedIndex

open List

universe u v

section Keys

variable {κ : Type u} {ν : Type v} [LinearOrder κ]

/-- The keys strictly ascend. -/
def Sorted (idx : List (κ × ν)) : Prop := idx.Pairwise fun a b => a.1 < b.1

instance sortedDecidable (idx : List (κ × ν)) : Decidable (Sorted idx) :=
  inferInstanceAs (Decidable (idx.Pairwise fun a b => a.1 < b.1))

/-- What lies behind `start`. -/
def after (idx : List (κ × ν)) (start : κ) : List (κ × ν) :=
  idx.filter fun kv => start < kv.1

/-- What lies at `start` or behind it. -/
def atOrAfter (idx : List (κ × ν)) (start : κ) : List (κ × ν) :=
  idx.filter fun kv => start ≤ kv.1

/-- The `n` smallest keys behind `start`, with `start` itself when `inclusive` is set. -/
def next (idx : List (κ × ν)) (start : κ) (n : Nat) (inclusive : Bool) : List (κ × ν) :=
  (if inclusive then atOrAfter idx start else after idx start).take n

theorem mem_after {idx : List (κ × ν)} {start : κ} {kv : κ × ν} :
    kv ∈ after idx start ↔ kv ∈ idx ∧ start < kv.1 := by
  unfold after
  rw [mem_filter, decide_eq_true_eq]

/-- **Behind the last key of a front part lies the rest.** -/
theorem after_append {done rest : List (κ × ν)} {kv : κ × ν}
    (h : Sorted (done ++ kv :: rest)) : after (done ++ kv :: rest) kv.1 = rest := by
  have hpair := pairwise_append.mp h
  have hrest := (pairwise_cons.mp hpair.2.1).1
  unfold after
  rw [filter_append, filter_cons_of_neg (by simp)]
  have hdone : done.filter (fun x => decide (kv.1 < x.1)) = [] := by
    rw [filter_eq_nil_iff]
    intro x hx hlt
    have hxk := hpair.2.2 x hx kv (by simp)
    exact absurd (by simpa using hlt) (not_lt_of_gt hxk)
  rw [hdone, nil_append, filter_eq_self]
  intro x hx
  simpa using hrest x hx

/-- A reader that stands in front of `rest` and reads up to the last of `batch` stands in
front of what follows it. -/
theorem after_of_split {idx rest : List (κ × ν)} (batch : List (κ × ν)) {kv : κ × ν}
    (hs : Sorted idx)
    (hsuffix : (batch ++ kv :: rest) <:+ idx) : after idx kv.1 = rest := by
  obtain ⟨done, hdone⟩ := hsuffix
  have heq : idx = (done ++ batch) ++ kv :: rest := by rw [← hdone, append_assoc]
  rw [heq] at hs ⊢
  exact after_append hs

/-- What a larger key has with every key that has it, a back part of the index has. -/
theorem filter_suffix {idx : List (κ × ν)} (hs : Sorted idx) {p : κ → Bool}
    (hup : ∀ a b, p a = true → a < b → p b = true) : idx.filter (fun kv => p kv.1) <:+ idx := by
  induction idx with
  | nil => exact suffix_refl _
  | cons kv rest ih =>
    have hcons := pairwise_cons.mp hs
    by_cases hp : p kv.1 = true
    · -- every later key is larger still, so nothing is left out
      have hall : (kv :: rest).filter (fun kv => p kv.1) = kv :: rest := by
        rw [filter_eq_self]
        intro x hx
        rcases mem_cons.mp hx with rfl | hx
        · exact hp
        · exact hup kv.1 x.1 hp (hcons.1 x hx)
      exact ⟨[], by rw [nil_append, hall]⟩
    · rw [filter_cons_of_neg (p := fun kv : κ × ν => p kv.1) hp]
      exact (ih hcons.2).trans (suffix_cons kv rest)

/-- What lies behind a key is a back part of the index. -/
theorem after_suffix {idx : List (κ × ν)} (hs : Sorted idx) (start : κ) : after idx start <:+ idx :=
  filter_suffix (p := fun k => decide (start < k)) hs fun a b ha hab => by
    simpa using lt_trans (of_decide_eq_true ha) hab

/-- What lies at a key or behind it is a back part of the index. -/
theorem atOrAfter_suffix {idx : List (κ × ν)} (hs : Sorted idx) (start : κ) :
    atOrAfter idx start <:+ idx :=
  filter_suffix (p := fun k => decide (start ≤ k)) hs fun a b ha hab => by
    simpa using (lt_of_le_of_lt (of_decide_eq_true ha) hab).le

theorem Sorted.nodup {idx : List (κ × ν)} (h : Sorted idx) : idx.Nodup := by
  apply List.Pairwise.imp _ h
  intro a b hlt heq
  rw [heq] at hlt
  exact lt_irrefl _ hlt

theorem Sorted.nodup_keys {idx : List (κ × ν)} (h : Sorted idx) : (idx.map Prod.fst).Nodup := by
  apply pairwise_map.mpr
  apply List.Pairwise.imp _ h
  intro a b hlt heq
  rw [heq] at hlt
  exact lt_irrefl _ hlt

/-- A key is looked up as it was stored. -/
theorem Sorted.lookup_of_mem [BEq κ] [LawfulBEq κ] {idx : List (κ × ν)} (h : Sorted idx)
    {kv : κ × ν} (hkv : kv ∈ idx) : idx.lookup kv.1 = some kv.2 := by
  induction idx with
  | nil => cases hkv
  | cons x idx ih =>
    have hcons := pairwise_cons.mp h
    rcases mem_cons.mp hkv with rfl | hkv
    · exact lookup_cons_self
    · have hne : kv.1 ≠ x.1 := (hcons.1 kv hkv).ne'
      rw [lookup_cons, beq_false_of_ne hne]
      exact ih hcons.2 hkv

/-- An index is known by the pairs in it. -/
theorem Sorted.eq_of_perm {a b : List (κ × ν)} (ha : Sorted a) (hb : Sorted b) (h : a.Perm b) :
    a = b := by
  apply List.Perm.eq_of_pairwise _ ha hb h
  intro x y _ _ hxy hyx
  exact absurd hyx (lt_asymm hxy)

/-! ### Own pairs and foreign ones -/

/-- **Foreign pairs do no harm behind the own ones**, when no more is taken than there is of one's
own. -/
theorem take_eq_filter {idx : List (κ × ν)} (hs : Sorted idx) {own : κ × ν → Bool} {k : Nat}
    (hk : (idx.filter own).length ≤ k)
    (h : ∀ x ∈ idx, own x = false →
      k = (idx.filter own).length ∧ ∀ o ∈ idx, own o = true → o.1 < x.1) :
    idx.take k = idx.filter own := by
  by_cases hall : ∀ x ∈ idx, own x = true
  · have hself : idx.filter own = idx := filter_eq_self.mpr hall
    rw [hself] at hk ⊢
    exact take_of_length_le hk
  · rw [not_forall] at hall
    obtain ⟨x, hx⟩ := hall
    rw [Classical.not_imp, Bool.not_eq_true] at hx
    have hkx := (h x hx.1 hx.2).1
    -- the own pairs come first
    have hsplit : idx.filter own ++ idx.filter (fun x => !own x) = idx := by
      apply Sorted.eq_of_perm _ hs (filter_append_perm own idx)
      apply pairwise_append.mpr
      refine ⟨hs.sublist filter_sublist, hs.sublist filter_sublist, ?_⟩
      intro o ho x hx
      rw [mem_filter] at ho hx
      exact (h x hx.1 (by simpa using hx.2)).2 o ho.1 ho.2
    conv => lhs; rw [← hsplit, hkx]
    exact take_left

/-- **If nothing foreign is taken, what there is of it lies behind the own pairs**, and no more is
taken than these. -/
theorem foreign_of_take {idx : List (κ × ν)} (hs : Sorted idx) {own : κ × ν → Bool} {k : Nat}
    (hk : (idx.filter own).length ≤ k) (h : ∀ x ∈ idx.take k, own x = true)
    {x : κ × ν} (hx : x ∈ idx) (hforeign : own x = false) :
    k = (idx.filter own).length ∧ ∀ o ∈ idx, own o = true → o.1 < x.1 := by
  have hsub : (idx.take k).Sublist (idx.filter own) := by
    rw [← filter_eq_self.mpr h]
    exact (take_sublist k idx).filter own
  have hlen : (idx.filter own).length < idx.length := by
    apply length_filter_lt_length_iff_exists.mpr
    exact ⟨x, hx, by simp [hforeign]⟩
  have hle := hsub.length_le
  rw [length_take] at hle
  have hkeq : k = (idx.filter own).length := by omega
  have heq : idx.take k = idx.filter own := by
    apply hsub.eq_of_length
    rw [length_take]
    omega
  refine ⟨hkeq, ?_⟩
  intro o ho hown
  have hotake : o ∈ idx.take k := by
    rw [heq]
    exact mem_filter.mpr ⟨ho, hown⟩
  have hxdrop : x ∈ idx.drop k := by
    rw [← take_append_drop k idx, mem_append] at hx
    rcases hx with hx | hx
    · rw [h x hx] at hforeign
      cases hforeign
    · exact hx
  rw [← take_append_drop k idx] at hs
  exact (pairwise_append.mp hs).2.2 o hotake x hxdrop

end Keys

/-! ### Keys that are strings -/

section Strings

variable {α : Type u} {ν : Type v} [LinearOrder α]

theorem nil_le (l : List α) : ([] : List α) ≤ l :=
  le_of_not_gt (not_lt_nil l)

theorem cons_le_cons_iff {a b : α} {l l' : List α} : a :: l ≤ b :: l' ↔ a < b ∨ a = b ∧ l ≤ l' := by
  rw [← not_lt, ← not_lt (a := l') (b := l), cons_lt_cons_iff]
  constructor
  · intro h
    rcases lt_trichotomy a b with hlt | heq | hgt
    · exact Or.inl hlt
    · exact Or.inr ⟨heq, fun hl => h (Or.inr ⟨heq.symm, hl⟩)⟩
    · exact absurd (Or.inl hgt) h
  · rintro (hlt | ⟨rfl, hl⟩) (hgt | ⟨heq, hl'⟩)
    · exact lt_asymm hlt hgt
    · exact lt_irrefl _ (heq ▸ hlt)
    · exact lt_irrefl _ hgt
    · exact hl hl'

theorem le_of_prefix {p a : List α} (h : p <+: a) : p ≤ a := by
  obtain ⟨t, rfl⟩ := h
  induction p with
  | nil => exact nil_le _
  | cons c p ih =>
    rw [cons_append, cons_le_cons_iff]
    exact Or.inr ⟨rfl, ih⟩

theorem append_lt_append {s t : List α} (h : s < t) : ∀ c : List α, c ++ s < c ++ t := by
  intro c
  induction c with
  | nil => exact h
  | cons x c ih => exact cons_lt_cons_iff.mpr (Or.inr ⟨rfl, ih⟩)

/-- **The strings with a given prefix lie next to each other.** -/
theorem prefix_of_between : ∀ {p a b : List α}, p ≤ a → a ≤ b → p <+: b → p <+: a := by
  intro p
  induction p with
  | nil => intro a b _ _ _; exact nil_prefix
  | cons c p ih =>
    intro a b hpa hab hpb
    obtain ⟨t, rfl⟩ := hpb
    match a, hpa, hab with
    | [], hpa, _ => exact absurd (nil_lt_cons c p) (not_lt_of_ge hpa)
    | d :: a, hpa, hab =>
      rw [cons_append] at hab
      rw [cons_le_cons_iff] at hpa hab
      -- the first character is squeezed between `c` and `c`
      have hcd : c = d := by
        rcases hpa with hlt | ⟨heq, _⟩
        · rcases hab with hlt' | ⟨heq', _⟩
          · exact absurd (lt_trans hlt hlt') (lt_irrefl _)
          · exact heq'.symm
        · exact heq
      subst hcd
      have hpa' : p ≤ a := by
        rcases hpa with hlt | ⟨_, hle⟩
        · exact absurd hlt (lt_irrefl _)
        · exact hle
      have hab' : a ≤ p ++ t := by
        rcases hab with hlt | ⟨_, hle⟩
        · exact absurd hlt (lt_irrefl _)
        · exact hle
      exact cons_prefix_cons.mpr ⟨rfl, ih hpa' hab' (prefix_append p t)⟩

/-- The keys that have the prefix are the first of those at or behind it. -/
theorem filter_prefix_eq_takeWhile {idx : List (List α × ν)} (hs : Sorted idx) (p : List α) :
    idx.filter (fun kv => p.isPrefixOf kv.1) =
      (atOrAfter idx p).takeWhile fun kv => p.isPrefixOf kv.1 := by
  induction idx with
  | nil => rfl
  | cons kv rest ih =>
    have hcons := pairwise_cons.mp hs
    by_cases hp : p.isPrefixOf kv.1 = true
    · have hle : p ≤ kv.1 := le_of_prefix (List.isPrefixOf_iff_prefix.mp hp)
      have hat : atOrAfter (kv :: rest) p = kv :: atOrAfter rest p := by
        unfold atOrAfter
        rw [filter_cons_of_pos (by simpa using hle)]
      rw [hat, takeWhile_cons_of_pos (by simpa using hp),
        filter_cons_of_pos (by simpa using hp), ih hcons.2]
    · rw [filter_cons_of_neg (by simpa using hp)]
      by_cases hle : p ≤ kv.1
      · -- past the prefix: no later key can match either
        have hat : atOrAfter (kv :: rest) p = kv :: atOrAfter rest p := by
          unfold atOrAfter
          rw [filter_cons_of_pos (by simpa using hle)]
        rw [hat, takeWhile_cons_of_neg (by simpa using hp), filter_eq_nil_iff]
        intro x hx hpx
        refine hp (List.isPrefixOf_iff_prefix.mpr ?_)
        exact prefix_of_between hle (le_of_lt (hcons.1 x hx))
          (List.isPrefixOf_iff_prefix.mp hpx)
      · have hat : atOrAfter (kv :: rest) p = atOrAfter rest p := by
          unfold atOrAfter
          rw [filter_cons_of_neg (by simpa using hle)]
        rw [hat, ih hcons.2]

/-- The same behind the prefix itself. -/
theorem takeWhile_prefix_after {idx : List (List α × ν)} (hs : Sorted idx) (p : List α) :
    (after idx p).takeWhile (fun kv => p.isPrefixOf kv.1) =
      (after idx p).filter fun kv => p.isPrefixOf kv.1 := by
  have hafter : atOrAfter (after idx p) p = after idx p := by
    unfold atOrAfter
    rw [filter_eq_self]
    intro kv hkv
    have hlt := (mem_filter.mp hkv).2
    simp only [decide_eq_true_eq] at hlt ⊢
    exact le_of_lt hlt
  have hsorted : Sorted (after idx p) := hs.sublist filter_sublist
  rw [filter_prefix_eq_takeWhile hsorted p, hafter]

end Strings

end OrderedIndex
