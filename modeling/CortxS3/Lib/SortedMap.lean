/-
A map kept as a list in the order of its keys.

This is what `std::map` is to a reader that iterates over it: each key once, in ascending
order.  `set` writes a key and `get` reads one; writing a key twice keeps the later value.
The order matters where the pairs are sent to someone who reads them in turn, so `set` is also
characterised by the pairs it leaves (`mem_set`).
-/
import CortxS3.Lib.OrderedIndex

namespace SortedMap

open List

universe u v

variable {κ : Type u} {ν : Type v} [LinearOrder κ]

open OrderedIndex

def set (k : κ) (v : ν) : List (κ × ν) → List (κ × ν)
  | [] => [(k, v)]
  | (k', v') :: rest =>
    if k < k' then (k, v) :: (k', v') :: rest
    else if k = k' then (k, v) :: rest
    else (k', v') :: set k v rest

theorem set_cons (k k' : κ) (v v' : ν) (rest : List (κ × ν)) :
    set k v ((k', v') :: rest) =
      if k < k' then (k, v) :: (k', v') :: rest
      else if k = k' then (k, v) :: rest
      else (k', v') :: set k v rest := rfl

def get (k : κ) : List (κ × ν) → Option ν
  | [] => none
  | (k', v') :: rest => if k = k' then some v' else get k rest

@[simp] theorem get_set_self (k : κ) (v : ν) (m : List (κ × ν)) : get k (set k v m) = some v := by
  induction m with
  | nil => simp [set, get]
  | cons p rest ih =>
    obtain ⟨k', v'⟩ := p
    unfold set
    by_cases hlt : k < k'
    · rw [if_pos hlt]
      simp [get]
    · rw [if_neg hlt]
      by_cases heq : k = k'
      · rw [if_pos heq]
        simp [get]
      · rw [if_neg heq]
        simp [get, heq, ih]

theorem get_set_of_ne {k k' : κ} (hne : k' ≠ k) (v : ν) (m : List (κ × ν)) :
    get k' (set k v m) = get k' m := by
  induction m with
  | nil => simp [set, get, hne]
  | cons p rest ih =>
    obtain ⟨k₁, v₁⟩ := p
    unfold set
    by_cases hlt : k < k₁
    · rw [if_pos hlt]
      simp [get, hne]
    · rw [if_neg hlt]
      by_cases heq : k = k₁
      · rw [if_pos heq]
        subst heq
        simp [get, hne]
      · rw [if_neg heq]
        simp [get, ih]

theorem get_eq_none {k : κ} {m : List (κ × ν)} (h : ∀ p ∈ m, p.1 ≠ k) : get k m = none := by
  induction m with
  | nil => rfl
  | cons p rest ih =>
    unfold get
    rw [if_neg (h p mem_cons_self).symm]
    exact ih fun q hq => h q (mem_cons_of_mem _ hq)

theorem mem_set {k : κ} {v : ν} :
    ∀ {m : List (κ × ν)}, Sorted m → ∀ p : κ × ν,
      p ∈ set k v m ↔ p = (k, v) ∨ (p.1 ≠ k ∧ p ∈ m) := by
  intro m
  induction m with
  | nil => intro _ p; simp [set]
  | cons q rest ih =>
    intro hs p
    obtain ⟨k', v'⟩ := q
    have hcons := pairwise_cons.mp hs
    unfold set
    by_cases hlt : k < k'
    · rw [if_pos hlt]
      -- every key of the list is larger than `k`
      have hne : ∀ q ∈ (k', v') :: rest, q.1 ≠ k := by
        intro q hq heq
        rcases mem_cons.mp hq with hq | hq
        · rw [hq] at heq
          exact lt_irrefl _ (heq ▸ hlt)
        · have := hcons.1 q hq
          exact lt_asymm hlt (heq ▸ this)
      rw [mem_cons]
      constructor
      · rintro (h | h)
        · exact Or.inl h
        · exact Or.inr ⟨hne p h, h⟩
      · rintro (h | ⟨_, h⟩)
        · exact Or.inl h
        · exact Or.inr h
    · rw [if_neg hlt]
      by_cases heq : k = k'
      · rw [if_pos heq]
        subst heq
        have hne : ∀ q ∈ rest, q.1 ≠ k := by
          intro q hq h
          have := hcons.1 q hq
          rw [h] at this
          exact lt_irrefl _ this
        rw [mem_cons, mem_cons]
        constructor
        · rintro (h | h)
          · exact Or.inl h
          · exact Or.inr ⟨hne p h, Or.inr h⟩
        · rintro (h | ⟨hk, h | h⟩)
          · exact Or.inl h
          · rw [h] at hk
            exact absurd rfl hk
          · exact Or.inr h
      · rw [if_neg heq, mem_cons, mem_cons, ih hcons.2 p]
        constructor
        · rintro (h | h | ⟨hk, h⟩)
          · rw [h]
            exact Or.inr ⟨fun hc => heq hc.symm, Or.inl rfl⟩
          · exact Or.inl h
          · exact Or.inr ⟨hk, Or.inr h⟩
        · rintro (h | ⟨hk, h | h⟩)
          · exact Or.inr (Or.inl h)
          · exact Or.inl h
          · exact Or.inr (Or.inr ⟨hk, h⟩)

theorem sorted_set {k : κ} {v : ν} : ∀ {m : List (κ × ν)}, Sorted m → Sorted (set k v m) := by
  intro m
  induction m with
  | nil => intro _; exact pairwise_singleton _ _
  | cons q rest ih =>
    intro hs
    obtain ⟨k', v'⟩ := q
    have hcons := pairwise_cons.mp hs
    unfold set
    by_cases hlt : k < k'
    · rw [if_pos hlt]
      refine pairwise_cons.mpr ⟨?_, hs⟩
      intro q hq
      rcases mem_cons.mp hq with hq | hq
      · rw [hq]; exact hlt
      · exact lt_trans hlt (hcons.1 q hq)
    · rw [if_neg hlt]
      by_cases heq : k = k'
      · rw [if_pos heq]
        subst heq
        exact pairwise_cons.mpr ⟨hcons.1, hcons.2⟩
      · rw [if_neg heq]
        refine pairwise_cons.mpr ⟨?_, ih hcons.2⟩
        intro q hq
        rcases (mem_set hcons.2 q).mp hq with hq | ⟨_, hq⟩
        · rw [hq]
          exact lt_of_le_of_ne (le_of_not_gt hlt) (fun h => heq h.symm)
        · exact hcons.1 q hq

/-- In a sorted list a pair is what its key reads as. -/
theorem get_eq_some_iff {k : κ} {v : ν} :
    ∀ {m : List (κ × ν)}, Sorted m → (get k m = some v ↔ (k, v) ∈ m) := by
  intro m
  induction m with
  | nil => intro _; simp [get]
  | cons q rest ih =>
    intro hs
    obtain ⟨k', v'⟩ := q
    have hcons := pairwise_cons.mp hs
    unfold get
    by_cases heq : k = k'
    · subst heq
      rw [if_pos rfl, mem_cons]
      constructor
      · intro h
        rw [Option.some.injEq] at h
        exact Or.inl (by rw [h])
      · rintro (h | h)
        · rw [Prod.mk.injEq] at h
          rw [h.2]
        · exact absurd (hcons.1 _ h) (lt_irrefl _)
    · rw [if_neg heq, ih hcons.2, mem_cons]
      constructor
      · exact Or.inr
      · rintro (h | h)
        · exact absurd (Prod.mk.inj h).1 heq
        · exact h

/-! ### Writes -/

section Writes

variable {ι : Type u} [DecidableEq ι]

/-- The value last written to a key. -/
def lastWrite (k : ι) (ws : List (ι × ν)) : Option ν :=
  (ws.reverse.find? (fun p => p.1 = k)).map Prod.snd

@[simp] theorem lastWrite_nil (k : ι) : lastWrite k ([] : List (ι × ν)) = none := rfl

theorem lastWrite_append (k : ι) (ws ws' : List (ι × ν)) :
    lastWrite k (ws ++ ws') = (lastWrite k ws').or (lastWrite k ws) := by
  unfold lastWrite
  rw [reverse_append, List.find?_append]
  cases List.find? (fun p => decide (p.1 = k)) ws'.reverse <;> rfl

theorem lastWrite_cons (k : ι) (p : ι × ν) (ws : List (ι × ν)) :
    lastWrite k (p :: ws) = (lastWrite k ws).or (if p.1 = k then some p.2 else none) := by
  rw [← singleton_append, lastWrite_append]
  congr 1
  unfold lastWrite
  by_cases h : p.1 = k <;> simp [h]

/-- No write, no value. -/
theorem lastWrite_eq_none_iff (k : ι) (ws : List (ι × ν)) :
    lastWrite k ws = none ↔ ∀ p ∈ ws, p.1 ≠ k := by
  unfold lastWrite
  rw [Option.map_eq_none_iff, List.find?_eq_none]
  simp

theorem mem_of_lastWrite {k : ι} {v : ν} {ws : List (ι × ν)} (h : lastWrite k ws = some v) :
    (k, v) ∈ ws := by
  unfold lastWrite at h
  obtain ⟨q, hq, hval⟩ := Option.map_eq_some_iff.mp h
  have hname : q.1 = k := by
    have := List.find?_some hq
    simpa using this
  have hmem := mem_reverse.mp (mem_of_find?_eq_some hq)
  rwa [← hname, ← hval]

/-- Writes under other names, when the names tell the keys apart. -/
theorem lastWrite_map {ι' : Type u} [DecidableEq ι'] {f : ι → ι'} (hf : Function.Injective f)
    (k : ι) (ws : List (ι × ν)) :
    lastWrite (f k) (ws.map fun p => (f p.1, p.2)) = lastWrite k ws := by
  induction ws with
  | nil => rfl
  | cons p ws ih =>
    rw [map_cons, lastWrite_cons, lastWrite_cons, ih]
    by_cases h : p.1 = k
    · rw [if_pos h, if_pos (congrArg f h)]
    · rw [if_neg h, if_neg (fun hc => h (hf hc))]

/-- Writes to other keys do not count. -/
theorem lastWrite_filter {k : ι} {q : ι → Bool} (hk : q k = true) (ws : List (ι × ν)) :
    lastWrite k (ws.filter fun p => q p.1) = lastWrite k ws := by
  induction ws with
  | nil => rfl
  | cons p ws ih =>
    by_cases hp : p.1 = k
    · rw [filter_cons_of_pos (by rw [hp]; exact hk), lastWrite_cons, lastWrite_cons, ih]
    · cases hq : q p.1 with
      | false =>
        rw [filter_cons_of_neg (by simp [hq]), ih, lastWrite_cons, if_neg hp, Option.or_none]
      | true =>
        rw [filter_cons_of_pos (p := fun p : ι × ν => q p.1) hq, lastWrite_cons,
          lastWrite_cons, ih]

/-- Reading under names that several keys share: the last of these keys counts. -/
theorem lastWrite_map_eq_getLast? {α : Type u} {μ : Type v} (g : α → ι)
    (h : ν → μ) (k : ι) (m : List (α × ν)) :
    lastWrite k (m.map fun p => (g p.1, h p.2)) =
      ((m.filter fun p => g p.1 = k).getLast?).map fun p => h p.2 := by
  induction m using List.reverseRecOn with
  | nil => rfl
  | append_singleton m p ih =>
    rw [map_append, lastWrite_append, ih, filter_append]
    by_cases hk : g p.1 = k
    · simp [lastWrite, hk]
    · simp [lastWrite, hk]

end Writes

/-! ### A map built by writes -/

/-- The map left by some writes, made one after the other. -/
def ofWrites (ws : List (κ × ν)) : List (κ × ν) :=
  ws.foldl (fun m p => set p.1 p.2 m) []

theorem ofWrites_concat (ws : List (κ × ν)) (k : κ) (v : ν) :
    ofWrites (ws ++ [(k, v)]) = set k v (ofWrites ws) := by
  unfold ofWrites
  rw [foldl_append]
  rfl

theorem sorted_ofWrites (ws : List (κ × ν)) : Sorted (ofWrites ws) := by
  induction ws using List.reverseRecOn with
  | nil => exact List.Pairwise.nil
  | append_singleton ws p ih =>
    obtain ⟨k, v⟩ := p
    rw [ofWrites_concat]
    exact sorted_set ih

/-- **A map built by writes holds, for each key, what was last written to it.** -/
theorem mem_ofWrites [DecidableEq κ] {k : κ} {v : ν} {ws : List (κ × ν)} :
    (k, v) ∈ ofWrites ws ↔ lastWrite k ws = some v := by
  induction ws using List.reverseRecOn generalizing k v with
  | nil => simp [ofWrites]
  | append_singleton ws p ih =>
    obtain ⟨k', v'⟩ := p
    rw [ofWrites_concat, mem_set (sorted_ofWrites ws), lastWrite_append, lastWrite_cons]
    by_cases hk : k = k'
    · subst hk
      simp [eq_comm]
    · simp [hk, Ne.symm hk, ih]

theorem mem_of_mem_ofWrites {p : κ × ν} {ws : List (κ × ν)} (h : p ∈ ofWrites ws) : p ∈ ws :=
  mem_of_lastWrite (mem_ofWrites.mp h)

/-! ### A sum over a map -/

/-- Writing a key adds the new value to a sum and takes the old one out of it. -/
theorem sum_map_set (f : κ × ν → Nat) {k : κ} {v : ν} :
    ∀ {m : List (κ × ν)}, Sorted m →
      ((set k v m).map f).sum + ((get k m).map fun v' => f (k, v')).getD 0 =
        (m.map f).sum + f (k, v) := by
  intro m
  induction m with
  | nil => intro _; simp [set, get]
  | cons q rest ih =>
    intro hs
    obtain ⟨k', v'⟩ := q
    have hcons := pairwise_cons.mp hs
    rw [set_cons, get]
    by_cases hlt : k < k'
    · have hnone : get k rest = none :=
        get_eq_none fun p hp => ne_of_gt (lt_trans hlt (hcons.1 p hp))
      rw [if_pos hlt, if_neg (ne_of_lt hlt), hnone]
      simp only [map_cons, sum_cons, Option.map_none, Option.getD_none]
      omega
    · rw [if_neg hlt]
      by_cases heq : k = k'
      · subst heq
        simp only [if_true, map_cons, sum_cons, Option.map_some, Option.getD_some]
        omega
      · have hrest := ih hcons.2
        simp only [if_neg heq, map_cons, sum_cons]
        omega

/-! ### The order of a map built by writes -/

/-- A key below all others goes to the front. -/
theorem set_of_lt_all {k : κ} {v : ν} {m : List (κ × ν)} (h : ∀ p ∈ m, k < p.1) :
    set k v m = (k, v) :: m := by
  cases m with
  | nil => rfl
  | cons p rest =>
    obtain ⟨k', v'⟩ := p
    unfold set
    rw [if_pos (h (k', v') mem_cons_self)]

/-- A key above all others goes to the end. -/
theorem set_of_all_lt {k : κ} {v : ν} :
    ∀ {m : List (κ × ν)}, (∀ p ∈ m, p.1 < k) → set k v m = m ++ [(k, v)] := by
  intro m
  induction m with
  | nil => intro _; rfl
  | cons p rest ih =>
    intro h
    obtain ⟨k', v'⟩ := p
    have hk : k' < k := h (k', v') mem_cons_self
    unfold set
    rw [if_neg (lt_asymm hk), if_neg (ne_of_gt hk),
      ih (fun q hq => h q (mem_cons_of_mem _ hq)), cons_append]

/-- A map is what is left of writing its pairs. -/
theorem ofWrites_of_sorted {m : List (κ × ν)} (h : Sorted m) : ofWrites m = m := by
  induction m using List.reverseRecOn with
  | nil => rfl
  | append_singleton m p ih =>
    obtain ⟨k, v⟩ := p
    obtain ⟨hm, _, hlt⟩ := pairwise_append.mp h
    rw [ofWrites_concat, ih hm]
    exact set_of_all_lt fun q hq => hlt q hq _ mem_cons_self

theorem filter_set (q : κ → Bool) {k : κ} {v : ν} :
    ∀ {m : List (κ × ν)}, Sorted m →
      (set k v m).filter (fun p => q p.1) =
        if q k then set k v (m.filter fun p => q p.1) else m.filter fun p => q p.1 := by
  intro m
  induction m with
  | nil =>
    intro _
    cases hq : q k <;> simp [set, hq]
  | cons p rest ih =>
    intro hs
    obtain ⟨k', v'⟩ := p
    have hcons := pairwise_cons.mp hs
    rw [set_cons]
    by_cases hlt : k < k'
    · rw [if_pos hlt, filter_cons]
      cases hq : q k with
      | false => rfl
      | true =>
        rw [if_pos rfl, if_pos rfl, set_of_lt_all]
        intro p hp
        rcases mem_cons.mp (mem_filter.mp hp).1 with h | h
        · rw [h]
          exact hlt
        · exact lt_trans hlt (hcons.1 p h)
    · rw [if_neg hlt]
      by_cases heq : k = k'
      · rw [if_pos heq]
        subst heq
        cases hq : q k with
        | false => simp [hq]
        | true => simp [hq, set_cons]
      · rw [if_neg heq, filter_cons, filter_cons, ih hcons.2]
        cases hq' : q k' with
        | false => rfl
        | true =>
          cases hq : q k with
          | false => rfl
          | true => simp [set_cons, hlt, heq]

/-- Which keys are looked at may be decided before or after the writes. -/
theorem filter_ofWrites (q : κ → Bool) (ws : List (κ × ν)) :
    (ofWrites ws).filter (fun p => q p.1) = ofWrites (ws.filter fun p => q p.1) := by
  induction ws using List.reverseRecOn with
  | nil => rfl
  | append_singleton ws p ih =>
    obtain ⟨k, v⟩ := p
    rw [ofWrites_concat, filter_set q (sorted_ofWrites ws), ih, filter_append]
    cases hq : q k with
    | false => simp [hq]
    | true =>
      rw [if_pos rfl, ← ofWrites_concat]
      simp [hq]

theorem set_set (k : κ) (v v' : ν) (m : List (κ × ν)) : set k v (set k v' m) = set k v m := by
  induction m with
  | nil => simp [set]
  | cons p rest ih =>
    obtain ⟨k', w⟩ := p
    by_cases hlt : k < k'
    · simp [set, hlt]
    · by_cases heq : k = k'
      · simp [set, heq]
      · simp [set, hlt, heq, ih]

/-- Writes to different keys come to the same in either order. -/
theorem set_comm {k k' : κ} (hne : k ≠ k') (v v' : ν) (m : List (κ × ν)) :
    set k v (set k' v' m) = set k' v' (set k v m) := by
  -- it is enough to see the smaller key written last
  have key : ∀ {a b : κ}, a < b → ∀ (x y : ν) (m : List (κ × ν)),
      set a x (set b y m) = set b y (set a x m) := by
    intro a b hab x y m
    induction m with
    | nil => simp [set, hab, lt_asymm hab, ne_of_gt hab]
    | cons p rest ih =>
      obtain ⟨c, z⟩ := p
      rcases lt_trichotomy a c with hac | rfl | hca
      · rcases lt_trichotomy b c with hbc | rfl | hcb
        · simp [set_cons, hab, hac, hbc, lt_asymm hab, ne_of_gt hab]
        · simp [set_cons, hab, lt_asymm hab, ne_of_gt hab]
        · simp [set_cons, hac, lt_asymm hab, ne_of_gt hab, lt_asymm hcb, ne_of_gt hcb]
      · simp [set_cons, lt_asymm hab, ne_of_gt hab]
      · have hcb := hca.trans hab
        simp [set_cons, lt_asymm hca, ne_of_gt hca, lt_asymm hcb, ne_of_gt hcb, ih]
  rcases lt_or_gt_of_ne hne with h | h
  · exact key h v v' m
  · exact (key h v' v m).symm

/-- Of several writes to one key the last one counts. -/
theorem ofWrites_append_same [DecidableEq κ] {k : κ} (ws : List (κ × ν)) :
    ∀ {ws' : List (κ × ν)}, (∀ p ∈ ws', p.1 = k) →
      ofWrites (ws ++ ws') =
        (lastWrite k ws').elim (ofWrites ws) fun v => set k v (ofWrites ws) := by
  intro ws'
  induction ws' using List.reverseRecOn with
  | nil =>
    intro _
    rw [append_nil]
    rfl
  | append_singleton ws' p ih =>
    intro h
    obtain ⟨k', v⟩ := p
    have hk : k' = k := h (k', v) (by simp)
    subst hk
    rw [← append_assoc, ofWrites_concat,
      ih (fun p hp => h p (mem_append_left _ hp)), lastWrite_append, lastWrite_cons]
    cases lastWrite k' ws' with
    | none => simp
    | some v' => simp [set_set]

/-! ### Writing a whole map into another -/

theorem sorted_foldl_set (ws : List (κ × ν)) :
    ∀ {m : List (κ × ν)}, Sorted m → Sorted (ws.foldl (fun m p => set p.1 p.2 m) m) := by
  induction ws with
  | nil => intro m h; exact h
  | cons w ws ih => intro m h; exact ih (sorted_set h)

/-- The pairs written are there, and of the others those with other keys. -/
theorem mem_foldl_set (ws : List (κ × ν)) :
    ∀ {m : List (κ × ν)}, Sorted m → (ws.map Prod.fst).Nodup → ∀ p : κ × ν,
      p ∈ ws.foldl (fun m p => set p.1 p.2 m) m ↔
        p ∈ ws ∨ (p ∈ m ∧ p.1 ∉ ws.map Prod.fst) := by
  induction ws with
  | nil => intro m _ _ p; simp
  | cons w ws ih =>
    intro m hm hnodup p
    rw [map_cons, nodup_cons] at hnodup
    rw [foldl_cons, ih (sorted_set hm) hnodup.2 p, mem_set hm p, mem_cons,
      map_cons, mem_cons, not_or]
    constructor
    · rintro (h | ⟨h | ⟨hne, h⟩, hnot⟩)
      · exact Or.inl (Or.inr h)
      · exact Or.inl (Or.inl h)
      · exact Or.inr ⟨h, hne, hnot⟩
    · rintro ((h | h) | ⟨h, hne, hnot⟩)
      · refine Or.inr ⟨Or.inl h, ?_⟩
        rw [h]
        exact hnodup.1
      · exact Or.inl h
      · exact Or.inr ⟨Or.inr ⟨hne, h⟩, hnot⟩

/-- Writes to different keys are all kept. -/
theorem ofWrites_perm {ws : List (κ × ν)} (h : (ws.map Prod.fst).Nodup) :
    (ofWrites ws).Perm ws := by
  apply (perm_ext_iff_of_nodup (sorted_ofWrites ws).nodup (List.Nodup.of_map _ h)).mpr
  intro p
  unfold ofWrites
  rw [mem_foldl_set ws List.Pairwise.nil h p]
  simp

/-- The last pair of a map after a write: the old one if its key is larger. -/
theorem getLast?_set [DecidableLT κ] {k : κ} {v : ν} :
    ∀ {m : List (κ × ν)}, Sorted m →
      (set k v m).getLast? = ((m.filter fun p => k < p.1).getLast?).or (some (k, v)) := by
  intro m
  induction m with
  | nil => intro _; rfl
  | cons p rest ih =>
    intro hs
    obtain ⟨k', v'⟩ := p
    have hcons := pairwise_cons.mp hs
    unfold set
    by_cases hlt : k < k'
    · -- every key is larger
      have hall : ((k', v') :: rest).filter (fun p => decide (k < p.1)) = (k', v') :: rest := by
        rw [filter_eq_self]
        intro p hp
        rcases mem_cons.mp hp with h | h
        · rw [h]
          exact decide_eq_true hlt
        · exact decide_eq_true (lt_trans hlt (hcons.1 p h))
      rw [if_pos hlt, hall, List.getLast?_cons_cons]
      rw [List.getLast?_eq_some_getLast (cons_ne_nil _ _), Option.some_or]
    · rw [if_neg hlt, filter_cons_of_neg (by simpa using hlt)]
      by_cases heq : k = k'
      · rw [if_pos heq]
        subst heq
        have hall : rest.filter (fun p => decide (k < p.1)) = rest := by
          rw [filter_eq_self]
          intro p hp
          exact decide_eq_true (hcons.1 p hp)
        rw [hall, List.getLast?_cons]
        cases rest.getLast? <;> rfl
      · rw [if_neg heq, List.getLast?_cons, ih hcons.2]
        cases (rest.filter fun p => decide (k < p.1)).getLast? <;> rfl

end SortedMap
