/-
What the manager can free, and what it may promise.

Freeing takes half of the pool with the most free bytes, and a pool only gives up whole buffers.  So an
odd number of free buffers, from three on, is half a buffer too much, and nothing is freed
(`progresses_iff`).

What is reported free for a unit size is there: a free buffer goes out, and if there is none the budget
has room for one.  That rests on the pool's buffers having the size that is asked for, and on the pool
growing by at least one (`getBuffer_of_freeSpace`).

The state of the manager is described by `Budget`, with the threshold lowered by what was lost when a
pool was replaced by another of its size; no operation reads the threshold.
-/
import CortxS3.Proofs.MemPoolManager

namespace CortxS3

open Option (isSome_iff_exists some.inj)
open List

namespace Mempool

/-! ### What a pool is made with -/

/-- What is set when a pool is made, and stays. -/
def setup (pool : Mempool) : Bool × Nat × Nat :=
  (pool.logs, pool.expandableSize, pool.mempoolItemSize)

theorem setup_freelistAllocate :
    ∀ (items allocations : Nat) (pool : Mempool) (freeSpace : FreeSpace),
      (freelistAllocate items allocations pool freeSpace).1.setup = pool.setup := by
  intro items
  induction items with
  | zero =>
    intro allocations pool freeSpace
    rfl
  | succ items ih =>
    intro allocations pool freeSpace
    cases allocations with
    | zero => rfl
    | succ allocations =>
      unfold freelistAllocate
      rw [ih]
      rfl

theorem setup_expand (pool : Mempool) (freeSpace : FreeSpace) (allocations : Nat) :
    (pool.expand freeSpace allocations).1.setup = pool.setup := by
  unfold expand
  split
  · simp only
    split
    · rw [setup_freelistAllocate]
    · rfl
  · rfl

theorem setup_takeBuffer (pool : Mempool) : pool.takeBuffer.1.setup = pool.setup := by
  unfold takeBuffer
  cases pool.freeList with
  | nil | cons buf rest => rfl

theorem setup_getbuffer (pool : Mempool) (freeSpace : FreeSpace) (size allocations : Nat) :
    (pool.mempoolGetbuffer freeSpace size allocations).1.setup = pool.setup := by
  unfold mempoolGetbuffer
  by_cases hwrong : pool.mempoolItemSize ≠ size ∧ pool.logs
  · rw [if_pos hwrong]
  · rw [if_neg hwrong]
    have hexpand := setup_expand pool freeSpace allocations
    obtain ⟨⟨pool', freeSpace', ok⟩, hr⟩ : ∃ r, r = pool.expand freeSpace allocations := ⟨_, rfl⟩
    rw [← hr] at hexpand ⊢
    cases ok with
    | true => exact (setup_takeBuffer pool').trans hexpand
    | false => exact hexpand

theorem setup_releasebuffer (pool : Mempool) (buf size : Nat) :
    (pool.mempoolReleasebuffer buf size).setup = pool.setup := by
  unfold mempoolReleasebuffer
  split
  · rfl
  · rfl

/-- **What the loop of `mempool_downsize` frees** is the front of the free list. -/
theorem freeBuffers_frees :
    ∀ (count : Nat) (pool : Mempool),
      (freeBuffers count pool).freeList = pool.freeList.drop count ∧
        (freeBuffers count pool).inUse = pool.inUse ∧ (freeBuffers count pool).setup = pool.setup := by
  intro count
  induction count with
  | zero =>
    intro pool
    exact ⟨rfl, rfl, rfl⟩
  | succ count ih =>
    intro pool
    unfold freeBuffers
    cases hlist : pool.freeList with
    | nil => exact ⟨hlist, rfl, rfl⟩
    | cons buf rest =>
      obtain ⟨hfree, huse, hsetup⟩ := ih { pool with
        freeList := rest
        totalBufsAllocatedByPool := toInt32 (pool.totalBufsAllocatedByPool - 1)
        freeBufsInPool := toInt32 (pool.freeBufsInPool - 1) }
      exact ⟨hfree, huse, hsetup⟩

theorem setup_downsize (pool : Mempool) (freeSpace : FreeSpace) (memToFree : Nat) :
    (pool.mempoolDownsize freeSpace memToFree).1.setup = pool.setup := by
  unfold mempoolDownsize
  split
  · rfl
  · split
    · simp only
      rw [(freeBuffers_frees _ pool).2.2]
    · rfl

theorem setup_createWithSharedMem {itemSize initialSize expansionSize allocations : Nat}
    {freeSpace freeSpace' : FreeSpace} {logs : Bool} {pool : Mempool}
    (h : mempoolCreateWithSharedMem itemSize initialSize expansionSize freeSpace logs allocations =
      some (pool, freeSpace')) : pool.setup = (logs, expansionSize, itemSizeFor itemSize) := by
  unfold mempoolCreateWithSharedMem at h
  split at h
  · cases h
  · obtain ⟨pool₀, hcreate, heq⟩ := Option.map_eq_some_iff.mp h
    obtain ⟨rfl, rfl⟩ := Prod.mk.inj heq
    unfold mempoolCreate at hcreate
    split at hcreate
    · cases hcreate
    · have hsetup := setup_freelistAllocate (initialBufs itemSize initialSize) (allocations - 1)
        { logs := logs, maxMemoryThreshold := 0, mempoolItemSize := itemSizeFor itemSize
          expandableSize := expansionSize } ⟨0, false⟩
      obtain ⟨r, hr⟩ : ∃ r, r = freelistAllocate (initialBufs itemSize initialSize) (allocations - 1)
        { logs := logs, maxMemoryThreshold := 0, mempoolItemSize := itemSizeFor itemSize
          expandableSize := expansionSize } ⟨0, false⟩ := ⟨_, rfl⟩
      rw [← hr] at hsetup
      dsimp only at hcreate
      rw [← hr] at hcreate
      split at hcreate
      · obtain rfl := some.inj hcreate
        exact hsetup
      · cases hcreate

end Mempool

namespace S3MempoolManager

open Mempool OrderedIndex

/-! ### What holds in every state -/

/-- The pools are made for their unit sizes. -/
structure Made (expandableCount : Nat) (pools : List (Nat × Mempool)) : Prop where
  sorted : Sorted pools
  setup : ∀ p ∈ pools, p.2.setup = (true, toSize (expandableCount * p.1 : Nat), itemSizeFor p.1)

variable {c : Nat} {pool : Mempool}

theorem Made.set {unitSize : Nat} {pools : List (Nat × Mempool)} {pool' : Mempool}
    (h : Made c pools) (hget : SortedMap.get unitSize pools = some pool)
    (hsetup : pool'.setup = pool.setup) : Made c (SortedMap.set unitSize pool' pools) := by
  refine ⟨SortedMap.sorted_set h.sorted, ?_⟩
  intro p hp
  rcases (SortedMap.mem_set h.sorted p).mp hp with rfl | ⟨_, hp⟩
  · exact hsetup.trans (h.setup _ ((SortedMap.get_eq_some_iff h.sorted).mp hget))
  · exact h.setup p hp

variable {s : S3MempoolManager}

variable {s' : S3MempoolManager} {call : Call}

/-- **What holds in every state**: the pools are made for their sizes, and the budget is kept but for
what was lost when a pool was replaced. -/
structure Kept (expandableCount : Nat) (s : S3MempoolManager) : Prop where
  made : Made expandableCount s.poolOfMemPool
  budget : ∃ t ≤ s.totalMemoryThreshold, Budget { s with totalMemoryThreshold := t }

theorem stable_kept (c : Nat) : Stable (Kept c) where
  getbuffer allocations h hget := by
    obtain ⟨t, ht, hbudget⟩ := h.budget
    exact ⟨h.made.set hget (setup_getbuffer _ _ _ allocations), t, ht,
      hbudget.getbuffer hget allocations⟩
  downsize memToFree h hmem := by
    have hget := (SortedMap.get_eq_some_iff h.made.sorted).mpr hmem
    obtain ⟨t, ht, hbudget⟩ := h.budget
    exact ⟨h.made.set hget (setup_downsize _ _ memToFree), t, ht, hbudget.downsize hget memToFree⟩
  release h hget hbuf := by
    obtain ⟨t, ht, hbudget⟩ := h.budget
    exact ⟨h.made.set hget (setup_releasebuffer _ _ _), t, ht, hbudget.release hget hbuf⟩

theorem Pooled.lower {t t' : Nat} (h : Pooled t pool) (hle : t' ≤ t) : Pooled t' pool :=
  ⟨h.accounts, h.shares, lt_of_le_of_lt (Nat.div_le_div_right hle) h.small⟩

variable {initialBufferCountPerPool : Int}

theorem Kept.createPool {u : Int × Nat} (h : Kept c s)
    (hsmall : s.totalMemoryThreshold / itemSizeFor (toSize u.1) < 2 ^ 31)
    (hcreate : createPool initialBufferCountPerPool c u.2 s u.1 = some s') :
    Kept c s' ∧ s'.totalMemoryThreshold = s.totalMemoryThreshold := by
  obtain ⟨t, ht, hbudget⟩ := h.budget
  unfold S3MempoolManager.createPool at hcreate
  obtain ⟨⟨pool, freeSpace⟩, hpool, heq⟩ := Option.map_eq_some_iff.mp hcreate
  have hlt : s.freeSpace.size < sizeMod := by
    have := hbudget.total
    have := hbudget.size
    dsimp only at *
    omega
  obtain ⟨hacc, hshares, hitem, -, hle, hfree⟩ := mempoolCreateWithSharedMem_spec hlt hpool
  have hsetup := setup_createWithSharedMem hpool
  obtain rfl := heq
  obtain ⟨lost, hlost⟩ : ∃ n, n =
    ((SortedMap.get (toSize u.1) s.poolOfMemPool).map fun p => p.space).getD 0 := ⟨_, rfl⟩
  have hsum := SortedMap.sum_map_set (fun p : Nat × Mempool => p.2.space) (v := pool)
    (k := toSize u.1) h.made.sorted
  have htotal := hbudget.total
  have hsize := hbudget.size
  unfold poolSpace at htotal
  dsimp only at hsum htotal hsize
  rw [← hlost] at hsum
  refine ⟨⟨⟨SortedMap.sorted_set h.made.sorted, ?_⟩, t - lost, ?_, ?_⟩, rfl⟩
  · intro p hp
    rcases (SortedMap.mem_set h.made.sorted p).mp hp with rfl | ⟨_, hp⟩
    · exact hsetup
    · exact h.made.setup p hp
  · exact le_trans (Nat.sub_le _ _) ht
  · refine ⟨SortedMap.sorted_set h.made.sorted, ?_, ?_, ?_, ?_⟩
    · intro p hp
      rcases (SortedMap.mem_set h.made.sorted p).mp hp with rfl | ⟨_, hp⟩
      · refine ⟨hacc, hshares, lt_of_le_of_lt (Nat.div_le_div_right ?_) (by rw [hitem]; exact hsmall)⟩
        exact le_trans (Nat.sub_le _ _) ht
      · exact (hbudget.pools p hp).lower (Nat.sub_le _ _)
    · rw [hfree]
      unfold poolSpace
      dsimp only
      omega
    · dsimp only
      omega
    · rw [hfree]
      exact hbudget.wrapped

variable {s₀ : S3MempoolManager} {totalMemoryThreshold : Nat} {unitSizes : List (Int × Nat)}

theorem kept_initializePools (hlt : totalMemoryThreshold < sizeMod)
    (hsmall : ∀ u ∈ unitSizes, totalMemoryThreshold / itemSizeFor (toSize u.1) < 2 ^ 31)
    (hinit : initializePools totalMemoryThreshold initialBufferCountPerPool c unitSizes = some s₀) :
    Kept c s₀ := by
  have hall := initializePools_induction (P := fun rest s => Kept c s ∧
    s.totalMemoryThreshold = totalMemoryThreshold ∧
      ∀ u ∈ rest, totalMemoryThreshold / itemSizeFor (toSize u.1) < 2 ^ 31) ?_ ?_ hinit
  · exact hall.1
  · rintro u rest s s' ⟨h, ht, hsmall⟩ hcreate
    obtain ⟨h', ht'⟩ := h.createPool (by rw [ht]; exact hsmall u mem_cons_self) hcreate
    exact ⟨h', ht'.trans ht, fun v hv => hsmall v (mem_cons_of_mem _ hv)⟩
  · refine ⟨⟨⟨List.Pairwise.nil, ?_⟩, totalMemoryThreshold, le_refl _, ?_⟩, rfl, hsmall⟩
    · intro p hp
      cases hp
    · exact ⟨List.Pairwise.nil, by simp, rfl, hlt, rfl⟩

theorem kept_of_reachable (hlt : totalMemoryThreshold < sizeMod)
    (hsmall : ∀ u ∈ unitSizes, totalMemoryThreshold / itemSizeFor (toSize u.1) < 2 ^ 31)
    (hinit : initializePools totalMemoryThreshold initialBufferCountPerPool c unitSizes = some s₀)
    (hreach : Runs.Reachable S3MempoolManager.step (fun _ _ => True) s₀ s) : Kept c s := by
  refine hreach.invariant (P := Kept c) (kept_initializePools hlt hsmall hinit) ?_
  intro t call t' h _ hstep
  exact (stable_kept c).step h hstep

variable {p : Nat × Mempool}

theorem Kept.pooled (h : Kept c s) (hp : p ∈ s.poolOfMemPool) :
    Accounts p.2 ∧ p.2.sharesMemory = true ∧ s.freeSpace.size + p.2.space < sizeMod ∧
      (s.freeSpace.size + p.2.space) / p.2.mempoolItemSize < 2 ^ 31 := by
  obtain ⟨t, ht, hbudget⟩ := h.budget
  have hpooled := hbudget.pools p hp
  have hle := hbudget.space_le (show (p.1, p.2) ∈ s.poolOfMemPool from hp)
  have hsize := hbudget.size
  dsimp only at hle hsize
  exact ⟨hpooled.accounts, hpooled.shares, by omega,
    lt_of_le_of_lt (Nat.div_le_div_right hle) hpooled.small⟩

theorem Kept.item (h : Kept c s) (hp : p ∈ s.poolOfMemPool) :
    p.2.mempoolItemSize = itemSizeFor p.1 :=
  congrArg (fun r => r.2.2) (h.made.setup p hp)

theorem elementSize_le_itemSizeFor (size : Nat) : elementSize ≤ itemSizeFor size := by
  unfold itemSizeFor
  split
  · exact le_refl _
  · omega

theorem reservedSpace_eq (h : Accounts pool) (hlt : pool.space < sizeMod) :
    pool.reservedSpace = pool.freeList.length * pool.mempoolItemSize := by
  have hle : pool.freeList.length * pool.mempoolItemSize ≤ pool.space :=
    Nat.mul_le_mul_right _ (Nat.le_add_right _ _)
  unfold reservedSpace
  rw [h.free, ← Int.natCast_mul, toSize_natCast (by rw [Nat.mul_comm]; omega), Nat.mul_comm]

/-! ### Freeing -/

theorem largestReserve_spec (pools : List (Nat × Mempool)) :
    (∀ p, largestReserve pools = some p → 0 < p.2.reservedSpace) ∧
      (largestReserve pools = none → ∀ p ∈ pools, p.2.reservedSpace = 0) := by
  have hfold : ∀ (rest : List (Nat × Mempool)) (best : Option (Nat × Mempool)),
      (∀ b ∈ best, 0 < b.2.reservedSpace) →
      (∀ p, rest.foldl (fun best p =>
        if 0 < p.2.reservedSpace ∧ ∀ b ∈ best, b.2.reservedSpace ≤ p.2.reservedSpace then some p
        else best) best = some p → 0 < p.2.reservedSpace) ∧
      (rest.foldl (fun best p =>
        if 0 < p.2.reservedSpace ∧ ∀ b ∈ best, b.2.reservedSpace ≤ p.2.reservedSpace then some p
        else best) best = none → best = none ∧ ∀ p ∈ rest, p.2.reservedSpace = 0) := by
    intro rest
    induction rest with
    | nil =>
      intro best hbest
      exact ⟨fun p hp => hbest p hp, fun hnone => ⟨hnone, by simp⟩⟩
    | cons q rest ih =>
      intro best hbest
      rw [foldl_cons]
      by_cases hq : 0 < q.2.reservedSpace ∧ ∀ b ∈ best, b.2.reservedSpace ≤ q.2.reservedSpace
      · rw [if_pos hq]
        obtain ⟨hpos, hnone⟩ := ih (some q) (by rintro b ⟨⟩; exact hq.1)
        exact ⟨hpos, fun h => absurd (hnone h).1 (by simp)⟩
      · rw [if_neg hq]
        obtain ⟨hpos, hnone⟩ := ih best hbest
        refine ⟨hpos, fun h => ?_⟩
        obtain ⟨rfl, hrest⟩ := hnone h
        refine ⟨rfl, ?_⟩
        intro p hp
        rcases mem_cons.mp hp with rfl | hp
        · by_contra hne
          exact hq ⟨by omega, by simp⟩
        · exact hrest p hp
  obtain ⟨hpos, hnone⟩ := hfold pools none (by simp)
  exact ⟨hpos, fun h => (hnone h).2⟩

variable {freeSpace : FreeSpace}

theorem downsize_of_multiple (h : Accounts pool) (hshares : pool.sharesMemory = true)
    (hlt : freeSpace.size + pool.space < sizeMod) {n : Nat} (hn : 1 ≤ n)
    (hle : n ≤ pool.freeList.length) :
    pool.mempoolDownsize freeSpace (n * pool.mempoolItemSize) =
      (freeBuffers n pool,
        { freeSpace with size := freeSpace.size + n * pool.mempoolItemSize }, true) := by
  have hitem := h.item
  have hsmall := h.small
  have hbufs : pool.freeList.length ≤ pool.bufs := Nat.le_add_right _ _
  have hto : pool.bufsToFree (n * pool.mempoolItemSize) = n := by
    unfold bufsToFree
    rw [Nat.mul_div_cancel _ hitem, toInt32_of_lt (by omega), h.free]
    dsimp only
    rw [if_neg (by omega)]
  have hspace : n * pool.mempoolItemSize ≤ pool.space := Nat.mul_le_mul_right _ (by omega)
  have hsize : toSize ((n : Int) * pool.mempoolItemSize) = n * pool.mempoolItemSize := by
    rw [← Int.natCast_mul]
    exact toSize_natCast (by omega)
  unfold mempoolDownsize
  rw [if_neg (by rw [Nat.mul_mod_left]; exact lt_irrefl 0), hto, if_pos (by omega), if_pos hshares,
    hsize, Int.toNat_natCast]
  unfold markFreeSpace
  rw [Nat.mod_eq_of_lt (by omega)]

variable {f item : Nat}

theorem half_multiple_iff (hitem : 2 ≤ item) (hf : 1 ≤ f) :
    (if f * item / 2 < item then item else f * item / 2) % item = 0 ↔ f = 1 ∨ Even f := by
  have hpos : 0 < item := by omega
  by_cases hone : f = 1
  · subst hone
    rw [Nat.one_mul, if_pos (by omega), Nat.mod_self]
    exact ⟨fun _ => .inl rfl, fun _ => rfl⟩
  · obtain ⟨k, hk⟩ | ⟨k, hk⟩ := Nat.even_or_odd f
    · have hhalf : f * item / 2 = k * item := by
        rw [hk, Nat.add_mul, ← Nat.two_mul, Nat.mul_div_cancel_left _ (by omega)]
      have hle : item ≤ k * item := Nat.le_mul_of_pos_left _ (by omega)
      rw [hhalf, if_neg (by omega), Nat.mul_mod_left]
      exact ⟨fun _ => .inr ⟨k, hk⟩, fun _ => rfl⟩
    · have hhalf : f * item / 2 = item / 2 + k * item := by
        rw [hk, Nat.add_mul, Nat.one_mul, Nat.mul_assoc]
        omega
      have hle : item ≤ k * item := Nat.le_mul_of_pos_left _ (by omega)
      rw [hhalf, if_neg (by omega), Nat.add_mul_mod_self_right, Nat.mod_eq_of_lt (by omega)]
      constructor
      · omega
      · rintro (hone' | heven)
        · exact absurd hone' hone
        · exact absurd ⟨k, hk⟩ (Nat.not_odd_iff_even.mpr heven)

theorem exists_half (hitem : 2 ≤ item) (hf : 1 ≤ f) (h : f = 1 ∨ Even f) :
    ∃ n, 1 ≤ n ∧ n ≤ f ∧ (if f * item / 2 < item then item else f * item / 2) = n * item := by
  have hpos : 0 < item := by omega
  obtain ⟨n, hn⟩ := Nat.dvd_of_mod_eq_zero ((half_multiple_iff hitem hf).mpr h)
  rw [Nat.mul_comm item n] at hn
  refine ⟨n, ?_, ?_, hn⟩
  · by_contra hzero
    obtain rfl : n = 0 := by omega
    split at hn
    · omega
    · omega
  · refine Nat.le_of_mul_le_mul_right ?_ hpos
    rw [← hn]
    have hle : item ≤ f * item := Nat.le_mul_of_pos_left _ (by omega)
    split
    · exact hle
    · omega

/-- A pool has given up buffers, and what they took is free for all. -/
def Released (s s' : S3MempoolManager) : Prop :=
  ∃ unitSize pool pool' n, SortedMap.get unitSize s.poolOfMemPool = some pool ∧
    s'.poolOfMemPool = SortedMap.set unitSize pool' s.poolOfMemPool ∧
    1 ≤ n ∧ n ≤ pool.freeList.length ∧ pool'.freeList = pool.freeList.drop n ∧
    pool'.inUse = pool.inUse ∧ s'.freeSpace.size = s.freeSpace.size + n * pool.mempoolItemSize

/-- **Freeing makes progress**: it says so, and buffers were released. -/
def Progresses (s : S3MempoolManager) : Prop :=
  s.freeAnyUnused.2 = true ∧ Released s s.freeAnyUnused.1

/-- A pool other than the one that asks has a free buffer. -/
def OthersHaveFree (s : S3MempoolManager) (requester : Nat) : Prop :=
  ∃ p ∈ s.poolOfMemPool, p.1 ≠ requester ∧ p.2.freeList ≠ []

/-- The pool with the most free bytes has one free buffer, or an even number of them. -/
def Halves (s : S3MempoolManager) : Prop :=
  ∀ p, largestReserve s.poolOfMemPool = some p →
    p.2.freeList.length = 1 ∨ Even p.2.freeList.length

theorem Kept.progresses_iff (h : Kept c s) {q : Nat × Mempool} (hq : q ∈ s.poolOfMemPool)
    (hfree : q.2.freeList ≠ []) : Progresses s ↔ Halves s := by
  cases hlargest : largestReserve s.poolOfMemPool with
  | none =>
    obtain ⟨hacc, -, hlt, -⟩ := h.pooled hq
    have hzero := (largestReserve_spec s.poolOfMemPool).2 hlargest q hq
    rw [reservedSpace_eq hacc (by omega)] at hzero
    have hlen := length_pos_iff.mpr hfree
    have := Nat.mul_pos hlen hacc.item
    omega
  | some p =>
    have hp := largestReserve_mem hlargest
    obtain ⟨hacc, hshares, hlt, -⟩ := h.pooled hp
    have hpos := (largestReserve_spec s.poolOfMemPool).1 p hlargest
    have hget := (SortedMap.get_eq_some_iff h.made.sorted).mpr hp
    have hreserved := reservedSpace_eq hacc (by omega)
    have hitem : 2 ≤ p.2.mempoolItemSize := by
      have := elementSize_le_itemSizeFor p.1
      rw [h.item hp]
      unfold elementSize at this
      omega
    have hf : 1 ≤ p.2.freeList.length := by
      by_contra hzero
      have hlen : p.2.freeList.length = 0 := by omega
      rw [hreserved, hlen, Nat.zero_mul] at hpos
      exact absurd hpos (lt_irrefl 0)
    have hhalves : Halves s ↔ p.2.freeList.length = 1 ∨ Even p.2.freeList.length := by
      unfold Halves
      rw [hlargest]
      constructor
      · intro hall
        exact hall p rfl
      · rintro hhalf r hr
        obtain rfl := some.inj hr
        exact hhalf
    obtain ⟨size, hsize⟩ : ∃ size, size = if p.2.freeList.length * p.2.mempoolItemSize / 2 <
        p.2.mempoolItemSize then p.2.mempoolItemSize
        else p.2.freeList.length * p.2.mempoolItemSize / 2 := ⟨_, rfl⟩
    have hrun : s.freeAnyUnused =
        ({ s with
            freeSpace := (p.2.mempoolDownsize s.freeSpace size).2.1
            poolOfMemPool := SortedMap.set p.1 (p.2.mempoolDownsize s.freeSpace size).1
              s.poolOfMemPool },
          (p.2.mempoolDownsize s.freeSpace size).2.2) := by
      unfold freeAnyUnused
      rw [hlargest, hsize, ← hreserved]
    rw [hhalves]
    constructor
    · rintro ⟨hok, -⟩
      rw [hrun] at hok
      by_contra hodd
      have hrest : 0 < size % p.2.mempoolItemSize := by
        rw [hsize]
        exact Nat.pos_of_ne_zero fun hzero => hodd ((half_multiple_iff hitem hf).mp hzero)
      unfold mempoolDownsize at hok
      rw [if_pos hrest] at hok
      cases hok
    · intro hhalf
      obtain ⟨n, hn, hle, hnsize⟩ := exists_half hitem hf hhalf
      rw [← hsize] at hnsize
      have hdown := downsize_of_multiple hacc hshares hlt hn hle
      rw [← hnsize] at hdown
      obtain ⟨hdrop, huse, -⟩ := freeBuffers_frees n p.2
      unfold Progresses
      rw [hrun, hdown]
      refine ⟨rfl, p.1, p.2, freeBuffers n p.2, n, hget, rfl, hn, hle, hdrop, huse, ?_⟩
      rw [hnsize]

/-- **When freeing makes progress.**  In every state that is reached, with a free buffer in a pool other
than the one that asks, buffers are released if and only if the pool with the most free bytes has one
free buffer or an even number of them. -/
theorem freeAnyUnused_progresses_iff {totalMemoryThreshold : Nat} {initialBufferCountPerPool : Int}
    {expandableCount : Nat} {unitSizes : List (Int × Nat)} {s₀ s : S3MempoolManager}
    (hlt : totalMemoryThreshold < sizeMod)
    (hsmall : ∀ u ∈ unitSizes, totalMemoryThreshold / itemSizeFor (toSize u.1) < 2 ^ 31)
    (hinit : initializePools totalMemoryThreshold initialBufferCountPerPool expandableCount
      unitSizes = some s₀)
    (hreach : Runs.Reachable step (fun _ _ => True) s₀ s) (requester : Nat) :
    (OthersHaveFree s requester → Progresses s) ↔ (OthersHaveFree s requester → Halves s) := by
  have hkept := kept_of_reachable hlt hsmall hinit hreach
  constructor
  · rintro h ⟨q, hq, hne, hfree⟩
    exact (hkept.progresses_iff hq hfree).mp (h ⟨q, hq, hne, hfree⟩)
  · rintro h ⟨q, hq, hne, hfree⟩
    exact (hkept.progresses_iff hq hfree).mpr (h ⟨q, hq, hne, hfree⟩)

/-- Two pools with a free buffer each. -/
theorem freeAnyUnused_progresses_iff_twoPools :
    ∃ s₀, initializePools 65536 1 1 [(4096, 2), (8192, 2)] = some s₀ ∧
      ((OthersHaveFree s₀ 4096 → Progresses s₀) ↔ (OthersHaveFree s₀ 4096 → Halves s₀)) := by
  obtain ⟨s₀, hinit⟩ : ∃ s₀, initializePools 65536 1 1 [(4096, 2), (8192, 2)] = some s₀ :=
    isSome_iff_exists.mp (by decide)
  exact ⟨s₀, hinit, freeAnyUnused_progresses_iff (by decide) (by decide) hinit .start 4096⟩

/-- Of three free buffers one and a half should go. -/
theorem not_progresses_threeBuffers :
    ¬ ∀ (totalMemoryThreshold : Nat) (initialBufferCountPerPool : Int) (expandableCount : Nat)
      (unitSizes : List (Int × Nat)) (s₀ s : S3MempoolManager) (requester : Nat),
      totalMemoryThreshold < sizeMod →
      initializePools totalMemoryThreshold initialBufferCountPerPool expandableCount unitSizes =
        some s₀ →
      Runs.Reachable step (fun _ _ => True) s₀ s → OthersHaveFree s requester → Progresses s := by
  intro h
  obtain ⟨s₀, hinit⟩ : ∃ s₀, initializePools 65536 3 1 [(4096, 4), (8192, 4)] = some s₀ :=
    isSome_iff_exists.mp (by decide)
  have hstate : ∀ s, initializePools 65536 3 1 [(4096, 4), (8192, 4)] = some s →
      OthersHaveFree s 4096 ∧ s.freeAnyUnused.2 = false := by
    rintro s ⟨⟩
    refine ⟨⟨_, mem_cons_of_mem _ mem_cons_self, by decide, by decide⟩, by decide⟩
  obtain ⟨hothers, hfalse⟩ := hstate s₀ hinit
  have hprogress := h 65536 3 1 [(4096, 4), (8192, 4)] s₀ s₀ 4096 (by decide) hinit .start hothers
  exact absurd (hprogress.1.symm.trans hfalse) (by decide)

/-! ### What is reported free -/

/-- While no allocation fails, as many buffers are added as were asked for. -/
theorem freelistAllocate_all {items : Nat} :
    ∀ {allocations : Nat} (pool : Mempool) (freeSpace : FreeSpace), items ≤ allocations →
      (freelistAllocate items allocations pool freeSpace).2.2 = true ∧
        (freelistAllocate items allocations pool freeSpace).1.freeList.length =
          pool.freeList.length + items := by
  induction items with
  | zero =>
    intro allocations pool freeSpace _
    exact ⟨rfl, rfl⟩
  | succ items ih =>
    intro allocations pool freeSpace hle
    obtain ⟨allocations, rfl⟩ : ∃ n, allocations = n + 1 := ⟨allocations - 1, by omega⟩
    have hrest : items ≤ allocations := by omega
    obtain ⟨hok, hlen⟩ := ih pool.addBuffer
      (if pool.sharesMemory then markUsedSpace freeSpace pool.mempoolItemSize else freeSpace)
      hrest
    unfold freelistAllocate
    refine ⟨hok, ?_⟩
    rw [hlen]
    simp only [addBuffer, length_cons]
    omega

theorem takeBuffer_isSome (h : pool.freeList ≠ []) : pool.takeBuffer.2.isSome := by
  unfold takeBuffer
  cases hlist : pool.freeList with
  | nil => exact absurd hlist h
  | cons buf rest => rfl

variable {allocations : Nat}

theorem expand_of_empty (h : Accounts pool) (halloc : 2 ^ 31 ≤ allocations)
    (hempty : pool.freeList = [])
    (hgrow : 0 < toInt32 (pool.expandableSize / pool.mempoolItemSize : Nat))
    (hroom : 0 < pool.poolCanExpandBy freeSpace) :
    (pool.expand freeSpace allocations).2.2 = true ∧
      (pool.expand freeSpace allocations).1.freeList ≠ [] := by
  have hzero : pool.freeBufsInPool = 0 := by
    rw [h.free, hempty]
    rfl
  have hbound := toInt32_lt (pool.expandableSize / pool.mempoolItemSize : Nat)
  obtain ⟨grow, hgrowEq⟩ : ∃ g, g = toInt32 (pool.expandableSize / pool.mempoolItemSize : Nat) :=
    ⟨_, rfl⟩
  obtain ⟨can, hcan⟩ : ∃ n, n = pool.poolCanExpandBy freeSpace := ⟨_, rfl⟩
  obtain ⟨items, hitems⟩ : ∃ items : Nat, items = (if can < grow then can else grow).toNat :=
    ⟨_, rfl⟩
  rw [← hgrowEq] at hgrow hbound
  rw [← hcan] at hroom
  have hitemsPos : 1 ≤ items ∧ items ≤ allocations := by
    rw [hitems]
    split <;> omega
  obtain ⟨hok, hlen⟩ := freelistAllocate_all pool freeSpace hitemsPos.2
  have hrun : pool.expand freeSpace allocations = freelistAllocate items allocations pool freeSpace := by
    unfold expand
    rw [if_pos hzero]
    simp only [← hgrowEq, ← hcan, if_pos hroom, ← hitems]
  rw [hrun]
  refine ⟨hok, ?_⟩
  intro hnil
  rw [hnil, hempty] at hlen
  simp only [length_nil] at hlen
  omega

/-- **A pool hands out a buffer** if it has one, or may grow. -/
theorem getbuffer_isSome (h : Accounts pool) (freeSpace : FreeSpace) (halloc : 2 ^ 31 ≤ allocations)
    (hmore : pool.freeList = [] →
      0 < toInt32 (pool.expandableSize / pool.mempoolItemSize : Nat) ∧
        0 < pool.poolCanExpandBy freeSpace) :
    (pool.mempoolGetbuffer freeSpace pool.mempoolItemSize allocations).2.2.isSome := by
  have hexpand : (pool.expand freeSpace allocations).2.2 = true ∧
      (pool.expand freeSpace allocations).1.freeList ≠ [] := by
    by_cases hempty : pool.freeList = []
    · exact expand_of_empty h halloc hempty (hmore hempty).1 (hmore hempty).2
    · have hne : pool.freeBufsInPool ≠ 0 := by
        have := length_pos_iff.mpr hempty
        rw [h.free]
        omega
      have hrun : pool.expand freeSpace allocations = (pool, freeSpace, true) := by
        unfold expand
        rw [if_neg hne]
      rw [hrun]
      exact ⟨rfl, hempty⟩
  obtain ⟨r, hr⟩ : ∃ r, r = pool.expand freeSpace allocations := ⟨_, rfl⟩
  rw [← hr] at hexpand
  unfold mempoolGetbuffer
  rw [if_neg fun hwrong => hwrong.1 rfl, ← hr]
  simp only [hexpand.1, if_true]
  exact takeBuffer_isSome hexpand.2

/-- When enough is reported free for a unit size and no allocation fails, a buffer is handed out. -/
def PromiseKept (s : S3MempoolManager) (unitSize : Nat) : Prop :=
  unitSize ≤ s.getFreeSpaceFor unitSize → ∀ first second third, 2 ^ 31 ≤ first → 2 ^ 31 ≤ second →
    2 ^ 31 ≤ third → (s.getBufferForUnitSize unitSize first second third).2.isSome

/-- **What is reported free is there.**  In every state that is reached, for every unit size with a pool
that is at least the size of a pointer, and of which the pool grows by at least one buffer: when so much
is reported free, the next buffer is handed out. -/
theorem getBuffer_of_freeSpace {totalMemoryThreshold : Nat} {initialBufferCountPerPool : Int}
    {expandableCount : Nat} {unitSizes : List (Int × Nat)} {s₀ s : S3MempoolManager}
    (hlt : totalMemoryThreshold < sizeMod)
    (hsmall : ∀ u ∈ unitSizes, totalMemoryThreshold / itemSizeFor (toSize u.1) < 2 ^ 31)
    (hinit : initializePools totalMemoryThreshold initialBufferCountPerPool expandableCount
      unitSizes = some s₀)
    (hreach : Runs.Reachable step (fun _ _ => True) s₀ s) {unitSize : Nat}
    (hsupported : (SortedMap.get unitSize s.poolOfMemPool).isSome)
    (hpointer : elementSize ≤ unitSize)
    (hgrow : 0 < toInt32 (toSize (expandableCount * unitSize : Nat) / unitSize : Nat)) :
    PromiseKept s unitSize := by
  intro hfree first second third hfirst _ _
  have hkept := kept_of_reachable hlt hsmall hinit hreach
  obtain ⟨pool, hget⟩ := isSome_iff_exists.mp hsupported
  have hp := (SortedMap.get_eq_some_iff hkept.made.sorted).mp hget
  obtain ⟨hacc, hshares, hspace, hdiv⟩ := hkept.pooled hp
  have hsetup := hkept.made.setup _ hp
  dsimp only at hacc hshares hspace hdiv hsetup
  have hitem : pool.mempoolItemSize = unitSize := by
    have hitem : pool.mempoolItemSize = itemSizeFor unitSize := congrArg (fun r => r.2.2) hsetup
    rw [hitem]
    unfold itemSizeFor
    rw [if_neg (by omega)]
  have hexpandable : pool.expandableSize = toSize (expandableCount * unitSize : Nat) :=
    congrArg (fun r => r.2.1) hsetup
  have hmore : pool.freeList = [] →
      0 < toInt32 (pool.expandableSize / pool.mempoolItemSize : Nat) ∧
        0 < pool.poolCanExpandBy s.freeSpace := by
    intro hempty
    refine ⟨by rw [hexpandable, hitem]; exact hgrow, ?_⟩
    have hreport : s.getFreeSpaceFor unitSize = s.freeSpace.size := by
      unfold getFreeSpaceFor
      rw [hget]
      dsimp only
      rw [reservedSpace_eq hacc (by omega), hempty, length_nil, Nat.zero_mul, Nat.zero_add,
        Nat.mod_eq_of_lt (by omega)]
    rw [hreport, ← hitem] at hfree
    have hone : 1 ≤ s.freeSpace.size / pool.mempoolItemSize :=
      (Nat.one_le_div_iff hacc.item).mpr hfree
    have hbound : s.freeSpace.size / pool.mempoolItemSize < 2 ^ 31 :=
      lt_of_le_of_lt (Nat.div_le_div_right (Nat.le_add_right _ _)) hdiv
    unfold poolCanExpandBy
    rw [if_pos hshares]
    dsimp only
    rw [toInt32_of_lt hbound]
    omega
  have hbuf := getbuffer_isSome hacc s.freeSpace hfirst hmore
  rw [hitem] at hbuf
  unfold getBufferForUnitSize tryGetBuffer
  rw [hget]
  dsimp only
  obtain ⟨buf, hbuf⟩ := isSome_iff_exists.mp hbuf
  rw [hbuf]
  rfl

/-- One pool, of which the only buffer is handed out. -/
theorem getBuffer_of_freeSpace_onePool :
    ∃ s₀ s, initializePools 65536 1 1 [(4096, 2)] = some s₀ ∧
      Runs.run step s₀ [.getBufferForUnitSize 4096 0 0 0] = some s ∧ PromiseKept s 4096 := by
  obtain ⟨s₀, hinit⟩ : ∃ s₀, initializePools 65536 1 1 [(4096, 2)] = some s₀ :=
    isSome_iff_exists.mp (by decide)
  obtain ⟨s, hrun⟩ : ∃ s, Runs.run step s₀ [.getBufferForUnitSize 4096 0 0 0] = some s := ⟨_, rfl⟩
  have hpool : ∀ s₀ s, initializePools 65536 1 1 [(4096, 2)] = some s₀ →
      Runs.run step s₀ [.getBufferForUnitSize 4096 0 0 0] = some s →
      (SortedMap.get 4096 s.poolOfMemPool).isSome := by
    rintro s₀ s ⟨⟩ ⟨⟩
    decide
  refine ⟨s₀, s, hinit, hrun, ?_⟩
  exact getBuffer_of_freeSpace (by decide) (by decide) hinit
    (Runs.reachable_of_run _ .start (by simp [Runs.AllOk]) hrun) (hpool s₀ s hinit hrun)
    (by decide) (by decide)

/-- Of a unit size below a pointer the pool has larger buffers, and hands out none; and a pool whose
growth, in buffers, is no `int` does not grow. -/
theorem not_promiseKept :
    (¬ ∀ (totalMemoryThreshold : Nat) (initialBufferCountPerPool : Int) (expandableCount : Nat)
      (unitSizes : List (Int × Nat)) (s₀ s : S3MempoolManager) (unitSize : Nat),
      initializePools totalMemoryThreshold initialBufferCountPerPool expandableCount unitSizes =
        some s₀ → Runs.Reachable step (fun _ _ => True) s₀ s →
      (SortedMap.get unitSize s.poolOfMemPool).isSome →
      0 < toInt32 (toSize (expandableCount * unitSize : Nat) / unitSize : Nat) →
      PromiseKept s unitSize) ∧
    ¬ ∀ (totalMemoryThreshold : Nat) (initialBufferCountPerPool : Int) (expandableCount : Nat)
      (unitSizes : List (Int × Nat)) (s₀ s : S3MempoolManager) (unitSize : Nat),
      initializePools totalMemoryThreshold initialBufferCountPerPool expandableCount unitSizes =
        some s₀ → Runs.Reachable step (fun _ _ => True) s₀ s →
      (SortedMap.get unitSize s.poolOfMemPool).isSome → elementSize ≤ unitSize →
      PromiseKept s unitSize := by
  constructor
  · intro h
    obtain ⟨s₀, hinit⟩ : ∃ s₀, initializePools 65536 1 1 [(4, 2)] = some s₀ :=
      isSome_iff_exists.mp (by decide)
    have hstate : ∀ s, initializePools 65536 1 1 [(4, 2)] = some s →
        (SortedMap.get 4 s.poolOfMemPool).isSome ∧ 4 ≤ s.getFreeSpaceFor 4 ∧
          (s.getBufferForUnitSize 4 (2 ^ 31) (2 ^ 31) (2 ^ 31)).2.isSome = false := by
      rintro s ⟨⟩
      decide
    obtain ⟨hpool, hfree, hnone⟩ := hstate s₀ hinit
    have hsome := h 65536 1 1 [(4, 2)] s₀ s₀ 4 hinit .start hpool (by decide) hfree (2 ^ 31) (2 ^ 31)
      (2 ^ 31) (le_refl _) (le_refl _) (le_refl _)
    rw [hnone] at hsome
    cases hsome
  · intro h
    obtain ⟨s₀, hinit⟩ : ∃ s₀, initializePools 65536 0 (2 ^ 31) [(4096, 2)] = some s₀ :=
      isSome_iff_exists.mp (by decide)
    have hstate : ∀ s, initializePools 65536 0 (2 ^ 31) [(4096, 2)] = some s →
        (SortedMap.get 4096 s.poolOfMemPool).isSome ∧ 4096 ≤ s.getFreeSpaceFor 4096 ∧
          (s.getBufferForUnitSize 4096 (2 ^ 31) (2 ^ 31) (2 ^ 31)).2.isSome = false := by
      rintro s ⟨⟩
      decide
    obtain ⟨hpool, hfree, hnone⟩ := hstate s₀ hinit
    have hsome := h 65536 0 (2 ^ 31) [(4096, 2)] s₀ s₀ 4096 hinit .start hpool (by decide) hfree
      (2 ^ 31) (2 ^ 31) (2 ^ 31) (le_refl _) (le_refl _) (le_refl _)
    rw [hnone] at hsome
    cases hsome

end S3MempoolManager

end CortxS3
