/-
The budget of the pools of the manager.

What is free and what the pools have allocated is together the threshold (`Budget`).  An operation on one
pool moves memory between that pool and what is free, by the lemmas about a single pool, so the sum stays.

The one thing that breaks it is a unit size that is given twice.  The second pool takes the place of the
first in the map, and what the first one has allocated is lost from the sum.
-/
import CortxS3.Server.MemPoolManager
import CortxS3.Proofs.MemoryPool

namespace CortxS3

open Option (getD_some map_some some.inj)
open List

namespace S3MempoolManager

open Mempool OrderedIndex

/-- What the pools have allocated, by the length of their lists. -/
def poolSpace (pools : List (Nat × Mempool)) : Nat := (pools.map fun p => p.2.space).sum

/-- A pool of the manager: it keeps its books, and is too small for its counters to run over. -/
structure Pooled (threshold : Nat) (pool : Mempool) : Prop where
  accounts : Accounts pool
  shares : pool.sharesMemory = true
  small : threshold / pool.mempoolItemSize < 2 ^ 31

structure Budget (s : S3MempoolManager) : Prop where
  sorted : Sorted s.poolOfMemPool
  pools : ∀ p ∈ s.poolOfMemPool, Pooled s.totalMemoryThreshold p.2
  total : s.freeSpace.size + poolSpace s.poolOfMemPool = s.totalMemoryThreshold
  size : s.totalMemoryThreshold < sizeMod
  wrapped : s.freeSpace.wrapped = false

variable {pool : Mempool}

variable {pool' : Mempool}

theorem Pooled.congr {threshold : Nat} (h : Pooled threshold pool) (hacc : Accounts pool')
    (hs : SameSetup pool pool') : Pooled threshold pool' := by
  refine ⟨hacc, ?_, ?_⟩
  · rw [hs.sharesMemory]
    exact h.shares
  · rw [hs.mempoolItemSize]
    exact h.small

variable {s : S3MempoolManager}

theorem allocated_eq (h : ∀ p ∈ s.poolOfMemPool, Accounts p.2) :
    s.allocated = poolSpace s.poolOfMemPool := by
  unfold allocated poolSpace
  generalize s.poolOfMemPool = pools at h
  induction pools with
  | nil => rfl
  | cons p rest ih =>
    rw [map_cons, sum_cons, map_cons, sum_cons,
      ih fun q hq => h q (mem_cons_of_mem _ hq), (h p mem_cons_self).total,
      Nat.cast_add, Mempool.space, Nat.cast_mul]

/-! ### Moving memory -/

variable {unitSize : Nat}

/-- **Memory that moves between a pool and what is free stays in the budget.** -/
theorem Budget.move (h : Budget s) {freeSpace' : FreeSpace}
    (hget : SortedMap.get unitSize s.poolOfMemPool = some pool)
    (hpool : Pooled s.totalMemoryThreshold pool')
    (hspace : freeSpace'.size + pool'.space = s.freeSpace.size + pool.space)
    (hwrapped : freeSpace'.wrapped = s.freeSpace.wrapped) :
    Budget { s with
      freeSpace := freeSpace'
      poolOfMemPool := SortedMap.set unitSize pool' s.poolOfMemPool } := by
  refine ⟨SortedMap.sorted_set h.sorted, ?_, ?_, h.size, hwrapped.trans h.wrapped⟩
  · intro p hp
    rcases (SortedMap.mem_set h.sorted p).mp hp with rfl | ⟨_, hp⟩
    · exact hpool
    · exact h.pools p hp
  · have hsum := SortedMap.sum_map_set (fun p : Nat × Mempool => p.2.space) (v := pool')
      (k := unitSize) h.sorted
    rw [hget, map_some, getD_some] at hsum
    have htotal := h.total
    unfold poolSpace at htotal ⊢
    simp only at hsum ⊢
    omega

theorem Budget.space_le (h : Budget s) (hmem : (unitSize, pool) ∈ s.poolOfMemPool) :
    s.freeSpace.size + pool.space ≤ s.totalMemoryThreshold := by
  have hle : pool.space ≤ poolSpace s.poolOfMemPool :=
    le_sum_of_mem (mem_map_of_mem (f := fun p : Nat × Mempool => p.2.space) hmem)
  have := h.total
  omega

theorem Budget.small (h : Budget s) (hmem : (unitSize, pool) ∈ s.poolOfMemPool)
    (expectedBufferSize allocations : Nat) :
    (pool.mempoolGetbuffer s.freeSpace expectedBufferSize allocations).1.bufs < 2 ^ 31 := by
  have hp : Pooled s.totalMemoryThreshold pool := h.pools _ hmem
  have hcan := poolCanExpandBy_le pool s.freeSpace
  rw [available, if_pos hp.shares] at hcan
  have hdiv : pool.bufs + s.freeSpace.size / pool.mempoolItemSize ≤
      s.totalMemoryThreshold / pool.mempoolItemSize := by
    rw [Nat.le_div_iff_mul_le hp.accounts.item, Nat.add_mul]
    have hle := h.space_le hmem
    have := Nat.div_mul_le_self s.freeSpace.size pool.mempoolItemSize
    unfold Mempool.space at hle
    omega
  have hsmall := hp.small
  have hbufs := hp.accounts.small
  rw [bufs_mempoolGetbuffer]
  split
  · exact hbufs
  · rcases expand_cases pool s.freeSpace allocations with ⟨hpool, _⟩ | ⟨_, items, hle, heq⟩
    · rw [hpool]
      exact hbufs
    · rw [heq]
      have := (bufs_freelistAllocate items allocations pool s.freeSpace).2
      omega

/-! ### The calls -/

theorem Budget.getbuffer (h : Budget s) (hget : SortedMap.get unitSize s.poolOfMemPool = some pool)
    (allocations : Nat) :
    Budget { s with
      freeSpace := (pool.mempoolGetbuffer s.freeSpace unitSize allocations).2.1
      poolOfMemPool := SortedMap.set unitSize
        (pool.mempoolGetbuffer s.freeSpace unitSize allocations).1 s.poolOfMemPool } := by
  have hmem := (SortedMap.get_eq_some_iff h.sorted).mp hget
  have hp : Pooled s.totalMemoryThreshold pool := h.pools _ hmem
  obtain ⟨n, mid, hn, hgrows, hsame⟩ := mempoolGetbuffer_spec hp.accounts s.freeSpace unitSize
    allocations (h.small hmem unitSize allocations)
  rw [available, if_pos hp.shares] at hn
  have hfree := hgrows.shared hp.shares hn (by have := h.total; have := h.size; omega)
  have hsetup := hgrows.setup.trans hsame.setup
  refine h.move hget (hp.congr hsame.accounts hsetup) ?_ ?_
  · rw [hfree, Mempool.space, Mempool.space, hsame.bufs, hgrows.bufs, hsetup.mempoolItemSize,
      Nat.add_mul]
    simp only
    omega
  · rw [hfree]

theorem Budget.downsize (h : Budget s) (hget : SortedMap.get unitSize s.poolOfMemPool = some pool)
    (memToFree : Nat) :
    Budget { s with
      freeSpace := (pool.mempoolDownsize s.freeSpace memToFree).2.1
      poolOfMemPool := SortedMap.set unitSize
        (pool.mempoolDownsize s.freeSpace memToFree).1 s.poolOfMemPool } := by
  have hmem := (SortedMap.get_eq_some_iff h.sorted).mp hget
  have hp : Pooled s.totalMemoryThreshold pool := h.pools _ hmem
  obtain ⟨n, hacc, hsetup, hbufs, hfree⟩ := mempoolDownsize_spec hp.accounts s.freeSpace memToFree
  have hfree := hfree hp.shares (by have := h.space_le hmem; have := h.size; omega)
  refine h.move hget (hp.congr hacc hsetup) ?_ ?_
  · rw [hfree, Mempool.space, Mempool.space, hsetup.mempoolItemSize, ← hbufs, Nat.add_mul]
    simp only
    omega
  · rw [hfree]

theorem largestReserve_mem {pools : List (Nat × Mempool)} {p : Nat × Mempool}
    (h : largestReserve pools = some p) : p ∈ pools := by
  have hfold : ∀ (rest : List (Nat × Mempool)) (best : Option (Nat × Mempool)),
      (∀ q ∈ rest, q ∈ pools) → (∀ b ∈ best, b ∈ pools) →
      ∀ b ∈ rest.foldl (fun best p =>
        if 0 < p.2.reservedSpace ∧ ∀ b ∈ best, b.2.reservedSpace ≤ p.2.reservedSpace then some p
        else best) best, b ∈ pools := by
    intro rest
    induction rest with
    | nil => intro best _ hbest; exact hbest
    | cons q rest ih =>
      intro best hrest hbest
      refine ih _ (fun r hr => hrest r (mem_cons_of_mem _ hr)) ?_
      intro b hb
      simp only at hb
      split at hb
      · obtain rfl := Option.mem_some.mp hb
        exact hrest _ mem_cons_self
      · exact hbest b hb
  exact hfold pools none (fun _ hq => hq) (by simp) p h

/-- What is kept whatever one of the pools does: it gives out a buffer, is downsized or takes a buffer
back. -/
structure Stable (P : S3MempoolManager → Prop) : Prop where
  getbuffer : ∀ {s unitSize pool} (allocations : Nat), P s →
    SortedMap.get unitSize s.poolOfMemPool = some pool →
      P { s with
        freeSpace := (pool.mempoolGetbuffer s.freeSpace unitSize allocations).2.1
        poolOfMemPool := SortedMap.set unitSize
          (pool.mempoolGetbuffer s.freeSpace unitSize allocations).1 s.poolOfMemPool }
  downsize : ∀ {s unitSize pool} (memToFree : Nat), P s → (unitSize, pool) ∈ s.poolOfMemPool →
      P { s with
        freeSpace := (pool.mempoolDownsize s.freeSpace memToFree).2.1
        poolOfMemPool := SortedMap.set unitSize
          (pool.mempoolDownsize s.freeSpace memToFree).1 s.poolOfMemPool }
  release : ∀ {s unitSize pool buf}, P s →
    SortedMap.get unitSize s.poolOfMemPool = some pool → buf ∈ pool.inUse →
      P { s with
        poolOfMemPool :=
          SortedMap.set unitSize (pool.mempoolReleasebuffer buf unitSize) s.poolOfMemPool }

section

variable {P : S3MempoolManager → Prop} (hP : Stable P)
include hP

theorem Stable.freeAnyUnused (h : P s) : P s.freeAnyUnused.1 := by
  unfold S3MempoolManager.freeAnyUnused
  split
  · exact h
  · rename_i unitSize pool hlargest
    exact hP.downsize _ h (largestReserve_mem hlargest)

theorem Stable.tryGetBuffer (unitSize : Nat) :
    ∀ (retries : List Nat) {s : S3MempoolManager}, P s → P (tryGetBuffer unitSize retries s).1 := by
  intro retries
  induction retries with
  | nil => intro s h; exact h
  | cons allocations retries ih =>
    intro s h
    unfold S3MempoolManager.tryGetBuffer
    split
    · exact h
    · rename_i pool hget
      have hgot := hP.getbuffer allocations h hget
      simp only
      split
      · exact hgot
      · split
        · exact ih (hP.freeAnyUnused hgot)
        · exact hP.freeAnyUnused hgot

theorem Stable.step {s' : S3MempoolManager} {call : Call} (h : P s)
    (hstep : step s call = some s') : P s' := by
  cases call with
  | getBufferForUnitSize unitSize first second third =>
    obtain rfl := some.inj hstep
    exact hP.tryGetBuffer unitSize _ h
  | releaseBufferForUnitSize buf unitSize =>
    simp only [S3MempoolManager.step] at hstep
    split at hstep
    · rename_i hlent
      obtain rfl := some.inj hstep
      unfold Lent at hlent
      unfold releaseBufferForUnitSize
      split
      · exact h
      · rename_i pool hget
        rw [hget, Option.any_some] at hlent
        exact hP.release h hget (mem_of_elem_eq_true hlent)
    · cases hstep
  | freeAnyUnused =>
    obtain rfl := some.inj hstep
    exact hP.freeAnyUnused h

end

theorem Budget.release {buf : Nat} (h : Budget s)
    (hget : SortedMap.get unitSize s.poolOfMemPool = some pool) (hbuf : buf ∈ pool.inUse) :
    Budget { s with
      poolOfMemPool :=
        SortedMap.set unitSize (pool.mempoolReleasebuffer buf unitSize) s.poolOfMemPool } := by
  have hp := h.pools _ ((SortedMap.get_eq_some_iff h.sorted).mp hget)
  have hsame := mempoolReleasebuffer_spec hp.accounts hbuf unitSize
  refine h.move hget (hp.congr hsame.accounts hsame.setup) ?_ rfl
  rw [Mempool.space, Mempool.space, hsame.bufs, hsame.setup.mempoolItemSize]

theorem stable_budget : Stable Budget where
  getbuffer allocations h hget := h.getbuffer hget allocations
  downsize memToFree h hmem := h.downsize ((SortedMap.get_eq_some_iff h.sorted).mpr hmem) memToFree
  release h hget hbuf := h.release hget hbuf

theorem stable_threshold (t : Nat) : Stable fun s => s.totalMemoryThreshold = t where
  getbuffer _ h _ := h
  downsize _ h _ := h
  release h _ _ := h

variable {s' : S3MempoolManager} {call : Call}

/-- **One call keeps the budget.** -/
theorem budget_step (h : Budget s) (hstep : step s call = some s') : Budget s' :=
  stable_budget.step h hstep

theorem threshold_step (hstep : step s call = some s') :
    s'.totalMemoryThreshold = s.totalMemoryThreshold :=
  (stable_threshold s.totalMemoryThreshold).step rfl hstep

/-! ### Initialization -/

/-- The buffers that the pool of a unit size starts with. -/
def initialBuffers (initialBufferCountPerPool unitSize : Int) : Nat :=
  initialBufs (toSize unitSize) (toSize (toInt32 (initialBufferCountPerPool * unitSize)))

/-- A unit size is given once, or its pools start without buffers. -/
def Distinct (initialBufferCountPerPool : Int) (unitSizes : List (Int × Nat)) : Prop :=
  unitSizes.Pairwise fun u v =>
    toSize u.1 = toSize v.1 → initialBuffers initialBufferCountPerPool u.1 = 0

/-- A pool that will be replaced has no buffers. -/
def Replaceable (s : S3MempoolManager) (rest : List (Int × Nat)) : Prop :=
  ∀ p ∈ s.poolOfMemPool, ∀ u ∈ rest, toSize u.1 = p.1 → p.2.bufs = 0

variable {expandableCount : Nat} {initialBufferCountPerPool : Int}

/-- One pass of the loop takes what the new pool has got from what is free. -/
theorem budget_createPool {u : Int × Nat} {rest : List (Int × Nat)} (h : Budget s)
    (hreplace : Replaceable s (u :: rest))
    (hdistinct : ∀ v ∈ rest, toSize u.1 = toSize v.1 →
      initialBuffers initialBufferCountPerPool u.1 = 0)
    (hsmall : s.totalMemoryThreshold / itemSizeFor (toSize u.1) < 2 ^ 31)
    (hcreate : createPool initialBufferCountPerPool expandableCount u.2 s u.1 = some s') :
    Budget s' ∧ s'.totalMemoryThreshold = s.totalMemoryThreshold ∧ Replaceable s' rest := by
  unfold createPool at hcreate
  obtain ⟨⟨pool, freeSpace⟩, hpool, heq⟩ := Option.map_eq_some_iff.mp hcreate
  have hlt : s.freeSpace.size < sizeMod := by
    have := h.total
    have := h.size
    omega
  obtain ⟨hacc, hshares, hitem, hbufs, hle, hfree⟩ := mempoolCreateWithSharedMem_spec hlt hpool
  obtain rfl := heq
  have hold : ((SortedMap.get (toSize u.1) s.poolOfMemPool).map fun p => p.space).getD 0 = 0 := by
    cases hget : SortedMap.get (toSize u.1) s.poolOfMemPool with
    | none => rfl
    | some old =>
      have hmem := (SortedMap.get_eq_some_iff h.sorted).mp hget
      have hzero : old.bufs = 0 := hreplace _ hmem u mem_cons_self rfl
      rw [map_some, getD_some, Mempool.space, hzero, Nat.zero_mul]
  refine ⟨⟨SortedMap.sorted_set h.sorted, ?_, ?_, h.size, ?_⟩, rfl, ?_⟩
  · intro p hp
    rcases (SortedMap.mem_set h.sorted p).mp hp with rfl | ⟨_, hp⟩
    · exact ⟨hacc, hshares, by rw [hitem]; exact hsmall⟩
    · exact h.pools p hp
  · have hsum := SortedMap.sum_map_set (fun p : Nat × Mempool => p.2.space) (v := pool)
      (k := toSize u.1) h.sorted
    have htotal := h.total
    rw [hfree]
    unfold poolSpace at htotal ⊢
    simp only at hsum hold ⊢
    omega
  · rw [hfree]
    exact h.wrapped
  · intro p hp v hv hkey
    rcases (SortedMap.mem_set h.sorted p).mp hp with rfl | ⟨_, hp⟩
    · simp only at hkey ⊢
      rw [hbufs]
      exact hdistinct v hv hkey.symm
    · exact hreplace p hp v (mem_cons_of_mem _ hv) hkey

/-- What every pass of the loop keeps, with the unit sizes that are still to come. -/
theorem initializePools_induction {totalMemoryThreshold : Nat} {unitSizes : List (Int × Nat)}
    {s₀ : S3MempoolManager} {P : List (Int × Nat) → S3MempoolManager → Prop}
    (hstep : ∀ u rest s s', P (u :: rest) s →
      createPool initialBufferCountPerPool expandableCount u.2 s u.1 = some s' → P rest s')
    (hstart : P unitSizes ⟨totalMemoryThreshold, ⟨totalMemoryThreshold, false⟩, []⟩)
    (hinit : initializePools totalMemoryThreshold initialBufferCountPerPool expandableCount
      unitSizes = some s₀) : P [] s₀ := by
  have hloop : ∀ (rest : List (Int × Nat)) (s : S3MempoolManager), P rest s →
      rest.foldlM (fun s u => createPool initialBufferCountPerPool expandableCount u.2 s u.1) s =
        some s₀ → P [] s₀ := by
    intro rest
    induction rest with
    | nil =>
      intro s h hfold
      obtain rfl := some.inj hfold
      exact h
    | cons u rest ih =>
      intro s h hfold
      rw [foldlM_cons] at hfold
      obtain ⟨s', hcreate, hrest⟩ := Option.bind_eq_some_iff.mp hfold
      exact ih s' (hstep u rest s s' h hcreate) hrest
  exact hloop unitSizes _ hstart hinit

/-- **After a successful initialization what is free and what is allocated is the threshold.** -/
theorem budget_initializePools {totalMemoryThreshold : Nat} {unitSizes : List (Int × Nat)}
    {s₀ : S3MempoolManager} (hlt : totalMemoryThreshold < sizeMod)
    (hdistinct : Distinct initialBufferCountPerPool unitSizes)
    (hsmall : ∀ u ∈ unitSizes, totalMemoryThreshold / itemSizeFor (toSize u.1) < 2 ^ 31)
    (hinit : initializePools totalMemoryThreshold initialBufferCountPerPool expandableCount
      unitSizes = some s₀) : Budget s₀ ∧ s₀.totalMemoryThreshold = totalMemoryThreshold := by
  have hall := initializePools_induction (P := fun rest s => Budget s ∧
    s.totalMemoryThreshold = totalMemoryThreshold ∧ Replaceable s rest ∧
      Distinct initialBufferCountPerPool rest ∧
        ∀ u ∈ rest, totalMemoryThreshold / itemSizeFor (toSize u.1) < 2 ^ 31) ?_ ?_ hinit
  · exact ⟨hall.1, hall.2.1⟩
  · rintro u rest s s' ⟨h, ht, hreplace, hdistinct, hsmall⟩ hcreate
    have hcons := pairwise_cons.mp hdistinct
    obtain ⟨h', ht', hreplace'⟩ := budget_createPool h hreplace hcons.1
      (by rw [ht]; exact hsmall u mem_cons_self) hcreate
    exact ⟨h', ht'.trans ht, hreplace', hcons.2, fun v hv => hsmall v (mem_cons_of_mem _ hv)⟩
  · refine ⟨⟨List.Pairwise.nil, by simp, rfl, hlt, rfl⟩, rfl, ?_, hdistinct, hsmall⟩
    intro p hp
    cases hp

/-! ### The budget -/

/-- **The shared budget is conserved.**  If no unit size is given twice, or its pools start without
buffers, and no pool can get `2 ^ 31` buffers, then in every state of every run what is free and what the
pools have allocated is together the threshold, and what is free has not wrapped. -/
theorem budget_of_reachable {totalMemoryThreshold : Nat} {initialBufferCountPerPool : Int}
    {expandableCount : Nat} {unitSizes : List (Int × Nat)} {s₀ s : S3MempoolManager}
    (hlt : totalMemoryThreshold < sizeMod)
    (hdistinct : Distinct initialBufferCountPerPool unitSizes)
    (hsmall : ∀ u ∈ unitSizes, totalMemoryThreshold / itemSizeFor (toSize u.1) < 2 ^ 31)
    (hinit : initializePools totalMemoryThreshold initialBufferCountPerPool expandableCount
      unitSizes = some s₀)
    (hreach : Runs.Reachable step (fun _ _ => True) s₀ s) :
    (s.freeSpace.size : Int) + s.allocated = totalMemoryThreshold ∧
      s.freeSpace.size ≤ totalMemoryThreshold ∧ s.freeSpace.wrapped = false := by
  obtain ⟨hstart, ht⟩ := budget_initializePools hlt hdistinct hsmall hinit
  obtain ⟨hbudget, hthreshold⟩ := hreach.invariant
    (P := fun t => Budget t ∧ t.totalMemoryThreshold = totalMemoryThreshold) ⟨hstart, ht⟩
    fun t call t' h _ hstep => ⟨budget_step h.1 hstep, (threshold_step hstep).trans h.2⟩
  have htotal := hbudget.total
  rw [allocated_eq fun p hp => (hbudget.pools p hp).accounts]
  refine ⟨?_, ?_, hbudget.wrapped⟩
  · omega
  · omega

/-- Two pools, of which the first runs dry and takes its next buffer from the reserve of the other. -/
theorem budget_of_reachable_twoPools :
    ∃ s₀ s, initializePools 16384 1 1 [(4096, 2), (8192, 2)] = some s₀ ∧
      Runs.run step s₀
        [.getBufferForUnitSize 4096 0 0 0, .getBufferForUnitSize 4096 1 1 1,
          .getBufferForUnitSize 4096 1 1 1] = some s ∧
      (s.freeSpace.size : Int) + s.allocated = (16384 : Nat) ∧
      s.freeSpace.size ≤ 16384 ∧ s.freeSpace.wrapped = false := by
  obtain ⟨s₀, hinit⟩ : ∃ s₀, initializePools 16384 1 1 [(4096, 2), (8192, 2)] = some s₀ :=
    Option.isSome_iff_exists.mp (by decide)
  obtain ⟨s, hrun⟩ : ∃ s, Runs.run step s₀
      [.getBufferForUnitSize 4096 0 0 0, .getBufferForUnitSize 4096 1 1 1,
        .getBufferForUnitSize 4096 1 1 1] = some s := ⟨_, rfl⟩
  refine ⟨s₀, s, hinit, hrun, ?_⟩
  exact budget_of_reachable (by decide) (by simp [Distinct, toSize, sizeMod])
    (by decide) hinit (Runs.reachable_of_run _ .start (by simp [Runs.AllOk]) hrun)

/-- A unit size that is given twice: the buffer of the first pool is lost. -/
theorem budget_lost_of_repeatedSize :
    ¬ ∀ (totalMemoryThreshold : Nat) (initialBufferCountPerPool : Int) (expandableCount : Nat)
      (unitSizes : List (Int × Nat)) (s₀ s : S3MempoolManager), totalMemoryThreshold < sizeMod →
      initializePools totalMemoryThreshold initialBufferCountPerPool expandableCount unitSizes =
        some s₀ →
      Runs.Reachable step (fun _ _ => True) s₀ s →
      (s.freeSpace.size : Int) + s.allocated = totalMemoryThreshold ∧
        s.freeSpace.wrapped = false := by
  intro h
  obtain ⟨s₀, hinit⟩ : ∃ s₀, initializePools 16384 1 1 [(4096, 2), (4096, 2)] = some s₀ :=
    Option.isSome_iff_exists.mp (by decide)
  have hlost : ∀ s, initializePools 16384 1 1 [(4096, 2), (4096, 2)] = some s →
      (s.freeSpace.size : Int) + s.allocated ≠ (16384 : Nat) := by
    rintro s ⟨⟩
    decide
  exact hlost s₀ hinit (h 16384 1 1 [(4096, 2), (4096, 2)] s₀ s₀ (by decide) hinit .start).1

end S3MempoolManager

end CortxS3
