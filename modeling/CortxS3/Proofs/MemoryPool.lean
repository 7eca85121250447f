/-
The accounting of a memory pool.

A pool keeps its books if its counters are the lengths of its two lists, no buffer is in both, and the
counters have not run over (`Accounts`).  Every operation has one lemma, which says that it keeps the books,
how many buffers it adds or removes, and what it takes from a shared budget or gives back to it.  A run
theorem about one pool follows from these, and so does the one about the pools that share a budget.
-/
import CortxS3.Mempool.MemoryPool
import CortxS3.Lib.Runs

namespace CortxS3

open Option (map_eq_some_iff mem_some some.inj)
open List

/-! ### The conversions -/

theorem toInt32_of_lt {n : Nat} (h : n < 2 ^ 31) : toInt32 n = n := by
  unfold toInt32
  omega

theorem toInt32_le (n : Nat) : toInt32 n ≤ n := by
  unfold toInt32
  omega

theorem toInt32_lt (z : Int) : toInt32 z < 2 ^ 31 := by
  unfold toInt32
  omega

namespace Mempool

/-! ### The books -/

/-- How many buffers there are. -/
def bufs (pool : Mempool) : Nat := pool.freeList.length + pool.inUse.length

/-- What the buffers of a pool take. -/
def space (pool : Mempool) : Nat := pool.bufs * pool.mempoolItemSize

/-- The counters are the lengths of the lists, and no buffer is in both. -/
structure Accounts (pool : Mempool) : Prop where
  free : pool.freeBufsInPool = pool.freeList.length
  shared : pool.numberOfBufsShared = pool.inUse.length
  total : pool.totalBufsAllocatedByPool = pool.bufs
  small : pool.bufs < 2 ^ 31
  nodup : (pool.freeList ++ pool.inUse).Nodup
  fresh : ∀ b ∈ pool.freeList ++ pool.inUse, b < pool.nextBuf
  item : 0 < pool.mempoolItemSize

/-- What no operation on a pool changes. -/
structure SameSetup (pool pool' : Mempool) : Prop where
  sharesMemory : pool'.sharesMemory = pool.sharesMemory
  maxMemoryThreshold : pool'.maxMemoryThreshold = pool.maxMemoryThreshold
  mempoolItemSize : pool'.mempoolItemSize = pool.mempoolItemSize

theorem SameSetup.refl (pool : Mempool) : SameSetup pool pool := ⟨rfl, rfl, rfl⟩

variable {pool pool' : Mempool}

theorem SameSetup.trans {pool'' : Mempool} (h : SameSetup pool pool') (h' : SameSetup pool' pool'') :
    SameSetup pool pool'' :=
  ⟨h'.sharesMemory.trans h.sharesMemory, h'.maxMemoryThreshold.trans h.maxMemoryThreshold,
    h'.mempoolItemSize.trans h.mempoolItemSize⟩

/-! ### New buffers -/

theorem bufs_addBuffer (pool : Mempool) : pool.addBuffer.bufs = pool.bufs + 1 := by
  simp only [addBuffer, bufs, length_cons]
  omega

theorem sameSetup_addBuffer (pool : Mempool) : SameSetup pool pool.addBuffer := ⟨rfl, rfl, rfl⟩

theorem accounts_addBuffer (h : Accounts pool) (hsmall : pool.bufs + 1 < 2 ^ 31) :
    Accounts pool.addBuffer := by
  have hlen : pool.freeList.length ≤ pool.bufs := Nat.le_add_right _ _
  have hnew : pool.nextBuf ∉ pool.freeList ++ pool.inUse := by
    intro hmem
    exact Nat.lt_irrefl _ (h.fresh _ hmem)
  refine ⟨?_, h.shared, ?_, ?_, ?_, ?_, h.item⟩
  · simp only [addBuffer, h.free, length_cons]
    exact toInt32_of_lt (n := pool.freeList.length + 1) (by omega)
  · rw [bufs_addBuffer]
    simp only [addBuffer, h.total]
    exact toInt32_of_lt hsmall
  · rw [bufs_addBuffer]
    exact hsmall
  · exact nodup_cons.mpr ⟨hnew, h.nodup⟩
  · intro b hb
    rcases mem_cons.mp hb with hb | hb
    · rw [hb]
      exact Nat.lt_succ_self _
    · exact Nat.lt_succ_of_lt (h.fresh b hb)

/-- A pool has grown by `n` buffers, which came from the budget if that is shared. -/
structure Grows (pool : Mempool) (freeSpace : FreeSpace) (n : Nat) (pool' : Mempool)
    (freeSpace' : FreeSpace) : Prop where
  accounts : Accounts pool'
  setup : SameSetup pool pool'
  inUse : pool'.inUse = pool.inUse
  bufs : pool'.bufs = pool.bufs + n
  own : pool.sharesMemory = false → freeSpace' = freeSpace
  shared : pool.sharesMemory = true → n * pool.mempoolItemSize ≤ freeSpace.size →
    freeSpace.size < sizeMod →
    freeSpace' = { freeSpace with size := freeSpace.size - n * pool.mempoolItemSize }

theorem Grows.zero (h : Accounts pool) (freeSpace : FreeSpace) :
    Grows pool freeSpace 0 pool freeSpace :=
  ⟨h, .refl pool, rfl, rfl, fun _ => rfl, fun _ _ _ => by simp⟩

variable {freeSpace : FreeSpace}

theorem markUsedSpace_of_le {n : Nat} (h : n ≤ freeSpace.size) (hlt : freeSpace.size < sizeMod) :
    markUsedSpace freeSpace n = { freeSpace with size := freeSpace.size - n } := by
  unfold markUsedSpace
  rw [subSize_of_le h hlt]
  simp [h]

theorem bufs_freelistAllocate :
    ∀ (items allocations : Nat) (pool : Mempool) (freeSpace : FreeSpace),
      pool.bufs ≤ (freelistAllocate items allocations pool freeSpace).1.bufs ∧
        (freelistAllocate items allocations pool freeSpace).1.bufs ≤ pool.bufs + items := by
  intro items
  induction items with
  | zero =>
    intro allocations pool freeSpace
    exact ⟨Nat.le_refl _, Nat.le_refl _⟩
  | succ items ih =>
    intro allocations pool freeSpace
    match allocations with
    | 0 => exact ⟨Nat.le_refl _, Nat.le_add_right _ _⟩
    | allocations + 1 =>
      have hbufs := bufs_addBuffer pool
      have hrest := ih allocations pool.addBuffer
        (if pool.sharesMemory then markUsedSpace freeSpace pool.mempoolItemSize else freeSpace)
      unfold freelistAllocate
      omega

/-- **`freelist_allocate` adds buffers one after the other, up to the first allocation that fails.** -/
theorem freelistAllocate_grows :
    ∀ (items allocations : Nat) (pool : Mempool) (freeSpace : FreeSpace), Accounts pool →
      (freelistAllocate items allocations pool freeSpace).1.bufs < 2 ^ 31 →
      ∃ n ≤ items,
        Grows pool freeSpace n (freelistAllocate items allocations pool freeSpace).1
          (freelistAllocate items allocations pool freeSpace).2.1 ∧
        ((freelistAllocate items allocations pool freeSpace).2.2 = true → n = items) := by
  intro items
  induction items with
  | zero =>
    intro allocations pool freeSpace h _
    exact ⟨0, Nat.le_refl _, .zero h freeSpace, fun _ => rfl⟩
  | succ items ih =>
    intro allocations pool freeSpace h hsmall
    match allocations with
    | 0 => exact ⟨0, Nat.zero_le _, .zero h freeSpace, by simp [freelistAllocate]⟩
    | allocations + 1 =>
      have hbufs := bufs_addBuffer pool
      have hle := (bufs_freelistAllocate items allocations pool.addBuffer
        (if pool.sharesMemory then markUsedSpace freeSpace pool.mempoolItemSize else freeSpace)).1
      unfold freelistAllocate at hsmall
      have hacc := accounts_addBuffer h (by omega)
      obtain ⟨n, hn, hgrows, hall⟩ := ih allocations pool.addBuffer
        (if pool.sharesMemory then markUsedSpace freeSpace pool.mempoolItemSize else freeSpace)
        hacc hsmall
      refine ⟨n + 1, Nat.succ_le_succ hn, ?_, fun hok => congrArg (· + 1) (hall hok)⟩
      refine ⟨hgrows.accounts, (sameSetup_addBuffer pool).trans hgrows.setup, hgrows.inUse, ?_,
        ?_, ?_⟩
      · have := hgrows.bufs
        unfold freelistAllocate
        omega
      · intro hown
        have hrest := hgrows.own hown
        rw [hown] at hrest
        unfold freelistAllocate
        rw [hown]
        exact hrest
      · intro hshares hle hlt
        have hsucc : (n + 1) * pool.mempoolItemSize =
            n * pool.mempoolItemSize + pool.mempoolItemSize := Nat.succ_mul _ _
        have hrest := hgrows.shared hshares
        have hmark := markUsedSpace_of_le
          (by omega : pool.mempoolItemSize ≤ freeSpace.size) hlt
        rw [if_pos hshares, hmark] at hrest
        unfold freelistAllocate
        rw [if_pos hshares, hmark, hrest ?_ ?_]
        · simp only [addBuffer, FreeSpace.mk.injEq, and_true]
          omega
        · simp only [addBuffer]
          omega
        · simp only
          omega

/-! ### Creation -/

theorem itemSizeFor_pos (poolItemSize : Nat) : 0 < itemSizeFor poolItemSize := by
  unfold itemSizeFor elementSize
  split <;> omega

theorem initialBufs_lt (poolItemSize poolInitialSize : Nat) :
    initialBufs poolItemSize poolInitialSize < 2 ^ 31 := by
  have := toInt32_lt (poolInitialSize / itemSizeFor poolItemSize : Nat)
  unfold initialBufs
  omega

theorem initialBufs_mul_le (poolItemSize poolInitialSize : Nat) :
    initialBufs poolItemSize poolInitialSize * itemSizeFor poolItemSize ≤ poolInitialSize := by
  have hle : initialBufs poolItemSize poolInitialSize ≤
      poolInitialSize / itemSizeFor poolItemSize := by
    unfold initialBufs
    obtain ⟨q, hq⟩ : ∃ q, q = poolInitialSize / itemSizeFor poolItemSize := ⟨_, rfl⟩
    rw [← hq]
    have := toInt32_le q
    omega
  exact (Nat.mul_le_mul_right _ hle).trans (Nat.div_mul_le_self _ _)

/-- A pool that was just created. -/
structure Created (poolItemSize poolInitialSize poolMaxThresholdSize : Nat) (pool : Mempool) :
    Prop where
  accounts : Accounts pool
  own : pool.sharesMemory = false
  maxMemoryThreshold : pool.maxMemoryThreshold = poolMaxThresholdSize
  mempoolItemSize : pool.mempoolItemSize = itemSizeFor poolItemSize
  bufs : pool.bufs = initialBufs poolItemSize poolInitialSize

variable {allocations poolExpansionSize poolInitialSize poolItemSize : Nat} {logs : Bool}

/-- **A pool is created with its initial buffers, or not at all.** -/
theorem created_of_mempoolCreate {poolMaxThresholdSize : Nat}
    (h : mempoolCreate poolItemSize poolInitialSize poolExpansionSize poolMaxThresholdSize logs
      allocations = some pool) :
    Created poolItemSize poolInitialSize poolMaxThresholdSize pool := by
  unfold mempoolCreate at h
  split at h
  · cases h
  · obtain ⟨start, hstart⟩ : ∃ start : Mempool, start =
        { logs := logs
          maxMemoryThreshold := poolMaxThresholdSize
          mempoolItemSize := itemSizeFor poolItemSize
          expandableSize := poolExpansionSize } := ⟨_, rfl⟩
    have hacc : Accounts start := by
      rw [hstart]
      exact ⟨rfl, rfl, rfl, by simp [bufs], by simp, by simp, itemSizeFor_pos _⟩
    have hzero : start.bufs = 0 := by
      rw [hstart]
      rfl
    obtain ⟨n, _, hgrows, hall⟩ := freelistAllocate_grows
      (initialBufs poolItemSize poolInitialSize) (allocations - 1) start ⟨0, false⟩ hacc
      (by
        have := initialBufs_lt poolItemSize poolInitialSize
        have := (bufs_freelistAllocate (initialBufs poolItemSize poolInitialSize)
          (allocations - 1) start ⟨0, false⟩).2
        omega)
    simp only at h
    rw [← hstart] at h
    split at h
    · rename_i hok
      obtain rfl := some.inj h
      refine ⟨hgrows.accounts, ?_, ?_, ?_, ?_⟩
      · rw [hgrows.setup.sharesMemory, hstart]
      · rw [hgrows.setup.maxMemoryThreshold, hstart]
      · rw [hgrows.setup.mempoolItemSize, hstart]
      · rw [hgrows.bufs, hall hok, hzero, Nat.zero_add]
    · cases h

variable {freeSpace' : FreeSpace}

/-- A pool that is created with a shared budget. -/
theorem accounts_of_createWithSharedMem
    (h : mempoolCreateWithSharedMem poolItemSize poolInitialSize poolExpansionSize freeSpace logs
      allocations = some (pool, freeSpace')) :
    Accounts pool ∧ pool.sharesMemory = true ∧
      pool.mempoolItemSize = itemSizeFor poolItemSize ∧
      pool.bufs = initialBufs poolItemSize poolInitialSize ∧ poolInitialSize ≤ freeSpace.size ∧
      freeSpace' = markUsedSpace freeSpace
        (toSize (pool.totalBufsAllocatedByPool * pool.mempoolItemSize)) := by
  unfold mempoolCreateWithSharedMem at h
  split at h
  · cases h
  · rename_i hfits
    obtain ⟨pool₀, hcreate, heq⟩ := map_eq_some_iff.mp h
    have hc := created_of_mempoolCreate hcreate
    obtain ⟨rfl, rfl⟩ := Prod.mk.inj heq
    refine ⟨?_, rfl, hc.mempoolItemSize, hc.bufs, Nat.le_of_not_lt hfits, rfl⟩
    exact ⟨hc.accounts.free, hc.accounts.shared, hc.accounts.total, hc.accounts.small,
      hc.accounts.nodup, hc.accounts.fresh, hc.accounts.item⟩

/-- A pool that shares a budget takes its initial buffers out of it. -/
theorem mempoolCreateWithSharedMem_spec (hlt : freeSpace.size < sizeMod)
    (h : mempoolCreateWithSharedMem poolItemSize poolInitialSize poolExpansionSize freeSpace logs
      allocations = some (pool, freeSpace')) :
    Accounts pool ∧ pool.sharesMemory = true ∧
      pool.mempoolItemSize = itemSizeFor poolItemSize ∧
      pool.bufs = initialBufs poolItemSize poolInitialSize ∧
      pool.space ≤ freeSpace.size ∧
      freeSpace' = { freeSpace with size := freeSpace.size - pool.space } := by
  obtain ⟨hacc, hshares, hitem, hbufs, hfits, hmark⟩ := accounts_of_createWithSharedMem h
  have hspace : pool.space ≤ freeSpace.size := by
    have := initialBufs_mul_le poolItemSize poolInitialSize
    unfold space
    rw [hbufs, hitem]
    omega
  have hsize : toSize (pool.totalBufsAllocatedByPool * pool.mempoolItemSize) = pool.space := by
    rw [hacc.total, ← Int.natCast_mul]
    exact toSize_natCast (by unfold space at hspace; omega)
  refine ⟨hacc, hshares, hitem, hbufs, hspace, ?_⟩
  rw [hmark, hsize]
  exact markUsedSpace_of_le hspace hlt

/-! ### Getting a buffer -/

/-- What the pool may still take, if it is not cut. -/
def available (pool : Mempool) (freeSpace : FreeSpace) : Nat :=
  if pool.sharesMemory then freeSpace.size
  else pool.maxMemoryThreshold - toSize (pool.totalBufsAllocatedByPool * pool.mempoolItemSize)

theorem poolCanExpandBy_le (pool : Mempool) (freeSpace : FreeSpace) :
    pool.poolCanExpandBy freeSpace ≤ (pool.available freeSpace / pool.mempoolItemSize : Nat) := by
  have heq : pool.poolCanExpandBy freeSpace =
      toInt32 (pool.available freeSpace / pool.mempoolItemSize : Nat) := by
    unfold poolCanExpandBy available
    by_cases hshares : pool.sharesMemory = true
    · simp only [if_pos hshares]
    · simp only [if_neg hshares]
      split
      · rfl
      · rename_i hlt
        rw [Nat.sub_eq_zero_of_le (Nat.le_of_not_lt hlt)]
  rw [heq]
  exact toInt32_le _

/-- A pool grows when it is empty, by what it may take at most. -/
theorem expand_cases (pool : Mempool) (freeSpace : FreeSpace) (allocations : Nat) :
    ((pool.expand freeSpace allocations).1 = pool ∧
      (pool.expand freeSpace allocations).2.1 = freeSpace) ∨
    (pool.freeBufsInPool = 0 ∧ ∃ items : Nat, (items : Int) ≤ pool.poolCanExpandBy freeSpace ∧
      pool.expand freeSpace allocations = freelistAllocate items allocations pool freeSpace) := by
  unfold expand
  split
  · rename_i hempty
    simp only
    split
    · refine .inr ⟨hempty, _, ?_, rfl⟩
      split <;> omega
    · exact .inl ⟨rfl, rfl⟩
  · exact .inl ⟨rfl, rfl⟩

/-- **An empty pool grows by no more than what is available.** -/
theorem expand_grows (h : Accounts pool) (freeSpace : FreeSpace)
    (allocations : Nat) (hsmall : (pool.expand freeSpace allocations).1.bufs < 2 ^ 31) :
    ∃ n, n * pool.mempoolItemSize ≤ pool.available freeSpace ∧
      Grows pool freeSpace n (pool.expand freeSpace allocations).1
        (pool.expand freeSpace allocations).2.1 := by
  rcases expand_cases pool freeSpace allocations with ⟨hpool, hspace⟩ | ⟨_, items, hle, heq⟩
  · rw [hpool, hspace]
    exact ⟨0, by simp, .zero h freeSpace⟩
  · rw [heq] at hsmall ⊢
    obtain ⟨n, hn, hgrows, _⟩ := freelistAllocate_grows items allocations pool freeSpace h hsmall
    refine ⟨n, ?_, hgrows⟩
    have hcan := poolCanExpandBy_le pool freeSpace
    calc n * pool.mempoolItemSize
        ≤ pool.available freeSpace / pool.mempoolItemSize * pool.mempoolItemSize :=
          Nat.mul_le_mul_right _ (by omega)
      _ ≤ pool.available freeSpace := Nat.div_mul_le_self _ _

/-- A pool has the same buffers and setup; which of them are in use may have changed. -/
structure SameBufs (pool pool' : Mempool) : Prop where
  accounts : Accounts pool'
  setup : SameSetup pool pool'
  bufs : pool'.bufs = pool.bufs

theorem SameBufs.refl (h : Accounts pool) : SameBufs pool pool :=
  ⟨h, .refl pool, rfl⟩

theorem takeBuffer_spec (h : Accounts pool) : SameBufs pool pool.takeBuffer.1 := by
  unfold takeBuffer
  cases hlist : pool.freeList with
  | nil => exact .refl h
  | cons buf rest =>
    have hbufs : pool.bufs = rest.length + 1 + pool.inUse.length := by
      rw [bufs, hlist, length_cons]
    have hsmall := h.small
    -- the buffer only changes sides
    have hperm : (rest ++ buf :: pool.inUse).Perm (pool.freeList ++ pool.inUse) := by
      rw [hlist]
      exact perm_middle
    refine ⟨⟨?_, ?_, ?_, ?_, ?_, ?_, h.item⟩, ⟨rfl, rfl, rfl⟩, ?_⟩
    · simp only [h.free, hlist, length_cons, Nat.cast_add, Nat.cast_one, add_sub_cancel_right]
      exact toInt32_of_lt (by omega)
    · simp only [h.shared, length_cons]
      exact toInt32_of_lt (n := pool.inUse.length + 1) (by omega)
    · have htotal := h.total
      simp only [bufs, length_cons] at hbufs htotal ⊢
      omega
    · simp only [bufs, length_cons]
      omega
    · exact hperm.nodup_iff.mpr h.nodup
    · intro b hb
      exact h.fresh b (hperm.mem_iff.mp hb)
    · rw [hbufs]
      simp only [bufs, length_cons]
      omega

theorem bufs_takeBuffer (pool : Mempool) : pool.takeBuffer.1.bufs = pool.bufs := by
  unfold takeBuffer bufs
  cases hlist : pool.freeList with
  | nil => simp [hlist]
  | cons buf rest =>
    simp only [length_cons]
    omega

theorem bufs_mempoolGetbuffer (pool : Mempool) (freeSpace : FreeSpace)
    (expectedBufferSize allocations : Nat) :
    (pool.mempoolGetbuffer freeSpace expectedBufferSize allocations).1.bufs =
      if pool.mempoolItemSize ≠ expectedBufferSize ∧ pool.logs then pool.bufs
      else (pool.expand freeSpace allocations).1.bufs := by
  unfold mempoolGetbuffer
  split
  · rfl
  · simp only
    split
    · exact bufs_takeBuffer _
    · rfl

/-- **Getting a buffer adds `n` buffers to the pool, as many as are available at most.** -/
theorem mempoolGetbuffer_spec (h : Accounts pool) (freeSpace : FreeSpace)
    (expectedBufferSize allocations : Nat)
    (hsmall : (pool.mempoolGetbuffer freeSpace expectedBufferSize allocations).1.bufs < 2 ^ 31) :
    ∃ n mid, n * pool.mempoolItemSize ≤ pool.available freeSpace ∧
      Grows pool freeSpace n mid
        (pool.mempoolGetbuffer freeSpace expectedBufferSize allocations).2.1 ∧
      SameBufs mid (pool.mempoolGetbuffer freeSpace expectedBufferSize allocations).1 := by
  rw [bufs_mempoolGetbuffer] at hsmall
  unfold mempoolGetbuffer
  split at hsmall
  · rename_i hlogs
    rw [if_pos hlogs]
    exact ⟨0, pool, by simp, .zero h freeSpace, .refl h⟩
  · rename_i hlogs
    rw [if_neg hlogs]
    obtain ⟨n, hn, hgrows⟩ := expand_grows h freeSpace allocations hsmall
    refine ⟨n, (pool.expand freeSpace allocations).1, hn, ?_, ?_⟩
    · simp only
      split <;> exact hgrows
    · simp only
      split
      · exact takeBuffer_spec hgrows.accounts
      · exact .refl hgrows.accounts

/-! ### Giving a buffer back -/

theorem mempoolReleasebuffer_spec (h : Accounts pool) {buf : Nat} (hmem : buf ∈ pool.inUse)
    (releasedBufferSize : Nat) :
    SameBufs pool (pool.mempoolReleasebuffer buf releasedBufferSize) := by
  unfold mempoolReleasebuffer
  split
  · exact .refl h
  · have hlen : (pool.inUse.erase buf).length + 1 = pool.inUse.length := by
      rw [length_erase_of_mem hmem]
      have := length_pos_of_mem hmem
      omega
    have hperm : (buf :: (pool.freeList ++ pool.inUse.erase buf)).Perm
        (pool.freeList ++ pool.inUse) :=
      perm_middle.symm.trans ((perm_cons_erase hmem).symm.append_left _)
    have hsmall := h.small
    have hbufs : pool.bufs = pool.freeList.length + pool.inUse.length := rfl
    refine ⟨⟨?_, ?_, ?_, ?_, ?_, ?_, h.item⟩, ⟨rfl, rfl, rfl⟩, ?_⟩
    · simp only [h.free, length_cons]
      exact toInt32_of_lt (n := pool.freeList.length + 1) (by omega)
    · simp only [h.shared, ← hlen, Nat.cast_add, Nat.cast_one, add_sub_cancel_right]
      exact toInt32_of_lt (by omega)
    · simp only [h.total, bufs, length_cons]
      omega
    · simp only [bufs, length_cons]
      omega
    · exact hperm.nodup_iff.mpr h.nodup
    · intro b hb
      exact h.fresh b (hperm.mem_iff.mp hb)
    · simp only [bufs, length_cons]
      omega

/-! ### Freeing buffers -/

theorem freeBuffers_spec :
    ∀ (count : Nat) (pool : Mempool), Accounts pool → count ≤ pool.freeList.length →
      Accounts (freeBuffers count pool) ∧ SameSetup pool (freeBuffers count pool) ∧
        (freeBuffers count pool).bufs + count = pool.bufs := by
  intro count
  induction count with
  | zero =>
    intro pool h _
    exact ⟨h, .refl pool, rfl⟩
  | succ count ih =>
    intro pool h hle
    unfold freeBuffers
    cases hlist : pool.freeList with
    | nil =>
      rw [hlist, length_nil] at hle
      omega
    | cons buf rest =>
      rw [hlist, length_cons] at hle
      have hbufs : pool.bufs = rest.length + 1 + pool.inUse.length := by
        rw [bufs, hlist, length_cons]
      have hsmall := h.small
      have hnodup := h.nodup
      have hfresh := h.fresh
      rw [hlist, cons_append] at hnodup hfresh
      obtain ⟨hacc, hsetup, hcount⟩ := ih
        { pool with
          freeList := rest
          totalBufsAllocatedByPool := toInt32 (pool.totalBufsAllocatedByPool - 1)
          freeBufsInPool := toInt32 (pool.freeBufsInPool - 1) }
        (by
          refine ⟨?_, h.shared, ?_, ?_, (nodup_cons.mp hnodup).2, ?_, h.item⟩
          · simp only [h.free, hlist, length_cons, Nat.cast_add, Nat.cast_one,
              add_sub_cancel_right]
            exact toInt32_of_lt (by omega)
          · have hpred : (pool.bufs : Int) - 1 = (rest.length + pool.inUse.length : Nat) := by
              omega
            simp only [h.total]
            rw [hpred]
            exact toInt32_of_lt (n := rest.length + pool.inUse.length) (by omega)
          · simp only [bufs]
            omega
          · intro b hb
            exact hfresh b (mem_cons_of_mem _ hb))
        (by simp only; omega)
      refine ⟨hacc, ?_, ?_⟩
      · exact ⟨hsetup.sharesMemory, hsetup.maxMemoryThreshold, hsetup.mempoolItemSize⟩
      · simp only [bufs] at hcount hbufs ⊢
        omega

/-- **Downsizing frees `n` buffers, and gives what they took back to a shared budget.** -/
theorem mempoolDownsize_spec (h : Accounts pool) (freeSpace : FreeSpace) (memToFree : Nat) :
    ∃ n, Accounts (pool.mempoolDownsize freeSpace memToFree).1 ∧
      SameSetup pool (pool.mempoolDownsize freeSpace memToFree).1 ∧
      (pool.mempoolDownsize freeSpace memToFree).1.bufs + n = pool.bufs ∧
      (pool.sharesMemory = true → freeSpace.size + pool.space < sizeMod →
        (pool.mempoolDownsize freeSpace memToFree).2.1 =
          { freeSpace with size := freeSpace.size + n * pool.mempoolItemSize }) := by
  have hsame : ∃ n, Accounts pool ∧ SameSetup pool pool ∧ pool.bufs + n = pool.bufs ∧
      (pool.sharesMemory = true → freeSpace.size + pool.space < sizeMod →
        freeSpace = { freeSpace with size := freeSpace.size + n * pool.mempoolItemSize }) :=
    ⟨0, h, .refl pool, rfl, fun _ _ => by simp⟩
  unfold mempoolDownsize
  split
  · exact hsame
  · split
    · rename_i hpos
      obtain ⟨count, hcount⟩ : ∃ count : Nat, pool.bufsToFree memToFree = count :=
        ⟨(pool.bufsToFree memToFree).toNat, by omega⟩
      have hle : count ≤ pool.freeList.length := by
        have hfree := h.free
        unfold bufsToFree at hcount
        simp only at hcount
        split at hcount <;> omega
      obtain ⟨hacc, hsetup, hbufs⟩ := freeBuffers_spec count pool h hle
      rw [hcount, Int.toNat_natCast]
      refine ⟨count, hacc, hsetup, hbufs, ?_⟩
      intro hshares hlt
      have hmul : count * pool.mempoolItemSize ≤ pool.space :=
        Nat.mul_le_mul_right _ (by omega)
      have hsize : toSize ((count : Int) * pool.mempoolItemSize) =
          count * pool.mempoolItemSize := by
        rw [← Int.natCast_mul]
        exact toSize_natCast (by omega)
      have hmod : (freeSpace.size + count * pool.mempoolItemSize) % sizeMod =
          freeSpace.size + count * pool.mempoolItemSize := Nat.mod_eq_of_lt (by omega)
      simp only [if_pos hshares, hsize, markFreeSpace, hmod]
    · exact hsame

/-! ### Runs -/

/-- The pool does not grow to so many buffers that its counters run over. -/
def Small (w : World) : Call → Prop
  | .getbuffer expectedBufferSize allocations => ∀ pool ∈ w.pool,
      (pool.mempoolGetbuffer w.freeSpace expectedBufferSize allocations).1.bufs < 2 ^ 31
  | _ => True

/-- The initial buffers are within the threshold, which is a `size_t`. -/
def Fits : Call → Prop
  | .create itemSize initialSize _ maxThresholdSize _ _ =>
    initialBufs itemSize initialSize * itemSizeFor itemSize ≤ maxThresholdSize ∧
      maxThresholdSize < sizeMod
  | _ => True

/-- What a pool has got of its own budget. -/
structure Within (pool : Mempool) : Prop where
  space : pool.space ≤ pool.maxMemoryThreshold
  size : pool.maxMemoryThreshold < sizeMod

theorem Within.congr (h : Within pool) (hs : SameSetup pool pool') (hle : pool'.bufs ≤ pool.bufs) :
    Within pool' := by
  refine ⟨?_, ?_⟩
  · rw [hs.maxMemoryThreshold]
    refine Nat.le_trans ?_ h.space
    rw [Mempool.space, hs.mempoolItemSize]
    exact Nat.mul_le_mul_right _ hle
  · rw [hs.maxMemoryThreshold]
    exact h.size

theorem Within.grows {n : Nat} (h : Within pool) (hacc : Accounts pool)
    (hown : pool.sharesMemory = false) (hn : n * pool.mempoolItemSize ≤ pool.available freeSpace)
    (hgrows : Grows pool freeSpace n pool' freeSpace') : Within pool' := by
  have hle := h.space
  have hlt := h.size
  have hallocated : toSize (pool.totalBufsAllocatedByPool * pool.mempoolItemSize) = pool.space := by
    rw [hacc.total, ← Int.natCast_mul]
    exact toSize_natCast (by unfold Mempool.space at hle; omega)
  refine ⟨?_, ?_⟩
  · rw [hgrows.setup.maxMemoryThreshold, Mempool.space, hgrows.bufs, hgrows.setup.mempoolItemSize,
      Nat.add_mul]
    rw [available, if_neg (by simp [hown]), hallocated] at hn
    unfold Mempool.space at hn hle
    omega
  · rw [hgrows.setup.maxMemoryThreshold]
    exact hlt

/-- The pool keeps its books, and its own budget if `P` says so. -/
def Keeps (P : Prop) (w : World) : Prop :=
  ∀ pool ∈ w.pool, Accounts pool ∧ (P → pool.sharesMemory = false → Within pool)

/-- **One call keeps the books**, and the budget of a pool whose initial buffers are within it. -/
theorem keeps_step {P : Prop} {w w' : World} {call : Call} (h : Keeps P w) (hsmall : Small w call)
    (hfits : P → Fits call) (hstep : World.step w call = some w') : Keeps P w' := by
  intro pool' hpool'
  cases call with
  | create itemSize initialSize expansionSize maxThresholdSize logs allocations =>
    simp only [World.step] at hstep
    split at hstep
    · cases hstep
    · obtain rfl := some.inj hstep
      have hc := created_of_mempoolCreate hpool'
      refine ⟨hc.accounts, fun hP _ => ⟨?_, ?_⟩⟩
      · rw [Mempool.space, hc.bufs, hc.mempoolItemSize, hc.maxMemoryThreshold]
        exact (hfits hP).1
      · rw [hc.maxMemoryThreshold]
        exact (hfits hP).2
  | createWithSharedMem itemSize initialSize expansionSize logs allocations =>
    simp only [World.step] at hstep
    split at hstep
    · cases hstep
    · rename_i hnone
      split at hstep
      · obtain rfl := some.inj hstep
        exact absurd (Option.isSome_of_mem hpool') hnone
      · rename_i pool freeSpace heq
        obtain rfl := some.inj hstep
        obtain rfl := mem_some.mp hpool'
        obtain ⟨hacc, hshares, _⟩ := accounts_of_createWithSharedMem heq
        exact ⟨hacc, fun _ hown => absurd hown (by simp [hshares])⟩
  | getbuffer expectedBufferSize allocations =>
    simp only [World.step] at hstep
    obtain ⟨pool, hpool, heq⟩ := map_eq_some_iff.mp hstep
    obtain rfl := heq
    obtain rfl := mem_some.mp hpool'
    obtain ⟨hacc, hwithin⟩ := h pool hpool
    obtain ⟨n, mid, hn, hgrows, hsame⟩ := mempoolGetbuffer_spec hacc w.freeSpace
      expectedBufferSize allocations (hsmall pool hpool)
    refine ⟨hsame.accounts, fun hP hown => ?_⟩
    have hown' : pool.sharesMemory = false := by
      rw [← hgrows.setup.sharesMemory, ← hsame.setup.sharesMemory]
      exact hown
    exact ((hwithin hP hown').grows hacc hown' hn hgrows).congr hsame.setup hsame.bufs.le
  | releasebuffer buf releasedBufferSize =>
    simp only [World.step] at hstep
    obtain ⟨pool, hpool, hif⟩ := Option.bind_eq_some_iff.mp hstep
    split at hif
    · rename_i hmem
      obtain rfl := some.inj hif
      obtain rfl := mem_some.mp hpool'
      obtain ⟨hacc, hwithin⟩ := h pool hpool
      have hsame := mempoolReleasebuffer_spec hacc (mem_of_elem_eq_true hmem)
        releasedBufferSize
      refine ⟨hsame.accounts, fun hP hown => ?_⟩
      exact (hwithin hP (by rw [← hsame.setup.sharesMemory]; exact hown)).congr hsame.setup
        hsame.bufs.le
    · cases hif
  | downsize memToFree =>
    simp only [World.step] at hstep
    obtain ⟨pool, hpool, heq⟩ := map_eq_some_iff.mp hstep
    obtain rfl := heq
    obtain rfl := mem_some.mp hpool'
    obtain ⟨hacc, hwithin⟩ := h pool hpool
    obtain ⟨n, hacc', hsetup, hbufs, _⟩ := mempoolDownsize_spec hacc w.freeSpace memToFree
    refine ⟨hacc', fun hP hown => ?_⟩
    exact (hwithin hP (by rw [← hsetup.sharesMemory]; exact hown)).congr hsetup (by omega)
  | others size =>
    simp only [World.step] at hstep
    obtain rfl := some.inj hstep
    exact h pool' hpool'

/-- **The accounting of a pool is an invariant.**  In every run in which no counter runs over, the free
list is as long as its counter says, every buffer is either free or handed out and the total counts both.
If the initial buffers of a pool with a budget of its own are within the budget, all its buffers are,
ever after. -/
theorem accounts_of_reachable (w : World) :
    (Runs.Reachable World.step Small {} w → ∀ pool ∈ w.pool,
      pool.freeBufsInPool = pool.freeList.length ∧
      pool.numberOfBufsShared = pool.inUse.length ∧
      pool.totalBufsAllocatedByPool = pool.freeBufsInPool + pool.numberOfBufsShared ∧
      (pool.freeList ++ pool.inUse).Nodup) ∧
    (Runs.Reachable World.step (fun w call => Small w call ∧ Fits call) {} w → ∀ pool ∈ w.pool,
      pool.sharesMemory = false →
      pool.totalBufsAllocatedByPool * pool.mempoolItemSize ≤ pool.maxMemoryThreshold) := by
  have hstart : ∀ P, Keeps P {} := by
    intro P pool hpool
    cases hpool
  constructor
  · intro hreach pool hpool
    have hkeeps : Keeps False w := hreach.invariant (hstart False)
      fun _ _ _ h hsmall hstep => keeps_step h hsmall False.elim hstep
    obtain ⟨hacc, _⟩ := hkeeps pool hpool
    refine ⟨hacc.free, hacc.shared, ?_, hacc.nodup⟩
    rw [hacc.total, hacc.free, hacc.shared, bufs, Nat.cast_add]
  · intro hreach pool hpool hown
    have hkeeps : Keeps True w := hreach.invariant (hstart True)
      fun _ _ _ h hok hstep => keeps_step h hok.1 (fun _ => hok.2) hstep
    obtain ⟨hacc, hwithin⟩ := hkeeps pool hpool
    rw [hacc.total]
    exact_mod_cast (hwithin trivial hown).space

/-- A pool of two buffers at most, of which both are taken and one is given back. -/
def sampleCalls : List Call :=
  [.create 4096 4096 4096 8192 true 3, .getbuffer 4096 0, .getbuffer 4096 1, .releasebuffer 0 4096]

/-- The pool after these calls. -/
def samplePool : Mempool :=
  { freeBufsInPool := 1
    numberOfBufsShared := 1
    totalBufsAllocatedByPool := 2
    logs := true
    maxMemoryThreshold := 8192
    mempoolItemSize := 4096
    expandableSize := 4096
    freeList := [0]
    inUse := [1]
    nextBuf := 2 }

theorem sampleCalls_ok : Runs.AllOk World.step (fun w call => Small w call ∧ Fits call) {} sampleCalls := by
  refine ⟨⟨trivial, by decide, by decide⟩, ?_⟩
  rintro w ⟨⟩
  refine ⟨⟨?_, trivial⟩, ?_⟩
  · rintro pool ⟨⟩
    decide
  rintro w ⟨⟩
  refine ⟨⟨?_, trivial⟩, ?_⟩
  · rintro pool ⟨⟩
    decide
  rintro w ⟨⟩
  exact ⟨⟨trivial, trivial⟩, fun _ _ => trivial⟩

theorem run_sampleCalls : Runs.run World.step {} sampleCalls = some ⟨some samplePool, ⟨0, false⟩⟩ := by
  decide

theorem accounts_of_reachable_samplePool :
    (samplePool.freeBufsInPool = samplePool.freeList.length ∧
      samplePool.numberOfBufsShared = samplePool.inUse.length ∧
      samplePool.totalBufsAllocatedByPool =
        samplePool.freeBufsInPool + samplePool.numberOfBufsShared ∧
      (samplePool.freeList ++ samplePool.inUse).Nodup) ∧
    samplePool.totalBufsAllocatedByPool * samplePool.mempoolItemSize ≤
      samplePool.maxMemoryThreshold := by
  have hreach := Runs.reachable_of_run sampleCalls .start sampleCalls_ok run_sampleCalls
  have hsmall : Runs.Reachable World.step Small {} ⟨some samplePool, ⟨0, false⟩⟩ :=
    hreach.mono fun _ _ hok => hok.1
  exact ⟨(accounts_of_reachable _).1 hsmall samplePool rfl,
    (accounts_of_reachable _).2 hreach samplePool rfl rfl⟩

/-- The threshold of a pool with a shared budget is zero, and says nothing about it. -/
theorem sharedPool_over_threshold :
    ¬ ∀ w, Runs.Reachable World.step (fun _ _ => True) {} w → ∀ pool ∈ w.pool,
      pool.totalBufsAllocatedByPool * pool.mempoolItemSize ≤ pool.maxMemoryThreshold := by
  intro h
  obtain ⟨w, hw⟩ : ∃ w, Runs.run World.step {}
      [.others 4096, .createWithSharedMem 4096 4096 4096 true 2] = some w :=
    Option.isSome_iff_exists.mp (by decide)
  have hreach : Runs.Reachable World.step (fun _ _ => True) {} w :=
    Runs.reachable_of_run _ .start (by simp [Runs.AllOk]) hw
  have hover : ∀ v, Runs.run World.step {}
      [.others 4096, .createWithSharedMem 4096 4096 4096 true 2] = some v →
      ∃ pool ∈ v.pool, ¬ pool.totalBufsAllocatedByPool * pool.mempoolItemSize ≤
        pool.maxMemoryThreshold := by
    rintro v ⟨⟩
    exact ⟨_, rfl, by decide⟩
  obtain ⟨pool, hpool, hlt⟩ := hover w hw
  exact hlt (h w hreach pool hpool)

end Mempool

end CortxS3
