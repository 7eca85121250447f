/-
Pools of buffers of several sizes that share one budget, `S3MempoolManager`.

The manager makes a pool for each unit size it is told of, and keeps them in a map by unit size.  What is
left of the budget is one number, `free_space`, which every pool reads and writes through its callbacks.
When a pool has no buffer and cannot grow, the pool with the most free memory gives up half of it.
-/
import CortxS3.Mempool.MemoryPool
import CortxS3.Lib.SortedMap

namespace CortxS3

structure S3MempoolManager where
  totalMemoryThreshold : Nat
  freeSpace : FreeSpace
  /-- `pool_of_mem_pool`, a `std::map` by unit size. -/
  poolOfMemPool : List (Nat × Mempool) := []

namespace S3MempoolManager

open Mempool

/-- The body of the loop of `initialize`.  The unit size and the count are `int`s, and so is their
product; the pool logs. -/
def createPool (initialBufferCountPerPool : Int) (expandableCount allocations : Nat)
    (s : S3MempoolManager) (unitSize : Int) : Option S3MempoolManager :=
  (mempoolCreateWithSharedMem (toSize unitSize)
      (toSize (toInt32 (initialBufferCountPerPool * unitSize)))
      (toSize (expandableCount * toSize unitSize : Nat)) s.freeSpace true allocations).map
    fun (pool, freeSpace) =>
      { s with
        freeSpace := freeSpace
        poolOfMemPool := SortedMap.set (toSize unitSize) pool s.poolOfMemPool }

/-- `initialize`, with what the allocator does for each pool.  When it fails, the manager is destroyed. -/
def initializePools (totalMemoryThreshold : Nat) (initialBufferCountPerPool : Int) (expandableCount : Nat)
    (unitSizes : List (Int × Nat)) : Option S3MempoolManager :=
  unitSizes.foldlM
    (fun s (unitSize, allocations) =>
      createPool initialBufferCountPerPool expandableCount allocations s unitSize)
    { totalMemoryThreshold := totalMemoryThreshold
      freeSpace := ⟨totalMemoryThreshold, false⟩ }

/-- The pool with the most free memory; of several, the one with the largest unit size. -/
def largestReserve (pools : List (Nat × Mempool)) : Option (Nat × Mempool) :=
  pools.foldl
    (fun best p =>
      if 0 < p.2.reservedSpace ∧ ∀ b ∈ best, b.2.reservedSpace ≤ p.2.reservedSpace then some p
      else best)
    none

/-- `free_any_unused`. -/
def freeAnyUnused (s : S3MempoolManager) : S3MempoolManager × Bool :=
  match largestReserve s.poolOfMemPool with
  | none => (s, false)
  | some (unitSize, pool) =>
    let sizeToReduce := pool.reservedSpace / 2
    let sizeToReduce :=
      if sizeToReduce < pool.mempoolItemSize then pool.mempoolItemSize else sizeToReduce
    let (pool, freeSpace, ok) := pool.mempoolDownsize s.freeSpace sizeToReduce
    ({ s with
        freeSpace := freeSpace
        poolOfMemPool := SortedMap.set unitSize pool s.poolOfMemPool },
      ok)

/-- `get_free_space_for`: what the pool has free, and what it may share in. -/
def getFreeSpaceFor (s : S3MempoolManager) (unitSize : Nat) : Nat :=
  match SortedMap.get unitSize s.poolOfMemPool with
  | none => 0
  | some pool => (pool.reservedSpace + s.freeSpace.size) % sizeMod

/-- The loop of `get_buffer_for_unit_size`; the allocator is told anew for each try. -/
def tryGetBuffer (unitSize : Nat) : List Nat → S3MempoolManager → S3MempoolManager × Option Nat
  | [], s => (s, none)
  | allocations :: retries, s =>
    match SortedMap.get unitSize s.poolOfMemPool with
    | none => (s, none)
    | some pool =>
      let (pool, freeSpace, buf) := pool.mempoolGetbuffer s.freeSpace unitSize allocations
      let s := { s with
        freeSpace := freeSpace
        poolOfMemPool := SortedMap.set unitSize pool s.poolOfMemPool }
      match buf with
      | some buf => (s, some buf)
      | none =>
        let (s, freed) := s.freeAnyUnused
        if freed then tryGetBuffer unitSize retries s else (s, none)

/-- `get_buffer_for_unit_size`, with its `max_retries`. -/
def getBufferForUnitSize (s : S3MempoolManager) (unitSize : Nat) (first second third : Nat) :
    S3MempoolManager × Option Nat :=
  tryGetBuffer unitSize [first, second, third] s

/-- `release_buffer_for_unit_size`. -/
def releaseBufferForUnitSize (s : S3MempoolManager) (buf unitSize : Nat) : S3MempoolManager :=
  match SortedMap.get unitSize s.poolOfMemPool with
  | none => s
  | some pool =>
    { s with
      poolOfMemPool :=
        SortedMap.set unitSize (pool.mempoolReleasebuffer buf unitSize) s.poolOfMemPool }

inductive Call where
  | getBufferForUnitSize (unitSize first second third : Nat)
  | releaseBufferForUnitSize (buf unitSize : Nat)
  | freeAnyUnused

/-- A buffer of the pool of that unit size is in use. -/
def Lent (s : S3MempoolManager) (buf unitSize : Nat) : Bool :=
  (SortedMap.get unitSize s.poolOfMemPool).any fun pool => pool.inUse.elem buf

/-- Only a buffer that is in use can be released. -/
def step (s : S3MempoolManager) : Call → Option S3MempoolManager
  | .getBufferForUnitSize unitSize first second third =>
    some (s.getBufferForUnitSize unitSize first second third).1
  | .releaseBufferForUnitSize buf unitSize =>
    if s.Lent buf unitSize then some (s.releaseBufferForUnitSize buf unitSize) else none
  | .freeAnyUnused => some s.freeAnyUnused.1

/-- What the pools of the manager have allocated. -/
def allocated (s : S3MempoolManager) : Int :=
  (s.poolOfMemPool.map fun p => p.2.totalBufsAllocatedByPool * (p.2.mempoolItemSize : Int)).sum

end S3MempoolManager

end CortxS3
