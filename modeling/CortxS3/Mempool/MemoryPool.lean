/-
A pool of buffers of one size, `s3_memory_pool.c`.

Buffers come from the allocator, are kept in a free list, go out to the users of the pool and come back.
Three counters say how many there are: in the free list, with the users, in all.  They are `int`s.

A pool has a budget.  Either it is its own (`max_memory_threshold`), or it is shared with other pools: then
three callbacks stand for it, and `FreeSpace` is what they read and write.

Which buffer is which is what matters here, not where it lies, so a buffer is the number it got when the
pool allocated it, and a pool knows which of its buffers are in use.  The allocator is a number: how many
of the allocations to come succeed.  Locking, alignment and the zeroing of buffers are left out.
-/
import CortxS3.Basic

namespace CortxS3

structure Mempool where
  freeBufsInPool : Int := 0
  numberOfBufsShared : Int := 0
  totalBufsAllocatedByPool : Int := 0
  /-- The callbacks of a shared budget are set. -/
  sharesMemory : Bool := false
  /-- `log_callback_func` is set. -/
  logs : Bool
  maxMemoryThreshold : Nat
  mempoolItemSize : Nat
  expandableSize : Nat
  freeList : List Nat := []
  /-- The buffers with the users of the pool. -/
  inUse : List Nat := []
  /-- The number of the next buffer. -/
  nextBuf : Nat := 0
deriving DecidableEq

/-- What is left of a shared budget.  The subtraction wraps, and `wrapped` remembers that it did. -/
structure FreeSpace where
  size : Nat
  wrapped : Bool := false
deriving DecidableEq

namespace Mempool

/-- `mem_mark_used_space_func`. -/
def markUsedSpace (freeSpace : FreeSpace) (spaceUsed : Nat) : FreeSpace :=
  { size := subSize freeSpace.size spaceUsed
    wrapped := freeSpace.wrapped || freeSpace.size < spaceUsed }

/-- `mem_mark_free_space_func`. -/
def markFreeSpace (freeSpace : FreeSpace) (spaceFreed : Nat) : FreeSpace :=
  { freeSpace with size := (freeSpace.size + spaceFreed) % sizeMod }

/-- `pool_can_expand_by`. -/
def poolCanExpandBy (pool : Mempool) (freeSpace : FreeSpace) : Int :=
  let availableSpace :=
    if pool.sharesMemory then freeSpace.size
    else
      let allocatedSpace := toSize (pool.totalBufsAllocatedByPool * pool.mempoolItemSize)
      if allocatedSpace < pool.maxMemoryThreshold then pool.maxMemoryThreshold - allocatedSpace else 0
  toInt32 (availableSpace / pool.mempoolItemSize : Nat)

/-- One more buffer, at the head of the free list. -/
def addBuffer (pool : Mempool) : Mempool :=
  { pool with
    totalBufsAllocatedByPool := toInt32 (pool.totalBufsAllocatedByPool + 1)
    freeList := pool.nextBuf :: pool.freeList
    nextBuf := pool.nextBuf + 1
    freeBufsInPool := toInt32 (pool.freeBufsInPool + 1) }

/-- `freelist_allocate`, with the budget after it and whether it succeeded. -/
def freelistAllocate : Nat → Nat → Mempool → FreeSpace → Mempool × FreeSpace × Bool
  | 0, _, pool, freeSpace => (pool, freeSpace, true)
  | _ + 1, 0, pool, freeSpace => (pool, freeSpace, false)
  | items + 1, allocations + 1, pool, freeSpace =>
    freelistAllocate items allocations pool.addBuffer
      (if pool.sharesMemory then markUsedSpace freeSpace pool.mempoolItemSize else freeSpace)

/-- `sizeof(struct memory_pool_element)`. -/
def elementSize : Nat := 8

/-- The size of the buffers: a free buffer holds a pointer to the next one. -/
def itemSizeFor (poolItemSize : Nat) : Nat :=
  if poolItemSize < elementSize then elementSize else poolItemSize

/-- `bufs_to_allocate` in `mempool_create`. -/
def initialBufs (poolItemSize poolInitialSize : Nat) : Nat :=
  (toInt32 (poolInitialSize / itemSizeFor poolItemSize : Nat)).toNat

/-- `mempool_create`.  There is no pool when it fails; the first allocation is that of the pool itself. -/
def mempoolCreate (poolItemSize poolInitialSize poolExpansionSize poolMaxThresholdSize : Nat)
    (logs : Bool) (allocations : Nat) : Option Mempool :=
  if poolItemSize = 0 ∨ poolExpansionSize = 0 ∨ allocations = 0 then none
  else
    let pool : Mempool :=
      { logs := logs
        maxMemoryThreshold := poolMaxThresholdSize
        mempoolItemSize := itemSizeFor poolItemSize
        expandableSize := poolExpansionSize }
    let allocated := freelistAllocate (initialBufs poolItemSize poolInitialSize) (allocations - 1)
      pool ⟨0, false⟩
    if allocated.2.2 then some allocated.1 else none

/-- `mempool_create_with_shared_mem`.  What the pool has got already is marked as used. -/
def mempoolCreateWithSharedMem (poolItemSize poolInitialSize poolExpansionSize : Nat)
    (freeSpace : FreeSpace) (logs : Bool) (allocations : Nat) : Option (Mempool × FreeSpace) :=
  if freeSpace.size < poolInitialSize then none
  else
    (mempoolCreate poolItemSize poolInitialSize poolExpansionSize 0 logs allocations).map fun pool =>
      ({ pool with sharesMemory := true },
        markUsedSpace freeSpace (toSize (pool.totalBufsAllocatedByPool * pool.mempoolItemSize)))

/-- The growth of an empty free list in `mempool_getbuffer`, and whether it goes on after it. -/
def expand (pool : Mempool) (freeSpace : FreeSpace) (allocations : Nat) :
    Mempool × FreeSpace × Bool :=
  if pool.freeBufsInPool = 0 then
    let bufsToAllocate := toInt32 (pool.expandableSize / pool.mempoolItemSize : Nat)
    let bufsThatCanBeAllocated := pool.poolCanExpandBy freeSpace
    if 0 < bufsThatCanBeAllocated then
      let bufsToAllocate :=
        if bufsThatCanBeAllocated < bufsToAllocate then bufsThatCanBeAllocated else bufsToAllocate
      freelistAllocate bufsToAllocate.toNat allocations pool freeSpace
    else (pool, freeSpace, false)
  else (pool, freeSpace, true)

/-- The head of the free list goes to the user, if there is one. -/
def takeBuffer (pool : Mempool) : Mempool × Option Nat :=
  match pool.freeList with
  | [] => (pool, none)
  | buf :: rest =>
    ({ pool with
        freeList := rest
        inUse := buf :: pool.inUse
        freeBufsInPool := toInt32 (pool.freeBufsInPool - 1)
        numberOfBufsShared := toInt32 (pool.numberOfBufsShared + 1) },
      some buf)

/-- `mempool_getbuffer`.  That the size is not the pool's own is noticed only by a pool that logs. -/
def mempoolGetbuffer (pool : Mempool) (freeSpace : FreeSpace)
    (expectedBufferSize allocations : Nat) : Mempool × FreeSpace × Option Nat :=
  if pool.mempoolItemSize ≠ expectedBufferSize ∧ pool.logs then (pool, freeSpace, none)
  else
    let (pool, freeSpace, ok) := pool.expand freeSpace allocations
    if ok then
      let (pool, buf) := pool.takeBuffer
      (pool, freeSpace, buf)
    else (pool, freeSpace, none)

/-- `mempool_releasebuffer`, of a buffer that is in use. -/
def mempoolReleasebuffer (pool : Mempool) (buf releasedBufferSize : Nat) : Mempool :=
  if pool.mempoolItemSize ≠ releasedBufferSize ∧ pool.logs then pool
  else
    { pool with
      freeList := buf :: pool.freeList
      inUse := pool.inUse.erase buf
      freeBufsInPool := toInt32 (pool.freeBufsInPool + 1)
      numberOfBufsShared := toInt32 (pool.numberOfBufsShared - 1) }

/-- The loop of `mempool_downsize`. -/
def freeBuffers : Nat → Mempool → Mempool
  | 0, pool => pool
  | count + 1, pool =>
    match pool.freeList with
    | [] => pool
    | _ :: rest =>
      freeBuffers count { pool with
        freeList := rest
        totalBufsAllocatedByPool := toInt32 (pool.totalBufsAllocatedByPool - 1)
        freeBufsInPool := toInt32 (pool.freeBufsInPool - 1) }

/-- How many buffers `mempool_downsize` frees. -/
def bufsToFree (pool : Mempool) (memToFree : Nat) : Int :=
  let bufsToFree := toInt32 (memToFree / pool.mempoolItemSize : Nat)
  if pool.freeBufsInPool < bufsToFree then pool.freeBufsInPool else bufsToFree

/-- `mempool_downsize`. -/
def mempoolDownsize (pool : Mempool) (freeSpace : FreeSpace) (memToFree : Nat) :
    Mempool × FreeSpace × Bool :=
  if 0 < memToFree % pool.mempoolItemSize then (pool, freeSpace, false)
  else if 0 < pool.bufsToFree memToFree then
    (freeBuffers (pool.bufsToFree memToFree).toNat pool,
      if pool.sharesMemory then
        markFreeSpace freeSpace (toSize (pool.bufsToFree memToFree * pool.mempoolItemSize))
      else freeSpace,
      true)
  else (pool, freeSpace, true)

/-- `mempool_reserved_space`. -/
def reservedSpace (pool : Mempool) : Nat :=
  toSize (pool.mempoolItemSize * pool.freeBufsInPool)

/-! ### A pool and its users -/

inductive Call where
  | create (itemSize initialSize expansionSize maxThresholdSize : Nat) (logs : Bool) (allocations : Nat)
  | createWithSharedMem (itemSize initialSize expansionSize : Nat) (logs : Bool) (allocations : Nat)
  | getbuffer (expectedBufferSize allocations : Nat)
  | releasebuffer (buf releasedBufferSize : Nat)
  | downsize (memToFree : Nat)
  /-- Others who share the budget take from it or give back. -/
  | others (size : Nat)

/-- A pool, once it is created, and the shared budget. -/
structure World where
  pool : Option Mempool := none
  freeSpace : FreeSpace := ⟨0, false⟩
deriving DecidableEq

/-- A call that fails leaves no pool behind, or the pool that was there.  Only a buffer that is in use can
be released. -/
def World.step (w : World) : Call → Option World
  | .create itemSize initialSize expansionSize maxThresholdSize logs allocations =>
    if w.pool.isSome then none
    else
      some { w with
        pool := mempoolCreate itemSize initialSize expansionSize maxThresholdSize logs allocations }
  | .createWithSharedMem itemSize initialSize expansionSize logs allocations =>
    if w.pool.isSome then none
    else
      match mempoolCreateWithSharedMem itemSize initialSize expansionSize w.freeSpace logs
        allocations with
      | none => some w
      | some (pool, freeSpace) => some ⟨some pool, freeSpace⟩
  | .getbuffer expectedBufferSize allocations =>
    w.pool.map fun pool =>
      let (pool, freeSpace, _) := pool.mempoolGetbuffer w.freeSpace expectedBufferSize allocations
      ⟨some pool, freeSpace⟩
  | .releasebuffer buf releasedBufferSize =>
    w.pool.bind fun pool =>
      if pool.inUse.elem buf then
        some { w with pool := some (pool.mempoolReleasebuffer buf releasedBufferSize) }
      else none
  | .downsize memToFree =>
    w.pool.map fun pool =>
      let (pool, freeSpace, _) := pool.mempoolDownsize w.freeSpace memToFree
      ⟨some pool, freeSpace⟩
  | .others size => some { w with freeSpace := { w.freeSpace with size := size % sizeMod } }

end Mempool

end CortxS3
