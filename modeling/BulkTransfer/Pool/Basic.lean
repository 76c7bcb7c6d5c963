import BulkTransfer.Log
import BulkTransfer.Outcome
import BulkTransfer.Pool.Limits
import BulkTransfer.Pool.SizeClass
import BulkTransfer.Pool.Slice

/-!
# Pools of slices

A pool keeps slices that were given back, so that later requests can be served without new memory.
It has a bucket for each size class up to that of its greatest length; each bucket is a bounded
queue, served in the order in which slices came in. A missing or full bucket is no error: the slice
is allocated, or dropped.
-/

namespace BulkTransfer

/-- What a pool reports to the log. -/
inductive PoolRecord where
  /-- A pool was created. -/
  | created (buckets capacity : Nat)
  /-- A request was too long for any bucket. -/
  | oversized (length : Nat)
  /-- A slice was taken from a bucket. -/
  | reused (index : Nat)
  /-- A slice came back that belongs to no bucket. -/
  | unpoolable (capacity : Nat)
  /-- A slice came back to a full bucket. -/
  | bucketFull
  deriving DecidableEq

/-- Log line of a record. -/
def PoolRecord.line : PoolRecord → LogLine
  | created buckets capacity =>
      ⟨.debug, "created slice pool with " ++ toString buckets ++ " buckets of " ++
        toString capacity ++ " slices"⟩
  | oversized length =>
      ⟨.debug, "slice of " ++ toString length ++ " bytes is too large to pool, allocating"⟩
  | reused index => ⟨.trace, "reusing slice from bucket " ++ toString index⟩
  | unpoolable capacity =>
      ⟨.trace, "dropping unpoolable slice of capacity " ++ toString capacity⟩
  | bucketFull => ⟨.trace, "bucket full, dropping slice"⟩

/-- A pool of slices. -/
structure Pool where
  /-- Limits the pool was created with. -/
  limits : PoolLimits
  /-- Slices held in each size class, the one that came in first at the front. -/
  buckets : List (List Slice)
  deriving DecidableEq

/-- A slice that was rented, with the pool after it and what the pool reported. -/
structure Rental where
  /-- The rented slice. -/
  slice : Slice
  /-- The pool without the slice. -/
  pool : Pool
  /-- Records logged. -/
  records : List PoolRecord

namespace Pool

/-- Number of buckets that serve slices up to a length. -/
def bucketsFor (maxLength : Nat) : Nat :=
  match SizeClass.serving? maxLength with
  | none => 0
  | some sizeClass => sizeClass.index + 1

/-- A pool with empty buckets, which must have room for slices. -/
def create (limits : PoolLimits) : Except Abort Pool :=
  if limits.bucketCapacity = 0 then
    .error .emptyBuckets
  else
    .ok ⟨limits, List.replicate (bucketsFor limits.maxLength) []⟩

/-- Number of buckets. -/
def bucketCount (pool : Pool) : Nat :=
  pool.buckets.length

/-- Record of the creation of a pool. -/
def creation (pool : Pool) : PoolRecord :=
  .created pool.bucketCount pool.limits.bucketCapacity

/-- Number of slices held in a bucket; a missing bucket holds none. -/
def pooledCount (pool : Pool) (index : Nat) : Nat :=
  (pool.buckets[index]?.map List.length).getD 0

/-- The same pool with other contents of one bucket. -/
def setBucket (pool : Pool) (index : Nat) (slices : List Slice) : Pool :=
  { pool with buckets := pool.buckets.set index slices }

/-- Rent a slice of a length. A slice from a bucket keeps the bytes it came back with, as far as it
is not cut, and is extended with zeros; any other slice is all zeros. -/
def rent (pool : Pool) (length : Nat) : Rental :=
  match SizeClass.serving? length with
  | none => ⟨.empty, pool, []⟩
  | some sizeClass =>
      match pool.buckets[sizeClass.index]? with
      | none => ⟨.zeros length, pool, [.oversized length]⟩
      | some [] => ⟨(Slice.ofCapacity sizeClass.capacity).resize length 0, pool, []⟩
      | some (slice :: rest) =>
          ⟨slice.resize length 0, pool.setBucket sizeClass.index rest, [.reused sizeClass.index]⟩

/-- Give a slice back. It is filed by its capacity, whatever its length, and dropped if there is no
bucket for it or the bucket is full. -/
def giveBack (pool : Pool) (slice : Slice) : Pool × List PoolRecord :=
  match SizeClass.filing? slice.capacity with
  | none => (pool, [.unpoolable slice.capacity])
  | some sizeClass =>
      match pool.buckets[sizeClass.index]? with
      | none => (pool, [.unpoolable slice.capacity])
      | some slices =>
          if slices.length < pool.limits.bucketCapacity then
            (pool.setBucket sizeClass.index (slices ++ [slice]), [])
          else
            (pool, [.bucketFull])

/-- Rent slices of one length, one after the other. -/
def rentMany (pool : Pool) (length : Nat) : Nat → List Slice × Pool × List PoolRecord
  | 0 => ([], pool, [])
  | times + 1 =>
      let rental := pool.rent length
      let (slices, last, records) := rental.pool.rentMany length times
      (rental.slice :: slices, last, rental.records ++ records)

/-- Give slices back, one after the other. -/
def giveBackAll (pool : Pool) : List Slice → Pool × List PoolRecord
  | [] => (pool, [])
  | slice :: rest =>
      let (next, records) := pool.giveBack slice
      let (last, more) := next.giveBackAll rest
      (last, records ++ more)

@[simp]
theorem bucketCount_setBucket (pool : Pool) (index : Nat) (slices : List Slice) :
    (pool.setBucket index slices).bucketCount = pool.bucketCount := by
  simp [bucketCount, setBucket]

@[simp]
theorem bucketCount_rent (pool : Pool) (length : Nat) :
    (pool.rent length).pool.bucketCount = pool.bucketCount := by
  rw [rent]
  split
  · rfl
  · split <;> simp

end Pool
end BulkTransfer
