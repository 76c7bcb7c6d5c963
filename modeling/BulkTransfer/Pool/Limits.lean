/-!
# Limits of a pool

How long a slice may be to be pooled, and how many slices a bucket may hold.
-/

namespace BulkTransfer

/-- Limits that bound the memory a pool holds. -/
structure PoolLimits where
  /-- Greatest length of a slice that is served from a bucket; 100 MiB if nothing is said. -/
  maxLength : Nat := 100 * 1024 * 1024
  /-- Number of slices each bucket can hold. -/
  bucketCapacity : Nat := 1000
  deriving DecidableEq

namespace PoolLimits

/-- The same limits with another greatest length. -/
def withMaxLength (limits : PoolLimits) (maxLength : Nat) : PoolLimits :=
  { limits with maxLength }

/-- The same limits with another number of slices for each bucket. -/
def withBucketCapacity (limits : PoolLimits) (bucketCapacity : Nat) : PoolLimits :=
  { limits with bucketCapacity }

end PoolLimits
end BulkTransfer
