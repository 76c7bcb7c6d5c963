import BulkTransfer.Pool.Basic

/-!
# Leases

A lease is a rented slice that goes back to its pool when the lease ends. Detaching the slice
leaves the lease without memory, and a lease without memory gives nothing back.
-/

namespace BulkTransfer

/-- A rented slice that is given back by itself. -/
structure Lease where
  /-- The slice under lease. -/
  slice : Slice
  deriving DecidableEq

namespace Lease

/-- Take the slice out of a lease, which is left without memory. -/
def detach (lease : Lease) : Slice × Lease :=
  (lease.slice, ⟨.empty⟩)

/-- End a lease: its slice, if there is memory to it, goes back to the pool. -/
def finish (lease : Lease) (pool : Pool) : Pool × List PoolRecord :=
  if lease.slice.capacity = 0 then (pool, []) else pool.giveBack lease.slice

/-- A description in braces. -/
def braced (inside : String) : String :=
  (String.singleton '{' ++ inside).push '}'

/-- Description of a lease on one line. -/
def text (lease : Lease) : String :=
  "RentedSlice " ++ braced (" len: " ++ toString lease.slice.length ++ ", capacity: " ++
    toString lease.slice.capacity ++ " ")

/-- Description of a lease with a line for each part. -/
def longText (lease : Lease) : String :=
  "RentedSlice " ++ braced ("\n    len: " ++ toString lease.slice.length ++ ",\n    capacity: " ++
    toString lease.slice.capacity ++ ",\n")

end Lease
end BulkTransfer
