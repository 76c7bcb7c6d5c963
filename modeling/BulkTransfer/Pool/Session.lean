import BulkTransfer.Pool.Lease
import BulkTransfer.Registry

/-!
# Pool sessions

A pool with the slices and the leases its clients hold, each under a name. Storing under a used
name drops the older value afterwards: an older slice is freed, an older lease ends.
-/

namespace BulkTransfer

/-- A pool and what its clients hold. -/
structure PoolSession where
  /-- The pool. -/
  pool : Pool
  /-- Slices by name. -/
  slices : Registry Slice := {}
  /-- Leases by name. -/
  leases : Registry Lease := {}

/-- What a client of a pool can do. -/
inductive PoolCommand where
  /-- Rent a slice. -/
  | rent (length : Nat)
  /-- Give a slice back. -/
  | giveBack
  /-- Free a slice without giving it back. -/
  | free
  /-- Set all bytes of a slice. -/
  | fill (byte : UInt8)
  /-- Look at a slice. -/
  | inspect
  /-- Make a slice outside of the pool. -/
  | allocate (capacity length : Nat) (byte : UInt8)
  /-- Change the length of a slice. -/
  | resize (length : Nat) (byte : UInt8)
  /-- Rent slices one after the other, fill each with its number, and give all back in order. -/
  | burst (length times : Nat)
  /-- Count the slices held in a bucket. -/
  | count (index : Nat)
  /-- Rent a slice under a lease. -/
  | lease (length : Nat)
  /-- Set all bytes of a leased slice. -/
  | fillLease (byte : UInt8)
  /-- Write bytes into a leased slice. -/
  | writeLease (position : Nat) (bytes : Bytes)
  /-- End a lease. -/
  | endLease
  /-- Look at a leased slice. -/
  | inspectLease
  /-- Describe a lease. -/
  | describeLease
  /-- Take the slice out of a lease. -/
  | detachLease
  deriving DecidableEq

/-- What a command to a pool session gives. -/
inductive PoolAnswer where
  /-- The command was carried out. -/
  | nothing
  /-- A slice as it is after the command. -/
  | slice (slice : Slice)
  /-- Slices as they were rented. -/
  | slices (slices : List Slice)
  /-- A number of slices. -/
  | number (value : Nat)
  /-- Bytes of a leased slice. -/
  | bytes (bytes : Bytes)
  /-- Descriptions of a lease, short and long. -/
  | texts (short long : String)
  /-- There is nothing under the name. -/
  | missing
  deriving DecidableEq

/-- Result of a command: the answer, the session after it, and the records logged. -/
structure PoolStep where
  /-- What the command gave. -/
  answer : PoolAnswer
  /-- The session after the command. -/
  session : PoolSession
  /-- Records logged, in order. -/
  records : List PoolRecord := []

namespace PoolSession

/-- Change what one of the registries has under a name, and answer from the result. -/
def onEntry {α : Type} (session : PoolSession) (registry : Registry α)
    (store : Registry α → PoolSession) (name : String) (change : α → α) (answer : α → PoolAnswer) :
    PoolStep :=
  match registry.find? name with
  | none => ⟨.missing, session, []⟩
  | some value =>
      let changed := change value
      ⟨answer changed, store (registry.insert name changed), []⟩

/-- Change the slice under a name, and answer from the result. -/
def onSlice (session : PoolSession) (name : String) (change : Slice → Slice)
    (answer : Slice → PoolAnswer) : PoolStep :=
  session.onEntry session.slices ({ session with slices := · }) name change answer

/-- Change the slice of the lease under a name, and answer from the result. -/
def onLease (session : PoolSession) (name : String) (change : Slice → Slice)
    (answer : Lease → PoolAnswer) : PoolStep :=
  session.onEntry session.leases ({ session with leases := · }) name (⟨change ·.slice⟩) answer

/-- End the lease under a name, if there is one. -/
def endLease (session : PoolSession) (name : String) : PoolSession × List PoolRecord :=
  match session.leases.find? name with
  | none => (session, [])
  | some lease =>
      let (pool, records) := lease.finish session.pool
      ({ session with pool, leases := session.leases.erase name }, records)

/-- Carry out a command on a name. -/
def step (session : PoolSession) (name : String) : PoolCommand → PoolStep
  | .rent length =>
      let rental := session.pool.rent length
      { answer := .slice rental.slice
        session :=
          { session with
            pool := rental.pool
            slices := session.slices.insert name rental.slice }
        records := rental.records }
  | .giveBack =>
      match session.slices.find? name with
      | none => ⟨.missing, session, []⟩
      | some slice =>
          let (pool, records) := session.pool.giveBack slice
          ⟨.nothing, { session with pool, slices := session.slices.erase name }, records⟩
  | .free => ⟨.nothing, { session with slices := session.slices.erase name }, []⟩
  | .fill byte => session.onSlice name (·.fill byte) fun _ => .nothing
  | .inspect => session.onSlice name id .slice
  | .allocate capacity length byte =>
      let slice := (Slice.ofCapacity capacity).resize length byte
      ⟨.slice slice, { session with slices := session.slices.insert name slice }, []⟩
  | .resize length byte => session.onSlice name (·.resize length byte) .slice
  | .burst length times =>
      let (slices, rented, rentals) := session.pool.rentMany length times
      let filled := slices.mapIdx fun number slice => slice.fill (UInt8.ofNat number)
      let (pool, returns) := rented.giveBackAll filled
      ⟨.slices slices, { session with pool }, rentals ++ returns⟩
  | .count index => ⟨.number (session.pool.pooledCount index), session, []⟩
  | .lease length =>
      let rental := session.pool.rent length
      let (after, records) := endLease { session with pool := rental.pool } name
      { answer := .bytes rental.slice.bytes
        session := { after with leases := after.leases.insert name ⟨rental.slice⟩ }
        records := rental.records ++ records }
  | .fillLease byte => session.onLease name (·.fill byte) fun _ => .nothing
  | .writeLease position bytes => session.onLease name (·.write position bytes) fun _ => .nothing
  | .endLease =>
      let (after, records) := session.endLease name
      ⟨.nothing, after, records⟩
  | .inspectLease => session.onLease name id (.bytes ·.slice.bytes)
  | .describeLease => session.onLease name id fun lease => .texts lease.text lease.longText
  | .detachLease =>
      match session.leases.find? name with
      | none => ⟨.missing, session, []⟩
      | some lease =>
          let (slice, emptied) := lease.detach
          let (after, records) :=
            endLease { session with leases := session.leases.insert name emptied } name
          ⟨.slice slice, { after with slices := after.slices.insert name slice }, records⟩

/-- Carry out commands one after the other. -/
def run (session : PoolSession) : List (String × PoolCommand) → List PoolStep
  | [] => []
  | (name, command) :: rest =>
      let done := session.step name command
      done :: run done.session rest

/-- End all leases that are left, in the order of their names. -/
def finish (session : PoolSession) : PoolSession × List PoolRecord :=
  session.leases.entries.foldl
    (fun (current, records) entry =>
      let (next, more) := current.endLease entry.1
      (next, records ++ more))
    (session, [])

end PoolSession
end BulkTransfer
