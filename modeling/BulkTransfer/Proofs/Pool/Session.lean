import BulkTransfer.Pool.Session
import BulkTransfer.Proofs.Pool.Filing
import BulkTransfer.Proofs.Registry

/-!
# A pool in use

What is upheld of the pool by rents and returns, and of the slices outside of it by changes of their
bytes, holds after every command if it holds of the slices that the command brings. So, whatever
clients do with the slices they hold, including slices that never came from the pool, the buckets
keep their number, their bounds and their capacities, and every request is met.
-/

namespace BulkTransfer
namespace PoolSession

/-- Session after commands. -/
def after (session : PoolSession) : List (String × PoolCommand) → PoolSession
  | [] => session
  | (name, command) :: rest => after (session.step name command).session rest

/-- What one step of a command on an entry leaves is what was before it, or has the entry changed.
-/
theorem session_onEntry {α : Type} {holds : PoolSession → Prop} {session : PoolSession}
    {registry : Registry α} {store : Registry α → PoolSession} {name : String} {change : α → α}
    {answer : α → PoolAnswer} (before : holds session)
    (changed : ∀ value, registry.find? name = some value →
      holds (store (registry.insert name (change value)))) :
    holds (session.onEntry registry store name change answer).session := by
  rw [onEntry]
  cases found : registry.find? name with
  | none => exact before
  | some value => exact changed value found

/-- Slices that a command brings to clients, be they new, used before or changed in length. -/
def handed (session : PoolSession) (name : String) : PoolCommand → List Slice
  | .rent length | .lease length => [(session.pool.rent length).slice]
  | .allocate capacity length byte => [(Slice.ofCapacity capacity).resize length byte]
  | .resize length byte => (session.slices.find? name).toList.map (·.resize length byte)
  | .burst length times => (session.pool.rentMany length times).1
  | _ => []

/-- Something that holds of the pool, and something that holds of all slices outside of it. -/
structure Holds (pools : Pool → Prop) (fits : Slice → Prop) (session : PoolSession) : Prop where
  /-- It holds of the pool. -/
  pool : pools session.pool
  /-- It holds of the slices that clients have. -/
  slices : session.slices.All fits
  /-- It holds of the slices under lease. -/
  leases : session.leases.All (fits ·.slice)

/-- What holds of a pool and of slices is upheld: the pool may be used, if nothing but such slices
comes back to it, and the bytes of the slices may change. -/
structure Upheld (pools : Pool → Prop) (fits : Slice → Prop) : Prop where
  rent : ∀ {pool : Pool}, pools pool → ∀ length, pools (pool.rent length).pool
  giveBack : ∀ {pool : Pool} {slice : Slice}, pools pool → fits slice →
    pools (pool.giveBack slice).1
  fill : ∀ {slice : Slice}, fits slice → ∀ byte, fits (slice.fill byte)
  write : ∀ {slice : Slice}, fits slice → ∀ position bytes, fits (slice.write position bytes)
  empty : fits .empty

namespace Upheld

variable {pools : Pool → Prop} {fits : Slice → Prop} (upheld : Upheld pools fits)

include upheld

theorem rentMany {pool : Pool} (holds : pools pool) (length times : Nat) :
    pools (pool.rentMany length times).2.1 := by
  induction times generalizing pool with
  | zero => exact holds
  | succ times ih => exact ih (upheld.rent holds length)

theorem giveBackAll {pool : Pool} (holds : pools pool) {slices : List Slice}
    (fitting : ∀ slice ∈ slices, fits slice) : pools (pool.giveBackAll slices).1 := by
  induction slices generalizing pool with
  | nil => exact holds
  | cons slice rest ih =>
      rw [List.forall_mem_cons] at fitting
      exact ih (upheld.giveBack holds fitting.1) fitting.2

theorem finish_lease {pool : Pool} (holds : pools pool) {lease : Lease}
    (fitting : fits lease.slice) :
    pools (lease.finish pool).1 := by
  rw [Lease.finish]
  split
  · exact holds
  · exact upheld.giveBack holds fitting

end Upheld

namespace Holds

variable {pools : Pool → Prop} {fits : Slice → Prop} {session : PoolSession}

theorem fresh {pool : Pool} (holds : pools pool) : (PoolSession.mk pool {} {}).Holds pools fits :=
  ⟨holds, .empty, .empty⟩

theorem withPool (holds : session.Holds pools fits) {pool : Pool} (next : pools pool) :
    { session with pool }.Holds pools fits :=
  ⟨next, holds.slices, holds.leases⟩

theorem storeSlice (holds : session.Holds pools fits) (name : String) {slice : Slice}
    (new : fits slice) :
    { session with slices := session.slices.insert name slice }.Holds pools fits :=
  ⟨holds.pool, holds.slices.insert name new, holds.leases⟩

theorem storeLease (holds : session.Holds pools fits) (name : String) {lease : Lease}
    (new : fits lease.slice) :
    { session with leases := session.leases.insert name lease }.Holds pools fits :=
  ⟨holds.pool, holds.slices, holds.leases.insert name new⟩

theorem forgetSlice (holds : session.Holds pools fits) (name : String) :
    { session with slices := session.slices.erase name }.Holds pools fits :=
  ⟨holds.pool, holds.slices.erase name, holds.leases⟩

theorem onSlice (holds : session.Holds pools fits) (name : String) {change : Slice → Slice}
    (answer : Slice → PoolAnswer)
    (keeps : ∀ slice, session.slices.find? name = some slice → fits (change slice)) :
    (session.onSlice name change answer).session.Holds pools fits :=
  session_onEntry holds fun slice found => holds.storeSlice name (keeps slice found)

theorem onLease (holds : session.Holds pools fits) (name : String) {change : Slice → Slice}
    (answer : Lease → PoolAnswer) (keeps : ∀ slice, fits slice → fits (change slice)) :
    (session.onLease name change answer).session.Holds pools fits :=
  session_onEntry holds fun lease found =>
    holds.storeLease name (keeps lease.slice (holds.leases.of_find? found))

variable (upheld : Upheld pools fits)

include upheld

theorem endLease (holds : session.Holds pools fits) (name : String) :
    (session.endLease name).1.Holds pools fits := by
  rw [PoolSession.endLease]
  cases found : session.leases.find? name with
  | none => exact holds
  | some lease =>
      have next := upheld.finish_lease holds.pool (holds.leases.of_find? found)
      exact ⟨next, holds.slices, holds.leases.erase name⟩

/-- A command keeps what is upheld, if it holds of the slices that the command brings. -/
theorem step (holds : session.Holds pools fits) {name : String} {command : PoolCommand}
    (fitting : ∀ slice ∈ session.handed name command, fits slice) :
    (session.step name command).session.Holds pools fits := by
  cases command with
  | rent length =>
      have rented := holds.withPool (upheld.rent holds.pool length)
      exact rented.storeSlice name (fitting _ List.mem_cons_self)
  | giveBack =>
      rw [PoolSession.step]
      cases found : session.slices.find? name with
      | none => exact holds
      | some slice =>
          have next := upheld.giveBack holds.pool (holds.slices.of_find? found)
          exact (holds.withPool next).forgetSlice name
  | free => exact holds.forgetSlice name
  | fill byte =>
      exact holds.onSlice name _ fun slice found => upheld.fill (holds.slices.of_find? found) byte
  | inspect => exact holds.onSlice name _ fun slice found => holds.slices.of_find? found
  | allocate capacity length byte => exact holds.storeSlice name (fitting _ List.mem_cons_self)
  | resize length byte =>
      refine holds.onSlice name _ fun slice found => fitting _ ?_
      rw [handed, found]
      exact List.mem_cons_self
  | burst length times =>
      refine holds.withPool (upheld.giveBackAll (upheld.rentMany holds.pool length times) ?_)
      intro slice member
      obtain ⟨number, bound, rfl⟩ := List.mem_mapIdx.mp member
      exact upheld.fill (fitting _ (List.getElem_mem bound)) _
  | count index => exact holds
  | lease length =>
      have rented := holds.withPool (upheld.rent holds.pool length)
      exact (rented.endLease upheld name).storeLease name (fitting _ List.mem_cons_self)
  | fillLease byte => exact holds.onLease name _ fun slice fits => upheld.fill fits byte
  | writeLease position bytes =>
      exact holds.onLease name _ fun slice fits => upheld.write fits position bytes
  | endLease => exact holds.endLease upheld name
  | inspectLease => exact holds.onLease name _ fun slice fits => fits
  | describeLease => exact holds.onLease name _ fun slice fits => fits
  | detachLease =>
      rw [PoolSession.step]
      cases found : session.leases.find? name with
      | none => exact holds
      | some lease =>
          have nothing : fits (Lease.mk .empty).slice := upheld.empty
          have emptied := holds.storeLease name nothing
          exact (emptied.endLease upheld name).storeSlice name (holds.leases.of_find? found)

theorem finish (holds : session.Holds pools fits) : session.finish.1.Holds pools fits := by
  rw [PoolSession.finish]
  generalize session.leases.entries = entries
  generalize ([] : List PoolRecord) = records
  induction entries generalizing session records with
  | nil => exact holds
  | cons entry rest ih => exact ih (holds.endLease upheld entry.1) _

end Holds

/-- The pool is in order, and the bytes of all slices outside of it lie within their memory. -/
def Sound (limits : PoolLimits) (session : PoolSession) : Prop :=
  session.Holds (·.Filed limits) Slice.Fits

namespace Sound

variable {limits : PoolLimits} {session : PoolSession}

theorem upheld (limits : PoolLimits) : Upheld (·.Filed limits) Slice.Fits where
  rent filed length := filed.rent length
  giveBack filed fits := filed.giveBack fits
  fill fits byte := fits.fill byte
  write fits position bytes := fits.write position bytes
  empty := Nat.le_refl 0

theorem filed (sound : session.Sound limits) : session.pool.Filed limits :=
  sound.pool

/-- The bytes of whatever a command brings lie within their memory. -/
theorem fits_of_mem_handed {name : String} {command : PoolCommand} {slice : Slice}
    (member : slice ∈ session.handed name command) : slice.Fits := by
  cases command with
  | rent length | lease length =>
      rw [List.mem_singleton.mp member]
      exact (session.pool.length_rent length).2
  | allocate capacity length byte =>
      rw [List.mem_singleton.mp member]
      exact Slice.fits_resize _ _ _
  | resize length byte =>
      obtain ⟨older, _, rfl⟩ := List.mem_map.mp member
      exact Slice.fits_resize _ _ _
  | burst length times => exact (Pool.length_of_mem_rentMany member).2
  | _ => cases member

theorem after (sound : session.Sound limits) (commands : List (String × PoolCommand)) :
    (session.after commands).Sound limits := by
  induction commands generalizing session with
  | nil => exact sound
  | cons entry rest ih =>
      exact ih (Holds.step (upheld limits) sound fun slice => fits_of_mem_handed)

theorem finish (sound : session.Sound limits) : session.finish.1.Sound limits :=
  Holds.finish (upheld limits) sound

end Sound

theorem sound_of_create {limits : PoolLimits} {pool : Pool}
    (created : Pool.create limits = .ok pool) : (PoolSession.mk pool {} {}).Sound limits :=
  Holds.fresh (Pool.filed_create created)

/-- A pool whose buckets have room can be created. Whatever is done with it then, it keeps the
buckets it was created with; no bucket overflows; the slices of a bucket have at least the capacity
of its class and less than that of the next; and so the capacity of all slices is bounded. Each
request is met by a slice of just its length, and without new memory if the slice was used before;
and if 32 bits can tell the request, 33 bits can tell the capacity of its class. -/
theorem buckets_filed (limits : PoolLimits) (room : 0 < limits.bucketCapacity) :
    ∃ pool, Pool.create limits = .ok pool ∧ ∀ commands,
      let session := (PoolSession.mk pool {} {}).after commands
      session.pool.Filed limits ∧ session.finish.1.pool.Filed limits ∧
      session.pool.heldCapacity ≤ limits.bucketCapacity *
        ((List.range session.pool.bucketCount).map fun index => 2 ^ (index + 1) - 1).sum ∧
      ∀ length,
        (session.pool.rent length).slice.length = length ∧
        length ≤ (session.pool.rent length).slice.capacity ∧
        (∀ times, ∀ slice ∈ (session.pool.rentMany length times).1,
          slice.length = length ∧ length ≤ slice.capacity) ∧
        (∀ index, .reused index ∈ (session.pool.rent length).records →
          ∃ slice rest, session.pool.buckets[index]? = some (slice :: rest) ∧
            (session.pool.rent length).slice = slice.resize length 0 ∧
            length ≤ slice.capacity ∧
            (session.pool.rent length).slice.capacity = slice.capacity) ∧
        (length < 2 ^ 32 → ∀ sizeClass, SizeClass.serving? length = some sizeClass →
          sizeClass.capacity ≤ 2 ^ 32) := by
  have created : Pool.create limits =
      .ok ⟨limits, List.replicate (Pool.bucketsFor limits.maxLength) []⟩ :=
    if_neg (Nat.ne_of_gt room)
  refine ⟨_, created, fun commands => ?_⟩
  intro session
  have sound : session.Sound limits := (sound_of_create created).after commands
  have fitting : ∀ {length : Nat} {slice : Slice}, slice.length = length ∧ slice.Fits →
      slice.length = length ∧ length ≤ slice.capacity :=
    fun ⟨exact_length, fits⟩ => ⟨exact_length, exact_length ▸ fits⟩
  refine ⟨sound.filed, sound.finish.filed, ?_, fun length => ⟨?_, ?_, ?_, ?_, ?_⟩⟩
  · rw [sound.filed.same_count]
    exact sound.filed.heldCapacity_le
  · exact (session.pool.length_rent length).1
  · exact (fitting (session.pool.length_rent length)).2
  · exact fun times slice member => fitting (Pool.length_of_mem_rentMany member)
  · exact fun index => sound.filed.reused
  · exact fun short sizeClass serving => SizeClass.capacity_le_of_serving serving short

/-- A slice of capacity 100 from outside serves requests of up to 64 bytes. -/
theorem buckets_filed_foreign :
    let limits : PoolLimits := ⟨100, 2⟩
    let commands : List (String × PoolCommand) :=
      [("a", .allocate 100 3 7), ("a", .giveBack), ("b", .lease 5), ("b", .endLease)]
    0 < limits.bucketCapacity ∧ ∃ pool, Pool.create limits = .ok pool ∧
      let session := (PoolSession.mk pool {} {}).after commands
      session.pool.Filed limits ∧
      session.pool.buckets[6]? = some [⟨[7, 7, 7], 100⟩] ∧
      .reused 6 ∈ (session.pool.rent 40).records ∧
      (session.pool.rent 40).slice.length = 40 ∧
      (session.pool.rent 40).slice.capacity = 100 := by
  intro limits commands
  have room : 0 < limits.bucketCapacity := by decide
  obtain ⟨pool, created, runs⟩ := buckets_filed limits room
  refine ⟨room, pool, created, ?_⟩
  intro session
  obtain ⟨filed, _, _, requests⟩ := runs commands
  obtain ⟨exact_length, _, _, reuse, _⟩ := requests 40
  cases created
  have foreign : session.pool.buckets[6]? = some [⟨[7, 7, 7], 100⟩] := by decide
  have reused : .reused 6 ∈ (session.pool.rent 40).records := by decide
  obtain ⟨slice, rest, found, _, _, same⟩ := reuse 6 reused
  have first : slice = ⟨[7, 7, 7], 100⟩ := by
    rw [foreign] at found
    cases found
    rfl
  exact ⟨filed, foreign, reused, exact_length, by rw [same, first]⟩

end PoolSession
end BulkTransfer
