import BulkTransfer.Proofs.Pool.Homing
import BulkTransfer.Proofs.Registry

/-!
# A pool without leases

What clients do with leases can be done by hand as well: a lent slice is rented as any other, and
the client has to think of giving it back. A ledger is a pool session of that kind. It numbers the
slices as they are handed out and writes down every call of its pool.
-/

namespace BulkTransfer

/-- A slice with the number it was handed out under. -/
structure NumberedSlice where
  /-- How many slices were handed out before. -/
  number : Nat
  /-- The slice. -/
  slice : Slice

namespace NumberedSlice

/-- The same number with a changed slice. -/
def revise (change : Slice → Slice) (numbered : NumberedSlice) : NumberedSlice :=
  { numbered with slice := change numbered.slice }

/-- Number slices in order. -/
def list (first : Nat) : List Slice → List NumberedSlice
  | [] => []
  | slice :: rest => ⟨first, slice⟩ :: list (first + 1) rest

theorem map_slice_list (first : Nat) (slices : List Slice) :
    (list first slices).map slice = slices := by
  induction slices generalizing first with
  | nil => rfl
  | cons head rest ih => rw [list, List.map_cons, ih]

theorem le_of_mem_list {first : Nat} {slices : List Slice} {numbered : NumberedSlice}
    (member : numbered ∈ list first slices) :
    first ≤ numbered.number ∧ numbered.number < first + slices.length := by
  induction slices generalizing first with
  | nil => cases member
  | cons head rest ih =>
      rw [List.length_cons]
      cases member with
      | head => exact ⟨Nat.le_refl _, Nat.lt_add_of_pos_right (Nat.succ_pos _)⟩
      | tail _ later =>
          have bounds := ih later
          omega

end NumberedSlice

/-- A call of a pool about a numbered slice. -/
inductive PoolCall where
  /-- The slice of a number was rented. -/
  | rent (number length : Nat)
  /-- A slice was given back. -/
  | giveBack (numbered : NumberedSlice)

namespace PoolCall

/-- Number of the slice that a call is about. -/
def number : PoolCall → Nat
  | rent number _ => number
  | giveBack numbered => numbered.number

/-- What a call asks of the pool. -/
def request : PoolCall → PoolRequest
  | rent _ length => .rent length
  | giveBack numbered => .giveBack numbered.slice

end PoolCall

/-- A pool, what its clients hold, and what they called it for. -/
structure PoolLedger where
  /-- The pool. -/
  pool : Pool
  /-- Slices of the clients, by name. -/
  slices : Registry NumberedSlice := {}
  /-- Slices that are to be given back by hand where a lease would end, by name. -/
  lent : Registry NumberedSlice := {}
  /-- Number of slices handed out. -/
  issued : Nat := 0
  /-- Calls of the pool, in order. -/
  calls : List PoolCall := []

/-- Where a slice is kept that was handed out. -/
@[grind cases]
inductive Shelf where
  /-- With the clients. -/
  | own
  /-- With those that are lent. -/
  | lent
  deriving DecidableEq

/-- Result of a command: the answer, the ledger after it, and the records logged. -/
structure LedgerStep where
  /-- What the command gave. -/
  answer : PoolAnswer
  /-- The ledger after the command. -/
  ledger : PoolLedger
  /-- Records logged, in order. -/
  records : List PoolRecord := []

namespace PoolLedger

/-- What is kept in a place, by name. -/
def shelf (ledger : PoolLedger) : Shelf → Registry NumberedSlice
  | .own => ledger.slices
  | .lent => ledger.lent

/-- Put something else in a place. -/
def reshelve (ledger : PoolLedger) (shelf : Shelf) (registry : Registry NumberedSlice) :
    PoolLedger :=
  match shelf with
  | .own => { ledger with slices := registry }
  | .lent => { ledger with lent := registry }

/-- Keep a slice in a place under a name. -/
def store (ledger : PoolLedger) (shelf : Shelf) (name : String) (numbered : NumberedSlice) :
    PoolLedger :=
  ledger.reshelve shelf ((ledger.shelf shelf).insert name numbered)

/-- Keep nothing in a place under a name. -/
def forget (ledger : PoolLedger) (shelf : Shelf) (name : String) : PoolLedger :=
  ledger.reshelve shelf ((ledger.shelf shelf).erase name)

/-- Rent a slice and number it. -/
def rent (ledger : PoolLedger) (length : Nat) : NumberedSlice × PoolLedger × List PoolRecord :=
  let rental := ledger.pool.rent length
  (⟨ledger.issued, rental.slice⟩,
    { ledger with
      pool := rental.pool
      issued := ledger.issued + 1
      calls := ledger.calls ++ [.rent ledger.issued length] },
    rental.records)

/-- Give a slice back. -/
def giveBack (ledger : PoolLedger) (numbered : NumberedSlice) : PoolLedger × List PoolRecord :=
  let (pool, records) := ledger.pool.giveBack numbered.slice
  ({ ledger with pool, calls := ledger.calls ++ [.giveBack numbered] }, records)

/-- Give back the slice that is kept in a place under a name, if there is one. -/
def giveBackFrom (ledger : PoolLedger) (shelf : Shelf) (name : String) :
    PoolLedger × List PoolRecord :=
  match (ledger.shelf shelf).find? name with
  | none => (ledger, [])
  | some numbered =>
      let (next, records) := ledger.giveBack numbered
      (next.forget shelf name, records)

/-- Change the slice that is kept in a place under a name, and answer from the result. -/
def onShelf (ledger : PoolLedger) (shelf : Shelf) (name : String) (change : Slice → Slice)
    (answer : Slice → PoolAnswer) : LedgerStep :=
  match (ledger.shelf shelf).find? name with
  | none => ⟨.missing, ledger, []⟩
  | some numbered =>
      ⟨answer (change numbered.slice), ledger.store shelf name (numbered.revise change), []⟩

/-- Carry out a command on a name by hand. A lease is a rent, the end of a lease is one return, and
detaching only moves the slice to the others. -/
def step (ledger : PoolLedger) (name : String) : PoolCommand → LedgerStep
  | .rent length =>
      let (numbered, next, records) := ledger.rent length
      ⟨.slice numbered.slice, next.store .own name numbered, records⟩
  | .giveBack =>
      let (next, records) := ledger.giveBackFrom .own name
      ⟨if (ledger.slices.find? name).isSome then .nothing else .missing, next, records⟩
  | .free => ⟨.nothing, ledger.forget .own name, []⟩
  | .fill byte => ledger.onShelf .own name (·.fill byte) fun _ => .nothing
  | .inspect => ledger.onShelf .own name id .slice
  | .allocate capacity length byte =>
      let slice := (Slice.ofCapacity capacity).resize length byte
      let next := { ledger with issued := ledger.issued + 1 }
      ⟨.slice slice, next.store .own name ⟨ledger.issued, slice⟩, []⟩
  | .resize length byte => ledger.onShelf .own name (·.resize length byte) .slice
  | .burst length times =>
      let (slices, rented, rentals) := ledger.pool.rentMany length times
      let filled := slices.mapIdx fun number slice => slice.fill (UInt8.ofNat number)
      let (pool, returns) := rented.giveBackAll filled
      let numbered := NumberedSlice.list ledger.issued filled
      ⟨.slices slices,
        { ledger with
          pool
          issued := ledger.issued + times
          calls := ledger.calls ++ numbered.map (.rent ·.number length) ++
            numbered.map .giveBack },
        rentals ++ returns⟩
  | .count index => ⟨.number (ledger.pool.pooledCount index), ledger, []⟩
  | .lease length =>
      let (numbered, rented, rentals) := ledger.rent length
      let (next, returns) := rented.giveBackFrom .lent name
      ⟨.bytes numbered.slice.bytes, next.store .lent name numbered, rentals ++ returns⟩
  | .fillLease byte => ledger.onShelf .lent name (·.fill byte) fun _ => .nothing
  | .writeLease position bytes =>
      ledger.onShelf .lent name (·.write position bytes) fun _ => .nothing
  | .endLease =>
      let (next, records) := ledger.giveBackFrom .lent name
      ⟨.nothing, next, records⟩
  | .inspectLease => ledger.onShelf .lent name id (.bytes ·.bytes)
  | .describeLease =>
      ledger.onShelf .lent name id fun slice =>
        .texts (Lease.mk slice).text (Lease.mk slice).longText
  | .detachLease =>
      match ledger.lent.find? name with
      | none => ⟨.missing, ledger, []⟩
      | some numbered =>
          ⟨.slice numbered.slice, (ledger.forget .lent name).store .own name numbered, []⟩

/-- Ledger after commands. -/
def after (ledger : PoolLedger) : List (String × PoolCommand) → PoolLedger
  | [] => ledger
  | (name, command) :: rest => after (ledger.step name command).ledger rest

/-- Give back all slices that are still lent, in the order of their names. -/
def finish (ledger : PoolLedger) : PoolLedger :=
  ledger.after (ledger.lent.entries.map fun entry => (entry.1, .endLease))

/-- The session with leases in place of the lent slices. -/
def session (ledger : PoolLedger) : PoolSession where
  pool := ledger.pool
  slices := ledger.slices.map (·.slice)
  leases := ledger.lent.map fun numbered => ⟨numbered.slice⟩

/-- Calls of the pool about the slice of a number. -/
def callsOf (ledger : PoolLedger) (number : Nat) : List PoolCall :=
  ledger.calls.filter (·.number = number)

end PoolLedger

/-- Records other than that a slice without memory came back, which a lease does not cause. -/
def PoolRecord.notable (records : List PoolRecord) : List PoolRecord :=
  records.filter (· ≠ .unpoolable 0)

/-- A command gave the same with leases as without, and left the same slices and buckets. -/
structure LedgerStep.Matches (byHand : LedgerStep) (leased : PoolStep) : Prop where
  /-- Shapes and bytes that the client sees agree. -/
  answer : byHand.answer = leased.answer
  /-- All slices agree, in the pool and outside of it. -/
  session : byHand.ledger.session = leased.session
  /-- The log agrees. -/
  records : PoolRecord.notable byHand.records = PoolRecord.notable leased.records

/-- A return of a slice with memory reports nothing that a lease would not. -/
theorem Pool.notable_giveBack (pool : Pool) {slice : Slice} (memory : slice.capacity ≠ 0) :
    PoolRecord.notable (pool.giveBack slice).2 = (pool.giveBack slice).2 := by
  rcases pool.giveBack_cases slice with
    ⟨_, unpoolable⟩ | ⟨_, _, _, _, ⟨_, kept⟩ | ⟨_, full⟩⟩
  · rw [unpoolable, PoolRecord.notable, List.filter_cons_of_pos (by simpa using memory)]
    rfl
  · rw [kept]
    rfl
  · rw [full]
    rfl

/-- The end of a lease does to the pool what a return does, even if nothing was left of the lease:
the return of a slice without memory is only reported. -/
theorem Lease.finish_eq (lease : Lease) (pool : Pool) :
    lease.finish pool =
      ((pool.giveBack lease.slice).1, PoolRecord.notable (pool.giveBack lease.slice).2) := by
  rw [finish]
  split
  · next nothing =>
      rw [Pool.giveBack, nothing]
      rfl
  · next memory => rw [pool.notable_giveBack memory]

/-- The leases that are left at the end are ended by commands. -/
theorem PoolSession.finish_eq_after (session : PoolSession) :
    session.finish.1 =
      session.after (session.leases.entries.map fun entry => (entry.1, .endLease)) := by
  rw [finish]
  generalize session.leases.entries = entries
  generalize ([] : List PoolRecord) = records
  induction entries generalizing session records with
  | nil => rfl
  | cons entry rest ih => exact ih (session.endLease entry.1).1 _

namespace PoolLedger

variable (ledger : PoolLedger) (name : String)

@[simp]
theorem find?_slices_session :
    ledger.session.slices.find? name = (ledger.slices.find? name).map (·.slice) :=
  Registry.find?_map _ _ _

@[simp]
theorem find?_leases_session :
    ledger.session.leases.find? name =
      (ledger.lent.find? name).map fun numbered => ⟨numbered.slice⟩ :=
  Registry.find?_map _ _ _

/-- Changing a slice by hand is changing it where the session has it. -/
theorem matches_onShelf {α : Type} {shelf : Shelf} {wrap : NumberedSlice → α}
    {store : Registry α → PoolSession} {change : Slice → Slice} {changed : α → α}
    {answer : Slice → PoolAnswer} {answered : α → PoolAnswer}
    (stored : ∀ registry, (ledger.reshelve shelf registry).session = store (registry.map wrap))
    (revised : ∀ numbered, wrap (numbered.revise change) = changed (wrap numbered))
    (told : ∀ numbered, answer numbered.slice = answered (wrap numbered)) :
    (ledger.onShelf shelf name change answer).Matches
      (ledger.session.onEntry ((ledger.shelf shelf).map wrap) store name changed answered) := by
  rw [onShelf, PoolSession.onEntry, Registry.find?_map]
  cases (ledger.shelf shelf).find? name with
  | none => exact ⟨rfl, rfl, rfl⟩
  | some numbered =>
      refine ⟨?_, ?_, rfl⟩
      · exact (told (numbered.revise change)).trans (congrArg answered (revised numbered))
      · refine (stored _).trans ?_
        rw [Registry.map_insert, revised]
        rfl

theorem session_onSlice (change : Slice → Slice) (answer : Slice → PoolAnswer) :
    (ledger.onShelf .own name change answer).Matches
      (ledger.session.onSlice name change answer) :=
  ledger.matches_onShelf name (fun _ => rfl) (fun _ => rfl) fun _ => rfl

theorem session_onLease (change : Slice → Slice) (answer : Lease → PoolAnswer) :
    (ledger.onShelf .lent name change fun slice => answer ⟨slice⟩).Matches
      (ledger.session.onLease name change answer) :=
  ledger.matches_onShelf name (fun _ => rfl) (fun _ => rfl) fun _ => rfl

theorem session_giveBackLent :
    ((ledger.giveBackFrom .lent name).1.session,
        PoolRecord.notable (ledger.giveBackFrom .lent name).2) =
      ledger.session.endLease name := by
  rw [giveBackFrom, shelf, PoolSession.endLease, find?_leases_session]
  cases ledger.lent.find? name with
  | none => rfl
  | some numbered =>
      simp only [Option.map_some, Lease.finish_eq, giveBack, forget, reshelve, shelf, session,
        Registry.map_erase]

/-- With leases or by hand, a command gives the same. -/
theorem step_matches (command : PoolCommand) :
    (ledger.step name command).Matches (ledger.session.step name command) := by
  cases command with
  | rent length =>
      refine ⟨rfl, ?_, rfl⟩
      simp only [step, PoolSession.step, rent, store, reshelve, shelf, session, Registry.map_insert]
  | giveBack =>
      rw [step, PoolSession.step, find?_slices_session, giveBackFrom, shelf]
      cases ledger.slices.find? name with
      | none => exact ⟨rfl, rfl, rfl⟩
      | some numbered =>
          refine ⟨rfl, ?_, rfl⟩
          simp only [Option.map_some, giveBack, forget, reshelve, shelf, session,
            Registry.map_erase]
  | free =>
      refine ⟨rfl, ?_, rfl⟩
      simp only [step, PoolSession.step, forget, reshelve, shelf, session, Registry.map_erase]
  | fill byte => exact ledger.session_onSlice name (·.fill byte) fun _ => .nothing
  | inspect => exact ledger.session_onSlice name id .slice
  | allocate capacity length byte =>
      refine ⟨rfl, ?_, rfl⟩
      simp only [step, PoolSession.step, store, reshelve, shelf, session, Registry.map_insert]
  | resize length byte => exact ledger.session_onSlice name (·.resize length byte) .slice
  | burst length times => exact ⟨rfl, rfl, rfl⟩
  | count index => exact ⟨rfl, rfl, rfl⟩
  | lease length =>
      let rented := (ledger.rent length).2.1
      have ended : PoolSession.endLease
          { ledger.session with pool := (ledger.session.pool.rent length).pool } name =
            ((rented.giveBackFrom .lent name).1.session,
              PoolRecord.notable (rented.giveBackFrom .lent name).2) :=
        (rented.session_giveBackLent name).symm
      refine ⟨rfl, ?_, ?_⟩
      · simp only [step, PoolSession.step, ended]
        simp only [store, reshelve, shelf, session, Registry.map_insert]
        rfl
      · simp only [step, PoolSession.step, ended, PoolRecord.notable, List.filter_append,
          List.filter_filter, Bool.and_self]
        rfl
  | fillLease byte => exact ledger.session_onLease name (·.fill byte) fun _ => .nothing
  | writeLease position bytes =>
      exact ledger.session_onLease name (·.write position bytes) fun _ => .nothing
  | endLease =>
      have ended := ledger.session_giveBackLent name
      refine ⟨rfl, congrArg Prod.fst ended, ?_⟩
      simp only [step, PoolSession.step, ← ended]
      simp only [PoolRecord.notable, List.filter_filter, Bool.and_self]
  | inspectLease => exact ledger.session_onLease name id (.bytes ·.slice.bytes)
  | describeLease =>
      exact ledger.session_onLease name id fun lease => .texts lease.text lease.longText
  | detachLease =>
      rw [step, PoolSession.step, find?_leases_session]
      cases ledger.lent.find? name with
      | none => exact ⟨rfl, rfl, rfl⟩
      | some numbered =>
          -- The emptied lease is stored and ended at once, which is to forget the lease.
          refine ⟨rfl, ?_, ?_⟩
          · simp only [Option.map_some, Lease.detach, PoolSession.endLease,
              Registry.find?_insert_self, Lease.finish, Slice.empty, store, forget, reshelve, shelf,
              session, Registry.map_insert, Registry.map_erase, Registry.erase_insert]
            rfl
          · simp only [Option.map_some, Lease.detach, PoolSession.endLease,
              Registry.find?_insert_self, Lease.finish, Slice.empty]
            rfl

theorem session_after (commands : List (String × PoolCommand)) :
    (ledger.after commands).session = ledger.session.after commands := by
  induction commands generalizing ledger with
  | nil => rfl
  | cons entry rest ih =>
      rw [after, ih, (ledger.step_matches entry.1 entry.2).session]
      rfl

theorem session_finish : ledger.finish.session = ledger.session.finish.1 := by
  have names : ledger.session.leases.entries.map (fun entry => (entry.1, PoolCommand.endLease)) =
      ledger.lent.entries.map fun entry => (entry.1, .endLease) := by
    simp only [session, Registry.map, List.map_map]
    rfl
  rw [finish, session_after, PoolSession.finish_eq_after, names]

end PoolLedger
end BulkTransfer
