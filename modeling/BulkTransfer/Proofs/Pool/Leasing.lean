import BulkTransfer.Proofs.Pool.Ledger

/-!
# Leases are rents with one return

A session with leases is a ledger with the numbers forgotten, so nobody can tell whether leases were
used or slices were given back by hand. From the ledger one sees what becomes of each leased slice:
its lease ends and it is given back once, or it is detached, and then it is given back only if its
new owner does so.
-/

namespace BulkTransfer

/-- Number of the slice under a name. -/
def Registry.number? (registry : Registry NumberedSlice) (name : String) : Option Nat :=
  (registry.find? name).map (·.number)

namespace Registry

variable (registry : Registry NumberedSlice) (name other : String)

@[grind =]
theorem number?_insert (numbered : NumberedSlice) :
    (registry.insert name numbered).number? other =
      if name = other then some numbered.number else registry.number? other := by
  split
  · next same => rw [number?, same, find?_insert_self, Option.map_some]
  · next differ => rw [number?, find?_insert_of_ne _ _ differ, number?]

@[grind =]
theorem number?_erase :
    (registry.erase name).number? other =
      if name = other then none else registry.number? other := by
  split
  · next same => rw [number?, same, find?_erase_self, Option.map_none]
  · next differ => rw [number?, find?_erase_of_ne _ differ, number?]

theorem number?_of_some {registry : Registry NumberedSlice} {name : String}
    {numbered : NumberedSlice} (found : registry.find? name = some numbered) :
    registry.number? name = some numbered.number := by
  rw [number?, found, Option.map_some]

theorem number?_of_none {registry : Registry NumberedSlice} {name : String}
    (missing : registry.find? name = none) : registry.number? name = none := by
  rw [number?, missing, Option.map_none]

end Registry

namespace Pool

variable (pool : Pool)

theorem afterRequests_append (earlier later : List PoolRequest) :
    pool.afterRequests (earlier ++ later) = (pool.afterRequests earlier).afterRequests later := by
  induction earlier generalizing pool with
  | nil => rfl
  | cons request rest ih => exact ih _

theorem length_rentMany (length times : Nat) : (pool.rentMany length times).1.length = times := by
  induction times generalizing pool with
  | zero => rfl
  | succ times ih => exact congrArg (· + 1) (ih _)

theorem afterRequests_replicate_rent (length times : Nat) :
    pool.afterRequests (List.replicate times (.rent length)) =
      (pool.rentMany length times).2.1 := by
  induction times generalizing pool with
  | zero => rfl
  | succ times ih => exact ih _

theorem afterRequests_map_giveBack (slices : List Slice) :
    pool.afterRequests (slices.map .giveBack) = (pool.giveBackAll slices).1 := by
  induction slices generalizing pool with
  | nil => rfl
  | cons slice rest ih => exact ih _

end Pool

namespace PoolLedger

section Shelves

variable (ledger : PoolLedger) (shelf other : Shelf) (name sought : String)

@[grind =]
theorem number?_store (numbered : NumberedSlice) :
    ((ledger.store shelf name numbered).shelf other).number? sought =
      if shelf = other ∧ name = sought then some numbered.number
      else (ledger.shelf other).number? sought := by
  grind [store, reshelve, PoolLedger.shelf]

@[grind =]
theorem number?_forget :
    ((ledger.forget shelf name).shelf other).number? sought =
      if shelf = other ∧ name = sought then none else (ledger.shelf other).number? sought := by
  grind [forget, reshelve, PoolLedger.shelf]

/-- Changing a slice keeps its number. -/
theorem number?_revise {numbered : NumberedSlice}
    (found : (ledger.shelf shelf).find? name = some numbered) (change : Slice → Slice) :
    ((ledger.store shelf name (numbered.revise change)).shelf other).number? sought =
      (ledger.shelf other).number? sought := by
  rw [number?_store]
  split
  · next same => rw [← same.1, ← same.2, Registry.number?_of_some found, NumberedSlice.revise]
  · rfl

@[simp, grind =]
theorem issued_reshelve (registry : Registry NumberedSlice) :
    (ledger.reshelve shelf registry).issued = ledger.issued := by
  cases shelf <;> rfl

@[simp, grind =]
theorem calls_reshelve (registry : Registry NumberedSlice) :
    (ledger.reshelve shelf registry).calls = ledger.calls := by
  cases shelf <;> rfl

@[simp]
theorem pool_reshelve (registry : Registry NumberedSlice) :
    (ledger.reshelve shelf registry).pool = ledger.pool := by
  cases shelf <;> rfl

@[grind =]
theorem shelf_giveBack (numbered : NumberedSlice) :
    (ledger.giveBack numbered).1.shelf shelf = ledger.shelf shelf := by
  cases shelf <;> rfl

theorem issued_giveBackFrom : (ledger.giveBackFrom shelf name).1.issued = ledger.issued := by
  rw [giveBackFrom]
  split
  · rfl
  · exact issued_reshelve _ _ _

end Shelves

variable {ledger : PoolLedger} {start : Pool}

/-- The pool is what the calls made of it, and whatever has a number was handed out. -/
structure Sound (start : Pool) (ledger : PoolLedger) : Prop where
  /-- Nothing but the calls changed the pool. -/
  called : ledger.pool = start.afterRequests (ledger.calls.map PoolCall.request)
  /-- The calls are about slices handed out. -/
  calls : ∀ call ∈ ledger.calls, call.number < ledger.issued
  /-- What is kept was handed out. -/
  held : ∀ shelf name number,
    (ledger.shelf shelf).number? name = some number → number < ledger.issued

namespace Sound

theorem fresh (start : Pool) : (PoolLedger.mk start {} {} 0 []).Sound start where
  called := rfl
  calls := by simp
  held shelf := by cases shelf <;> simp [shelf, Registry.number?, Registry.find?]

theorem of_find? (sound : ledger.Sound start) {shelf : Shelf} {name : String}
    {numbered : NumberedSlice} (found : (ledger.shelf shelf).find? name = some numbered) :
    numbered.number < ledger.issued :=
  sound.held shelf name _ (Registry.number?_of_some found)

theorem rent (sound : ledger.Sound start) (length : Nat) :
    (ledger.rent length).2.1.Sound start where
  called := by
    simp only [PoolLedger.rent, List.map_append, Pool.afterRequests_append, ← sound.called]
    rfl
  calls := by
    intro call member
    rcases List.mem_append.mp member with old | new
    · exact Nat.lt_succ_of_lt (sound.calls call old)
    · rw [List.mem_singleton.mp new]
      exact Nat.lt_succ_self _
  held shelf name number found := Nat.lt_succ_of_lt (sound.held shelf name number found)

theorem giveBack (sound : ledger.Sound start) {numbered : NumberedSlice}
    (issued : numbered.number < ledger.issued) : (ledger.giveBack numbered).1.Sound start where
  called := by
    simp only [PoolLedger.giveBack, List.map_append, Pool.afterRequests_append, ← sound.called]
    rfl
  calls := by
    intro call member
    rcases List.mem_append.mp member with old | new
    · exact sound.calls call old
    · rw [List.mem_singleton.mp new]
      exact issued
  held shelf name := sound.held shelf name

theorem store (sound : ledger.Sound start) (shelf : Shelf) (name : String)
    {numbered : NumberedSlice} (issued : numbered.number < ledger.issued) :
    (ledger.store shelf name numbered).Sound start := by
  refine ⟨?_, ?_, fun other sought number found => ?_⟩
  · rw [PoolLedger.store, pool_reshelve, calls_reshelve]
    exact sound.called
  · rw [PoolLedger.store, issued_reshelve, calls_reshelve]
    exact sound.calls
  · rw [PoolLedger.store, issued_reshelve]
    rw [number?_store] at found
    split at found
    · exact Option.some.inj found ▸ issued
    · exact sound.held other sought number found

theorem forget (sound : ledger.Sound start) (shelf : Shelf) (name : String) :
    (ledger.forget shelf name).Sound start := by
  refine ⟨?_, ?_, fun other sought number found => ?_⟩
  · rw [PoolLedger.forget, pool_reshelve, calls_reshelve]
    exact sound.called
  · rw [PoolLedger.forget, issued_reshelve, calls_reshelve]
    exact sound.calls
  · rw [PoolLedger.forget, issued_reshelve]
    rw [number?_forget] at found
    split at found
    · cases found
    · exact sound.held other sought number found

theorem onShelf (sound : ledger.Sound start) (shelf : Shelf) (name : String)
    (change : Slice → Slice) (answer : Slice → PoolAnswer) :
    (ledger.onShelf shelf name change answer).ledger.Sound start := by
  rw [PoolLedger.onShelf]
  cases found : (ledger.shelf shelf).find? name with
  | none => exact sound
  | some numbered =>
      have issued : numbered.number < ledger.issued := sound.of_find? found
      exact sound.store shelf name issued

theorem giveBackFrom (sound : ledger.Sound start) (shelf : Shelf) (name : String) :
    (ledger.giveBackFrom shelf name).1.Sound start := by
  rw [PoolLedger.giveBackFrom]
  cases found : (ledger.shelf shelf).find? name with
  | none => exact sound
  | some numbered => exact (sound.giveBack (sound.of_find? found)).forget shelf name

theorem issue (sound : ledger.Sound start) (count : Nat) :
    { ledger with issued := ledger.issued + count }.Sound start where
  called := sound.called
  calls call member := Nat.lt_add_right count (sound.calls call member)
  held shelf name number found := Nat.lt_add_right count (sound.held shelf name number found)

theorem burst (sound : ledger.Sound start) (name : String) (length times : Nat) :
    (ledger.step name (.burst length times)).ledger.Sound start := by
  let rented := ledger.pool.rentMany length times
  let filled := rented.1.mapIdx fun number slice => slice.fill (UInt8.ofNat number)
  let numbered := NumberedSlice.list ledger.issued filled
  have count : filled.length = times := by
    rw [List.length_mapIdx, Pool.length_rentMany]
  have rents : (numbered.map fun numbered => PoolCall.rent numbered.number length).map
      PoolCall.request = List.replicate times (.rent length) := by
    rw [List.map_map, List.eq_replicate_iff]
    refine ⟨?_, ?_⟩
    · rw [List.length_map, ← count, ← NumberedSlice.map_slice_list ledger.issued filled,
        List.length_map]
    · intro request member
      obtain ⟨_, _, rfl⟩ := List.mem_map.mp member
      rfl
  have returns : (numbered.map PoolCall.giveBack).map PoolCall.request =
      filled.map PoolRequest.giveBack := by
    rw [← NumberedSlice.map_slice_list ledger.issued filled, List.map_map, List.map_map]
    rfl
  refine ⟨?_, ?_, (sound.issue times).held⟩
  · simp only [PoolLedger.step, List.map_append, Pool.afterRequests_append, ← sound.called]
    rw [rents, returns, Pool.afterRequests_replicate_rent, Pool.afterRequests_map_giveBack]
  · intro call member
    have bound : ∀ entry ∈ numbered, entry.number < ledger.issued + times := by
      intro entry listed
      exact count ▸ (NumberedSlice.le_of_mem_list listed).2
    rcases List.mem_append.mp member with earlier | returned
    · rcases List.mem_append.mp earlier with old | rented
      · exact (sound.issue times).calls call old
      · obtain ⟨entry, listed, rfl⟩ := List.mem_map.mp rented
        exact bound entry listed
    · obtain ⟨entry, listed, rfl⟩ := List.mem_map.mp returned
      exact bound entry listed

/-- By every command something is handed out under the next number only. -/
theorem step (sound : ledger.Sound start) (name : String) (command : PoolCommand) :
    (ledger.step name command).ledger.Sound start := by
  cases command with
  | rent length => exact (sound.rent length).store .own name (Nat.lt_succ_self _)
  | giveBack => exact sound.giveBackFrom .own name
  | free => exact sound.forget .own name
  | fill byte => exact sound.onShelf .own name _ _
  | inspect => exact sound.onShelf .own name _ _
  | allocate capacity length byte =>
      exact (sound.issue 1).store .own name (Nat.lt_succ_self _)
  | resize length byte => exact sound.onShelf .own name _ _
  | burst length times => exact sound.burst name length times
  | count index => exact sound
  | lease length =>
      refine ((sound.rent length).giveBackFrom .lent name).store .lent name ?_
      rw [issued_giveBackFrom]
      exact Nat.lt_succ_self _
  | fillLease byte => exact sound.onShelf .lent name _ _
  | writeLease position bytes => exact sound.onShelf .lent name _ _
  | endLease => exact sound.giveBackFrom .lent name
  | inspectLease => exact sound.onShelf .lent name _ _
  | describeLease => exact sound.onShelf .lent name _ _
  | detachLease =>
      rw [PoolLedger.step]
      cases found : ledger.lent.find? name with
      | none => exact sound
      | some numbered =>
          have issued : numbered.number < (ledger.forget .lent name).issued := by
            have lent : (ledger.shelf .lent).find? name = some numbered := found
            rw [PoolLedger.forget, issued_reshelve]
            exact sound.of_find? lent
          exact (sound.forget .lent name).store .own name issued

theorem after (sound : ledger.Sound start) (commands : List (String × PoolCommand)) :
    (ledger.after commands).Sound start := by
  induction commands generalizing ledger with
  | nil => exact sound
  | cons entry rest ih => exact ih (sound.step entry.1 entry.2)

end Sound
end PoolLedger

/-- Where a slice is that was leased. -/
inductive Place where
  /-- Under its lease. -/
  | lent
  /-- With a client, under the name of the lease it was taken out of. -/
  | detached
  /-- Given back to the pool. -/
  | returned
  /-- Freed by the client. -/
  | freed
  deriving DecidableEq

/-- What became of a leased slice. -/
@[ext, grind ext]
structure Fate where
  /-- Where it is. -/
  place : Place := .lent
  /-- Whether there is a lease of its name, be it its own or a later one. -/
  leased : Bool := true
  deriving DecidableEq

namespace Fate

/-- A slice that is at one place goes to another. -/
@[grind]
def shift (fate : Fate) (here there : Place) : Fate :=
  { fate with place := if fate.place = here then there else fate.place }

/-- What a command on its name makes of the slice. A later lease takes the place of the older one,
which ends; a later slice takes the place of the older one, which is freed. -/
@[grind]
def next (fate : Fate) : PoolCommand → Fate
  | .lease _ => { fate.shift .lent .returned with leased := true }
  | .endLease => { fate.shift .lent .returned with leased := false }
  | .detachLease =>
      if fate.leased then
        { (fate.shift .detached .freed).shift .lent .detached with leased := false }
      else
        fate
  | .giveBack => fate.shift .detached .returned
  | .free | .rent _ | .allocate _ _ _ => fate.shift .detached .freed
  | _ => fate

/-- What a command makes of the slice; commands on other names are nothing to it. -/
@[grind]
def heed (fate : Fate) (name : String) (entry : String × PoolCommand) : Fate :=
  if entry.1 = name then fate.next entry.2 else fate

/-- What commands make of the slice. -/
def after (fate : Fate) (name : String) : List (String × PoolCommand) → Fate
  | [] => fate
  | entry :: rest => (fate.heed name entry).after name rest

/-- Calls by which the slice went back to the pool. -/
def returns (fate : Fate) (numbered : NumberedSlice) : List PoolCall :=
  if fate.place = .returned then [.giveBack numbered] else []

end Fate

/-- Where a slice is that is kept. -/
@[grind]
def Shelf.place : Shelf → Place
  | .own => .detached
  | .lent => .lent

/-- The command that gives back what is kept. -/
@[grind]
def Shelf.returning : Shelf → PoolCommand
  | .own => .giveBack
  | .lent => .endLease

namespace PoolLedger

/-- What a ledger tells of a slice that was leased under a name. -/
structure Traces (ledger : PoolLedger) (number length : Nat) (name : String) (fate : Fate) :
    Prop where
  /-- The slice was handed out. -/
  issued : number < ledger.issued
  /-- The slice is among those of the clients exactly if it is detached, and among the lent ones
  exactly if its lease goes on. -/
  held : ∀ shelf other, (ledger.shelf shelf).number? other = some number ↔
    fate.place = shelf.place ∧ other = name
  /-- Some slice is lent under the name if there is a lease. -/
  leased : ((ledger.shelf .lent).number? name).isSome = fate.leased
  /-- The slice was rented once, and given back once if it was returned. -/
  calls : ∃ slice, ledger.callsOf number = .rent number length :: fate.returns ⟨number, slice⟩

namespace Traces

variable {ledger : PoolLedger} {number length : Nat} {name : String} {fate : Fate}

/-- Calls about other slices are nothing to it. -/
theorem grow (traces : ledger.Traces number length name fate) {issued : Nat}
    (more : ledger.issued ≤ issued) (pool : Pool) {calls : List PoolCall}
    (others : ∀ call ∈ calls, call.number ≠ number) :
    { ledger with pool, issued, calls := ledger.calls ++ calls }.Traces number length name
      fate := by
  refine ⟨Nat.lt_of_lt_of_le traces.issued more, traces.held, traces.leased, ?_⟩
  have nothing : calls.filter (·.number = number) = [] :=
    List.filter_eq_nil_iff.mpr fun call member => by simpa using others call member
  simpa only [callsOf, List.filter_append, nothing, List.append_nil] using traces.calls

theorem issue (traces : ledger.Traces number length name fate) (count : Nat) :
    { ledger with issued := ledger.issued + count }.Traces number length name fate :=
  ⟨Nat.lt_add_right count traces.issued, traces.held, traces.leased, traces.calls⟩

theorem stay (traces : ledger.Traces number length name fate) {command : PoolCommand}
    (harmless : fate.next command = fate) {other : String} :
    ledger.Traces number length name (fate.heed name (other, command)) := by
  rw [Fate.heed, harmless, ite_self]
  exact traces

theorem rent (traces : ledger.Traces number length name fate) (wanted : Nat) :
    (ledger.rent wanted).2.1.Traces number length name fate := by
  refine traces.grow (Nat.le_succ _) _ fun call member => ?_
  rw [List.mem_singleton.mp member]
  exact Nat.ne_of_gt traces.issued

theorem giveBack (traces : ledger.Traces number length name fate) {numbered : NumberedSlice}
    (other : numbered.number ≠ number) :
    (ledger.giveBack numbered).1.Traces number length name fate := by
  refine traces.grow (Nat.le_refl _) _ fun call member => ?_
  rw [List.mem_singleton.mp member]
  exact other

/-- The names may change as long as no call is made. -/
theorem rename (traces : ledger.Traces number length name fate) {next : PoolLedger} {later : Fate}
    (issued : next.issued = ledger.issued) (calls : next.calls = ledger.calls)
    (returned : later.place = .returned ↔ fate.place = .returned)
    (held : ∀ shelf other, (next.shelf shelf).number? other = some number ↔
      later.place = shelf.place ∧ other = name)
    (leased : ((next.shelf .lent).number? name).isSome = later.leased) :
    next.Traces number length name later := by
  obtain ⟨slice, called⟩ := traces.calls
  refine ⟨issued ▸ traces.issued, held, leased, slice, ?_⟩
  simp only [callsOf, calls, Fate.returns, returned] at called ⊢
  exact called

theorem storeOwn (traces : ledger.Traces number length name fate) (kept : String)
    {numbered : NumberedSlice} (other : numbered.number ≠ number) :
    (ledger.store .own kept numbered).Traces number length name
      (fate.heed name (kept, .free)) := by
  have held := traces.held
  have leased := traces.leased
  refine traces.rename rfl rfl ?_ ?_ ?_ <;> grind

theorem forgetOwn (traces : ledger.Traces number length name fate) (kept : String) :
    (ledger.forget .own kept).Traces number length name (fate.heed name (kept, .free)) := by
  have held := traces.held
  have leased := traces.leased
  refine traces.rename rfl rfl ?_ ?_ ?_ <;> grind

theorem place_of_find? (traces : ledger.Traces number length name fate) {shelf : Shelf}
    {kept : String} {numbered : NumberedSlice}
    (found : (ledger.shelf shelf).find? kept = some numbered) :
    numbered.number = number ↔ fate.place = shelf.place ∧ kept = name := by
  rw [← traces.held, Registry.number?_of_some found, Option.some_inj]

/-- What the ledger tells of a slice that is given back for the first time. -/
theorem callsOf_giveBack (traces : ledger.Traces number length name fate)
    (kept : fate.place ≠ .returned) {numbered : NumberedSlice} (same : numbered.number = number) :
    (ledger.giveBack numbered).1.callsOf number =
      [.rent number length, .giveBack ⟨number, numbered.slice⟩] := by
  obtain ⟨slice, calls⟩ := traces.calls
  rw [Fate.returns, if_neg kept, callsOf] at calls
  subst same
  simp only [callsOf, PoolLedger.giveBack, List.filter_append, calls]
  simp [PoolCall.number]

/-- What is kept under a name is given back. -/
theorem giveBackFrom (traces : ledger.Traces number length name fate) (shelf : Shelf)
    (kept : String) :
    (ledger.giveBackFrom shelf kept).1.Traces number length name
      (fate.heed name (kept, shelf.returning)) := by
  rw [PoolLedger.giveBackFrom]
  have held := traces.held
  have leased := traces.leased
  cases found : (ledger.shelf shelf).find? kept with
  | none =>
      have absent := Registry.number?_of_none found
      have elsewhere := traces.held shelf kept
      have nothing : fate.heed name (kept, shelf.returning) = fate := by grind
      rw [nothing]
      exact traces
  | some numbered =>
      have present := Registry.number?_of_some found
      by_cases same : numbered.number = number
      · obtain ⟨there, own⟩ := (traces.place_of_find? found).mp same
        have outside : fate.place ≠ .returned := by grind
        have calls := traces.callsOf_giveBack outside same
        have returned : (fate.heed name (kept, shelf.returning)).place = .returned := by grind
        refine ⟨?_, ?_, ?_, numbered.slice, ?_⟩
        · have same_issued := issued_reshelve (ledger.giveBack numbered).1 shelf
          exact Nat.lt_of_lt_of_eq traces.issued (same_issued _).symm
        · grind
        · grind
        · rw [Fate.returns, if_pos returned, ← calls]
          exact congrArg (List.filter _) (calls_reshelve _ _ _)
      · have elsewhere := mt (traces.place_of_find? found).mpr same
        have given := traces.giveBack same
        refine given.rename (issued_reshelve _ _ _) (calls_reshelve _ _ _) ?_ ?_ ?_ <;> grind

/-- A lease begins, and ends the older one of its name. -/
theorem lease (traces : ledger.Traces number length name fate) (lender : String) (wanted : Nat) :
    (ledger.step lender (.lease wanted)).ledger.Traces number length name
      (fate.heed name (lender, .lease wanted)) := by
  have other : (ledger.rent wanted).1.number ≠ number := Nat.ne_of_gt traces.issued
  have ended := (traces.rent wanted).giveBackFrom .lent lender
  have held := ended.held
  have leased := ended.leased
  rw [PoolLedger.step]
  refine ended.rename rfl rfl ?_ ?_ ?_ <;> grind

/-- A client takes the slice out of a lease. -/
theorem detachLease (traces : ledger.Traces number length name fate) (lender : String) :
    (ledger.step lender .detachLease).ledger.Traces number length name
      (fate.heed name (lender, .detachLease)) := by
  rw [PoolLedger.step]
  have held := traces.held
  have leased := traces.leased
  have elsewhere := traces.held .lent lender
  cases found : ledger.lent.find? lender with
  | none =>
      have absent := Registry.number?_of_none found
      have nothing : fate.heed name (lender, .detachLease) = fate := by
        grind [PoolLedger.shelf]
      rw [nothing]
      exact traces
  | some numbered =>
      have present : (ledger.shelf .lent).number? lender = some numbered.number :=
        Registry.number?_of_some found
      refine traces.rename rfl rfl ?_ ?_ ?_ <;> grind

theorem onShelf (traces : ledger.Traces number length name fate) (shelf : Shelf) (kept : String)
    (change : Slice → Slice) (answer : Slice → PoolAnswer) :
    (ledger.onShelf shelf kept change answer).ledger.Traces number length name fate := by
  rw [PoolLedger.onShelf]
  cases found : (ledger.shelf shelf).find? kept with
  | none => exact traces
  | some numbered =>
      refine traces.rename (issued_reshelve _ _ _) (calls_reshelve _ _ _) .rfl ?_ ?_
      · intro other sought
        rw [ledger.number?_revise _ _ _ _ found]
        exact traces.held other sought
      · rw [ledger.number?_revise _ _ _ _ found]
        exact traces.leased

theorem burst (traces : ledger.Traces number length name fate) (other : String)
    (wanted times : Nat) :
    (ledger.step other (.burst wanted times)).ledger.Traces number length name fate := by
  simp only [PoolLedger.step, List.append_assoc]
  refine traces.grow (Nat.le_add_right _ _) _ fun call member => ?_
  have fresh : ledger.issued ≤ call.number := by
    rcases List.mem_append.mp member with rented | returned
    · obtain ⟨entry, listed, rfl⟩ := List.mem_map.mp rented
      exact (NumberedSlice.le_of_mem_list listed).1
    · obtain ⟨entry, listed, rfl⟩ := List.mem_map.mp returned
      exact (NumberedSlice.le_of_mem_list listed).1
  exact Nat.ne_of_gt (Nat.lt_of_lt_of_le traces.issued fresh)

/-- One command does to a slice what can be told from its name and where the slice is. -/
theorem step (traces : ledger.Traces number length name fate) (other : String)
    (command : PoolCommand) :
    (ledger.step other command).ledger.Traces number length name
      (fate.heed name (other, command)) := by
  have fresh : ledger.issued ≠ number := Nat.ne_of_gt traces.issued
  cases command with
  | rent wanted => exact (traces.rent wanted).storeOwn other fresh
  | giveBack => exact traces.giveBackFrom .own other
  | free => exact traces.forgetOwn other
  | fill byte => exact (traces.onShelf .own other _ _).stay rfl
  | inspect => exact (traces.onShelf .own other _ _).stay rfl
  | allocate capacity wanted byte => exact (traces.issue 1).storeOwn other fresh
  | resize wanted byte => exact (traces.onShelf .own other _ _).stay rfl
  | burst wanted times => exact (traces.burst other wanted times).stay rfl
  | count index => exact traces.stay rfl
  | lease wanted => exact traces.lease other wanted
  | fillLease byte => exact (traces.onShelf .lent other _ _).stay rfl
  | writeLease position bytes => exact (traces.onShelf .lent other _ _).stay rfl
  | endLease => exact traces.giveBackFrom .lent other
  | inspectLease => exact (traces.onShelf .lent other _ _).stay rfl
  | describeLease => exact (traces.onShelf .lent other _ _).stay rfl
  | detachLease => exact traces.detachLease other

theorem after (traces : ledger.Traces number length name fate)
    (commands : List (String × PoolCommand)) :
    (ledger.after commands).Traces number length name (fate.after name commands) := by
  induction commands generalizing ledger fate with
  | nil => exact traces
  | cons entry rest ih => exact ih (traces.step entry.1 entry.2)

end Traces

/-- A lease begins with a slice that is rented under the next number. -/
theorem traces_of_lease {ledger : PoolLedger} {start : Pool} (sound : ledger.Sound start)
    (name : String) (length : Nat) :
    (ledger.step name (.lease length)).ledger.Traces ledger.issued length name {} := by
  have before : ledger.callsOf ledger.issued = [] :=
    List.filter_eq_nil_iff.mpr fun call member => by
      simpa using Nat.ne_of_lt (sound.calls call member)
  -- Between the rent and the lease the slice is in no registry, as one that was freed.
  have rented : (ledger.rent length).2.1.Traces ledger.issued length name
      ⟨.freed, (ledger.lent.number? name).isSome⟩ := by
    refine ⟨Nat.lt_succ_self _, ?_, rfl, .empty, ?_⟩
    · intro shelf other
      have held := sound.held shelf other ledger.issued
      grind [PoolLedger.rent, PoolLedger.shelf]
    · rw [callsOf] at before
      simp only [callsOf, PoolLedger.rent, List.filter_append, before]
      simp [PoolCall.number, Fate.returns]
  have ended := rented.giveBackFrom .lent name
  have number : (ledger.rent length).1.number = ledger.issued := rfl
  have held := ended.held
  have leased := ended.leased
  rw [step]
  refine ended.rename rfl rfl ?_ ?_ ?_ <;> grind

end PoolLedger

namespace Fate

variable {fate : Fate} {name : String}

theorem heed_freed (freed : fate.place = .freed) (entry : String × PoolCommand) :
    (fate.heed name entry).place = .freed := by
  obtain ⟨other, command⟩ := entry
  cases command <;> grind

theorem after_freed (freed : fate.place = .freed) (later : List (String × PoolCommand)) :
    (fate.after name later).place = .freed := by
  induction later generalizing fate with
  | nil => exact freed
  | cons entry rest ih => exact ih (heed_freed freed entry)

theorem heed_detached (detached : fate.place = .detached) (entry : String × PoolCommand) :
    (fate.heed name entry).place = .detached ∨ (fate.heed name entry).place = .freed ∨
      entry = (name, .giveBack) := by
  obtain ⟨other, command⟩ := entry
  cases command <;> grind

/-- A slice that was detached comes back to the pool only if it is given back by name while it is
still kept there. -/
theorem exists_giveBack {later : List (String × PoolCommand)} (detached : fate.place = .detached)
    (returned : (fate.after name later).place = .returned) :
    ∃ before rest, later = before ++ (name, .giveBack) :: rest ∧
      (fate.after name before).place = .detached := by
  induction later generalizing fate with
  | nil => simp [after, detached] at returned
  | cons entry rest ih =>
      rcases heed_detached detached entry with kept | freed | given
      · obtain ⟨before, behind, rfl, there⟩ := ih kept returned
        exact ⟨entry :: before, behind, rfl, there⟩
      · rw [after, after_freed freed] at returned
        cases returned
      · exact ⟨[], rest, by rw [given]; rfl, detached⟩

/-- If leases end, that of the slice may be among them. -/
theorem place_after_endLeases (fate : Fate) (name : String) (names : List String) :
    (fate.after name (names.map (·, .endLease))).place =
      if fate.place = .lent ∧ name ∈ names then .returned else fate.place := by
  induction names generalizing fate with
  | nil => simp [after]
  | cons first rest ih =>
      rw [List.map_cons, after, ih]
      grind

end Fate

namespace PoolLedger

variable {ledger : PoolLedger}

theorem detachLease_calls (ledger : PoolLedger) (name : String) :
    (ledger.step name .detachLease).ledger.pool = ledger.pool ∧
      (ledger.step name .detachLease).ledger.calls = ledger.calls := by
  rw [step]
  split <;> exact ⟨rfl, rfl⟩

/-- A lease that is left at the end ends then, and its slice is given back. -/
theorem Traces.finish {number length : Nat} {name : String} {fate : Fate}
    (traces : ledger.Traces number length name fate) :
    ∃ slice, ledger.finish.callsOf number = .rent number length ::
      if fate.place = .lent ∨ fate.place = .returned then
        [.giveBack ⟨number, slice⟩]
      else
        [] := by
  let names := ledger.lent.entries.map Prod.fst
  have ends : ledger.finish = ledger.after (names.map (·, .endLease)) := by
    rw [PoolLedger.finish, List.map_map]
    rfl
  have listed : fate.place = .lent → name ∈ names := by
    intro lent
    have kept : ledger.lent.number? name = some number := (traces.held .lent name).mpr ⟨lent, rfl⟩
    obtain ⟨numbered, found, -⟩ := Option.map_eq_some_iff.mp kept
    exact Registry.mem_names_of_find? found
  obtain ⟨slice, calls⟩ := (traces.after (names.map (·, .endLease))).calls
  refine ⟨slice, ?_⟩
  rw [ends, calls, Fate.returns, Fate.place_after_endLeases]
  grind

end PoolLedger

namespace PoolSession

/-- Leases can be done without: the same commands, with a rent for each lease, one return for the
end of each lease and nothing for a slice that is detached, give the same answers and, but for
returns of slices without memory, the same records; and they leave the same slices and the same
pool, also after the leases that are left have ended. Nothing but the rents and returns changes the
pool. A leased slice was rented once; it was given back once if its lease ended, and not by being
detached; and a slice that was detached is given back only by name, while its owner has it. -/
theorem leases_by_hand (pool : Pool) (commands : List (String × PoolCommand)) :
    let session := (PoolSession.mk pool {} {}).after commands
    let ledger := (PoolLedger.mk pool {} {} 0 []).after commands
    ledger.session = session ∧ ledger.finish.session = session.finish.1 ∧
    ledger.pool = pool.afterRequests (ledger.calls.map PoolCall.request) ∧
    (∀ name command, (ledger.step name command).Matches (session.step name command)) ∧
    (∀ name, (session.step name .detachLease).session.pool = session.pool ∧
      (ledger.step name .detachLease).ledger.calls = ledger.calls) ∧
    ∀ name length later,
      let last := (ledger.step name (.lease length)).ledger.after later
      let fate := Fate.after {} name later
      last.Traces ledger.issued length name fate ∧
      (∃ slice, last.finish.callsOf ledger.issued = .rent ledger.issued length ::
        if fate.place = .lent ∨ fate.place = .returned then
          [.giveBack ⟨ledger.issued, slice⟩]
        else
          []) ∧
      (fate.place = .detached → ∀ more, (fate.after name more).place = .returned →
        ∃ before rest, more = before ++ (name, .giveBack) :: rest ∧
          (fate.after name before).place = .detached) := by
  intro session ledger
  have sound : ledger.Sound pool := (PoolLedger.Sound.fresh pool).after commands
  have same : ledger.session = session := PoolLedger.session_after _ commands
  have matching : ∀ name command,
      (ledger.step name command).Matches (session.step name command) := by
    intro name command
    rw [← same]
    exact ledger.step_matches name command
  refine ⟨same, ?_, sound.called, matching, ?_, ?_⟩
  · rw [PoolLedger.session_finish, same]
  · intro name
    have kept := ledger.detachLease_calls name
    refine ⟨?_, kept.2⟩
    rw [← (matching name .detachLease).session, ← same]
    exact kept.1
  · intro name length later last fate
    have traces : last.Traces ledger.issued length name fate :=
      (PoolLedger.traces_of_lease sound name length).after later
    exact ⟨traces, traces.finish, fun detached more => Fate.exists_giveBack detached⟩

/-- The third slice is leased, detached while the second goes back to the pool, and given back
later. -/
theorem leases_by_hand_detached :
    let pool : Pool := ⟨⟨8, 1⟩, [[], [], [], []]⟩
    let commands : List (String × PoolCommand) :=
      [("b", .lease 0), ("a", .lease 3), ("a", .fillLease 7)]
    let later : List (String × PoolCommand) :=
      [("c", .writeLease 0 [5]), ("c", .detachLease), ("a", .endLease)]
    let more : List (String × PoolCommand) := [("c", .inspect), ("c", .giveBack)]
    let ledger := (PoolLedger.mk pool {} {} 0 []).after commands
    let last := (ledger.step "c" (.lease 3)).ledger.after later
    let fate := Fate.after {} "c" later
    Pool.create ⟨8, 1⟩ = .ok pool ∧ ledger.session = (PoolSession.mk pool {} {}).after commands ∧
    last.pool.buckets[2]? = some [⟨[7, 7, 7], 4⟩] ∧
    last.callsOf 2 = [.rent 2 3] ∧ fate.place = .detached ∧
    (fate.after "c" more).place = .returned ∧
    ∃ before rest, more = before ++ ("c", .giveBack) :: rest ∧
      (fate.after "c" before).place = .detached := by
  intro pool commands later more ledger last fate
  obtain ⟨same, _, _, _, _, leased⟩ := leases_by_hand pool commands
  obtain ⟨traces, _, detached⟩ := leased "c" 3 later
  have place : fate.place = .detached := by decide
  have returned : (fate.after "c" more).place = .returned := by decide
  have issued : ledger.issued = 2 := by decide
  have filed : last.pool.buckets[2]? = some [⟨[7, 7, 7], 4⟩] := by decide +kernel
  obtain ⟨slice, calls⟩ := traces.calls
  have rented : last.callsOf 2 = [.rent 2 3] := by
    have kept : fate.returns ⟨ledger.issued, slice⟩ = [] := if_neg (by rw [place]; decide)
    rw [← issued, ← kept]
    exact calls
  exact ⟨rfl, same, filed, rented, place, returned, detached place more returned⟩

end PoolSession
end BulkTransfer
