import BulkTransfer.Proofs.Pool.History
import BulkTransfer.Proofs.Pool.Session

/-!
# Slices that never leave home

As long as nothing but slices of the pool itself comes back to it, every slice has just the memory
of the class it was rented from. Rounding its capacity down then undoes rounding the length up, so
the slice comes back to the bucket it was taken from, and is found there when its turn comes.
-/

namespace BulkTransfer

/-- A slice without memory, or with just the memory of a class. -/
def Slice.Native (slice : Slice) : Prop :=
  slice.capacity = 0 ∨ ∃ index, slice.capacity = 2 ^ index

theorem SizeClass.filing?_capacity (sizeClass : SizeClass) :
    filing? sizeClass.capacity = some sizeClass := by
  have some_memory : sizeClass.capacity ≠ 0 := by
    rw [capacity_eq]
    exact Nat.ne_of_gt (Nat.two_pow_pos sizeClass.index)
  rw [filing?_of_ne_zero some_memory, capacity_eq, Nat.log2_two_pow]

theorem SizeClass.le_capacity_of_serving {length : Nat} {sizeClass : SizeClass}
    (serving : serving? length = some sizeClass) : length ≤ sizeClass.capacity := by
  rw [capacity_eq]
  exact (index_le_iff_of_serving serving).mp (Nat.le_refl sizeClass.index)

/-- Whether a request wants a slice of a class. -/
def PoolRequest.asks (sizeClass : SizeClass) : PoolRequest → Bool
  | rent length => SizeClass.serving? length = some sizeClass
  | giveBack _ => false

namespace Pool

/-- Every slice in a bucket has just the memory of the bucket's class. -/
def Pure (pool : Pool) : Prop :=
  ∀ index (bucket : List Slice), pool.buckets[index]? = some bucket →
    ∀ slice ∈ bucket, slice.capacity = 2 ^ index

variable {pool : Pool}

theorem pure_create {limits : PoolLimits} (created : create limits = .ok pool) : pool.Pure := by
  rw [create] at created
  split at created
  · cases created
  · cases created
    intro index bucket found slice member
    rw [List.eq_of_mem_replicate (List.mem_of_getElem? found)] at member
    cases member

theorem getElem?_setBucket {index other : Nat} {slices bucket : List Slice}
    (found : (pool.setBucket index slices).buckets[other]? = some bucket) :
    (index = other ∧ bucket = slices) ∨ (index ≠ other ∧ pool.buckets[other]? = some bucket) := by
  rw [setBucket, List.getElem?_set] at found
  by_cases same : index = other
  · rw [if_pos same] at found
    split at found
    · cases found
      exact .inl ⟨same, rfl⟩
    · cases found
  · rw [if_neg same] at found
    exact .inr ⟨same, found⟩

namespace Pure

theorem setBucket (clean : pool.Pure) {index : Nat} {slices : List Slice}
    (fitting : ∀ slice ∈ slices, slice.capacity = 2 ^ index) :
    (pool.setBucket index slices).Pure := by
  intro other bucket found slice member
  rcases getElem?_setBucket found with ⟨rfl, rfl⟩ | ⟨_, old⟩
  · exact fitting slice member
  · exact clean other bucket old slice member

theorem rent (clean : pool.Pure) (length : Nat) : (pool.rent length).pool.Pure := by
  rcases pool.rent_cases length with
    ⟨_, rental⟩ | ⟨sizeClass, _, ⟨_, rental⟩ | ⟨_, rental⟩ | ⟨slice, rest, found, rental⟩⟩ <;>
    rw [rental]
  · exact clean
  · exact clean
  · exact clean
  · exact clean.setBucket fun other member =>
      clean _ _ found other (List.mem_cons_of_mem _ member)

theorem giveBack (clean : pool.Pure) {slice : Slice} (native : slice.Native) :
    (pool.giveBack slice).1.Pure := by
  rcases pool.giveBack_cases slice with
    ⟨_, dropped⟩ | ⟨sizeClass, slices, filing, found, ⟨_, kept⟩ | ⟨_, dropped⟩⟩
  · rw [dropped]
    exact clean
  · rw [kept]
    refine clean.setBucket fun other member => ?_
    rcases List.mem_append.mp member with old | new
    · exact clean _ _ found other old
    · rw [List.mem_singleton.mp new]
      obtain ⟨index, capacity⟩ := native.resolve_left (SizeClass.ne_zero_of_filing filing)
      have home := SizeClass.filing?_capacity ⟨index⟩
      rw [SizeClass.capacity_eq, ← capacity, filing] at home
      cases home
      exact capacity
  · rw [dropped]
    exact clean

theorem capacity_rent (clean : pool.Pure) {length : Nat} {sizeClass : SizeClass}
    (serving : SizeClass.serving? length = some sizeClass)
    (inside : sizeClass.index < pool.bucketCount) :
    (pool.rent length).slice.capacity = sizeClass.capacity := by
  have enough := SizeClass.le_capacity_of_serving serving
  rcases pool.rent_cases length with
    ⟨rfl, _⟩ | ⟨other, serving_other, cases_left⟩
  · cases serving
  · cases serving.symm.trans serving_other
    rcases cases_left with ⟨missing, _⟩ | ⟨_, rental⟩ | ⟨slice, rest, found, rental⟩
    · exact absurd inside (Nat.not_lt.mpr (List.getElem?_eq_none_iff.mp missing))
    · rw [rental]
      exact Nat.max_eq_left enough
    · have home := clean _ _ found slice List.mem_cons_self
      rw [← SizeClass.capacity_eq] at home
      rw [rental, Slice.capacity_resize, home]
      exact Nat.max_eq_left enough

theorem native_rent (clean : pool.Pure) {length : Nat}
    (served : (SizeClass.serving? length).all (·.index < pool.bucketCount)) :
    (pool.rent length).slice.Native := by
  cases serving : SizeClass.serving? length with
  | none =>
      rcases pool.rent_cases length with ⟨_, rental⟩ | ⟨_, serving_other, _⟩
      · rw [rental]
        exact .inl rfl
      · rw [serving] at serving_other
        cases serving_other
  | some sizeClass =>
      rw [serving] at served
      refine .inr ⟨sizeClass.index, ?_⟩
      rw [clean.capacity_rent serving (of_decide_eq_true served), SizeClass.capacity_eq]

theorem native_of_mem_rentMany (clean : pool.Pure) {length times : Nat}
    (served : (SizeClass.serving? length).all (·.index < pool.bucketCount))
    {slice : Slice} (member : slice ∈ (pool.rentMany length times).1) : slice.Native := by
  induction times generalizing pool with
  | zero => cases member
  | succ times ih =>
      rcases List.mem_cons.mp member with rfl | later
      · exact clean.native_rent served
      · refine ih (clean.rent length) ?_ later
        rw [bucketCount_rent]
        exact served

end Pure

/-- A pool after requests. -/
def afterRequests (pool : Pool) : List PoolRequest → Pool
  | [] => pool
  | request :: rest => afterRequests (pool.serve request).2 rest

theorem buckets_setBucket_self {index : Nat} {bucket : List Slice}
    (found : pool.buckets[index]? = some bucket) (slices : List Slice) :
    (pool.setBucket index slices).buckets[index]? = some slices :=
  List.getElem?_set_self (List.getElem?_eq_some_iff.mp found).1

theorem buckets_setBucket_of_ne {index other : Nat} (differ : index ≠ other)
    (slices : List Slice) : (pool.setBucket index slices).buckets[other]? = pool.buckets[other]? :=
  List.getElem?_set_ne differ

theorem bucket_rent {sizeClass : SizeClass} {bucket : List Slice}
    (found : pool.buckets[sizeClass.index]? = some bucket) (length : Nat) :
    (pool.rent length).pool.buckets[sizeClass.index]? =
      some (if SizeClass.serving? length = some sizeClass then bucket.tail else bucket) := by
  rcases pool.rent_cases length with ⟨rfl, rental⟩ | ⟨other, serving, cases_left⟩
  · rw [rental, if_neg (by simp)]
    exact found
  · by_cases own : other = sizeClass
    · subst own
      rw [if_pos serving]
      rcases cases_left with ⟨missing, _⟩ | ⟨vacant, rental⟩ | ⟨slice, rest, filled, rental⟩
      · rw [found] at missing
        cases missing
      · rw [found] at vacant
        cases vacant
        rw [rental]
        exact found
      · rw [found] at filled
        cases filled
        rw [rental]
        exact buckets_setBucket_self found rest
    · have elsewhere : other.index ≠ sizeClass.index := by
        intro same
        cases other
        cases same
        exact own rfl
      rw [serving, if_neg (by simpa using own)]
      rcases cases_left with ⟨_, rental⟩ | ⟨_, rental⟩ | ⟨_, rest, _, rental⟩ <;> rw [rental]
      · exact found
      · exact found
      · exact (buckets_setBucket_of_ne elsewhere rest).trans found

theorem exists_bucket_giveBack {index : Nat} {bucket : List Slice}
    (found : pool.buckets[index]? = some bucket) (slice : Slice) :
    ∃ added, (pool.giveBack slice).1.buckets[index]? = some (bucket ++ added) := by
  have unchanged : ∃ added, pool.buckets[index]? = some (bucket ++ added) :=
    ⟨[], by rw [found, List.append_nil]⟩
  rcases pool.giveBack_cases slice with
    ⟨_, dropped⟩ | ⟨sizeClass, slices, _, taken, ⟨_, kept⟩ | ⟨_, dropped⟩⟩
  · rw [dropped]
    exact unchanged
  · rw [kept]
    by_cases own : sizeClass.index = index
    · subst own
      rw [found] at taken
      cases taken
      exact ⟨[slice], buckets_setBucket_self found _⟩
    · rw [buckets_setBucket_of_ne own]
      exact unchanged
  · rw [dropped]
    exact unchanged

/-- A request takes the first slice out of a bucket if it wants one of its class, and adds slices at
its end at most. -/
theorem exists_bucket_serve {sizeClass : SizeClass} {bucket : List Slice}
    (found : pool.buckets[sizeClass.index]? = some bucket) (request : PoolRequest) :
    ∃ added, (pool.serve request).2.buckets[sizeClass.index]? =
      some ((if request.asks sizeClass then bucket.tail else bucket) ++ added) := by
  cases request with
  | rent length =>
      refine ⟨[], ?_⟩
      simp only [List.append_nil, PoolRequest.asks, decide_eq_true_eq]
      exact bucket_rent found length
  | giveBack slice => exact exists_bucket_giveBack found slice

/-- After as many requests of its class as there are slices before it, a slice is the first one of
its bucket. -/
theorem exists_first_afterRequests {sizeClass : SizeClass} {front back : List Slice} {slice : Slice}
    (found : pool.buckets[sizeClass.index]? = some (front ++ slice :: back))
    {requests : List PoolRequest} (count : requests.countP (·.asks sizeClass) = front.length) :
    ∃ rest, (pool.afterRequests requests).buckets[sizeClass.index]? = some (slice :: rest) := by
  induction requests generalizing pool front back with
  | nil =>
      have none_before : front = [] := List.length_eq_zero_iff.mp count.symm
      rw [none_before] at found
      exact ⟨back, found⟩
  | cons request rest ih =>
      obtain ⟨added, next⟩ := exists_bucket_serve found request
      cases asked : request.asks sizeClass with
      | true =>
          rw [List.countP_cons_of_pos asked] at count
          obtain ⟨first, others, rfl⟩ := List.exists_cons_of_length_eq_add_one count.symm
          rw [asked, if_pos rfl, List.cons_append, List.tail_cons, List.append_assoc,
            List.cons_append] at next
          exact ih next (Nat.succ.inj count)
      | false =>
          rw [List.countP_cons_of_neg (by simp [asked])] at count
          rw [asked, if_neg (by simp), List.append_assoc, List.cons_append] at next
          exact ih next count

/-- A slice with the memory of a class is put at the end of the bucket of that class, unless the
bucket is full. -/
theorem Filed.giveBack_home {limits : PoolLimits} (filed : pool.Filed limits)
    {sizeClass : SizeClass} (inside : sizeClass.index < pool.bucketCount) {slice : Slice}
    (home : slice.capacity = sizeClass.capacity) :
    ∃ bucket, pool.buckets[sizeClass.index]? = some bucket ∧
      pool.giveBack slice =
        if bucket.length < limits.bucketCapacity then
          (pool.setBucket sizeClass.index (bucket ++ [slice]), [])
        else
          (pool, [.bucketFull]) := by
  have filing : SizeClass.filing? slice.capacity = some sizeClass :=
    home ▸ sizeClass.filing?_capacity
  rcases pool.giveBack_cases slice with
    ⟨missing, _⟩ | ⟨other, bucket, filing_other, found, ending⟩
  · have outside := List.getElem?_eq_none_iff.mp (missing sizeClass filing)
    exact absurd inside (Nat.not_lt.mpr outside)
  · cases filing.symm.trans filing_other
    rw [filed.same_limits] at ending
    refine ⟨bucket, found, ?_⟩
    rcases ending with ⟨room, step⟩ | ⟨full, step⟩
    · rw [step, if_pos room]
    · rw [step, if_neg (Nat.not_lt.mpr full)]

/-- A slice that was put at the end of a bucket is rented out as soon as those before it are. -/
theorem rent_afterRequests {sizeClass : SizeClass} {bucket : List Slice}
    (found : pool.buckets[sizeClass.index]? = some bucket) (slice : Slice)
    {requests : List PoolRequest} (count : requests.countP (·.asks sizeClass) = bucket.length)
    {wanted : Nat} (serving : SizeClass.serving? wanted = some sizeClass) :
    let current := (pool.setBucket sizeClass.index (bucket ++ [slice])).afterRequests requests
    (current.rent wanted).slice = slice.resize wanted 0 ∧
      (current.rent wanted).records = [.reused sizeClass.index] := by
  intro current
  have stored := buckets_setBucket_self found (bucket ++ [slice])
  obtain ⟨rest, first⟩ := exists_first_afterRequests stored count
  rcases current.rent_cases wanted with
    ⟨rfl, _⟩ | ⟨other, serving_other, ⟨missing, _⟩ | ⟨vacant, _⟩ | ⟨taken, left, filled, rental⟩⟩
  · cases serving
  · cases serving.symm.trans serving_other
    cases missing.symm.trans first
  · cases serving.symm.trans serving_other
    cases vacant.symm.trans first
  · cases serving.symm.trans serving_other
    cases filled.symm.trans first
    rw [rental]
    exact ⟨rfl, rfl⟩

end Pool

namespace PoolSession

/-- Whether a command lets no slice but the pool's own come to it: nothing is made outside, no slice
outgrows its memory, and what is rented is empty or has a bucket. -/
def confines (session : PoolSession) (name : String) : PoolCommand → Bool
  | .rent length | .lease length | .burst length _ =>
      (SizeClass.serving? length).all (·.index < session.pool.bucketCount)
  | .allocate _ _ _ => false
  | .resize length _ => (session.slices.find? name).all (length ≤ ·.capacity)
  | _ => true

/-- Whether all commands of a run let no slice but the pool's own come to it. -/
def confined (session : PoolSession) : List (String × PoolCommand) → Bool
  | [] => true
  | (name, command) :: rest =>
      session.confines name command && confined (session.step name command).session rest

/-- All slices, inside and outside of the pool, have just the memory of a class, or none. -/
def Native (session : PoolSession) : Prop :=
  session.Holds Pool.Pure Slice.Native

theorem native_of_create {limits : PoolLimits} {pool : Pool}
    (created : Pool.create limits = .ok pool) : (PoolSession.mk pool {} {}).Native :=
  Holds.fresh (Pool.pure_create created)

namespace Native

variable {session : PoolSession}

theorem upheld : Upheld Pool.Pure Slice.Native where
  rent clean length := clean.rent length
  giveBack clean native := clean.giveBack native
  fill native _ := native
  write native _ _ := native
  empty := .inl rfl

theorem clean (native : session.Native) : session.pool.Pure :=
  native.pool

theorem of_mem_handed (native : session.Native) {name : String} {command : PoolCommand}
    (confines : session.confines name command) {slice : Slice}
    (member : slice ∈ session.handed name command) : slice.Native := by
  cases command with
  | rent length | lease length =>
      rw [List.mem_singleton.mp member]
      exact native.clean.native_rent confines
  | allocate capacity length byte => cases confines
  | resize length byte =>
      obtain ⟨older, present, rfl⟩ := List.mem_map.mp member
      have found := Option.mem_toList.mp present
      rw [PoolSession.confines, found] at confines
      have kept : (older.resize length byte).capacity = older.capacity :=
        Nat.max_eq_left (of_decide_eq_true confines)
      rw [Slice.Native, kept]
      exact native.slices.of_find? found
  | burst length times => exact native.clean.native_of_mem_rentMany confines member
  | _ => cases member

theorem after (native : session.Native) {commands : List (String × PoolCommand)}
    (confined : session.confined commands) : (session.after commands).Native := by
  induction commands generalizing session with
  | nil => exact native
  | cons entry rest ih =>
      rw [PoolSession.confined, Bool.and_eq_true] at confined
      exact ih (Holds.step upheld native fun _ => native.of_mem_handed confined.1) confined.2

theorem finish (native : session.Native) : session.finish.1.Native :=
  Holds.finish upheld native

end Native

/-- Whatever is done with a pool, as long as no foreign slice comes to it and what is rented is
empty or has a bucket: the slices in a bucket have just the capacity of its class, also after all
leases have ended. A slice that is rented from a class has that capacity, whether it was made or
used before; and whenever it comes back, whatever bytes it holds by then, by itself or at the end of
a lease, it is put at the end of the bucket of that class, unless the bucket is full. There it stays
until as many slices of the class are rented as are before it, whatever else is asked of the pool in
between, and is rented next. -/
theorem rented_comes_home (limits : PoolLimits) (room : 0 < limits.bucketCapacity) :
    ∃ pool, Pool.create limits = .ok pool ∧
      ∀ commands, (PoolSession.mk pool {} {}).confined commands →
        let session := (PoolSession.mk pool {} {}).after commands
        session.pool.Pure ∧ session.finish.1.pool.Pure ∧
        ∀ length sizeClass, SizeClass.serving? length = some sizeClass →
          sizeClass.index < session.pool.bucketCount →
          (session.pool.rent length).slice.capacity = sizeClass.capacity ∧
          ∀ more, session.confined more → ∀ slice : Slice, slice.capacity = sizeClass.capacity →
            let later := (session.after more).pool
            ∃ bucket, later.buckets[sizeClass.index]? = some bucket ∧
              (Lease.mk slice).finish later = later.giveBack slice ∧
              (later.giveBack slice =
                if bucket.length < limits.bucketCapacity then
                  (later.setBucket sizeClass.index (bucket ++ [slice]), [])
                else
                  (later, [.bucketFull])) ∧
              (bucket.length < limits.bucketCapacity →
                ∀ requests, requests.countP (·.asks sizeClass) = bucket.length →
                ∀ wanted, SizeClass.serving? wanted = some sizeClass →
                  let next := ((later.giveBack slice).1.afterRequests requests).rent wanted
                  next.slice = slice.resize wanted 0 ∧
                    next.slice.capacity = sizeClass.capacity ∧
                    next.records = [.reused sizeClass.index]) := by
  have created : Pool.create limits =
      .ok ⟨limits, List.replicate (Pool.bucketsFor limits.maxLength) []⟩ :=
    if_neg (Nat.ne_of_gt room)
  refine ⟨_, created, fun commands confined => ?_⟩
  intro session
  have native : session.Native := (native_of_create created).after confined
  have sound : session.Sound limits := (sound_of_create created).after commands
  refine ⟨native.clean, native.finish.clean, fun length sizeClass serving inside => ?_⟩
  refine ⟨native.clean.capacity_rent serving inside, fun more confined_more slice home => ?_⟩
  intro later
  have later_sound : (session.after more).Sound limits := sound.after more
  have same_count : later.bucketCount = session.pool.bucketCount := by
    rw [later_sound.filed.same_count, sound.filed.same_count]
  obtain ⟨bucket, found, step⟩ := later_sound.filed.giveBack_home (same_count ▸ inside) home
  have some_memory : slice.capacity ≠ 0 := by
    rw [home, SizeClass.capacity_eq]
    exact Nat.ne_of_gt (Nat.two_pow_pos _)
  refine ⟨bucket, found, if_neg some_memory, step, ?_⟩
  intro free requests count wanted serving_wanted
  rw [step, if_pos free]
  obtain ⟨reused, reported⟩ := Pool.rent_afterRequests found slice count serving_wanted
  refine ⟨reused, ?_, reported⟩
  rw [reused, Slice.capacity_resize, home]
  exact Nat.max_eq_left (SizeClass.le_capacity_of_serving serving_wanted)

/-- Buckets up to capacity 4 that hold two slices each. A slice that was rented for 3 bytes comes
back behind another one of its class, and is rented again, for 4 bytes, after that one was. -/
theorem rented_comes_home_behind :
    let commands : List (String × PoolCommand) :=
      [("a", .rent 3), ("b", .lease 4), ("a", .fill 9), ("b", .endLease)]
    let sizeClass : SizeClass := ⟨2⟩
    0 < 2 ∧ ∃ pool, Pool.create ⟨4, 2⟩ = .ok pool ∧
      (PoolSession.mk pool {} {}).confined commands ∧
      let session := (PoolSession.mk pool {} {}).after commands
      SizeClass.serving? 3 = some sizeClass ∧ sizeClass.index < session.pool.bucketCount ∧
      session.slices.find? "a" = some ⟨[9, 9, 9], 4⟩ ∧
      (session.pool.rent 3).slice.capacity = 4 ∧
      ∃ bucket, session.pool.buckets[2]? = some bucket ∧ bucket = [⟨[0, 0, 0, 0], 4⟩] ∧
        (session.pool.giveBack ⟨[9, 9, 9], 4⟩).1 =
          session.pool.setBucket 2 (bucket ++ [⟨[9, 9, 9], 4⟩]) ∧
        (((session.pool.giveBack ⟨[9, 9, 9], 4⟩).1.afterRequests [.rent 1, .rent 4]).rent 4).slice =
          ⟨[9, 9, 9, 0], 4⟩ := by
  intro commands sizeClass
  have room : 0 < (⟨4, 2⟩ : PoolLimits).bucketCapacity := Nat.two_pos
  obtain ⟨pool, created, runs⟩ := rented_comes_home ⟨4, 2⟩ room
  cases created
  obtain ⟨_, _, rents⟩ := runs commands (by decide)
  obtain ⟨capacity, returns⟩ := rents 3 sizeClass (by decide) (by decide)
  obtain ⟨bucket, found, _, step, reuse⟩ := returns [] (by decide) ⟨[9, 9, 9], 4⟩ rfl
  have filled : bucket = [⟨[0, 0, 0, 0], 4⟩] := by
    have stored := found.symm
    exact Option.some.inj (stored.trans (by decide))
  subst filled
  refine ⟨Nat.two_pos, _, rfl, by decide, by decide, by decide, by decide, capacity, _, found, rfl,
    congrArg Prod.fst step, ?_⟩
  exact (reuse (by decide) [.rent 1, .rent 4] (by decide) 4 (by decide)).1

end PoolSession
end BulkTransfer
