import BulkTransfer.Proofs.Pool.Session

/-!
# Slices made outside of the buckets

A request that is too long for every bucket is met by a slice of just its length. Requests are
rounded up and capacities are rounded down, so between the capacity of the last bucket and twice as
much such a slice is still of the last bucket's class when it comes back. It is dropped exactly if
it is longer than that, or the last bucket is full.
-/

namespace BulkTransfer

theorem SizeClass.index_le_succ_of_serving {length : Nat} {served filed : SizeClass}
    (serving : serving? length = some served) (filing : filing? length = some filed) :
    served.index ≤ filed.index + 1 := by
  rw [index_le_iff_of_serving serving]
  have below : ¬ 2 ^ (filed.index + 1) ≤ length :=
    fun reached => Nat.not_succ_le_self _ ((le_index_iff_of_filing filing).mpr reached)
  exact Nat.le_of_not_le below

namespace Pool

variable {limits : PoolLimits} {pool : Pool} {length : Nat}

/-- A request is reported as too long exactly if it is rounded up to a class without a bucket. -/
theorem oversized_mem_rent (oversized : .oversized length ∈ (pool.rent length).records) :
    ∃ sizeClass, SizeClass.serving? length = some sizeClass ∧
      pool.bucketCount ≤ sizeClass.index ∧
      pool.rent length = ⟨.zeros length, pool, [.oversized length]⟩ := by
  rcases pool.rent_cases length with
    ⟨_, rental⟩ | ⟨sizeClass, serving, ⟨missing, rental⟩ | ⟨_, rental⟩ | ⟨_, _, _, rental⟩⟩
  · simp [rental] at oversized
  · exact ⟨sizeClass, serving, List.getElem?_eq_none_iff.mp missing, rental⟩
  · simp [rental] at oversized
  · simp [rental] at oversized

theorem pooledCount_of_getElem? {index : Nat} {bucket : List Slice}
    (found : pool.buckets[index]? = some bucket) : pool.pooledCount index = bucket.length := by
  rw [pooledCount, found]
  rfl

theorem setBucket_append_ne {index : Nat} {bucket : List Slice}
    (found : pool.buckets[index]? = some bucket) (slice : Slice) :
    pool.setBucket index (bucket ++ [slice]) ≠ pool := by
  intro same
  have inside : index < pool.buckets.length := (List.getElem?_eq_some_iff.mp found).1
  have stored := congrArg (fun pool : Pool => pool.buckets[index]?) same
  simp only [setBucket, List.getElem?_set_self inside, found, Option.some.injEq] at stored
  simp at stored

theorem Filed.giveBack_eq_self_iff (filed : pool.Filed limits) {slice : Slice}
    {sizeClass : SizeClass} (filing : SizeClass.filing? slice.capacity = some sizeClass) :
    (pool.giveBack slice).1 = pool ↔
      pool.bucketCount ≤ sizeClass.index ∨
        pool.pooledCount sizeClass.index = limits.bucketCapacity := by
  rcases pool.giveBack_cases slice with
    ⟨missing, step⟩ | ⟨other, bucket, filing_other, found, ending⟩
  · rw [step]
    exact iff_of_true rfl (.inl (List.getElem?_eq_none_iff.mp (missing sizeClass filing)))
  · cases filing.symm.trans filing_other
    have inside : ¬ pool.bucketCount ≤ sizeClass.index :=
      Nat.not_le.mpr (List.getElem?_eq_some_iff.mp found).1
    have bound := filed.bounded bucket (List.mem_of_getElem? found)
    rw [pooledCount_of_getElem? found]
    rw [filed.same_limits] at ending
    rcases ending with ⟨room, step⟩ | ⟨full, step⟩ <;> rw [step]
    · refine iff_of_false (setBucket_append_ne found slice) ?_
      exact not_or.mpr ⟨inside, Nat.ne_of_lt room⟩
    · exact iff_of_true rfl (.inr (Nat.le_antisymm bound full))

/-- A slice that was made for a request without a bucket is of the class of the last bucket, unless
it is of a greater class than any. -/
theorem Filed.giveBack_unserved_iff (filed : pool.Filed limits) {sizeClass : SizeClass}
    (serving : SizeClass.serving? length = some sizeClass)
    (missing : pool.bucketCount ≤ sizeClass.index) {slice : Slice}
    (just_enough : slice.capacity = length) :
    (pool.giveBack slice).1 = pool ↔
      2 ^ pool.bucketCount ≤ length ∨
        pool.pooledCount (pool.bucketCount - 1) = limits.bucketCapacity := by
  subst just_enough
  have some_memory : slice.capacity ≠ 0 := SizeClass.ne_zero_of_serving serving
  have filing := SizeClass.filing?_of_ne_zero some_memory
  have next : sizeClass.index ≤ slice.capacity.log2 + 1 :=
    SizeClass.index_le_succ_of_serving serving filing
  have reaches : pool.bucketCount ≤ slice.capacity.log2 ↔ 2 ^ pool.bucketCount ≤ slice.capacity :=
    SizeClass.le_index_iff_of_filing filing
  rw [filed.giveBack_eq_self_iff filing, ← reaches]
  refine or_congr_right' fun not_reached => ?_
  have inside : slice.capacity.log2 < pool.bucketCount := Nat.lt_of_not_le not_reached
  have last : pool.bucketCount - 1 = slice.capacity.log2 := by omega
  rw [last]

end Pool

namespace PoolSession

/-- Whatever was done with a pool: a request that is too long for its buckets is met by a slice of
zeros of just its length, and takes nothing from the pool. Whenever that slice comes back, whatever
it holds by then, by itself or at the end of a lease, it is dropped exactly if it reaches the class
after the last bucket's or the last bucket is full. -/
theorem oversized_dropped_iff (limits : PoolLimits) (room : 0 < limits.bucketCapacity) :
    ∃ pool, Pool.create limits = .ok pool ∧ ∀ commands length,
      let session := (PoolSession.mk pool {} {}).after commands
      let rental := session.pool.rent length
      .oversized length ∈ rental.records →
        rental.pool = session.pool ∧ rental.slice = .zeros length ∧
        ∀ more (slice : Slice), slice.capacity = rental.slice.capacity →
          let later := (session.after more).pool
          (Lease.mk slice).finish later = later.giveBack slice ∧
          ((later.giveBack slice).1 = later ↔
            2 ^ later.bucketCount ≤ length ∨
              later.pooledCount (later.bucketCount - 1) = limits.bucketCapacity) := by
  have created : Pool.create limits =
      .ok ⟨limits, List.replicate (Pool.bucketsFor limits.maxLength) []⟩ :=
    if_neg (Nat.ne_of_gt room)
  refine ⟨_, created, fun commands length => ?_⟩
  intro session rental oversized
  have sound : session.Sound limits := (sound_of_create created).after commands
  obtain ⟨sizeClass, serving, missing, unpooled⟩ := Pool.oversized_mem_rent oversized
  have met : rental = ⟨.zeros length, session.pool, [.oversized length]⟩ := unpooled
  rw [met]
  refine ⟨rfl, rfl, fun more slice same_capacity => ?_⟩
  intro later
  have later_sound : (session.after more).Sound limits := sound.after more
  have same_count : later.bucketCount = session.pool.bucketCount := by
    rw [later_sound.filed.same_count, sound.filed.same_count]
  have just_enough : slice.capacity = length := same_capacity.trans (Nat.zero_max length)
  have some_memory : slice.capacity ≠ 0 := just_enough ▸ SizeClass.ne_zero_of_serving serving
  refine ⟨if_neg some_memory, ?_⟩
  rw [← same_count] at missing
  exact later_sound.filed.giveBack_unserved_iff serving missing just_enough

/-- Buckets up to capacity 4 take in a slice that was made for a request of 5 bytes, since its
capacity is rounded down, but not one that was made for 9 bytes. -/
theorem oversized_dropped_iff_nine :
    0 < 1 ∧ ∃ pool, Pool.create ⟨4, 1⟩ = .ok pool ∧
      .oversized 5 ∈ (pool.rent 5).records ∧ .oversized 9 ∈ (pool.rent 9).records ∧
      (pool.giveBack (pool.rent 5).slice).1 ≠ pool ∧
      (pool.giveBack (pool.rent 9).slice).1 = pool := by
  have room : 0 < (⟨4, 1⟩ : PoolLimits).bucketCapacity := Nat.one_pos
  obtain ⟨pool, created, requests⟩ := oversized_dropped_iff ⟨4, 1⟩ room
  cases created
  have five := (requests [] 5 (by decide)).2.2 [] _ rfl
  have nine := (requests [] 9 (by decide)).2.2 [] _ rfl
  refine ⟨Nat.one_pos, _, rfl, by decide, by decide, ?_, ?_⟩
  · exact fun dropped => absurd (five.2.mp dropped) (by decide)
  · exact nine.2.mpr (.inl (by decide))

/-- A slice that was allocated since no bucket could serve it is not dropped when it comes back. -/
theorem oversized_pooled :
    ∃ pool, Pool.create ⟨4, 1⟩ = .ok pool ∧
      (pool.rent 5).records = [.oversized 5] ∧
      ((PoolSession.mk pool {} {}).after [("a", .rent 5), ("a", .giveBack)]).pool.buckets =
        [[], [], [⟨[0, 0, 0, 0, 0], 5⟩]] ∧
      ((PoolSession.mk pool {} {}).after [("a", .lease 5), ("a", .endLease)]).pool.buckets =
        [[], [], [⟨[0, 0, 0, 0, 0], 5⟩]] :=
  ⟨_, rfl, by decide, by decide, by decide⟩

end PoolSession
end BulkTransfer
