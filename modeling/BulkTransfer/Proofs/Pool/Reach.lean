import BulkTransfer.Proofs.Pool.History
import BulkTransfer.Proofs.Pool.Oversized

/-!
# Requests past the greatest length

The buckets of a pool end with the class that its greatest length falls into, and nothing compares a
request with the greatest length itself. So the pool reaches as far as the capacity of that class:
requests between the greatest length and there are served from the last bucket like any other, and
only those beyond are met by a slice of just their length.
-/

namespace BulkTransfer

theorem SizeClass.index_le_of_serving {shorter longer : Nat} {lower higher : SizeClass}
    (serving : serving? shorter = some lower) (serving_longer : serving? longer = some higher)
    (le : shorter ≤ longer) : lower.index ≤ higher.index := by
  rw [index_le_iff_of_serving serving]
  exact Nat.le_trans le ((index_le_iff_of_serving serving_longer).mp (Nat.le_refl _))

namespace PoolLimits

/-- Greatest length that is served from a bucket: the capacity of the class that the greatest length
of the limits falls into. -/
def reach (limits : PoolLimits) : Nat :=
  match SizeClass.serving? limits.maxLength with
  | none => 0
  | some sizeClass => sizeClass.capacity

variable {limits : PoolLimits}

theorem maxLength_eq_zero_of_serving (unserved : SizeClass.serving? limits.maxLength = none) :
    limits.maxLength = 0 := by
  apply Decidable.not_not.mp
  intro some_wanted
  cases unserved.symm.trans (SizeClass.serving?_of_ne_zero some_wanted)

theorem reach_of_serving {last : SizeClass}
    (serving : SizeClass.serving? limits.maxLength = some last) :
    limits.reach = 2 ^ last.index := by
  rw [reach, serving]
  exact last.capacity_eq

/-- A pool reaches its greatest length. -/
theorem maxLength_le_reach (limits : PoolLimits) : limits.maxLength ≤ limits.reach := by
  cases serving : SizeClass.serving? limits.maxLength with
  | none =>
      rw [maxLength_eq_zero_of_serving serving]
      exact Nat.zero_le _
  | some last =>
      rw [reach_of_serving serving]
      exact (SizeClass.index_le_iff_of_serving serving).mp (Nat.le_refl _)

/-- A pool reaches no further than its greatest length exactly if that is the capacity of a class,
or if the pool has no buckets. -/
theorem reach_eq_maxLength_iff :
    limits.reach = limits.maxLength ↔
      limits.maxLength = 0 ∨ ∃ exponent, limits.maxLength = 2 ^ exponent := by
  cases serving : SizeClass.serving? limits.maxLength with
  | none =>
      have nothing := maxLength_eq_zero_of_serving serving
      rw [reach, serving]
      exact iff_of_true nothing.symm (.inl nothing)
  | some last =>
      have reached := maxLength_le_reach limits
      rw [reach_of_serving serving] at reached ⊢
      constructor
      · exact fun same => .inr ⟨last.index, same.symm⟩
      · rintro (nothing | ⟨exponent, power⟩)
        · exact absurd nothing (SizeClass.ne_zero_of_serving serving)
        · have least : last.index ≤ exponent :=
            (SizeClass.index_le_iff_of_serving serving).mpr (Nat.le_of_eq power)
          apply Nat.le_antisymm _ reached
          rw [power]
          exact Nat.pow_le_pow_right Nat.two_pos least

end PoolLimits

namespace Pool.Filed

variable {limits : PoolLimits} {pool : Pool} {length : Nat} {sizeClass : SizeClass}

/-- A request finds no bucket exactly if it is out of reach. -/
theorem bucketCount_le_iff (filed : pool.Filed limits)
    (serving : SizeClass.serving? length = some sizeClass) :
    pool.bucketCount ≤ sizeClass.index ↔ limits.reach < length := by
  rw [filed.same_count, bucketsFor]
  cases greatest : SizeClass.serving? limits.maxLength with
  | none =>
      have some_wanted : length ≠ 0 := SizeClass.ne_zero_of_serving serving
      rw [PoolLimits.reach, greatest]
      exact iff_of_true (Nat.zero_le _) (Nat.pos_of_ne_zero some_wanted)
  | some last =>
      rw [PoolLimits.reach_of_serving greatest, ← Nat.not_le,
        ← SizeClass.index_le_iff_of_serving serving]
      exact Nat.not_le.symm

theorem last_of_serving (filed : pool.Filed limits)
    (serving : SizeClass.serving? length = some sizeClass) (past : limits.maxLength < length)
    (inside : length ≤ limits.reach) :
    sizeClass.index = pool.bucketCount - 1 ∧ sizeClass.capacity = limits.reach := by
  have found : ¬ pool.bucketCount ≤ sizeClass.index :=
    fun missing => Nat.not_lt.mpr inside ((filed.bucketCount_le_iff serving).mp missing)
  rw [filed.same_count, bucketsFor] at found ⊢
  cases greatest : SizeClass.serving? limits.maxLength with
  | none =>
      rw [greatest] at found
      exact absurd (Nat.zero_le _) found
  | some last =>
      rw [greatest] at found
      have rises : last.index ≤ sizeClass.index :=
        SizeClass.index_le_of_serving greatest serving (Nat.le_of_lt past)
      have same : sizeClass.index = last.index :=
        Nat.le_antisymm (Nat.le_of_lt_succ (Nat.lt_of_not_le found)) rises
      rw [SizeClass.capacity_eq, PoolLimits.reach_of_serving greatest, same]
      exact ⟨rfl, rfl⟩

/-- Past the greatest length a request is met from outside if it is out of reach, and otherwise from
the last bucket: with its first slice, or with a new one of its class. -/
theorem rent_past_cases (filed : pool.Filed limits) (past : limits.maxLength < length) :
    (limits.reach < length ∧ pool.rent length = ⟨.zeros length, pool, [.oversized length]⟩) ∨
    (length ≤ limits.reach ∧ pool.buckets[pool.bucketCount - 1]? = some [] ∧
      pool.rent length = ⟨⟨List.replicate length 0, limits.reach⟩, pool, []⟩) ∨
    (length ≤ limits.reach ∧ ∃ slice rest,
      pool.buckets[pool.bucketCount - 1]? = some (slice :: rest) ∧
      pool.rent length =
        ⟨slice.resize length 0, pool.setBucket (pool.bucketCount - 1) rest,
          [.reused (pool.bucketCount - 1)]⟩) := by
  have inside : ∀ {sizeClass : SizeClass} {bucket : List Slice},
      SizeClass.serving? length = some sizeClass →
      pool.buckets[sizeClass.index]? = some bucket → length ≤ limits.reach := by
    intro sizeClass bucket serving found
    have exists_bucket := (List.getElem?_eq_some_iff.mp found).1
    refine Nat.le_of_not_lt fun beyond => ?_
    exact Nat.not_le.mpr exists_bucket ((filed.bucketCount_le_iff serving).mpr beyond)
  rcases pool.rent_cases length with
    ⟨rfl, _⟩ | ⟨sizeClass, serving, ⟨missing, rental⟩ | ⟨vacant, rental⟩ |
      ⟨slice, rest, found, rental⟩⟩
  · exact absurd past (Nat.not_lt_zero _)
  · have beyond := (filed.bucketCount_le_iff serving).mp (List.getElem?_eq_none_iff.mp missing)
    exact .inl ⟨beyond, rental⟩
  · have reached := inside serving vacant
    obtain ⟨last, widest⟩ := filed.last_of_serving serving past reached
    rw [widest, Slice.resize_ofCapacity reached] at rental
    exact .inr (.inl ⟨reached, last ▸ vacant, rental⟩)
  · have reached := inside serving found
    obtain ⟨last, _⟩ := filed.last_of_serving serving past reached
    rw [last] at found rental
    exact .inr (.inr ⟨reached, slice, rest, found, rental⟩)

end Pool.Filed

theorem Pool.buckets_setBucket_rest_ne {pool : Pool} {index : Nat} {slice : Slice}
    {rest : List Slice} (found : pool.buckets[index]? = some (slice :: rest)) :
    (pool.setBucket index rest).buckets ≠ pool.buckets := by
  intro same
  have inside : index < pool.buckets.length := (List.getElem?_eq_some_iff.mp found).1
  have stored := congrArg (·[index]?) same
  simp only [setBucket, List.getElem?_set_self inside, found, Option.some.injEq] at stored
  exact List.cons_ne_self slice rest stored.symm

namespace PoolSession

/-- Whatever was done with a pool, a request past its greatest length takes nothing from the buckets
and is met by zeros in memory of just their size exactly if it is out of reach, or as long as the
pool reaches while the last bucket is empty. Only a request out of reach is reported; any other is
served from the last bucket. The pool reaches past its greatest length unless that is the capacity
of a class. -/
theorem past_maxLength_unpooled_iff (limits : PoolLimits) (room : 0 < limits.bucketCapacity) :
    (limits.reach = limits.maxLength ↔
      limits.maxLength = 0 ∨ ∃ exponent, limits.maxLength = 2 ^ exponent) ∧
    ∃ pool, Pool.create limits = .ok pool ∧ ∀ commands length, limits.maxLength < length →
      let now := ((PoolSession.mk pool {} {}).after commands).pool
      let rental := now.rent length
      (rental.pool.buckets = now.buckets ∧ rental.slice = ⟨List.replicate length 0, length⟩ ↔
        limits.reach < length ∨
          length = limits.reach ∧ now.buckets[now.bucketCount - 1]? = some []) ∧
      (.oversized length ∈ rental.records ↔ limits.reach < length) ∧
      (length ≤ limits.reach → ∃ last, now.buckets[now.bucketCount - 1]? = some last ∧
        (last = [] →
          rental.pool = now ∧ rental.slice = ⟨List.replicate length 0, limits.reach⟩) ∧
        ∀ slice rest, last = slice :: rest →
          rental.pool = now.setBucket (now.bucketCount - 1) rest ∧
            rental.slice = slice.resize length 0) := by
  have created : Pool.create limits =
      .ok ⟨limits, List.replicate (Pool.bucketsFor limits.maxLength) []⟩ :=
    if_neg (Nat.ne_of_gt room)
  refine ⟨PoolLimits.reach_eq_maxLength_iff, _, created, fun commands length past => ?_⟩
  intro now rental
  have filed : now.Filed limits := ((sound_of_create created).after commands).filed
  rcases filed.rent_past_cases past with
    ⟨beyond, met⟩ | ⟨inside, vacant, met⟩ | ⟨inside, slice, rest, found, met⟩
  · have met : rental = ⟨.zeros length, now, [.oversized length]⟩ := met
    rw [met]
    refine ⟨iff_of_true ⟨rfl, Slice.zeros_eq length⟩ (.inl beyond), iff_of_true ?_ beyond, ?_⟩
    · exact List.mem_cons_self
    · exact fun inside => absurd beyond (Nat.not_lt.mpr inside)
  · have met : rental = ⟨⟨List.replicate length 0, limits.reach⟩, now, []⟩ := met
    have within : ¬ limits.reach < length := Nat.not_lt.mpr inside
    rw [met, vacant]
    refine ⟨⟨?_, ?_⟩, iff_of_false (List.not_mem_nil) within, fun _ => ⟨[], rfl, ?_, ?_⟩⟩
    · rintro ⟨_, exact_size⟩
      exact .inr ⟨(Slice.mk.inj exact_size).2.symm, rfl⟩
    · rintro (beyond | ⟨same, _⟩)
      · exact absurd beyond within
      · exact ⟨rfl, congrArg _ same.symm⟩
    · exact fun _ => ⟨rfl, rfl⟩
    · exact fun _ _ impossible => nomatch impossible
  · have met : rental = ⟨slice.resize length 0, now.setBucket (now.bucketCount - 1) rest,
        [.reused (now.bucketCount - 1)]⟩ := met
    have within : ¬ limits.reach < length := Nat.not_lt.mpr inside
    rw [met, found]
    refine ⟨iff_of_false ?_ ?_, iff_of_false ?_ within, fun _ => ⟨_, rfl, ?_, ?_⟩⟩
    · exact fun unpooled => Pool.buckets_setBucket_rest_ne found unpooled.1
    · rintro (beyond | ⟨_, vacant⟩)
      · exact within beyond
      · cases vacant
    · simp
    · exact fun impossible => nomatch impossible
    · rintro _ _ ⟨⟩
      exact ⟨rfl, rfl⟩

/-- A pool for five bytes reaches as far as eight: a slice of eight bytes that came from outside is
handed out again for six, a request of eight is met by just eight zeros once it is gone, and nine
are out of reach. -/
theorem past_maxLength_unpooled_iff_five :
    0 < PoolLimits.bucketCapacity ⟨5, 1⟩ ∧ ∃ pool, Pool.create ⟨5, 1⟩ = .ok pool ∧
      let now := ((PoolSession.mk pool {} {}).after
        [("a", .allocate 8 8 255), ("a", .giveBack)]).pool
      (now.rent 6).pool.buckets ≠ now.buckets ∧
      (now.rent 9).pool.buckets = now.buckets ∧
      (now.rent 9).slice = ⟨List.replicate 9 0, 9⟩ ∧
      (pool.rent 8).slice = ⟨List.replicate 8 0, 8⟩ := by
  have room : 0 < PoolLimits.bucketCapacity ⟨5, 1⟩ := Nat.one_pos
  obtain ⟨_, pool, created, requests⟩ := past_maxLength_unpooled_iff ⟨5, 1⟩ room
  cases created
  let commands : List (String × PoolCommand) := [("a", .allocate 8 8 255), ("a", .giveBack)]
  obtain ⟨_, _, last_bucket⟩ := requests commands 6 (by decide)
  obtain ⟨nine, _, _⟩ := requests commands 9 (by decide)
  obtain ⟨eight, _, _⟩ := requests [] 8 (by decide)
  have nine_unpooled := nine.mpr (.inl (by decide))
  have eight_unpooled := eight.mpr (.inr (by decide))
  obtain ⟨last, found, _, taken⟩ := last_bucket (by decide)
  have held : last = [⟨List.replicate 8 255, 8⟩] := Option.some.inj (found.symm.trans (by decide))
  have used_up := congrArg Pool.buckets (taken _ _ held).1
  refine ⟨room, _, rfl, fun same => ?_, nine_unpooled.1, nine_unpooled.2, eight_unpooled.2⟩
  exact absurd (used_up.symm.trans same) (by decide)

/-- A request past the greatest length is not always met by fresh zeros of just its length: it may
take a slice out of the last bucket, with what that slice holds. -/
theorem past_maxLength_reused :
    ∃ pool, Pool.create ⟨5, 1⟩ = .ok pool ∧ (⟨5, 1⟩ : PoolLimits).maxLength < 6 ∧
      let now := ((PoolSession.mk pool {} {}).after
        [("a", .allocate 8 8 255), ("a", .giveBack)]).pool
      now.buckets = [[], [], [], [⟨List.replicate 8 255, 8⟩]] ∧
      (now.rent 6).pool.buckets = [[], [], [], []] ∧
      (now.rent 6).slice = ⟨List.replicate 6 255, 8⟩ :=
  ⟨_, rfl, by decide, by decide, by decide, by decide⟩

end PoolSession

end BulkTransfer
