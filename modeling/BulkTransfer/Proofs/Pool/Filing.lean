import BulkTransfer.Pool.Basic
import Mathlib.Algebra.Order.BigOperators.Group.List
import Mathlib.Algebra.Order.Ring.Nat
import Mathlib.Data.Nat.Log

/-!
# What the buckets of a pool hold

A slice lies in the bucket of the greatest class that its capacity reaches, and a request is served
from the least class that reaches its length. So whatever is found in the bucket of a request has
room for it, and the number and the capacity of all slices held are bounded.
-/

namespace BulkTransfer

namespace Slice

/-- A slice whose bytes lie within its memory. -/
def Fits (slice : Slice) : Prop :=
  slice.length ≤ slice.capacity

/-- A slice that belongs in the bucket of a class. -/
structure Belongs (slice : Slice) (index : Nat) : Prop where
  /-- The slice can serve every request of the class. -/
  le_capacity : 2 ^ index ≤ slice.capacity
  /-- The slice cannot serve every request of the next class. -/
  capacity_lt : slice.capacity < 2 ^ (index + 1)
  /-- The bytes lie within the memory. -/
  fits : slice.Fits

@[simp]
theorem capacity_resize (slice : Slice) (length : Nat) (byte : UInt8) :
    (slice.resize length byte).capacity = max slice.capacity length := rfl

theorem fits_resize (slice : Slice) (length : Nat) (byte : UInt8) :
    (slice.resize length byte).Fits := by
  rw [Fits, length_resize, capacity_resize]
  exact Nat.le_max_right _ _

theorem Fits.fill {slice : Slice} (fits : slice.Fits) (byte : UInt8) : (slice.fill byte).Fits := by
  rw [Fits, length_fill]
  exact fits

theorem Fits.write {slice : Slice} (fits : slice.Fits) (position : Nat) (bytes : Bytes) :
    (slice.write position bytes).Fits := by
  rw [Fits, length_write]
  exact fits

end Slice

namespace SizeClass

theorem capacity_eq (sizeClass : SizeClass) : sizeClass.capacity = 2 ^ sizeClass.index :=
  Nat.one_shiftLeft _

/-- A length is served by a class exactly if the class is the least one large enough. -/
theorem index_le_iff_of_serving {length index : Nat} {sizeClass : SizeClass}
    (serving : serving? length = some sizeClass) :
    sizeClass.index ≤ index ↔ length ≤ 2 ^ index := by
  rw [serving?] at serving
  split at serving
  · cases serving
  · next positive =>
      have below : length < 2 ^ (length.log2 + 1) := Nat.lt_log2_self
      have above : 2 ^ length.log2 ≤ length := Nat.log2_self_le positive
      rw [Nat.one_shiftLeft] at serving
      split at serving
      · next exact_power =>
          cases serving
          rw [← Nat.pow_le_pow_iff_right Nat.one_lt_two, exact_power]
      · next between =>
          cases serving
          constructor
          · intro larger
            exact Nat.le_trans (Nat.le_of_lt below) (Nat.pow_le_pow_right Nat.two_pos larger)
          · intro fits
            have strict : 2 ^ length.log2 < 2 ^ index :=
              Nat.lt_of_lt_of_le (Nat.lt_of_le_of_ne above between) fits
            exact (Nat.pow_lt_pow_iff_right Nat.one_lt_two).mp strict

/-- A capacity is filed in the greatest class that is not larger. -/
theorem le_index_iff_of_filing {capacity index : Nat} {sizeClass : SizeClass}
    (filing : filing? capacity = some sizeClass) :
    index ≤ sizeClass.index ↔ 2 ^ index ≤ capacity := by
  rw [filing?] at filing
  split at filing
  · cases filing
  · next positive =>
      cases filing
      exact Nat.le_log2 positive

theorem ne_zero_of_serving {length : Nat} {sizeClass : SizeClass}
    (serving : serving? length = some sizeClass) : length ≠ 0 := by
  rintro rfl
  cases serving

theorem ne_zero_of_filing {capacity : Nat} {sizeClass : SizeClass}
    (filing : filing? capacity = some sizeClass) : capacity ≠ 0 := by
  rintro rfl
  cases filing

theorem filing?_of_ne_zero {capacity : Nat} (some_memory : capacity ≠ 0) :
    filing? capacity = some ⟨capacity.log2⟩ :=
  if_neg some_memory

theorem serving?_of_ne_zero {length : Nat} (some_wanted : length ≠ 0) :
    serving? length = some ⟨Nat.clog 2 length⟩ := by
  have served : (serving? length).isSome := by
    rw [serving?, if_neg some_wanted]
    split <;> rfl
  obtain ⟨sizeClass, serving⟩ := Option.isSome_iff_exists.mp served
  have same : sizeClass.index = Nat.clog 2 length := by
    apply eq_of_forall_ge_iff
    intro index
    rw [index_le_iff_of_serving serving, Nat.clog_le_iff_le_pow Nat.one_lt_two]
  rw [serving, ← same]

theorem belongs_of_filing {slice : Slice} {sizeClass : SizeClass}
    (filing : filing? slice.capacity = some sizeClass) (fits : slice.Fits) :
    slice.Belongs sizeClass.index := by
  have reached : 2 ^ sizeClass.index ≤ slice.capacity :=
    (le_index_iff_of_filing filing).mp (Nat.le_refl sizeClass.index)
  have next : ¬ 2 ^ (sizeClass.index + 1) ≤ slice.capacity :=
    fun larger => Nat.not_succ_le_self _ ((le_index_iff_of_filing filing).mpr larger)
  exact ⟨reached, Nat.lt_of_not_le next, fits⟩

theorem le_capacity_of_belongs {length : Nat} {sizeClass : SizeClass} {slice : Slice}
    (serving : serving? length = some sizeClass) (belongs : slice.Belongs sizeClass.index) :
    length ≤ slice.capacity := by
  have enough := (index_le_iff_of_serving serving).mp (Nat.le_refl sizeClass.index)
  exact Nat.le_trans enough belongs.le_capacity

theorem capacity_le_of_serving {length : Nat} {sizeClass : SizeClass}
    (serving : serving? length = some sizeClass) (short : length < 2 ^ 32) :
    sizeClass.capacity ≤ 2 ^ 32 := by
  have small : sizeClass.index ≤ 32 :=
    (index_le_iff_of_serving serving).mpr (Nat.le_of_lt short)
  rw [capacity_eq]
  exact Nat.pow_le_pow_right Nat.two_pos small

end SizeClass

namespace Pool

/-- A pool with the buckets that its limits ask for, none of them too full, in which each slice lies
where it belongs. -/
structure Filed (limits : PoolLimits) (pool : Pool) : Prop where
  /-- The limits stay the same. -/
  same_limits : pool.limits = limits
  /-- There is a bucket for each class up to that of the greatest length. -/
  same_count : pool.bucketCount = bucketsFor limits.maxLength
  /-- Buckets hold no more slices than they can. -/
  bounded : ∀ bucket ∈ pool.buckets, bucket.length ≤ limits.bucketCapacity
  /-- Slices lie where they belong. -/
  belongs : ∀ index (bucket : List Slice), pool.buckets[index]? = some bucket →
    ∀ slice ∈ bucket, slice.Belongs index

theorem filed_create {limits : PoolLimits} {pool : Pool} (created : create limits = .ok pool) :
    pool.Filed limits := by
  rw [create] at created
  split at created
  · cases created
  · cases created
    refine ⟨rfl, List.length_replicate, ?_, ?_⟩
    · intro bucket member
      rw [List.eq_of_mem_replicate member]
      exact Nat.zero_le _
    · intro index bucket found slice member
      rw [List.eq_of_mem_replicate (List.mem_of_getElem? found)] at member
      cases member

/-- Renting gives an empty slice, or takes one from the bucket of the request, or makes one. -/
theorem rent_cases (pool : Pool) (length : Nat) :
    (length = 0 ∧ pool.rent length = ⟨.empty, pool, []⟩) ∨
    ∃ sizeClass, SizeClass.serving? length = some sizeClass ∧
      ((pool.buckets[sizeClass.index]? = none ∧
          pool.rent length = ⟨.zeros length, pool, [.oversized length]⟩) ∨
        (pool.buckets[sizeClass.index]? = some [] ∧
          pool.rent length =
            ⟨(Slice.ofCapacity sizeClass.capacity).resize length 0, pool, []⟩) ∨
        ∃ slice rest, pool.buckets[sizeClass.index]? = some (slice :: rest) ∧
          pool.rent length =
            ⟨slice.resize length 0, pool.setBucket sizeClass.index rest,
              [.reused sizeClass.index]⟩) := by
  rw [rent]
  cases serving : SizeClass.serving? length with
  | none =>
      refine .inl ⟨?_, rfl⟩
      rw [SizeClass.serving?] at serving
      split at serving
      · assumption
      · split at serving <;> cases serving
  | some sizeClass =>
      refine .inr ⟨sizeClass, rfl, ?_⟩
      dsimp only
      rcases pool.buckets[sizeClass.index]? with _ | _ | ⟨slice, rest⟩
      · exact .inl ⟨rfl, rfl⟩
      · exact .inr (.inl ⟨rfl, rfl⟩)
      · exact .inr (.inr ⟨slice, rest, rfl, rfl⟩)

/-- A slice that is given back is dropped for want of a bucket, comes last in the bucket it is filed
in, or is dropped because that bucket is full. -/
theorem giveBack_cases (pool : Pool) (slice : Slice) :
    ((∀ sizeClass, SizeClass.filing? slice.capacity = some sizeClass →
        pool.buckets[sizeClass.index]? = none) ∧
      pool.giveBack slice = (pool, [.unpoolable slice.capacity])) ∨
    ∃ sizeClass slices, SizeClass.filing? slice.capacity = some sizeClass ∧
      pool.buckets[sizeClass.index]? = some slices ∧
      ((slices.length < pool.limits.bucketCapacity ∧
          pool.giveBack slice = (pool.setBucket sizeClass.index (slices ++ [slice]), [])) ∨
        (pool.limits.bucketCapacity ≤ slices.length ∧
          pool.giveBack slice = (pool, [.bucketFull]))) := by
  rw [giveBack]
  cases filing : SizeClass.filing? slice.capacity with
  | none => exact .inl ⟨by simp, rfl⟩
  | some sizeClass =>
      dsimp only
      cases found : pool.buckets[sizeClass.index]? with
      | none => exact .inl ⟨fun other same => Option.some.inj same ▸ found, rfl⟩
      | some slices =>
          refine .inr ⟨sizeClass, slices, rfl, found, ?_⟩
          dsimp only
          split
          · next room => exact .inl ⟨room, rfl⟩
          · next full => exact .inr ⟨Nat.le_of_not_lt full, rfl⟩

namespace Filed

variable {limits : PoolLimits} {pool : Pool}

theorem setBucket (filed : pool.Filed limits) {index : Nat} {slices : List Slice}
    (room : slices.length ≤ limits.bucketCapacity)
    (fitting : ∀ slice ∈ slices, slice.Belongs index) :
    (pool.setBucket index slices).Filed limits := by
  refine ⟨filed.same_limits, ?_, ?_, ?_⟩
  · rw [bucketCount_setBucket, filed.same_count]
  · intro bucket member
    rcases List.mem_or_eq_of_mem_set member with old | rfl
    · exact filed.bounded bucket old
    · exact room
  · intro other bucket found slice member
    rw [Pool.setBucket, List.getElem?_set] at found
    by_cases same : index = other
    · rw [if_pos same] at found
      split at found
      · cases found
        exact same ▸ fitting slice member
      · cases found
    · rw [if_neg same] at found
      exact filed.belongs other bucket found slice member

/-- Renting keeps slices where they belong. -/
theorem rent (filed : pool.Filed limits) (length : Nat) :
    (pool.rent length).pool.Filed limits := by
  rcases pool.rent_cases length with
    ⟨_, rental⟩ | ⟨sizeClass, _, ⟨_, rental⟩ | ⟨_, rental⟩ | ⟨slice, rest, found, rental⟩⟩ <;>
    rw [rental]
  · exact filed
  · exact filed
  · exact filed
  · have room := filed.bounded _ (List.mem_of_getElem? found)
    apply filed.setBucket (Nat.le_of_succ_le room)
    exact fun other member => filed.belongs _ _ found other (List.mem_cons_of_mem _ member)

theorem giveBack (filed : pool.Filed limits) {slice : Slice} (fits : slice.Fits) :
    (pool.giveBack slice).1.Filed limits := by
  rcases pool.giveBack_cases slice with
    ⟨_, dropped⟩ | ⟨sizeClass, slices, filing, found, ⟨room, kept⟩ | ⟨_, dropped⟩⟩
  · rw [dropped]
    exact filed
  · rw [kept]
    rw [filed.same_limits] at room
    apply filed.setBucket
    · rw [List.length_append]
      exact room
    · intro other member
      rcases List.mem_append.mp member with old | new
      · exact filed.belongs _ _ found other old
      · rw [List.mem_singleton.mp new]
        exact SizeClass.belongs_of_filing filing fits
  · rw [dropped]
    exact filed

end Filed

/-- Capacity of all slices that a pool holds. -/
def heldCapacity (pool : Pool) : Nat :=
  (pool.buckets.flatten.map Slice.capacity).sum

theorem sum_capacity_le {room : Nat} {buckets : List (List Slice)} (start : Nat)
    (bounded : ∀ bucket ∈ buckets, bucket.length ≤ room)
    (small : ∀ index (bucket : List Slice), buckets[index]? = some bucket →
      ∀ slice ∈ bucket, slice.capacity ≤ 2 ^ (start + index + 1) - 1) :
    (buckets.flatten.map Slice.capacity).sum ≤
      room * ((List.range' start buckets.length).map fun index => 2 ^ (index + 1) - 1).sum := by
  induction buckets generalizing start with
  | nil => exact Nat.le_refl 0
  | cons bucket rest ih =>
      have later := ih (start + 1)
        (fun other member => bounded other (List.mem_cons_of_mem _ member))
        (fun index other found slice member => by
          have below := small (index + 1) other found slice member
          rwa [Nat.add_right_comm start 1 index])
      have first : (bucket.map Slice.capacity).sum ≤ room * (2 ^ (start + 1) - 1) := by
        have each : ∀ capacity ∈ bucket.map Slice.capacity, capacity ≤ 2 ^ (start + 1) - 1 := by
          intro capacity member
          obtain ⟨slice, inside, rfl⟩ := List.mem_map.mp member
          exact small 0 bucket rfl slice inside
        have total := List.sum_le_card_nsmul _ _ each
        rw [List.length_map, nsmul_eq_mul, Nat.cast_id] at total
        have full := bounded bucket List.mem_cons_self
        exact Nat.le_trans total (Nat.mul_le_mul_right _ full)
      rw [List.flatten_cons, List.map_append, List.sum_append, List.length_cons, List.range'_succ,
        List.map_cons, List.sum_cons, Nat.mul_add]
      exact Nat.add_le_add first later

/-- A pool holds a bounded capacity. -/
theorem Filed.heldCapacity_le {limits : PoolLimits} {pool : Pool} (filed : pool.Filed limits) :
    pool.heldCapacity ≤ limits.bucketCapacity *
      ((List.range (bucketsFor limits.maxLength)).map fun index => 2 ^ (index + 1) - 1).sum := by
  rw [← filed.same_count, bucketCount, List.range_eq_range']
  apply sum_capacity_le 0 filed.bounded
  intro index bucket found slice member
  rw [Nat.zero_add]
  exact Nat.le_pred_of_lt (filed.belongs index bucket found slice member).capacity_lt

theorem length_rent (pool : Pool) (length : Nat) :
    (pool.rent length).slice.length = length ∧ (pool.rent length).slice.Fits := by
  rcases pool.rent_cases length with
    ⟨empty, rental⟩ | ⟨sizeClass, _, ⟨_, rental⟩ | ⟨_, rental⟩ | ⟨slice, rest, _, rental⟩⟩ <;>
    rw [rental]
  · exact ⟨empty.symm, Nat.le_refl 0⟩
  · exact ⟨Slice.length_resize _ _ _, Slice.fits_resize _ _ _⟩
  · exact ⟨Slice.length_resize _ _ _, Slice.fits_resize _ _ _⟩
  · exact ⟨Slice.length_resize _ _ _, Slice.fits_resize _ _ _⟩

theorem length_of_mem_rentMany {pool : Pool} {length times : Nat} {slice : Slice}
    (member : slice ∈ (pool.rentMany length times).1) : slice.length = length ∧ slice.Fits := by
  induction times generalizing pool with
  | zero => cases member
  | succ times ih =>
      rcases List.mem_cons.mp member with rfl | later
      · exact pool.length_rent length
      · exact ih later

theorem Filed.reused {limits : PoolLimits} {pool : Pool} (filed : pool.Filed limits)
    {length index : Nat} (reuse : .reused index ∈ (pool.rent length).records) :
    ∃ slice rest, pool.buckets[index]? = some (slice :: rest) ∧
      (pool.rent length).slice = slice.resize length 0 ∧
      length ≤ slice.capacity ∧ (pool.rent length).slice.capacity = slice.capacity := by
  rcases pool.rent_cases length with
    ⟨_, rental⟩ | ⟨sizeClass, serving, ⟨_, rental⟩ | ⟨_, rental⟩ | ⟨slice, rest, found, rental⟩⟩ <;>
    rw [rental] at reuse ⊢
  · cases reuse
  · simp at reuse
  · cases reuse
  · have same : index = sizeClass.index := by simpa using reuse
    subst same
    have belongs := filed.belongs _ _ found slice List.mem_cons_self
    have enough := SizeClass.le_capacity_of_belongs serving belongs
    exact ⟨slice, rest, found, rfl, enough, Nat.max_eq_left enough⟩

end Pool

end BulkTransfer
