import BulkTransfer.Proofs.Pool.Homing
import BulkTransfer.Proofs.Pool.Reach
import Mathlib.Order.Bounds.Basic

/-!
# Rounding to size classes

A request is rounded up to a class and a capacity is rounded down to one. Both are adjoint to the
capacity of a class: the classes that are large enough for a request begin with the one that serves
it, and those that a capacity reaches end with the one it is filed in. That the roundings agree on
the capacities of classes, and where the buckets of a pool end, follows from that.
-/

namespace BulkTransfer

namespace SizeClass

/-- How a request of 32 bits is rounded up to the class that serves it. -/
structure RoundsUp (length : Nat) (served : SizeClass) : Prop where
  /-- The classes that are large enough are this one and the greater ones. -/
  le_iff : ∀ index, served.index ≤ index ↔ length ≤ 2 ^ index
  /-- It is the least that is large enough. -/
  least : IsLeast {index | length ≤ 2 ^ index} served.index
  /-- No class beyond 32 bits is needed, though that one may be. -/
  index_le : served.index ≤ 32
  /-- The capacity is a power of two. -/
  capacity_eq : served.capacity = 2 ^ served.index
  /-- Shifting a word of 64 bits gives the capacity, with no bit lost. -/
  word : ((1 : BitVec 64) <<< served.index).toNat = served.capacity
  /-- A slice made for the request is filed in the class it was made in. -/
  home : filing? served.capacity = some served

/-- How a capacity is rounded down to the class it is filed in. -/
structure RoundsDown (capacity : Nat) (filed : SizeClass) : Prop where
  /-- The classes that the capacity reaches are this one and the lesser ones. -/
  le_iff : ∀ index, index ≤ filed.index ↔ 2 ^ index ≤ capacity
  /-- It is the greatest of whose requests there is none that is too long. -/
  greatest : IsGreatest {index | ∀ length, serving? length = some ⟨index⟩ → length ≤ capacity}
    filed.index
  /-- Requests of 32 bits tell as much of every class whose capacity is among them. -/
  narrow : ∀ index < 32, index ≤ filed.index ↔
    ∀ length < 2 ^ 32, serving? length = some ⟨index⟩ → length ≤ capacity
  /-- Every request of the class can be met. -/
  meets : ∀ length, serving? length = some filed → length ≤ capacity

variable {length capacity : Nat} {served filed : SizeClass}

theorem serving?_two_pow (index : Nat) : serving? (2 ^ index) = some ⟨index⟩ := by
  rw [serving?_of_ne_zero (Nat.ne_of_gt (Nat.two_pow_pos index)),
    Nat.clog_pow 2 index Nat.one_lt_two]

theorem index_le_of_filing {smaller larger : Nat} {lower higher : SizeClass}
    (filing : filing? smaller = some lower) (filing_larger : filing? larger = some higher)
    (le : smaller ≤ larger) : lower.index ≤ higher.index := by
  rw [le_index_iff_of_filing filing_larger]
  exact Nat.le_trans ((le_index_iff_of_filing filing).mp (Nat.le_refl _)) le

/-- A capacity reaches a class exactly if no request of the class is too long for it. It is enough
to look at some of the requests, if the longest of the class is one of them. -/
theorem le_index_iff_forall_serving (filing : filing? capacity = some filed) (index : Nat)
    {Asked : Nat → Prop} (longest : Asked (2 ^ index)) :
    index ≤ filed.index ↔
      ∀ length, Asked length → serving? length = some ⟨index⟩ → length ≤ capacity := by
  rw [le_index_iff_of_filing filing]
  constructor
  · intro reached length _ serving
    have fits := (index_le_iff_of_serving serving).mp (Nat.le_refl index)
    exact Nat.le_trans fits reached
  · intro enough
    exact enough _ longest (serving?_two_pow index)

theorem roundsUp_of_serving (serving : serving? length = some served) (short : length < 2 ^ 32) :
    RoundsUp length served := by
  have adjoint (index : Nat) : served.index ≤ index ↔ length ≤ 2 ^ index :=
    index_le_iff_of_serving serving
  have index_le : served.index ≤ 32 := (adjoint 32).mpr (Nat.le_of_lt short)
  constructor
  case le_iff => exact adjoint
  case least => exact ⟨(adjoint _).mp (Nat.le_refl _), fun index fits => (adjoint index).mpr fits⟩
  case index_le => exact index_le
  case capacity_eq => exact served.capacity_eq
  case word =>
    have bound : 2 ^ served.index < 2 ^ 64 :=
      Nat.pow_lt_pow_right Nat.one_lt_two (Nat.lt_of_le_of_lt index_le (by decide))
    rw [BitVec.toNat_shiftLeft, served.capacity_eq, Nat.shiftLeft_eq]
    exact (congrArg (· % 2 ^ 64) (Nat.one_mul _)).trans (Nat.mod_eq_of_lt bound)
  case home => exact served.filing?_capacity

theorem roundsDown_of_filing (filing : filing? capacity = some filed) :
    RoundsDown capacity filed := by
  have all (index : Nat) : index ≤ filed.index ↔
      ∀ length, serving? length = some ⟨index⟩ → length ≤ capacity := by
    have of_all := @le_index_iff_forall_serving capacity filed filing index (fun _ => True) trivial
    simpa only [true_implies] using of_all
  constructor
  case le_iff => exact fun index => le_index_iff_of_filing filing
  case greatest => exact ⟨(all _).mp (Nat.le_refl _), fun index enough => (all index).mpr enough⟩
  case narrow =>
    intro index small
    exact le_index_iff_forall_serving filing index (Nat.pow_lt_pow_right Nat.one_lt_two small)
  case meets => exact (all _).mp (Nat.le_refl _)

theorem index_lt_of_filing (filing : filing? capacity = some filed) (narrow : capacity < 2 ^ 64) :
    filed.index < 64 := by
  have reached := (le_index_iff_of_filing filing).mp (Nat.le_refl _)
  exact (Nat.pow_lt_pow_iff_right Nat.one_lt_two).mp (Nat.lt_of_le_of_lt reached narrow)

end SizeClass

/-- A pool reaches a request exactly if its greatest length falls into a class, and one whose
capacity is not exceeded. -/
theorem PoolLimits.le_reach_iff {limits : PoolLimits} {length : Nat} (some_wanted : length ≠ 0) :
    length ≤ limits.reach ↔
      ∃ last, SizeClass.serving? limits.maxLength = some last ∧ length ≤ last.capacity := by
  rw [reach]
  cases SizeClass.serving? limits.maxLength with
  | none => simp [some_wanted]
  | some last => simp

/-- A new pool has a bucket for a request exactly if it reaches that far. -/
theorem Pool.exists_bucket_iff {limits : PoolLimits} {pool : Pool}
    (created : create limits = .ok pool) {length : Nat} {served : SizeClass}
    (serving : SizeClass.serving? length = some served) :
    (∃ bucket, pool.buckets[served.index]? = some bucket) ↔ length ≤ limits.reach := by
  have inside : served.index < pool.buckets.length ↔ length ≤ limits.reach := by
    rw [← Nat.not_le, show pool.buckets.length = pool.bucketCount from rfl,
      (filed_create created).bucketCount_le_iff serving, Nat.not_lt]
  rw [← inside, ← Option.ne_none_iff_exists', ne_eq, List.getElem?_eq_none_iff, Nat.not_le]

namespace SizeClass

/-- The roundings up and down are the two adjoints of the capacity of a class, so both are monotone
and they agree on the capacities of classes. A pool has a bucket for a request exactly if that does
not exceed the capacity of the class which the pool's greatest length is rounded up to, and none at
all if that length is zero. -/
theorem roundings_adjoint :
    (∀ length, length ≠ 0 → length < 2 ^ 32 →
      ∃ served, serving? length = some served ∧ RoundsUp length served) ∧
    (∀ capacity, capacity ≠ 0 → capacity < 2 ^ 64 →
      ∃ filed, filing? capacity = some filed ∧ filed.index < 64 ∧ RoundsDown capacity filed) ∧
    (∀ shorter longer lower higher, shorter ≤ longer → serving? shorter = some lower →
      serving? longer = some higher → lower.index ≤ higher.index) ∧
    (∀ smaller larger lower higher, smaller ≤ larger → filing? smaller = some lower →
      filing? larger = some higher → lower.index ≤ higher.index) ∧
    ∀ limits pool, Pool.create limits = .ok pool →
      (limits.maxLength = 0 → pool.bucketCount = 0) ∧
      ∀ length served, serving? length = some served →
        ((∃ bucket, pool.buckets[served.index]? = some bucket) ↔
          ∃ last, serving? limits.maxLength = some last ∧ length ≤ last.capacity) := by
  refine ⟨fun length some_wanted short => ?_, fun capacity some_memory narrow => ?_, ?_, ?_, ?_⟩
  · have serving := serving?_of_ne_zero some_wanted
    exact ⟨_, serving, roundsUp_of_serving serving short⟩
  · have filing := filing?_of_ne_zero some_memory
    exact ⟨_, filing, index_lt_of_filing filing narrow, roundsDown_of_filing filing⟩
  · exact fun _ _ _ _ le serving serving_longer => index_le_of_serving serving serving_longer le
  · exact fun _ _ _ _ le filing filing_larger => index_le_of_filing filing filing_larger le
  · intro limits pool created
    refine ⟨fun nothing => ?_, fun length served serving => ?_⟩
    · rw [(Pool.filed_create created).same_count, nothing]
      rfl
    · rw [Pool.exists_bucket_iff created serving,
        PoolLimits.le_reach_iff (ne_zero_of_serving serving)]

/-- The longest request of 32 bits is served from a class of 33 bits, a slice of 255 bytes serves
requests up to 128, and a pool for five bytes has a bucket for eight and none for nine. -/
theorem roundings_adjoint_extremes :
    (∃ served, serving? (2 ^ 32 - 1) = some served ∧ served.index ≤ 32 ∧
      ¬ served.index ≤ 31 ∧ served.capacity = 2 ^ 32) ∧
    (∃ filed, filing? 255 = some filed ∧ 7 ≤ filed.index ∧ ¬ 8 ≤ filed.index) ∧
    ∃ pool, Pool.create ⟨5, 1⟩ = .ok pool ∧
      (∃ bucket, pool.buckets[3]? = some bucket) ∧ ¬ ∃ bucket, pool.buckets[4]? = some bucket := by
  obtain ⟨up, down, _, _, buckets⟩ := roundings_adjoint
  refine ⟨?_, ?_, _, rfl, ?_, ?_⟩
  · obtain ⟨served, serving, rounds⟩ := up (2 ^ 32 - 1) (by decide) (by decide)
    have past : ¬ served.index ≤ 31 := fun small =>
      absurd ((rounds.le_iff 31).mp small) (by decide)
    have last : served.index = 32 := by
      have index_le := rounds.index_le
      omega
    exact ⟨served, serving, rounds.index_le, past, by rw [rounds.capacity_eq, last]⟩
  · obtain ⟨filed, filing, _, rounds⟩ := down 255 (by decide) (by decide)
    exact ⟨filed, filing, (rounds.le_iff 7).mpr (by decide),
      fun reached => absurd ((rounds.le_iff 8).mp reached) (by decide)⟩
  · exact ((buckets ⟨5, 1⟩ _ rfl).2 8 ⟨3⟩ (by decide)).mpr ⟨⟨3⟩, by decide, by decide⟩
  · rintro found
    obtain ⟨last, serving, inside⟩ := ((buckets ⟨5, 1⟩ _ rfl).2 9 ⟨4⟩ (by decide)).mp found
    rw [show serving? (PoolLimits.mk 5 1).maxLength = some ⟨3⟩ by decide] at serving
    cases serving
    exact absurd inside (by decide)

end SizeClass
end BulkTransfer
