import BulkTransfer.Counter
import Mathlib.Algebra.GroupWithZero.Nat
import Mathlib.Algebra.Ring.Int.Defs

/-!
# Amounts that a counter takes

A counter takes amounts one after the other as long as no sum goes out of range. It then tells its
first value and the sum of them all. Past that it still moves, by whole words too much or too
little.
-/

namespace BulkTransfer
namespace Counter

variable {counter : Counter} {delta : Int} {deltas earlier later : List Int}

/-- Whether the sum with an amount is in range. -/
def Fits (counter : Counter) (delta : Int) : Prop :=
  -(signedMax + 1 : Int) ≤ counter.value + delta ∧ counter.value + delta ≤ signedMax

instance (counter : Counter) (delta : Int) : Decidable (counter.Fits delta) :=
  inferInstanceAs (Decidable (_ ∧ _))

theorem value_in_range (counter : Counter) :
    -(signedMax + 1 : Int) ≤ counter.value ∧ counter.value ≤ signedMax :=
  ⟨counter.word.le_toInt, counter.word.toInt_le⟩

theorem eq_of_value_eq {first second : Counter} (same : first.value = second.value) :
    first = second :=
  congrArg mk (Int64.toInt_inj.mp same)

/-- An amount is added up to whole words. -/
theorem value_add (counter : Counter) (delta : Int) :
    (counter.add delta).value = (counter.value + delta).bmod (2 ^ 64) := by
  rw [value, add, Int64.toInt_add, Int64.toInt_ofInt]
  exact Int.add_bmod_bmod

/-- The sum is exact just if it is in range. -/
theorem fits_iff : counter.Fits delta ↔ (counter.add delta).value = counter.value + delta := by
  constructor
  · rintro ⟨least, greatest⟩
    rw [value_add]
    exact Int.bmod_eq_of_le least (Int.lt_add_one_of_le greatest)
  · intro exact_sum
    rw [Fits, ← exact_sum]
    exact (counter.add delta).value_in_range

theorem addFetch_of_fits (fits : counter.Fits delta) :
    counter.addFetch delta = (.ok (counter.value + delta), counter.add delta) := by
  rw [addFetch, if_pos (fits_iff.mp fits), fits_iff.mp fits]

theorem addFetch_of_not_fits (unfit : ¬ counter.Fits delta) :
    counter.addFetch delta = (.error .counterOverflow, counter.add delta) := by
  rw [addFetch, if_neg (mt fits_iff.mpr unfit)]

theorem fits_neg (fits : counter.Fits delta) : (counter.add delta).Fits (-delta) := by
  have range := counter.value_in_range
  rw [Fits, fits_iff.mp fits, Int.add_neg_cancel_right]
  exact range

/-- An amount that is less than a word moves the counter, also past its range. -/
theorem add_ne_self (moves : delta ≠ 0) (least : -(signedMax : Int) ≤ delta)
    (greatest : delta ≤ signedMax) : counter.add delta ≠ counter := by
  intro same
  have sum := counter.value_add delta
  have range := counter.value_in_range
  simp only [same, Int.bmod_def, signedMax] at sum range least greatest
  omega

/-- Each of these amounts, added one after the other, leaves the counter in range. -/
def Takes (counter : Counter) : List Int → Prop
  | [] => True
  | delta :: rest => counter.Fits delta ∧ (counter.add delta).Takes rest

instance decidableTakes :
    (counter : Counter) → (deltas : List Int) → Decidable (counter.Takes deltas)
  | _, [] => isTrue trivial
  | counter, delta :: rest =>
      have : Decidable ((counter.add delta).Takes rest) := decidableTakes _ rest
      inferInstanceAs (Decidable (counter.Fits delta ∧ (counter.add delta).Takes rest))

/-- The counter after amounts. -/
def absorb (counter : Counter) (deltas : List Int) : Counter :=
  deltas.foldl add counter

@[simp]
theorem takes_nil (counter : Counter) : counter.Takes [] := trivial

@[simp]
theorem absorb_nil (counter : Counter) : counter.absorb [] = counter := rfl

theorem absorb_append (counter : Counter) (earlier later : List Int) :
    counter.absorb (earlier ++ later) = (counter.absorb earlier).absorb later :=
  List.foldl_append

theorem takes_append :
    counter.Takes (earlier ++ later) ↔
      counter.Takes earlier ∧ (counter.absorb earlier).Takes later := by
  induction earlier generalizing counter with
  | nil => simp
  | cons delta rest ih =>
      rw [List.cons_append, Takes, Takes, ih, and_assoc]
      rfl

/-- A counter that takes amounts tells their sum. -/
theorem value_absorb (takes : counter.Takes deltas) :
    (counter.absorb deltas).value = counter.value + deltas.sum := by
  induction deltas generalizing counter with
  | nil => exact (Int.add_zero _).symm
  | cons delta rest ih =>
      have later := ih takes.2
      rw [fits_iff.mp takes.1] at later
      rw [List.sum_cons, ← Int.add_assoc]
      exact later

end Counter
end BulkTransfer
