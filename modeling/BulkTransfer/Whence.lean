import BulkTransfer.Bounds

/-!
# Where a seek lands

A seek names an offset from the start, from the current position, or back from the end. Aims past
the end land on the end; aims before the start land nowhere.
-/

namespace BulkTransfer

/-- What the offset of a seek is relative to. -/
inductive Whence where
  /-- Forward from the start. -/
  | start
  /-- From the current position. -/
  | current
  /-- Back from the end, so that a positive offset lies before the end. -/
  | fromEnd
  deriving DecidableEq

/-- Where a stream is asked to move. -/
inductive SeekTarget where
  /-- To a position from the start. -/
  | start (position : Nat)
  /-- By an offset from the current position. -/
  | current (offset : Int)
  /-- By an offset from the end. -/
  | fromEnd (offset : Int)
  deriving DecidableEq

namespace Whence

/-- The position a seek aims at, which may lie outside the range. -/
def aim (whence : Whence) (offset : Int) (position length : Nat) : Int :=
  match whence with
  | start => offset
  | current => position + offset
  | fromEnd => length - offset

/-- The position a seek lands on, if it does not aim before the start. -/
def landing? (whence : Whence) (offset : Int) (position length : Nat) : Option Nat :=
  (whence.aim offset position length).toNat?.map (min · length)

theorem landing?_le {whence : Whence} {offset : Int} {position length target : Nat}
    (lands : whence.landing? offset position length = some target) : target ≤ length := by
  obtain ⟨aimed, _, rfl⟩ := Option.map_eq_some_iff.mp lands
  exact Nat.min_le_right aimed length

/-- A seek fails exactly if it aims before the start. -/
theorem landing?_eq_none_iff {whence : Whence} {offset : Int} {position length : Nat} :
    whence.landing? offset position length = none ↔ whence.aim offset position length < 0 := by
  rw [landing?, Option.map_eq_none_iff]
  cases whence.aim offset position length with
  | ofNat aimed =>
      exact iff_of_false (Option.some_ne_none aimed) (Int.not_lt.mpr (Int.natCast_nonneg aimed))
  | negSucc before => exact iff_of_true rfl (Int.negSucc_lt_zero before)

/-- A seek that does not aim before the start lands where it aims, or on the end. -/
theorem landing?_of_nonneg {whence : Whence} {offset : Int} {position length : Nat}
    (inside : 0 ≤ whence.aim offset position length) :
    whence.landing? offset position length =
      some (min (whence.aim offset position length).toNat length) := by
  rw [landing?, Int.mem_toNat?.mpr (Int.toNat_of_nonneg inside).symm, Option.map_some]

end Whence

namespace SeekTarget

/-- A target as a signed offset and an whence; positions too large for a signed offset are cut to
the largest one. -/
def split : SeekTarget → Int × Whence
  | start position => ((min position signedMax : Nat), .start)
  | current offset => (offset, .current)
  | fromEnd offset => (offset, .fromEnd)

end SeekTarget
end BulkTransfer
