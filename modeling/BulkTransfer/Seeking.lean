import BulkTransfer.Failure.Chunk
import BulkTransfer.Whence

/-!
# Queries by seeking

Whatever can seek can also be asked for its position and its length, and be sent back to its start.
The length is found by moving to the end and back, so these queries hold for any way of seeking,
also one that fails now and then.
-/

namespace BulkTransfer

/-- Operations that change a state `σ` and may fail with a chunk error, keeping the state. -/
abbrev Seeking (σ : Type) := ExceptT ChunkError (StateM σ)

/-- A way of seeking: by an offset, relative to an origin, to the position that is given back. -/
abbrev Seeker (σ : Type) := Int → Whence → Seeking σ Nat

namespace Seeker

variable {σ : Type}

/-- Text of the failure to return to a position past the largest signed offset. -/
def positionTooLarge : ChunkError :=
  .other .seek "position does not fit in an i64" none

/-- The current position. -/
def position (seek : Seeker σ) : Seeking σ Nat :=
  seek 0 .current

/-- The length, found by moving to the end and then back to where the state was. -/
def length (seek : Seeker σ) : Seeking σ Nat := do
  let position ← seek 0 .current
  let length ← seek 0 .fromEnd
  if position = length then
    return length
  else if signedMax < position then
    throw positionTooLarge
  else
    let _ ← seek position .start
    return length

/-- Move to the start. -/
def reset (seek : Seeker σ) : Seeking σ Unit := do
  let _ ← seek 0 .start
  return ()

/-- One remembered seek. -/
structure Request where
  /-- Offset that was asked for. -/
  offset : Int
  /-- What the offset was relative to. -/
  whence : Whence
  deriving DecidableEq

/-- State of a way of seeking that answers from a script. -/
structure Rehearsal where
  /-- Answers that are left; none stands for a seek before the start. -/
  answers : List (Option Nat)
  /-- Seeks made so far, in order. -/
  requests : List Request
  deriving DecidableEq

/-- Seek as a script says; once it is used up, every seek gives position 0. -/
def rehearsed : Seeker Rehearsal := fun offset whence rehearsal =>
  let answer := rehearsal.answers.headD (some 0)
  let outcome : Except ChunkError Nat :=
    match answer with
    | some position => .ok position
    | none => .error .negativeSeek
  (outcome, ⟨rehearsal.answers.tail, rehearsal.requests ++ [⟨offset, whence⟩]⟩)

end Seeker
end BulkTransfer
