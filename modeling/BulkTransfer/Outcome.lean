/-!
# Outcomes

An operation is done, fails with an error that its caller can act on, or is aborted because a
promise was broken. An abort has no error value; some aborts explain themselves.
-/

namespace BulkTransfer

/-- Broken promises that end an operation at once. -/
inductive Abort where
  /-- A chunk of no bytes was asked for. -/
  | emptyChunk
  /-- A pool whose buckets hold nothing was asked for. -/
  | emptyBuckets
  /-- A chunk longer than any buffer had to be loaded. -/
  | chunkTooLong
  /-- A file claimed more bytes than the buffer holds. -/
  | overclaim
  /-- A file claimed bytes past the last offset. -/
  | pastLastOffset
  /-- A file gave up in the middle of a call. -/
  | raised
  /-- The byte counter went out of range. -/
  | counterOverflow
  deriving DecidableEq

/-- Explanation that comes with an abort. -/
def Abort.message? : Abort → Option String
  | .emptyChunk => some "chunk length must be greater than zero"
  | .emptyBuckets => some "bucket capacity must be greater than zero"
  | _ => none

/-- How an operation ends. -/
inductive Outcome (ε α : Type) where
  /-- The operation succeeded. -/
  | done (value : α)
  /-- The operation failed with an error. -/
  | failed (error : ε)
  /-- The operation was cut off. -/
  | aborted (cause : Abort)
  deriving DecidableEq

namespace Outcome

variable {ε δ α β : Type}

/-- Apply a function to the value of a successful outcome. -/
def map (change : α → β) : Outcome ε α → Outcome ε β
  | done value => done (change value)
  | failed error => failed error
  | aborted cause => aborted cause

/-- Apply a function to the error of a failed outcome. -/
def mapError (change : ε → δ) : Outcome ε α → Outcome δ α
  | done value => done value
  | failed error => failed (change error)
  | aborted cause => aborted cause

@[simp]
theorem map_done (change : α → β) (value : α) :
    (done value : Outcome ε α).map change = done (change value) := rfl

@[simp]
theorem map_failed (change : α → β) (error : ε) :
    (failed error : Outcome ε α).map change = failed error := rfl

@[simp]
theorem map_aborted (change : α → β) (cause : Abort) :
    (aborted cause : Outcome ε α).map change = aborted cause := rfl

@[simp]
theorem mapError_done (change : ε → δ) (value : α) :
    (done value : Outcome ε α).mapError change = done value := rfl

@[simp]
theorem mapError_failed (change : ε → δ) (error : ε) :
    (failed error : Outcome ε α).mapError change = failed (change error) := rfl

@[simp]
theorem mapError_aborted (change : ε → δ) (cause : Abort) :
    (aborted cause : Outcome ε α).mapError change = aborted cause := rfl

end Outcome
end BulkTransfer
