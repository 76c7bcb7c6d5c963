import BulkTransfer.Bytes
import BulkTransfer.Event

/-!
# Steps and transfers

A step is what one operation leaves behind: its outcome, the state after it, and its events. A
transfer is a step that was given a buffer, which is part of what it leaves behind, also when the
operation fails.
-/

namespace BulkTransfer

/-- Result of an operation on a state. -/
structure Step (σ ε α : Type) where
  /-- How the operation ended. -/
  outcome : Outcome ε α
  /-- State after the operation, however it ended. -/
  state : σ
  /-- Effects of the operation, in order. -/
  events : List Event

/-- Result of an operation that fills a caller's buffer. -/
structure Transfer (σ ε α : Type) extends Step σ ε α where
  /-- The caller's whole buffer after the operation. -/
  buffer : Bytes

namespace Step

variable {σ τ ε δ α β : Type}

/-- Change the outcome of a step. -/
def mapOutcome (change : Outcome ε α → Outcome δ β) (step : Step σ ε α) : Step σ δ β :=
  { step with outcome := change step.outcome }

/-- Apply a function to the value of a step. -/
def map (change : α → β) (step : Step σ ε α) : Step σ ε β :=
  step.mapOutcome (Outcome.map change)

/-- Apply a function to the error of a step. -/
def mapError (change : ε → δ) (step : Step σ ε α) : Step σ δ α :=
  step.mapOutcome (Outcome.mapError change)

/-- The same step with another state. -/
def mapState (change : σ → τ) (step : Step σ ε α) : Step τ ε α :=
  { step with state := change step.state }

/-- The same step, with other events before its own. -/
def after (earlier : List Event) (step : Step σ ε α) : Step σ ε α :=
  { step with events := earlier ++ step.events }

end Step

namespace Transfer

variable {σ τ ε δ α β : Type}

/-- Change the outcome of a transfer. -/
def mapOutcome (change : Outcome ε α → Outcome δ β) (transfer : Transfer σ ε α) :
    Transfer σ δ β :=
  { transfer with outcome := change transfer.outcome }

/-- The same transfer with another state. -/
def mapState (change : σ → τ) (transfer : Transfer σ ε α) : Transfer τ ε α :=
  { transfer with state := change transfer.state }

/-- The same transfer, with other events before its own. -/
def after (earlier : List Event) (transfer : Transfer σ ε α) : Transfer σ ε α :=
  { transfer with events := earlier ++ transfer.events }

/-- Hand bytes over at the front of a buffer and report how many they are. -/
def delivering (bytes buffer : Bytes) (state : σ) : Transfer σ ε Nat :=
  { outcome := .done bytes.length, state, events := [], buffer := overlay bytes buffer }

/-- Leave a buffer as it is. -/
def leaving (outcome : Outcome ε α) (buffer : Bytes) (state : σ) : Transfer σ ε α :=
  { outcome, state, events := [], buffer }

/-- Whether an IO transfer was interrupted, so that it may simply be tried again. -/
def isInterrupted (transfer : Transfer σ IoError α) : Bool :=
  match transfer.outcome with
  | .failed error => error.isInterrupted
  | _ => false

@[simp]
theorem isInterrupted_after (earlier : List Event) (transfer : Transfer σ IoError α) :
    (transfer.after earlier).isInterrupted = transfer.isInterrupted := rfl

@[simp]
theorem isInterrupted_delivering (bytes buffer : Bytes) (state : σ) :
    (delivering bytes buffer state : Transfer σ IoError Nat).isInterrupted = false := rfl

end Transfer
end BulkTransfer
