import BulkTransfer.File.Basic

/-!
# Cursors

A cursor reads from wherever it stands and has to be moved first. Holding it under a lock across
each move and the read after it turns it into a file: no read depends on where earlier calls have
left the cursor, also if they failed or were cut off in between.
-/

namespace BulkTransfer

/-- Move a cursor, and read from there unless the move fails. -/
def seekThenRead {σ : Type} (seek : Nat → σ → Step σ IoError Nat)
    (read : Bytes → σ → Transfer σ IoError Nat) (offset : Nat) (buffer : Bytes) (state : σ) :
    Transfer σ IoError Nat :=
  match seek offset state with
  | ⟨.done _, reached, events⟩ => (read buffer reached).after events
  | ⟨.failed error, reached, events⟩ =>
      { outcome := .failed error, state := reached, events, buffer }
  | ⟨.aborted cause, reached, events⟩ =>
      { outcome := .aborted cause, state := reached, events, buffer }

/-- A reader with a position of its own, part of its state `σ`. -/
structure Cursor (σ : Type) where
  /-- Move to a position from the start, which is given back as it was reached. -/
  seek : Nat → σ → Step σ IoError Nat
  /-- Read into a buffer from the current position; the outcome claims a number of bytes. -/
  read : Bytes → σ → Transfer σ IoError Nat
  /-- Bound on how often moving and reading can be interrupted in a row. -/
  patience : Nat → Bytes → σ → Nat
  /-- A read never changes the length of the buffer. -/
  length_read : ∀ buffer state, (read buffer state).buffer.length = buffer.length
  /-- Each interruption uses up patience. -/
  patience_lt : ∀ offset buffer state,
    (seekThenRead seek read offset buffer state).isInterrupted = true →
      patience offset (seekThenRead seek read offset buffer state).buffer
          (seekThenRead seek read offset buffer state).state <
        patience offset buffer state

namespace Cursor

variable {σ : Type}

theorem length_seekThenRead (cursor : Cursor σ) (offset : Nat) (buffer : Bytes) (state : σ) :
    (seekThenRead cursor.seek cursor.read offset buffer state).buffer.length = buffer.length := by
  rw [seekThenRead]
  split
  · exact cursor.length_read _ _
  · rfl
  · rfl

/-- A cursor under a lock, which moves it before every read. -/
def locked (cursor : Cursor σ) : File σ where
  readAt := seekThenRead cursor.seek cursor.read
  patience := cursor.patience
  length_readAt := cursor.length_seekThenRead
  patience_lt := cursor.patience_lt

/-- The same cursor, reporting every call made of it. -/
def watched (cursor : Cursor σ) : Cursor σ where
  seek position state :=
    let sought := cursor.seek position state
    { sought with events := sought.events ++ [.moved (.seek position)] }
  read buffer state :=
    let answer := cursor.read buffer state
    { answer with events := answer.events ++ [.moved (.read buffer.length)] }
  patience := cursor.patience
  length_read := cursor.length_read
  patience_lt offset buffer state := by
    have bound := cursor.patience_lt offset buffer state
    simp only [seekThenRead] at bound ⊢
    rcases sought : cursor.seek offset state with ⟨_ | _ | _, reached, events⟩ <;>
      rw [sought] at bound <;> exact bound

end Cursor
end BulkTransfer
