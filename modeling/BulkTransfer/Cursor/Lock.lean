import BulkTransfer.Cursor.Basic

/-!
# Locks

A lock guards a state and is poisoned when a holder of it is cut off. Taking a poisoned lock still
gives what it guards, marked as such. A cursor under a lock moves before every read, so it does not
matter to it where a holder that was cut off has left it, and the mark is ignored.
-/

namespace BulkTransfer

/-- A lock on a state. -/
structure Lock (σ : Type) where
  /-- What only the holder of the lock may use. -/
  guarded : σ
  /-- Whether some holder was cut off. -/
  poisoned : Bool
  deriving DecidableEq

namespace Lock

variable {σ ε α : Type}

/-- Take the lock: what it guards, as an error if the lock is poisoned. -/
def take (lock : Lock σ) : Except σ σ :=
  if lock.poisoned then .error lock.guarded else .ok lock.guarded

/-- Take the lock, whether it is poisoned or not. -/
def enter (lock : Lock σ) : σ :=
  match lock.take with
  | .ok state => state
  | .error state => state

@[simp]
theorem enter_eq (lock : Lock σ) : lock.enter = lock.guarded := by
  obtain ⟨state, _ | _⟩ := lock <;> rfl

/-- Give the lock back. It is poisoned from then on if what was done under it was cut off. -/
def leave (lock : Lock σ) (outcome : Outcome ε α) (reached : σ) : Lock σ where
  guarded := reached
  poisoned :=
    match outcome with
    | .aborted _ => true
    | _ => lock.poisoned

@[simp]
theorem guarded_leave (lock : Lock σ) (outcome : Outcome ε α) (reached : σ) :
    (lock.leave outcome reached).guarded = reached := rfl

end Lock

/-- A cursor behind a lock, taken for each move and the read after it. -/
def Cursor.underLock {σ : Type} (cursor : Cursor σ) : File (Lock σ) where
  readAt offset buffer lock :=
    let answer := seekThenRead cursor.seek cursor.read offset buffer lock.enter
    { outcome := answer.outcome
      state := lock.leave answer.outcome answer.state
      events := answer.events
      buffer := answer.buffer }
  patience offset buffer lock := cursor.patience offset buffer lock.guarded
  length_readAt offset buffer lock := cursor.length_seekThenRead offset buffer lock.enter
  patience_lt offset buffer lock interrupted := by
    rw [Lock.enter_eq] at interrupted ⊢
    exact cursor.patience_lt offset buffer lock.guarded interrupted

end BulkTransfer
