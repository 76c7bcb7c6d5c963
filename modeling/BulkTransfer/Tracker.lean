import BulkTransfer.Step

/-!
# Trackers

Whoever takes hold of bytes or lets go of them tells a tracker how many. A tracker is a part of the
state, and adding to it may be cut off. The plainest one only takes note: what it was told stands
among the events, and nothing is added up.
-/

namespace BulkTransfer

/-- A tracker of bytes with state `σ`. -/
structure Tracker (σ : Type) where
  /-- Add an amount, which may be negative. -/
  add : Int → σ → Except Abort Unit × σ

namespace Tracker

variable {σ ε α : Type}

/-- A tracker that only takes note. -/
def noting : Tracker σ where
  add _ state := (.ok (), state)

/-- Tell a tracker the amounts that events report, one after the other, and end with a value. If it
cuts that off, nothing more happens. -/
def hear (tracker : Tracker σ) (value : α) : List Event → σ → Step σ ε α
  | [], state => { outcome := .done value, state, events := [] }
  | .tracked delta :: rest, state =>
      match tracker.add delta state with
      | (.ok (), state) => (tracker.hear value rest state).after [.tracked delta]
      | (.error cause, state) =>
          { outcome := .aborted cause, state, events := [.tracked delta] }
  | event :: rest, state => (tracker.hear value rest state).after [event]

@[simp]
theorem hear_nil (tracker : Tracker σ) (value : α) (state : σ) :
    (tracker.hear value [] state : Step σ ε α) = ⟨.done value, state, []⟩ := rfl

/-- To a tracker that only takes note everything can be told. -/
@[simp]
theorem hear_noting (value : α) (events : List Event) (state : σ) :
    (noting.hear value events state : Step σ ε α) = ⟨.done value, state, events⟩ := by
  induction events with
  | nil => rfl
  | cons event rest ih => cases event <;> exact congrArg (Step.after [_]) ih

/-- What comes after everything has been told is what was to come. -/
theorem eq_of_hear_done {tracker : Tracker σ} {value given : α} {events : List Event} {state : σ}
    (done : (tracker.hear value events state : Step σ ε α).outcome = .done given) :
    given = value := by
  induction events generalizing state with
  | nil => exact (Outcome.done.inj done).symm
  | cons event rest ih =>
      cases event with
      | tracked delta =>
          rw [hear] at done
          split at done
          · exact ih done
          · cases done
      | called | moved | logged => exact ih done

/-- Nothing is told but the events. -/
theorem mem_of_mem_hear {tracker : Tracker σ} {value : α} {events : List Event} {state : σ}
    {event : Event} (member : event ∈ (tracker.hear value events state : Step σ ε α).events) :
    event ∈ events := by
  induction events generalizing state with
  | nil => exact member
  | cons first rest ih =>
      cases first with
      | tracked delta =>
          rw [hear] at member
          split at member
          · exact (List.mem_cons.mp member).elim (· ▸ .head _) fun later => .tail _ (ih later)
          · exact List.mem_singleton.mp member ▸ .head _
      | called | moved | logged =>
          exact (List.mem_cons.mp member).elim (· ▸ .head _) fun later => .tail _ (ih later)

/-- Telling a tracker may be cut off, but does not fail. -/
theorem outcome_hear_ne_failed {tracker : Tracker σ} {value : α} {events : List Event} {state : σ}
    {error : ε} : (tracker.hear value events state).outcome ≠ .failed error := by
  induction events generalizing state with
  | nil => exact nofun
  | cons event rest ih =>
      cases event with
      | tracked delta =>
          rw [hear]
          split
          · exact ih
          · exact nofun
      | called | moved | logged => exact ih

end Tracker
end BulkTransfer
