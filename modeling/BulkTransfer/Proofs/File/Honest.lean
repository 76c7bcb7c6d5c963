import BulkTransfer.File.Watched
import BulkTransfer.Proofs.File.Tiling

/-!
# Honest files

An honest file never cuts a read off and claims no bytes that it had no room or no offset for; apart
from that it may answer as it likes. All that is asked of it comes to an end of its own, and what
filling counts, moves on by and cuts off the buffer on the way stays in range.
-/

namespace BulkTransfer

variable {σ ε δ α β : Type}

/-- Whether an operation was cut off. -/
def Outcome.isAborted : Outcome ε α → Bool
  | aborted _ => true
  | done _ | failed _ => false

@[simp]
theorem Outcome.isAborted_map (change : α → β) (outcome : Outcome ε α) :
    (outcome.map change).isAborted = outcome.isAborted := by
  cases outcome <;> rfl

@[simp]
theorem Outcome.isAborted_mapError (change : ε → δ) (outcome : Outcome ε α) :
    (outcome.mapError change).isAborted = outcome.isAborted := by
  cases outcome <;> rfl

@[simp]
theorem Step.isAborted_map (change : α → β) (step : Step σ ε α) :
    (step.map change).outcome.isAborted = step.outcome.isAborted :=
  Outcome.isAborted_map change step.outcome

theorem Outcome.FitsIn.isAborted_eq_false {outcome : Outcome IoError Nat} {room : Nat}
    (fits : outcome.FitsIn room) : outcome.isAborted = false := by
  cases outcome with
  | done count => rfl
  | failed error => rfl
  | aborted cause => cases fits

/-- A read after others, by which a buffer is filled, goes on within the room and the offsets. -/
structure Visit.Within (visit : Visit σ) (file : File σ) (before : List (Visit σ)) (room : Nat) :
    Prop where
  /-- What is cut off the buffer is no more than is left of it. -/
  rest : visit.claim file ≤ visit.buffer.length
  /-- All bytes claimed so far are no more than the buffer had room for. -/
  count : file.claimed before + visit.claim file ≤ room
  /-- The next offset is one, unless it is the same again. -/
  offset : 0 < visit.claim file → visit.offset + visit.claim file ≤ lastOffset

namespace File

/-- All reads by which a buffer is filled go on within it and within the offsets. -/
def FillsWithin (file : File σ) (offset : Nat) (buffer : Bytes) (state : σ) : Prop :=
  ∀ before visit after, file.visits ⟨true, offset, buffer⟩ state = before ++ visit :: after →
    visit.Within file before buffer.length

/-- Every read is answered honestly. -/
def Honest (file : File σ) : Prop :=
  ∀ offset buffer state, (file.readAt offset buffer state).outcome.Honest offset buffer.length

/-- A file that shows contents with offsets throughout is honest. -/
theorem Shows.honest {file : File σ} {contents : Contents} (shows : file.Shows contents)
    (addressable : contents.size ≤ lastOffset) : file.Honest := by
  intro offset buffer state
  rcases shows offset buffer state with interrupted | ⟨count, done, bound, _⟩
  · rw [Transfer.isInterrupted] at interrupted
    cases outcome : (file.readAt offset buffer state).outcome with
    | failed error => exact ⟨trivial, fun claims => absurd claims (Nat.lt_irrefl 0)⟩
    | done count => simp [outcome] at interrupted
    | aborted cause => simp [outcome] at interrupted
  · rw [done]
    refine ⟨Nat.le_trans bound (Nat.min_le_left _ _), fun claims => ?_⟩
    change 0 < count at claims
    change offset + count ≤ lastOffset
    omega

namespace Honest

variable {file : File σ} (honest : file.Honest)

include honest

/-- Watching a file does not make it dishonest. -/
theorem watched : file.watched.Honest :=
  honest

/-- Filling from an honest file is never cut off. -/
theorem isAborted_fill (offset : Nat) (buffer : Bytes) (state : σ) :
    (file.fill offset buffer state).outcome.isAborted = false := by
  have stops := (file.filled offset buffer state).stops fun visit _ => honest _ _ _
  generalize (file.fill offset buffer state).outcome = outcome at stops
  cases stops <;> rfl

theorem isAborted_serve (request : FileRequest) (state : σ) :
    (file.serve request state).outcome.isAborted = false := by
  rw [serve]
  split
  · exact honest.isAborted_fill _ _ _
  · exact (honest _ _ _).fits.isAborted_eq_false

theorem fillsWithin (offset : Nat) (buffer : Bytes) (state : σ) :
    file.FillsWithin offset buffer state := by
  intro before visit after split
  obtain ⟨_, size, _⟩ := (file.filled offset buffer state).placed split
  have answer : (visit.answer file).outcome.Honest visit.offset visit.buffer.length :=
    honest _ _ _
  have claims : visit.claim file ≤ visit.buffer.length := answer.fits.claimed_le
  exact ⟨claims, by omega, answer.addressed⟩

end Honest
end File
end BulkTransfer
