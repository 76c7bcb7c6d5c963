import BulkTransfer.Proofs.File.Replaying

/-!
# Files that cannot be told apart

Two files are alike if a read that is made of both, in states that are related, ends the same way
with the same buffer and leaves related states behind. Whatever is done by reading one of them then
goes as it does with the other. What the files report meanwhile is left open.
-/

namespace BulkTransfer

variable {σ τ ε δ α β : Type} {related : σ → τ → Prop}

/-- Two steps that end the same way, in related states. -/
structure Step.Alike (related : σ → τ → Prop) (left : Step σ ε α) (right : Step τ ε α) : Prop where
  /-- The steps end the same way. -/
  outcome_eq : left.outcome = right.outcome
  /-- The states after them are related. -/
  states : related left.state right.state

/-- Two transfers that end the same way, in related states and with the same buffer. -/
structure Transfer.Alike (related : σ → τ → Prop) (left : Transfer σ ε α) (right : Transfer τ ε α) :
    Prop extends Step.Alike related left.toStep right.toStep where
  /-- The buffers after them are the same. -/
  buffer_eq : left.buffer = right.buffer

theorem Step.Alike.mapOutcome {left : Step σ ε α} {right : Step τ ε α}
    (alike : left.Alike related right) (change : Outcome ε α → Outcome δ β) :
    (left.mapOutcome change).Alike related (right.mapOutcome change) :=
  ⟨congrArg change alike.outcome_eq, alike.states⟩

theorem Step.Alike.map {left : Step σ ε α} {right : Step τ ε α} (alike : left.Alike related right)
    (change : α → β) : (left.map change).Alike related (right.map change) :=
  alike.mapOutcome (Outcome.map change)

theorem Step.Alike.mapError {left : Step σ ε α} {right : Step τ ε α}
    (alike : left.Alike related right) (change : ε → δ) :
    (left.mapError change).Alike related (right.mapError change) :=
  alike.mapOutcome (Outcome.mapError change)

/-- What is like a step that is known differs from it in its state and its events at most. -/
theorem Step.Alike.exists_right {outcome : Outcome ε α} {state : σ} {events : List Event}
    {right : Step τ ε α} (alike : Step.Alike related ⟨outcome, state, events⟩ right) :
    ∃ other reported, right = ⟨outcome, other, reported⟩ ∧ related state other := by
  obtain ⟨ending, other, reported⟩ := right
  obtain ⟨same, states⟩ := alike
  cases same
  exact ⟨other, reported, rfl, states⟩

/-- What is like a transfer that is known differs from it in its state and its events at most. -/
theorem Transfer.Alike.exists_right {outcome : Outcome ε α} {state : σ} {events : List Event}
    {buffer : Bytes} {right : Transfer τ ε α}
    (alike : Transfer.Alike related ⟨⟨outcome, state, events⟩, buffer⟩ right) :
    ∃ other reported, right = ⟨⟨outcome, other, reported⟩, buffer⟩ ∧ related state other := by
  obtain ⟨step, left⟩ := right
  obtain ⟨steps, same⟩ := alike
  obtain ⟨other, reported, rfl, states⟩ := steps.exists_right
  cases same
  exact ⟨other, reported, rfl, states⟩

/-- How a transfer ended and what it left in the buffer. -/
def Transfer.result (transfer : Transfer σ ε α) : Outcome ε α × Bytes :=
  (transfer.outcome, transfer.buffer)

theorem Transfer.Alike.result_eq {left : Transfer σ ε α} {right : Transfer τ ε α}
    (alike : left.Alike related right) : left.result = right.result :=
  Prod.ext alike.outcome_eq alike.buffer_eq

namespace File

/-- Two files that answer every read alike in related states. -/
def Alike (related : σ → τ → Prop) (left : File σ) (right : File τ) : Prop :=
  ∀ offset buffer source other, related source other →
    (left.readAt offset buffer source).Alike related (right.readAt offset buffer other)

/-- State of a file after reads. -/
def afterAll (file : File σ) : List FileRequest → σ → σ
  | [], state => state
  | request :: rest, state => file.afterAll rest (file.serve request state).state

namespace Alike

variable {left : File σ} {right : File τ} (alike : left.Alike related right)

include alike

theorem fill (offset : Nat) (buffer : Bytes) (source : σ) : ∀ other, related source other →
    (left.fill offset buffer source).Alike related (right.fill offset buffer other) := by
  induction offset, buffer, source using left.fill_induction with
  | full offset source =>
      intro other start
      rw [fill_nil, fill_nil]
      exact ⟨⟨rfl, start⟩, rfl⟩
  | round offset buffer source wanted ih =>
      intro other start
      have same := alike offset buffer source other start
      simp only [left.fill_round offset wanted, right.fill_round offset wanted, ← same.outcome_eq]
      cases came : (left.readAt offset buffer source).outcome.verdict offset buffer.length with
      | ends outcome => exact ⟨⟨rfl, same.states⟩, same.buffer_eq⟩
      | goesOn given =>
          have later := ih given came _ same.states
          simp only [Transfer.followedBy, ← same.buffer_eq]
          constructor
          · exact ⟨congrArg (Outcome.map (given + ·)) later.outcome_eq, later.states⟩
          · exact congrArg (_ ++ ·) later.buffer_eq

theorem serve (request : FileRequest) (source : σ) (other : τ) (start : related source other) :
    (left.serve request source).Alike related (right.serve request other) := by
  simp only [File.serve]
  split
  · exact alike.fill request.offset request.buffer source other start
  · exact alike request.offset request.buffer source other start

/-- Reads that are made one after the other end the same way. -/
theorem serveAll (requests : List FileRequest) (source : σ) (other : τ)
    (start : related source other) :
    (left.serveAll requests source).map Transfer.result =
      (right.serveAll requests other).map Transfer.result := by
  induction requests generalizing source other with
  | nil => rfl
  | cons request rest ih =>
      have first := alike.serve request source other start
      simp only [File.serveAll, List.map_cons, first.result_eq, ih _ _ first.states]

theorem afterAll (requests : List FileRequest) (source : σ) (other : τ)
    (start : related source other) :
    related (left.afterAll requests source) (right.afterAll requests other) := by
  induction requests generalizing source other with
  | nil => exact start
  | cons request rest ih => exact ih _ _ (alike.serve request source other start).states

end Alike
end File
end BulkTransfer
