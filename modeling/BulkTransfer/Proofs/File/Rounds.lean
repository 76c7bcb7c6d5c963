import BulkTransfer.File.Basic

/-!
# Filling a buffer round by round

Each round of filling a buffer makes one read, and what comes of it depends on where it was made,
the room it was given and how it ended. Filling ends with it, or a further round fills the rest of
the buffer; a round that was interrupted has given nothing, and all of the buffer is left.
-/

namespace BulkTransfer

variable {σ : Type}

/-- What comes of a round. -/
inductive Verdict where
  /-- Filling ends so. -/
  | ends (outcome : Outcome IoError Nat)
  /-- So many bytes were given, and filling goes on past them. -/
  | goesOn (given : Nat)

/-- What comes of a read at an offset into so much room. -/
def Outcome.verdict (offset room : Nat) : Outcome IoError Nat → Verdict
  | .aborted cause => .ends (.aborted cause)
  | .failed error => if error.isInterrupted then .goesOn 0 else .ends (.failed error)
  | .done 0 => .ends (.done 0)
  | .done (count + 1) =>
      if room < count + 1 then
        .ends (.aborted .overclaim)
      else if lastOffset < offset + (count + 1) then
        .ends (.aborted .pastLastOffset)
      else
        .goesOn (count + 1)

/-- Filling goes on if a read was interrupted, which has given nothing, or has given some bytes that
are within reach and fit. -/
theorem Outcome.verdict_goesOn {outcome : Outcome IoError Nat} {offset room given : Nat}
    (goes_on : outcome.verdict offset room = .goesOn given) :
    (given = 0 ∧ ∃ error, outcome = .failed error ∧ error.isInterrupted = true) ∨
      (0 < given ∧ outcome = .done given ∧ given ≤ room ∧ offset + given ≤ lastOffset) := by
  cases outcome with
  | aborted cause => cases goes_on
  | failed error =>
      rw [verdict] at goes_on
      split at goes_on
      · rename_i interrupted
        cases goes_on
        exact .inl ⟨rfl, error, rfl, interrupted⟩
      · cases goes_on
  | done count =>
      cases count with
      | zero => cases goes_on
      | succ count =>
          rw [verdict] at goes_on
          split at goes_on
          · cases goes_on
          · split at goes_on
            · cases goes_on
            · cases goes_on
              exact .inr ⟨Nat.succ_pos count, rfl, by omega, by omega⟩

/-- A read that gave some bytes, and what has filled the rest of its buffer. -/
def Transfer.followedBy (answer : Transfer σ IoError Nat) (given : Nat)
    (rest : Transfer σ IoError Nat) : Transfer σ IoError Nat where
  outcome := rest.outcome.map (given + ·)
  state := rest.state
  events := answer.events ++ rest.events
  buffer := answer.buffer.take given ++ rest.buffer

theorem Transfer.followedBy_zero (answer rest : Transfer σ IoError Nat) :
    answer.followedBy 0 rest = rest.after answer.events := by
  have same : rest.outcome.map (0 + ·) = rest.outcome := by
    cases rest.outcome <;> simp
  rw [followedBy, same]
  rfl

namespace File

variable (file : File σ)

theorem fill_nil (offset : Nat) (state : σ) :
    file.fill offset [] state = .leaving (.done 0) [] state := by
  rw [fill, if_pos rfl]

/-- Filling a buffer that wants bytes makes one round, and more if that one goes on. -/
theorem fill_round (offset : Nat) {buffer : Bytes} (wanted : buffer ≠ []) (state : σ) :
    file.fill offset buffer state =
      let answer := file.readAt offset buffer state
      match answer.outcome.verdict offset buffer.length with
      | .ends outcome => { answer with outcome }
      | .goesOn given =>
          answer.followedBy given
            (file.fill (offset + given) (answer.buffer.drop given) answer.state) := by
  rw [fill, if_neg wanted]
  obtain ⟨⟨outcome, reached, events⟩, left⟩ := file.readAt offset buffer state
  cases outcome with
  | aborted cause => rfl
  | failed error =>
      simp only [Outcome.verdict]
      split
      · exact (Transfer.followedBy_zero ⟨⟨.failed error, reached, events⟩, left⟩ _).symm
      · rfl
  | done count =>
      cases count with
      | zero => rfl
      | succ count =>
          simp only [Outcome.verdict]
          split
          · rfl
          · split <;> rfl

/-- Whatever is kept from round to round holds of filling: a further round has less of the buffer
to fill, or less patience. -/
theorem fill_induction {motive : Nat → Bytes → σ → Prop}
    (full : ∀ offset state, motive offset [] state)
    (round : ∀ offset buffer state, buffer ≠ [] →
      (∀ given, (file.readAt offset buffer state).outcome.verdict offset buffer.length =
          .goesOn given →
        motive (offset + given) ((file.readAt offset buffer state).buffer.drop given)
          (file.readAt offset buffer state).state) →
      motive offset buffer state)
    (offset : Nat) (buffer : Bytes) (state : σ) : motive offset buffer state :=
  if empty : buffer = [] then
    empty ▸ full offset state
  else
    round offset buffer state empty fun given _ =>
      fill_induction full round (offset + given) _ _
termination_by (buffer.length, file.patience offset buffer state)
decreasing_by
  rename_i goes_on
  have kept := file.length_readAt offset buffer state
  obtain ⟨rfl, error, failed, interrupted⟩ | ⟨_, _, _, _⟩ := Outcome.verdict_goesOn goes_on
  · rw [List.drop_zero, Nat.add_zero, kept]
    refine Prod.Lex.right _ (file.patience_lt offset buffer state ?_)
    rw [Transfer.isInterrupted, failed]
    exact interrupted
  · refine Prod.Lex.left _ _ ?_
    rw [List.length_drop, kept]
    omega

end File
end BulkTransfer
