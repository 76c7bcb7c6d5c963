import BulkTransfer.Proofs.File.Filling
import BulkTransfer.Proofs.File.Rounds

/-!
# Replaying the answers of a file

What a file answered in the course of an operation can be written down and given again by a file
that knows nothing else. The operation then goes the same way, and leaves over what comes after the
answers it used.
-/

namespace BulkTransfer

variable {σ : Type}

/-- One answer of a file. -/
structure Reply where
  /-- How the read ends. -/
  outcome : Outcome IoError Nat
  /-- What the read leaves at the front of the buffer. -/
  written : Bytes
  /-- What the file reports. -/
  events : List Event

namespace File

/-- A file that gives its answers in turn, and ends when they are used up. -/
def replaying : File (List Reply) where
  readAt _ buffer
    | [] => .leaving (.done 0) buffer []
    | reply :: rest =>
        { outcome := reply.outcome
          state := rest
          events := reply.events
          buffer := overlay reply.written buffer }
  patience _ _ replies := replies.length
  length_readAt _ _ replies := by
    cases replies with
    | nil => rfl
    | cons reply rest => exact length_overlay _ _
  patience_lt _ _ replies interrupted := by
    cases replies with
    | nil => cases interrupted
    | cons reply rest => exact Nat.lt_succ_self _

variable (file : File σ)

/-- The answer of a file to one read. -/
def reply (offset : Nat) (buffer : Bytes) (state : σ) : Reply :=
  let answer := file.readAt offset buffer state
  ⟨answer.outcome, answer.buffer, answer.events⟩

theorem readAt_replaying (offset : Nat) (buffer : Bytes) (state : σ) (rest : List Reply) :
    replaying.readAt offset buffer (file.reply offset buffer state :: rest) =
      (file.readAt offset buffer state).mapState fun _ => rest := by
  have kept := file.length_readAt offset buffer state
  have all_written : overlay (file.readAt offset buffer state).buffer buffer =
      (file.readAt offset buffer state).buffer := by
    rw [overlay_of_length_le (Nat.le_of_eq kept), kept, List.drop_length, List.append_nil]
  simp [replaying, reply, Transfer.mapState, all_written]

/-- The file answers some reads, one after the other, with these replies. -/
inductive Gives (file : File σ) : σ → List Reply → σ → Prop where
  /-- No reads are made. -/
  | nil (state : σ) : Gives file state [] state
  /-- One read is made before others. -/
  | cons (offset : Nat) (buffer : Bytes) {state reached : σ} {replies : List Reply}
      (later : Gives file (file.readAt offset buffer state).state replies reached) :
      Gives file state (file.reply offset buffer state :: replies) reached

theorem Gives.append {file : File σ} {first second third : σ} {earlier later : List Reply}
    (given : file.Gives first earlier second) (then_given : file.Gives second later third) :
    file.Gives first (earlier ++ later) third := by
  induction given with
  | nil => exact then_given
  | cons offset buffer _ ih => exact .cons offset buffer (ih then_given)

/-- Filling a buffer that wants bytes begins with one read. -/
theorem fill_of_readAt {offset : Nat} {buffer : Bytes} {state : σ} (wanted : buffer ≠ [])
    {answer : Transfer σ IoError Nat} (read : file.readAt offset buffer state = answer) :
    file.fill offset buffer state =
      match answer.outcome with
      | .aborted _ => answer
      | .failed error =>
          if error.isInterrupted then
            (file.fill offset answer.buffer answer.state).after answer.events
          else
            answer
      | .done 0 => answer
      | .done (count + 1) =>
          if buffer.length < count + 1 then
            { answer with outcome := .aborted .overclaim }
          else if lastOffset < offset + (count + 1) then
            { answer with outcome := .aborted .pastLastOffset }
          else
            let rest :=
              file.fill (offset + (count + 1)) (answer.buffer.drop (count + 1)) answer.state
            { outcome := rest.outcome.map (count + 1 + ·)
              state := rest.state
              events := answer.events ++ rest.events
              buffer := answer.buffer.take (count + 1) ++ rest.buffer } := by
  rw [fill, if_neg wanted, read]
  obtain ⟨⟨(_ | count) | error | cause, reached, events⟩, left⟩ := answer <;> rfl

/-- Filling goes the same way if its reads are answered again. -/
theorem replay_fill (offset : Nat) (buffer : Bytes) (state : σ) :
    ∃ replies, file.Gives state replies (file.fill offset buffer state).state ∧
      ∀ rest, replaying.fill offset buffer (replies ++ rest) =
        (file.fill offset buffer state).mapState fun _ => rest := by
  induction offset, buffer, state using file.fill_induction with
  | full offset state =>
      rw [fill_nil]
      refine ⟨[], .nil _, fun rest => ?_⟩
      rw [List.nil_append, fill_nil]
      rfl
  | round offset buffer state wanted ih =>
      have read (rest : List Reply) := file.readAt_replaying offset buffer state rest
      cases came : (file.readAt offset buffer state).outcome.verdict offset buffer.length with
      | ends outcome =>
          simp only [file.fill_round offset wanted, came]
          refine ⟨[file.reply offset buffer state], .cons offset buffer (.nil _), fun rest => ?_⟩
          rw [List.singleton_append, replaying.fill_round offset wanted, read]
          simp only [Transfer.mapState, came]
      | goesOn given =>
          obtain ⟨replies, answered, again⟩ := ih given came
          simp only [file.fill_round offset wanted, came]
          refine ⟨file.reply offset buffer state :: replies, .cons offset buffer answered,
            fun rest => ?_⟩
          rw [List.cons_append, replaying.fill_round offset wanted, read]
          simp only [Transfer.mapState, came, again]
          rfl

theorem replay_serve (request : FileRequest) (state : σ) :
    ∃ replies, file.Gives state replies (file.serve request state).state ∧
      ∀ rest, replaying.serve request (replies ++ rest) =
        (file.serve request state).mapState fun _ => rest := by
  simp only [serve]
  split
  · exact file.replay_fill request.offset request.buffer state
  · exact ⟨[file.reply request.offset request.buffer state], .cons _ _ (.nil _),
      file.readAt_replaying request.offset request.buffer state⟩

end File
end BulkTransfer
