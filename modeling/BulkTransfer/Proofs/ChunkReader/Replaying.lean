import BulkTransfer.Proofs.ChunkReader.Counting

/-!
# Replaying the commands of a chunk reader

A command to a chunk reader depends on the reader, on the counter beside its file and on the answers
of the file, and on nothing else. If the same answers are given again it goes the same way.
-/

namespace BulkTransfer

variable {σ ε δ α β : Type} (file : File σ)

/-- Loading goes the same way if its reads are answered again. -/
theorem File.replay_load (offset length : Nat) (source : σ) :
    ∃ replies, file.Gives source replies (file.load offset length source).state ∧
      ∀ rest, File.replaying.load offset length (replies ++ rest) =
        (file.load offset length source).mapState fun _ => rest := by
  simp only [File.load]
  split
  · exact ⟨[], .nil _, fun rest => rfl⟩
  · obtain ⟨replies, given, again⟩ := file.replay_fill offset (List.replicate length 0) source
    generalize file.fill offset (List.replicate length 0) source = filling at given again ⊢
    refine ⟨replies, ?_, fun rest => ?_⟩
    · obtain ⟨⟨read | error | cause, reached, events⟩, bytes⟩ := filling
      · dsimp only
        split <;> exact given
      · exact given
      · exact given
    · rw [again rest]
      obtain ⟨⟨read | error | cause, reached, events⟩, bytes⟩ := filling
      · simp only [Transfer.mapState]
        split <;> rfl
      · rfl
      · rfl

namespace ChunkReader

/-- The same reader beside the same counter, above answers that are left over. -/
def answered (rest : List Reply) (state : ChunkReader × Shared σ) :
    ChunkReader × Shared (List Reply) :=
  (state.1, ⟨state.2.counter, rest⟩)

/-- What was done above the file goes the same way above the answers that the file gave meanwhile,
and leaves over those that come after. -/
def Replays (source : σ) (step : Step (ChunkReader × Shared σ) ε α)
    (again : List Reply → Step (ChunkReader × Shared (List Reply)) ε α) : Prop :=
  ∃ replies, file.Gives source replies step.state.2.source ∧
    ∀ rest, again (replies ++ rest) = step.mapState (answered rest)

variable {file} {source : σ} {step : Step (ChunkReader × Shared σ) ε α}
  {again : List Reply → Step (ChunkReader × Shared (List Reply)) ε α}

/-- What makes no reads is not changed by the answers. -/
theorem Replays.of_silent (same : step.state.2.source = source)
    (silent : ∀ rest, again rest = step.mapState (answered rest)) :
    Replays file source step again :=
  ⟨[], same ▸ .nil _, silent⟩

theorem Replays.mapOutcome (replays : Replays file source step again)
    (change : Outcome ε α → Outcome δ β) :
    Replays file source (step.mapOutcome change) fun replies =>
      (again replies).mapOutcome change := by
  obtain ⟨replies, given, same⟩ := replays
  exact ⟨replies, given, fun rest => congrArg (Step.mapOutcome change) (same rest)⟩

variable (file) (reader : ChunkReader) (counter : Counter)

theorem replay_ensureLoaded (source : σ) :
    Replays file source (reader.ensureLoaded file.beside ⟨counter, source⟩ .counting) fun replies =>
      reader.ensureLoaded File.replaying.beside ⟨counter, replies⟩ .counting := by
  cases held : reader.loaded with
  | some bytes =>
      simp only [ensureLoaded, held]
      exact .of_silent rfl fun rest => rfl
  | none =>
      obtain ⟨replies, given, again⟩ := file.replay_load reader.offset reader.length source
      simp only [ensureLoaded, held, File.load_beside]
      generalize file.load reader.offset reader.length source = loading at given again ⊢
      refine ⟨replies, ?_, fun rest => ?_⟩
      · obtain ⟨bytes | error | cause, reached, events⟩ := loading
        · simp only [Step.mapState, hold, Tracker.hear_tracked_logged]
          by_cases fits : counter.Fits reader.length
          · simpa only [if_pos fits] using given
          · simpa only [if_neg fits] using given
        · exact given
        · exact given
      · simp only [again rest]
        obtain ⟨bytes | error | cause, reached, events⟩ := loading
        · simp only [Step.mapState, hold, Tracker.hear_tracked_logged]
          by_cases fits : counter.Fits reader.length
          · simp only [if_pos fits, answered]
          · simp only [if_neg fits, answered]
        · rfl
        · rfl

theorem replay_read (buffer : Bytes) (source : σ) :
    ∃ replies,
      file.Gives source replies
        (reader.read file.beside buffer ⟨counter, source⟩ .counting).state.2.source ∧
      ∀ rest, reader.read File.replaying.beside buffer ⟨counter, replies ++ rest⟩ .counting =
        (reader.read file.beside buffer ⟨counter, source⟩ .counting).mapState (answered rest) := by
  simp only [read]
  split
  · exact ⟨[], .nil _, fun rest => rfl⟩
  · obtain ⟨replies, given, again⟩ := replay_ensureLoaded file reader counter source
    dsimp only at again
    generalize reader.ensureLoaded file.beside ⟨counter, source⟩ .counting = loading
      at given again ⊢
    refine ⟨replies, ?_, fun rest => ?_⟩
    · obtain ⟨bytes | error | cause, ⟨holder, shared⟩, events⟩ := loading
      · dsimp only
        rw [Tracker.source_hear]
        exact given
      · exact given
      · exact given
    · rw [again rest]
      obtain ⟨bytes | error | cause, ⟨holder, shared⟩, events⟩ := loading
      · simp only [Step.mapState, answered,
          Tracker.hear_counting _ _ shared.counter shared.source rest]
        rfl
      · rfl
      · rfl

theorem replay_streamRead (buffer : Bytes) (source : σ) :
    ∃ replies,
      file.Gives source replies
        (reader.streamRead file.beside buffer ⟨counter, source⟩ .counting).state.2.source ∧
      ∀ rest, reader.streamRead File.replaying.beside buffer ⟨counter, replies ++ rest⟩ .counting =
        (reader.streamRead file.beside buffer ⟨counter, source⟩ .counting).mapState
          (answered rest) := by
  obtain ⟨replies, given, again⟩ := replay_read file reader counter buffer source
  refine ⟨replies, given, fun rest => ?_⟩
  rw [streamRead, again rest]
  rfl

theorem replay_gather (demand : Demand) (shared : Shared σ) :
    Replays file shared.source (reader.gather file.beside demand shared .counting) fun replies =>
      reader.gather File.replaying.beside demand ⟨shared.counter, replies⟩ .counting := by
  fun_induction ChunkReader.gather file.beside demand reader shared Tracker.counting with
  | case1 reader shared =>
      refine .of_silent rfl fun rest => ?_
      rw [gather_exactly_zero]
      rfl
  | case2 demand reader shared wanted reading count given ih =>
      obtain ⟨replies, answers, again⟩ :=
        replay_streamRead file reader shared.counter (List.replicate demand.room 0) shared.source
      obtain ⟨later, later_answers, again_later⟩ := ih
      refine ⟨replies ++ later, answers.append later_answers, fun rest => ?_⟩
      have first := again (later ++ rest)
      dsimp only
      have given_too := (congrArg (·.outcome) first).trans given
      rw [List.append_assoc, gather_of_given wanted given_too, first]
      exact congrArg (fun step : Step (ChunkReader × Shared (List Reply)) IoError Bytes =>
        (step.map (reading.buffer.take (count + 1) ++ ·)).after reading.events) (again_later rest)
  | case3 demand reader shared wanted reading ended =>
      obtain ⟨replies, answers, again⟩ :=
        replay_streamRead file reader shared.counter (List.replicate demand.room 0) shared.source
      refine ⟨replies, answers, fun rest => ?_⟩
      have ended_too : ∀ count, (reader.streamRead File.replaying.beside
          (List.replicate demand.room 0) ⟨shared.counter, replies ++ rest⟩ .counting).outcome ≠
            .done (count + 1) := by
        rw [again rest]
        exact ended
      dsimp only
      rw [gather_of_ended wanted ended_too, again rest]
      rfl

theorem replay_apart (fault : ε → Fault) (answer : α → Answer) (source : σ)
    (result : Except ε α × ChunkReader) :
    Replays file source (apart fault answer ⟨counter, source⟩ result) fun replies =>
      apart fault answer ⟨counter, replies⟩ result := by
  obtain ⟨error | value, moved⟩ := result <;> exact .of_silent rfl fun rest => rfl

/-- Every command goes the same way if the reads it makes are answered again. -/
theorem replay_perform (command : ReaderCommand) (source : σ) :
    Replays file source (reader.perform file.beside command ⟨counter, source⟩ .counting)
      fun replies => reader.perform File.replaying.beside command ⟨counter, replies⟩ .counting := by
  cases command with
  | prefetch =>
      exact ((replay_ensureLoaded file reader counter source).mapOutcome _).mapOutcome _
        |>.mapOutcome _
  | read room =>
      obtain ⟨replies, given, again⟩ :=
        replay_read file reader counter (List.replicate room 0) source
      refine ⟨replies, given, fun rest => ?_⟩
      simp only [perform, again rest]
      rfl
  | streamRead room =>
      obtain ⟨replies, given, again⟩ :=
        replay_streamRead file reader counter (List.replicate room 0) source
      refine ⟨replies, given, fun rest => ?_⟩
      simp only [perform, again rest]
      rfl
  | streamExact wanted =>
      have gathering := replay_gather file reader (.exactly wanted) ⟨counter, source⟩
      exact (gathering.mapOutcome _).mapOutcome _
  | streamToEnd =>
      exact ((replay_gather file reader (.blocks blockLength) ⟨counter, source⟩).mapOutcome
        _).mapOutcome _
  | file request =>
      obtain ⟨replies, given, again⟩ := file.replay_serve request source
      simp only [perform, File.serve_beside]
      refine ⟨replies, given, fun rest => ?_⟩
      dsimp only
      rw [again rest]
      rfl
  | close =>
      refine .of_silent ?_ fun rest => ?_
      · exact Tracker.source_hear _ _ _
      · simp only [perform, close, Tracker.hear_counting _ _ counter source rest]
        rfl
  | range => exact .of_silent rfl fun rest => rfl
  | seek | seekPosition | seekLength | reset | streamSeek | streamRewind | streamPosition =>
      simp only [perform]
      exact replay_apart file counter _ _ source _

end ChunkReader
end BulkTransfer
