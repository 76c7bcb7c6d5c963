import BulkTransfer.Proofs.ChunkReader.Counting
import BulkTransfer.Proofs.ChunkReader.Serving
import BulkTransfer.Proofs.ChunkReader.Tracking
import BulkTransfer.Proofs.ChunkReader.Turns
import BulkTransfer.Proofs.File.Honest

/-!
# When a chunk reader is cut off

On an honest file two things cut a chunk reader off. One is a chunk that is too long to be held, at
the moment when it has to be loaded, and then nothing has been done yet. The other is the byte
counter, where it cannot take the length of a chunk that has been loaded or is let go. Everything
else that a sound reader counts, cuts off a buffer or adds to its position stays in range.
-/

namespace BulkTransfer

variable {σ : Type}

/-- An amount that is added to the byte counter is one that a signed number can tell. -/
def Event.Signed : Event → Prop
  | tracked delta => -(signedMax : Int) ≤ delta ∧ delta ≤ signedMax
  | called _ | moved _ | logged _ => True

/-- Whether an answer tells of a read of the file that was cut off. -/
def Answer.isCutOff : Answer → Bool
  | positioned outcome _ => outcome.isAborted
  | nothing | number _ | range _ _ | portion _ _ | stream _ | exact _ => false

/-- Whether a command was cut off, or a read of the file that it asked for. -/
def Outcome.isCutOff : Outcome Fault Answer → Bool
  | done answer => answer.isCutOff
  | failed _ => false
  | aborted _ => true

theorem Step.isCutOff_answered {ε α : Type} {answer : α → Answer}
    (own : ∀ value, (answer value).isCutOff = false) (fault : ε → Fault) (step : Step σ ε α) :
    ((step.map answer).mapError fault).outcome.isCutOff = step.outcome.isAborted := by
  obtain ⟨value | error | cause, reached, events⟩ := step
  · exact own value
  · rfl
  · rfl

/-- Whether a command has to load a chunk that is too long to be held. -/
def ReaderCommand.overloads (command : ReaderCommand) (reader : ChunkReader) : Prop :=
  command.loads reader = true ∧ signedMax < reader.length

/-- Whether the byte counter cannot take what a command tells it, which is the length of the chunk:
added once the chunk has been loaded, or taken off when one that was held is let go. -/
def ReaderCommand.overcounts (command : ReaderCommand) (file : File (Shared σ))
    (reader : ChunkReader) (shared : Shared σ) : Prop :=
  let loading := file.load reader.offset reader.length shared
  (command.loads reader = true ∧ (∃ bytes, loading.outcome = .done bytes) ∧
    ¬ loading.state.counter.Fits reader.length) ∨
  (reader.isLoaded = true ∧ command.finishes reader = true ∧
    ¬ shared.counter.Fits (-reader.length))

/-- Loading a chunk that is not too long is never cut off. -/
theorem File.Honest.isAborted_load {file : File σ} (honest : file.Honest) {length : Nat}
    (fits : length ≤ signedMax) (offset : Nat) (source : σ) :
    (file.load offset length source).outcome.isAborted = false := by
  have calm := honest.isAborted_fill offset (List.replicate length 0) source
  rcases file.load_cases offset length source with
    ⟨long, _⟩ | ⟨_, ⟨_, cut, _⟩ | ⟨_, _, load⟩ | ⟨_, load⟩ | ⟨_, _, _, load⟩⟩
  · exact absurd fits (Nat.not_le.mpr long)
  · rw [cut] at calm
    cases calm
  · rw [load]
    rfl
  · rw [load]
    rfl
  · rw [load]
    rfl

namespace ChunkReader

/-- Whether a demand takes the last byte of a chunk. -/
def Demand.finishes (demand : Demand) (reader : ChunkReader) : Prop :=
  match demand with
  | exactly wanted =>
      0 < reader.count wanted ∧ reader.position + reader.count wanted = reader.length
  | blocks _ => reader.position < reader.length

theorem Demand.finishes_past {demand : Demand} {reader : ChunkReader} {count : Nat}
    (given : reader.count demand.room = count) (more : reader.position + count < reader.length) :
    (demand.past count).finishes { reader with position := reader.position + count } ↔
      demand.finishes reader := by
  cases demand with
  | exactly wanted =>
      simp only [finishes, past, ChunkReader.count, room] at given ⊢
      omega
  | blocks length =>
      simp only [finishes, past]
      omega

theorem Demand.finishes_of_last {demand : Demand} {reader : ChunkReader}
    (before : reader.position < reader.length)
    (last : reader.position + reader.count demand.room = reader.length) :
    demand.finishes reader := by
  cases demand with
  | exactly wanted =>
      change reader.position + reader.count wanted = _ at last
      exact ⟨by omega, last⟩
  | blocks length => exact before

theorem Demand.isAborted_close (demand : Demand) (outcome : Outcome IoError Nat) :
    (demand.close outcome).isAborted = outcome.isAborted := by
  cases demand <;> cases outcome <;> rfl

variable {file : File (Shared σ)} {reader : ChunkReader} {command : ReaderCommand}
  {shared : Shared σ} {bytes : Bytes}

theorem isCutOff_apart {ε α : Type} (fault : ε → Fault) {answer : α → Answer}
    (own : ∀ value, (answer value).isCutOff = false) (result : Except ε α × ChunkReader) :
    (apart fault answer shared result).outcome.isCutOff = false := by
  obtain ⟨error | value, moved⟩ := result
  · rfl
  · exact own value

@[simp]
theorem isAborted_streamRead {τ : Type} (file : File τ) (buffer : Bytes) (source : τ)
    (tracker : Tracker τ) :
    (reader.streamRead file buffer source tracker).outcome.isAborted =
      (reader.read file buffer source tracker).outcome.isAborted := by
  change (Outcome.mapError _ (Outcome.map _ _)).isAborted = _
  rw [Outcome.isAborted_mapError, Outcome.isAborted_map]

/-! ## A chunk that is held -/

section Held

variable (held : reader.loaded = some bytes) (whole : bytes.length = reader.length)

include held whole

/-- A read from a chunk that is held is cut off only if it lets go and the counter does not take
that. -/
theorem streamRead_held_cases (before : reader.position < reader.length) (buffer : Bytes) :
    let reading := reader.streamRead file buffer shared .counting
    let count := reader.count buffer.length
    (reader.position + count < reader.length ∧ reading.outcome = .done count ∧
      reading.state = ({ reader with position := reader.position + count }, shared)) ∨
    (reader.position + count = reader.length ∧ shared.counter.Fits (-reader.length) ∧
      reading.outcome = .done count ∧ reading.state.1.position = reader.length) ∨
    (reader.position + count = reader.length ∧ ¬ shared.counter.Fits (-reader.length) ∧
      reading.outcome = .aborted .counterOverflow) := by
  intro reading count
  have left : (bytes.drop reader.position).length = reader.length - reader.position := by
    rw [List.length_drop, whole]
  rcases Nat.lt_or_ge buffer.length (bytes.drop reader.position).length with more | last
  · have given : count = buffer.length := by
      rw [left] at more
      exact Nat.min_eq_left (Nat.le_of_lt more)
    have step : reader.read file buffer shared .counting = _ := read_full held before whole more
    simp only [reading, streamRead, step, given]
    exact .inl ⟨by omega, rfl, rfl⟩
  · have given : count = (bytes.drop reader.position).length := by
      rw [left] at last ⊢
      exact Nat.min_eq_right last
    have step : reader.read file buffer shared .counting = _ := read_last held before whole last
    have ended : reader.length ≤ reader.position + (bytes.drop reader.position).length := by
      rw [left]
      omega
    have advanced : (reader.advance (bytes.drop reader.position).length).2 =
        [.tracked (-reader.length), .logged (.discarded reader.length reader.offset)] := by
      rw [advance, if_pos ended, release]
      simp only [held]
    rw [advanced, Tracker.hear_tracked_logged] at step
    simp only [reading, streamRead, step, given]
    right
    by_cases fits : shared.counter.Fits (-reader.length)
    · rw [if_pos fits]
      refine .inl ⟨by omega, fits, rfl, ?_⟩
      simp only [Transfer.mapOutcome, position_advance]
      omega
    · rw [if_neg fits]
      exact .inr ⟨by omega, fits, rfl⟩

theorem isAborted_read_of_held (before : reader.position < reader.length) (buffer : Bytes) :
    (reader.read file buffer shared .counting).outcome.isAborted = true ↔
      reader.position + reader.count buffer.length = reader.length ∧
        ¬ shared.counter.Fits (-reader.length) := by
  rw [← isAborted_streamRead]
  rcases @streamRead_held_cases _ file reader shared bytes held whole before buffer with
    ⟨more, outcome, _⟩ | ⟨last, fits, outcome, _⟩ | ⟨last, refused, outcome⟩ <;> rw [outcome]
  · exact iff_of_false Bool.false_ne_true fun both => absurd both.1 (Nat.ne_of_lt more)
  · exact iff_of_false Bool.false_ne_true fun both => absurd fits both.2
  · exact ⟨fun _ => ⟨last, refused⟩, fun _ => rfl⟩

omit held whole in
theorem isAborted_gather_of_end {demand : Demand} (ended : reader.length ≤ reader.position) :
    (reader.gather file demand shared .counting).outcome.isAborted = false := by
  by_cases met : demand = .exactly 0
  · rw [met, gather_exactly_zero]
    rfl
  · rw [gather_of_end met ended, Demand.isAborted_close]
    rfl

omit held whole in
theorem Demand.not_finishes_of_end {demand : Demand} (ended : reader.length ≤ reader.position) :
    ¬ demand.finishes reader := by
  cases demand with
  | exactly wanted =>
      simp only [finishes, ChunkReader.count]
      omega
  | blocks length => exact Nat.not_lt.mpr ended

omit held whole in
/-- Gathering from a chunk that is held is cut off only where the last byte is taken. -/
theorem isAborted_gather_of_held (demand : Demand) (shared : Shared σ) :
    ∀ bytes, demand.Roomy → reader.loaded = some bytes → bytes.length = reader.length →
      ((reader.gather file demand shared .counting).outcome.isAborted = true ↔
        demand.finishes reader ∧ ¬ shared.counter.Fits (-reader.length)) := by
  fun_induction ChunkReader.gather file demand reader shared Tracker.counting with
  | case1 reader shared =>
      intro bytes _ held whole
      refine iff_of_false Bool.false_ne_true fun both => ?_
      have none_taken := both.1.1
      simp only [count] at none_taken
      omega
  | case2 demand reader shared wanted reading count given ih =>
      intro bytes roomy held whole
      rw [Step.after, Step.isAborted_map]
      have before : reader.position < reader.length := by
        refine Nat.lt_of_not_le fun ended => ?_
        simp only [reading, streamRead_of_end _ ended, Transfer.leaving] at given
        cases given
      have room : (List.replicate demand.room (0 : UInt8)).length = demand.room :=
        List.length_replicate
      rcases @streamRead_held_cases _ file reader shared bytes held whole before
          (List.replicate demand.room 0) with
        ⟨more, outcome, state⟩ | ⟨last, fits, outcome, stands⟩ | ⟨_, _, outcome⟩
      · have some_given := Outcome.done.inj (outcome.symm.trans given)
        rw [room] at more state some_given
        have past := demand.finishes_past some_given (some_given ▸ more)
        have later := ih bytes (roomy.past (count + 1))
        simp only [reading, state, some_given] at later past ⊢
        rw [later held whole, past]
      · have ended : reading.state.1.length ≤ reading.state.1.position := by
          rw [show reading.state.1.position = _ from stands]
          exact Nat.le_of_eq (reader.length_read file _ shared .counting)
        rw [isAborted_gather_of_end ended]
        exact iff_of_false Bool.false_ne_true fun both => absurd fits both.2
      · cases outcome.symm.trans given
  | case3 demand reader shared wanted reading ended =>
      intro bytes roomy held whole
      have some_room := roomy wanted
      rw [Demand.isAborted_close]
      rcases Nat.lt_or_ge reader.position reader.length with before | at_end
      · have room : (List.replicate demand.room (0 : UInt8)).length = demand.room :=
          List.length_replicate
        have some_given : 0 < reader.count demand.room := by
          rw [count]
          omega
        obtain ⟨less, given⟩ := Nat.exists_eq_succ_of_ne_zero (Nat.ne_of_gt some_given)
        rcases @streamRead_held_cases _ file reader shared bytes held whole before
            (List.replicate demand.room 0) with
          ⟨_, outcome, _⟩ | ⟨_, _, outcome, _⟩ | ⟨last, refused, outcome⟩
        · exact absurd (outcome.trans (by rw [room, given])) (ended less)
        · exact absurd (outcome.trans (by rw [room, given])) (ended less)
        · rw [room] at last
          rw [show reading.outcome = _ from outcome]
          exact ⟨fun _ => ⟨demand.finishes_of_last before last, refused⟩, fun _ => rfl⟩
      · have reading_end : reading = _ := streamRead_of_end _ at_end
        rw [reading_end]
        exact iff_of_false Bool.false_ne_true fun both => demand.not_finishes_of_end at_end both.1

/-- A command that wants bytes of a chunk that is held is cut off only if it is done with them, and
the counter does not take that. -/
theorem isCutOff_perform_of_held (wants : command.wants reader = true) (shared : Shared σ) :
    (reader.perform file command shared .counting).outcome.isCutOff = true ↔
      command.finishes reader = true ∧ ¬ shared.counter.Fits (-reader.length) := by
  cases command with
  | prefetch =>
      rw [perform, Step.isCutOff_answered fun _ => rfl, prefetch, Step.isAborted_map,
        ensureLoaded_of_some file reader shared held .counting]
      exact iff_of_false Bool.false_ne_true fun both => Bool.false_ne_true both.1
  | read room | streamRead room =>
      have before : reader.position < reader.length := of_decide_eq_true wants
      have cut := @isAborted_read_of_held _ file reader shared bytes held whole before
        (List.replicate room 0)
      rw [List.length_replicate] at cut
      have last : 0 < reader.count room ∧ reader.position + reader.count room = reader.length ↔
          reader.position + reader.count room = reader.length := by
        omega
      rw [perform, Step.isCutOff_answered fun _ => rfl, ReaderCommand.finishes, decide_eq_true_iff,
        last, ← cut, ← isAborted_streamRead]
  | streamExact wanted =>
      rw [perform, Step.isCutOff_answered fun _ => rfl, streamExact,
        isAborted_gather_of_held (.exactly wanted) shared bytes (Demand.roomy_exactly wanted) held
          whole]
      simp [Demand.finishes, ReaderCommand.finishes]
  | streamToEnd =>
      have some_room : 0 < blockLength := by decide
      rw [perform, Step.isCutOff_answered fun _ => rfl, streamToEnd, drain,
        isAborted_gather_of_held (.blocks blockLength) shared bytes (Demand.roomy_blocks some_room)
          held whole]
      simp [Demand.finishes, ReaderCommand.finishes]
  | _ => cases wants

end Held

/-! ## A chunk that has to be loaded -/

section Loading

variable {τ : Type} {file : File τ} {source reached : τ} {tracker : Tracker τ}
  {holder : ChunkReader} {events : List Event}

theorem gather_of_loaded {demand : Demand} (wanted : demand ≠ .exactly 0)
    (before : reader.position < reader.length)
    (loads : reader.ensureLoaded file source tracker = ⟨.done bytes, (holder, reached), events⟩) :
    reader.gather file demand source tracker =
      (holder.gather file demand reached tracker).after events := by
  have reading : reader.streamRead file (List.replicate demand.room 0) source tracker =
      (holder.streamRead file (List.replicate demand.room 0) reached tracker).after events := by
    rw [streamRead, read_of_loaded before loads]
    rfl
  by_cases given : ∃ count, (holder.streamRead file (List.replicate demand.room 0) reached
      tracker).outcome = .done (count + 1)
  · obtain ⟨count, given⟩ := given
    have given_first : (reader.streamRead file (List.replicate demand.room 0) source
        tracker).outcome = .done (count + 1) := by
      rw [reading]
      exact given
    rw [gather_of_given wanted given, gather_of_given wanted given_first, reading]
    simp [Step.after, Transfer.after, Step.map, Step.mapOutcome]
  · have ended := not_exists.mp given
    have ended_first : ∀ count, (reader.streamRead file (List.replicate demand.room 0) source
        tracker).outcome ≠ .done (count + 1) := by
      rw [reading]
      exact ended
    rw [gather_of_ended wanted ended, gather_of_ended wanted ended_first, reading]
    rfl

/-- A command that wants bytes ends, once the chunk is loaded, as if it had been held. -/
theorem outcome_perform_of_loaded (wants : command.wants reader = true)
    (loads : reader.ensureLoaded file source tracker = ⟨.done bytes, (holder, reached), events⟩) :
    (reader.perform file command source tracker).outcome =
      (holder.perform file command reached tracker).outcome := by
  cases command with
  | prefetch =>
      have holds : holder = { reader with loaded := some bytes } := by
        have state := loaded_of_ensureLoaded file source (congrArg Step.outcome loads)
        rw [loads] at state
        exact state
      subst holds
      simp only [perform, prefetch, loads]
      rfl
  | read room =>
      have before : reader.position < reader.length := of_decide_eq_true wants
      simp only [perform, read_of_loaded before loads]
      rfl
  | streamRead room =>
      have before : reader.position < reader.length := of_decide_eq_true wants
      simp only [perform, streamRead, read_of_loaded before loads]
      rfl
  | streamExact wanted =>
      have needs : 0 < wanted ∧ reader.position < reader.length := of_decide_eq_true wants
      simp only [perform, streamExact,
        gather_of_loaded (Demand.exactly_ne_zero needs.1) needs.2 loads]
      rfl
  | streamToEnd =>
      have before : reader.position < reader.length := of_decide_eq_true wants
      simp only [perform, streamToEnd, drain,
        gather_of_loaded (Demand.blocks_ne_zero _) before loads]
      rfl
  | _ => cases wants

section Refused

variable (refused : ∀ bytes, (reader.ensureLoaded file source tracker).outcome ≠ .done bytes)

include refused

theorem isAborted_read_of_refused (before : reader.position < reader.length) (buffer : Bytes) :
    (∀ portion, (reader.read file buffer source tracker).outcome ≠ .done portion) ∧
      (reader.read file buffer source tracker).outcome.isAborted =
        (reader.ensureLoaded file source tracker).outcome.isAborted := by
  rcases read_cases file reader source tracker buffer before with
    ⟨bytes, done, _⟩ | ⟨_, failed, step⟩ | ⟨_, aborted, step⟩
  · exact absurd done (refused bytes)
  · rw [step, failed]
    exact ⟨by simp, rfl⟩
  · rw [step, aborted]
    exact ⟨by simp, rfl⟩

theorem isAborted_gather_of_refused {demand : Demand} (wanted : demand ≠ .exactly 0)
    (before : reader.position < reader.length) :
    (reader.gather file demand source tracker).outcome.isAborted =
      (reader.ensureLoaded file source tracker).outcome.isAborted := by
  obtain ⟨nothing, same⟩ :=
    isAborted_read_of_refused refused before (List.replicate demand.room 0)
  have ended : ∀ count, (reader.streamRead file (List.replicate demand.room 0) source
      tracker).outcome ≠ .done (count + 1) := by
    intro count given
    change ((reader.read file _ source tracker).outcome.map _).mapError _ = _ at given
    cases ending : (reader.read file (List.replicate demand.room 0) source tracker).outcome with
    | done portion => exact nothing portion ending
    | failed | aborted =>
        rw [ending] at given
        cases given
  rw [gather_of_ended wanted ended, Demand.isAborted_close, isAborted_streamRead, same]

theorem isCutOff_perform_of_refused (wants : command.wants reader = true) :
    (reader.perform file command source tracker).outcome.isCutOff =
      (reader.ensureLoaded file source tracker).outcome.isAborted := by
  cases command with
  | prefetch => rw [perform, Step.isCutOff_answered fun _ => rfl, prefetch, Step.isAborted_map]
  | read room =>
      have before : reader.position < reader.length := of_decide_eq_true wants
      rw [perform, Step.isCutOff_answered fun _ => rfl]
      exact (isAborted_read_of_refused refused before _).2
  | streamRead room =>
      have before : reader.position < reader.length := of_decide_eq_true wants
      rw [perform, Step.isCutOff_answered fun _ => rfl, isAborted_streamRead]
      exact (isAborted_read_of_refused refused before _).2
  | streamExact wanted =>
      have needs : 0 < wanted ∧ reader.position < reader.length := of_decide_eq_true wants
      rw [perform, Step.isCutOff_answered fun _ => rfl]
      exact isAborted_gather_of_refused refused (Demand.exactly_ne_zero needs.1) needs.2
  | streamToEnd =>
      have before : reader.position < reader.length := of_decide_eq_true wants
      rw [perform, Step.isCutOff_answered fun _ => rfl]
      exact isAborted_gather_of_refused refused (Demand.blocks_ne_zero _) before
  | _ => cases wants

end Refused

section TooLong

variable (vacant : reader.loaded = none) (long : signedMax < reader.length)

include vacant long

theorem ensureLoaded_of_tooLong :
    reader.ensureLoaded file source tracker = ⟨.aborted .chunkTooLong, (reader, source), []⟩ := by
  simp only [ensureLoaded, vacant, File.load, if_pos long]

theorem streamRead_of_tooLong (before : reader.position < reader.length) (buffer : Bytes) :
    reader.streamRead file buffer source tracker =
      ⟨⟨.aborted .chunkTooLong, (reader, source), []⟩, buffer⟩ := by
  rw [streamRead, read, if_neg (Nat.not_le.mpr before), ensureLoaded_of_tooLong vacant long]
  rfl

theorem gather_of_tooLong {demand : Demand} (wanted : demand ≠ .exactly 0)
    (before : reader.position < reader.length) :
    reader.gather file demand source tracker =
      ⟨.aborted .chunkTooLong, (reader, source), []⟩ := by
  have reading : reader.streamRead file (List.replicate demand.room 0) source tracker = _ :=
    streamRead_of_tooLong vacant long before _
  rw [gather_of_ended wanted (by simp [reading]), reading]
  cases demand <;> rfl

/-- A command that wants bytes of a chunk that is too long is cut off before it does anything. -/
theorem perform_of_tooLong (wants : command.wants reader = true) :
    reader.perform file command source tracker =
      ⟨.aborted .chunkTooLong, (reader, source), []⟩ := by
  cases command with
  | prefetch =>
      rw [perform, prefetch, ensureLoaded_of_tooLong vacant long]
      rfl
  | read room =>
      have before : reader.position < reader.length := of_decide_eq_true wants
      rw [perform, read, if_neg (Nat.not_le.mpr before), ensureLoaded_of_tooLong vacant long]
      rfl
  | streamRead room =>
      have before : reader.position < reader.length := of_decide_eq_true wants
      rw [perform, streamRead_of_tooLong vacant long before]
      rfl
  | streamExact wanted =>
      have needs : 0 < wanted ∧ reader.position < reader.length := of_decide_eq_true wants
      rw [perform, streamExact,
        gather_of_tooLong vacant long (Demand.exactly_ne_zero needs.1) needs.2]
      rfl
  | streamToEnd =>
      have before : reader.position < reader.length := of_decide_eq_true wants
      rw [perform, streamToEnd, drain,
        gather_of_tooLong vacant long (Demand.blocks_ne_zero _) before]
      rfl
  | _ => cases wants

end TooLong

/-- A command that has to load a chunk that is too long is cut off before it does anything. -/
theorem perform_of_overloads (overloads : command.overloads reader) :
    reader.perform file command source tracker =
      ⟨.aborted .chunkTooLong, (reader, source), []⟩ := by
  obtain ⟨loads, long⟩ := overloads
  rw [ReaderCommand.loads, Bool.and_eq_true, Bool.not_eq_true'] at loads
  have vacant : reader.loaded = none := by simpa [isLoaded] using loads.1
  exact perform_of_tooLong vacant long loads.2

end Loading

/-! ## All commands -/

theorem not_finishes_of_modest (modest : command.wants reader = false) (other : command ≠ .close) :
    command.finishes reader = false := by
  cases command with
  | close => exact absurd rfl other
  | read room | streamRead room =>
      have ended : reader.length ≤ reader.position := by simpa [ReaderCommand.wants] using modest
      simp [ReaderCommand.finishes, count, Nat.sub_eq_zero_of_le ended]
  | streamExact wanted =>
      have none_taken : reader.count wanted = 0 := by
        simp only [ReaderCommand.wants, decide_eq_false_iff_not] at modest
        rw [count]
        omega
      simp [ReaderCommand.finishes, none_taken]
  | streamToEnd => exact modest
  | _ => rfl

theorem wants_hold (command : ReaderCommand) (reader : ChunkReader) (bytes : Bytes) :
    command.wants (reader.hold bytes).1 = command.wants reader := by
  cases command <;> rfl

theorem isCutOff_perform_of_modest (honest : file.Honest) (modest : command.wants reader = false)
    (other : command ≠ .close) :
    (reader.perform file command shared .counting).outcome.isCutOff = false := by
  cases command with
  | prefetch => cases modest
  | close => exact absurd rfl other
  | read room =>
      have ended : reader.length ≤ reader.position := by simpa [ReaderCommand.wants] using modest
      rw [perform, Step.isCutOff_answered fun _ => rfl, read, if_pos ended]
      rfl
  | streamRead room =>
      have ended : reader.length ≤ reader.position := by simpa [ReaderCommand.wants] using modest
      rw [perform, Step.isCutOff_answered fun _ => rfl, streamRead_of_end _ ended]
      rfl
  | streamExact wanted =>
      rw [perform, Step.isCutOff_answered fun _ => rfl, streamExact]
      by_cases met : Demand.exactly wanted = .exactly 0
      · rw [met, gather_exactly_zero]
        rfl
      · have positive : 0 < wanted := Demand.roomy_exactly wanted met
        have ended : reader.length ≤ reader.position := by
          simpa [ReaderCommand.wants, positive] using modest
        exact isAborted_gather_of_end ended
  | streamToEnd =>
      have ended : reader.length ≤ reader.position := by simpa [ReaderCommand.wants] using modest
      rw [perform, Step.isCutOff_answered fun _ => rfl]
      exact isAborted_gather_of_end ended
  | seek | seekPosition | seekLength | reset | streamSeek | streamRewind | streamPosition =>
      exact isCutOff_apart _ (fun _ => rfl) _
  | range => rfl
  | file request => exact honest.isAborted_serve request shared

theorem outcome_hear_release {ε α : Type} (value : α) (reader : ChunkReader) (shared : Shared σ) :
    (Tracker.counting.hear value reader.release.2 shared : Step _ ε α).outcome =
      if reader.isLoaded = true ∧ ¬ shared.counter.Fits (-reader.length) then
        .aborted .counterOverflow
      else .done value := by
  cases held : reader.loaded with
  | none => simp [release, held, isLoaded]
  | some bytes =>
      simp only [release, held, isLoaded, Option.isSome_some, true_and, Tracker.hear_tracked_logged]
      by_cases fits : shared.counter.Fits (-reader.length)
      · rw [if_pos fits, if_neg (fun unfit => unfit fits)]
      · rw [if_neg fits, if_pos fits]

theorem isCutOff_close :
    (reader.perform file .close shared .counting).outcome.isCutOff = true ↔
      reader.isLoaded = true ∧ ¬ shared.counter.Fits (-reader.length) := by
  change ((Tracker.counting.hear () reader.release.2 shared : Step _ Fault Unit).outcome.map
    fun _ => Answer.nothing).isCutOff = true ↔ _
  rw [outcome_hear_release]
  split
  · next refused => exact ⟨fun _ => refused, fun _ => rfl⟩
  · next taken => exact iff_of_false Bool.false_ne_true taken

/-- A command that has to load a chunk that is not too long is cut off just if the counter does not
take the length of what was loaded. -/
theorem isCutOff_perform_of_vacant (honest : file.Honest) (vacant : reader.loaded = none)
    (short : reader.length ≤ signedMax) (wants : command.wants reader = true) :
    let loading := file.load reader.offset reader.length shared
    (reader.perform file command shared .counting).outcome.isCutOff = true ↔
      (∃ bytes, loading.outcome = .done bytes) ∧ ¬ loading.state.counter.Fits reader.length := by
  intro loading
  rcases ensureLoaded_counting file reader shared vacant with
    ⟨bytes, done, ⟨fits, step⟩ | ⟨refused, step⟩⟩ | ⟨nothing, step⟩
  · -- The counter that took the length of the chunk takes it off again.
    have held : (reader.hold bytes).1.loaded = some bytes := rfl
    have whole : bytes.length = reader.length := (whole_of_load file shared done).1
    have lasting := @isCutOff_perform_of_held _ file _ command bytes held whole
      ((wants_hold command reader bytes).trans wants)
      { loading.state with counter := loading.state.counter.add reader.length }
    rw [outcome_perform_of_loaded wants step, lasting]
    exact ⟨fun both => absurd (Counter.fits_neg fits) both.2, fun both => absurd fits both.2⟩
  · have refuses : ∀ bytes, (reader.ensureLoaded file shared .counting).outcome ≠ .done bytes := by
      simp [step]
    rw [isCutOff_perform_of_refused refuses wants, step]
    exact ⟨fun _ => ⟨⟨bytes, done⟩, refused⟩, fun _ => rfl⟩
  · have refuses : ∀ bytes, (reader.ensureLoaded file shared .counting).outcome ≠ .done bytes := by
      rw [step]
      exact nothing
    rw [isCutOff_perform_of_refused refuses wants, step,
      honest.isAborted_load short reader.offset shared]
    exact iff_of_false Bool.false_ne_true fun both => not_exists.mpr nothing both.1

/-- On an honest file a command is cut off exactly if it has to load a chunk that is too long, or
the counter does not take what it is told. -/
theorem isCutOff_perform_iff (honest : file.Honest) (sound : reader.Sound) :
    (reader.perform file command shared .counting).outcome.isCutOff = true ↔
      command.overloads reader ∨ command.overcounts file reader shared := by
  cases wants : command.wants reader with
  | false =>
      have silent : command.loads reader = false := by simp [ReaderCommand.loads, wants]
      by_cases closes : command = .close
      · subst closes
        simp [isCutOff_close, ReaderCommand.overloads, ReaderCommand.overcounts, silent,
          ReaderCommand.finishes]
      · simp [isCutOff_perform_of_modest honest wants closes, ReaderCommand.overloads,
          ReaderCommand.overcounts, silent, not_finishes_of_modest wants closes]
  | true =>
      cases held : reader.loaded with
      | some bytes =>
          have holds : reader.isLoaded = true := by simp [isLoaded, held]
          rw [isCutOff_perform_of_held held (sound.whole bytes held) wants]
          simp [ReaderCommand.overloads, ReaderCommand.overcounts, ReaderCommand.loads, holds]
      | none =>
          have vacant : reader.isLoaded = false := by simp [isLoaded, held]
          have loads : command.loads reader = true := by simp [ReaderCommand.loads, vacant, wants]
          by_cases long : signedMax < reader.length
          · rw [perform_of_tooLong held long wants]
            exact ⟨fun _ => .inl ⟨loads, long⟩, fun _ => rfl⟩
          · have bearable : ¬ command.overloads reader := fun heavy => long heavy.2
            have short := Nat.le_of_not_lt long
            rw [or_iff_right bearable]
            refine (isCutOff_perform_of_vacant honest held short wants).trans ?_
            simp [ReaderCommand.overcounts, loads, vacant]

/-! ## What stays in range -/

section Signed

variable {τ : Type} {file : File τ} {source : τ} {tracker : Tracker τ}

theorem signed_release (fits : reader.isLoaded = true → reader.length ≤ signedMax) :
    ∀ event ∈ reader.release.2, event.Signed := by
  intro event member
  rcases release_cases reader with ⟨_, step⟩ | ⟨holds, step⟩
  · rw [step] at member
    cases member
  · have short := fits holds
    rw [step] at member
    rcases List.mem_cons.mp member with rfl | logged
    · exact ⟨by omega, by omega⟩
    · cases List.mem_singleton.mp logged
      trivial

theorem signed_hold (fits : reader.length ≤ signedMax) (bytes : Bytes) :
    ∀ event ∈ (reader.hold bytes).2, event.Signed := by
  intro event member
  rcases List.mem_cons.mp member with rfl | logged
  · exact ⟨by omega, by omega⟩
  · cases List.mem_singleton.mp logged
    trivial

theorem Foreign.signed {event : Event} (foreign : Foreign file event) :
    file.Emits event ∨ event.Signed := by
  rcases foreign with emitted | ⟨details, rfl⟩
  · exact .inl emitted
  · exact .inr trivial

theorem signed_ensureLoaded : ∀ event ∈ (reader.ensureLoaded file source tracker).events,
    file.Emits event ∨ event.Signed := by
  intro event member
  cases held : reader.loaded with
  | some bytes =>
      rw [ensureLoaded_of_some file reader source held tracker] at member
      cases member
  | none =>
      rcases ensureLoaded_cases file reader source tracker held with
        ⟨bytes, done, ⟨_, step⟩ | ⟨_, _, step⟩⟩ | ⟨_, _, step⟩ | ⟨_, _, step⟩ <;>
        rw [step] at member
      · obtain ⟨_, fits⟩ := whole_of_load file source done
        rcases List.mem_append.mp member with loading | holding
        · exact (foreign_of_mem_load file source loading).signed
        · exact .inr (signed_hold fits bytes event (Tracker.mem_of_mem_hear holding))
      · obtain ⟨_, fits⟩ := whole_of_load file source done
        rcases List.mem_append.mp member with loading | holding
        · exact (foreign_of_mem_load file source loading).signed
        · exact .inr (signed_hold fits bytes event (Tracker.mem_of_mem_hear holding))
      · exact (foreign_of_mem_load file source member).signed
      · exact (foreign_of_mem_load file source member).signed

theorem signed_advance (fits : reader.isLoaded = true → reader.length ≤ signedMax) (count : Nat) :
    ∀ event ∈ (reader.advance count).2, event.Signed := by
  intro event member
  rcases advance_cases reader count with ⟨_, step⟩ | ⟨_, step⟩ <;> rw [step] at member
  · refine signed_release ?_ event member
    exact fits
  · cases member

theorem signed_read (sound : reader.Sound) (buffer : Bytes) :
    ∀ event ∈ (reader.read file buffer source tracker).events,
      file.Emits event ∨ event.Signed := by
  intro event member
  rcases Nat.lt_or_ge reader.position reader.length with before | ended
  · have loading := @signed_ensureLoaded reader τ file source tracker
    have holder : (reader.ensureLoaded file source tracker).state.1.Sound :=
      ((always_sound file tracker).ensureLoaded sound trivial).1
    rcases read_cases file reader source tracker buffer before with
      ⟨bytes, _, step⟩ | ⟨_, _, step⟩ | ⟨_, _, step⟩ <;> rw [step] at member
    · rcases List.mem_append.mp member with early | late
      · exact loading event early
      · exact .inr (signed_advance holder.fits _ event (Tracker.mem_of_mem_hear late))
    · exact loading event member
    · exact loading event member
  · rw [read, if_pos ended] at member
    cases member

theorem signed_gather (demand : Demand) (sound : reader.Sound) :
    ∀ event ∈ (reader.gather file demand source tracker).events,
      file.Emits event ∨ event.Signed := by
  fun_induction ChunkReader.gather file demand reader source tracker with
  | case1 => simp
  | case2 demand reader source _ reading count _ ih =>
      intro event member
      rcases List.mem_append.mp member with early | late
      · exact signed_read sound _ event early
      · exact ih ((always_sound file tracker).read sound trivial _).1 event late
  | case3 demand reader source => exact signed_read sound _

theorem events_apart {ε α : Type} (fault : ε → Fault) (answer : α → Answer)
    (result : Except ε α × ChunkReader) : (apart fault answer source result).events = [] := by
  obtain ⟨error | value, moved⟩ := result <;> rfl

/-- A reader adds no amounts to the byte counter that a signed number cannot tell. -/
theorem signed_perform (sound : reader.Sound) :
    ∀ event ∈ (reader.perform file command source tracker).events,
      file.Emits event ∨ event.Signed := by
  cases command with
  | prefetch => exact signed_ensureLoaded
  | read room | streamRead room => exact signed_read sound _
  | streamExact wanted => exact signed_gather (.exactly wanted) sound
  | streamToEnd => exact signed_gather (.blocks blockLength) sound
  | close =>
      intro event member
      change event ∈ (tracker.hear () reader.release.2 source : Step τ Fault Unit).events at member
      exact .inr (signed_release sound.fits event (Tracker.mem_of_mem_hear member))
  | range => simp [perform]
  | file request => exact fun event member => .inl (file.emits_of_mem_serve member)
  | seek | seekPosition | seekLength | reset | streamSeek | streamRewind | streamPosition =>
      intro event member
      simp only [perform, events_apart] at member
      cases member

end Signed

/-- What a reader counts, cuts off a buffer or moves by is in range. -/
structure InRange (file : File (Shared σ)) (reader : ChunkReader) (shared : Shared σ) : Prop where
  /-- The position lies in the range, and the length is one that there can be. -/
  inside : reader.position ≤ reader.length ∧ reader.length ≤ lastOffset
  /-- The length of a chunk that is held is an amount that a signed number can tell. -/
  amount : reader.isLoaded = true → reader.length ≤ signedMax
  /-- The chunk is loaded within its buffer and within the offsets. -/
  loading : file.FillsWithin reader.offset (List.replicate reader.length 0) shared
  /-- A read cuts off the bytes of the chunk at the position, cuts them and the buffer that they go
  to off at their number, and moves by that, also if the counter does not take what is let go. -/
  reading : ∀ buffer bytes, reader.position < reader.length →
    (reader.ensureLoaded file shared .counting).outcome = .done bytes →
    let reading := reader.read file buffer shared .counting
    reader.length ≤ signedMax ∧ reader.position ≤ bytes.length ∧
    ∃ count,
      ((∃ atEnd, reading.outcome = .done ⟨count, atEnd⟩) ∨ reading.outcome.Overflowed) ∧
      count ≤ buffer.length ∧ count ≤ bytes.length - reader.position ∧
      reading.state.1.position = reader.position + count ∧
      reader.position + count ≤ reader.length

theorem inRange (honest : file.Honest) (sound : reader.Sound)
    (addressable : reader.length ≤ lastOffset) (shared : Shared σ) :
    reader.InRange file shared where
  inside := ⟨sound.position_le, addressable⟩
  amount := sound.fits
  loading := honest.fillsWithin _ _ _
  reading := by
    intro buffer bytes before done reading
    have holder : (reader.ensureLoaded file shared .counting).state.1.Sound :=
      ((always_sound file .counting).ensureLoaded sound trivial).1
    have state := loaded_of_ensureLoaded file shared done
    rw [state] at holder
    have whole : bytes.length = reader.length := holder.whole bytes rfl
    have inside := sound.position_le
    rcases read_cases file reader shared .counting buffer before with
      ⟨_, loads, step⟩ | ⟨_, failed, _⟩ | ⟨_, aborted, _⟩
    · cases loads.symm.trans done
      have given : ((bytes.drop reader.position).take buffer.length).length =
          min buffer.length (bytes.length - reader.position) := by
        rw [List.length_take, List.length_drop]
      rw [show reading = _ from step, given]
      refine ⟨holder.fits rfl, by omega, _, ?_, Nat.min_le_left _ _, Nat.min_le_right _ _, ?_, ?_⟩
      · exact (Tracker.outcome_hear_counting _ _ _).imp (fun ends => ⟨_, ends⟩) id
      · rw [position_advance, state]
      · omega
    · cases failed.symm.trans done
    · cases aborted.symm.trans done

end ChunkReader
end BulkTransfer
