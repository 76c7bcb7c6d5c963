import BulkTransfer.Proofs.ChunkReader.Counting
import BulkTransfer.Proofs.ChunkReader.Tracking
import BulkTransfer.Proofs.ChunkReader.Turns

/-!
# Operations that fail

Beside a byte counter, an operation of a chunk reader that fails, or is aborted, leaves the reader,
the caller's buffer and the counter as they were, whatever the file did in the middle of it. The one
exception is an operation that the counter itself cuts off: by then it has moved. Only operations
that are made of several others may have come part of the way.
-/

namespace BulkTransfer

/-- Whether an operation succeeded. -/
def Outcome.isDone {ε α : Type} : Outcome ε α → Bool
  | done _ => true
  | failed _ | aborted _ => false

@[simp]
theorem Outcome.isDone_map {ε α β : Type} (change : α → β) (outcome : Outcome ε α) :
    (outcome.map change).isDone = outcome.isDone := by
  cases outcome <;> rfl

@[simp]
theorem Outcome.isDone_mapError {ε δ α : Type} (change : ε → δ) (outcome : Outcome ε α) :
    (outcome.mapError change).isDone = outcome.isDone := by
  cases outcome <;> rfl

@[simp]
theorem Step.isDone_map {σ ε α β : Type} (change : α → β) (step : Step σ ε α) :
    (step.map change).outcome.isDone = step.outcome.isDone :=
  Outcome.isDone_map change step.outcome

@[simp]
theorem Step.isDone_mapError {σ ε δ α : Type} (change : ε → δ) (step : Step σ ε α) :
    (step.mapError change).outcome.isDone = step.outcome.isDone :=
  Outcome.isDone_mapError change step.outcome

/-- Commands that are made of several operations, so that some of them may succeed before one
fails. -/
def ReaderCommand.isComposite : ReaderCommand → Bool
  | seekLength | streamExact _ | streamToEnd => true
  | _ => false

section Attempts

variable {σ ε δ α β : Type}

/-- A step that left no trace: the reader is as it was, and so is the counter. -/
structure Step.Traceless (reader : ChunkReader) (counter : Counter)
    (step : Step (ChunkReader × Shared σ) ε α) : Prop where
  /-- The counter was told nothing. -/
  silent : Event.deltas step.events = []
  /-- The reader is as it was. -/
  reader_eq : step.state.1 = reader
  /-- The counter is as it was. -/
  counter_eq : step.state.2.counter = counter

/-- A step that the counter cut off when an amount took it out of range. -/
structure Step.Derailed (counter : Counter) (step : Step (ChunkReader × Shared σ) ε α) : Prop where
  /-- The step was cut off by the counter. -/
  overflowed : step.outcome.Overflowed
  /-- It was told one amount, which does not fit but was added. -/
  told : ∃ delta, Event.deltas step.events = [delta] ∧ ¬ counter.Fits delta ∧
    step.state.2.counter = counter.add delta
  /-- The counter is not as it was. -/
  moved : step.state.2.counter ≠ counter

variable {reader : ChunkReader} {counter : Counter} {step : Step (ChunkReader × Shared σ) ε α}

theorem Step.Traceless.mapOutcome (traceless : step.Traceless reader counter)
    (change : Outcome ε α → Outcome δ β) : (step.mapOutcome change).Traceless reader counter :=
  ⟨traceless.silent, traceless.reader_eq, traceless.counter_eq⟩

theorem Step.Derailed.map (derailed : step.Derailed counter) (change : α → β) :
    (step.map change).Derailed counter :=
  ⟨congrArg (Outcome.map change) derailed.overflowed, derailed.told, derailed.moved⟩

theorem Step.Derailed.mapError (derailed : step.Derailed counter) (change : ε → δ) :
    (step.mapError change).Derailed counter :=
  ⟨congrArg (Outcome.mapError change) derailed.overflowed, derailed.told, derailed.moved⟩

/-- A step that told the counter nothing was not cut off by it. -/
theorem Step.Derailed.not_silent (derailed : step.Derailed counter) :
    Event.deltas step.events ≠ [] := by
  obtain ⟨delta, told, _⟩ := derailed.told
  rw [told]
  exact List.cons_ne_nil _ _

/-- Telling the counter is cut off by something that it was told. -/
theorem Tracker.told_of_cut {value : α} {events : List Event} {shared : Shared σ}
    (cut : (counting.hear value events shared : Step _ ε α).outcome.isDone = false) :
    Event.deltas (counting.hear value events shared : Step _ ε α).events ≠ [] := by
  intro silent
  have told : (noting.hear value events shared.source : Step σ ε α).Counted Shared.mk
      shared.counter (counting.hear value events shared) :=
    counted_hear value events shared.counter shared.source
  rw [hear_noting] at told
  have taken : shared.counter.Takes (Event.deltas events) :=
    told.takes_of_told (silent ▸ shared.counter.takes_nil)
  rw [told.takes taken] at cut
  cases cut

end Attempts

namespace ChunkReader

variable {σ : Type} {file : File σ} {reader : ChunkReader} {shared : Shared σ}

theorem operation_of_load {offset length : Nat} {source : σ} {error : ChunkError}
    (failed : (file.load offset length source).outcome = .failed error) :
    error.operation = .prefetch := by
  rcases file.load_cases offset length source with
    ⟨_, load⟩ | ⟨_, ⟨_, _, load⟩ | ⟨_, _, load⟩ | ⟨_, load⟩ | ⟨_, _, _, load⟩⟩ <;>
    rw [load] at failed <;> cases failed
  · rfl
  · rfl

theorem operation_of_prefetch {source : σ} {tracker : Tracker σ} {error : ChunkError}
    (failed : (reader.prefetch file source tracker).outcome = .failed error) :
    error.operation = .prefetch := by
  change (reader.ensureLoaded file source tracker).outcome.map _ = _ at failed
  cases ending : (reader.ensureLoaded file source tracker).outcome <;> rw [ending] at failed <;>
    cases failed
  exact operation_of_load (load_failed_of_ensureLoaded_failed ending)

theorem operation_of_read {source : σ} {tracker : Tracker σ} {buffer : Bytes} {error : ChunkError}
    (failed : (reader.read file buffer source tracker).outcome = .failed error) :
    error.operation = .read := by
  rcases Nat.lt_or_ge reader.position reader.length with before | ended
  · rcases read_cases file reader source tracker buffer before with
      ⟨_, _, step⟩ | ⟨_, _, step⟩ | ⟨_, _, step⟩ <;> rw [step] at failed
    · exact absurd failed Tracker.outcome_hear_ne_failed
    · cases failed
      rfl
    · cases failed
  · rw [read, if_pos ended] at failed
    cases failed

theorem deltas_load (quiet : file.Quiet) (offset length : Nat) (source : σ) :
    Event.deltas (file.load offset length source).events = [] :=
  Event.deltas_eq_nil fun _ member => (foreign_of_mem_load file source member).deltas_eq quiet

/-- The length of a chunk, added or taken off where that does not fit, moves the counter. -/
theorem derailed_of_not_fits {ε α : Type} {step : Step (ChunkReader × Shared σ) ε α}
    {counter : Counter} {delta : Int} {length : Nat} (nonempty : 0 < length)
    (fits : length ≤ signedMax) (sized : delta = length ∨ delta = -length)
    (overflowed : step.outcome.Overflowed) (told : Event.deltas step.events = [delta])
    (refused : ¬ counter.Fits delta) (added : step.state.2.counter = counter.add delta) :
    step.Derailed counter := by
  refine ⟨overflowed, ⟨delta, told, refused, added⟩, ?_⟩
  rw [added]
  exact counter.add_ne_self (by omega) (by omega) (by omega)

/-- A chunk that cannot be loaded is not held, and not counted unless the counter cut that off. -/
theorem ensureLoaded_failing (quiet : file.Quiet) (nonempty : 0 < reader.length) :
    let attempt := reader.ensureLoaded file.beside shared .counting
    attempt.outcome.isDone = false →
      attempt.Traceless reader shared.counter ∨ attempt.Derailed shared.counter := by
  intro attempt failing
  obtain ⟨counter, source⟩ := shared
  have silent := deltas_load quiet reader.offset reader.length source
  have loads := file.load_beside reader.offset reader.length counter source
  cases held : reader.loaded with
  | some bytes =>
      simp only [attempt, ensureLoaded, held] at failing
      cases failing
  | none =>
      rcases ensureLoaded_counting file.beside reader ⟨counter, source⟩ held with
        ⟨bytes, done, ⟨_, step⟩ | ⟨refused, step⟩⟩ | ⟨_, step⟩
      · rw [show attempt = _ from step] at failing
        cases failing
      · obtain ⟨_, fits⟩ := whole_of_load file.beside _ done
        rw [loads] at step refused
        rw [show attempt = _ from step]
        refine .inr (derailed_of_not_fits nonempty fits (.inl rfl) rfl ?_ refused rfl)
        simp only [Step.mapState, Event.deltas_append, silent]
        rfl
      · rw [show attempt = _ from step, loads]
        exact .inl ⟨silent, rfl, rfl⟩

/-- A chunk that was loaded was held before, or the counter has taken its length and may let it go.
-/
theorem ensureLoaded_succeeding {bytes : Bytes} :
    let attempt := reader.ensureLoaded file.beside shared .counting
    attempt.outcome = .done bytes →
      (attempt.state.2.counter = shared.counter ∧ attempt.events = []) ∨
        attempt.state.2.counter.Fits (-reader.length) := by
  intro attempt done
  cases held : reader.loaded with
  | some bytes => exact .inl (by simp [attempt, ensureLoaded, held])
  | none =>
      rcases ensureLoaded_counting file.beside reader shared held with
        ⟨bytes, _, ⟨fits, step⟩ | ⟨_, step⟩⟩ | ⟨nothing, step⟩ <;>
        rw [show attempt = _ from step] at done ⊢
      · exact .inr (Counter.fits_neg fits)
      · cases done
      · exact absurd done (nothing bytes)

/-- A prefetch that fails changes nothing, unless the counter cut it off. -/
theorem prefetch_failing (quiet : file.Quiet) (nonempty : 0 < reader.length) :
    let attempt := reader.prefetch file.beside shared .counting
    attempt.outcome.isDone = false →
      attempt.Traceless reader shared.counter ∨ attempt.Derailed shared.counter := by
  intro attempt failing
  have load_failing :
      (reader.ensureLoaded file.beside shared .counting).outcome.isDone = false := by
    simpa [attempt, prefetch] using failing
  exact (ensureLoaded_failing quiet nonempty load_failing).imp (·.mapOutcome _) (·.map _)

/-- A read that fails changes nothing, unless the counter cut it off. -/
theorem read_failing (quiet : file.Quiet) (sound : reader.Sound) {buffer : Bytes} :
    let attempt := reader.read file.beside buffer shared .counting
    attempt.outcome.isDone = false →
      attempt.Traceless reader shared.counter ∧ attempt.buffer = buffer ∨
        attempt.Derailed shared.counter := by
  intro attempt failing
  rcases Nat.lt_or_ge reader.position reader.length with before | ended
  · have nonempty : 0 < reader.length := Nat.zero_lt_of_lt before
    have load_failing := @ensureLoaded_failing _ _ _ shared quiet nonempty
    rcases read_cases file.beside reader shared .counting buffer before with
      ⟨bytes, done, step⟩ | ⟨error, failed, step⟩ | ⟨cause, aborted, step⟩
    · -- Only letting go of the chunk after its last byte can be cut off now.
      have sound_later : (reader.ensureLoaded file.beside shared .counting).state.1.Sound :=
        ((always_sound file.beside .counting).ensureLoaded sound trivial).1
      have held := loaded_of_ensureLoaded file.beside shared done
      have earlier := ensureLoaded_succeeding done
      generalize reader.ensureLoaded file.beside shared .counting = loading
        at step held earlier sound_later
      obtain ⟨_, ⟨holder, counter, source⟩, events⟩ := loading
      cases held
      have short : reader.length ≤ signedMax := sound_later.fits rfl
      rcases advance_cases { reader with loaded := some bytes }
        ((bytes.drop reader.position).take buffer.length).length with
        ⟨_, advanced⟩ | ⟨_, advanced⟩ <;>
        simp only [advanced, release, Tracker.hear_nil, Tracker.hear_tracked_logged] at step
      · by_cases fits : counter.Fits (-reader.length)
        · rw [show attempt = _ from step, if_pos fits] at failing
          cases failing
        · rw [if_neg fits] at step
          rcases earlier with ⟨same, silent⟩ | taken
          · cases same
            cases silent
            rw [show attempt = _ from step]
            exact .inr (derailed_of_not_fits nonempty short (.inr rfl) rfl rfl fits rfl)
          · exact absurd taken fits
      · rw [show attempt = _ from step] at failing
        cases failing
    · rw [show attempt = _ from step]
      rcases load_failing (by rw [failed]; rfl) with traceless | derailed
      · exact .inl ⟨⟨traceless.silent, traceless.reader_eq, traceless.counter_eq⟩, rfl⟩
      · cases failed.symm.trans derailed.overflowed
    · rw [show attempt = _ from step]
      rcases load_failing (by rw [aborted]; rfl) with traceless | derailed
      · exact .inl ⟨⟨traceless.silent, traceless.reader_eq, traceless.counter_eq⟩, rfl⟩
      · cases aborted.symm.trans derailed.overflowed
        exact .inr ⟨rfl, derailed.told, derailed.moved⟩
  · rw [show attempt = _ from if_pos ended] at failing
    cases failing

theorem streamRead_failing (quiet : file.Quiet) (sound : reader.Sound) {buffer : Bytes} :
    let attempt := reader.streamRead file.beside buffer shared .counting
    attempt.outcome.isDone = false →
      attempt.Traceless reader shared.counter ∧ attempt.buffer = buffer ∨
        attempt.Derailed shared.counter := by
  intro attempt failing
  have read_fails : (reader.read file.beside buffer shared .counting).outcome.isDone = false := by
    simpa [attempt, streamRead, Transfer.mapOutcome] using failing
  rcases read_failing quiet sound read_fails with ⟨traceless, kept⟩ | derailed
  · exact .inl ⟨⟨traceless.silent, traceless.reader_eq, traceless.counter_eq⟩, kept⟩
  · exact .inr ((derailed.map Portion.count).mapError ChunkError.toIoError)

theorem seek_failing {offset : Int} {whence : Whence} {error : ChunkError}
    (failed : (seek offset whence reader).1 = .error error) :
    (seek offset whence reader).2 = reader ∧ error.operation = .seek := by
  rcases seek_cases reader offset whence with ⟨_, step⟩ | ⟨_, step⟩ <;> rw [step] at failed ⊢
  · cases failed
    exact ⟨rfl, rfl⟩
  · cases failed

theorem streamSeek_failing {target : SeekTarget} {error : IoError}
    (failed : (reader.streamSeek target).1 = .error error) :
    (reader.streamSeek target).2 = reader := by
  rcases seek_cases reader target.split.1 target.split.2 with ⟨_, step⟩ | ⟨_, step⟩
  · simp [streamSeek, step]
  · simp only [streamSeek, step] at failed
    cases failed

theorem apart_failing {ε α : Type} {fault : ε → Fault} {answer : α → Answer}
    {result : Except ε α × ChunkReader}
    (still : ∀ error, result.1 = .error error → result.2 = reader)
    (failing : (apart fault answer shared result).outcome.isDone = false) :
    (apart fault answer shared result).Traceless reader shared.counter := by
  obtain ⟨error | value, moved⟩ := result
  · exact ⟨rfl, still error rfl, rfl⟩
  · cases failing

/-- Letting go of a chunk is cut off only by the counter. -/
theorem close_failing (sound : reader.Sound) (nonempty : 0 < reader.length) :
    let attempt : Step _ Fault Unit := reader.close shared .counting
    attempt.outcome.isDone = false → attempt.Derailed shared.counter := by
  intro attempt failing
  obtain ⟨counter, source⟩ := shared
  cases held : reader.loaded with
  | none =>
      simp only [attempt, close, release, held] at failing
      cases failing
  | some bytes =>
      have short : reader.length ≤ signedMax := sound.fits (by simp [isLoaded, held])
      simp only [attempt, close, release, held, Tracker.hear_tracked_logged] at failing ⊢
      by_cases fits : counter.Fits (-reader.length)
      · rw [if_pos fits] at failing
        cases failing
      · rw [if_neg fits]
        exact derailed_of_not_fits nonempty short (.inr rfl) rfl rfl fits rfl

/-- A command that fails changes nothing, unless the counter cut it off or it is made of several
operations. -/
theorem perform_failing (quiet : file.Quiet) (sound : reader.Sound) (nonempty : 0 < reader.length)
    {command : ReaderCommand} (simple : command.isComposite = false) :
    let attempt := reader.perform file.beside command shared .counting
    attempt.outcome.isDone = false →
      attempt.Traceless reader shared.counter ∨ attempt.Derailed shared.counter := by
  intro attempt failing
  cases command with
  | streamExact | streamToEnd | seekLength => cases simple
  | range | file => cases failing
  | close =>
      have fails : (reader.close shared .counting : Step _ Fault Unit).outcome.isDone = false := by
        simpa [attempt, perform] using failing
      exact .inr ((close_failing sound nonempty fails).map _)
  | prefetch =>
      have fails : (reader.prefetch file.beside shared .counting).outcome.isDone = false := by
        simpa [attempt, perform] using failing
      exact (prefetch_failing quiet nonempty fails).imp
        (fun same => (same.mapOutcome _).mapOutcome _)
        fun moved => (moved.map _).mapError _
  | read room =>
      have fails : (reader.read file.beside (List.replicate room 0) shared
          .counting).outcome.isDone = false := by
        simpa [attempt, perform] using failing
      exact (read_failing quiet sound fails).imp
        (fun same => (same.1.mapOutcome _).mapOutcome _) fun moved => (moved.map _).mapError _
  | streamRead room =>
      have fails : (reader.streamRead file.beside (List.replicate room 0) shared
          .counting).outcome.isDone = false := by
        simpa [attempt, perform] using failing
      exact (streamRead_failing quiet sound fails).imp
        (fun same => (same.1.mapOutcome _).mapOutcome _) fun moved => (moved.map _).mapError _
  | reset =>
      simp only [attempt, perform, reset_seek] at failing
      cases failing
  | seek | seekPosition =>
      exact .inl (apart_failing (fun _ failed => (seek_failing failed).1) failing)
  | streamSeek | streamRewind | streamPosition =>
      exact .inl (apart_failing (fun _ => streamSeek_failing) failing)

end ChunkReader
end BulkTransfer
