import BulkTransfer.ChunkReader.Command

/-!
# What one step of a chunk reader can do

For each operation of a chunk reader this file lists the ways in which it can end, each with the
whole step it leaves behind. Later arguments split along these lists and do not look inside the
operations again.
-/

namespace BulkTransfer

/-- Commands that at most move the reader. -/
def ReaderCommand.onlyMoves : ReaderCommand → Bool
  | seek _ _ | seekPosition | seekLength | reset | range => true
  | streamSeek _ | streamRewind | streamPosition => true
  | _ => false

variable {σ : Type}

/-- Loading refuses a chunk that is too long before it reads anything; otherwise it fills a buffer
of zeros and keeps the bytes only if there are as many as the chunk should hold. -/
theorem File.load_cases (file : File σ) (offset length : Nat) (source : σ) :
    (signedMax < length ∧
      file.load offset length source = ⟨.aborted .chunkTooLong, source, []⟩) ∨
    (length ≤ signedMax ∧
      let filling := file.fill offset (List.replicate length 0) source
      (∃ cause, filling.outcome = .aborted cause ∧
        file.load offset length source = ⟨.aborted cause, filling.state, filling.events⟩) ∨
      (∃ error, filling.outcome = .failed error ∧
        file.load offset length source =
          ⟨.failed (.io .prefetch error), filling.state, filling.events⟩) ∨
      (filling.outcome = .done length ∧
        file.load offset length source = ⟨.done filling.buffer, filling.state, filling.events⟩) ∨
      (∃ read, filling.outcome = .done read ∧ read ≠ length ∧
        file.load offset length source =
          ⟨.failed (.shortRead ⟨offset, length, read⟩), filling.state,
            filling.events ++ [.logged (.shortRead ⟨offset, length, read⟩)]⟩)) := by
  rw [File.load]
  split
  · next long => exact .inl ⟨long, rfl⟩
  · next short =>
      refine .inr ⟨Nat.le_of_not_lt short, ?_⟩
      rcases file.fill offset (List.replicate length 0) source with
        ⟨⟨read | error | cause, reached, events⟩, bytes⟩
      · by_cases whole : read = length
        · exact .inr (.inr (.inl ⟨congrArg _ whole, if_pos whole⟩))
        · exact .inr (.inr (.inr ⟨read, rfl, whole, if_neg whole⟩))
      · exact .inr (.inl ⟨error, rfl, rfl⟩)
      · exact .inl ⟨cause, rfl, rfl⟩

section Loading

variable {file : File σ} {offset length : Nat} {source : σ}

theorem File.load_of_fits (fits : length ≤ signedMax) :
    let filling := file.fill offset (List.replicate length 0) source
    file.load offset length source =
      match filling.outcome with
      | .aborted cause => ⟨.aborted cause, filling.state, filling.events⟩
      | .failed error => ⟨.failed (.io .prefetch error), filling.state, filling.events⟩
      | .done read =>
          if read = length then
            ⟨.done filling.buffer, filling.state, filling.events⟩
          else
            ⟨.failed (.shortRead ⟨offset, length, read⟩), filling.state,
              filling.events ++ [.logged (.shortRead ⟨offset, length, read⟩)]⟩ := by
  rw [load, if_neg (Nat.not_lt.mpr fits)]
  rcases file.fill offset (List.replicate length 0) source with
    ⟨⟨read | error | cause, reached, events⟩, bytes⟩ <;> rfl

theorem File.load_of_fill_failed {error : IoError} (fits : length ≤ signedMax)
    (failed : (file.fill offset (List.replicate length 0) source).outcome = .failed error) :
    let filling := file.fill offset (List.replicate length 0) source
    file.load offset length source =
      ⟨.failed (.io .prefetch error), filling.state, filling.events⟩ := by
  rw [load_of_fits fits, failed]

theorem File.load_of_fill_whole (fits : length ≤ signedMax)
    (whole : (file.fill offset (List.replicate length 0) source).outcome = .done length) :
    let filling := file.fill offset (List.replicate length 0) source
    file.load offset length source = ⟨.done filling.buffer, filling.state, filling.events⟩ := by
  rw [load_of_fits fits, whole]
  exact if_pos rfl

theorem File.load_of_fill_short {given : Nat} (fits : length ≤ signedMax) (short : given < length)
    (stopped : (file.fill offset (List.replicate length 0) source).outcome = .done given) :
    let filling := file.fill offset (List.replicate length 0) source
    file.load offset length source =
      ⟨.failed (.shortRead ⟨offset, length, given⟩), filling.state,
        filling.events ++ [.logged (.shortRead ⟨offset, length, given⟩)]⟩ := by
  rw [load_of_fits fits, stopped]
  exact if_neg (Nat.ne_of_lt short)

end Loading

namespace ChunkReader

variable (file : File σ) (reader : ChunkReader) (source : σ)

theorem ensureLoaded_of_some {bytes : Bytes} (held : reader.loaded = some bytes)
    (tracker : Tracker σ := .noting) :
    reader.ensureLoaded file source tracker = ⟨.done bytes, (reader, source), []⟩ := by
  simp [ensureLoaded, held]

/-- A reader that holds nothing takes hold of what it loads once the tracker has heard of it, and
stays as it is if loading fails or the tracker cuts it off. -/
theorem ensureLoaded_cases (tracker : Tracker σ) (vacant : reader.loaded = none) :
    let loading := file.load reader.offset reader.length source
    (∃ bytes, loading.outcome = .done bytes ∧
      let hearing : Step σ ChunkError Bytes :=
        tracker.hear bytes (reader.hold bytes).2 loading.state
      (hearing.outcome = .done bytes ∧
        reader.ensureLoaded file source tracker =
          ⟨.done bytes, ((reader.hold bytes).1, hearing.state),
            loading.events ++ hearing.events⟩) ∨
      (∃ cause, hearing.outcome = .aborted cause ∧
        reader.ensureLoaded file source tracker =
          ⟨.aborted cause, (reader, hearing.state), loading.events ++ hearing.events⟩)) ∨
    (∃ error, loading.outcome = .failed error ∧
      reader.ensureLoaded file source tracker =
        ⟨.failed error, (reader, loading.state), loading.events⟩) ∨
    (∃ cause, loading.outcome = .aborted cause ∧
      reader.ensureLoaded file source tracker =
        ⟨.aborted cause, (reader, loading.state), loading.events⟩) := by
  simp only [ensureLoaded, vacant]
  rcases file.load reader.offset reader.length source with
    ⟨bytes | error | cause, reached, events⟩
  · refine .inl ⟨bytes, rfl, ?_⟩
    rcases hearing : tracker.hear (ε := ChunkError) bytes (reader.hold bytes).2 reached with
      ⟨given | error | cause, heard, reported⟩
    · cases Tracker.eq_of_hear_done (congrArg Step.outcome hearing)
      exact .inl ⟨rfl, by simp only [hearing]⟩
    · exact absurd (congrArg Step.outcome hearing) Tracker.outcome_hear_ne_failed
    · exact .inr ⟨cause, rfl, by simp only [hearing]⟩
  · exact .inr (.inl ⟨error, rfl, rfl⟩)
  · exact .inr (.inr ⟨cause, rfl, rfl⟩)

/-- A reader that holds nothing takes hold of what it loads, and stays as it is if loading fails. -/
theorem ensureLoaded_of_none (vacant : reader.loaded = none) :
    let loading := file.load reader.offset reader.length source
    (∃ bytes, loading.outcome = .done bytes ∧
      reader.ensureLoaded file source =
        ⟨.done bytes, ((reader.hold bytes).1, loading.state),
          loading.events ++ (reader.hold bytes).2⟩) ∨
    (∃ error, loading.outcome = .failed error ∧
      reader.ensureLoaded file source =
        ⟨.failed error, (reader, loading.state), loading.events⟩) ∨
    (∃ cause, loading.outcome = .aborted cause ∧
      reader.ensureLoaded file source =
        ⟨.aborted cause, (reader, loading.state), loading.events⟩) := by
  intro loading
  rcases ensureLoaded_cases file reader source .noting vacant with
    ⟨bytes, done, ⟨_, step⟩ | ⟨_, cut, _⟩⟩ | rest
  · rw [Tracker.hear_noting] at step
    exact .inl ⟨bytes, done, step⟩
  · rw [Tracker.hear_noting] at cut
    cases cut
  · exact .inr rest

theorem ensureLoaded_of_load_done {file : File σ} {reader : ChunkReader} {source : σ}
    (vacant : reader.loaded = none) {bytes : Bytes} :
    let loading := file.load reader.offset reader.length source
    loading.outcome = .done bytes →
      reader.ensureLoaded file source =
        ⟨.done bytes, ((reader.hold bytes).1, loading.state),
          loading.events ++ (reader.hold bytes).2⟩ := by
  intro loading done
  rcases ensureLoaded_of_none file reader source vacant with
    ⟨_, same, step⟩ | ⟨_, other, _⟩ | ⟨_, other, _⟩
  · cases done.symm.trans same
    exact step
  · cases done.symm.trans other
  · cases done.symm.trans other

theorem ensureLoaded_of_load_failed {file : File σ} {reader : ChunkReader} {source : σ}
    (vacant : reader.loaded = none) {error : ChunkError} :
    let loading := file.load reader.offset reader.length source
    loading.outcome = .failed error →
      reader.ensureLoaded file source =
        ⟨.failed error, (reader, loading.state), loading.events⟩ := by
  intro loading failed
  rcases ensureLoaded_of_none file reader source vacant with
    ⟨_, other, _⟩ | ⟨_, same, step⟩ | ⟨_, other, _⟩
  · cases failed.symm.trans other
  · cases failed.symm.trans same
    exact step
  · cases failed.symm.trans other

theorem read_of_end (buffer : Bytes) (ended : reader.length ≤ reader.position) :
    reader.read file buffer source = .leaving (.done ⟨0, true⟩) buffer (reader, source) := by
  rw [read, if_pos ended]

/-- Before the end a read copies from the loaded bytes and tells the tracker what it lets go of, and
fails as loading them fails. -/
theorem read_cases (tracker : Tracker σ) (buffer : Bytes)
    (before : reader.position < reader.length) :
    let loading := reader.ensureLoaded file source tracker
    (∃ bytes, loading.outcome = .done bytes ∧
      let copied := (bytes.drop reader.position).take buffer.length
      let moving := loading.state.1.advance copied.length
      let hearing : Step σ ChunkError Portion :=
        tracker.hear ⟨copied.length, reader.length ≤ moving.1.position⟩ moving.2 loading.state.2
      reader.read file buffer source tracker =
        { outcome := hearing.outcome
          state := (moving.1, hearing.state)
          events := loading.events ++ hearing.events
          buffer := overlay copied buffer }) ∨
    (∃ error, loading.outcome = .failed error ∧
      reader.read file buffer source tracker =
        ⟨⟨.failed (error.during .read), loading.state, loading.events⟩, buffer⟩) ∨
    (∃ cause, loading.outcome = .aborted cause ∧
      reader.read file buffer source tracker =
        ⟨⟨.aborted cause, loading.state, loading.events⟩, buffer⟩) := by
  rw [read, if_neg (Nat.not_le.mpr before)]
  rcases reader.ensureLoaded file source tracker with
    ⟨bytes | error | cause, ⟨holder, reached⟩, events⟩
  · exact .inl ⟨bytes, rfl, rfl⟩
  · exact .inr (.inl ⟨error, rfl, rfl⟩)
  · exact .inr (.inr ⟨cause, rfl, rfl⟩)

/-- Before the end a read copies from the loaded bytes, and fails as loading them fails. -/
theorem read_of_before (buffer : Bytes) (before : reader.position < reader.length) :
    let loading := reader.ensureLoaded file source
    (∃ bytes, loading.outcome = .done bytes ∧
      let copied := (bytes.drop reader.position).take buffer.length
      let moving := loading.state.1.advance copied.length
      reader.read file buffer source =
        { outcome := .done ⟨copied.length, reader.length ≤ moving.1.position⟩
          state := (moving.1, loading.state.2)
          events := loading.events ++ moving.2
          buffer := overlay copied buffer }) ∨
    (∃ error, loading.outcome = .failed error ∧
      reader.read file buffer source =
        ⟨⟨.failed (error.during .read), loading.state, loading.events⟩, buffer⟩) ∨
    (∃ cause, loading.outcome = .aborted cause ∧
      reader.read file buffer source =
        ⟨⟨.aborted cause, loading.state, loading.events⟩, buffer⟩) := by
  intro loading
  rcases read_cases file reader source .noting buffer before with ⟨bytes, done, step⟩ | rest
  · simp only [Tracker.hear_noting] at step
    exact .inl ⟨bytes, done, step⟩
  · exact .inr rest

section Before

variable {file : File σ} {reader : ChunkReader} {source : σ} {state : ChunkReader × σ}
  {events : List Event} (before : reader.position < reader.length)

include before

theorem read_of_refused {error : ChunkError}
    (refused : reader.ensureLoaded file source = ⟨.failed error, state, events⟩)
    (buffer : Bytes) :
    reader.read file buffer source =
      ⟨⟨.failed (error.during .read), state, events⟩, buffer⟩ := by
  rw [read, if_neg (Nat.not_le.mpr before), refused]

theorem exists_portion_of_loaded {bytes : Bytes}
    (loaded : reader.ensureLoaded file source = ⟨.done bytes, state, events⟩) (buffer : Bytes) :
    ∃ portion, (reader.read file buffer source).outcome = .done portion := by
  rw [read, if_neg (Nat.not_le.mpr before), loaded]
  simp only [Tracker.hear_noting]
  exact ⟨_, rfl⟩

end Before

/-- Advancing to the end releases the chunk; advancing to anywhere before it only moves. -/
theorem advance_cases (count : Nat) :
    (reader.length ≤ reader.position + count ∧
      reader.advance count = { reader with position := reader.position + count }.release) ∨
    (reader.position + count < reader.length ∧
      reader.advance count = ({ reader with position := reader.position + count }, [])) := by
  rw [advance]
  split
  · next ended => exact .inl ⟨ended, rfl⟩
  · next before => exact .inr ⟨Nat.lt_of_not_le before, rfl⟩

@[simp]
theorem perform_close :
    reader.perform file .close source =
      ⟨.done .nothing, (reader.release.1, source), reader.release.2⟩ := by
  simp only [perform, close, Tracker.hear_noting]
  rfl

@[simp]
theorem outcome_streamRead (buffer : Bytes) :
    (reader.streamRead file buffer source).outcome =
      ((reader.read file buffer source).outcome.map Portion.count).mapError
        ChunkError.toIoError := rfl

@[simp]
theorem state_streamRead (buffer : Bytes) :
    (reader.streamRead file buffer source).state = (reader.read file buffer source).state := rfl

@[simp]
theorem events_streamRead (buffer : Bytes) :
    (reader.streamRead file buffer source).events = (reader.read file buffer source).events := rfl

@[simp]
theorem buffer_streamRead (buffer : Bytes) :
    (reader.streamRead file buffer source).buffer = (reader.read file buffer source).buffer := rfl

theorem Demand.exactly_ne_zero {wanted : Nat} (positive : 0 < wanted) :
    exactly wanted ≠ .exactly 0 :=
  fun same => Nat.ne_of_gt positive (exactly.inj same)

theorem Demand.blocks_ne_zero (length : Nat) : blocks length ≠ .exactly 0 :=
  Demand.noConfusion

/-- What is wanted is asked for by buffers that are not empty. -/
def Demand.Roomy (demand : Demand) : Prop :=
  demand ≠ .exactly 0 → 0 < demand.room

theorem Demand.roomy_exactly (wanted : Nat) : (exactly wanted).Roomy := by
  intro some_wanted
  exact Nat.pos_of_ne_zero fun none_wanted => some_wanted (congrArg exactly none_wanted)

theorem Demand.roomy_blocks {length : Nat} (some_room : 0 < length) : (blocks length).Roomy :=
  fun _ => some_room

theorem Demand.Roomy.past {demand : Demand} (roomy : demand.Roomy) (count : Nat) :
    (demand.past count).Roomy := by
  cases demand with
  | exactly wanted => exact roomy_exactly _
  | blocks length => exact roomy_blocks (roomy (blocks_ne_zero length))

section Gathering

variable {file : File σ} {demand : Demand} {reader : ChunkReader} {source : σ} {tracker : Tracker σ}

theorem gather_exactly_zero :
    reader.gather file (.exactly 0) source tracker = ⟨.done [], (reader, source), []⟩ := by
  rw [gather, if_pos rfl]

/-- Gathering goes on after a read that gives bytes. -/
theorem gather_of_given {count : Nat} (wanted : demand ≠ .exactly 0) :
    let reading := reader.streamRead file (List.replicate demand.room 0) source tracker
    reading.outcome = .done (count + 1) →
      reader.gather file demand source tracker =
        ((reading.state.1.gather file (demand.past (count + 1)) reading.state.2 tracker).map
          (reading.buffer.take (count + 1) ++ ·)).after reading.events := by
  intro reading given
  rw [gather, if_neg wanted]
  dsimp only
  split
  · next same =>
      cases given.symm.trans same
      rfl
  · next other => exact absurd given (other count)

/-- Gathering ends with a read that gives none. -/
theorem gather_of_ended (wanted : demand ≠ .exactly 0) :
    let reading := reader.streamRead file (List.replicate demand.room 0) source tracker
    (∀ count, reading.outcome ≠ .done (count + 1)) →
      reader.gather file demand source tracker =
        ⟨demand.close reading.outcome, reading.state, reading.events⟩ := by
  intro reading ended
  rw [gather, if_neg wanted]
  dsimp only
  split
  · next given => exact absurd given (ended _)
  · rfl

theorem streamRead_of_end (buffer : Bytes) (ended : reader.length ≤ reader.position) :
    reader.streamRead file buffer source tracker =
      .leaving (.done 0) buffer (reader, source) := by
  rw [streamRead, read, if_pos ended]
  rfl

theorem gather_of_end (wanted : demand ≠ .exactly 0) (ended : reader.length ≤ reader.position) :
    reader.gather file demand source tracker =
      ⟨demand.close (.done 0), (reader, source), []⟩ := by
  have reading := @streamRead_of_end _ file _ source tracker (List.replicate demand.room 0) ended
  rw [gather_of_ended wanted (by simp [reading, Transfer.leaving]), reading]
  rfl

end Gathering

/-- A seek fails exactly if it aims before the start, and otherwise moves where it lands. -/
theorem seek_cases (offset : Int) (whence : Whence) :
    (whence.aim offset reader.position reader.length < 0 ∧
      seek offset whence reader = (.error .negativeSeek, reader)) ∨
    (0 ≤ whence.aim offset reader.position reader.length ∧
      let target := min (whence.aim offset reader.position reader.length).toNat reader.length
      seek offset whence reader = (.ok target, { reader with position := target })) := by
  rcases Int.lt_or_le (whence.aim offset reader.position reader.length) 0 with short | inside
  · refine .inl ⟨short, ?_⟩
    simp [seek, Whence.landing?_eq_none_iff.mpr short]
  · refine .inr ⟨inside, ?_⟩
    simp [seek, Whence.landing?_of_nonneg inside]

theorem seek_current_zero {reader : ChunkReader} (inside : reader.position ≤ reader.length) :
    seek 0 .current reader = (.ok reader.position, reader) := by
  rcases seek_cases reader 0 .current with ⟨short, _⟩ | ⟨_, landed⟩
  · simp only [Whence.aim] at short
    omega
  · simpa [Whence.aim, Nat.min_eq_left inside] using landed

theorem seek_fromEnd_zero :
    seek 0 .fromEnd reader = (.ok reader.length, { reader with position := reader.length }) := by
  rcases seek_cases reader 0 .fromEnd with ⟨short, _⟩ | ⟨_, landed⟩
  · simp only [Whence.aim] at short
    omega
  · simpa [Whence.aim] using landed

theorem seek_start (position : Nat) :
    seek position .start reader =
      (.ok (min position reader.length),
        { reader with position := min position reader.length }) := by
  rcases seek_cases reader position .start with ⟨short, _⟩ | ⟨_, landed⟩
  · simp only [Whence.aim] at short
    omega
  · simpa [Whence.aim] using landed

theorem reset_seek :
    Seeker.reset seek reader = (.ok (), { reader with position := 0 }) := by
  have landed := seek_start reader 0
  simp only [Seeker.reset, bind, ExceptT.bind, ExceptT.mk, ExceptT.bindCont, StateT.bind]
  rw [show seek 0 .start reader = _ from landed, Nat.zero_min]
  rfl

/-- The length is told without moving, unless the way back is too long for a signed offset; then the
reader is left at its end. -/
theorem seekLength_cases {reader : ChunkReader} (inside : reader.position ≤ reader.length) :
    ((reader.position = reader.length ∨ reader.position ≤ signedMax) ∧
      Seeker.length seek reader = (.ok reader.length, reader)) ∨
    (signedMax < reader.position ∧ reader.position < reader.length ∧
      Seeker.length seek reader =
        (.error Seeker.positionTooLarge, { reader with position := reader.length })) := by
  have unfolded : Seeker.length seek reader =
      if reader.position = reader.length then
        (.ok reader.length, { reader with position := reader.length })
      else if signedMax < reader.position then
        (.error Seeker.positionTooLarge, { reader with position := reader.length })
      else
        (.ok reader.length, { reader with position := min reader.position reader.length }) := by
    simp only [Seeker.length, bind, ExceptT.bind, ExceptT.mk, ExceptT.bindCont, StateT.bind,
      seek_current_zero inside, seek_fromEnd_zero]
    split
    · rfl
    · split
      · rfl
      · rw [StateT.bind, seek_start]
        rfl
  rw [unfolded]
  by_cases ended : reader.position = reader.length
  · have placed : { reader with position := reader.length } = reader :=
      congrArg (fun position => { reader with position }) ended.symm
    left
    rw [if_pos ended, placed]
    exact ⟨.inl ended, rfl⟩
  · rw [if_neg ended]
    by_cases far : signedMax < reader.position
    · exact .inr ⟨far, by omega, if_pos far⟩
    · left
      rw [if_neg far, Nat.min_eq_left inside]
      exact ⟨.inr (Nat.le_of_not_lt far), rfl⟩

theorem exists_position_seek (offset : Int) (whence : Whence) :
    ∃ position, (seek offset whence reader).2 = { reader with position } := by
  rcases seek_cases reader offset whence with ⟨_, step⟩ | ⟨_, step⟩ <;> rw [step]
  · exact ⟨reader.position, rfl⟩
  · exact ⟨_, rfl⟩

theorem exists_position_seekLength {reader : ChunkReader}
    (inside : reader.position ≤ reader.length) :
    ∃ position, (Seeker.length seek reader).2 = { reader with position } := by
  rcases seekLength_cases inside with ⟨_, step⟩ | ⟨_, _, step⟩ <;> rw [step]
  · exact ⟨reader.position, rfl⟩
  · exact ⟨_, rfl⟩

theorem apart_moved {ε α : Type} (fault : ε → Fault) (answer : α → Answer)
    {result : Except ε α × ChunkReader}
    (moved : ∃ position, result.2 = { reader with position }) :
    ∃ position, (apart fault answer source result).state = ({ reader with position }, source) ∧
      (apart fault answer source result).events = [] := by
  obtain ⟨position, moved⟩ := moved
  obtain ⟨error | value, after⟩ := result <;> cases moved
  · exact ⟨position, rfl, rfl⟩
  · exact ⟨position, rfl, rfl⟩

/-- A command that at most moves the reader does nothing else, whether it succeeds or not. -/
theorem perform_of_onlyMoves {reader : ChunkReader} (inside : reader.position ≤ reader.length)
    {command : ReaderCommand} (moves : command.onlyMoves = true) :
    ∃ position, (reader.perform file command source).state = ({ reader with position }, source) ∧
      (reader.perform file command source).events = [] := by
  cases command with
  | range => exact ⟨reader.position, rfl, rfl⟩
  | seekLength => exact apart_moved reader source _ _ (exists_position_seekLength inside)
  | reset =>
      refine apart_moved reader source _ _ ⟨0, ?_⟩
      rw [reset_seek]
  | seek offset whence => exact apart_moved reader source _ _ (reader.exists_position_seek _ _)
  | seekPosition => exact apart_moved reader source _ _ (reader.exists_position_seek 0 .current)
  | streamSeek target =>
      exact apart_moved reader source _ _
        (reader.exists_position_seek target.split.1 target.split.2)
  | streamRewind => exact apart_moved reader source _ _ (reader.exists_position_seek 0 .start)
  | streamPosition => exact apart_moved reader source _ _ (reader.exists_position_seek 0 .current)
  | _ => cases moves

end ChunkReader
end BulkTransfer
