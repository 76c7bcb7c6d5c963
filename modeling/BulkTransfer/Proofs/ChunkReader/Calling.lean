import BulkTransfer.Proofs.ChunkReader.Serving
import BulkTransfer.Proofs.File.Calling

/-!
# When a chunk reader calls its file

A chunk reader calls its file when it needs bytes that it does not hold, and at no other time:
moving, letting go, reading at the end and reading on from a loaded chunk leave the file alone. An
exact read and a read to the end are made of many reads, of which the first makes all the calls.
-/

namespace BulkTransfer
namespace ChunkReader

variable {σ : Type} (file : File σ) {reader : ChunkReader} {command : ReaderCommand}

@[simp]
theorem calls_release (reader : ChunkReader) : Event.calls reader.release.2 = [] := by
  rw [release]
  split <;> rfl

@[simp]
theorem calls_advance (reader : ChunkReader) (count : Nat) :
    Event.calls (reader.advance count).2 = [] := by
  rcases advance_cases reader count with ⟨_, step⟩ | ⟨_, step⟩ <;> rw [step]
  · exact calls_release _
  · rfl

theorem calls_load_ne_nil (offset : Nat) {length : Nat} (nonempty : 0 < length)
    (fits : length ≤ signedMax) (source : σ) :
    Event.calls (file.watched.load offset length source).events ≠ [] := by
  have wanted : List.replicate length (0 : UInt8) ≠ [] := by
    simpa using Nat.ne_of_gt nonempty
  have called := file.calls_fill_watched_ne_nil offset wanted source
  rcases file.watched.load_cases offset length source with
    ⟨long, _⟩ | ⟨_, ⟨_, _, load⟩ | ⟨_, _, load⟩ | ⟨_, load⟩ | ⟨_, _, _, load⟩⟩
  · exact absurd fits (Nat.not_le.mpr long)
  · rw [load]
    exact called
  · rw [load]
    exact called
  · rw [load]
    exact called
  · rw [load, Event.calls_append]
    exact List.append_ne_nil_of_left_ne_nil called _

theorem calls_ensureLoaded_of_none (vacant : reader.loaded = none) (source : σ) :
    Event.calls (reader.ensureLoaded file source).events =
      Event.calls (file.load reader.offset reader.length source).events := by
  rcases ensureLoaded_of_none file reader source vacant with
    ⟨_, _, step⟩ | ⟨_, _, step⟩ | ⟨_, _, step⟩ <;> rw [step]
  rw [Event.calls_append]
  exact List.append_nil _

theorem calls_read_of_before (before : reader.position < reader.length) (source : σ)
    (buffer : Bytes) :
    Event.calls (reader.read file buffer source).events =
      Event.calls (reader.ensureLoaded file source).events := by
  rcases read_of_before file reader source buffer before with
    ⟨_, _, step⟩ | ⟨_, _, step⟩ | ⟨_, _, step⟩ <;> rw [step]
  rw [Event.calls_append, calls_advance, List.append_nil]

theorem calls_ensureLoaded_ne_nil_iff (nonempty : 0 < reader.length)
    (fits : reader.length ≤ signedMax) (source : σ) :
    Event.calls (reader.ensureLoaded file.watched source).events ≠ [] ↔
      reader.isLoaded = false := by
  cases held : reader.loaded with
  | some bytes =>
      rw [ensureLoaded_of_some file.watched reader source held]
      simp [isLoaded, held]
  | none =>
      rw [calls_ensureLoaded_of_none file.watched held]
      exact iff_of_true (calls_load_ne_nil file reader.offset nonempty fits source)
        (by simp [isLoaded, held])

/-- A read calls the file if there are bytes left and they are not held, and then only. -/
theorem calls_read_ne_nil_iff (fits : reader.length ≤ signedMax) (source : σ) (buffer : Bytes) :
    Event.calls (reader.read file.watched buffer source).events ≠ [] ↔
      reader.isLoaded = false ∧ reader.position < reader.length := by
  rcases Nat.lt_or_ge reader.position reader.length with before | ended
  · have nonempty : 0 < reader.length := Nat.zero_lt_of_lt before
    rw [and_iff_left before, calls_read_of_before file.watched before,
      calls_ensureLoaded_ne_nil_iff file nonempty fits]
  · rw [read_of_end file.watched reader source buffer ended]
    exact iff_of_false (by simp [Transfer.leaving]) fun needs => Nat.not_le.mpr needs.2 ended

/-- A reader that holds its chunk, or stands at its end, can read on without its file. -/
def Provided (reader : ChunkReader) : Prop :=
  reader.isLoaded = true ∨ reader.length ≤ reader.position

theorem calls_read_of_provided (provided : reader.Provided) (source : σ) (buffer : Bytes) :
    Event.calls (reader.read file buffer source).events = [] := by
  rcases Nat.lt_or_ge reader.position reader.length with before | ended
  · obtain ⟨bytes, held⟩ :=
      Option.isSome_iff_exists.mp (provided.resolve_right (Nat.not_le.mpr before))
    rw [calls_read_of_before file before, ensureLoaded_of_some file reader source held]
    rfl
  · rw [read_of_end file reader source buffer ended]
    rfl

variable {file} {source : σ}

/-- A read of a stream that succeeds leaves the reader provided, and moves it by what it read. -/
theorem provided_of_streamRead (sound : reader.Sound) {buffer : Bytes} {count : Nat}
    (done : (reader.streamRead file buffer source).outcome = .done count) :
    let moved := (reader.streamRead file buffer source).state.1
    moved.Provided ∧ moved.Sound ∧ moved.length = reader.length ∧
      moved.position = reader.position + count := by
  intro moved
  have course := course_read file source sound buffer
  rw [← state_streamRead] at course
  have same_length : moved.length = reader.length := course.same_range.2
  suffices moved.Provided ∧ moved.position = reader.position + count from
    ⟨this.1, course.sound sound, same_length, this.2⟩
  rw [Provided, same_length]
  rcases Nat.lt_or_ge reader.position reader.length with before | ended
  · rw [outcome_streamRead] at done
    rcases read_of_before file reader source buffer before with
      ⟨bytes, loaded, _⟩ | ⟨_, _, step⟩ | ⟨_, _, step⟩
    · obtain ⟨outcome, _, state, _⟩ := (serves_of_ensureLoaded sound loaded).read buffer
      rw [outcome] at done
      cases done
      change moved = _ at state
      rw [state, isLoaded, kept, if_neg (Nat.not_le.mpr before)]
      refine ⟨?_, rfl⟩
      split
      · next all_read => exact .inr (Nat.le_of_eq all_read.symm)
      · exact .inl rfl
    · rw [step] at done
      cases done
    · rw [step] at done
      cases done
  · have step := read_of_end file reader source buffer ended
    have still : moved = reader := congrArg (·.state.1) step
    rw [outcome_streamRead, step] at done
    cases done
    rw [still]
    exact ⟨.inr ended, rfl⟩

/-- A provided reader never calls the file, however much is wanted of it. -/
theorem calls_gather_of_provided (provided : reader.Provided) (sound : reader.Sound)
    (demand : Demand) (source : σ) :
    Event.calls (reader.gather file demand source).events = [] := by
  fun_induction ChunkReader.gather file demand reader source with
  | case1 => rfl
  | case2 demand reader source _ reading count given ih =>
      have silent := calls_read_of_provided file provided source (List.replicate demand.room 0)
      obtain ⟨still_provided, still_sound, _⟩ := provided_of_streamRead sound given
      simp only [Step.after, Step.map, Step.mapOutcome, Event.calls_append,
        ih still_provided still_sound, List.append_nil]
      exact silent
  | case3 demand reader source =>
      exact calls_read_of_provided file provided source (List.replicate demand.room 0)

/-- All calls that are made for a demand are made by the first read. -/
theorem calls_gather (sound : reader.Sound) {demand : Demand} (wanted : demand ≠ .exactly 0)
    (source : σ) :
    Event.calls (reader.gather file demand source).events =
      Event.calls (reader.read file (List.replicate demand.room 0) source).events := by
  by_cases goes_on : ∃ count,
      (reader.streamRead file (List.replicate demand.room 0) source).outcome = .done (count + 1)
  · obtain ⟨count, given⟩ := goes_on
    obtain ⟨provided, moved_sound, _⟩ := provided_of_streamRead sound given
    rw [gather_of_given wanted given]
    simp only [Step.after, Step.map, Step.mapOutcome, Event.calls_append,
      calls_gather_of_provided provided moved_sound, List.append_nil]
    rfl
  · rw [gather_of_ended wanted fun count given => goes_on ⟨count, given⟩]
    rfl

variable (file)

/-- A command calls the file exactly if it has to load the chunk. -/
theorem calls_perform_ne_nil_iff (sound : reader.Sound) (nonempty : 0 < reader.length)
    (fits : reader.length ≤ signedMax) (own : command.asksFile = false) (source : σ) :
    Event.calls (reader.perform file.watched command source).events ≠ [] ↔
      command.loads reader = true := by
  cases moves : command.onlyMoves with
  | true =>
      obtain ⟨_, _, events⟩ := perform_of_onlyMoves file.watched source sound.position_le moves
      have modest := (ReaderCommand.of_onlyMoves moves reader [] 0).1
      rw [events, ReaderCommand.loads, modest]
      simp
  | false =>
      cases command with
      | prefetch =>
          refine (calls_ensureLoaded_ne_nil_iff file nonempty fits source).trans ?_
          simp [ReaderCommand.loads, ReaderCommand.wants]
      | read room | streamRead room =>
          refine (calls_read_ne_nil_iff file fits source (List.replicate room 0)).trans ?_
          simp [ReaderCommand.loads, ReaderCommand.wants]
      | streamExact wanted =>
          change Event.calls (reader.streamExact file.watched wanted source).events ≠ [] ↔ _
          rcases Nat.eq_zero_or_pos wanted with rfl | positive
          · rw [streamExact, gather_exactly_zero]
            simp [ReaderCommand.loads, ReaderCommand.wants]
          · rw [streamExact, calls_gather sound (Demand.exactly_ne_zero positive),
              calls_read_ne_nil_iff file fits]
            simp [ReaderCommand.loads, ReaderCommand.wants, positive]
      | streamToEnd =>
          change Event.calls (reader.drain file.watched blockLength source).events ≠ [] ↔ _
          rw [drain, calls_gather sound (Demand.blocks_ne_zero _), calls_read_ne_nil_iff file fits]
          simp [ReaderCommand.loads, ReaderCommand.wants]
      | close =>
          rw [perform_close, release]
          split <;> simp [Event.calls, ReaderCommand.loads, ReaderCommand.wants]
      | file request => cases own
      | _ => cases moves

end ChunkReader
end BulkTransfer
