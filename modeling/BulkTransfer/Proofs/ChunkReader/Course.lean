import BulkTransfer.Proofs.ChunkReader.Steps
import BulkTransfer.Proofs.File.Filling

/-!
# The course of a chunk reader

Whatever is asked of a chunk reader, it does four things only: it lets its file report, takes hold
of its whole chunk, lets go of it, or moves within its range. A course is any sequence of these,
with the events in order. Every command is a course, so what courses preserve holds of all readers
at all times.
-/

namespace BulkTransfer
namespace ChunkReader

variable {σ : Type}

/-- An event that is none of the reader's own: a report of its file, or the record of a short read,
after which nothing is held. -/
def Foreign (file : File σ) (event : Event) : Prop :=
  file.Emits event ∨ ∃ details, event = .logged (.shortRead details)

/-- How a reader gets from one state to another, and the events on the way. -/
inductive Course (file : File σ) : ChunkReader → List Event → ChunkReader → Prop where
  /-- The file reports, or a short read is logged. -/
  | listen {reader : ChunkReader} {events : List Event}
      (foreign : ∀ event ∈ events, Foreign file event) : Course file reader events reader
  /-- A reader that holds nothing takes hold of its whole chunk. -/
  | hold {reader : ChunkReader} {bytes : Bytes} (vacant : reader.loaded = none)
      (whole : bytes.length = reader.length) (fits : reader.length ≤ signedMax) :
      Course file reader (reader.hold bytes).2 (reader.hold bytes).1
  /-- The reader lets go of what it holds. -/
  | release (reader : ChunkReader) : Course file reader reader.release.2 reader.release.1
  /-- The reader moves within its range. -/
  | move {reader : ChunkReader} {position : Nat} (inside : position ≤ reader.length) :
      Course file reader [] { reader with position }
  /-- One course follows another. -/
  | append {first second third : ChunkReader} {earlier later : List Event}
      (before : Course file first earlier second) (after : Course file second later third) :
      Course file first (earlier ++ later) third

/-- A reader stands within its range, and holds nothing or the whole of a chunk that fits. -/
structure Sound (reader : ChunkReader) : Prop where
  /-- The position lies within the range. -/
  position_le : reader.position ≤ reader.length
  /-- Bytes that are held are as many as the range has. -/
  whole : ∀ bytes, reader.loaded = some bytes → bytes.length = reader.length
  /-- A chunk that is held is not too long to be held. -/
  fits : reader.isLoaded = true → reader.length ≤ signedMax

theorem sound_of_none {reader : ChunkReader} (vacant : reader.loaded = none)
    (inside : reader.position ≤ reader.length) : reader.Sound :=
  ⟨inside, by simp [vacant], by simp [isLoaded, vacant]⟩

theorem sound_of_create {offset length : Nat} {reader : ChunkReader}
    (created : create offset length = .ok reader) : reader.Sound := by
  rw [create] at created
  split at created
  · simp at created
  · cases created
    exact sound_of_none rfl (Nat.zero_le _)

@[simp]
theorem isLoaded_release (reader : ChunkReader) : reader.release.1.isLoaded = false := by
  simp [isLoaded]

namespace Course

variable {file : File σ} {before after : ChunkReader} {events : List Event}

/-- The range of a reader is the same at all times. -/
theorem same_range (course : Course file before events after) :
    after.offset = before.offset ∧ after.length = before.length := by
  induction course with
  | listen | hold | move => exact ⟨rfl, rfl⟩
  | release reader => exact ⟨offset_release reader, length_release reader⟩
  | append _ _ earlier later => exact ⟨later.1.trans earlier.1, later.2.trans earlier.2⟩

/-- Courses keep readers sound. -/
theorem sound (course : Course file before events after) (sound : before.Sound) :
    after.Sound := by
  induction course with
  | listen => exact sound
  | hold vacant whole fits =>
      refine ⟨sound.position_le, ?_, fun _ => fits⟩
      intro held taken
      cases taken
      exact whole
  | release reader =>
      refine ⟨?_, ?_, ?_⟩
      · rw [position_release, length_release]
        exact sound.position_le
      · simp
      · simp
  | move inside => exact ⟨inside, sound.whole, sound.fits⟩
  | append _ _ earlier later => exact later (earlier sound)

theorem refl (reader : ChunkReader) : Course file reader [] reader :=
  .listen (by simp)

end Course

variable (file : File σ) {reader : ChunkReader} (source : σ)

/-- Loading adds no events of its own but the record of a short read. -/
theorem foreign_of_mem_load {offset length : Nat} {event : Event}
    (member : event ∈ (file.load offset length source).events) : Foreign file event := by
  rcases file.load_cases offset length source with
    ⟨_, load⟩ | ⟨_, ⟨_, _, load⟩ | ⟨_, _, load⟩ | ⟨_, load⟩ | ⟨read, _, _, load⟩⟩ <;>
    rw [load] at member
  · simp at member
  · exact .inl (file.emits_of_mem_fill member)
  · exact .inl (file.emits_of_mem_fill member)
  · exact .inl (file.emits_of_mem_fill member)
  · rcases List.mem_append.mp member with reported | logged
    · exact .inl (file.emits_of_mem_fill reported)
    · exact .inr ⟨_, List.mem_singleton.mp logged⟩

/-- What loading gives is the whole of a chunk that fits. -/
theorem whole_of_load {offset length : Nat} {bytes : Bytes}
    (done : (file.load offset length source).outcome = .done bytes) :
    bytes.length = length ∧ length ≤ signedMax := by
  rcases file.load_cases offset length source with
    ⟨_, load⟩ | ⟨fits, ⟨_, _, load⟩ | ⟨_, _, load⟩ | ⟨_, load⟩ | ⟨_, _, _, load⟩⟩ <;>
    rw [load] at done
  · simp at done
  · simp at done
  · simp at done
  · cases done
    simp [fits]
  · simp at done

theorem course_ensureLoaded (reader : ChunkReader) :
    Course file reader (reader.ensureLoaded file source).events
      (reader.ensureLoaded file source).state.1 := by
  cases held : reader.loaded with
  | some bytes =>
      rw [ensureLoaded_of_some file reader source held]
      exact .refl reader
  | none =>
      have reported : ∀ event ∈ (file.load reader.offset reader.length source).events,
          Foreign file event := fun _ => foreign_of_mem_load file source
      rcases ensureLoaded_of_none file reader source held with
        ⟨bytes, done, step⟩ | ⟨error, _, step⟩ | ⟨cause, _, step⟩ <;> rw [step]
      · obtain ⟨whole, fits⟩ := whole_of_load file source done
        exact .append (.listen reported) (.hold held whole fits)
      · exact .listen reported
      · exact .listen reported

theorem loaded_of_ensureLoaded {tracker : Tracker σ} {bytes : Bytes}
    (done : (reader.ensureLoaded file source tracker).outcome = .done bytes) :
    (reader.ensureLoaded file source tracker).state.1 = { reader with loaded := some bytes } := by
  cases held : reader.loaded with
  | some earlier =>
      simp only [ensureLoaded, held, Outcome.done.injEq] at done ⊢
      rw [← done, ← held]
  | none =>
      rcases ensureLoaded_cases file reader source tracker held with
        ⟨_, _, ⟨_, step⟩ | ⟨_, _, step⟩⟩ | ⟨_, _, step⟩ | ⟨_, _, step⟩ <;> rw [step] at done ⊢ <;>
        cases done
      rfl

section Held

variable {file : File σ} {source : σ} {tracker : Tracker σ} {bytes : Bytes}

theorem read_last (held : reader.loaded = some bytes) (before : reader.position < reader.length)
    (whole : bytes.length = reader.length) {buffer : Bytes}
    (last : (bytes.drop reader.position).length ≤ buffer.length) :
    let left := bytes.drop reader.position
    let moving := reader.advance left.length
    let hearing : Step σ ChunkError Portion := tracker.hear ⟨left.length, true⟩ moving.2 source
    reader.read file buffer source tracker =
      { outcome := hearing.outcome
        state := (moving.1, hearing.state)
        events := hearing.events
        buffer := overlay left buffer } := by
  intro left moving hearing
  have ended : reader.length ≤ reader.position + left.length := by
    rw [List.length_drop, whole]
    omega
  rw [read, if_neg (Nat.not_le.mpr before), ensureLoaded_of_some file reader source held tracker]
  simp only [List.take_of_length_le last, position_advance, ended, decide_true, List.nil_append,
    left, moving, hearing]

theorem read_full (held : reader.loaded = some bytes) (before : reader.position < reader.length)
    (whole : bytes.length = reader.length) {buffer : Bytes}
    (more : buffer.length < (bytes.drop reader.position).length) :
    reader.read file buffer source tracker =
      { outcome := .done ⟨buffer.length, false⟩
        state := ({ reader with position := reader.position + buffer.length }, source)
        events := []
        buffer := (bytes.drop reader.position).take buffer.length } := by
  have given : ((bytes.drop reader.position).take buffer.length).length = buffer.length := by
    rw [List.length_take, Nat.min_eq_left (Nat.le_of_lt more)]
  have inside : ¬ reader.length ≤ reader.position + buffer.length := by
    rw [List.length_drop, whole] at more
    omega
  have moves : reader.advance buffer.length =
      ({ reader with position := reader.position + buffer.length }, []) := if_neg inside
  rw [read, if_neg (Nat.not_le.mpr before), ensureLoaded_of_some file reader source held tracker]
  simp only [given, moves, inside, decide_false, List.append_nil, Tracker.hear_nil,
    overlay_of_length_le (Nat.le_of_eq given), List.drop_length]

/-- Before the end a reader that can load the chunk reads like one that holds it. -/
theorem read_of_loaded {holder : ChunkReader} {reached : σ} {events : List Event}
    (before : reader.position < reader.length)
    (loads : reader.ensureLoaded file source tracker = ⟨.done bytes, (holder, reached), events⟩)
    (buffer : Bytes) :
    reader.read file buffer source tracker =
      (holder.read file buffer reached tracker).after events := by
  have holds : holder = { reader with loaded := some bytes } := by
    have state := loaded_of_ensureLoaded file source (congrArg Step.outcome loads)
    rw [loads] at state
    exact state
  subst holds
  rw [read, read, if_neg (Nat.not_le.mpr before), if_neg (Nat.not_le.mpr before), loads]
  rfl

end Held

theorem course_advance (reader : ChunkReader) {count : Nat}
    (inside : reader.position + count ≤ reader.length) :
    Course file reader (reader.advance count).2 (reader.advance count).1 := by
  have moved : Course file reader [] { reader with position := reader.position + count } :=
    .move inside
  rcases advance_cases reader count with ⟨_, step⟩ | ⟨_, step⟩ <;> rw [step]
  · exact .append moved (.release _)
  · exact moved

theorem course_read (sound : reader.Sound) (buffer : Bytes) :
    Course file reader (reader.read file buffer source).events
      (reader.read file buffer source).state.1 := by
  rcases Nat.lt_or_ge reader.position reader.length with before | ended
  · have loading := course_ensureLoaded file source reader
    rcases read_of_before file reader source buffer before with
      ⟨bytes, done, step⟩ | ⟨error, _, step⟩ | ⟨cause, _, step⟩ <;> rw [step]
    · have holder := loaded_of_ensureLoaded file source done
      have whole := (loading.sound sound).whole bytes (by rw [holder])
      have inside := (loading.sound sound).position_le
      rw [holder] at loading whole inside ⊢
      refine .append loading (course_advance file _ ?_)
      simp only [List.length_take, List.length_drop]
      simp only at whole inside ⊢
      omega
    · exact loading
    · exact loading
  · rw [read_of_end file reader source buffer ended]
    exact .refl reader

theorem course_gather (demand : Demand) (sound : reader.Sound) :
    Course file reader (reader.gather file demand source).events
      (reader.gather file demand source).state.1 := by
  fun_induction ChunkReader.gather file demand reader source with
  | case1 => exact .refl _
  | case2 demand reader source _ reading count given ih =>
      have course := course_read file source sound (List.replicate demand.room 0)
      exact .append course (ih (course.sound sound))
  | case3 demand reader source =>
      exact course_read file source sound (List.replicate demand.room 0)

theorem course_seek (reader : ChunkReader) (offset : Int) (whence : Whence) :
    Course file reader [] (seek offset whence reader).2 := by
  rcases seek_cases reader offset whence with ⟨_, step⟩ | ⟨_, step⟩ <;> rw [step]
  · exact .refl reader
  · exact .move (Nat.min_le_right _ _)

theorem course_streamSeek (reader : ChunkReader) (target : SeekTarget) :
    Course file reader [] (reader.streamSeek target).2 :=
  course_seek file reader target.split.1 target.split.2

theorem course_seekLength (sound : reader.Sound) :
    Course file reader [] (Seeker.length seek reader).2 := by
  rcases seekLength_cases sound.position_le with ⟨_, step⟩ | ⟨_, _, step⟩ <;> rw [step]
  · exact .refl reader
  · exact .move (Nat.le_refl _)

theorem course_apart {ε α : Type} (fault : ε → Fault) (answer : α → Answer)
    {result : Except ε α × ChunkReader} (course : Course file reader [] result.2) :
    Course file reader (apart fault answer source result).events
      (apart fault answer source result).state.1 := by
  obtain ⟨error | value, moved⟩ := result
  · exact course
  · exact course

theorem course_serve (reader : ChunkReader) (request : FileRequest) :
    Course file reader (file.serve request source).events reader :=
  .listen fun _ member => .inl (file.emits_of_mem_serve member)

/-- Every command takes its reader along a course. -/
theorem course_perform (sound : reader.Sound) (command : ReaderCommand) :
    Course file reader (reader.perform file command source).events
      (reader.perform file command source).state.1 := by
  cases command with
  | prefetch => exact course_ensureLoaded file source reader
  | read room => exact course_read file source sound _
  | streamRead room => exact course_read file source sound _
  | streamExact wanted => exact course_gather file source (.exactly wanted) sound
  | streamToEnd => exact course_gather file source (.blocks blockLength) sound
  | file request => exact course_serve file source reader request
  | close =>
      rw [perform_close]
      exact .release reader
  | range => exact .refl reader
  | seekLength => exact course_apart file source _ _ (course_seekLength file sound)
  | seek offset whence => exact course_apart file source _ _ (course_seek file reader _ _)
  | seekPosition => exact course_apart file source _ _ (course_seek file reader _ _)
  | reset =>
      rw [perform, reset_seek]
      exact course_apart file source _ _ (.move (Nat.zero_le _))
  | streamSeek target => exact course_apart file source _ _ (course_streamSeek file reader _)
  | streamRewind => exact course_apart file source _ _ (course_streamSeek file reader _)
  | streamPosition => exact course_apart file source _ _ (course_streamSeek file reader _)

/-- Carry out commands one after the other, and write down how each one ended. -/
def transcript (file : File σ) :
    List ReaderCommand → ChunkReader → σ → List (ReaderCommand × Outcome Fault Answer)
  | [], _, _ => []
  | command :: rest, reader, source =>
      let step := reader.perform file command source
      (command, step.outcome) :: transcript file rest step.state.1 step.state.2

/-- A reader and its file after commands. -/
def afterAll (file : File σ) : List ReaderCommand → ChunkReader → σ → ChunkReader × σ
  | [], reader, source => (reader, source)
  | command :: rest, reader, source =>
      let step := reader.perform file command source
      afterAll file rest step.state.1 step.state.2

/-- A run of commands is a course. -/
theorem exists_course_afterAll (file : File σ) (source : σ) (commands : List ReaderCommand)
    (sound : reader.Sound) :
    ∃ events, Course file reader events (reader.afterAll file commands source).1 := by
  induction commands generalizing reader source with
  | nil => exact ⟨[], .refl reader⟩
  | cons command rest ih =>
      have course := course_perform file source sound command
      obtain ⟨later, rest_course⟩ := ih _ (course.sound sound)
      exact ⟨_, course.append rest_course⟩

end ChunkReader
end BulkTransfer
