import BulkTransfer.Proofs.ChunkReader.Course
import BulkTransfer.Proofs.File.Rounds

/-!
# What no cut breaks

A tracker may cut an operation off in the middle, with a chunk loaded and not held, or released and
still counted. What is kept whenever a reader loads, lets go or moves, and whenever its file is read
or its tracker told, holds all the same, whatever tracker it is and wherever it cuts in.
-/

namespace BulkTransfer

variable {σ : Type}

/-- Telling the tracker does not lead out of these states. -/
def Tracker.Keeps (tracker : Tracker σ) (okay : σ → Prop) : Prop :=
  ∀ delta state, okay state → okay (tracker.add delta state).2

/-- Reading the file does not lead out of these states. -/
def File.Keeps (file : File σ) (okay : σ → Prop) : Prop :=
  ∀ offset buffer state, okay state → okay (file.readAt offset buffer state).state

theorem Tracker.Keeps.hear {ε α : Type} {tracker : Tracker σ} {okay : σ → Prop}
    (keeps : tracker.Keeps okay) (value : α) (events : List Event) {state : σ}
    (start : okay state) : okay (tracker.hear value events state : Step σ ε α).state := by
  induction events generalizing state with
  | nil => exact start
  | cons event rest ih =>
      cases event with
      | called | moved | logged => exact ih start
      | tracked delta =>
          have told := keeps delta state start
          rw [Tracker.hear]
          split
          · next added =>
              rw [added] at told
              exact ih told
          · next added =>
              rw [added] at told
              exact told

namespace File.Keeps

variable {file : File σ} {okay : σ → Prop} (keeps : file.Keeps okay)

include keeps

theorem fill (offset : Nat) (buffer : Bytes) {state : σ} (start : okay state) :
    okay (file.fill offset buffer state).state := by
  induction offset, buffer, state using file.fill_induction with
  | full offset state =>
      rw [fill_nil]
      exact start
  | round offset buffer state wanted ih =>
      have read := keeps offset buffer state start
      rw [file.fill_round offset wanted]
      cases came : (file.readAt offset buffer state).outcome.verdict offset buffer.length with
      | ends outcome =>
          simp only [came]
          exact read
      | goesOn given =>
          simp only [came]
          exact ih given came read

theorem serve (request : FileRequest) {state : σ} (start : okay state) :
    okay (file.serve request state).state := by
  rw [File.serve]
  split
  · exact keeps.fill _ _ start
  · exact keeps _ _ _ start

theorem load (offset length : Nat) {source : σ} (start : okay source) :
    okay (file.load offset length source).state := by
  have filled := keeps.fill offset (List.replicate length 0) start
  rcases file.load_cases offset length source with
    ⟨_, load⟩ | ⟨_, ⟨_, _, load⟩ | ⟨_, _, load⟩ | ⟨_, load⟩ | ⟨_, _, _, load⟩⟩ <;> rw [load]
  · exact start
  · exact filled
  · exact filled
  · exact filled
  · exact filled

end File.Keeps

namespace ChunkReader

/-- What is kept by loading, letting go, moving, reading the file and telling the tracker. -/
structure Invariant (file : File σ) (tracker : Tracker σ) (good : ChunkReader → Prop)
    (okay : σ → Prop) : Prop where
  /-- Reading the file keeps its state okay. -/
  reads : file.Keeps okay
  /-- Telling the tracker keeps the state okay. -/
  adds : tracker.Keeps okay
  /-- Good readers are sound. -/
  sound : ∀ reader, good reader → reader.Sound
  /-- A good reader may hold what it loads. -/
  hold : ∀ reader source bytes, good reader → okay source →
    (file.load reader.offset reader.length source).outcome = .done bytes →
    good (reader.hold bytes).1
  /-- A good reader may let go. -/
  release : ∀ reader, good reader → good reader.release.1
  /-- A good reader may move within its range. -/
  move : ∀ reader position, good reader → position ≤ reader.length → good { reader with position }

/-- Whatever the file and the tracker do besides, readers stay sound. -/
theorem invariant_sound {file : File σ} {tracker : Tracker σ} {okay : σ → Prop}
    (reads : file.Keeps okay) (adds : tracker.Keeps okay) :
    Invariant file tracker Sound okay where
  reads := reads
  adds := adds
  sound _ sound := sound
  hold reader source bytes sound _ done := by
    obtain ⟨whole, fits⟩ := whole_of_load file source done
    refine ⟨sound.position_le, ?_, fun _ => fits⟩
    intro held taken
    cases taken
    exact whole
  release reader sound :=
    have released : Course file reader reader.release.2 reader.release.1 := .release reader
    released.sound sound
  move reader position sound inside := ⟨inside, sound.whole, sound.fits⟩

/-- Whatever the file and the tracker do, readers stay sound. -/
theorem always_sound (file : File σ) (tracker : Tracker σ) :
    Invariant file tracker Sound fun _ => True :=
  invariant_sound (fun _ _ _ _ => trivial) fun _ _ _ => trivial

/-- What is known of the range of a reader is kept besides, since the range never changes. -/
theorem Invariant.andRange {file : File σ} {tracker : Tracker σ} {good : ChunkReader → Prop}
    {okay : σ → Prop} (invariant : Invariant file tracker good okay) (known : Nat → Nat → Prop) :
    Invariant file tracker (fun reader => good reader ∧ known reader.offset reader.length)
      okay where
  reads := invariant.reads
  adds := invariant.adds
  sound reader start := invariant.sound reader start.1
  hold reader source bytes start below done :=
    ⟨invariant.hold reader source bytes start.1 below done, start.2⟩
  release reader start := by
    rw [offset_release, length_release]
    exact ⟨invariant.release reader start.1, start.2⟩
  move reader position start inside := ⟨invariant.move reader position start.1 inside, start.2⟩

namespace Invariant

variable {file : File σ} {tracker : Tracker σ} {good : ChunkReader → Prop} {okay : σ → Prop}
  (invariant : Invariant file tracker good okay) {reader : ChunkReader} {source : σ}

include invariant

theorem ensureLoaded (start : good reader) (below : okay source) :
    good (reader.ensureLoaded file source tracker).state.1 ∧
      okay (reader.ensureLoaded file source tracker).state.2 := by
  have loaded := invariant.reads.load reader.offset reader.length below
  cases held : reader.loaded with
  | some bytes =>
      simp only [ChunkReader.ensureLoaded, held]
      exact ⟨start, below⟩
  | none =>
      rcases ensureLoaded_cases file reader source tracker held with
        ⟨bytes, done, ⟨_, step⟩ | ⟨_, _, step⟩⟩ | ⟨_, _, step⟩ | ⟨_, _, step⟩ <;> rw [step]
      · exact ⟨invariant.hold reader source bytes start below done,
          invariant.adds.hear _ _ loaded⟩
      · exact ⟨start, invariant.adds.hear _ _ loaded⟩
      · exact ⟨start, loaded⟩
      · exact ⟨start, loaded⟩

theorem advance (start : good reader) {count : Nat}
    (inside : reader.position + count ≤ reader.length) : good (reader.advance count).1 := by
  have moved := invariant.move reader (reader.position + count) start inside
  rcases advance_cases reader count with ⟨_, step⟩ | ⟨_, step⟩ <;> rw [step]
  · exact invariant.release _ moved
  · exact moved

theorem read (start : good reader) (below : okay source) (buffer : Bytes) :
    good (reader.read file buffer source tracker).state.1 ∧
      okay (reader.read file buffer source tracker).state.2 := by
  obtain ⟨holds, loaded⟩ := invariant.ensureLoaded start below
  rcases Nat.lt_or_ge reader.position reader.length with before | ended
  · rcases read_cases file reader source tracker buffer before with
      ⟨bytes, done, step⟩ | ⟨_, _, step⟩ | ⟨_, _, step⟩ <;> rw [step]
    · refine ⟨invariant.advance holds ?_, invariant.adds.hear _ _ loaded⟩
      have whole := (invariant.sound _ holds).whole bytes
      rw [loaded_of_ensureLoaded file source done] at whole ⊢
      have size := whole rfl
      simp only [List.length_take, List.length_drop] at size ⊢
      omega
    · exact ⟨holds, loaded⟩
    · exact ⟨holds, loaded⟩
  · rw [ChunkReader.read, if_pos ended]
    exact ⟨start, below⟩

theorem gather (demand : Demand) (start : good reader) (below : okay source) :
    good (reader.gather file demand source tracker).state.1 ∧
      okay (reader.gather file demand source tracker).state.2 := by
  fun_induction ChunkReader.gather file demand reader source tracker with
  | case1 => exact ⟨start, below⟩
  | case2 demand reader source _ reading count given ih =>
      obtain ⟨moved, reached⟩ := invariant.read start below (List.replicate demand.room 0)
      exact ih moved reached
  | case3 demand reader source =>
      exact invariant.read start below (List.replicate demand.room 0)

/-- No command breaks what is kept, also if it is cut off. -/
theorem perform (command : ReaderCommand) (start : good reader) (below : okay source) :
    good (reader.perform file command source tracker).state.1 ∧
      okay (reader.perform file command source tracker).state.2 := by
  cases moves : command.onlyMoves with
  | true =>
      have sound := invariant.sound _ start
      have silent : reader.perform file command source tracker =
          reader.perform file command source := by
        cases command with
        | prefetch | read | streamRead | streamExact | streamToEnd | file | close => cases moves
        | _ => rfl
      have moved := (course_perform file source sound command).sound sound
      obtain ⟨position, state, _⟩ := perform_of_onlyMoves file source sound.position_le moves
      rw [silent, state]
      rw [state] at moved
      exact ⟨invariant.move reader position start moved.position_le, below⟩
  | false =>
      cases command with
      | prefetch => exact invariant.ensureLoaded start below
      | read room | streamRead room => exact invariant.read start below _
      | streamExact wanted => exact invariant.gather (.exactly wanted) start below
      | streamToEnd => exact invariant.gather (.blocks blockLength) start below
      | file request => exact ⟨start, invariant.reads.serve request below⟩
      | close => exact ⟨invariant.release _ start, invariant.adds.hear _ _ below⟩
      | _ => cases moves

end Invariant
end ChunkReader
end BulkTransfer
