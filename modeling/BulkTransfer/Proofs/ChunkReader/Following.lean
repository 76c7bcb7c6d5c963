import BulkTransfer.Proofs.ChunkReader.Loading
import BulkTransfer.Proofs.ChunkReader.Seeking
import BulkTransfer.Proofs.ChunkReader.Serving

/-!
# Chunk readers follow their windows

A chunk reader on a file that shows fixed contents answers as the window of its range does, whatever
it holds at the moment and in whatever pieces the file delivers. Loading ahead of time and letting
go early can therefore not be noticed.
-/

namespace BulkTransfer
namespace ChunkReader

variable {σ : Type}

/-- A reader stands at a position of a window, and holds nothing or the whole window. -/
structure Follows (reader : ChunkReader) (window : Window) (position : Nat) : Prop where
  /-- The reader has the offset of the window. -/
  offset_eq : reader.offset = window.offset
  /-- The reader has the length of the window. -/
  length_eq : reader.length = window.length
  /-- The reader stands at the position. -/
  position_eq : reader.position = position
  /-- The position lies within the window. -/
  inside : position ≤ window.length
  /-- Bytes that are held are those of the window. -/
  loaded : ∀ bytes, reader.loaded = some bytes → bytes = window.whole

variable {window : Window} {file : File σ} {reader : ChunkReader} {position : Nat}

theorem follows_reader (window : Window) : window.reader.Follows window 0 :=
  ⟨rfl, rfl, rfl, Nat.zero_le _, by simp [Window.reader]⟩

theorem Follows.move (follows : reader.Follows window position) {target : Nat}
    (inside : target ≤ window.length) :
    { reader with position := target }.Follows window target :=
  ⟨follows.offset_eq, follows.length_eq, rfl, inside, follows.loaded⟩

theorem Follows.release (follows : reader.Follows window position) :
    reader.release.1.Follows window position :=
  ⟨reader.offset_release.trans follows.offset_eq, reader.length_release.trans follows.length_eq,
    reader.position_release.trans follows.position_eq, follows.inside, by simp⟩

theorem load_window (shows : file.Shows window.contents) (source : σ) :
    (file.load window.offset window.length source).outcome = .done window.whole := by
  rcases File.load_of_shows shows window.addressable window.offset window.nonempty window.fits
    source with ⟨_, load⟩ | ⟨beyond, _⟩
  · rw [load, Window.whole]
  · exact absurd window.stored (Nat.not_le.mpr beyond)

theorem ensureLoaded_window (shows : file.Shows window.contents) (source : σ)
    (follows : reader.Follows window position) :
    (reader.ensureLoaded file source).outcome = .done window.whole := by
  cases held : reader.loaded with
  | some bytes => rw [ensureLoaded_of_some file reader source held, follows.loaded bytes held]
  | none =>
      have loads := load_window shows source
      rw [← follows.offset_eq, ← follows.length_eq] at loads
      rcases ensureLoaded_of_none file reader source held with
        ⟨_, done, step⟩ | ⟨_, outcome, _⟩ | ⟨_, outcome, _⟩
      · rw [step, ← done, loads]
      · simp [loads] at outcome
      · simp [loads] at outcome

/-- A reader that follows a window on shown contents serves the bytes of the window. -/
theorem Follows.serves (follows : reader.Follows window position)
    (shows : file.Shows window.contents) (source : σ) :
    reader.Serves file source window.whole where
  inside := by
    rw [follows.position_eq, follows.length_eq]
    exact follows.inside
  whole := by rw [window.length_whole, follows.length_eq]
  ready := fun _ => ensureLoaded_window shows source follows

theorem follows_ensureLoaded (shows : file.Shows window.contents) (source : σ)
    (follows : reader.Follows window position) :
    (reader.ensureLoaded file source).state.1.Follows window position := by
  rw [loaded_of_ensureLoaded file source (ensureLoaded_window shows source follows)]
  refine ⟨follows.offset_eq, follows.length_eq, follows.position_eq, follows.inside, ?_⟩
  intro bytes held
  exact (Option.some.inj held).symm

theorem Follows.kept (follows : reader.Follows window position) {count : Nat}
    (inside : position + count ≤ window.length) :
    { reader with
      position := reader.position + count
      loaded := reader.kept window.whole count }.Follows window (position + count) where
  offset_eq := follows.offset_eq
  length_eq := follows.length_eq
  position_eq := congrArg (· + count) follows.position_eq
  inside := inside
  loaded := by
    intro bytes held
    simp only [ChunkReader.kept] at held
    split at held
    · exact follows.loaded bytes held
    · split at held
      · cases held
      · exact (Option.some.inj held).symm

/-- A read gives the bytes of the window at its position, and moves past them. -/
theorem read_window (shows : file.Shows window.contents) (source : σ)
    (follows : reader.Follows window position) (buffer : Bytes) :
    (reader.read file buffer source).outcome =
        .done ⟨window.count position buffer.length,
          position + window.count position buffer.length = window.length⟩ ∧
      (reader.read file buffer source).buffer =
        overlay (window.bytes position buffer.length) buffer ∧
      (reader.read file buffer source).state.1.Follows window
        (position + window.count position buffer.length) := by
  have serves := follows.serves shows source
  obtain ⟨outcome, given, moves, _⟩ := serves.read buffer
  have inside := follows.inside
  have same_count : reader.count buffer.length = window.count position buffer.length := by
    rw [count, Window.count, follows.position_eq, follows.length_eq]
  have at_end : window.whole.length ≤ position + buffer.length ↔
      position + window.count position buffer.length = window.length := by
    rw [window.length_whole, Window.count]
    omega
  rw [outcome, given, moves, same_count, follows.position_eq, window.take_drop_whole inside]
  refine ⟨?_, rfl, ?_⟩
  · simp only [at_end]
  · have kept := follows.kept (window.count_le buffer.length inside)
    rwa [follows.position_eq] at kept

theorem delivered_window (shows : file.Shows window.contents) (source : σ)
    (follows : reader.Follows window position) (room : Nat) :
    (reader.read file (List.replicate room 0) source).buffer.take (window.count position room) =
      window.bytes position room := by
  have delivered := (follows.serves shows source).delivered room
  rwa [count, follows.position_eq, follows.length_eq, window.take_drop_whole follows.inside]
    at delivered

theorem streamRead_done (shows : file.Shows window.contents) (source : σ)
    (follows : reader.Follows window position) (buffer : Bytes) :
    (reader.streamRead file buffer source).outcome =
      .done (window.count position buffer.length) := by
  rw [outcome_streamRead, (read_window shows source follows buffer).1]
  rfl

/-- A demand is met from the bytes of the window. -/
theorem gather_window (shows : file.Shows window.contents) (source : σ) {demand : Demand}
    (roomy : demand.Roomy) (follows : reader.Follows window position) :
    (reader.gather file demand source).outcome = demand.serve (window.whole.drop position) ∧
      (reader.gather file demand source).state.1.Follows window
        (position + demand.taken (window.length - position)) := by
  obtain ⟨outcome, state⟩ := (follows.serves shows source).gather roomy
  have inside := follows.inside
  have bound := demand.taken_le (window.length - position)
  rw [outcome, state, follows.position_eq, follows.length_eq]
  refine ⟨rfl, ?_⟩
  by_cases met : demand = .exactly 0
  · have none_taken : demand.taken (window.length - position) = 0 := by
      rw [met]
      exact Nat.zero_min _
    rw [none_taken, if_pos met]
    have still := follows.move inside
    rwa [follows.length_eq] at still
  · have taken_inside : position + demand.taken (window.length - position) ≤ window.length := by
      omega
    have kept := follows.kept taken_inside
    rw [if_neg met]
    rwa [follows.position_eq, follows.length_eq] at kept

/-- A seek that fails before the start and otherwise moves where it aims is a seek of the window. -/
theorem apart_window {ε : Type} (fault : ε → Fault) {error : ε} (source : σ) {aim : Int}
    {result : Except ε Nat × ChunkReader} (follows : reader.Follows window position)
    (step : (aim < 0 ∧ result = (.error error, reader)) ∨
      (0 ≤ aim ∧
        let reached := min aim.toNat reader.length
        result = (.ok reached, { reader with position := reached }))) :
    (apart fault .number source result).outcome = (window.seek (fault error) aim position).1 ∧
      (apart fault .number source result).state.1.Follows window
        (window.seek (fault error) aim position).2 := by
  rw [Window.seek]
  rcases step with ⟨short, step⟩ | ⟨inside, step⟩ <;> rw [step]
  · rw [if_pos short]
    exact ⟨rfl, follows⟩
  · rw [if_neg (Int.not_lt.mpr inside), ← follows.length_eq]
    refine ⟨rfl, follows.move ?_⟩
    rw [← follows.length_eq]
    exact Nat.min_le_right _ _

/-- A reader on shown contents answers a command as its window does, and stays with it. -/
theorem perform_window (shows : file.Shows window.contents) (source : σ)
    (follows : reader.Follows window position) {command : ReaderCommand}
    (own : command.asksFile = false) :
    (reader.perform file command source).outcome = (window.obey position command).1 ∧
      (reader.perform file command source).state.1.Follows window
        (window.obey position command).2 := by
  have inside : reader.position ≤ reader.length := by
    rw [follows.position_eq, follows.length_eq]
    exact follows.inside
  have fits : reader.length ≤ signedMax := by
    rw [follows.length_eq]
    exact window.fits
  cases command with
  | prefetch =>
      have loading := ensureLoaded_window shows source follows
      refine ⟨?_, follows_ensureLoaded shows source follows⟩
      simp [perform, prefetch, Step.map, Step.mapError, Step.mapOutcome, loading, Window.obey]
  | read room =>
      obtain ⟨outcome, _, moves⟩ := read_window shows source follows (List.replicate room 0)
      have delivered := delivered_window shows source follows room
      rw [List.length_replicate] at outcome moves
      refine ⟨?_, moves⟩
      simp [perform, Step.map, Step.mapError, Step.mapOutcome, outcome, delivered, Window.obey]
  | streamRead room =>
      obtain ⟨outcome, _, moves⟩ := read_window shows source follows (List.replicate room 0)
      have delivered := delivered_window shows source follows room
      rw [List.length_replicate] at outcome moves
      refine ⟨?_, moves⟩
      simp [perform, Step.map, Step.mapError, Step.mapOutcome, outcome, delivered, Window.obey]
  | streamExact wanted =>
      obtain ⟨outcome, ends⟩ := gather_window shows source (Demand.roomy_exactly wanted) follows
      have bound := follows.inside
      have left : (window.whole.drop position).length = window.length - position := by
        rw [List.length_drop, window.length_whole]
      simp only [perform, streamExact, Step.map, Step.mapError, Step.mapOutcome, outcome,
        Demand.serve, left, window.take_drop_whole bound, Window.obey]
      rw [Demand.taken] at ends
      by_cases enough : wanted ≤ window.length - position
      · rw [Nat.min_eq_left enough] at ends
        rw [if_pos enough, if_pos enough]
        exact ⟨rfl, ends⟩
      · rw [Nat.min_eq_right (by omega), Nat.add_sub_of_le bound] at ends
        rw [if_neg enough, if_neg enough]
        exact ⟨rfl, ends⟩
  | streamToEnd =>
      obtain ⟨outcome, ends⟩ :=
        gather_window shows source (Demand.roomy_blocks (by decide : 0 < blockLength)) follows
      have all_left : window.bytes position (window.length - position) =
          window.whole.drop position := by
        rw [← window.take_drop_whole follows.inside, List.take_of_length_le]
        exact Nat.le_of_eq (by rw [List.length_drop, window.length_whole])
      rw [Demand.taken, Nat.add_sub_of_le follows.inside] at ends
      refine ⟨?_, ends⟩
      simp [perform, streamToEnd, drain, Step.map, Step.mapError, Step.mapOutcome, outcome,
        Demand.serve, all_left, Window.obey]
  | close =>
      rw [perform_close]
      exact ⟨rfl, follows.release⟩
  | range =>
      refine ⟨?_, follows⟩
      simp [perform, Window.obey, follows.offset_eq, follows.length_eq]
  | seek offset whence =>
      have step := seek_cases reader offset whence
      rw [follows.position_eq, follows.length_eq] at step
      exact apart_window .chunk source follows (follows.length_eq ▸ step)
  | streamSeek target =>
      have step := streamSeek_cases_of_fits target fits
      rw [follows.position_eq, follows.length_eq] at step
      exact apart_window .io source follows (follows.length_eq ▸ step)
  | seekPosition =>
      rw [perform, Seeker.position, seek_current_zero inside, follows.position_eq]
      exact ⟨rfl, follows⟩
  | streamPosition =>
      have step : reader.streamSeek (.current 0) = (.ok reader.position, reader) := by
        simp only [streamSeek, SeekTarget.split, seek_current_zero inside]
        rfl
      rw [perform, step, follows.position_eq]
      exact ⟨rfl, follows⟩
  | seekLength =>
      rcases seekLength_cases inside with ⟨_, step⟩ | ⟨far, _, _⟩
      · rw [perform, step, follows.length_eq]
        exact ⟨rfl, follows⟩
      · omega
  | reset =>
      rw [perform, reset_seek]
      exact ⟨rfl, follows.move (Nat.zero_le _)⟩
  | streamRewind =>
      rw [perform, streamSeek_start, Nat.zero_min, Nat.zero_min]
      exact ⟨rfl, follows.move (Nat.zero_le _)⟩
  | file request => cases own

theorem transcript_of_follows (shows : file.Shows window.contents) (source : σ)
    (follows : reader.Follows window position) {commands : List ReaderCommand}
    (own : ∀ command ∈ commands, command.asksFile = false) :
    transcript file commands reader source = window.transcript commands position := by
  induction commands generalizing reader position source with
  | nil => rfl
  | cons command rest ih =>
      rw [List.forall_mem_cons] at own
      obtain ⟨outcome, moves⟩ := perform_window shows source follows own.1
      rw [transcript, Window.transcript, outcome]
      exact congrArg (_ :: ·) (ih _ moves own.2)

/-- On a file that shows the contents of a window, a chunk reader of the window's range can be
created, and any commands are answered as a bare cursor on the window answers them. Loading and
releasing at other times, and any other way in which the file delivers, change no other answer. -/
theorem transcript_eq_window (window : Window) {file : File σ}
    (shows : file.Shows window.contents) (commands : List ReaderCommand)
    (own : ∀ command ∈ commands, command.asksFile = false) :
    create window.offset window.length = .ok window.reader ∧
      (∀ source, transcript file commands window.reader source = window.transcript commands 0) ∧
      ∀ others source later,
        others.filter (!·.isIdle) = commands.filter (!·.isIdle) →
        (transcript file others window.reader later).filter (!·.1.isIdle) =
          (transcript file commands window.reader source).filter (!·.1.isIdle) := by
  refine ⟨window.create_reader, fun source =>
    transcript_of_follows shows source (follows_reader window) own, ?_⟩
  intro others source later same
  have others_own : ∀ command ∈ others, command.asksFile = false := by
    intro command member
    cases idle : command.isIdle with
    | true => cases command <;> first | rfl | cases idle
    | false =>
        have kept : command ∈ others.filter (!·.isIdle) :=
          List.mem_filter.mpr ⟨member, by simp [idle]⟩
        rw [same] at kept
        exact own command (List.mem_filter.mp kept).1
  rw [transcript_of_follows shows later (follows_reader window) others_own,
    transcript_of_follows shows source (follows_reader window) own,
    Window.filter_transcript, Window.filter_transcript, same]

/-- Three bytes in the middle of five. -/
def middleWindow : Window where
  contents := .ofArray #[10, 20, 30, 40, 50]
  offset := 1
  length := 3
  nonempty := by decide
  fits := by decide
  stored := by decide
  addressable := by decide

/-- Reading in the middle, stepping back, reading on past the end and once more from the start. -/
theorem transcript_middleWindow :
    middleWindow.contents.hesitant.Shows middleWindow.contents ∧
      transcript middleWindow.contents.hesitant
          [.prefetch, .read 2, .seek (-1) .current, .streamRead 5, .close, .read 0,
            .streamSeek (.start 0), .read 9, .seek (-4) .current] middleWindow.reader false =
        [(.prefetch, .done .nothing), (.read 2, .done (.portion [20, 30] false)),
          (.seek (-1) .current, .done (.number 1)), (.streamRead 5, .done (.stream [30, 40])),
          (.close, .done .nothing), (.read 0, .done (.portion [] true)),
          (.streamSeek (.start 0), .done (.number 0)),
          (.read 9, .done (.portion [20, 30, 40] true)),
          (.seek (-4) .current, .failed (.chunk .negativeSeek))] := by
  have shows := middleWindow.contents.shows_hesitant
  refine ⟨shows, ?_⟩
  obtain ⟨_, same, _⟩ := transcript_eq_window middleWindow shows
    [.prefetch, .read 2, .seek (-1) .current, .streamRead 5, .close, .read 0,
      .streamSeek (.start 0), .read 9, .seek (-4) .current] (by decide)
  rw [same false]
  decide

end ChunkReader
end BulkTransfer
