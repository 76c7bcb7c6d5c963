import BulkTransfer.File.Script
import BulkTransfer.Proofs.ChunkReader.Calling

/-!
# One snapshot for each load

A file may change, and may give other bytes at each read, or claim bytes that it never wrote. A
chunk reader sees of this what it sees in one load: between a load and the release of what was
loaded, all answers come from the same bytes, and the file is not called at all.
-/

namespace BulkTransfer
namespace ChunkReader

variable {σ : Type} {file : File σ} {reader : ChunkReader} {source : σ} {bytes : Bytes}

/-- Whether no command of a run is done with the bytes that are held. -/
def keeps (file : File σ) : List ReaderCommand → ChunkReader → σ → Bool
  | [], _, _ => true
  | command :: rest, reader, source =>
      let step := reader.perform file command source
      !command.finishes reader && keeps file rest step.state.1 step.state.2

/-- Bytes that are held are held until a command is done with them. -/
theorem held_afterAll {commands : List ReaderCommand} (sound : reader.Sound)
    (held : reader.loaded = some bytes) (keeps : reader.keeps file commands source = true) :
    (reader.afterAll file commands source).1.loaded = some bytes := by
  induction commands generalizing reader source with
  | nil => exact held
  | cons command rest ih =>
      rw [ChunkReader.keeps, Bool.and_eq_true, Bool.not_eq_true'] at keeps
      have still : (reader.perform file command source).state.1.loaded = some bytes := by
        cases asks : command.asksFile with
        | true =>
            cases command with
            | file request => exact held
            | _ => cases asks
        | false =>
            have at_hand : AtHand file command reader source bytes := .inl held
            have left := (perform_of_atHand sound asks at_hand).2
            rwa [keeps.1] at left
      exact ih ((course_perform file source sound command).sound sound) still keeps.2

/-- What holds at any time of a reader whose file may answer anything: the file is called when the
chunk is loaded and at no other time, and between a load and the release of its bytes all answers
come from these bytes. -/
structure Snapshots (file : File σ) (reader : ChunkReader) (source : σ) : Prop where
  /-- A command calls the file exactly if it has to load the chunk. -/
  calls_iff : ∀ command : ReaderCommand, command.asksFile = false →
    (Event.calls (reader.perform file command source).events ≠ [] ↔ command.loads reader = true)
  /-- Dropping the reader does not call the file. -/
  calls_drop : Event.calls reader.release.2 = []
  /-- What is loaded is as long as the range. -/
  whole : ∀ (command : ReaderCommand) bytes, AtHand file command reader source bytes →
    bytes.length = reader.length
  /-- A command is answered from the bytes that are held, or from those it loads. -/
  answered : ∀ (command : ReaderCommand) bytes outcome, command.asksFile = false →
    AtHand file command reader source bytes →
    command.answer? bytes reader.position = some outcome →
    (reader.perform file command source).outcome = outcome
  /-- It leaves these bytes held unless it is done with them. -/
  left : ∀ (command : ReaderCommand) bytes, command.asksFile = false →
    AtHand file command reader source bytes →
    (reader.perform file command source).state.1.loaded =
      if command.finishes reader then none else some bytes
  /-- If there are no such bytes, then none are held afterwards. -/
  vacant : ∀ command : ReaderCommand, command.asksFile = false →
    (∀ bytes, ¬ AtHand file command reader source bytes) →
    (reader.perform file command source).state.1.loaded = none
  /-- Bytes that are held now are held after any commands of which none is done with them, and
  whatever is asked then is answered from them. -/
  lasting : ∀ commands bytes, reader.loaded = some bytes →
    reader.keeps file commands source = true →
    let later := reader.afterAll file commands source
    later.1.loaded = some bytes ∧
      ∀ (command : ReaderCommand) outcome, command.asksFile = false →
        command.answer? bytes later.1.position = some outcome →
        (later.1.perform file command later.2).outcome = outcome

/-- From its creation on, a reader of a chunk that fits calls its file only to load the chunk, and
works from what it has loaded until it is done with that. -/
theorem snapshot_until_released (file : File σ) {offset length : Nat} {fresh : ChunkReader}
    (created : create offset length = .ok fresh) (fits : length ≤ signedMax) (source : σ)
    (commands : List ReaderCommand) :
    let now := fresh.afterAll file.watched commands source
    now.1.offset = offset ∧ now.1.length = length ∧ now.1.Snapshots file.watched now.2 := by
  intro now
  have fresh_sound := sound_of_create created
  obtain ⟨_, course⟩ := exists_course_afterAll file.watched source commands fresh_sound
  have sound : now.1.Sound := course.sound fresh_sound
  obtain ⟨nonempty, rfl⟩ : 0 < length ∧ fresh = ⟨offset, length, 0, none⟩ := by
    rw [create] at created
    split at created <;> cases created
    exact ⟨by omega, rfl⟩
  obtain ⟨same_offset, same_length⟩ := course.same_range
  refine ⟨same_offset, same_length, ?_⟩
  constructor
  case calls_iff =>
    exact fun _ own =>
      calls_perform_ne_nil_iff file sound (same_length ▸ nonempty) (same_length ▸ fits) own now.2
  case calls_drop => exact calls_release now.1
  case whole => exact fun _ _ at_hand => (serves_of_ensureLoaded sound at_hand.ensureLoaded).whole
  case answered =>
    exact fun _ _ outcome own at_hand => (perform_of_atHand sound own at_hand).1 outcome
  case left => exact fun _ _ own at_hand => (perform_of_atHand sound own at_hand).2
  case vacant => exact fun _ own => perform_of_not_atHand sound own
  case lasting =>
    intro others bytes held keeps later
    have still_held : later.1.loaded = some bytes := held_afterAll sound held keeps
    obtain ⟨_, others_course⟩ := exists_course_afterAll file.watched now.2 others sound
    refine ⟨still_held, fun command outcome own => ?_⟩
    exact (perform_of_atHand (others_course.sound sound) own (.inl still_held)).1 outcome

/-- A file that gives one byte and then claims three that it never writes: the reader moves about,
reads nothing at the end, and at last reads what that load made of the chunk. -/
theorem snapshot_until_released_false_claim :
    let file := (Contents.ofArray #[10, 20, 30, 40, 50]).scripted
    let fresh : ChunkReader := ⟨1, 4, 0, none⟩
    let commands := [.read 1, .seek 0 .fromEnd, .read 0, .reset]
    let now := fresh.afterAll file.watched commands [.atMost 1, .claim 0]
    let reading := now.1.perform file.watched (.read 9) now.2
    create 1 4 = .ok fresh ∧ 4 ≤ signedMax ∧ now.1.loaded = some [20, 0, 0, 0] ∧
      Event.calls reading.events = [] ∧ reading.outcome = .done (.portion [20, 0, 0, 0] true) ∧
      reading.state.1.loaded = none := by
  intro file fresh commands now reading
  have created : create 1 4 = .ok fresh := rfl
  have fits : 4 ≤ signedMax := by decide
  obtain ⟨_, _, snapshots⟩ :=
    snapshot_until_released file created fits [.atMost 1, .claim 0] commands
  have moved : fresh.afterAll file.watched [.read 1, .seek 0 .fromEnd, .read 0]
      [.atMost 1, .claim 0] = (⟨1, 4, 4, some [20, 0, 0, 0]⟩, []) := by
    cbv
  have stands : now.1 = ⟨1, 4, 0, some [20, 0, 0, 0]⟩ := by
    rw [show now = (fresh.afterAll file.watched [.read 1, .seek 0 .fromEnd, .read 0] _).1.afterAll
      file.watched [.reset] _ from rfl, moved]
    rfl
  have held : now.1.loaded = some [20, 0, 0, 0] := by rw [stands]
  refine ⟨created, fits, held, ?_, ?_, ?_⟩
  · refine Decidable.not_not.mp fun called => ?_
    have loads : (ReaderCommand.read 9).loads now.1 = true :=
      (snapshots.calls_iff (.read 9) rfl).mp called
    rw [stands] at loads
    exact absurd loads (by decide)
  · refine snapshots.answered (.read 9) _ _ rfl (.inl held) ?_
    change (ReaderCommand.read 9).answer? _ now.1.position = _
    rw [stands]
    rfl
  · refine (snapshots.left (.read 9) _ rfl (.inl held)).trans ?_
    change (if (ReaderCommand.read 9).finishes now.1 then _ else _) = _
    rw [stands]
    rfl

end ChunkReader
end BulkTransfer
