import BulkTransfer.Proofs.ChunkReader.Failing
import BulkTransfer.Proofs.ChunkReader.Replaying
import BulkTransfer.Proofs.Session.Runs

/-!
# Runs without what failed

If the commands that failed are taken out of a run, with the answers that the file gave to them, the
commands that are left go the same way, and the readers and the counter end as they did. Only what
the counter cut off has to stay, since the counter has moved by then.
-/

namespace BulkTransfer

/-- Commands that are made of several operations of a reader. -/
def SessionCommand.isComposite : SessionCommand → Bool
  | reader command => command.isComposite
  | create _ _ | drop | file _ => false

namespace Session

variable {σ : Type}

/-- The same readers and counter above answers that are left over. -/
def answered (rest : List Reply) (session : Session (Shared σ)) : Session (Shared (List Reply)) :=
  ⟨session.readers, ⟨session.source.counter, rest⟩⟩

/-- A command of a run, with what came of it and the answers of the file that it used. -/
structure Deed (σ : Type) where
  /-- Name the command was meant for. -/
  name : String
  /-- What was asked. -/
  command : SessionCommand
  /-- What came of it. -/
  done : Step (Session (Shared σ)) Fault Answer
  /-- Answers that the file gave meanwhile. -/
  replies : List Reply

/-- The command of a deed with its name. -/
def Deed.order (deed : Deed σ) : String × SessionCommand :=
  (deed.name, deed.command)

/-- Whether the command was a single operation that failed or was aborted, with nothing told to the
counter. -/
def Deed.failed (deed : Deed σ) : Bool :=
  !deed.command.isComposite && !deed.done.outcome.isDone &&
    (Event.deltas deed.done.events).isEmpty

/-- The file gave each deed its replies, one deed after the other. -/
def Given (file : File σ) : List (Deed σ) → σ → Prop
  | [], _ => True
  | deed :: rest, source =>
      file.Gives source deed.replies deed.done.state.source.source ∧
        Given file rest deed.done.state.source.source

/-- Answered by the replies of the deeds alone, the commands of the deeds come out as they did, and
lead from one session to another. -/
def Plays (deeds : List (Deed σ)) (start final : Session (Shared σ)) : Prop :=
  ∀ rest : List Reply,
    let file := File.replaying.beside
    let replayed := start.answered (deeds.flatMap (·.replies) ++ rest)
    (run file .counting (deeds.map (·.order)) replayed).map
          (fun done => (done.outcome, done.events)) =
        deeds.map (fun deed => (deed.done.outcome, deed.done.events)) ∧
      replayed.after file .counting (deeds.map (·.order)) = final.answered rest

variable {file : File σ} {session : Session (Shared σ)}

theorem replay_step (file : File σ) (name : String) (command : SessionCommand)
    (session : Session (Shared σ)) :
    ∃ replies, file.Gives session.source.source replies
        (session.step file.beside .counting name command).state.source.source ∧
      ∀ rest,
        (session.answered (replies ++ rest)).step File.replaying.beside .counting name command =
          (session.step file.beside .counting name command).mapState (answered rest) := by
  obtain ⟨readers, counter, source⟩ := session
  cases command with
  | create offset length =>
      simp only [step, answered]
      cases ChunkReader.create offset length with
      | error cause => exact ⟨[], .nil _, fun rest => rfl⟩
      | ok reader =>
          refine ⟨[], ?_, fun rest => ?_⟩
          · simp only [Step.mapState, Tracker.source_hear]
            exact .nil _
          · simp only [List.nil_append, Tracker.hear_counting _ _ counter source rest]
            rfl
  | drop =>
      simp only [step, answered]
      refine ⟨[], ?_, fun rest => ?_⟩
      · simp only [Step.mapState, Tracker.source_hear]
        exact .nil _
      · simp only [List.nil_append, Tracker.hear_counting _ _ counter source rest]
        rfl
  | file request =>
      obtain ⟨replies, given, again⟩ := file.replay_serve request source
      simp only [step, answered, File.serve_beside]
      exact ⟨replies, given, fun rest => by rw [again rest]; rfl⟩
  | reader asked =>
      simp only [step, answered]
      cases found : readers.find? name with
      | none => exact ⟨[], .nil _, fun rest => rfl⟩
      | some reader =>
          obtain ⟨replies, given, again⟩ :=
            ChunkReader.replay_perform file reader counter asked source
          refine ⟨replies, given, fun rest => ?_⟩
          let place (state : ChunkReader × Shared (List Reply)) : Session (Shared (List Reply)) :=
            ⟨readers.insert name state.1, state.2⟩
          exact congrArg (Step.mapState place) (again rest)

/-- Readers of ranges that are not empty. -/
abbrev Solid (session : Session (Shared σ)) : Prop :=
  session.Keeps (fun reader => reader.Sound ∧ 0 < reader.length) fun _ => True

theorem Solid.after (solid : session.Solid) (file : File (Shared σ)) (tracker : Tracker (Shared σ))
    (commands : List (String × SessionCommand)) : (session.after file tracker commands).Solid :=
  Keeps.after solid ((ChunkReader.always_sound file tracker).andRange fun _ length => 0 < length)
    fun _ _ _ _ nonempty => ⟨ChunkReader.sound_of_none rfl (Nat.zero_le _), nonempty⟩

/-- A single operation that fails and tells the counter nothing leaves the readers and the counter
as they were. -/
theorem step_failing (quiet : file.Quiet) (solid : session.Solid) {name : String}
    {command : SessionCommand} (simple : command.isComposite = false)
    (failing : (session.step file.beside .counting name command).outcome.isDone = false)
    (silent : Event.deltas (session.step file.beside .counting name command).events = []) :
    (session.step file.beside .counting name command).state.readers = session.readers ∧
      (session.step file.beside .counting name command).state.source.counter =
        session.source.counter := by
  cases command with
  | create offset length =>
      simp only [step] at failing silent ⊢
      cases created : ChunkReader.create offset length with
      | ok reader =>
          simp only [created] at failing silent
          exact absurd silent (Tracker.told_of_cut failing)
      | error cause => exact ⟨rfl, rfl⟩
  | drop => exact absurd silent (Tracker.told_of_cut failing)
  | file => cases failing
  | reader asked =>
      simp only [step] at failing silent ⊢
      cases found : session.readers.find? name with
      | none => exact ⟨rfl, rfl⟩
      | some reader =>
          simp only [found] at failing silent ⊢
          obtain ⟨sound, nonempty⟩ := solid.of_find? found
          rcases ChunkReader.perform_failing quiet sound nonempty simple failing with
            same | derailed
          · refine ⟨?_, same.counter_eq⟩
            simp only [Step.mapState, same.reader_eq, Registry.insert_eq_self solid.ordered found]
          · exact absurd silent derailed.not_silent

theorem plays_nil (session : Session (Shared σ)) : Plays [] session session :=
  fun _ => ⟨rfl, rfl⟩

theorem plays_cons {deed : Deed σ} {deeds : List (Deed σ)} {final : Session (Shared σ)}
    (again : ∀ rest, (session.answered (deed.replies ++ rest)).step File.replaying.beside .counting
      deed.name deed.command = deed.done.mapState (·.answered rest))
    (plays : Plays deeds deed.done.state final) : Plays (deed :: deeds) session final := by
  intro rest file replayed
  have first : replayed.step file .counting deed.name deed.command =
      deed.done.mapState (·.answered (deeds.flatMap (·.replies) ++ rest)) := by
    rw [← again]
    simp only [replayed, file, List.flatMap_cons, List.append_assoc]
  obtain ⟨outcomes, ending⟩ := plays rest
  constructor
  · simp only [List.map_cons, Deed.order, run, first]
    exact congrArg (_ :: ·) outcomes
  · simp only [List.map_cons, Deed.order, after, first]
    exact ending

theorem plays_of_failed (quiet : file.Quiet) (solid : session.Solid) {deed : Deed σ}
    (same : deed.done = session.step file.beside .counting deed.name deed.command)
    (failed : deed.failed = true) {deeds : List (Deed σ)} {final : Session (Shared σ)}
    (plays : Plays deeds deed.done.state final) : Plays deeds session final := by
  simp only [Deed.failed, Bool.and_eq_true, Bool.not_eq_true', List.isEmpty_iff] at failed
  obtain ⟨⟨simple, failing⟩, silent⟩ := failed
  rw [same] at failing silent
  obtain ⟨readers, counter⟩ := step_failing quiet solid simple failing silent
  have unchanged : ∀ rest, deed.done.state.answered rest = session.answered rest := by
    intro rest
    rw [same, answered, readers, counter]
    rfl
  intro rest
  rw [← unchanged]
  exact plays rest

/-- Every run is a list of deeds, and is the same run without those that failed. -/
theorem exists_deeds (quiet : file.Quiet) (solid : session.Solid)
    (commands : List (String × SessionCommand)) :
    ∃ deeds : List (Deed σ),
      deeds.map (·.order) = commands ∧
      deeds.map (·.done) = session.run file.beside .counting commands ∧
      Given file deeds session.source.source ∧
      Plays deeds session (session.after file.beside .counting commands) ∧
      Plays (deeds.filter (!·.failed)) session
        (session.after file.beside .counting commands) := by
  induction commands generalizing session with
  | nil => exact ⟨[], rfl, rfl, trivial, plays_nil session, plays_nil session⟩
  | cons entry rest ih =>
      obtain ⟨name, command⟩ := entry
      obtain ⟨replies, given, again⟩ := replay_step file name command session
      have solid_later := solid.after file.beside .counting [(name, command)]
      obtain ⟨deeds, orders, results, given_later, plays, plays_kept⟩ := ih solid_later
      let deed : Deed σ :=
        ⟨name, command, session.step file.beside .counting name command, replies⟩
      refine ⟨deed :: deeds, ?_, ?_, ⟨given, given_later⟩, plays_cons again plays, ?_⟩
      · rw [List.map_cons, orders]
        rfl
      · rw [List.map_cons, results]
        rfl
      · cases failed : deed.failed with
        | false =>
            rw [List.filter_cons_of_pos (by simp [failed])]
            exact plays_cons again plays_kept
        | true =>
            rw [List.filter_cons_of_neg (by simp [failed])]
            exact plays_of_failed quiet solid rfl failed plays_kept

/-- On a file that leaves the counter alone, whatever it does besides: an operation of a reader that
can be reached and that fails or is aborted leaves the reader, the caller's buffer and the counter
as they were, or else it was cut off by the counter, which has moved by then. Its error names the
operation. So any run from any state that can be reached may be had again without what failed, the
operations that the counter cut off apart: each command was given some answers of the file, and from
the answers of the commands that are left these come out as they did, and end in the same session.
-/
theorem failed_leaves_unchanged {file : File σ} (quiet : file.Quiet) (initial : Counter)
    (source : σ) (earlier : List (String × SessionCommand)) :
    let session := (fresh ⟨initial, source⟩).after file.beside .counting earlier
    (∀ name reader, session.readers.find? name = some reader → ∀ shared : Shared σ,
      (let attempt := reader.prefetch file.beside shared .counting
       attempt.outcome.isDone = false →
        (attempt.Traceless reader shared.counter ∨ attempt.Derailed shared.counter) ∧
        ∀ error, attempt.outcome = .failed error → error.operation = .prefetch) ∧
      (∀ buffer,
        let attempt := reader.read file.beside buffer shared .counting
        attempt.outcome.isDone = false →
          (attempt.Traceless reader shared.counter ∧ attempt.buffer = buffer ∨
            attempt.Derailed shared.counter) ∧
          ∀ error, attempt.outcome = .failed error → error.operation = .read) ∧
      (∀ buffer,
        let attempt := reader.streamRead file.beside buffer shared .counting
        attempt.outcome.isDone = false →
          attempt.Traceless reader shared.counter ∧ attempt.buffer = buffer ∨
            attempt.Derailed shared.counter) ∧
      (∀ offset whence error, (ChunkReader.seek offset whence reader).1 = .error error →
        (ChunkReader.seek offset whence reader).2 = reader ∧ error.operation = .seek) ∧
      (∀ target error, (reader.streamSeek target).1 = .error error →
        (reader.streamSeek target).2 = reader)) ∧
    ∀ commands,
      let final := session.after file.beside .counting commands
      ∃ deeds : List (Deed σ),
        deeds.map (·.order) = commands ∧
        deeds.map (·.done) = session.run file.beside .counting commands ∧
        Given file deeds session.source.source ∧
        Plays deeds session final ∧
        Plays (deeds.filter (!·.failed)) session final := by
  intro session
  have solid : session.Solid :=
    Solid.after (keeps_fresh trivial) file.beside .counting earlier
  refine ⟨fun name reader found shared => ?_, exists_deeds quiet solid⟩
  obtain ⟨sound, nonempty⟩ := solid.of_find? found
  refine ⟨fun failing => ⟨?_, ?_⟩, fun buffer failing => ⟨?_, ?_⟩, fun buffer => ?_, ?_, ?_⟩
  · exact ChunkReader.prefetch_failing quiet nonempty failing
  · exact fun error => ChunkReader.operation_of_prefetch
  · exact ChunkReader.read_failing quiet sound failing
  · exact fun error => ChunkReader.operation_of_read
  · exact ChunkReader.streamRead_failing quiet sound
  · exact fun offset whence error => ChunkReader.seek_failing
  · exact fun target error => ChunkReader.streamSeek_failing

/-- A load that is cut off in the middle, and a run in which it is tried again. -/
theorem failed_leaves_unchanged_scripted :
    let file := (Contents.ofArray #[10, 20, 30]).scripted
    let script : List Turn := [.atMost 1, .abort, .plain]
    let session := (fresh ⟨.startingAt 7, script⟩).after file.beside .counting [("a", .create 0 3)]
    let reader : ChunkReader := ⟨0, 3, 0, none⟩
    let reading := reader.read file.beside [7, 7] session.source .counting
    let commands : List (String × SessionCommand) :=
      [("a", .reader (.read 2)), ("a", .reader (.read 2)), ("a", .reader (.seek (-9) .current)),
        ("a", .reader (.read 2))]
    file.Quiet ∧ session.readers.find? "a" = some reader ∧ reading.outcome.isDone = false ∧
      reading.Traceless reader session.source.counter ∧ reading.buffer = [7, 7] ∧
      ∃ deeds : List (Deed (List Turn)),
        deeds.map (·.order) = commands ∧
        Plays (deeds.filter (!·.failed)) session
          (session.after file.beside .counting commands) := by
  intro file script session reader reading commands
  have quiet : file.Quiet := Contents.quiet_scripted _
  have found : session.readers.find? "a" = some reader := by
    unfold session reader file script
    cbv
  have cut : reading.outcome = .aborted .raised := by
    unfold reading reader session file script
    cbv
  have failing : reading.outcome.isDone = false := by
    rw [cut]
    rfl
  obtain ⟨operations, runs⟩ :=
    failed_leaves_unchanged quiet (.startingAt 7) script [("a", .create 0 3)]
  obtain ⟨_, reads, _⟩ := operations "a" reader found session.source
  obtain ⟨deeds, orders, _, _, _, plays⟩ := runs commands
  refine ⟨quiet, found, failing, ?_⟩
  rcases (reads [7, 7] failing).1 with ⟨traceless, kept⟩ | derailed
  · exact ⟨traceless, kept, deeds, orders, plays⟩
  · cases cut.symm.trans derailed.overflowed

/-- A prefetch that is cut off by the counter at its greatest value leaves it at its least. -/
theorem failed_prefetch_moves_counter :
    let file := (Contents.mk 6 fun _ => 0).inMemory.beside
    let session := (fresh ⟨.startingAt 9223372036854775802, ()⟩).after file .counting
      [("a", .create 0 5), ("a", .reader .prefetch), ("b", .create 0 1)]
    let attempt := session.step file .counting "b" (.reader .prefetch)
    attempt.outcome = .aborted .counterOverflow ∧
      session.source.counter.value = 9223372036854775807 ∧
      attempt.state.source.counter.value = -9223372036854775808 := by
  cbv
  decide

end Session
end BulkTransfer
