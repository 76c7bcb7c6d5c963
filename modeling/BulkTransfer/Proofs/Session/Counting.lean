import BulkTransfer.Proofs.ChunkReader.Counting
import BulkTransfer.Proofs.Session.Runs

/-!
# Sessions that share a counter

A session above a shared counter goes as one that only takes note of amounts, as long as the counter
takes all that it is told.
-/

namespace BulkTransfer
namespace Session

variable {σ : Type} {counted : File (Shared σ)} {plain : File σ}

/-- The same readers above a file that shares a counter. -/
def sharing (counter : Counter) (session : Session σ) : Session (Shared σ) :=
  ⟨session.readers, ⟨counter, session.source⟩⟩

/-- The same readers above the file without the counter. -/
def bare (session : Session (Shared σ)) : Session σ :=
  ⟨session.readers, session.source.source⟩

/-- The counter takes all that the commands of a run tell it. -/
def Bears (file : File (Shared σ)) (commands : List (String × SessionCommand))
    (session : Session (Shared σ)) : Prop :=
  session.source.counter.Takes (told file .counting commands session)

variable (counts : counted.Counts plain)

include counts

/-- Every command goes as it does where amounts are only noted, as long as the counter takes them.
-/
theorem counted_step (name : String) (command : SessionCommand) (session : Session σ)
    (counter : Counter) :
    (session.step plain .noting name command).Counted sharing counter
      ((session.sharing counter).step counted .counting name command) Outcome.TellsOverflow := by
  have parting (answer : Answer) (readers : Registry ChunkReader) :
      (Tracker.noting.hear answer (session.parting name) session.source |>.mapState
        (⟨readers, ·⟩) : Step (Session σ) Fault Answer).Counted sharing counter
      (Tracker.counting.hear answer (session.parting name) ⟨counter, session.source⟩ |>.mapState
        (⟨readers, ·⟩)) Outcome.TellsOverflow :=
    ((Tracker.counted_hear answer (session.parting name) counter session.source).mapState _ _
      fun _ _ => rfl).imp Outcome.Overflowed.tells
  cases command with
  | create offset length =>
      simp only [step]
      cases ChunkReader.create offset length with
      | error cause => exact .of_silent rfl rfl
      | ok reader => exact parting _ _
  | drop => exact parting _ _
  | file request =>
      have serving := counts.serve request counter session.source
      refine ⟨fun taken => ?_, serving.refuses⟩
      simp only [step, sharing, serving.takes taken]
      rfl
  | reader asked =>
      simp only [step, sharing]
      cases found : session.readers.find? name with
      | none => exact .of_silent rfl rfl
      | some reader =>
          exact (ChunkReader.counted_perform counts reader counter session.source asked).mapState
            _ _ fun _ _ => rfl

theorem step_of_takes {session : Session (Shared σ)} {name : String} {command : SessionCommand}
    (taken : session.source.counter.Takes
      (Event.deltas (session.step counted .counting name command).events)) :
    let noted := session.bare.step plain .noting name command
    session.step counted .counting name command =
      noted.mapState (sharing (session.source.counter.absorb (Event.deltas noted.events))) := by
  have step := counted_step counts name command session.bare session.source.counter
  exact step.takes (step.takes_of_told taken)

theorem bears_cons {name : String} {command : SessionCommand}
    {rest : List (String × SessionCommand)} {session : Session (Shared σ)} :
    let first := session.step counted .counting name command
    session.Bears counted ((name, command) :: rest) ↔
      session.source.counter.Takes (Event.deltas first.events) ∧
        first.state.Bears counted rest := by
  intro first
  rw [Bears, told_cons, Counter.takes_append]
  refine and_congr_right fun taken => ?_
  have step : first = _ := step_of_takes counts taken
  rw [Bears, show session.step counted .counting name command = first from rfl, step]
  rfl

/-- A run that the counter bears tells the same, is heard of the same and ends the same as one that
only notes amounts, with the counter moved. -/
theorem run_of_bears {commands : List (String × SessionCommand)} {session : Session (Shared σ)}
    (bears : session.Bears counted commands) :
    let noted := told plain .noting commands session.bare
    told counted .counting commands session = noted ∧
      session.after counted .counting commands =
        (session.bare.after plain .noting commands).sharing
          (session.source.counter.absorb noted) ∧
      ∀ name, heard counted .counting name commands session =
        heard plain .noting name commands session.bare := by
  induction commands generalizing session with
  | nil => exact ⟨rfl, rfl, fun _ => rfl⟩
  | cons entry rest ih =>
      obtain ⟨addressee, command⟩ := entry
      obtain ⟨taken, rest_bears⟩ := (bears_cons counts).mp bears
      let first := session.bare.step plain .noting addressee command
      have step : session.step counted .counting addressee command =
          first.mapState (sharing (session.source.counter.absorb (Event.deltas first.events))) :=
        step_of_takes counts taken
      rw [step] at rest_bears
      obtain ⟨same_told, same_end, same_heard⟩ := ih rest_bears
      refine ⟨?_, ?_, fun name => ?_⟩
      · rw [told_cons, told_cons, step]
        exact congrArg (_ ++ ·) same_told
      · rw [after, step, told_cons, Counter.absorb_append]
        exact same_end
      · rw [heard, heard, step]
        exact congrArg (_ ++ ·) (same_heard name)

theorem counter_after {commands : List (String × SessionCommand)} {session : Session (Shared σ)}
    (bears : session.Bears counted commands) :
    (session.after counted .counting commands).source.counter =
      session.source.counter.absorb (told counted .counting commands session) := by
  obtain ⟨same_told, same_end, _⟩ := run_of_bears counts bears
  rw [same_told, same_end]
  rfl

theorem bears_append {earlier later : List (String × SessionCommand)}
    {session : Session (Shared σ)} :
    session.Bears counted (earlier ++ later) ↔
      session.Bears counted earlier ∧
        (session.after counted .counting earlier).Bears counted later := by
  rw [Bears, told_append, Counter.takes_append]
  refine and_congr_right fun bears => ?_
  rw [Bears, counter_after counts bears]

end Session
end BulkTransfer
