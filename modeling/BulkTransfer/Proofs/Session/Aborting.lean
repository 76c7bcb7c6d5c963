import BulkTransfer.Proofs.ChunkReader.Aborting
import BulkTransfer.Proofs.Session.Runs

/-!
# When a session is cut off

Any number of readers work on an honest file and share a byte counter. Whatever was asked of them so
far, the next command is cut off exactly if it makes a reader load a chunk that is too long to be
held, and then all is as it was, or if the counter does not take what it is told; and what is
counted, cut off and added up in any other case stays in range.
-/

namespace BulkTransfer

/-- A reader is created of a range that is not empty and no longer than there can be. -/
def SessionCommand.Apt : SessionCommand → Prop
  | create _ length => 0 < length ∧ length ≤ lastOffset
  | drop | reader _ | file _ => True

theorem File.Honest.beside {σ : Type} {file : File σ} (honest : file.Honest) : file.beside.Honest :=
  fun offset buffer shared => honest offset buffer shared.source

namespace Session

variable {σ : Type}

/-- Whether a command makes a reader load a chunk that is too long to be held. -/
def Overloads (session : Session (Shared σ)) (name : String) (command : SessionCommand) : Prop :=
  ∃ asked reader, command = .reader asked ∧ session.readers.find? name = some reader ∧
    asked.overloads reader

/-- Whether the byte counter cannot take what a command tells it: what it asks of a reader, or the
length of the chunk that is held by a reader that it replaces. -/
def Overcounts (file : File (Shared σ)) (session : Session (Shared σ)) (name : String)
    (command : SessionCommand) : Prop :=
  ∃ reader, session.readers.find? name = some reader ∧
    ((∃ asked, command = .reader asked ∧ asked.overcounts file reader session.source) ∨
      (command.replaces = true ∧ reader.isLoaded = true ∧
        ¬ session.source.counter.Fits (-reader.length)))

/-- Readers are sound, and of lengths that there can be. -/
abbrev Addressable (session : Session (Shared σ)) : Prop :=
  session.Keeps (fun reader => reader.Sound ∧ reader.length ≤ lastOffset) fun _ => True

theorem Addressable.after {session : Session (Shared σ)} (addressable : session.Addressable)
    (file : File (Shared σ)) {commands : List (String × SessionCommand)}
    (apt : ∀ entry ∈ commands, entry.2.Apt) :
    (session.after file .counting commands).Addressable :=
  Keeps.after addressable
    ((ChunkReader.always_sound file .counting).andRange fun _ length => length ≤ lastOffset)
    fun _ _ _ member _ => ⟨ChunkReader.sound_of_none rfl (Nat.zero_le _), (apt _ member).2⟩

section Step

variable {file : File (Shared σ)} {session : Session (Shared σ)} {name : String}
  {command : SessionCommand}

/-- A command that makes a reader load a chunk that is too long changes nothing. -/
theorem step_of_overloads (ordered : session.readers.Ordered)
    (overloads : session.Overloads name command) :
    session.step file .counting name command = ⟨.aborted .chunkTooLong, session, []⟩ := by
  obtain ⟨asked, reader, rfl, found, heavy⟩ := overloads
  simp only [Session.step, found, ChunkReader.perform_of_overloads heavy, Step.mapState,
    Registry.insert_eq_self ordered found]

/-- To replace a reader is cut off just if it holds its chunk and the counter does not take that. -/
theorem isCutOff_parting (session : Session (Shared σ)) (name : String) :
    (Tracker.counting.hear .nothing (session.parting name) session.source :
        Step (Shared σ) Fault Answer).outcome.isCutOff = true ↔
      ∃ reader, session.readers.find? name = some reader ∧ reader.isLoaded = true ∧
        ¬ session.source.counter.Fits (-reader.length) := by
  cases found : session.readers.find? name with
  | none =>
      simp only [parting, found]
      exact iff_of_false Bool.false_ne_true (by simp)
  | some reader =>
      simp only [parting, found, Option.map_some, Option.getD_some, Option.some.injEq,
        exists_eq_left', ChunkReader.outcome_hear_release]
      split
      · next refused => exact ⟨fun _ => refused, fun _ => rfl⟩
      · next taken => exact iff_of_false Bool.false_ne_true taken

/-- On an honest file an apt command is cut off exactly if it makes a reader load a chunk that is
too long, or the counter does not take what it is told. -/
theorem isCutOff_step_iff (honest : file.Honest) (addressable : session.Addressable)
    (apt : command.Apt) :
    (session.step file .counting name command).outcome.isCutOff = true ↔
      session.Overloads name command ∨ session.Overcounts file name command := by
  cases command with
  | create offset length =>
      have parting := session.isCutOff_parting name
      simp only [Session.step, ChunkReader.create, if_neg (Nat.ne_of_gt apt.1)]
      refine parting.trans ?_
      simp [Overloads, Overcounts, SessionCommand.replaces, apt.1]
  | drop =>
      refine (session.isCutOff_parting name).trans ?_
      simp [Overloads, Overcounts, SessionCommand.replaces]
  | file request =>
      have calm : (session.step file .counting name (.file request)).outcome.isCutOff = false :=
        honest.isAborted_serve request session.source
      simp [calm, Overloads, Overcounts, SessionCommand.replaces]
  | reader asked =>
      cases found : session.readers.find? name with
      | none =>
          simp only [Session.step, found]
          simp [Outcome.isCutOff, Overloads, Overcounts, found]
      | some reader =>
          have cut := @ChunkReader.isCutOff_perform_iff _ file reader asked session.source honest
            (addressable.of_find? found).1
          simp only [Session.step, found]
          refine cut.trans ?_
          simp [Overloads, Overcounts, found, SessionCommand.replaces]

/-- The readers of a session tell the byte counter no amounts that a signed number cannot tell. -/
theorem signed_step (sound : session.Addressable) :
    ∀ event ∈ (session.step file .counting name command).events,
      file.Emits event ∨ event.Signed := by
  intro event member
  rcases step_cases file .counting name command session with
    ⟨_, _, foreign⟩ | ⟨_, ⟨_, rfl, _, events, _⟩, _⟩ | ⟨_, asked, reader, _, found, done⟩
  · exact (foreign event member).signed
  · rw [events] at member
    replace member := Tracker.mem_of_mem_hear member
    rw [parting] at member
    cases found : session.readers.find? name with
    | none =>
        rw [found] at member
        cases member
    | some reader =>
        rw [found] at member
        exact .inr (ChunkReader.signed_release (sound.of_find? found).1.fits event member)
  · rw [done] at member
    exact ChunkReader.signed_perform (sound.of_find? found).1 event member

end Step

/-- Any number of readers of any lengths on an honest file, with a counter that they share, after
any commands: an operation is cut off exactly if it has to load a chunk that is too long to be held,
or if the counter does not take the length of a chunk that has been loaded or is let go. In the
first case it comes to nothing: the session is as it was, and not even a file that reports its reads
has anything to report. Whatever else is asked stays in range, the positions, the reads that fill a
chunk, the bytes that are given out of it, and the amounts that the byte counter is told. -/
theorem cutOff_iff_overloads_or_overcounts {file : File (Shared σ)} (honest : file.Honest)
    (initial : Shared σ)
    {commands : List (String × SessionCommand)} (apt : ∀ entry ∈ commands, entry.2.Apt) :
    let now := (fresh initial).after file .counting commands
    (∀ name reader, now.readers.find? name = some reader →
      ∀ shared, reader.InRange file shared) ∧
    ∀ name command, command.Apt →
      let step := now.step file .counting name command
      (step.outcome.isCutOff = true ↔
        now.Overloads name command ∨ now.Overcounts file name command) ∧
      (now.Overloads name command → step = ⟨.aborted .chunkTooLong, now, []⟩) ∧
      ∀ event ∈ step.events, file.Emits event ∨ event.Signed := by
  intro now
  have addressable : now.Addressable := Addressable.after (keeps_fresh trivial) file apt
  refine ⟨fun name reader found shared => ?_, fun name command meet => ⟨?_, ?_, ?_⟩⟩
  · obtain ⟨sound, inside⟩ := addressable.of_find? found
    exact ChunkReader.inRange honest sound inside shared
  · exact isCutOff_step_iff honest addressable meet
  · exact step_of_overloads addressable.ordered
  · exact signed_step addressable

/-- A reader of the longest chunk there is stands one byte before its end, and another one in the
middle of a short chunk: only the first is cut off by a read, and not even that one by a seek. -/
theorem cutOff_iff_overloads_or_overcounts_longest :
    let contents := Contents.ofArray #[10, 20, 30, 40]
    let file := contents.hesitant.watched.beside
    let commands : List (String × SessionCommand) :=
      [("long", .create 0 lastOffset), ("short", .create 1 3),
        ("long", .reader (.seek 1 .fromEnd)), ("short", .reader (.seek 2 .start))]
    let now := (fresh ⟨.startingAt 7, true⟩).after file .counting commands
    let long : ChunkReader := ⟨0, lastOffset, lastOffset - 1, none⟩
    let short : ChunkReader := ⟨1, 3, 2, none⟩
    file.Honest ∧ (∀ entry ∈ commands, entry.2.Apt) ∧
      now.readers.find? "long" = some long ∧ now.readers.find? "short" = some short ∧
      long.InRange file now.source ∧
      now.step file .counting "long" (.reader (.read 1)) = ⟨.aborted .chunkTooLong, now, []⟩ ∧
      (now.step file .counting "long" (.reader (.seek 0 .fromEnd))).outcome.isCutOff = false ∧
      (now.step file .counting "short" (.reader (.read 1))).outcome.isCutOff = false := by
  intro contents file commands now long short
  have addressable : contents.size ≤ lastOffset := by decide
  have honest : file.Honest := (contents.shows_hesitant.honest addressable).watched.beside
  have apt : ∀ entry ∈ commands, entry.2.Apt := by
    simp only [commands, List.forall_mem_cons]
    exact ⟨⟨by decide, by decide⟩, ⟨by decide, by decide⟩, trivial, trivial, by simp⟩
  have found_long : now.readers.find? "long" = some long := by decide +kernel
  have found_short : now.readers.find? "short" = some short := by decide +kernel
  obtain ⟨ranges, steps⟩ := cutOff_iff_overloads_or_overcounts honest ⟨.startingAt 7, true⟩ apt
  have overloads : now.Overloads "long" (.reader (.read 1)) :=
    ⟨.read 1, long, rfl, found_long, by decide, by decide⟩
  refine ⟨honest, apt, found_long, found_short, ranges "long" long found_long now.source,
    ?_, ?_, ?_⟩
  · exact (steps "long" (.reader (.read 1)) trivial).2.1 overloads
  · refine Bool.eq_false_iff.mpr fun cut => ?_
    rcases (steps "long" (.reader (.seek 0 .fromEnd)) trivial).1.mp cut with
      ⟨_, _, same, _, loads, _⟩ | ⟨_, _, ⟨_, same, ⟨loads, _⟩ | ⟨_, finishes, _⟩⟩ | ⟨replaces, _⟩⟩
    · cases same
      simp [ReaderCommand.loads, ReaderCommand.wants] at loads
    · cases same
      simp [ReaderCommand.loads, ReaderCommand.wants] at loads
    · cases same
      cases finishes
    · cases replaces
  · refine Bool.eq_false_iff.mpr fun cut => ?_
    rcases (steps "short" (.reader (.read 1)) trivial).1.mp cut with
      ⟨_, _, _, found, _, long⟩ | ⟨_, found, ⟨_, _, ⟨_, _, refused⟩ | ⟨held, _⟩⟩ | ⟨replaces, _⟩⟩
    · cases found_short.symm.trans found
      exact absurd long (by decide)
    · cases found_short.symm.trans found
      have counter : (file.load short.offset short.length now.source).state.counter =
          .startingAt 7 := by
        unfold now file commands contents short
        cbv
      rw [counter] at refused
      exact absurd (by decide) refused
    · cases found_short.symm.trans found
      cases held
    · cases replaces

/-- A reader of a single byte is cut off while another one has taken the counter to its greatest
value. -/
theorem cutOff_at_greatest :
    let file := (Contents.mk 6 fun _ => 0).inMemory.beside
    let now := (fresh ⟨.startingAt 9223372036854775802, ()⟩).after file .counting
      [("a", .create 0 5), ("a", .reader .prefetch), ("b", .create 0 1)]
    (now.step file .counting "b" (.reader .prefetch)).outcome.isCutOff = true ∧
      ¬ now.Overloads "b" (.reader .prefetch) := by
  intro file now
  constructor
  · unfold now file
    cbv
  · rintro ⟨asked, reader, _, found, _, long⟩
    have stored : now.readers.find? "b" = some ⟨0, 1, 0, none⟩ := by
      unfold now file
      cbv
    cases stored.symm.trans found
    exact absurd long (by decide)

end Session
end BulkTransfer
