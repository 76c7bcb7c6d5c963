import BulkTransfer.Proofs.Session.Counting
import BulkTransfer.Source

/-!
# Readers that share a file are separate

A file that is put together from bytes in memory has state that every read changes: the position of
a cursor, or a reader of a range with what it holds. No read depends on that state, so what one
reader is answered is not changed by what is done with others in between, but for one thing: the
counter that they share may be so far up that one of them cannot add what it holds.
-/

namespace BulkTransfer

variable {σ : Type}

namespace ChunkReader

theorem Within.sound {reader : ChunkReader} {window : Window} (within : reader.Within window) :
    reader.Sound := by
  obtain ⟨position, follows⟩ := within
  have fits := window.fits
  refine ⟨?_, ?_, fun _ => ?_⟩
  · rw [follows.position_eq, follows.length_eq]
    exact follows.inside
  · intro bytes held
    rw [follows.loaded bytes held, window.length_whole, follows.length_eq]
  · rw [follows.length_eq]
    exact fits

theorem invariant_within {counted : File (Shared σ)} {plain : File σ} {window : Window}
    {sound : σ → Prop} (counts : counted.Counts plain)
    (mirrors : plain.Mirrors window.contents sound)
    (keeps : counted.Keeps fun shared => sound shared.source) :
    Invariant counted .counting (·.Within window) fun shared => sound shared.source where
  reads := keeps
  adds _ _ start := start
  sound _ within := within.sound
  hold reader shared bytes within start done := by
    obtain ⟨position, follows⟩ := within
    have loading := counts.load reader.offset reader.length shared.counter shared.source
    have taken := loading.takes_of_not_cut fun cut => by cases cut.symm.trans done
    have plain_done :
        (plain.load reader.offset reader.length shared.source).outcome = .done bytes := by
      rw [← done, show counted.load reader.offset reader.length shared = _ from loading.takes taken]
      rfl
    have alike := @File.Alike.load _ _ _ _ _ mirrors reader.offset reader.length _ () start
    have whole := load_window window.contents.shows_inMemory ()
    rw [← follows.offset_eq, ← follows.length_eq, ← alike.outcome_eq, plain_done] at whole
    exact ⟨position, follows.offset_eq, follows.length_eq, follows.position_eq, follows.inside,
      fun _ held => (Option.some.inj held).symm.trans (Outcome.done.inj whole)⟩
  release _ within := by
    obtain ⟨position, follows⟩ := within
    exact ⟨position, follows.release⟩
  move _ target within inside := by
    obtain ⟨position, follows⟩ := within
    exact ⟨target, follows.move (follows.length_eq ▸ inside)⟩

/-- What a reader keeps is kept by reads of its range. -/
theorem Invariant.nested {file : File (Shared σ)} {good : ChunkReader → Prop} {okay : σ → Prop}
    (invariant : Invariant file .counting good fun shared => okay shared.source) :
    file.nestedBeside.Keeps fun shared => good shared.source.1 ∧ okay shared.source.2 := by
  rintro offset buffer ⟨counter, reader, source⟩ ⟨start, below⟩
  have moved := invariant.move reader (min (min offset signedMax) reader.length) start
    (Nat.min_le_right _ _)
  have read := @Invariant.read _ _ _ _ _ invariant _ ⟨counter, source⟩ moved below buffer
  simp only [File.nestedBeside, File.within, Transfer.mapState, File.readAt_nested]
  exact read

end ChunkReader

namespace Source

/-- Sources that are put together from bytes in memory: the bytes themselves, a locked cursor on
them, and windows of such sources. -/
inductive Holds : Source → Contents → Prop where
  /-- Bytes in memory. -/
  | memory (contents : Contents) : Holds (.memory contents) contents
  /-- A locked cursor on bytes in memory. -/
  | lockedMemory (contents : Contents) : Holds (.lockedMemory contents) contents
  /-- A locked chunk reader on a window. -/
  | nested {inner : Source} (window : Window) (below : Holds inner window.contents) :
      Holds (.nested inner window.offset window.length) window.range

/-- In sound states a source is read like contents in memory, and no read leads out of them, also if
the counter that its ranges share cuts it off. -/
structure Mirrors (source : Source) (contents : Contents) (sound : source.State → Prop) : Prop where
  /-- Where amounts are only noted, the source is read like contents in memory. -/
  alike : source.file.Mirrors contents sound
  /-- Above a shared counter it goes the same way, as long as the counter takes its amounts. -/
  counts : source.fileBeside.Counts source.file
  /-- Reads lead to sound states. -/
  keeps : source.fileBeside.Keeps fun shared => sound shared.source

theorem Holds.exists_mirrors {source : Source} {contents : Contents}
    (holds : source.Holds contents) :
    ∃ sound, source.Mirrors contents sound ∧ ∃ start, source.start = .ok start ∧ sound start := by
  induction holds with
  | memory contents =>
      have quiet : contents.inMemory.Quiet := fun _ _ _ => rfl
      exact ⟨fun _ => True, ⟨fun _ _ _ _ _ => ⟨⟨rfl, trivial⟩, rfl⟩, quiet.counts,
        fun _ _ _ _ => trivial⟩, (), rfl, trivial⟩
  | lockedMemory contents =>
      have quiet : contents.memoryCursor.locked.Quiet := fun _ _ _ => rfl
      exact ⟨fun _ => True, ⟨fun _ _ _ _ _ => ⟨⟨rfl, trivial⟩, rfl⟩, quiet.counts,
        fun _ _ _ _ => trivial⟩, (0 : Nat), rfl, trivial⟩
  | @nested inner window _ ih =>
      obtain ⟨sound, ⟨alike, counts, keeps⟩, state, begun, sound_state⟩ := ih
      have invariant := ChunkReader.invariant_within counts alike keeps
      refine ⟨_, ⟨alike.nested, counts.nested, invariant.nested⟩, (window.reader, state), ?_,
        ⟨0, ChunkReader.follows_reader window⟩, sound_state⟩
      rw [start, begun, window.create_reader]

end Source

namespace Session

/-- How the commands of a run ended, with the names that they were meant for. -/
def outcomes {τ : Type} (file : File τ) (tracker : Tracker τ)
    (commands : List (String × SessionCommand)) (session : Session τ) :
    List (String × Outcome Fault Answer) :=
  (commands.map Prod.fst).zip ((session.run file tracker commands).map (·.outcome))

section Outcomes

variable {τ : Type} (file : File τ) (tracker : Tracker τ)

theorem outcomes_cons (name : String) (command : SessionCommand)
    (rest : List (String × SessionCommand)) (session : Session τ) :
    session.outcomes file tracker ((name, command) :: rest) =
      (name, (session.step file tracker name command).outcome) ::
        (session.step file tracker name command).state.outcomes file tracker rest := rfl

theorem filter_outcomes_eq_self {name : String} {commands : List (String × SessionCommand)}
    (own : ∀ entry ∈ commands, entry.1 = name) (session : Session τ) :
    (session.outcomes file tracker commands).filter (·.1 = name) =
      session.outcomes file tracker commands := by
  refine List.filter_eq_self.mpr fun entry member => decide_eq_true ?_
  obtain ⟨order, ordered, named⟩ := List.mem_map.mp (List.of_mem_zip member).1
  exact named ▸ own order ordered

end Outcomes

/-- None of the commands that are meant for a name is cut off by the byte counter. -/
abbrev Undisturbed (file : File (Shared σ)) (name : String)
    (commands : List (String × SessionCommand)) (session : Session (Shared σ)) : Prop :=
  ∀ entry ∈ session.outcomes file .counting commands, entry.1 = name → ¬ entry.2.TellsOverflow

variable {source : Source} {contents : Contents} {sound : source.State → Prop}

/-- The same reader under a name, above a source in a sound state and above contents in memory. -/
structure Agree (name : String) (sound : σ → Prop) (session : Session (Shared σ))
    (alone : Session Unit) : Prop
    extends session.Keeps ChunkReader.Sound fun shared => sound shared.source where
  /-- The readers are the same. -/
  reader_eq : session.readers.find? name = alone.readers.find? name

theorem Undisturbed.cons {file : File (Shared σ)} {name addressee : String}
    {command : SessionCommand} {rest : List (String × SessionCommand)}
    {session : Session (Shared σ)}
    (undisturbed : session.Undisturbed file name ((addressee, command) :: rest)) :
    (addressee = name → ¬ (session.step file .counting addressee command).outcome.TellsOverflow) ∧
      (session.step file .counting addressee command).state.Undisturbed file name rest :=
  ⟨undisturbed _ List.mem_cons_self, fun entry member => undisturbed entry (.tail _ member)⟩

namespace Agree

variable {name : String} {session : Session (Shared source.State)} {alone : Session Unit}
  (agree : Agree name sound session alone) (mirrors : source.Mirrors contents sound)

include agree mirrors

theorem keeps_step (addressee : String) (command : SessionCommand) :
    (session.step source.fileBeside .counting addressee command).state.Keeps ChunkReader.Sound
      fun shared => sound shared.source :=
  agree.toKeeps.step (ChunkReader.invariant_sound mirrors.keeps fun _ _ start => start) addressee
    fun _ _ _ _ => ChunkReader.sound_of_none rfl (Nat.zero_le _)

theorem noted_own (command : SessionCommand) :
    let noted := session.bare.step source.file .noting name command
    let expected := alone.step contents.inMemory .noting name command
    noted.outcome = expected.outcome ∧
      noted.state.readers.find? name = expected.state.readers.find? name := by
  have same_reader : session.bare.readers.find? name = alone.readers.find? name := agree.reader_eq
  cases command with
  | create offset length =>
      simp only [step]
      cases ChunkReader.create offset length with
      | error cause => exact ⟨rfl, same_reader⟩
      | ok reader => simp [Step.mapState]
  | drop => simp [step, Step.mapState]
  | file request =>
      have serving := mirrors.alike.serve request session.bare.source alone.source agree.source
      refine ⟨?_, same_reader⟩
      simp only [step, serving.outcome_eq, serving.buffer_eq]
  | reader asked =>
      simp only [step, same_reader]
      cases found : alone.readers.find? name with
      | none => exact ⟨rfl, same_reader⟩
      | some reader =>
          have asking : (reader.perform source.file asked session.bare.source).Alike _
              (reader.perform contents.inMemory asked alone.source) :=
            reader.perform_alike mirrors.alike agree.source asked
          simp only [Step.mapState, Registry.find?_insert_self]
          exact ⟨asking.outcome_eq, congrArg some asking.states.1⟩

/-- A command that is meant for the name ends the same way, if the counter takes what it adds. -/
theorem step_own {command : SessionCommand}
    (taken : session.source.counter.Takes
      (Event.deltas (session.bare.step source.file .noting name command).events)) :
    let done := session.step source.fileBeside .counting name command
    let expected := alone.step contents.inMemory .noting name command
    done.outcome = expected.outcome ∧ Agree name sound done.state expected.state := by
  obtain ⟨same_outcome, same_reader⟩ := agree.noted_own mirrors command
  have keeps := agree.keeps_step mirrors name command
  have step := (counted_step mirrors.counts name command session.bare session.source.counter).takes
    taken
  change session.step source.fileBeside .counting name command = _ at step
  refine ⟨?_, keeps, ?_⟩
  · rw [step]
    exact same_outcome
  · rw [step]
    exact same_reader

/-- A command that is meant for another name is not noticed, also if it is cut off. -/
theorem step_other {other : String} (differ : other ≠ name) (command : SessionCommand) :
    Agree name sound (session.step source.fileBeside .counting other command).state alone :=
  ⟨agree.keeps_step mirrors other command, by
    rw [find?_step_of_ne source.fileBeside .counting differ, agree.reader_eq]⟩

/-- Of a whole run, the commands that are meant for the name end as they do without the others, as
long as the counter cuts none of them off. -/
theorem outcomes_own {commands : List (String × SessionCommand)}
    (calm : session.Undisturbed source.fileBeside name commands ∨
      session.Bears source.fileBeside commands) :
    let own := commands.filter (·.1 = name)
    (session.outcomes source.fileBeside .counting commands).filter (·.1 = name) =
        alone.outcomes contents.inMemory .noting own ∧
      Agree name sound (session.after source.fileBeside .counting commands)
        (alone.after contents.inMemory .noting own) := by
  induction commands generalizing session alone with
  | nil => exact ⟨rfl, agree⟩
  | cons entry rest ih =>
      obtain ⟨addressee, command⟩ := entry
      have first := counted_step mirrors.counts addressee command session.bare
        session.source.counter
      change (Step.Counted _ _ _ (session.step source.fileBeside .counting addressee command) _)
        at first
      have calm_later :
          (session.step source.fileBeside .counting addressee command).state.Undisturbed
            source.fileBeside name rest ∨
          (session.step source.fileBeside .counting addressee command).state.Bears
            source.fileBeside rest :=
        calm.imp (·.cons.2) fun bears => ((bears_cons mirrors.counts).mp bears).2
      simp only [outcomes_cons, Session.after]
      by_cases own : addressee = name
      · subst own
        have taken : session.source.counter.Takes
            (Event.deltas (session.bare.step source.file .noting addressee command).events) :=
          calm.elim (fun undisturbed => first.takes_of_not_cut (undisturbed.cons.1 rfl))
            fun bears => first.takes_of_told ((bears_cons mirrors.counts).mp bears).1
        obtain ⟨same, next⟩ := agree.step_own mirrors taken
        obtain ⟨later, ends⟩ := ih next calm_later
        rw [List.filter_cons_of_pos (by simp), List.filter_cons_of_pos (by simp), outcomes_cons,
          Session.after, same, later]
        exact ⟨rfl, ends⟩
      · obtain ⟨later, ends⟩ := ih (agree.step_other mirrors own command) calm_later
        rw [List.filter_cons_of_neg (by simpa using own),
          List.filter_cons_of_neg (by simpa using own)]
        exact ⟨later, ends⟩

end Agree

/-- Readers of any ranges share a file that is put together from bytes in memory, and a counter.
However commands to them, and reads of the file itself, are interleaved: those meant for one name
end as they do when they are carried out alone, above a fresh copy of the file, just if the counter
cuts none of them off, and then they leave the same reader behind. As long as the counter takes all
that it is told, it cuts none of them off. -/
theorem outcomes_separate {source : Source} {contents : Contents} (holds : source.Holds contents) :
    ∃ start, source.start = .ok start ∧ ∀ initial other commands name,
      let file := source.fileBeside
      let shared := fresh ⟨initial, start⟩
      let alone := fresh ⟨other, start⟩
      let own := commands.filter (·.1 = name)
      alone.Undisturbed file name own →
        ((shared.outcomes file .counting commands).filter (·.1 = name) =
            alone.outcomes file .counting own ↔ shared.Undisturbed file name commands) ∧
        (shared.Undisturbed file name commands →
          (shared.after file .counting commands).readers.find? name =
            (alone.after file .counting own).readers.find? name) ∧
        (shared.Bears file commands → shared.Undisturbed file name commands) := by
  obtain ⟨sound, mirrors, start, begun, sound_start⟩ := holds.exists_mirrors
  refine ⟨start, begun, fun initial other commands name => ?_⟩
  intro file shared alone own calm_alone
  -- Both runs are compared with one above the bare contents, which have no state to disturb.
  have agree (counter : Counter) : Agree name sound (fresh ⟨counter, start⟩) (fresh ()) :=
    ⟨keeps_fresh sound_start, rfl⟩
  have all_own : ∀ entry ∈ own, entry.1 = name :=
    fun entry member => of_decide_eq_true (List.mem_filter.mp member).2
  have again : own.filter (·.1 = name) = own :=
    List.filter_eq_self.mpr fun entry member => decide_eq_true (all_own entry member)
  obtain ⟨alone_same, alone_ends⟩ := (agree other).outcomes_own mirrors (.inl calm_alone)
  rw [filter_outcomes_eq_self _ _ all_own, again] at alone_same
  rw [again] at alone_ends
  have calm_of_same (same : (shared.outcomes file .counting commands).filter (·.1 = name) =
      alone.outcomes file .counting own) : shared.Undisturbed file name commands := by
    intro entry member named
    have expected : entry ∈ alone.outcomes file .counting own :=
      same ▸ List.mem_filter.mpr ⟨member, decide_eq_true named⟩
    exact calm_alone entry expected named
  refine ⟨⟨calm_of_same, fun calm => ?_⟩, fun calm => ?_, fun bears => ?_⟩
  · obtain ⟨same, _⟩ := (agree initial).outcomes_own mirrors (.inl calm)
    exact same.trans alone_same.symm
  · obtain ⟨_, ends⟩ := (agree initial).outcomes_own mirrors (.inl calm)
    exact ends.reader_eq.trans alone_ends.reader_eq.symm
  · obtain ⟨same, _⟩ := (agree initial).outcomes_own mirrors (.inr bears)
    exact calm_of_same (same.trans alone_same.symm)

/-- Two readers of overlapping ranges of a nested source, of which one reads on after the other has
been prefetched, read and dropped and the source itself has been read in between. -/
theorem outcomes_separate_nested :
    let source : Source := .nested (.memory ChunkReader.middleWindow.contents) 1 3
    let commands : List (String × SessionCommand) :=
      [("first", .create 0 2), ("second", .create 1 2), ("first", .reader (.read 1)),
        ("second", .reader .prefetch), ("second", .reader (.read 9)),
        ("second", .file ⟨false, 2, [7]⟩), ("second", .drop), ("first", .reader (.read 9))]
    source.Holds ChunkReader.middleWindow.range ∧
      ∃ start, source.start = .ok start ∧
        let alone := fresh (Shared.mk (.startingAt 0) start)
        let shared := fresh (Shared.mk (.startingAt 7) start)
        alone.Undisturbed source.fileBeside "first" (commands.filter (·.1 = "first")) ∧
          shared.Bears source.fileBeside commands ∧
          (shared.outcomes source.fileBeside .counting commands).filter (·.1 = "first") =
            [("first", .done .nothing), ("first", .done (.portion [20] false)),
              ("first", .done (.portion [30] true))] := by
  intro source commands
  have holds : source.Holds _ := .nested ChunkReader.middleWindow (.memory _)
  obtain ⟨start, begun, separate⟩ := outcomes_separate holds
  refine ⟨holds, start, begun, ?_⟩
  intro alone shared
  cases begun
  have expected : alone.outcomes source.fileBeside .counting
      (commands.filter (·.1 = "first")) =
        [("first", .done .nothing), ("first", .done (.portion [20] false)),
          ("first", .done (.portion [30] true))] := by
    unfold alone source commands
    cbv
  have calm : alone.Undisturbed source.fileBeside "first" (commands.filter (·.1 = "first")) := by
    rw [Undisturbed, expected]
    decide
  have amounts : told source.fileBeside .counting commands shared =
      [3, 2, -3, 2, -2, 3, -3, -2] := by
    unfold shared source commands
    cbv
  have bears : shared.Bears source.fileBeside commands := by
    rw [Bears, amounts]
    decide
  obtain ⟨same, _, undisturbed⟩ :=
    separate (.startingAt 7) (.startingAt 0) commands "first" calm
  exact ⟨calm, bears, (same.mpr (undisturbed bears)).trans expected⟩

/-- A reader is disturbed by another one that has taken the counter to its greatest value. -/
theorem outcomes_disturbed_at_greatest :
    let zeros : Contents := ⟨6, fun _ => 0⟩
    let file := (Source.memory zeros).fileBeside
    let commands : List (String × SessionCommand) :=
      [("a", .create 0 5), ("a", .reader .prefetch), ("b", .create 0 1), ("b", .reader .prefetch)]
    let start := fresh (Shared.mk (.startingAt 9223372036854775802) ())
    (start.outcomes file .counting commands).filter (·.1 = "b") ≠
      start.outcomes file .counting (commands.filter (·.1 = "b")) := by
  cbv
  decide

end Session
end BulkTransfer
