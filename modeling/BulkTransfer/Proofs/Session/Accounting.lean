import BulkTransfer.Proofs.ChunkReader.Charging
import BulkTransfer.Proofs.Session.Counting

/-!
# The byte counter of a session

Over any run that its byte counter bears, the counter has moved from its initial value by exactly
what the readers and their file hold. Each reader adds its length and takes it off by turns, in its
whole life, so it is never counted twice and never released twice.
-/

namespace BulkTransfer
namespace Session

variable {σ : Type}

/-- Number of bytes that the readers of a session hold. -/
def held (session : Session σ) : Nat :=
  session.readers.total ChunkReader.held

/-- Number of bytes that the readers of a session and their file hold. -/
def heldWith (held : σ → Nat) (session : Session σ) : Nat :=
  session.held + held session.source

section Charging

variable {file : File σ} {held : σ → Nat} {session : Session σ}

theorem charge_parting (session : Session σ) (name : String) :
    Event.charge (session.parting name) =
      -(session.readers.share ChunkReader.held name : Int) := by
  rw [parting, Registry.share]
  cases session.readers.find? name with
  | none => rfl
  | some reader => exact reader.charge_release

/-- A command charges the counter by what the readers and their file come to hold. -/
theorem Sound.charges_step (sound : session.Sound) (accounts : file.Accounts held) (name : String)
    (command : SessionCommand) :
    Charges (heldWith held) session (session.step file .noting name command).events
      (session.step file .noting name command).state := by
  have stored := Registry.total_insert sound.ordered ChunkReader.held name
  have erased := Registry.total_erase sound.ordered ChunkReader.held name
  have parts := session.charge_parting name
  cases command with
  | create offset length =>
      have added := stored ⟨offset, length, 0, none⟩
      have nothing : ChunkReader.held ⟨offset, length, 0, none⟩ = 0 := rfl
      simp only [Session.step, ChunkReader.create, Tracker.hear_noting]
      rcases Nat.eq_zero_or_pos length with rfl | nonempty
      · exact .refl _ session
      · rw [if_neg (Nat.ne_of_gt nonempty)]
        simp only [Charges, heldWith, Session.held, Step.mapState] at parts ⊢
        omega
  | drop =>
      simp only [Charges, heldWith, Session.held, Session.step, Step.mapState,
        Tracker.hear_noting] at parts ⊢
      omega
  | file request =>
      have serving := accounts.serve request session.source
      simp only [Charges, heldWith, Session.held, Session.step] at serving ⊢
      omega
  | reader asked =>
      simp only [Session.step]
      cases found : session.readers.find? name with
      | none => exact .refl _ session
      | some reader =>
          have working := ChunkReader.charges_perform accounts reader session.source
            (sound.of_find? found) asked
          have share : session.readers.share ChunkReader.held name = reader.held := by
            rw [Registry.share, found]
            rfl
          have added := stored (reader.perform file asked session.source).state.1
          simp only [Charges, heldWith, ChunkReader.heldWith, Session.held, Step.mapState]
            at working ⊢
          omega

end Charging

section Releasing

variable {counter : Counter}

theorem takes_release {reader : ChunkReader}
    (room : -(signedMax + 1 : Int) + reader.held ≤ counter.value) :
    counter.Takes (Event.deltas reader.release.2) := by
  rcases reader.release_cases with ⟨_, step⟩ | ⟨holds, step⟩ <;> rw [step]
  · trivial
  · have range := counter.value_in_range
    rw [ChunkReader.held, if_pos holds] at room
    exact ⟨⟨by omega, by omega⟩, trivial⟩

theorem charge_releases (readers : List ChunkReader) :
    Event.charge (readers.flatMap (·.release.2)) = -((readers.map ChunkReader.held).sum : Int) := by
  induction readers with
  | nil => rfl
  | cons reader rest ih =>
      have first := reader.charge_release
      rw [List.flatMap_cons, Event.charge_append, ih, first, List.map_cons, List.sum_cons]
      omega

theorem takes_releases {readers : List ChunkReader}
    (room : -(signedMax + 1 : Int) + (readers.map ChunkReader.held).sum ≤ counter.value) :
    counter.Takes (Event.deltas (readers.flatMap (·.release.2))) := by
  induction readers generalizing counter with
  | nil => trivial
  | cons reader rest ih =>
      rw [List.map_cons, List.sum_cons] at room
      have taken : counter.Takes (Event.deltas reader.release.2) := takes_release (by omega)
      have moved := Counter.value_absorb taken
      have first := reader.sum_deltas_release
      rw [List.flatMap_cons, Counter.takes_deltas_append]
      exact ⟨taken, ih (by omega)⟩

theorem after_drops (file : File (Shared σ)) {session : Session (Shared σ)}
    (ordered : session.readers.Ordered)
    (taken : session.source.counter.Takes
      (Event.deltas (session.readers.values.flatMap (·.release.2)))) :
    session.after file .counting (session.readers.entries.map fun entry => (entry.1, .drop)) =
      ⟨{}, ⟨session.source.counter.absorb
        (Event.deltas (session.readers.values.flatMap (·.release.2))), session.source.source⟩⟩ := by
  obtain ⟨⟨entries⟩, counter, source⟩ := session
  induction entries generalizing counter with
  | nil => rfl
  | cons first rest ih =>
      obtain ⟨least, ordered⟩ := List.pairwise_cons.mp ordered
      simp only [Registry.values, List.map_cons, List.flatMap_cons] at taken ih ⊢
      rw [Counter.takes_deltas_append] at taken
      have dropped : ((⟨⟨first :: rest⟩, ⟨counter, source⟩⟩ : Session (Shared σ)).step file
          .counting first.1 .drop).state =
          ⟨⟨rest⟩, ⟨counter.absorb (Event.deltas first.2.release.2), source⟩⟩ := by
        simp only [step, parting, Registry.find?_head, Option.map_some, Option.getD_some,
          Registry.erase_head least]
        rw [Tracker.hear_of_takes taken.1]
        rfl
      rw [after, dropped, ih _ ordered taken.2, Event.deltas_append, Counter.absorb_append]

end Releasing

/-- The readers are sound, and the counter has moved from where it started by what they and their
file hold. -/
structure Settled (held : σ → Nat) (initial : Counter) (session : Session (Shared σ)) : Prop where
  /-- Readers are sound. -/
  sound : session.Sound
  /-- The counter tells what is held. -/
  balance : session.source.counter.value = initial.value + session.bare.heldWith held

theorem settled_fresh {held : σ → Nat} (initial : Counter) {source : σ}
    (nothing : held source = 0) : (fresh ⟨initial, source⟩).Settled held initial := by
  refine ⟨keeps_fresh trivial, ?_⟩
  rw [heldWith, show (fresh (Shared.mk initial source)).bare.source = source from rfl, nothing]
  exact (Int.add_zero _).symm

theorem Sound.bare {session : Session (Shared σ)} (sound : session.Sound) : session.bare.Sound :=
  ⟨sound.ordered, sound.readers, trivial⟩

namespace Settled

variable {counted : File (Shared σ)} {plain : File σ} {held : σ → Nat} {initial : Counter}
  {session : Session (Shared σ)} (settled : session.Settled held initial)

include settled

section Steps

variable (counts : counted.Counts plain) (accounts : plain.Accounts held)

include counts accounts

/-- A step that the counter bears leaves the account settled, also if it fails. -/
theorem step {name : String} {command : SessionCommand}
    (taken : session.source.counter.Takes
      (Event.deltas (session.step counted .counting name command).events)) :
    (session.step counted .counting name command).state.Settled held initial ∧
      (session.step counted .counting name command).state.source.counter =
        session.source.counter.absorb
          (Event.deltas (session.step counted .counting name command).events) := by
  let noted := session.bare.step plain .noting name command
  have charged : Charges (heldWith held) session.bare noted.events noted.state :=
    settled.sound.bare.charges_step accounts name command
  have balance := settled.balance
  have sound := settled.sound.step counted .counting name command
  have step : session.step counted .counting name command =
      noted.mapState (sharing (session.source.counter.absorb (Event.deltas noted.events))) :=
    step_of_takes counts taken
  rw [step] at taken sound ⊢
  have moved : (session.source.counter.absorb (Event.deltas noted.events)).value =
      session.source.counter.value + Event.charge noted.events := Counter.value_absorb taken
  refine ⟨⟨sound, ?_⟩, rfl⟩
  calc (session.source.counter.absorb (Event.deltas noted.events)).value
    _ = initial.value + session.bare.heldWith held + Event.charge noted.events := by
        rw [moved, balance]
    _ = initial.value + noted.state.heldWith held := by
        rw [charged]
        omega

theorem cons {name : String} {command : SessionCommand} {rest : List (String × SessionCommand)}
    (bears : session.Bears counted ((name, command) :: rest)) :
    let next := (session.step counted .counting name command).state
    next.Settled held initial ∧ next.Bears counted rest := by
  rw [Bears, told_cons, Counter.takes_append] at bears
  obtain ⟨first, later⟩ := bears
  obtain ⟨settles, absorbs⟩ := settled.step counts accounts first
  rw [← absorbs] at later
  exact ⟨settles, later⟩

theorem after {commands : List (String × SessionCommand)} (bears : session.Bears counted commands) :
    (session.after counted .counting commands).Settled held initial := by
  induction commands generalizing session with
  | nil => exact settled
  | cons entry rest ih =>
      obtain ⟨next, later⟩ := settled.cons counts accounts bears
      exact ih next later

theorem of_mem_run {commands : List (String × SessionCommand)}
    (bears : session.Bears counted commands) {done : Step (Session (Shared σ)) Fault Answer}
    (member : done ∈ session.run counted .counting commands) :
    done.state.Settled held initial := by
  induction commands generalizing session with
  | nil => cases member
  | cons entry rest ih =>
      obtain ⟨next, later⟩ := settled.cons counts accounts bears
      rcases List.mem_cons.mp member with rfl | follows
      · exact next
      · exact ih next later follows

end Steps

theorem room : -(signedMax + 1 : Int) + session.held ≤ session.source.counter.value := by
  have balance := settled.balance
  have range := initial.value_in_range
  have parts : session.bare.heldWith held = session.held + held session.source.source := rfl
  omega

/-- Readers that are dropped leave the counter at what it was at first and what their file holds. -/
theorem finish (file : File (Shared σ)) :
    let ending := session.finish .counting
    ending.outcome = .done () ∧
      ending.state = session.after file .counting
        (session.readers.entries.map fun entry => (entry.1, .drop)) ∧
      ending.state.source.source = session.source.source ∧
      ending.state.source.counter.value = initial.value + held session.source.source := by
  let released := session.readers.values.flatMap (·.release.2)
  have taken : session.source.counter.Takes (Event.deltas released) := takes_releases settled.room
  intro ending
  have ends : ending = ⟨.done (), ⟨{}, ⟨session.source.counter.absorb (Event.deltas released),
      session.source.source⟩⟩, released⟩ :=
    congrArg (Step.mapState fun source => (⟨{}, source⟩ : Session (Shared σ)))
      (Tracker.hear_of_takes taken)
  rw [ends, after_drops file settled.sound.ordered taken]
  refine ⟨rfl, rfl, rfl, ?_⟩
  have moved := Counter.value_absorb taken
  have balance := settled.balance
  have charged := charge_releases session.readers.values
  have parts : session.bare.heldWith held = session.held + held session.source.source := rfl
  rw [Event.charge] at charged
  rw [moved, balance, charged, parts, Session.held, Registry.total]
  omega

/-- A reader may always be replaced. -/
theorem takes_replacing {counted : File (Shared σ)} {plain : File σ} (counts : counted.Counts plain)
    {name : String} {command : SessionCommand} (replaces : command.replaces = true) :
    session.source.counter.Takes
      (Event.deltas (session.step counted .counting name command).events) := by
  have step := counted_step counts name command session.bare session.source.counter
  have parts : (session.bare.step plain .noting name command).events = session.parting name :=
    events_of_replaces replaces
  have taken : session.source.counter.Takes (Event.deltas (session.parting name)) := by
    rw [parting]
    cases found : session.readers.find? name with
    | none => trivial
    | some reader =>
        have room := settled.room
        have shares := Registry.total_erase settled.sound.ordered ChunkReader.held name
        rw [Registry.share, found] at shares
        refine takes_release ?_
        simp only [Option.map_some, Option.getD_some] at shares
        rw [Session.held] at room
        omega
  rw [← parts] at taken
  have same := step.takes taken
  rw [show session.step counted .counting name command = _ from same]
  exact taken

end Settled

section Lives

variable {file : File σ} {session : Session σ} {name : String}

/-- Events in which a reader of a range reports this many turns, the first of them taking hold, and
in which nothing else is added to the counter. -/
def Alternates (file : File σ) (offset length count : Nat) (events : List Event) : Prop :=
  Woven (ChunkReader.Foreign file) (ChunkReader.turns offset length false count) events ∧
    Event.deltas events = swings length count

theorem alternates_of_course (quiet : file.Quiet) {before later : ChunkReader}
    {events : List Event} (course : ChunkReader.Course file before events later)
    (sound : before.Sound) (vacant : before.isLoaded = false) :
    ∃ count, Alternates file before.offset before.length count events ∧
      later.isLoaded = decide (count % 2 = 1) ∧ (0 < count → before.length ≤ signedMax) := by
  obtain ⟨count, woven, holds, fits⟩ := course.woven sound
  rw [vacant] at woven holds
  refine ⟨count, ⟨woven, ?_⟩, ?_, fits⟩
  · rw [woven.deltas_eq fun event foreign => foreign.deltas_eq quiet, ChunkReader.deltas_turns]
    rfl
  · rw [holds, ChunkReader.heldAfter_eq, Bool.false_xor]

/-- What a new reader reports until it is replaced, and what it has reported after that. -/
theorem alternates_heard (sound : session.Sound) (quiet : file.Quiet) (offset : Nat)
    {length : Nat} (nonempty : 0 < length) {commands : List (String × SessionCommand)}
    (kept : ∀ command, (name, command) ∈ commands → command.replaces = false) :
    let begun := (session.step file .noting name (.create offset length)).state
    (∃ reader count,
      (begun.after file .noting commands).readers.find? name = some reader ∧
      reader.offset = offset ∧ reader.length = length ∧
      reader.isLoaded = decide (count % 2 = 1) ∧
      Alternates file offset length count (heard file .noting name commands begun) ∧
      (0 < count → length ≤ signedMax)) ∧
    ∀ command, command.replaces = true →
      ∃ count, Alternates file offset length (2 * count)
        (heard file .noting name (commands ++ [(name, command)]) begun) := by
  intro begun
  let reader : ChunkReader := ⟨offset, length, 0, none⟩
  have begun_sound : begun.Sound := sound.step file .noting name (.create offset length)
  have found : begun.readers.find? name = some reader := by
    simp [begun, step, ChunkReader.create, Nat.ne_of_gt nonempty, reader, Step.mapState]
  have reader_sound : reader.Sound := begun_sound.of_find? found
  obtain ⟨later, found_later, course⟩ := begun_sound.course_heard file found kept
  have range := course.same_range
  constructor
  · obtain ⟨count, alternates, holds, fits⟩ :=
      alternates_of_course quiet course reader_sound rfl
    exact ⟨later, count, found_later, range.1, range.2, holds, alternates, fits⟩
  · intro command replaces
    obtain ⟨count, alternates, holds, _⟩ :=
      alternates_of_course quiet (course.append (.release later)) reader_sound rfl
    rw [ChunkReader.isLoaded_release] at holds
    have even : count % 2 ≠ 1 := of_decide_eq_false holds.symm
    have half : 2 * (count / 2) = count := by omega
    have parts : heard file .noting name [(name, command)] (begun.after file .noting commands) =
        later.release.2 := by
      rw [heard, heard, if_pos rfl, events_of_replaces replaces, parting, found_later]
      exact List.append_nil _
    refine ⟨count / 2, ?_⟩
    rw [half, heard_append, parts]
    exact alternates

end Lives

/-- On a file that leaves the counter alone, whatever it does besides, and whatever is asked of any
number of readers, as long as the counter bears it: after each command the counter has moved by what
the readers hold; once they are all dropped it is back where it started; and each reader, from its
creation until it is replaced, adds its length and takes it off by turns, with one record of each
turn, and never if its length is more than a signed number can tell. -/
theorem counter_eq_held (initial : Counter) {file : File σ} (quiet : file.Quiet) (source : σ) :
    let start := fresh (Shared.mk initial source)
    (∀ commands, start.Bears file.beside commands →
      ∀ done ∈ start.run file.beside .counting commands,
        done.state.source.counter.value = initial.value + done.state.held) ∧
    (∀ commands, start.Bears file.beside commands →
      let session := start.after file.beside .counting commands
      let ending := session.finish .counting
      ending.outcome = .done () ∧
        ending.state = session.after file.beside .counting
          (session.readers.entries.map fun entry => (entry.1, .drop)) ∧
        ending.state.source.counter = initial) ∧
    ∀ earlier name offset length commands, 0 < length →
      (∀ command, (name, command) ∈ commands → command.replaces = false) →
      start.Bears file.beside (earlier ++ (name, .create offset length) :: commands) →
      let begun := start.after file.beside .counting (earlier ++ [(name, .create offset length)])
      (∃ reader count,
        (begun.after file.beside .counting commands).readers.find? name = some reader ∧
        reader.offset = offset ∧ reader.length = length ∧
        reader.isLoaded = decide (count % 2 = 1) ∧
        Alternates file offset length count
          (heard file.beside .counting name commands begun) ∧
        (0 < count → length ≤ signedMax)) ∧
      ∀ command, command.replaces = true →
        ∃ count, Alternates file offset length (2 * count)
          (heard file.beside .counting name (commands ++ [(name, command)]) begun) := by
  intro start
  have counts := quiet.counts
  have settled : start.Settled (fun _ => 0) initial := settled_fresh initial rfl
  refine ⟨?_, ?_, ?_⟩
  · intro commands bears done member
    exact (settled.of_mem_run counts quiet.accounts bears member).balance
  · intro commands bears session ending
    have later : session.Settled (fun _ => 0) initial := settled.after counts quiet.accounts bears
    obtain ⟨done, drops, _, value⟩ := later.finish file.beside
    exact ⟨done, drops, Counter.eq_of_value_eq (value.trans (Int.add_zero _))⟩
  · intro earlier name offset length commands nonempty kept bears begun
    let noted : Session σ := (fresh source).after file .noting earlier
    let noted_begun : Session σ := (noted.step file .noting name (.create offset length)).state
    rw [List.append_cons, bears_append counts] at bears
    obtain ⟨bears_begun, bears_commands⟩ := bears
    have later : (begun.after file.beside .counting commands).Settled (fun _ => 0) initial :=
      (settled.after counts quiet.accounts bears_begun).after counts quiet.accounts bears_commands
    have begun_bare : begun.bare = noted_begun := by
      have ends := (run_of_bears counts bears_begun).2.1
      have split := after_append file .noting earlier [(name, .create offset length)] (fresh source)
      exact (congrArg bare ends).trans split
    have sound : noted.Sound := Sound.after (keeps_fresh trivial) file .noting earlier
    obtain ⟨until_replaced, whole_life⟩ := alternates_heard sound quiet offset nonempty kept
    obtain ⟨_, same_end, same_heard⟩ := run_of_bears counts bears_commands
    constructor
    · rw [same_end, same_heard name, begun_bare]
      exact until_replaced
    · intro command replaces
      have bears_all : begun.Bears file.beside (commands ++ [(name, command)]) := by
        refine (bears_append counts).mpr ⟨bears_commands, ?_⟩
        rw [Bears, told_cons]
        exact (List.append_nil _).symm ▸ later.takes_replacing counts replaces
      rw [(run_of_bears counts bears_all).2.2 name, begun_bare]
      exact whole_life command replaces

/-- Four bytes that are read in pieces, with an error, an abort and a false claim among them. -/
theorem counter_eq_held_scripted :
    let file := (Contents.ofArray #[10, 20, 30, 40]).scripted
    let script : List Turn := [.fail (.ofKind .other), .atMost 1, .abort, .plain, .claim 1]
    let commands : List (String × SessionCommand) :=
      [("b", .create 1 2), ("a", .reader .prefetch), ("a", .reader .prefetch),
        ("b", .reader (.read 2)), ("a", .reader (.streamRead 3)), ("a", .reader .close)]
    let start := fresh (Shared.mk (.startingAt 7) script)
    file.Quiet ∧ (0 < 4 ∧ ∀ command, ("a", command) ∈ commands → command.replaces = false) ∧
      start.Bears file.beside (("a", .create 0 4) :: commands) ∧
      (∀ done ∈ start.run file.beside .counting (("a", .create 0 4) :: commands),
        done.state.source.counter.value = 7 + done.state.held) ∧
      ((start.after file.beside .counting (("a", .create 0 4) :: commands)).finish
        .counting).state.source.counter = .startingAt 7 ∧
      ∃ count, Alternates file 0 4 (2 * count)
        (heard file.beside .counting "a" (commands ++ [("a", .drop)])
          (start.after file.beside .counting [("a", .create 0 4)])) := by
  intro file script commands start
  have quiet : file.Quiet := Contents.quiet_scripted _
  have kept : ∀ command, ("a", command) ∈ commands → command.replaces = false := by
    intro command member
    simp only [commands, List.mem_cons, Prod.mk.injEq, List.not_mem_nil] at member
    rcases member with ⟨_, rfl⟩ | ⟨_, rfl⟩ | ⟨_, rfl⟩ | ⟨_, rfl⟩ | ⟨_, rfl⟩ | ⟨_, rfl⟩ | _ <;>
      simp_all [SessionCommand.replaces]
  have amounts : told file.beside .counting (("a", .create 0 4) :: commands) start =
      [2, -2] := by
    unfold file commands start script
    cbv
  have bears : start.Bears file.beside (("a", .create 0 4) :: commands) := by
    rw [Bears, amounts]
    decide
  have seven : (Counter.startingAt 7).value = 7 := by decide
  obtain ⟨balance, ending, lives⟩ := counter_eq_held (.startingAt 7) quiet script
  rw [seven] at balance
  subst start
  exact ⟨quiet, ⟨by decide, kept⟩, bears, balance _ bears, (ending _ bears).2.2,
    (lives [] "a" 0 4 commands (by decide) kept bears).2 .drop rfl⟩

end Session
end BulkTransfer
