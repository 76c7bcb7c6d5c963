import BulkTransfer.Proofs.ChunkReader.Tracking
import BulkTransfer.Proofs.File.Quiet
import BulkTransfer.Proofs.Registry
import BulkTransfer.Session

/-!
# Runs of a session

What one command can do to the readers of a session, and the states, events and amounts along a run.
The life of a reader begins when it is created and lasts until a command replaces it.
-/

namespace BulkTransfer

/-- Commands after which a name stands for another reader, or for none. -/
def SessionCommand.replaces : SessionCommand → Bool
  | create _ length => decide (0 < length)
  | drop => true
  | reader _ | file _ => false

namespace Session

variable {σ : Type}

/-- Session after commands. -/
def after (file : File σ) (tracker : Tracker σ) :
    List (String × SessionCommand) → Session σ → Session σ
  | [], session => session
  | (name, command) :: rest, session =>
      after file tracker rest (session.step file tracker name command).state

/-- Events of the commands that are meant for a name. -/
def heard (file : File σ) (tracker : Tracker σ) (name : String) :
    List (String × SessionCommand) → Session σ → List Event
  | [], _ => []
  | (addressee, command) :: rest, session =>
      let done := session.step file tracker addressee command
      (if addressee = name then done.events else []) ++ heard file tracker name rest done.state

/-- Amounts that the tracker is told in the course of a run. -/
def told (file : File σ) (tracker : Tracker σ) (commands : List (String × SessionCommand))
    (session : Session σ) : List Int :=
  Event.deltas ((session.run file tracker commands).flatMap (·.events))

section Append

variable (file : File σ) (tracker : Tracker σ) (earlier later : List (String × SessionCommand))
  (session : Session σ)

theorem after_append :
    after file tracker (earlier ++ later) session =
      after file tracker later (after file tracker earlier session) := by
  induction earlier generalizing session with
  | nil => rfl
  | cons entry rest ih => exact ih _

theorem heard_append (name : String) :
    heard file tracker name (earlier ++ later) session =
      heard file tracker name earlier session ++
        heard file tracker name later (after file tracker earlier session) := by
  induction earlier generalizing session with
  | nil => rfl
  | cons entry rest ih =>
      simp only [List.cons_append, heard, ih, List.append_assoc]
      rfl

theorem told_cons (name : String) (command : SessionCommand) :
    told file tracker ((name, command) :: later) session =
      Event.deltas (session.step file tracker name command).events ++
        told file tracker later (session.step file tracker name command).state := by
  rw [told, run, List.flatMap_cons, Event.deltas_append]
  rfl

theorem told_append :
    told file tracker (earlier ++ later) session =
      told file tracker earlier session ++
        told file tracker later (after file tracker earlier session) := by
  induction earlier generalizing session with
  | nil => rfl
  | cons entry rest ih =>
      obtain ⟨name, command⟩ := entry
      rw [List.cons_append, told_cons, told_cons, ih, List.append_assoc]
      rfl

end Append

variable (file : File σ) (tracker : Tracker σ)

/-- A command leaves the readers alone, replaces the reader under its name, or works with it. -/
theorem step_cases (name : String) (command : SessionCommand) (session : Session σ) :
    let done := session.step file tracker name command
    (command.replaces = false ∧ done.state.readers = session.readers ∧
      ∀ event ∈ done.events, ChunkReader.Foreign file event) ∨
    (command.replaces = true ∧
      (∃ hearing : Step σ Fault Answer,
        hearing = tracker.hear .nothing (session.parting name) session.source ∧
          done.outcome = hearing.outcome ∧ done.events = hearing.events ∧
          done.state.source = hearing.state) ∧
      ((∃ offset length, command = .create offset length ∧
          done.state.readers = session.readers.insert name ⟨offset, length, 0, none⟩) ∨
        done.state.readers = session.readers.erase name)) ∨
    (command.replaces = false ∧ ∃ asked reader, command = .reader asked ∧
      session.readers.find? name = some reader ∧
      done = (reader.perform file asked session.source tracker).mapState fun (moved, source) =>
        ⟨session.readers.insert name moved, source⟩) := by
  cases command with
  | create offset length =>
      simp only [step, ChunkReader.create, SessionCommand.replaces]
      rcases Nat.eq_zero_or_pos length with rfl | nonempty
      · exact .inl ⟨rfl, rfl, by simp⟩
      · rw [if_neg (Nat.ne_of_gt nonempty)]
        exact .inr (.inl ⟨decide_eq_true nonempty, ⟨_, rfl, rfl, rfl, rfl⟩,
          .inl ⟨offset, length, rfl, rfl⟩⟩)
  | drop => exact .inr (.inl ⟨rfl, ⟨_, rfl, rfl, rfl, rfl⟩, .inr rfl⟩)
  | file request =>
      refine .inl ⟨rfl, rfl, fun event member => .inl ?_⟩
      exact file.emits_of_mem_serve member
  | reader asked =>
      simp only [step]
      cases found : session.readers.find? name with
      | none => exact .inl ⟨rfl, rfl, by simp⟩
      | some reader => exact .inr (.inr ⟨rfl, asked, reader, rfl, rfl, rfl⟩)

theorem find?_step_of_ne {name other : String} (differ : name ≠ other)
    (command : SessionCommand) (session : Session σ) :
    (session.step file tracker name command).state.readers.find? other =
      session.readers.find? other := by
  rcases step_cases file tracker name command session with
    ⟨_, kept, _⟩ | ⟨_, _, ⟨_, _, _, stored⟩ | erased⟩ | ⟨_, _, _, _, _, done⟩
  · rw [kept]
  · rw [stored, Registry.find?_insert_of_ne _ _ differ]
  · rw [erased, Registry.find?_erase_of_ne _ differ]
  · rw [done]
    exact Registry.find?_insert_of_ne _ _ differ

/-- Each name has one reader, each of them is good, and the state of the file is okay. -/
structure Keeps (good : ChunkReader → Prop) (okay : σ → Prop) (session : Session σ) : Prop where
  /-- Names are in order. -/
  ordered : session.readers.Ordered
  /-- Readers are good. -/
  readers : ∀ reader ∈ session.readers.values, good reader
  /-- The state of the file is okay. -/
  source : okay session.source

namespace Keeps

variable {file tracker} {good : ChunkReader → Prop} {okay : σ → Prop} {session : Session σ}
  {name : String}

theorem of_find? (keeps : session.Keeps good okay) {reader : ChunkReader}
    (found : session.readers.find? name = some reader) : good reader :=
  keeps.readers reader (Registry.mem_values_of_find? found)

theorem insert (keeps : session.Keeps good okay) {reader : ChunkReader} (new : good reader)
    {source : σ} (below : okay source) (name : String) :
    (⟨session.readers.insert name reader, source⟩ : Session σ).Keeps good okay where
  ordered := Registry.ordered_insert keeps.ordered _ _
  readers := by
    intro other member
    rcases Registry.mem_values_insert member with rfl | older
    · exact new
    · exact keeps.readers other older
  source := below

/-- Commands keep what their readers keep, if new readers are good. -/
theorem step (keeps : session.Keeps good okay)
    (invariant : ChunkReader.Invariant file tracker good okay) (name : String)
    {command : SessionCommand}
    (created : ∀ offset length, command = .create offset length → 0 < length →
      good ⟨offset, length, 0, none⟩) :
    (session.step file tracker name command).state.Keeps good okay := by
  have told (answer : Answer) : okay (tracker.hear answer (session.parting name) session.source :
      Step σ Fault Answer).state := invariant.adds.hear _ _ keeps.source
  cases command with
  | create offset length =>
      simp only [Session.step, ChunkReader.create]
      rcases Nat.eq_zero_or_pos length with rfl | nonempty
      · exact keeps
      · rw [if_neg (Nat.ne_of_gt nonempty)]
        exact keeps.insert (created offset length rfl nonempty) (told _) name
  | drop =>
      refine ⟨Registry.ordered_erase keeps.ordered _, fun reader member => ?_, told _⟩
      exact keeps.readers reader (Registry.mem_values_erase member)
  | file request => exact ⟨keeps.ordered, keeps.readers, invariant.reads.serve request keeps.source⟩
  | reader asked =>
      simp only [Session.step]
      cases found : session.readers.find? name with
      | none => exact keeps
      | some reader =>
          obtain ⟨moved, reached⟩ :=
            invariant.perform asked (keeps.of_find? found) keeps.source
          exact keeps.insert moved reached name

theorem after (keeps : session.Keeps good okay)
    (invariant : ChunkReader.Invariant file tracker good okay)
    {commands : List (String × SessionCommand)}
    (created : ∀ name offset length, (name, .create offset length) ∈ commands → 0 < length →
      good ⟨offset, length, 0, none⟩) :
    (session.after file tracker commands).Keeps good okay := by
  induction commands generalizing session with
  | nil => exact keeps
  | cons entry rest ih =>
      obtain ⟨name, command⟩ := entry
      refine ih (keeps.step invariant name ?_) fun _ _ _ member => created _ _ _ (.tail _ member)
      rintro offset length rfl
      exact created name offset length List.mem_cons_self

end Keeps

/-- Each name has one reader, and each reader is sound. -/
abbrev Sound (session : Session σ) : Prop :=
  session.Keeps ChunkReader.Sound fun _ => True

/-- A session without readers. -/
def fresh (source : σ) : Session σ :=
  ⟨{}, source⟩

theorem keeps_fresh {good : ChunkReader → Prop} {okay : σ → Prop} {source : σ}
    (start : okay source) : (fresh source).Keeps good okay :=
  ⟨Registry.ordered_empty, by simp [fresh, Registry.values], start⟩

variable {file tracker} {session : Session σ} {name : String}

/-- Steps keep readers sound, whatever the file and the tracker do. -/
theorem Sound.step (sound : session.Sound) (file : File σ) (tracker : Tracker σ) (name : String)
    (command : SessionCommand) : (session.step file tracker name command).state.Sound :=
  Keeps.step sound (ChunkReader.always_sound file tracker) name fun _ _ _ _ =>
    ChunkReader.sound_of_none rfl (Nat.zero_le _)

theorem Sound.after (sound : session.Sound) (file : File σ) (tracker : Tracker σ)
    (commands : List (String × SessionCommand)) : (session.after file tracker commands).Sound :=
  Keeps.after sound (ChunkReader.always_sound file tracker) fun _ _ _ _ _ =>
    ChunkReader.sound_of_none rfl (Nat.zero_le _)

theorem events_of_replaces {command : SessionCommand} (replaces : command.replaces = true) :
    (session.step file .noting name command).events = session.parting name := by
  rcases step_cases file .noting name command session with
    ⟨lasting, _⟩ | ⟨_, ⟨_, rfl, _, events, _⟩, _⟩ | ⟨lasting, _⟩
  · cases replaces.symm.trans lasting
  · rw [events, Tracker.hear_noting]
  · cases replaces.symm.trans lasting

/-- Where amounts are only noted, a reader stays under its name until it is replaced, and takes its
course. -/
theorem Sound.course_heard (sound : session.Sound) (file : File σ) {reader : ChunkReader}
    (found : session.readers.find? name = some reader)
    {commands : List (String × SessionCommand)}
    (kept : ∀ command, (name, command) ∈ commands → command.replaces = false) :
    ∃ later, (session.after file .noting commands).readers.find? name = some later ∧
      ChunkReader.Course file reader (heard file .noting name commands session) later := by
  induction commands generalizing session reader with
  | nil => exact ⟨reader, found, .refl reader⟩
  | cons entry rest ih =>
      obtain ⟨addressee, command⟩ := entry
      have kept_later : ∀ command, (name, command) ∈ rest → command.replaces = false :=
        fun command member => kept command (List.mem_cons_of_mem _ member)
      have sound_later := sound.step file .noting addressee command
      rw [Session.after, heard]
      by_cases own : addressee = name
      · subst own
        rw [if_pos rfl]
        have lasting := kept command List.mem_cons_self
        rcases step_cases file .noting addressee command session with
          ⟨_, readers, foreign⟩ | ⟨replaced, _⟩ | ⟨_, asked, old, _, found_old, done⟩
        · obtain ⟨later, found_later, course⟩ := ih sound_later (readers ▸ found) kept_later
          exact ⟨later, found_later, .append (.listen foreign) course⟩
        · cases lasting.symm.trans replaced
        · cases found.symm.trans found_old
          have stored : (session.step file .noting addressee command).state.readers.find?
              addressee = some (reader.perform file asked session.source).state.1 := by
            rw [done]
            exact Registry.find?_insert_self _ _ _
          obtain ⟨later, found_later, course⟩ := ih sound_later stored kept_later
          refine ⟨later, found_later, .append ?_ course⟩
          rw [done]
          exact ChunkReader.course_perform file session.source (sound.of_find? found) asked
      · rw [if_neg own, List.nil_append]
        refine ih sound_later ?_ kept_later
        rw [find?_step_of_ne file .noting own, found]

end Session
end BulkTransfer
