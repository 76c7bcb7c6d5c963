import BulkTransfer.Proofs.ChunkReader.Seeking
import BulkTransfer.Proofs.ChunkReader.Serving
import BulkTransfer.Proofs.Whence

/-!
# Where a chunk reader stands

Seeks are a matter of the position and the length alone. The three ways of naming a position lead to
the same place, no seek touches what is held, and where a run of commands takes a reader can be told
without its file, as long as what has to be loaded can be.
-/

namespace BulkTransfer

/-- The offset by which a position is named. -/
def Whence.offsetTo (whence : Whence) (target : Int) (position length : Nat) : Int :=
  match whence with
  | start => target
  | current => target - position
  | fromEnd => length - target

@[simp]
theorem Whence.aim_offsetTo (whence : Whence) (target : Int) (position length : Nat) :
    whence.aim (whence.offsetTo target position length) position length = target := by
  cases whence with
  | start => rfl
  | current =>
      simp only [aim, offsetTo]
      omega
  | fromEnd =>
      simp only [aim, offsetTo]
      omega

/-- Where a command takes a reader from a position, if it gets the bytes that it wants. -/
def ReaderCommand.bearing (command : ReaderCommand) (position length : Nat) : Nat :=
  match command with
  | prefetch | close | range | file _ => position
  | seekPosition | streamPosition => position
  | reset | streamRewind => 0
  | seek offset whence => (whence.landing? offset position length).getD position
  | streamSeek target =>
      if target.aim position length < 0 then position else target.landing position length
  | seekLength => if position ≤ signedMax ∨ position = length then position else length
  | read room | streamRead room | streamExact room => position + min room (length - position)
  | streamToEnd => length

/-- Where commands take a reader one after the other. -/
def bearings (length : Nat) : List ReaderCommand → Nat → List Nat
  | [], _ => []
  | command :: rest, position =>
      let reached := command.bearing position length
      reached :: bearings length rest reached

namespace ChunkReader

variable {σ : Type} {file : File σ} {reader : ChunkReader} {command : ReaderCommand} {source : σ}
  {bytes : Bytes}

/-- Where a reader stands after each of a number of commands. -/
def positions (file : File σ) : List ReaderCommand → ChunkReader → σ → List Nat
  | [], _, _ => []
  | command :: rest, reader, source =>
      let step := reader.perform file command source
      step.state.1.position :: positions file rest step.state.1 step.state.2

/-- What a command has to load can be loaded. -/
def Obtains (file : File σ) (command : ReaderCommand) (reader : ChunkReader) (source : σ) : Prop :=
  command.loads reader = true →
    ∃ bytes, (file.load reader.offset reader.length source).outcome = .done bytes

/-- Whatever has to be loaded on the way through a number of commands can be loaded. -/
def ObtainsAll (file : File σ) : List ReaderCommand → ChunkReader → σ → Prop
  | [], _, _ => True
  | command :: rest, reader, source =>
      let step := reader.perform file command source
      Obtains file command reader source ∧ ObtainsAll file rest step.state.1 step.state.2

/-- A seek to a position that is named in any way fails if the position lies before the start, and
otherwise moves there or to the end. -/
theorem perform_seek_offsetTo (target : Int) (whence : Whence) (reader : ChunkReader) (source : σ) :
    let offset := whence.offsetTo target reader.position reader.length
    let reached := min target.toNat reader.length
    reader.perform file (.seek offset whence) source =
      if target < 0 then ⟨.failed (.chunk .negativeSeek), (reader, source), []⟩
      else ⟨.done (.number reached), ({ reader with position := reached }, source), []⟩ := by
  intro offset reached
  have aimed : whence.aim offset reader.position reader.length = target :=
    whence.aim_offsetTo target reader.position reader.length
  have ends := seek_cases reader offset whence
  rw [aimed] at ends
  rcases ends with ⟨short, step⟩ | ⟨inside, step⟩ <;> rw [perform, step]
  · rw [if_pos short]
    rfl
  · rw [if_neg (Int.not_lt.mpr inside)]
    rfl

theorem perform_moves (sound : reader.Sound) (moves : command.onlyMoves = true) :
    ∃ position, position ≤ reader.length ∧
      (reader.perform file command source).state = ({ reader with position }, source) ∧
      (reader.perform file command source).events = [] := by
  obtain ⟨position, state, events⟩ := perform_of_onlyMoves file source sound.position_le moves
  have course := course_perform file source sound command
  have inside := (course.sound sound).position_le
  rw [state] at inside
  exact ⟨position, inside, state, events⟩

/-- A command that wants bytes wherever there are any left is served with some, if what it has to
load can be loaded. -/
theorem exists_serves (sound : reader.Sound) (obtains : Obtains file command reader source)
    (wants : reader.position < reader.length → command.wants reader = true) :
    ∃ bytes, reader.Serves file source bytes := by
  rcases Nat.lt_or_ge reader.position reader.length with before | ended
  · have exists_bytes : ∃ bytes, AtHand file command reader source bytes := by
      cases held : reader.loaded with
      | some bytes => exact ⟨bytes, .inl held⟩
      | none =>
          have loads : command.loads reader = true := by
            simp [ReaderCommand.loads, isLoaded, held, wants before]
          obtain ⟨bytes, done⟩ := obtains loads
          exact ⟨bytes, .inr ⟨loads, done⟩⟩
    obtain ⟨bytes, at_hand⟩ := exists_bytes
    exact ⟨bytes, serves_of_ensureLoaded sound at_hand.ensureLoaded⟩
  · -- At the end nothing is given out, so that any bytes will do.
    exact ⟨List.replicate reader.length 0, sound.position_le, List.length_replicate,
      fun before => absurd before (Nat.not_lt.mpr ended)⟩

theorem Serves.position_read (serves : reader.Serves file source bytes) (buffer : Bytes) :
    (reader.read file buffer source).state.1.position =
      reader.position + reader.count buffer.length :=
  congrArg ChunkReader.position (serves.read buffer).2.2.1

theorem Serves.position_gather (serves : reader.Serves file source bytes) {demand : Demand}
    (roomy : demand.Roomy) :
    (reader.gather file demand source).state.1.position =
      reader.position + demand.taken (reader.length - reader.position) :=
  congrArg ChunkReader.position (serves.gather roomy).2

/-- A reader that gets the bytes it wants is taken where its position and its length say. -/
theorem position_perform (sound : reader.Sound) (obtains : Obtains file command reader source) :
    (reader.perform file command source).state.1.position =
      command.bearing reader.position reader.length := by
  have inside := sound.position_le
  cases command with
  | prefetch => exact position_ensureLoaded file reader source
  | close =>
      rw [perform_close]
      exact position_release reader
  | range | file => rfl
  | read room | streamRead room =>
      obtain ⟨bytes, serves⟩ := exists_serves sound obtains fun before => decide_eq_true before
      refine (serves.position_read (List.replicate room 0)).trans ?_
      rw [List.length_replicate]
      rfl
  | streamExact wanted =>
      rcases Nat.eq_zero_or_pos wanted with rfl | positive
      · simp [perform, streamExact, gather_exactly_zero, Step.map, Step.mapError, Step.mapOutcome,
          ReaderCommand.bearing]
      · obtain ⟨bytes, serves⟩ := exists_serves sound obtains fun before =>
          decide_eq_true ⟨positive, before⟩
        exact serves.position_gather (Demand.roomy_exactly wanted)
  | streamToEnd =>
      obtain ⟨bytes, serves⟩ := exists_serves sound obtains fun before => decide_eq_true before
      have some_room : 0 < blockLength := by decide
      exact (serves.position_gather (Demand.roomy_blocks some_room)).trans
        (Nat.add_sub_of_le inside)
  | seek offset whence =>
      rw [perform, seek, ReaderCommand.bearing]
      cases whence.landing? offset reader.position reader.length <;> rfl
  | seekPosition =>
      rw [perform, Seeker.position, seek_current_zero inside]
      rfl
  | seekLength =>
      rw [ReaderCommand.bearing]
      rcases seekLength_cases inside with ⟨near, step⟩ | ⟨far, before, step⟩ <;> rw [perform, step]
      · rw [if_pos near.symm]
        rfl
      · rw [if_neg (by omega)]
        rfl
  | reset =>
      rw [perform, reset_seek]
      rfl
  | streamSeek target =>
      rw [ReaderCommand.bearing]
      rcases reader.streamSeek_cases target with ⟨short, step⟩ | ⟨forward, step⟩ <;>
        rw [perform, step]
      · rw [if_pos short]
        rfl
      · rw [if_neg (Int.not_lt.mpr forward)]
        rfl
  | streamRewind =>
      rw [perform, streamSeek_start]
      simp [apart, ReaderCommand.bearing]
  | streamPosition =>
      have told : reader.streamSeek (.current 0) = (.ok reader.position, reader) := by
        simp only [streamSeek, SeekTarget.split, seek_current_zero inside]
        rfl
      rw [perform, told]
      rfl

/-- Where commands take a reader does not depend on what it holds, nor on its file. -/
theorem positions_eq_bearings (sound : reader.Sound) {commands : List ReaderCommand}
    (obtains : ObtainsAll file commands reader source) :
    reader.positions file commands source = bearings reader.length commands reader.position := by
  induction commands generalizing reader source with
  | nil => rfl
  | cons command rest ih =>
      obtain ⟨first, later⟩ := obtains
      have course := course_perform file source sound command
      have reached := position_perform sound first
      have same_length : (reader.perform file command source).state.1.length = reader.length :=
        course.same_range.2
      have rest_positions := ih (course.sound sound) later
      rw [reached, same_length] at rest_positions
      rw [positions, bearings, reached, rest_positions]

theorem obtainsAll_of_loads (sound : reader.Sound)
    (loads : ∀ state, ∃ bytes, (file.load reader.offset reader.length state).outcome = .done bytes)
    (commands : List ReaderCommand) (source : σ) : ObtainsAll file commands reader source := by
  induction commands generalizing reader source with
  | nil => trivial
  | cons command rest ih =>
      have course := course_perform file source sound command
      have same := course.same_range
      refine ⟨fun _ => loads source, ih (course.sound sound) ?_ _⟩
      rw [same.1, same.2]
      exact loads

/-- Whatever was done with a reader of a chunk of any length, it stands within its range. From there
each position is sought alike in all three ways; machine words are wide enough for it; commands that
move the reader leave what it holds, the byte counter and the file alone; and where it is taken by
further commands, whose loads succeed, is the same whether it holds its chunk or not. -/
theorem seek_moves_exactly (file : File σ) {offset length : Nat} {fresh : ChunkReader}
    (created : create offset length = .ok fresh) (source : σ) (commands : List ReaderCommand) :
    let now := fresh.afterAll file commands source
    now.1.position ≤ length ∧
    (∀ (target : Int) (whence : Whence),
      let seeking :=
        now.1.perform file (.seek (whence.offsetTo target now.1.position length) whence) now.2
      (target < 0 → seeking = ⟨.failed (.chunk .negativeSeek), now, []⟩) ∧
      (0 ≤ target →
        let reached := min target.toNat length
        seeking = ⟨.done (.number reached), ({ now.1 with position := reached }, now.2), []⟩)) ∧
    (∀ (width : Nat) (whence : Whence) (offset : BitVec 64) (position size : BitVec width),
      width ≤ 64 →
      (whence.wordAim offset (position.setWidth 64) (size.setWidth 64)).toInt =
          whence.aim offset.toInt position.toNat size.toNat ∧
        (whence.machineLanding? offset position size).map BitVec.toNat =
          whence.landing? offset.toInt position.toNat size.toNat) ∧
    (∀ command : ReaderCommand, command.onlyMoves = true →
      let moving := now.1.perform file command now.2
      ∃ position, position ≤ length ∧
        moving.state = ({ now.1 with position }, now.2) ∧ moving.events = []) ∧
    ∀ (loaded : Option Bytes) (state : σ) (more : List ReaderCommand),
      let reader := { now.1 with loaded }
      reader.Sound → ObtainsAll file more reader state →
      reader.positions file more state = bearings length more now.1.position := by
  intro now
  obtain ⟨sound, same_length⟩ : now.1.Sound ∧ now.1.length = length :=
    sound_afterAll file created source commands
  subst same_length
  refine ⟨sound.position_le, fun target whence => ?_, ?_, fun command moves => ?_, ?_⟩
  · intro seeking
    have sought : seeking = _ := perform_seek_offsetTo target whence now.1 now.2
    rw [sought]
    exact ⟨fun short => if_pos short, fun inside => if_neg (Int.not_lt.mpr inside)⟩
  · intro width whence offset position size narrow
    have aimed := whence.toInt_wordAim offset (position.setWidth 64) (size.setWidth 64)
    rw [BitVec.toNat_setWidth_of_le narrow, BitVec.toNat_setWidth_of_le narrow] at aimed
    exact ⟨aimed, whence.toNat_machineLanding? offset narrow position size⟩
  · exact perform_moves sound moves
  · exact fun loaded state more reader_sound obtains => positions_eq_bearings reader_sound obtains

/-- A reader that holds three bytes and has given out the first of them is moved to the end and
back, and reads on; it is moved alike if it holds nothing. -/
theorem seek_moves_exactly_held :
    let file := (Contents.ofArray #[10, 20, 30, 40]).inMemory
    let fresh : ChunkReader := ⟨1, 3, 0, none⟩
    let held : ChunkReader := ⟨1, 3, 1, some [20, 30, 40]⟩
    let vacant : ChunkReader := ⟨1, 3, 1, none⟩
    let more : List ReaderCommand :=
      [.seek 0 .fromEnd, .read 5, .seek (-2) .current, .read 1, .reset]
    let ended := Step.mk (.done (.number 3)) ({ held with position := 3 }, ()) []
    let refused := Step.mk (.failed (.chunk .negativeSeek)) (held, ()) []
    create 1 3 = .ok fresh ∧ fresh.afterAll file [.read 1] () = (held, ()) ∧
      held.perform file (.seek 9 .start) () = ended ∧
      held.perform file (.seek 8 .current) () = ended ∧
      held.perform file (.seek (-6) .fromEnd) () = ended ∧
      held.perform file (.seek (-1) .start) () = refused ∧
      held.perform file (.seek (-2) .current) () = refused ∧
      held.perform file (.seek 4 .fromEnd) () = refused ∧
      (Whence.fromEnd.machineLanding? (BitVec.intMin 64) (0#64) (BitVec.allOnes 64)).map
        BitVec.toNat = some lastOffset ∧
      held.Sound ∧ vacant.Sound ∧
      ObtainsAll file more held () ∧ ObtainsAll file more vacant () ∧
      held.positions file more () = [3, 3, 1, 2, 0] ∧
      vacant.positions file more () = [3, 3, 1, 2, 0] := by
  intro file fresh held vacant more ended refused
  have created : create 1 3 = .ok fresh := rfl
  have reached : fresh.afterAll file [.read 1] () = (held, ()) := by cbv
  obtain ⟨_, seeks, words, _, taken⟩ := seek_moves_exactly file created () [.read 1]
  simp only [reached] at seeks taken
  have named : Whence.current.offsetTo (-1) 1 3 = -2 ∧ Whence.fromEnd.offsetTo (-1) 1 3 = 4 := by
    decide
  have sound : held.Sound := ⟨by decide, fun _ same => by cases same; rfl, fun _ => by decide⟩
  have vacant_sound : vacant.Sound := sound_of_none rfl (by decide)
  have loads (state : Unit) : ∃ bytes, (file.load 1 3 state).outcome = .done bytes :=
    ⟨[20, 30, 40], by cbv⟩
  have obtains := obtainsAll_of_loads sound loads more ()
  have vacant_obtains := obtainsAll_of_loads vacant_sound loads more ()
  refine ⟨created, reached, (seeks 9 .start).2 (by decide), (seeks 9 .current).2 (by decide),
    (seeks 9 .fromEnd).2 (by decide), (seeks (-1) .start).1 (by decide),
    named.1 ▸ (seeks (-1) .current).1 (by decide), named.2 ▸ (seeks (-1) .fromEnd).1 (by decide),
    ?_, sound, vacant_sound, obtains, vacant_obtains, ?_, ?_⟩
  · rw [(words 64 .fromEnd (BitVec.intMin 64) 0#64 (BitVec.allOnes 64) (Nat.le_refl 64)).2]
    decide
  · exact (taken (some [20, 30, 40]) () more sound obtains).trans (by decide)
  · exact (taken none () more vacant_sound vacant_obtains).trans (by decide)

end ChunkReader
end BulkTransfer
