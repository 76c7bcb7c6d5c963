import BulkTransfer.Proofs.ChunkReader.Course
import BulkTransfer.Proofs.ChunkReader.Window

/-!
# Serving from loaded bytes

A chunk reader takes the whole chunk at once. From then on it works from these bytes alone,
whatever its file would answer by now, until it has given out the last of them or is told to let
them go.
-/

namespace BulkTransfer

/-- Number of bytes that a read from the position of a reader gives. -/
def ChunkReader.count (reader : ChunkReader) (room : Nat) : Nat :=
  min room (reader.length - reader.position)

namespace ReaderCommand

/-- Whether a command wants bytes of the chunk. -/
def wants (command : ReaderCommand) (reader : ChunkReader) : Bool :=
  match command with
  | prefetch => true
  | read _ | streamRead _ | streamToEnd => decide (reader.position < reader.length)
  | streamExact wanted => decide (0 < wanted ∧ reader.position < reader.length)
  | _ => false

/-- Whether a command has to load the chunk: it wants bytes, and they are not held. -/
def loads (command : ReaderCommand) (reader : ChunkReader) : Bool :=
  !reader.isLoaded && command.wants reader

/-- Whether a command is done with the bytes that are held: it gives bytes up to the last one, or
is told to let go. -/
def finishes (command : ReaderCommand) (reader : ChunkReader) : Bool :=
  match command with
  | close => true
  | read room | streamRead room | streamExact room =>
      decide (0 < reader.count room ∧ reader.position + reader.count room = reader.length)
  | streamToEnd => decide (reader.position < reader.length)
  | _ => false

/-- How a command is answered from the bytes of the chunk and the position in it, if it is about
them. -/
def answer? (command : ReaderCommand) (bytes : Bytes) (position : Nat) :
    Option (Outcome Fault Answer) :=
  match command with
  | prefetch => some (.done .nothing)
  | read room =>
      some (.done (.portion ((bytes.drop position).take room) (bytes.length ≤ position + room)))
  | streamRead room => some (.done (.stream ((bytes.drop position).take room)))
  | streamExact wanted =>
      if wanted ≤ bytes.length - position then
        some (.done (.exact ((bytes.drop position).take wanted)))
      else
        some (.failed (.io ChunkReader.endedEarly))
  | streamToEnd => some (.done (.stream (bytes.drop position)))
  | _ => none

/-- Commands that only move want no bytes, are done with none, and are not about them. -/
theorem of_onlyMoves {command : ReaderCommand} (moves : command.onlyMoves = true)
    (reader : ChunkReader) (bytes : Bytes) (position : Nat) :
    command.wants reader = false ∧ command.finishes reader = false ∧
      command.answer? bytes position = none := by
  cases command with
  | prefetch | read _ | streamRead _ | streamExact _ | streamToEnd | close | file _ => cases moves
  | _ => exact ⟨rfl, rfl, rfl⟩

end ReaderCommand

namespace ChunkReader

variable {σ : Type} {file : File σ} {reader : ChunkReader} {source : σ} {bytes : Bytes}

/-- A reader that gives out these bytes: it stands at their end, or holds them, or would load them
now. -/
structure Serves (file : File σ) (reader : ChunkReader) (source : σ) (bytes : Bytes) : Prop where
  /-- The reader stands within its range. -/
  inside : reader.position ≤ reader.length
  /-- The bytes are as many as the range has. -/
  whole : bytes.length = reader.length
  /-- Whatever is left to give out is given out of these bytes. -/
  ready : reader.position < reader.length →
    (reader.ensureLoaded file source).outcome = .done bytes

theorem serves_of_ensureLoaded (sound : reader.Sound)
    (done : (reader.ensureLoaded file source).outcome = .done bytes) :
    reader.Serves file source bytes := by
  have holder := (course_ensureLoaded file source reader).sound sound
  rw [loaded_of_ensureLoaded file source done] at holder
  exact ⟨sound.position_le, holder.whole bytes rfl, fun _ => done⟩

/-- What a reader holds after a number of the bytes it serves were given out. -/
def kept (reader : ChunkReader) (bytes : Bytes) (count : Nat) : Option Bytes :=
  if reader.length ≤ reader.position then reader.loaded
  else if reader.position + count = reader.length then none
  else some bytes

/-- A reader that has loaded its chunk gives bytes out of it, and lets go of it with the last. -/
theorem advance_of_loaded {count : Nat} (before : reader.position < reader.length)
    (inside : reader.position + count ≤ reader.length) :
    ({ reader with loaded := some bytes }.advance count).1 =
      { reader with position := reader.position + count, loaded := reader.kept bytes count } := by
  rw [kept, if_neg (Nat.not_le.mpr before)]
  rcases advance_cases { reader with loaded := some bytes } count with
    ⟨ended, step⟩ | ⟨more, step⟩ <;> rw [step]
  · rw [if_pos (Nat.le_antisymm inside ended)]
    rfl
  · rw [if_neg (Nat.ne_of_lt more)]

theorem count_le (inside : reader.position ≤ reader.length) (room : Nat) :
    reader.position + reader.count room ≤ reader.length := by
  rw [count]
  omega

/-- A read gives out bytes from the position on, and keeps the others. -/
theorem Serves.read (serves : reader.Serves file source bytes) (buffer : Bytes) :
    let reading := reader.read file buffer source
    let count := reader.count buffer.length
    reading.outcome = .done ⟨count, bytes.length ≤ reader.position + buffer.length⟩ ∧
      reading.buffer = overlay ((bytes.drop reader.position).take buffer.length) buffer ∧
      reading.state.1 =
        { reader with position := reader.position + count, loaded := reader.kept bytes count } ∧
      reading.state.1.Serves file reading.state.2 bytes := by
  intro reading count
  have whole := serves.whole
  have inside : reader.position + count ≤ reader.length := count_le serves.inside buffer.length
  have given : ((bytes.drop reader.position).take buffer.length).length = count := by
    rw [List.length_take, List.length_drop, whole]
    rfl
  rcases Nat.lt_or_ge reader.position reader.length with before | ended
  · have done := serves.ready before
    have holder := loaded_of_ensureLoaded file source done
    rcases read_of_before file reader source buffer before with
      ⟨loaded, loads, step⟩ | ⟨_, fails, _⟩ | ⟨_, aborts, _⟩
    · cases loads.symm.trans done
      have advanced : ({ reader with loaded := some bytes }.advance count).1 =
          { reader with position := reader.position + count, loaded := reader.kept bytes count } :=
        advance_of_loaded before inside
      simp only [given, holder] at step
      have reads : reading = _ := step
      have all_given : reader.length ≤ reader.position + count ↔
          bytes.length ≤ reader.position + buffer.length := by
        simp only [count, ChunkReader.count]
        omega
      rw [reads, advanced]
      refine ⟨?_, rfl, rfl, inside, whole, fun more => ?_⟩
      · simp only [all_given]
      · have left : reader.kept bytes count = some bytes := by
          rw [kept, if_neg (Nat.not_le.mpr before), if_neg (Nat.ne_of_lt more)]
        rw [ensureLoaded_of_some file _ _ left]
    · cases fails.symm.trans done
    · cases aborts.symm.trans done
  · have none_left : count = 0 := by
      simp only [count, ChunkReader.count]
      omega
    have all_given : bytes.length ≤ reader.position + buffer.length := by omega
    have nothing := List.length_eq_zero_iff.mp (given.trans none_left)
    have step : reading = .leaving (.done ⟨0, true⟩) buffer (reader, source) :=
      read_of_end file reader source buffer ended
    rw [step, none_left, nothing, overlay_nil, kept, if_pos ended]
    exact ⟨by simp [Transfer.leaving, all_given], rfl, rfl, serves⟩

theorem Serves.take_count (serves : reader.Serves file source bytes) (room : Nat) :
    (bytes.drop reader.position).take (reader.count room) =
      (bytes.drop reader.position).take room := by
  rw [count, ← serves.whole, ← List.length_drop, ← List.take_take, List.take_length]

theorem Serves.delivered (serves : reader.Serves file source bytes) (room : Nat) :
    (reader.read file (List.replicate room 0) source).buffer.take (reader.count room) =
      (bytes.drop reader.position).take room := by
  obtain ⟨_, buffer, _⟩ := serves.read (List.replicate room 0)
  rw [List.length_replicate] at buffer
  rw [buffer]
  refine take_overlay ?_ ?_
  · rw [List.length_take, List.length_drop, serves.whole]
    rfl
  · rw [List.length_replicate]
    exact Nat.min_le_left _ _

theorem Serves.streamRead_done (serves : reader.Serves file source bytes) (buffer : Bytes) :
    (reader.streamRead file buffer source).outcome = .done (reader.count buffer.length) := by
  rw [outcome_streamRead, (serves.read buffer).1]
  rfl

theorem kept_add (bytes : Bytes) (first second : Nat)
    (inside : reader.position + (first + second) ≤ reader.length) :
    { reader with
      position := reader.position + first
      loaded := reader.kept bytes first }.kept bytes second =
      reader.kept bytes (first + second) := by
  simp only [kept]
  by_cases ended : reader.length ≤ reader.position
  · rw [if_pos ended, if_pos (by omega), if_pos ended]
  · rw [if_neg ended, if_neg ended]
    by_cases all_first : reader.length ≤ reader.position + first
    · rw [if_pos all_first, if_pos (by omega), if_pos (by omega)]
    · rw [if_neg all_first, Nat.add_assoc]

/-- How a demand is met from the bytes that are left. -/
def Demand.serve : Demand → Bytes → Outcome IoError Bytes
  | exactly wanted, left =>
      if wanted ≤ left.length then .done (left.take wanted) else .failed endedEarly
  | blocks _, left => .done left

/-- Number of bytes that a demand takes of so many that are left. -/
def Demand.taken : Demand → Nat → Nat
  | exactly wanted, left => min wanted left
  | blocks _, left => left

theorem Demand.taken_le (demand : Demand) (left : Nat) : demand.taken left ≤ left := by
  cases demand with
  | exactly wanted => exact Nat.min_le_right _ _
  | blocks length => exact Nat.le_refl _

theorem Demand.taken_past (demand : Demand) {count left : Nat}
    (given : count = min demand.room left) :
    demand.taken left = count + (demand.past count).taken (left - count) := by
  cases demand with
  | exactly wanted =>
      simp only [taken, past, room] at given ⊢
      omega
  | blocks length =>
      simp only [taken, past, room] at given ⊢
      omega

theorem Demand.serve_past (demand : Demand) {count : Nat} {left : Bytes}
    (given : count = min demand.room left.length) :
    demand.serve left =
      ((demand.past count).serve (left.drop count)).map (left.take count ++ ·) := by
  cases demand with
  | exactly wanted =>
      simp only [serve, past, room, List.length_drop] at given ⊢
      by_cases enough : wanted ≤ left.length
      · have all_given : count = wanted := by omega
        simp [all_given, if_pos enough]
      · rw [if_neg enough, if_neg (by omega)]
        rfl
  | blocks length => simp [serve, past]

theorem Demand.serve_nil {demand : Demand} (wanted : demand ≠ .exactly 0) :
    demand.serve [] = demand.close (.done 0) := by
  cases demand with
  | exactly more =>
      have positive : more ≠ 0 := fun none_wanted => wanted (congrArg exactly none_wanted)
      exact if_neg (by simpa using positive)
  | blocks length => rfl

/-- A demand is met from the bytes that are left, by as many reads as it takes. -/
theorem Serves.gather (serves : reader.Serves file source bytes) {demand : Demand}
    (roomy : demand.Roomy) :
    (reader.gather file demand source).outcome = demand.serve (bytes.drop reader.position) ∧
      (reader.gather file demand source).state.1 =
        { reader with
          position := reader.position + demand.taken (reader.length - reader.position)
          loaded :=
            if demand = .exactly 0 then reader.loaded
            else reader.kept bytes (demand.taken (reader.length - reader.position)) } := by
  have whole := serves.whole
  fun_induction ChunkReader.gather file demand reader source with
  | case1 reader source => simp [Demand.serve, Demand.taken]
  | case2 demand reader source wanted reading count given ih =>
      obtain ⟨_, _, moves, later⟩ := serves.read (List.replicate demand.room 0)
      have done := serves.streamRead_done (List.replicate demand.room 0)
      have delivered := serves.delivered demand.room
      rw [List.length_replicate] at moves done
      have some_given : reader.count demand.room = count + 1 :=
        Outcome.done.inj (done.symm.trans given)
      rw [some_given] at moves delivered
      obtain ⟨outcome, state⟩ := ih later (roomy.past _) later.whole
      have taken := demand.taken_past some_given.symm
      have bound := demand.taken_le (reader.length - reader.position)
      have inside := serves.inside
      have remaining : reader.length - (reader.position + (count + 1)) =
          reader.length - reader.position - (count + 1) := Nat.sub_add_eq _ _ _
      change reading.state.1 = _ at moves
      change reading.buffer.take (count + 1) = _ at delivered
      rw [moves] at outcome state
      simp only [remaining] at state
      constructor
      · have all_given : count + 1 = min demand.room (bytes.drop reader.position).length := by
          rw [List.length_drop, whole]
          exact some_given.symm
        rw [demand.serve_past all_given, List.drop_drop, ← outcome, ← moves]
        simp only [Step.after, Step.map, Step.mapOutcome, delivered]
        rw [← serves.take_count, some_given]
      · simp only [Step.after, Step.map, Step.mapOutcome]
        rw [moves, state, if_neg wanted, taken, Nat.add_assoc]
        congr 1
        split
        · next enough =>
            rw [enough]
            rfl
        · exact reader.kept_add bytes (count + 1) _ (by omega)
  | case3 demand reader source wanted reading ended =>
      obtain ⟨_, _, moves, _⟩ := serves.read (List.replicate demand.room 0)
      have done := serves.streamRead_done (List.replicate demand.room 0)
      have inside := serves.inside
      rw [List.length_replicate] at moves done
      have none_given : reader.count demand.room = 0 := by
        cases some_given : reader.count demand.room with
        | zero => rfl
        | succ count => exact absurd (done.trans (congrArg _ some_given)) (ended count)
      have at_end : reader.length - reader.position = 0 := by
        have some_room := roomy wanted
        rw [ChunkReader.count] at none_given
        omega
      have none_left : bytes.drop reader.position = [] :=
        List.drop_of_length_le (by omega)
      have none_taken : demand.taken 0 = 0 := Nat.le_zero.mp (demand.taken_le 0)
      rw [none_given] at done moves
      rw [none_left, Demand.serve_nil wanted, at_end, none_taken, if_neg wanted]
      exact ⟨congrArg demand.close done, moves⟩

/-- Bytes are at hand for a command: they are held, or the command loads them. -/
def AtHand (file : File σ) (command : ReaderCommand) (reader : ChunkReader) (source : σ)
    (bytes : Bytes) : Prop :=
  reader.loaded = some bytes ∨ command.loads reader = true ∧
    (file.load reader.offset reader.length source).outcome = .done bytes

variable {command : ReaderCommand}

theorem AtHand.ensureLoaded (at_hand : AtHand file command reader source bytes) :
    (reader.ensureLoaded file source).outcome = .done bytes := by
  rcases at_hand with held | ⟨loads, done⟩
  · rw [ensureLoaded_of_some file reader source held]
  · have vacant : reader.loaded = none := by
      rw [ReaderCommand.loads, Bool.and_eq_true] at loads
      simpa [isLoaded] using loads.1
    rcases ensureLoaded_of_none file reader source vacant with
      ⟨_, loading, step⟩ | ⟨_, loading, _⟩ | ⟨_, loading, _⟩
    · rw [step, ← done, loading]
    · cases loading.symm.trans done
    · cases loading.symm.trans done

theorem AtHand.held_of_not_wants (at_hand : AtHand file command reader source bytes)
    (modest : command.wants reader = false) : reader.loaded = some bytes := by
  refine at_hand.resolve_right fun loading => ?_
  rw [ReaderCommand.loads, modest, Bool.and_false] at loading
  exact absurd loading.1 (by decide)

theorem kept_count (inside : reader.position ≤ reader.length) (room : Nat)
    (held : reader.length ≤ reader.position → reader.loaded = some bytes) :
    reader.kept bytes (reader.count room) =
      if 0 < reader.count room ∧ reader.position + reader.count room = reader.length then none
      else some bytes := by
  rw [kept]
  rcases Nat.lt_or_ge reader.position reader.length with before | ended
  · rw [if_neg (Nat.not_le.mpr before)]
    by_cases all_read : reader.position + reader.count room = reader.length
    · rw [if_pos all_read, if_pos ⟨by omega, all_read⟩]
    · rw [if_neg all_read, if_neg fun both => all_read both.2]
  · have none_left : reader.count room = 0 := by
      rw [count]
      omega
    rw [if_pos ended, held ended, if_neg (by omega)]

/-- A command that the bytes of the chunk are at hand for is answered from them, and leaves them
held unless it is done with them. -/
theorem perform_of_atHand (sound : reader.Sound) (own : command.asksFile = false)
    (at_hand : AtHand file command reader source bytes) :
    (∀ outcome, command.answer? bytes reader.position = some outcome →
        (reader.perform file command source).outcome = outcome) ∧
      (reader.perform file command source).state.1.loaded =
        if command.finishes reader then none else some bytes := by
  have ensured := at_hand.ensureLoaded
  have serves := serves_of_ensureLoaded sound ensured
  have inside := serves.inside
  cases moves : command.onlyMoves with
  | true =>
      obtain ⟨_, state, _⟩ := perform_of_onlyMoves file source inside moves
      obtain ⟨modest, lasting, apart⟩ :=
        ReaderCommand.of_onlyMoves moves reader bytes reader.position
      rw [apart, lasting, state]
      exact ⟨by simp, at_hand.held_of_not_wants modest⟩
  | false =>
      cases command with
      | prefetch =>
          have holder := loaded_of_ensureLoaded file source ensured
          refine ⟨?_, congrArg ChunkReader.loaded holder⟩
          rintro _ ⟨⟩
          simp [perform, prefetch, Step.map, Step.mapError, Step.mapOutcome, ensured]
      | read room | streamRead room =>
          obtain ⟨outcome, _, state, _⟩ := serves.read (List.replicate room 0)
          have left := reader.kept_count inside room fun ended =>
            at_hand.held_of_not_wants (by simpa [ReaderCommand.wants] using ended)
          rw [List.length_replicate] at outcome state
          refine ⟨?_, (congrArg ChunkReader.loaded state).trans ?_⟩
          · rintro _ ⟨⟩
            simp [perform, Step.map, Step.mapError, Step.mapOutcome, outcome, serves.delivered room]
          · simpa [ReaderCommand.finishes] using left
      | streamExact wanted =>
          obtain ⟨outcome, state⟩ := serves.gather (Demand.roomy_exactly wanted)
          refine ⟨?_, (congrArg ChunkReader.loaded state).trans ?_⟩
          · intro answer answered
            apply Option.some.inj
            rw [← answered, ReaderCommand.answer?, ← List.length_drop]
            simp only [perform, streamExact, Step.map, Step.mapError, Step.mapOutcome, outcome,
              Demand.serve]
            split <;> rfl
          · rcases Nat.eq_zero_or_pos wanted with rfl | positive
            · simpa [ReaderCommand.finishes, count] using at_hand.held_of_not_wants rfl
            · have left := reader.kept_count inside wanted fun ended =>
                at_hand.held_of_not_wants (by simp [ReaderCommand.wants, Nat.not_lt.mpr ended])
              rw [if_neg (Demand.exactly_ne_zero positive)]
              exact left.trans (by simp [ReaderCommand.finishes])
      | streamToEnd =>
          have some_room : 0 < blockLength := by decide
          obtain ⟨outcome, state⟩ := serves.gather (Demand.roomy_blocks some_room)
          refine ⟨?_, (congrArg ChunkReader.loaded state).trans ?_⟩
          · rintro _ ⟨⟩
            simp [perform, streamToEnd, drain, Step.map, Step.mapError, Step.mapOutcome, outcome,
              Demand.serve]
          · rcases Nat.lt_or_ge reader.position reader.length with before | ended
            · have all_taken := Nat.add_sub_of_le inside
              simp [ReaderCommand.finishes, before, Nat.not_le.mpr before, kept, Demand.taken,
                all_taken]
            · have held := at_hand.held_of_not_wants (by simpa [ReaderCommand.wants] using ended)
              simp [ReaderCommand.finishes, ended, Nat.not_lt.mpr ended, held, kept]
      | close =>
          rw [perform_close]
          exact ⟨by simp [ReaderCommand.answer?], loaded_release reader⟩
      | file request => cases own
      | _ => cases moves

theorem ensureLoaded_of_nothing (vacant : reader.loaded = none)
    (failing : ∀ bytes, (reader.ensureLoaded file source).outcome ≠ .done bytes) :
    (reader.ensureLoaded file source).state.1 = reader := by
  rcases ensureLoaded_of_none file reader source vacant with
    ⟨bytes, _, step⟩ | ⟨_, _, step⟩ | ⟨_, _, step⟩
  · exact absurd (congrArg Step.outcome step) (failing bytes)
  · rw [step]
  · rw [step]

theorem read_of_nothing (vacant : reader.loaded = none)
    (failing : reader.position < reader.length →
      ∀ bytes, (reader.ensureLoaded file source).outcome ≠ .done bytes) (buffer : Bytes) :
    (reader.read file buffer source).state.1.loaded = none ∧
      ∀ count, (reader.streamRead file buffer source).outcome ≠ .done (count + 1) := by
  rw [outcome_streamRead]
  rcases Nat.lt_or_ge reader.position reader.length with before | ended
  · have still := ensureLoaded_of_nothing vacant (failing before)
    rcases read_of_before file reader source buffer before with
      ⟨_, done, _⟩ | ⟨_, _, step⟩ | ⟨_, _, step⟩
    · exact absurd done (failing before _)
    · rw [step, still]
      exact ⟨vacant, by simp⟩
    · rw [step, still]
      exact ⟨vacant, by simp⟩
  · rw [read_of_end file reader source buffer ended]
    exact ⟨vacant, by simp [Transfer.leaving]⟩

theorem gather_of_nothing (vacant : reader.loaded = none) {demand : Demand}
    (failing : demand ≠ .exactly 0 → reader.position < reader.length →
      ∀ bytes, (reader.ensureLoaded file source).outcome ≠ .done bytes) :
    (reader.gather file demand source).state.1.loaded = none := by
  by_cases met : demand = .exactly 0
  · rw [met, gather_exactly_zero]
    exact vacant
  · obtain ⟨left, no_bytes⟩ :=
      read_of_nothing vacant (failing met) (List.replicate demand.room 0)
    rw [gather_of_ended met no_bytes]
    exact left

/-- Loading gives nothing to a command that wants bytes and has none at hand. -/
theorem ensureLoaded_of_not_atHand (vacant : reader.loaded = none)
    (nothing : ∀ bytes, ¬ AtHand file command reader source bytes)
    (wants : command.wants reader = true) :
    ∀ bytes, (reader.ensureLoaded file source).outcome ≠ .done bytes := by
  intro bytes done
  have loads : command.loads reader = true := by
    simp [ReaderCommand.loads, isLoaded, vacant, wants]
  rcases ensureLoaded_of_none file reader source vacant with
    ⟨_, loading, step⟩ | ⟨_, _, step⟩ | ⟨_, _, step⟩ <;> rw [step] at done <;> cases done
  exact nothing bytes (.inr ⟨loads, loading⟩)

/-- A command that bytes are not at hand for leaves nothing held. -/
theorem perform_of_not_atHand (sound : reader.Sound) (own : command.asksFile = false)
    (nothing : ∀ bytes, ¬ AtHand file command reader source bytes) :
    (reader.perform file command source).state.1.loaded = none := by
  have vacant : reader.loaded = none :=
    Option.eq_none_iff_forall_ne_some.mpr fun bytes held => nothing bytes (.inl held)
  have failing := ensureLoaded_of_not_atHand vacant nothing
  cases moves : command.onlyMoves with
  | true =>
      obtain ⟨_, state, _⟩ := perform_of_onlyMoves file source sound.position_le moves
      rw [state]
      exact vacant
  | false =>
      cases command with
      | prefetch =>
          have still := ensureLoaded_of_nothing vacant (failing rfl)
          exact (congrArg ChunkReader.loaded still).trans vacant
      | read room | streamRead room =>
          refine (read_of_nothing vacant (fun before => failing ?_) (List.replicate room 0)).1
          simpa [ReaderCommand.wants] using before
      | streamExact wanted =>
          refine gather_of_nothing vacant fun some_wanted before => failing ?_
          have positive : 0 < wanted := Demand.roomy_exactly wanted some_wanted
          simp [ReaderCommand.wants, positive, before]
      | streamToEnd =>
          refine gather_of_nothing vacant fun _ before => failing ?_
          simpa [ReaderCommand.wants] using before
      | close =>
          rw [perform_close]
          exact loaded_release reader
      | file request => cases own
      | _ => cases moves

end ChunkReader
end BulkTransfer
