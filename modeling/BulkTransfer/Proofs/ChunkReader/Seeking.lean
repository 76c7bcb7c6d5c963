import BulkTransfer.File.Stored
import BulkTransfer.Proofs.ChunkReader.Course
import BulkTransfer.Proofs.ChunkReader.Window

/-!
# Where seeks end

A stream seek ends where it aims, or on the end of the chunk if it aims past it. Positions from the
start pass through a signed offset, though. In a chunk longer than the greatest of them, no such
seek ends further than there, and asking for the length finds no way back from beyond.
-/

namespace BulkTransfer

namespace SeekTarget

/-- Whether the target is a position from the start that no signed offset can name. -/
def isFar : SeekTarget → Bool
  | start position => decide (signedMax < position)
  | current _ | fromEnd _ => false

/-- Where a stream seek ends if it does not aim before the start: at its aim or on the end, but at
the greatest signed offset if the target is far and the end lies beyond that as well. -/
def landing (target : SeekTarget) (position length : Nat) : Nat :=
  if target.isFar ∧ signedMax < length then signedMax
  else min (target.aim position length).toNat length

theorem aim_split_neg_iff (target : SeekTarget) (position length : Nat) :
    target.split.2.aim target.split.1 position length < 0 ↔ target.aim position length < 0 := by
  cases target with
  | start aimed =>
      simp only [split, Whence.aim, aim]
      omega
  | current offset => rfl
  | fromEnd offset => rfl

/-- A far target is cut to the greatest signed offset when it is split, which shows only if the end
lies beyond that. -/
theorem landing_eq (target : SeekTarget) (position length : Nat) :
    min (target.split.2.aim target.split.1 position length).toNat length =
      target.landing position length := by
  cases target with
  | start aimed =>
      simp only [split, Whence.aim, landing, isFar, aim, decide_eq_true_eq]
      split <;> omega
  | current offset => rfl
  | fromEnd offset => rfl

theorem lt_aim_of_isFar {target : SeekTarget} (far : target.isFar = true) (position length : Nat) :
    (signedMax : Int) < target.aim position length := by
  cases target with
  | start aimed => exact Int.ofNat_lt.mpr (of_decide_eq_true far)
  | current offset => cases far
  | fromEnd offset => cases far

/-- A seek ends where it aims or on the end exactly if its target is not cut before. -/
theorem landing_eq_min_iff (target : SeekTarget) (position length : Nat) :
    target.landing position length = min (target.aim position length).toNat length ↔
      target.isFar = false ∨ length ≤ signedMax := by
  rw [landing]
  split
  · next cut =>
      have beyond := lt_aim_of_isFar cut.1 position length
      refine iff_of_false (by omega) ?_
      rintro (near | short)
      · exact Bool.false_ne_true (near.symm.trans cut.1)
      · exact Nat.not_le.mpr cut.2 short
  · next uncut =>
      refine iff_of_true rfl ?_
      cases far : target.isFar with
      | false => exact .inl rfl
      | true => exact .inr (Nat.le_of_not_lt fun long => uncut ⟨far, long⟩)

end SeekTarget

namespace ChunkReader

variable {σ : Type}

/-- A stream seek fails exactly if it aims before the start, and otherwise moves where it lands. -/
theorem streamSeek_cases (reader : ChunkReader) (target : SeekTarget) :
    (target.aim reader.position reader.length < 0 ∧
      reader.streamSeek target =
        (.error (.wrapping .invalidInput (.chunk .seek .negativeSeek)), reader)) ∨
    (0 ≤ target.aim reader.position reader.length ∧
      let reached := target.landing reader.position reader.length
      reader.streamSeek target = (.ok reached, { reader with position := reached })) := by
  have sought : reader.streamSeek target =
      ((seek target.split.1 target.split.2 reader).1.mapError ChunkError.toIoError,
        (seek target.split.1 target.split.2 reader).2) := rfl
  have sign := target.aim_split_neg_iff reader.position reader.length
  rcases seek_cases reader target.split.1 target.split.2 with ⟨short, step⟩ | ⟨inside, step⟩
  · refine .inl ⟨sign.mp short, ?_⟩
    rw [sought, step]
    rfl
  · refine .inr ⟨Int.not_lt.mp fun short => Int.not_lt.mpr inside (sign.mpr short), ?_⟩
    rw [sought, step, target.landing_eq]
    rfl

/-- In a chunk that can be held, a stream seek ends where it aims or on the end. -/
theorem streamSeek_cases_of_fits {reader : ChunkReader} (target : SeekTarget)
    (fits : reader.length ≤ signedMax) :
    (target.aim reader.position reader.length < 0 ∧
      reader.streamSeek target =
        (.error (.wrapping .invalidInput (.chunk .seek .negativeSeek)), reader)) ∨
    (0 ≤ target.aim reader.position reader.length ∧
      let reached := min (target.aim reader.position reader.length).toNat reader.length
      reader.streamSeek target = (.ok reached, { reader with position := reached })) := by
  have ends := reader.streamSeek_cases target
  rwa [(target.landing_eq_min_iff reader.position reader.length).mpr (.inr fits)] at ends

theorem sound_afterAll (file : File σ) {offset length : Nat} {fresh : ChunkReader}
    (created : create offset length = .ok fresh) (source : σ) (commands : List ReaderCommand) :
    (fresh.afterAll file commands source).1.Sound ∧
      (fresh.afterAll file commands source).1.length = length := by
  have fresh_sound := sound_of_create created
  obtain ⟨_, course⟩ := exists_course_afterAll file source commands fresh_sound
  refine ⟨course.sound fresh_sound, course.same_range.2.trans ?_⟩
  rw [create] at created
  split at created <;> cases created
  rfl

/-- Whatever was done with a reader of a chunk of any length, a stream seek fails exactly if it aims
before the start, and then changes nothing. Otherwise it only moves the reader, to where it aims or
to the end; unless the target is far and the chunk is longer than the greatest signed offset, for
then it ends at that. So a position that was told is found again exactly if it is no greater. -/
theorem streamSeek_exact (file : File σ) {offset length : Nat} {fresh : ChunkReader}
    (created : create offset length = .ok fresh) (source : σ) (commands : List ReaderCommand) :
    let now := fresh.afterAll file commands source
    (∀ target : SeekTarget,
      let seeking := now.1.perform file (.streamSeek target) now.2
      let aim := target.aim now.1.position length
      ((∃ fault, seeking.outcome = .failed fault) ↔ aim < 0) ∧
      (aim < 0 → seeking =
        ⟨.failed (.io (.wrapping .invalidInput (.chunk .seek .negativeSeek))), now, []⟩) ∧
      (0 ≤ aim → ∃ position,
        seeking = ⟨.done (.number position), ({ now.1 with position }, now.2), []⟩ ∧
        (position = min aim.toNat length ↔ target.isFar = false ∨ length ≤ signedMax) ∧
        (target.isFar = true → signedMax < length → position = signedMax))) ∧
    (now.1.perform file .streamPosition now.2).outcome = .done (.number now.1.position) ∧
    ∀ more,
      let later := now.1.afterAll file more now.2
      ((later.1.perform file (.streamSeek (.start now.1.position)) later.2).outcome =
          .done (.number now.1.position) ↔
        now.1.position ≤ signedMax) := by
  intro now
  obtain ⟨sound, same_length⟩ : now.1.Sound ∧ now.1.length = length :=
    sound_afterAll file created source commands
  have inside := sound.position_le
  subst same_length
  refine ⟨fun target => ?_, ?_, fun more => ?_⟩
  · intro seeking aim
    rcases now.1.streamSeek_cases target with ⟨short, step⟩ | ⟨forward, step⟩
    · have refused : seeking = _ := congrArg (apart .io .number now.2) step
      rw [refused]
      refine ⟨iff_of_true ⟨_, rfl⟩ short, fun _ => rfl, fun forward => ?_⟩
      exact absurd short (Int.not_lt.mpr forward)
    · have lands : seeking = _ := congrArg (apart .io .number now.2) step
      have not_short : ¬ aim < 0 := Int.not_lt.mpr forward
      rw [lands]
      refine ⟨iff_of_false (fun ⟨_, failed⟩ => nomatch failed) not_short,
        fun short => absurd short not_short, fun _ => ⟨_, rfl, ?_, ?_⟩⟩
      · exact target.landing_eq_min_iff _ _
      · exact fun far long => if_pos ⟨far, long⟩
  · have told : now.1.streamSeek (.current 0) = (.ok now.1.position, now.1) := by
      simp only [streamSeek, SeekTarget.split, seek_current_zero inside]
      rfl
    rw [perform, told]
    rfl
  · intro later
    obtain ⟨_, course⟩ := exists_course_afterAll file now.2 more sound
    have still : later.1.length = now.1.length := course.same_range.2
    rw [perform, streamSeek_start, still]
    simp only [apart, Outcome.done.injEq, Answer.number.injEq]
    omega

/-- Seeks from one byte before the end of the longest chunk there is: all others end where they aim
or on the end, but one to a far position falls short of it. -/
theorem streamSeek_exact_longest :
    let file := (Contents.ofArray #[]).inMemory
    let fresh : ChunkReader := ⟨0, lastOffset, 0, none⟩
    let now := fresh.afterAll file [.seek 1 .fromEnd] ()
    create 0 lastOffset = .ok fresh ∧ now.1.position = lastOffset - 1 ∧
      now.1.perform file (.streamSeek (.fromEnd (-5))) now.2 =
        ⟨.done (.number lastOffset), ({ now.1 with position := lastOffset }, now.2), []⟩ ∧
      (∃ fault, (now.1.perform file (.streamSeek (.current (-lastOffset))) now.2).outcome =
        .failed fault) ∧
      (now.1.perform file (.streamSeek (.start (lastOffset - 1))) now.2).outcome ≠
        .done (.number (lastOffset - 1)) := by
  intro file fresh now
  have created : create 0 lastOffset = .ok fresh := rfl
  obtain ⟨seeks, _, again⟩ := streamSeek_exact file created () [.seek 1 .fromEnd]
  have stands : now.1.position = lastOffset - 1 := by decide
  refine ⟨created, stands, ?_, ?_, ?_⟩
  · obtain ⟨position, step, exact_iff, _⟩ := (seeks (.fromEnd (-5))).2.2 (by decide)
    have ends : position = lastOffset := exact_iff.mpr (.inl rfl)
    subst ends
    exact step
  · exact (seeks (.current (-lastOffset))).1.mpr (by decide)
  · intro found
    rw [← stands] at found
    exact absurd ((again []).mp found) (by decide)

/-- A position from the start that lies in the chunk is not reached if no signed offset can name it,
and neither is the end from a position past it. -/
theorem streamSeek_start_falls_short :
    let fresh : ChunkReader := ⟨0, lastOffset, 0, none⟩
    create 0 lastOffset = .ok fresh ∧ signedMax + 1 < lastOffset ∧
      fresh.streamSeek (.start (signedMax + 1)) =
        (.ok signedMax, { fresh with position := signedMax }) ∧
      fresh.streamSeek (.start lastOffset) =
        (.ok signedMax, { fresh with position := signedMax }) :=
  ⟨rfl, by decide, rfl, rfl⟩

/-- Whatever was done with a reader of a chunk of any length, asking for the length tells it and
changes nothing, exactly if no signed offset is needed for the way back or the position is one.
Otherwise asking fails and leaves the reader on its end, where nothing was held and nothing else has
changed. -/
theorem seekLength_kept_iff (file : File σ) {offset length : Nat} {fresh : ChunkReader}
    (created : create offset length = .ok fresh) (source : σ) (commands : List ReaderCommand) :
    let now := fresh.afterAll file commands source
    let asking := now.1.perform file .seekLength now.2
    (asking.state = now ↔ now.1.position ≤ signedMax ∨ now.1.position = length) ∧
    (∀ answer, asking.outcome = .done answer → answer = .number length ∧ asking.state = now) ∧
    (now.1.position ≤ signedMax ∨ now.1.position = length →
      asking = ⟨.done (.number length), now, []⟩) ∧
    (signedMax < now.1.position → now.1.position < length →
      now.1.loaded = none ∧
      asking = ⟨.failed (.chunk Seeker.positionTooLarge),
        ({ now.1 with position := length }, now.2), []⟩) := by
  intro now asking
  obtain ⟨sound, same_length⟩ : now.1.Sound ∧ now.1.length = length :=
    sound_afterAll file created source commands
  subst same_length
  rcases seekLength_cases sound.position_le with ⟨near, step⟩ | ⟨far, before, step⟩
  · have told : asking = _ := congrArg (apart .chunk .number now.2) step
    rw [told]
    refine ⟨iff_of_true rfl near.symm, fun answer done => ?_, fun _ => rfl, fun far before => ?_⟩
    · cases done
      exact ⟨rfl, rfl⟩
    · omega
  · have lost : asking = _ := congrArg (apart .chunk .number now.2) step
    have not_near : ¬ (now.1.position ≤ signedMax ∨ now.1.position = now.1.length) := by omega
    have vacant : now.1.loaded = none := by
      cases held : now.1.loaded with
      | none => rfl
      | some bytes =>
          have fits := sound.fits (by rw [isLoaded, held]; rfl)
          omega
    rw [lost]
    refine ⟨iff_of_false (fun same => ?_) not_near, fun answer done => ?_,
      fun near => absurd near not_near, fun _ _ => ⟨vacant, rfl⟩⟩
    · have moved : now.1.length = now.1.position := congrArg (·.1.position) same
      omega
    · cases done

/-- Asked one byte before the end of the longest chunk there is, a reader does not tell the length
and moves to the end; asked in the middle of a chunk that it holds, it tells the length and stays.
-/
theorem seekLength_kept_iff_longest :
    let file := (Contents.ofArray #[10, 20, 30]).inMemory
    let longest : ChunkReader := ⟨0, lastOffset, 0, none⟩
    let far := longest.afterAll file [.seek 1 .fromEnd] ()
    let short : ChunkReader := ⟨0, 3, 0, none⟩
    let held := short.afterAll file [.read 1] ()
    create 0 lastOffset = .ok longest ∧ create 0 3 = .ok short ∧
      far.1.position = lastOffset - 1 ∧
      (far.1.perform file .seekLength far.2).state.1.position = lastOffset ∧
      held.1 = ⟨0, 3, 1, some [10, 20, 30]⟩ ∧
      held.1.perform file .seekLength held.2 = ⟨.done (.number 3), held, []⟩ := by
  intro file longest far short held
  have created : create 0 lastOffset = .ok longest := rfl
  have created_short : create 0 3 = .ok short := rfl
  obtain ⟨_, _, _, moves⟩ := seekLength_kept_iff file created () [.seek 1 .fromEnd]
  obtain ⟨_, _, stays, _⟩ := seekLength_kept_iff file created_short () [.read 1]
  have stands : far.1.position = lastOffset - 1 := by decide
  have holds : held.1 = ⟨0, 3, 1, some [10, 20, 30]⟩ := by cbv
  have lost := (moves (by decide) (by decide)).2
  refine ⟨created, created_short, stands, ?_, holds, ?_⟩
  · exact congrArg (·.state.1.position) lost
  · exact stays (.inl (by rw [show (short.afterAll file [.read 1] ()).1 = _ from holds]; decide))

/-- A reader that cannot tell its length is not left where it stood. -/
theorem seekLength_moves_reader :
    let fresh : ChunkReader := ⟨0, lastOffset, 0, none⟩
    let far := (seek 1 .fromEnd fresh).2
    create 0 lastOffset = .ok fresh ∧ far = { fresh with position := lastOffset - 1 } ∧
      Seeker.length seek far =
        (.error Seeker.positionTooLarge, { fresh with position := lastOffset }) :=
  ⟨rfl, rfl, rfl⟩

end ChunkReader
end BulkTransfer
