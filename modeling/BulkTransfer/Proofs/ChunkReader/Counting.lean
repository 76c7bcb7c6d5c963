import BulkTransfer.Proofs.ChunkReader.Nesting
import BulkTransfer.Proofs.File.Counting

/-!
# Chunk readers that share a counter

Above a shared counter every command to a chunk reader goes as it does where amounts are only noted,
as long as the counter takes them; and the range of such a reader, which shares the counter with the
readers above it, is again a file that is read so.
-/

namespace BulkTransfer

variable {σ : Type} {counted : File (Shared σ)} {plain : File σ}

/-- Beside a counter a chunk is loaded as it is anyway. -/
theorem File.load_beside (file : File σ) (offset length : Nat) (counter : Counter) (source : σ) :
    file.beside.load offset length ⟨counter, source⟩ =
      (file.load offset length source).mapState (Shared.mk counter) := by
  simp only [load, fill_beside]
  split
  · rfl
  · obtain ⟨⟨read | error | cause, reached, events⟩, bytes⟩ :=
      file.fill offset (List.replicate length 0) source
    · simp only [Transfer.mapState]
      split <;> rfl
    · rfl
    · rfl

theorem File.Counts.load (counts : counted.Counts plain) (offset length : Nat) (counter : Counter)
    (source : σ) :
    (plain.load offset length source).Counted Shared.mk counter
      (counted.load offset length ⟨counter, source⟩) := by
  have filling := counts.fill offset (List.replicate length 0) counter source
  simp only [File.load]
  split
  · exact .of_silent rfl rfl
  · generalize plain.fill offset (List.replicate length 0) source = plain_filling,
      counted.fill offset (List.replicate length 0) ⟨counter, source⟩ = counted_filling
      at filling ⊢
    obtain ⟨⟨outcome, reached, events⟩, bytes⟩ := plain_filling
    by_cases taken : counter.Takes (Event.deltas events)
    · rw [filling.takes taken]
      cases outcome with
      | aborted | failed => exact ⟨fun _ => rfl, fun refused => absurd taken refused⟩
      | done read =>
          have short : Event.deltas (events ++ [.logged (.shortRead ⟨offset, length, read⟩)]) =
              Event.deltas events := by
            rw [Event.deltas_append]
            exact List.append_nil _
          dsimp only [Transfer.mapState]
          split
          · exact ⟨fun _ => rfl, fun refused => absurd taken refused⟩
          · refine ⟨fun _ => ?_, fun refused => absurd (short ▸ taken) refused⟩
            rw [short]
            rfl
    · obtain ⟨⟨_, shared, told⟩, buffer⟩ := counted_filling
      obtain ⟨cut, refused⟩ := filling.refuses taken
      cases cut
      refine .of_refused ?_ ⟨rfl, refused⟩
      cases outcome with
      | aborted | failed => exact taken
      | done read =>
          dsimp only
          split
          · exact taken
          · exact Counter.not_takes_append _ taken

/-- A command that was cut off by the byte counter, or a read of the file that it asked for. -/
def Outcome.TellsOverflow : Outcome Fault Answer → Prop
  | .done (.positioned outcome _) => outcome.Overflowed
  | outcome => outcome.Overflowed

instance Outcome.decidableOverflowed (outcome : Outcome IoError Nat) :
    Decidable outcome.Overflowed :=
  inferInstanceAs (Decidable (outcome = _))

instance Outcome.decidableTellsOverflow : (outcome : Outcome Fault Answer) →
    Decidable outcome.TellsOverflow
  | .done (.positioned outcome _) => inferInstanceAs (Decidable outcome.Overflowed)
  | .done .nothing | .done (.number _) | .done (.range _ _) | .done (.portion _ _)
  | .done (.stream _) | .done (.exact _) => isFalse nofun
  | .failed _ => isFalse nofun
  | .aborted cause =>
      decidable_of_iff (cause = .counterOverflow) (by simp [TellsOverflow, Overflowed])

theorem Outcome.Overflowed.tells (outcome : Outcome Fault Answer)
    (overflowed : outcome.Overflowed) :
    outcome.TellsOverflow := by
  cases overflowed
  rfl

namespace ChunkReader

/-- The same reader above a file that shares a counter. -/
def sharing (counter : Counter) (state : ChunkReader × σ) : ChunkReader × Shared σ :=
  (state.1, ⟨counter, state.2⟩)

/-- A reader that holds nothing takes hold of what it loads, if the counter takes its length then.
-/
theorem ensureLoaded_counting (file : File (Shared σ)) (reader : ChunkReader) (shared : Shared σ)
    (vacant : reader.loaded = none) :
    let loading := file.load reader.offset reader.length shared
    let sum : Shared σ :=
      { loading.state with counter := loading.state.counter.add reader.length }
    let attempt := reader.ensureLoaded file shared .counting
    (∃ bytes, loading.outcome = .done bytes ∧
      ((loading.state.counter.Fits reader.length ∧
        attempt =
          ⟨.done bytes, ((reader.hold bytes).1, sum), loading.events ++ (reader.hold bytes).2⟩) ∨
      (¬ loading.state.counter.Fits reader.length ∧
        attempt = ⟨.aborted .counterOverflow, (reader, sum),
          loading.events ++ [.tracked reader.length]⟩))) ∨
    ((∀ bytes, loading.outcome ≠ .done bytes) ∧
      attempt = ⟨loading.outcome, (reader, loading.state), loading.events⟩) := by
  simp only [ensureLoaded, vacant, hold]
  rcases file.load reader.offset reader.length shared with
    ⟨bytes | error | cause, reached, events⟩
  · refine .inl ⟨bytes, rfl, ?_⟩
    simp only [Tracker.hear_tracked_logged]
    by_cases fits : reached.counter.Fits reader.length
    · exact .inl ⟨fits, by simp only [if_pos fits]⟩
    · exact .inr ⟨fits, by simp only [if_neg fits]⟩
  · exact .inr ⟨by simp, rfl⟩
  · exact .inr ⟨by simp, rfl⟩

variable (counts : counted.Counts plain) (reader : ChunkReader) (counter : Counter) (source : σ)

include counts

theorem counted_ensureLoaded :
    (reader.ensureLoaded plain source).Counted sharing counter
      (reader.ensureLoaded counted ⟨counter, source⟩ .counting) := by
  have loading := counts.load reader.offset reader.length counter source
  cases held : reader.loaded with
  | some bytes =>
      simp only [ensureLoaded, held]
      exact .of_silent rfl rfl
  | none =>
      simp only [ensureLoaded, held, Tracker.hear_noting]
      generalize plain.load reader.offset reader.length source = plain_loading,
        counted.load reader.offset reader.length ⟨counter, source⟩ = counted_loading at loading ⊢
      obtain ⟨outcome, reached, events⟩ := plain_loading
      by_cases taken : counter.Takes (Event.deltas events)
      · rw [loading.takes taken]
        cases outcome with
        | failed | aborted => exact ⟨fun _ => rfl, fun refused => absurd taken refused⟩
        | done bytes =>
            have hearing := Tracker.counted_hear (ε := ChunkError) bytes (reader.hold bytes).2
              (counter.absorb (Event.deltas events)) reached
            rw [Tracker.hear_noting] at hearing
            dsimp only [Step.mapState]
            generalize Tracker.counting.hear bytes (reader.hold bytes).2 _ = heard at hearing ⊢
            refine ⟨fun all => ?_, fun refused => ?_⟩
            · rw [hearing.takes (Counter.takes_deltas_append.mp all).2]
              simp only [Step.mapState, Event.deltas_append, Counter.absorb_append]
              rfl
            · obtain ⟨_, shared, told⟩ := heard
              obtain ⟨cut, later⟩ := hearing.refuses fun all =>
                refused (Counter.takes_deltas_append.mpr ⟨taken, all⟩)
              cases cut
              exact ⟨rfl, fun all => later (Counter.takes_deltas_append.mp all).2⟩
      · obtain ⟨_, shared, told⟩ := counted_loading
        obtain ⟨cut, refused⟩ := loading.refuses taken
        cases cut
        refine .of_refused ?_ ⟨rfl, refused⟩
        cases outcome with
        | failed | aborted => exact taken
        | done bytes => exact Counter.not_takes_append _ taken

theorem counted_read (buffer : Bytes) :
    (reader.read plain buffer source).Counted sharing counter
      (reader.read counted buffer ⟨counter, source⟩ .counting) := by
  have loading := counted_ensureLoaded counts reader counter source
  simp only [read, Tracker.hear_noting]
  split
  · exact .of_silent rfl rfl
  · generalize reader.ensureLoaded plain source = plain_loading,
      reader.ensureLoaded counted ⟨counter, source⟩ .counting = counted_loading at loading ⊢
    obtain ⟨outcome, ⟨holder, reached⟩, events⟩ := plain_loading
    by_cases taken : counter.Takes (Event.deltas events)
    · rw [loading.takes taken]
      cases outcome with
      | failed | aborted => exact ⟨fun _ => rfl, fun refused => absurd taken refused⟩
      | done bytes =>
          dsimp only [Step.mapState, sharing]
          generalize holder.advance _ = advanced
          have hearing := Tracker.counted_hear (ε := ChunkError)
            (Portion.mk (List.take buffer.length (bytes.drop reader.position)).length
              (reader.length ≤ advanced.1.position)) advanced.2
            (counter.absorb (Event.deltas events)) reached
          rw [Tracker.hear_noting] at hearing
          generalize Tracker.counting.hear _ advanced.2 _ = heard at hearing ⊢
          refine ⟨fun all => ?_, fun refused => ?_⟩
          · rw [hearing.takes (Counter.takes_deltas_append.mp all).2]
            simp only [Step.mapState, Transfer.mapState, sharing, Event.deltas_append,
              Counter.absorb_append]
          · obtain ⟨cut, later⟩ := hearing.refuses fun all =>
              refused (Counter.takes_deltas_append.mpr ⟨taken, all⟩)
            exact ⟨cut, fun all => later (Counter.takes_deltas_append.mp all).2⟩
    · obtain ⟨_, shared, told⟩ := counted_loading
      obtain ⟨cut, refused⟩ := loading.refuses taken
      cases cut
      refine .of_refused ?_ ⟨rfl, refused⟩
      cases outcome with
      | failed | aborted => exact taken
      | done bytes => exact Counter.not_takes_append _ taken

theorem counted_streamRead (buffer : Bytes) :
    (reader.streamRead plain buffer source).Counted sharing counter
      (reader.streamRead counted buffer ⟨counter, source⟩ .counting) := by
  refine (counted_read counts reader counter source buffer).mapOutcome fun outcome overflowed => ?_
  cases overflowed
  rfl

omit counts in
/-- A demand that a read is cut off for is cut off. -/
theorem Demand.overflowed_close (demand : Demand) {outcome : Outcome IoError Nat}
    (overflowed : outcome.Overflowed) : (demand.close outcome).Overflowed := by
  cases overflowed
  cases demand <;> rfl

theorem counted_gather (demand : Demand) : ∀ counter,
    (reader.gather plain demand source).Counted sharing counter
      (reader.gather counted demand ⟨counter, source⟩ .counting) := by
  fun_induction ChunkReader.gather plain demand reader source with
  | case1 reader source =>
      intro counter
      rw [gather_exactly_zero]
      exact .of_silent rfl rfl
  | case2 demand reader source wanted reading count given ih =>
      intro counter
      have first := counted_streamRead counts reader counter source (List.replicate demand.room 0)
      by_cases taken : counter.Takes (Event.deltas reading.events)
      · have same := first.takes taken
        have goes_on : (reader.streamRead counted (List.replicate demand.room 0)
            ⟨counter, source⟩ .counting).outcome = .done (count + 1) := by
          rw [same]
          exact given
        rw [gather_of_given wanted goes_on, same]
        exact ((ih (counter.absorb _)).map _).after taken
      · obtain ⟨cut, told⟩ := first.refuses taken
        rw [gather_of_ended wanted fun _ goes_on => by cases cut.symm.trans goes_on]
        exact .of_refused (Counter.not_takes_append _ taken) ⟨demand.overflowed_close cut, told⟩
  | case3 demand reader source wanted reading ended =>
      intro counter
      have first := counted_streamRead counts reader counter source (List.replicate demand.room 0)
      have ended_too : ∀ count, (reader.streamRead counted (List.replicate demand.room 0)
          ⟨counter, source⟩ .counting).outcome ≠ .done (count + 1) := by
        intro count goes_on
        by_cases taken : counter.Takes (Event.deltas reading.events)
        · rw [first.takes taken] at goes_on
          exact ended count goes_on
        · cases (first.refuses taken).1.symm.trans goes_on
      rw [gather_of_ended wanted ended_too]
      exact first.toStep.mapOutcome fun _ => demand.overflowed_close

omit counts in
theorem counted_apart {ε α : Type} (fault : ε → Fault) (answer : α → Answer)
    (result : Except ε α × ChunkReader) :
    (apart fault answer source result).Counted sharing counter
      (apart fault answer ⟨counter, source⟩ result) Outcome.TellsOverflow := by
  obtain ⟨error | value, moved⟩ := result <;> exact .of_silent rfl rfl

omit counts in
theorem counted_close {ε : Type} :
    (reader.close source : Step _ ε Unit).Counted sharing counter
      (reader.close ⟨counter, source⟩ .counting) :=
  (Tracker.counted_hear () reader.release.2 counter source).mapState _ _ fun _ _ => rfl

/-- Every command goes as it does where amounts are only noted, as long as the counter takes them.
-/
theorem counted_perform (command : ReaderCommand) :
    (reader.perform plain command source).Counted sharing counter
      (reader.perform counted command ⟨counter, source⟩ .counting) Outcome.TellsOverflow := by
  cases command with
  | prefetch =>
      exact ((((counted_ensureLoaded counts reader counter source).map _).map _).mapError _).imp
        Outcome.Overflowed.tells
  | read room =>
      have reading := counted_read counts reader counter source (List.replicate room 0)
      exact ((reading.answered fun portion buffer =>
        .portion (buffer.take portion.count) portion.atEnd).mapError _).imp Outcome.Overflowed.tells
  | streamRead room =>
      have reading := counted_streamRead counts reader counter source (List.replicate room 0)
      exact ((reading.answered fun count buffer => .stream (buffer.take count)).mapError _).imp
        Outcome.Overflowed.tells
  | streamExact wanted =>
      exact (((counted_gather counts reader source (.exactly wanted) counter).map _).mapError _).imp
        Outcome.Overflowed.tells
  | streamToEnd =>
      exact (((counted_gather counts reader source (.blocks blockLength) counter).map _).mapError
        _).imp Outcome.Overflowed.tells
  | close => exact ((counted_close reader counter source).map _).imp Outcome.Overflowed.tells
  | range => exact .of_silent rfl rfl
  | file request =>
      have serving := counts.serve request counter source
      refine ⟨fun taken => ?_, serving.refuses⟩
      simp only [perform, serving.takes taken]
      rfl
  | seek | seekPosition | seekLength | reset | streamSeek | streamRewind | streamPosition =>
      simp only [perform]
      exact counted_apart counter source _ _ _

end ChunkReader

/-- The range of a reader that shares its counter goes as the range of one whose amounts are only
noted, as long as the counter takes them. -/
theorem File.Counts.nested (counts : counted.Counts plain) :
    counted.nestedBeside.Counts plain.nested := by
  rintro offset buffer counter ⟨reader, source⟩
  have reading := ChunkReader.counted_streamRead counts
    { reader with position := min (min offset signedMax) reader.length } counter source buffer
  simp only [nestedBeside, within, File.readAt_nested]
  exact reading.mapState id _ fun _ _ => rfl

end BulkTransfer
