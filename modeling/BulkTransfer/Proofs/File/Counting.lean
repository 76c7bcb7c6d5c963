import BulkTransfer.Proofs.Counter
import BulkTransfer.Proofs.File.Quiet
import BulkTransfer.Proofs.File.Rounds
import BulkTransfer.Shared

/-!
# Steps that are counted

What is done above a shared counter goes as it does where amounts are only noted, and the counter
takes them all; or some amount takes the counter out of range, and there it is cut off.
-/

namespace BulkTransfer

variable {σ τ ε δ α β : Type} {put : Counter → σ → τ} {counter : Counter}

/-- An operation that was cut off by the byte counter. -/
def Outcome.Overflowed (outcome : Outcome ε α) : Prop :=
  outcome = .aborted .counterOverflow

/-- A step goes as one that only takes note of amounts, as long as the counter takes them. The state
is put together from the counter and the state of the plain step. -/
structure Step.Counted (put : Counter → σ → τ) (counter : Counter) (plain : Step σ ε α)
    (counted : Step τ ε α) (cut : Outcome ε α → Prop := Outcome.Overflowed) : Prop where
  /-- If the counter takes all amounts, they are added to it, and nothing else is different. -/
  takes : counter.Takes (Event.deltas plain.events) →
    counted = plain.mapState (put (counter.absorb (Event.deltas plain.events)))
  /-- Otherwise the step is cut off, after an amount that took the counter out of range. -/
  refuses : ¬ counter.Takes (Event.deltas plain.events) →
    cut counted.outcome ∧ ¬ counter.Takes (Event.deltas counted.events)

/-- A transfer goes as one that only takes note of amounts, as long as the counter takes them. -/
structure Transfer.Counted (put : Counter → σ → τ) (counter : Counter) (plain : Transfer σ ε α)
    (counted : Transfer τ ε α) : Prop where
  /-- If the counter takes all amounts, they are added to it, and nothing else is different. -/
  takes : counter.Takes (Event.deltas plain.events) →
    counted = plain.mapState (put (counter.absorb (Event.deltas plain.events)))
  /-- Otherwise the transfer is cut off, after an amount that took the counter out of range. -/
  refuses : ¬ counter.Takes (Event.deltas plain.events) →
    counted.outcome.Overflowed ∧ ¬ counter.Takes (Event.deltas counted.events)

theorem Counter.not_takes_append {earlier : List Event} (later : List Event)
    (refused : ¬ counter.Takes (Event.deltas earlier)) :
    ¬ counter.Takes (Event.deltas (earlier ++ later)) := by
  rw [Event.deltas_append, takes_append]
  exact fun both => refused both.1

theorem Counter.takes_deltas_append {earlier later : List Event} :
    counter.Takes (Event.deltas (earlier ++ later)) ↔
      counter.Takes (Event.deltas earlier) ∧
        (counter.absorb (Event.deltas earlier)).Takes (Event.deltas later) := by
  rw [Event.deltas_append, takes_append]

namespace Step.Counted

variable {plain : Step σ ε α} {counted : Step τ ε α} {cut : Outcome ε α → Prop}

theorem of_silent (silent : Event.deltas plain.events = [])
    (same : counted = plain.mapState (put counter)) :
    plain.Counted put counter counted cut where
  takes _ := by
    rw [silent]
    exact same
  refuses refused := absurd (silent ▸ counter.takes_nil) refused

theorem of_refused (refused : ¬ counter.Takes (Event.deltas plain.events))
    (ends : cut counted.outcome ∧ ¬ counter.Takes (Event.deltas counted.events)) :
    plain.Counted put counter counted cut :=
  ⟨fun taken => absurd taken refused, fun _ => ends⟩

theorem mapOutcome (step : plain.Counted put counter counted cut)
    {change : Outcome ε α → Outcome δ β} {shown : Outcome δ β → Prop}
    (shows : ∀ outcome, cut outcome → shown (change outcome)) :
    (plain.mapOutcome change).Counted put counter (counted.mapOutcome change) shown where
  takes taken := by
    rw [step.takes taken]
    rfl
  refuses refused := by
    obtain ⟨ends, told⟩ := step.refuses refused
    exact ⟨shows _ ends, told⟩

theorem map (step : plain.Counted put counter counted) (change : α → β) :
    (plain.map change).Counted put counter (counted.map change) :=
  step.mapOutcome fun _ ends => congrArg (Outcome.map change) ends

theorem mapError (step : plain.Counted put counter counted) (change : ε → δ) :
    (plain.mapError change).Counted put counter (counted.mapError change) :=
  step.mapOutcome fun _ ends => congrArg (Outcome.mapError change) ends

/-- If the counter takes all that it is told, it is told what would be noted. -/
theorem takes_of_told (step : plain.Counted put counter counted cut)
    (taken : counter.Takes (Event.deltas counted.events)) :
    counter.Takes (Event.deltas plain.events) :=
  Classical.byContradiction fun refused => (step.refuses refused).2 taken

/-- If the step is not cut off, the counter takes all that would be noted. -/
theorem takes_of_not_cut (step : plain.Counted put counter counted cut)
    (goes_on : ¬ cut counted.outcome) : counter.Takes (Event.deltas plain.events) :=
  Classical.byContradiction fun refused => goes_on (step.refuses refused).1

theorem imp {shown : Outcome ε α → Prop} (step : plain.Counted put counter counted cut)
    (shows : ∀ outcome, cut outcome → shown outcome) : plain.Counted put counter counted shown :=
  step.mapOutcome shows

theorem mapState {ρ υ : Type} {place : Counter → ρ → υ} (plainly : σ → ρ) (countedly : τ → υ)
    (step : plain.Counted put counter counted cut)
    (same : ∀ counter state, countedly (put counter state) = place counter (plainly state)) :
    (plain.mapState plainly).Counted place counter (counted.mapState countedly) cut where
  takes taken := by
    rw [step.takes taken]
    simp only [Step.mapState, same]
  refuses := step.refuses

theorem after {earlier : List Event} (taken : counter.Takes (Event.deltas earlier))
    (step : plain.Counted put (counter.absorb (Event.deltas earlier)) counted cut) :
    (plain.after earlier).Counted put counter (counted.after earlier) cut where
  takes all := by
    rw [step.takes (Counter.takes_deltas_append.mp all).2]
    simp [Step.after, Step.mapState, Event.deltas_append, Counter.absorb_append]
  refuses refused := by
    obtain ⟨ends, told⟩ := step.refuses fun rest =>
      refused (Counter.takes_deltas_append.mpr ⟨taken, rest⟩)
    exact ⟨ends, fun all => told (Counter.takes_deltas_append.mp all).2⟩

end Step.Counted

namespace Transfer.Counted

variable {plain : Transfer σ ε α} {counted : Transfer τ ε α}

theorem toStep (transfer : plain.Counted put counter counted) :
    plain.toStep.Counted put counter counted.toStep where
  takes taken := congrArg Transfer.toStep (transfer.takes taken)
  refuses := transfer.refuses

theorem of_silent (silent : Event.deltas plain.events = [])
    (same : counted = plain.mapState (put counter)) : plain.Counted put counter counted where
  takes _ := by
    rw [silent]
    exact same
  refuses refused := absurd (silent ▸ counter.takes_nil) refused

theorem of_refused (refused : ¬ counter.Takes (Event.deltas plain.events))
    (ends : counted.outcome.Overflowed ∧ ¬ counter.Takes (Event.deltas counted.events)) :
    plain.Counted put counter counted :=
  ⟨fun taken => absurd taken refused, fun _ => ends⟩

theorem mapOutcome (transfer : plain.Counted put counter counted)
    {change : Outcome ε α → Outcome δ β}
    (shows : ∀ outcome, outcome.Overflowed → (change outcome).Overflowed) :
    (plain.mapOutcome change).Counted put counter (counted.mapOutcome change) where
  takes taken := by
    rw [transfer.takes taken]
    rfl
  refuses refused := by
    obtain ⟨ends, told⟩ := transfer.refuses refused
    exact ⟨shows _ ends, told⟩

theorem mapState {ρ υ : Type} {place : Counter → ρ → υ} (plainly : σ → ρ) (countedly : τ → υ)
    (transfer : plain.Counted put counter counted)
    (same : ∀ counter state, countedly (put counter state) = place counter (plainly state)) :
    (plain.mapState plainly).Counted place counter (counted.mapState countedly) where
  takes taken := by
    rw [transfer.takes taken]
    simp only [Transfer.mapState, same]
  refuses := transfer.refuses

theorem answered (transfer : plain.Counted put counter counted) (answer : α → Bytes → β) :
    (plain.toStep.map (answer · plain.buffer)).Counted put counter
      (counted.toStep.map (answer · counted.buffer)) where
  takes taken := by
    rw [transfer.takes taken]
    rfl
  refuses refused := by
    obtain ⟨ends, told⟩ := transfer.refuses refused
    exact ⟨congrArg (Outcome.map _) ends, told⟩

end Transfer.Counted

theorem Tracker.add_counting_of_fits {counter : Counter} {delta : Int}
    (fits : counter.Fits delta) (source : σ) :
    counting.add delta ⟨counter, source⟩ = (.ok (), ⟨counter.add delta, source⟩) := by
  simp only [counting, Counter.addFetch_of_fits fits, Except.map]

theorem Tracker.add_counting_of_not_fits {counter : Counter} {delta : Int}
    (unfit : ¬ counter.Fits delta) (source : σ) :
    counting.add delta ⟨counter, source⟩ =
      (.error .counterOverflow, ⟨counter.add delta, source⟩) := by
  simp only [counting, Counter.addFetch_of_not_fits unfit, Except.map]

/-- What is told to a counter is cut off by the first amount that it does not take. -/
theorem Tracker.counted_hear (value : α) (events : List Event) (counter : Counter) (source : σ) :
    (noting.hear value events source : Step σ ε α).Counted Shared.mk counter
      (counting.hear value events ⟨counter, source⟩) := by
  rw [hear_noting]
  induction events generalizing counter with
  | nil => exact .of_silent rfl rfl
  | cons event rest ih =>
      cases event with
      | called | moved | logged =>
          obtain ⟨takes, refuses⟩ := ih counter
          exact ⟨fun taken => congrArg (Step.after [_]) (takes taken), refuses⟩
      | tracked delta =>
          obtain ⟨takes, refuses⟩ := ih (counter.add delta)
          by_cases fits : counter.Fits delta
          · have told : counting.hear value (.tracked delta :: rest) ⟨counter, source⟩ =
                (counting.hear value rest ⟨counter.add delta, source⟩ : Step _ ε α).after
                  [.tracked delta] := by
              rw [hear, add_counting_of_fits fits]
            rw [told]
            refine ⟨fun taken => ?_, fun refused => ?_⟩
            · rw [takes taken.2]
              rfl
            · obtain ⟨cut, later⟩ := refuses fun taken => refused ⟨fits, taken⟩
              exact ⟨cut, fun taken => later taken.2⟩
          · have told : (counting.hear value (.tracked delta :: rest) ⟨counter, source⟩ :
                Step _ ε α) =
                ⟨.aborted .counterOverflow, ⟨counter.add delta, source⟩, [.tracked delta]⟩ := by
              rw [hear, add_counting_of_not_fits fits]
            rw [told]
            exact ⟨fun taken => absurd taken.1 fits, fun _ => ⟨rfl, fun taken => fits taken.1⟩⟩

/-- Telling the counter ends with what was to come, unless the counter cuts it off. -/
theorem Tracker.outcome_hear_counting (value : α) (events : List Event) (shared : Shared σ) :
    (counting.hear value events shared : Step _ ε α).outcome = .done value ∨
      (counting.hear value events shared : Step _ ε α).outcome.Overflowed := by
  have told : (noting.hear value events shared.source : Step σ ε α).Counted Shared.mk
      shared.counter (counting.hear value events shared) :=
    counted_hear value events shared.counter shared.source
  rw [hear_noting] at told
  by_cases taken : shared.counter.Takes (Event.deltas events)
  · rw [told.takes taken]
    exact .inl rfl
  · exact .inr (told.refuses taken).1

theorem Tracker.hear_tracked_logged (value : α) (delta : Int) (record : ChunkRecord)
    (shared : Shared σ) :
    (counting.hear value [.tracked delta, .logged record] shared : Step _ ε α) =
      if shared.counter.Fits delta then
        ⟨.done value, { shared with counter := shared.counter.add delta },
          [.tracked delta, .logged record]⟩
      else
        ⟨.aborted .counterOverflow, { shared with counter := shared.counter.add delta },
          [.tracked delta]⟩ := by
  obtain ⟨counter, source⟩ := shared
  by_cases fits : counter.Fits delta
  · rw [hear, add_counting_of_fits fits, if_pos fits]
    rfl
  · rw [hear, add_counting_of_not_fits fits, if_neg fits]

/-- Telling the counter does not touch what stands beside it, nor depend on it. -/
theorem Tracker.hear_counting (value : α) (events : List Event) (counter : Counter) (source : σ)
    (other : τ) :
    (counting.hear value events ⟨counter, other⟩ : Step _ ε α) =
      (counting.hear value events ⟨counter, source⟩).mapState
        fun shared => ⟨shared.counter, other⟩ := by
  induction events generalizing counter with
  | nil => rfl
  | cons event rest ih =>
      cases event with
      | called | moved | logged => exact congrArg (Step.after [_]) (ih counter)
      | tracked delta =>
          by_cases fits : counter.Fits delta
          · rw [hear, hear, add_counting_of_fits fits, add_counting_of_fits fits]
            exact congrArg (Step.after [_]) (ih (counter.add delta))
          · rw [hear, hear, add_counting_of_not_fits fits, add_counting_of_not_fits fits]
            rfl

theorem Tracker.source_hear (value : α) (events : List Event) (shared : Shared σ) :
    (counting.hear value events shared : Step _ ε α).state.source = shared.source := by
  rw [hear_counting value events shared.counter shared.source shared.source]
  rfl

theorem Tracker.hear_of_takes {value : α} {events : List Event} {source : σ}
    (taken : counter.Takes (Event.deltas events)) :
    (counting.hear value events ⟨counter, source⟩ : Step (Shared σ) ε α) =
      ⟨.done value, ⟨counter.absorb (Event.deltas events), source⟩, events⟩ := by
  have told : (noting.hear value events source : Step σ ε α).Counted Shared.mk counter _ :=
    counted_hear value events counter source
  rw [hear_noting] at told
  exact told.takes taken

namespace File

/-- Beside a counter a buffer is filled as it is anyway. -/
theorem fill_beside (file : File σ) (offset : Nat) (buffer : Bytes) (counter : Counter)
    (source : σ) :
    file.beside.fill offset buffer ⟨counter, source⟩ =
      (file.fill offset buffer source).mapState (Shared.mk counter) := by
  induction offset, buffer, source using file.fill_induction with
  | full offset source =>
      rw [fill_nil, fill_nil]
      rfl
  | round offset buffer source wanted ih =>
      have read : file.beside.readAt offset buffer ⟨counter, source⟩ =
        (file.readAt offset buffer source).mapState (Shared.mk counter) := rfl
      rw [file.fill_round offset wanted, file.beside.fill_round offset wanted, read]
      cases came : (file.readAt offset buffer source).outcome.verdict offset buffer.length with
      | ends outcome =>
          simp only [Transfer.mapState, came]
      | goesOn given =>
          simp only [Transfer.mapState, came, ih given came]
          rfl

theorem serve_beside (file : File σ) (request : FileRequest) (counter : Counter) (source : σ) :
    file.beside.serve request ⟨counter, source⟩ =
      (file.serve request source).mapState (Shared.mk counter) := by
  rw [File.serve, File.serve]
  split
  · exact file.fill_beside _ _ _ _
  · rfl

/-- A file above a shared counter answers every read as a file does whose amounts are only noted, as
long as the counter takes them. -/
def Counts (counted : File (Shared σ)) (plain : File σ) : Prop :=
  ∀ offset buffer counter source,
    (plain.readAt offset buffer source).Counted Shared.mk counter
      (counted.readAt offset buffer ⟨counter, source⟩)

/-- A file that leaves the counter alone may stand beside it. -/
theorem Quiet.counts {file : File σ} (quiet : file.Quiet) : file.beside.Counts file :=
  fun offset buffer _ source => .of_silent (quiet offset buffer source) rfl

namespace Counts

variable {counted : File (Shared σ)} {plain : File σ} (counts : counted.Counts plain)

include counts

theorem fill (offset : Nat) (buffer : Bytes) (counter : Counter) (source : σ) :
    (plain.fill offset buffer source).Counted Shared.mk counter
      (counted.fill offset buffer ⟨counter, source⟩) := by
  induction offset, buffer, source using plain.fill_induction generalizing counter with
  | full offset source =>
      rw [fill_nil, fill_nil]
      exact .of_silent rfl rfl
  | round offset buffer source wanted ih =>
      obtain ⟨takes, refuses⟩ := counts offset buffer counter source
      have plain_round := plain.fill_round offset wanted source
      have counted_round := counted.fill_round offset wanted ⟨counter, source⟩
      by_cases taken : counter.Takes (Event.deltas (plain.readAt offset buffer source).events)
      · rw [takes taken] at counted_round
        cases came : (plain.readAt offset buffer source).outcome.verdict offset buffer.length with
        | ends outcome =>
            simp only [Transfer.mapState, came] at plain_round counted_round
            rw [plain_round, counted_round]
            exact ⟨fun _ => rfl, fun refused => absurd taken refused⟩
        | goesOn given =>
            simp only [Transfer.mapState, came] at plain_round counted_round
            obtain ⟨later, cut_later⟩ := ih given came (counter.absorb _)
            rw [plain_round, counted_round]
            refine ⟨fun all => ?_, fun refused => ?_⟩
            · rw [later (Counter.takes_deltas_append.mp all).2]
              simp [Transfer.followedBy, Transfer.mapState, Event.deltas_append,
                Counter.absorb_append]
            · obtain ⟨cut, told⟩ :=
                cut_later fun rest => refused (Counter.takes_deltas_append.mpr ⟨taken, rest⟩)
              refine ⟨?_, fun all => told (Counter.takes_deltas_append.mp all).2⟩
              exact congrArg (Outcome.map (given + ·)) cut
      · obtain ⟨cut, told⟩ := refuses taken
        simp only [show _ = _ from cut, Outcome.verdict] at counted_round
        rw [counted_round, plain_round]
        refine .of_refused ?_ ⟨rfl, told⟩
        dsimp only
        split
        · exact taken
        · exact Counter.not_takes_append _ taken

theorem serve (request : FileRequest) (counter : Counter) (source : σ) :
    (plain.serve request source).Counted Shared.mk counter
      (counted.serve request ⟨counter, source⟩) := by
  rw [File.serve, File.serve]
  split
  · exact counts.fill _ _ _ _
  · exact counts _ _ _ _

end Counts
end File
end BulkTransfer
