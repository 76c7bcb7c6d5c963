import BulkTransfer.Proofs.ChunkReader.Course
import BulkTransfer.Proofs.File.Likeness

/-!
# Chunk readers on files that cannot be told apart

A chunk reader looks at its file only through reads. On files that are alike it therefore gives the
same answers and becomes the same reader, and the range that it makes of the one file is like the
range that it makes of the other.
-/

namespace BulkTransfer

variable {σ τ : Type} {related : σ → τ → Prop} {left : File σ} {right : File τ}

theorem File.Alike.load (alike : left.Alike related right) (offset length : Nat) {source : σ}
    {other : τ} (start : related source other) :
    (left.load offset length source).Alike related (right.load offset length other) := by
  have filling := alike.fill offset (List.replicate length 0) source other start
  simp only [File.load]
  split
  · exact ⟨rfl, start⟩
  · generalize left.fill offset (List.replicate length 0) source = filled at filling ⊢
    rcases filled with ⟨⟨read | error | cause, reached, events⟩, bytes⟩ <;>
      obtain ⟨arrived, reported, same, states⟩ := filling.exists_right <;>
      rw [same]
    · dsimp only
      split <;> exact ⟨rfl, states⟩
    · exact ⟨rfl, states⟩
    · exact ⟨rfl, states⟩

namespace ChunkReader

/-- The same reader, above states that are related. -/
def Above (related : σ → τ → Prop) (one : ChunkReader × σ) (other : ChunkReader × τ) : Prop :=
  one.1 = other.1 ∧ related one.2 other.2

variable (alike : left.Alike related right) (reader : ChunkReader) {source : σ} {other : τ}
  (start : related source other)

include alike start

theorem ensureLoaded_alike :
    (reader.ensureLoaded left source).Alike (Above related) (reader.ensureLoaded right other) := by
  cases held : reader.loaded with
  | some bytes =>
      simp only [ensureLoaded, held]
      exact ⟨rfl, rfl, start⟩
  | none =>
      have loading := alike.load reader.offset reader.length start
      simp only [ensureLoaded, held]
      generalize left.load reader.offset reader.length source = loaded at loading ⊢
      rcases loaded with ⟨bytes | error | cause, reached, events⟩ <;>
        obtain ⟨arrived, reported, same, states⟩ := loading.exists_right <;>
        rw [same] <;>
        simp only [Tracker.hear_noting] <;>
        exact ⟨rfl, rfl, states⟩

theorem read_alike (buffer : Bytes) :
    (reader.read left buffer source).Alike (Above related) (reader.read right buffer other) := by
  have loading := ensureLoaded_alike alike reader start
  simp only [read]
  split
  · exact ⟨⟨rfl, rfl, start⟩, rfl⟩
  · generalize reader.ensureLoaded left source = loaded at loading ⊢
    rcases loaded with ⟨bytes | error | cause, ⟨holder, reached⟩, events⟩ <;>
      obtain ⟨⟨holder, arrived⟩, reported, same, rfl, states⟩ := loading.exists_right <;>
      rw [same] <;>
      simp only [Tracker.hear_noting] <;>
      exact ⟨⟨rfl, rfl, states⟩, rfl⟩

theorem streamRead_alike (buffer : Bytes) :
    (reader.streamRead left buffer source).Alike (Above related)
      (reader.streamRead right buffer other) := by
  have reading := read_alike alike reader start buffer
  have counted := reading.toAlike.mapOutcome fun outcome =>
    (outcome.map Portion.count).mapError ChunkError.toIoError
  exact ⟨⟨counted.outcome_eq, counted.states⟩, reading.buffer_eq⟩

omit start in
theorem gather_alike (demand : Demand) (source : σ) : ∀ other, related source other →
    (reader.gather left demand source).Alike (Above related)
      (reader.gather right demand other) := by
  fun_induction ChunkReader.gather left demand reader source with
  | case1 reader source =>
      intro other start
      rw [gather_exactly_zero]
      exact ⟨rfl, rfl, start⟩
  | case2 demand reader source wanted reading count given ih =>
      intro other start
      have same := streamRead_alike alike reader start (List.replicate demand.room 0)
      have later := (ih _ same.states.2).map (reading.buffer.take (count + 1) ++ ·)
      rw [gather_of_given wanted (same.outcome_eq.symm.trans given), ← same.states.1,
        ← same.buffer_eq]
      exact ⟨later.outcome_eq, later.states⟩
  | case3 demand reader source wanted reading ended =>
      intro other start
      have same := streamRead_alike alike reader start (List.replicate demand.room 0)
      rw [gather_of_ended wanted fun count given => ended count (same.outcome_eq.trans given)]
      exact ⟨congrArg demand.close same.outcome_eq, same.states⟩

omit alike in
theorem apart_alike {ε α : Type} (fault : ε → Fault) (answer : α → Answer)
    (result : Except ε α × ChunkReader) :
    (apart fault answer source result).Alike (Above related) (apart fault answer other result) := by
  obtain ⟨error | value, moved⟩ := result <;> exact ⟨rfl, rfl, start⟩

/-- Every command ends the same way and leaves the same reader behind. -/
theorem perform_alike (command : ReaderCommand) :
    (reader.perform left command source).Alike (Above related)
      (reader.perform right command other) := by
  cases command with
  | prefetch =>
      simp only [perform, prefetch]
      exact (((ensureLoaded_alike alike reader start).map _).map _).mapError _
  | read room =>
      have reading := read_alike alike reader start (List.replicate room 0)
      simp only [perform, reading.buffer_eq]
      exact (reading.toAlike.map _).mapError _
  | streamRead room =>
      have reading := streamRead_alike alike reader start (List.replicate room 0)
      simp only [perform, reading.buffer_eq]
      exact (reading.toAlike.map _).mapError _
  | streamExact wanted =>
      exact ((gather_alike alike reader (.exactly wanted) source other start).map _).mapError _
  | streamToEnd =>
      exact ((gather_alike alike reader (.blocks blockLength) source other start).map _).mapError _
  | file request =>
      have serving := alike.serve request source other start
      simp only [perform, serving.outcome_eq, serving.buffer_eq]
      exact ⟨rfl, rfl, serving.states⟩
  | close =>
      rw [perform_close, perform_close]
      exact ⟨rfl, rfl, start⟩
  | range => exact ⟨rfl, rfl, start⟩
  | seek | seekPosition | seekLength | reset | streamSeek | streamRewind | streamPosition =>
      simp only [perform]
      exact apart_alike start _ _ _

omit start in
/-- Commands that are carried out one after the other end the same way. -/
theorem transcript_alike (commands : List ReaderCommand) {source : σ} {other : τ}
    (start : related source other) :
    transcript left commands reader source = transcript right commands reader other := by
  induction commands generalizing reader source other with
  | nil => rfl
  | cons command rest ih =>
      have first := perform_alike alike reader start command
      rw [transcript, transcript, first.outcome_eq, first.states.1]
      exact congrArg (_ :: ·) (ih _ first.states.2)

end ChunkReader
end BulkTransfer
