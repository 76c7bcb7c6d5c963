import BulkTransfer.Cursor.Lock
import BulkTransfer.Cursor.Stored
import BulkTransfer.Proofs.File.Visiting

/-!
# Cursors under a lock

A cursor under a lock is a file without a position of its own. Each read of it moves the cursor to
the offset and reads there if the move succeeds, and ends as the last of these calls does. So where
earlier calls have left the cursor, and whether one of them was cut off and poisoned the lock, has
no part in an answer.
-/

namespace BulkTransfer

namespace Event

@[simp]
theorem cursorCalls_append (earlier later : List Event) :
    cursorCalls (earlier ++ later) = cursorCalls earlier ++ cursorCalls later :=
  List.filterMap_append

end Event

variable {σ : Type}

theorem Lock.poisoned_leave {ε α : Type} (lock : Lock σ) (outcome : Outcome ε α) (reached : σ) :
    (lock.leave outcome reached).poisoned = true ↔
      lock.poisoned = true ∨ ∃ cause, outcome = .aborted cause := by
  cases outcome with
  | done value => simp [leave]
  | failed error => simp [leave]
  | aborted cause => simp [leave]

namespace Cursor

variable (cursor : Cursor σ)

/-- A cursor that reports no calls of a cursor. -/
structure Unwatched : Prop where
  /-- Moves report none. -/
  seek : ∀ position state, Event.cursorCalls (cursor.seek position state).events = []
  /-- Reads report none. -/
  read : ∀ buffer state, Event.cursorCalls (cursor.read buffer state).events = []

/-- The calls of the cursor that a read of it under a lock comes to: one move, and one read if the
move succeeds. -/
def asks (visit : Visit (Lock σ)) : List CursorCall :=
  .seek visit.offset ::
    match (cursor.seek visit.offset visit.state.guarded).outcome with
    | .done _ => [.read visit.buffer.length]
    | _ => []

/-- How the last of these calls ends. -/
def ending (visit : Visit (Lock σ)) : Outcome IoError Nat :=
  let sought := cursor.seek visit.offset visit.state.guarded
  match sought.outcome with
  | .done _ => (cursor.read visit.buffer sought.state).outcome
  | .failed error => .failed error
  | .aborted cause => .aborted cause

/-- On a visit both calls are plain: the move succeeds and leads to the offset, and the read gives
what the contents hold at the position. -/
structure Plain (contents : Contents) (position : σ → Nat) (visit : Visit (Lock σ)) : Prop where
  /-- The move succeeds. -/
  moved : ∃ reached, (cursor.seek visit.offset visit.state.guarded).outcome = .done reached
  /-- The cursor stands at the offset then. -/
  stands : position (cursor.seek visit.offset visit.state.guarded).state = visit.offset
  /-- The read gives what the contents hold where the cursor stands. -/
  reads :
    let reached := (cursor.seek visit.offset visit.state.guarded).state
    (cursor.read visit.buffer reached).result =
      (contents.readOn visit.buffer (position reached)).result

/-- To the one who holds it, a lock is what it guards. -/
theorem seenAs_locked : cursor.underLock.SeenAs Lock.guarded cursor.locked := by
  intro offset buffer lock
  simp only [underLock, locked, Lock.enter_eq]
  rfl

theorem outcome_answer (visit : Visit (Lock σ)) :
    (visit.answer cursor.underLock).outcome = cursor.ending visit := by
  simp only [Visit.answer, underLock, Lock.enter_eq, seekThenRead, ending]
  obtain ⟨outcome, reached, events⟩ := cursor.seek visit.offset visit.state.guarded
  cases outcome <;> rfl

variable {cursor}

/-- A read under the lock makes one move, and one read if the move succeeds. -/
theorem Unwatched.cursorCalls_answer (unwatched : cursor.Unwatched) (visit : Visit (Lock σ)) :
    Event.cursorCalls (visit.answer cursor.watched.underLock).events = cursor.asks visit := by
  have silent := unwatched.seek visit.offset visit.state.guarded
  simp only [Visit.answer, underLock, Lock.enter_eq, seekThenRead, asks, watched]
  rcases sought : cursor.seek visit.offset visit.state.guarded with ⟨outcome, reached, events⟩
  rw [sought] at silent
  have move :
      Event.cursorCalls (events ++ [.moved (.seek visit.offset)]) = [.seek visit.offset] := by
    rw [Event.cursorCalls_append, silent]
    rfl
  cases outcome with
  | done position =>
      change Event.cursorCalls (_ ++ (_ ++ [.moved (.read visit.buffer.length)])) = _
      rw [Event.cursorCalls_append, move, Event.cursorCalls_append, unwatched.read]
      rfl
  | failed error => exact move
  | aborted cause => exact move

theorem Plain.result_answer {contents : Contents} {position : σ → Nat} {visit : Visit (Lock σ)}
    (plain : cursor.Plain contents position visit) (there : Unit) :
    (visit.answer cursor.underLock).result =
      (contents.inMemory.readAt visit.offset visit.buffer there).result := by
  obtain ⟨⟨reached, moved⟩, stands, reads⟩ := plain
  simp only [stands] at reads
  simp only [Visit.answer, underLock, Lock.enter_eq, seekThenRead]
  rcases sought : cursor.seek visit.offset visit.state.guarded with ⟨outcome, here, events⟩
  rw [sought] at moved reads
  cases moved
  exact reads

/-- A request poisons the lock exactly if one of the calls it makes of the cursor is cut off. -/
theorem poisoned_serve (request : FileRequest) (lock : Lock σ) :
    (cursor.underLock.serve request lock).state.poisoned = true ↔
      lock.poisoned = true ∨
        ∃ visit ∈ cursor.underLock.visits request lock, ∃ cause,
          cursor.ending visit = .aborted cause := by
  -- One read gives the lock back as it ends.
  have once (offset : Nat) (buffer : Bytes) (lock : Lock σ) :
      (cursor.underLock.readAt offset buffer lock).state.poisoned = true ↔
        lock.poisoned = true ∨ ∃ cause, cursor.ending ⟨offset, buffer, lock⟩ = .aborted cause := by
    rw [← outcome_answer]
    exact lock.poisoned_leave _ _
  obtain ⟨_ | _, offset, buffer⟩ := request
  · rw [File.visits_of_single _ rfl, File.serve]
    simp [once]
  · change (cursor.underLock.fill offset buffer lock).state.poisoned = true ↔ _
    induction offset, buffer, lock using cursor.underLock.fill_induction with
    | full offset lock =>
        rw [File.visits_full, File.fill_nil]
        simp [Transfer.leaving]
    | round offset buffer lock wanted ih =>
        simp only [File.fill_round _ _ wanted, File.visits_round _ _ wanted]
        cases came : (cursor.underLock.readAt offset buffer lock).outcome.verdict offset
            buffer.length with
        | ends outcome => simp [once]
        | goesOn given =>
            simp only [Transfer.followedBy, ih given came, once, List.mem_cons, exists_eq_or_imp,
              or_assoc]

/-- Whatever reads were made before under the lock, also if some of them failed or were cut off and
poisoned it: each read of a request makes one move to its offset, and one read of its buffer if the
move succeeds; it ends as the last of these calls does; and if they are all plain, the request ends
with the count and the buffer that it ends with on the same bytes in memory. -/
theorem reads_stand_alone (unwatched : cursor.Unwatched) (contents : Contents)
    (position : σ → Nat) (lock : Lock σ) (earlier : List FileRequest) (request : FileRequest) :
    let file := cursor.watched.underLock
    let now := file.afterAll earlier lock
    let answer := file.serve request now
    let visits := file.visits request now
    answer.mapState Lock.guarded = cursor.watched.locked.serve request now.guarded ∧
    Event.cursorCalls answer.events = visits.flatMap cursor.asks ∧
    (request.full = false → visits = [⟨request.offset, request.buffer, now⟩]) ∧
    (∀ visit ∈ visits, (visit.answer file).outcome = cursor.ending visit ∧
      ((request.full = true → (cursor.ending visit).stopsFilling = true) →
        answer.outcome = cursor.ending visit)) ∧
    ((∀ visit ∈ visits, cursor.Plain contents position visit) →
      answer.result = (contents.inMemory.serve request ()).result) := by
  intro file now answer visits
  refine ⟨?_, ?_, ?_, ?_, ?_⟩
  · exact (cursor.watched.seenAs_locked.serve request now).symm
  · have told : answer.events = _ := file.events_serve request now
    rw [told, Event.cursorCalls, List.filterMap_flatMap]
    exact congrArg visits.flatMap (funext unwatched.cursorCalls_answer)
  · intro single
    exact file.visits_of_single single now
  · intro visit visited
    have ends : (visit.answer file).outcome = cursor.ending visit :=
      cursor.watched.outcome_answer visit
    refine ⟨ends, fun stops => ?_⟩
    rw [← ends] at stops ⊢
    exact file.outcome_serve_of_stops visited stops
  · intro plain
    refine file.result_serve_of_visits (fun visit visited there => ?_) ()
    have watched_plain : cursor.watched.Plain contents position visit :=
      ⟨(plain visit visited).moved, (plain visit visited).stands, (plain visit visited).reads⟩
    exact watched_plain.result_answer there

theorem unwatched_scripted (contents : Contents) : contents.scriptedCursor.Unwatched := by
  constructor
  · intro position state
    simp only [Contents.scriptedCursor, Contents.seekScripted]
    split <;> rfl
  · intro buffer state
    simp only [Contents.scriptedCursor, Contents.readScripted]
    cases Turn.next state.script <;> rfl

theorem plain_of_script_eq_nil (contents : Contents) (visit : Visit (Lock Playback))
    (used_up : visit.state.guarded.script = []) :
    contents.scriptedCursor.Plain contents Playback.position visit := by
  obtain ⟨offset, buffer, ⟨script, position⟩, poisoned⟩ := visit
  cases used_up
  exact ⟨⟨offset, rfl⟩, rfl, rfl⟩

/-- A move failed before, and a read was cut off after another one had left the cursor in the
middle: a buffer that is filled then over the end gets what is there, though the lock stays
poisoned. -/
theorem reads_stand_alone_poisoned :
    let contents := Contents.ofArray #[10, 20, 30, 40]
    let cursor := contents.scriptedCursor
    let file := cursor.watched.underLock
    let lock : Lock Playback := ⟨⟨[.failSeek (.ofKind .timedOut), .atMost 1, .abort], 0⟩, false⟩
    let now := file.afterAll [⟨false, 1, [0]⟩, ⟨true, 2, [0, 0]⟩] lock
    let request : FileRequest := ⟨true, 2, [1, 2, 3, 4]⟩
    cursor.Unwatched ∧ now.poisoned = true ∧
      (∀ visit ∈ file.visits request now, cursor.Plain contents Playback.position visit) ∧
      (file.serve request now).result = (.done 2, [30, 40, 3, 4]) ∧
      (file.serve request now).state.poisoned = true ∧
      Event.cursorCalls (file.serve request now).events = [.seek 2, .read 4, .seek 4, .read 2] := by
  intro contents cursor file lock now request
  have unwatched : cursor.Unwatched := unwatched_scripted contents
  have stands : now = ⟨⟨[], 3⟩, true⟩ := by
    unfold now lock file cursor contents
    cbv
  have visited : file.visits request now =
      [⟨2, [1, 2, 3, 4], ⟨⟨[], 3⟩, true⟩⟩, ⟨4, [3, 4], ⟨⟨[], 4⟩, true⟩⟩] := by
    rw [stands]
    unfold file request cursor contents
    cbv
  have plain : ∀ visit ∈ file.visits request now,
      cursor.Plain contents Playback.position visit := by
    intro visit member
    rw [visited, List.mem_cons, List.mem_singleton] at member
    apply plain_of_script_eq_nil contents visit
    cases member with
    | inl first => rw [first]
    | inr second => rw [second]
  obtain ⟨_, calls, _, _, plainly⟩ := reads_stand_alone unwatched contents Playback.position lock
    [⟨false, 1, [0]⟩, ⟨true, 2, [0, 0]⟩] request
  have poisoned : now.poisoned = true := congrArg Lock.poisoned stands
  have stays : (file.serve request now).state.poisoned = true :=
    (poisoned_serve request now).mpr (.inl poisoned)
  refine ⟨unwatched, poisoned, plain, (plainly plain).trans ?_, stays, ?_⟩
  · unfold contents
    cbv
  · rw [calls, visited]
    rfl

end Cursor
end BulkTransfer
