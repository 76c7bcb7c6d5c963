import BulkTransfer.Proofs.File.Visiting
import Mathlib.Algebra.GroupWithZero.Nat

/-!
# How reads tile the range that is filled

Filling a buffer makes one read after the other, each where the bytes claimed so far end and into
the part of the buffer that is left. However an adversary answers, as long as it claims no more than
it was given room for and does not interrupt for ever, the reads are few, every claimed part of the
buffer stays as the read that claimed it has left it, and what stops filling is the first thing that
can: a full buffer, an answer without bytes, or a failure.
-/

namespace BulkTransfer

variable {σ : Type}

namespace Outcome

/-- An answer to a read that was not cut off and claims no more bytes than there is room for. -/
def FitsIn (room : Nat) : Outcome IoError Nat → Prop
  | .done count => count ≤ room
  | .failed _ => True
  | .aborted _ => False

/-- Number of bytes that a read claims. -/
def claimed : Outcome IoError Nat → Nat
  | .done count => count
  | .failed _ | .aborted _ => 0

/-- An answer that also claims no bytes past the last offset. -/
structure Honest (offset room : Nat) (outcome : Outcome IoError Nat) : Prop where
  /-- The answer fits into the room there is. -/
  fits : outcome.FitsIn room
  /-- The bytes that are claimed have offsets. -/
  addressed : 0 < outcome.claimed → offset + outcome.claimed ≤ lastOffset

/-- Whether filling goes on after a read that ends so, if the buffer is not full. -/
def goesOn : Outcome IoError Nat → Bool
  | .done count => decide (0 < count)
  | .failed error => error.isInterrupted
  | .aborted _ => false

variable {outcome ending : Outcome IoError Nat} {offset room given : Nat}

theorem FitsIn.claimed_le (fits : outcome.FitsIn room) : outcome.claimed ≤ room := by
  cases outcome with
  | done count => exact fits
  | failed error => exact Nat.zero_le room
  | aborted cause => cases fits

theorem of_verdict_goesOn (came : outcome.verdict offset room = .goesOn given) :
    outcome.claimed = given ∧ given ≤ room ∧ outcome.goesOn = true := by
  rcases verdict_goesOn came with ⟨rfl, error, rfl, interrupted⟩ | ⟨positive, rfl, fits, _⟩
  · exact ⟨rfl, Nat.zero_le _, interrupted⟩
  · exact ⟨rfl, fits, decide_eq_true positive⟩

/-- An honest answer ends filling by giving nothing or by failing. -/
theorem Honest.of_verdict_ends (honest : outcome.Honest offset room)
    (came : outcome.verdict offset room = .ends ending) :
    ending = outcome ∧
      (outcome = .done 0 ∨ ∃ error, outcome = .failed error ∧ error.isInterrupted = false) := by
  cases outcome with
  | aborted cause => cases honest.fits
  | failed error =>
      rw [verdict] at came
      split at came
      · cases came
      · next calm =>
          cases came
          exact ⟨rfl, .inr ⟨error, rfl, Bool.eq_false_iff.mpr calm⟩⟩
  | done count =>
      cases count with
      | zero =>
          cases came
          exact ⟨rfl, .inl rfl⟩
      | succ count =>
          have within : ¬ lastOffset < offset + (count + 1) :=
            Nat.not_lt.mpr (honest.addressed (Nat.succ_pos count))
          rw [verdict, if_neg (Nat.not_lt.mpr honest.fits), if_neg within] at came
          cases came

end Outcome

/-- Number of bytes that a file claims in answer to a read. -/
def Visit.claim (visit : Visit σ) (file : File σ) : Nat :=
  (visit.answer file).outcome.claimed

theorem Visit.claim_of_goesOn {file : File σ} {offset given : Nat} {buffer : Bytes} {state : σ}
    (came : (file.readAt offset buffer state).outcome.verdict offset buffer.length =
      .goesOn given) : Visit.claim ⟨offset, buffer, state⟩ file = given :=
  (Outcome.of_verdict_goesOn came).1

namespace File

/-- Number of bytes that a file claims in answer to several reads. -/
def claimed (file : File σ) (visits : List (Visit σ)) : Nat :=
  (visits.map (·.claim file)).sum

/-- How often a file interrupts several reads. -/
def interruptions (file : File σ) (visits : List (Visit σ)) : Nat :=
  visits.countP fun visit => (visit.answer file).isInterrupted

/-- The reads by which a buffer is filled, and what they come to. -/
inductive Filled (file : File σ) :
    Nat → Bytes → σ → List (Visit σ) → Transfer σ IoError Nat → Prop where
  /-- A buffer without room is full. -/
  | full (offset : Nat) (state : σ) :
      Filled file offset [] state [] (.leaving (.done 0) [] state)
  /-- A read ends filling. -/
  | last {offset : Nat} {buffer : Bytes} {state : σ} {ending : Outcome IoError Nat}
      (wanted : buffer ≠ [])
      (came : (file.readAt offset buffer state).outcome.verdict offset buffer.length =
        .ends ending) :
      Filled file offset buffer state [⟨offset, buffer, state⟩]
        { file.readAt offset buffer state with outcome := ending }
  /-- A read has filled some of the buffer, and other reads fill the rest. -/
  | more {offset : Nat} {buffer : Bytes} {state : σ} {given : Nat} {visits : List (Visit σ)}
      {filling : Transfer σ IoError Nat} (wanted : buffer ≠ [])
      (came : (file.readAt offset buffer state).outcome.verdict offset buffer.length =
        .goesOn given)
      (later : Filled file (offset + given)
        ((file.readAt offset buffer state).buffer.drop given)
        (file.readAt offset buffer state).state visits filling) :
      Filled file offset buffer state (⟨offset, buffer, state⟩ :: visits)
        ((file.readAt offset buffer state).followedBy given filling)

/-- Filling makes its reads round by round. -/
theorem filled (file : File σ) (offset : Nat) (buffer : Bytes) (state : σ) :
    file.Filled offset buffer state (file.visits ⟨true, offset, buffer⟩ state)
      (file.fill offset buffer state) := by
  induction offset, buffer, state using file.fill_induction with
  | full offset state =>
      rw [visits_full, fill_nil]
      exact .full offset state
  | round offset buffer state wanted ih =>
      rw [file.visits_round offset wanted, file.fill_round offset wanted]
      cases came : (file.readAt offset buffer state).outcome.verdict offset buffer.length with
      | ends ending =>
          simp only [came]
          exact .last wanted came
      | goesOn given =>
          simp only [came]
          exact .more wanted came (ih given came)

/-- How filling stops after some reads: at the first thing that can stop it. -/
inductive Stops (file : File σ) (room : Nat) (visits : List (Visit σ)) :
    Outcome IoError Nat → Prop where
  /-- The buffer is full. -/
  | full (all : file.claimed visits = room)
      (going : ∀ visit ∈ visits, (visit.answer file).outcome.goesOn = true) :
      Stops file room visits (.done room)
  /-- The last read has given no bytes. -/
  | ended {before : List (Visit σ)} {last : Visit σ} (split : visits = before ++ [last])
      (going : ∀ visit ∈ before, (visit.answer file).outcome.goesOn = true)
      (nothing : (last.answer file).outcome = .done 0) :
      Stops file room visits (.done (file.claimed before))
  /-- The last read has failed and was not just interrupted. -/
  | failed {before : List (Visit σ)} {last : Visit σ} {error : IoError}
      (split : visits = before ++ [last])
      (going : ∀ visit ∈ before, (visit.answer file).outcome.goesOn = true)
      (fails : (last.answer file).outcome = .failed error)
      (calm : error.isInterrupted = false) : Stops file room visits (.failed error)

/-- How the reads of a range lie in it and in the buffer that is filled by them. -/
structure Tiles (file : File σ) (offset : Nat) (buffer : Bytes) (state : σ)
    (visits : List (Visit σ)) (filling : Transfer σ IoError Nat) : Prop where
  /-- The first read is given the whole buffer. -/
  first : ∀ visit after, visits = visit :: after → visit = ⟨offset, buffer, state⟩
  /-- Each read is made where the bytes claimed before it end, with as much of the buffer as is not
  claimed yet, and never with nothing. -/
  placed : ∀ before visit after, visits = before ++ visit :: after →
    visit.offset = offset + file.claimed before ∧
    file.claimed before + visit.buffer.length = buffer.length ∧
    visit.buffer ≠ []
  /-- Each read is given what the one before it has left past the bytes it claims. -/
  handed : ∀ before visit next after, visits = before ++ visit :: next :: after →
    next.buffer = (visit.answer file).buffer.drop (visit.claim file) ∧
    next.state = (visit.answer file).state
  /-- Bytes that a read claims are in the end as that read has left them. -/
  kept : ∀ before visit after, visits = before ++ visit :: after →
    (filling.buffer.drop (file.claimed before)).take (visit.claim file) =
      (visit.answer file).buffer.take (visit.claim file)
  /-- There is one read for each byte and each interruption at most, and one more. -/
  few : visits.length ≤ buffer.length + file.interruptions visits + 1

variable {file : File σ} {offset : Nat} {buffer : Bytes} {state : σ} {visits : List (Visit σ)}
  {filling : Transfer σ IoError Nat}

@[simp]
theorem claimed_nil (file : File σ) : file.claimed [] = 0 := rfl

@[simp]
theorem claimed_cons (file : File σ) (visit : Visit σ) (visits : List (Visit σ)) :
    file.claimed (visit :: visits) = visit.claim file + file.claimed visits := by
  simp [claimed]

namespace Filled

variable {before after : List (Visit σ)} {visit next : Visit σ}

theorem first (filled : file.Filled offset buffer state visits filling)
    (split : visits = visit :: after) : visit = ⟨offset, buffer, state⟩ := by
  cases filled with
  | full => cases split
  | last => exact (List.cons.inj split).1.symm
  | more => exact (List.cons.inj split).1.symm

theorem placed (filled : file.Filled offset buffer state visits filling)
    (split : visits = before ++ visit :: after) :
    visit.offset = offset + file.claimed before ∧
      file.claimed before + visit.buffer.length = buffer.length ∧ visit.buffer ≠ [] := by
  induction filled generalizing before with
  | full => simp at split
  | @last offset buffer state ending wanted came =>
      cases before with
      | nil =>
          obtain ⟨rfl, _⟩ := List.cons.inj split
          exact ⟨rfl, Nat.zero_add _, wanted⟩
      | cons earlier before => simp at split
  | @more offset buffer state given visits filling wanted came later ih =>
      cases before with
      | nil =>
          obtain ⟨rfl, _⟩ := List.cons.inj split
          exact ⟨rfl, Nat.zero_add _, wanted⟩
      | cons earlier before =>
          obtain ⟨rfl, rest⟩ := List.cons.inj split
          obtain ⟨place, size, some_room⟩ := ih rest
          obtain ⟨_, fits, _⟩ := Outcome.of_verdict_goesOn came
          rw [List.length_drop, file.length_readAt] at size
          rw [claimed_cons, Visit.claim_of_goesOn came]
          exact ⟨by omega, by omega, some_room⟩

theorem handed (filled : file.Filled offset buffer state visits filling)
    (split : visits = before ++ visit :: next :: after) :
    next.buffer = (visit.answer file).buffer.drop (visit.claim file) ∧
      next.state = (visit.answer file).state := by
  induction filled generalizing before with
  | full => simp at split
  | last => cases before <;> simp at split
  | @more offset buffer state given visits filling wanted came later ih =>
      cases before with
      | nil =>
          obtain ⟨rfl, rest⟩ := List.cons.inj split
          rw [later.first rest, Visit.claim_of_goesOn came]
          exact ⟨rfl, rfl⟩
      | cons earlier before => exact ih (List.cons.inj split).2

theorem kept (filled : file.Filled offset buffer state visits filling)
    (split : visits = before ++ visit :: after) :
    (filling.buffer.drop (file.claimed before)).take (visit.claim file) =
      (visit.answer file).buffer.take (visit.claim file) := by
  induction filled generalizing before with
  | full => simp at split
  | last =>
      cases before with
      | nil =>
          obtain ⟨rfl, _⟩ := List.cons.inj split
          rfl
      | cons earlier before => simp at split
  | @more offset buffer state given visits filling wanted came later ih =>
      obtain ⟨_, fits, _⟩ := Outcome.of_verdict_goesOn came
      have first_claim := Visit.claim_of_goesOn came
      have front : ((file.readAt offset buffer state).buffer.take given).length = given := by
        rw [List.length_take, file.length_readAt, Nat.min_eq_left fits]
      rw [Transfer.followedBy]
      cases before with
      | nil =>
          obtain ⟨rfl, _⟩ := List.cons.inj split
          rw [first_claim, claimed_nil, List.drop_zero,
            List.take_append_of_le_length (Nat.le_of_eq front.symm), List.take_take, Nat.min_self]
          rfl
      | cons earlier before =>
          obtain ⟨rfl, rest⟩ := List.cons.inj split
          rw [claimed_cons, first_claim, ← List.drop_drop,
            List.drop_append_of_le_length (Nat.le_of_eq front.symm),
            List.drop_of_length_le (Nat.le_of_eq front), List.nil_append]
          exact ih rest

theorem few (filled : file.Filled offset buffer state visits filling) :
    visits.length ≤ buffer.length + file.interruptions visits + 1 := by
  induction filled with
  | full => exact Nat.zero_le _
  | last => exact Nat.le_add_left _ _
  | @more offset buffer state given visits filling wanted came later ih =>
      rw [List.length_drop, file.length_readAt] at ih
      rcases Outcome.verdict_goesOn came with
        ⟨rfl, error, failed, interrupted⟩ | ⟨positive, _, fits, _⟩
      · have counted : file.interruptions (⟨offset, buffer, state⟩ :: visits) =
            file.interruptions visits + 1 := by
          refine List.countP_cons_of_pos ?_
          rw [Visit.answer, Transfer.isInterrupted, failed]
          exact interrupted
        rw [List.length_cons, counted]
        omega
      · have counted : file.interruptions visits ≤
            file.interruptions (⟨offset, buffer, state⟩ :: visits) :=
          (List.sublist_cons_self _ _).countP_le
        rw [List.length_cons]
        omega

/-- Honest answers let filling stop for no other reason than three. -/
theorem stops (filled : file.Filled offset buffer state visits filling)
    (honest : ∀ visit ∈ visits,
      (visit.answer file).outcome.Honest visit.offset visit.buffer.length) :
    file.Stops buffer.length visits filling.outcome := by
  induction filled with
  | full => exact .full rfl (by simp)
  | @last offset buffer state ending wanted came =>
      obtain ⟨rfl, nothing | ⟨error, failed, calm⟩⟩ :=
        (honest _ List.mem_cons_self).of_verdict_ends came
      · simp only [nothing]
        exact @Stops.ended σ file _ _ [] ⟨offset, buffer, state⟩ rfl (by simp) nothing
      · simp only [failed]
        exact @Stops.failed σ file _ _ [] ⟨offset, buffer, state⟩ error rfl (by simp) failed calm
  | @more offset buffer state given visits filling wanted came later ih =>
      let first : Visit σ := ⟨offset, buffer, state⟩
      obtain ⟨first_claim, fits, going⟩ : first.claim file = given ∧ given ≤ buffer.length ∧
        (first.answer file).outcome.goesOn = true := Outcome.of_verdict_goesOn came
      have stop := ih fun visit member => honest visit (List.mem_cons_of_mem _ member)
      rw [List.length_drop, file.length_readAt] at stop
      simp only [Transfer.followedBy]
      generalize filling.outcome = outcome at stop
      cases stop with
      | full all others =>
          have total : given + (buffer.length - given) = buffer.length := by omega
          rw [Outcome.map_done, total]
          refine .full ?_ (List.forall_mem_cons.mpr ⟨going, others⟩)
          rw [claimed_cons, first_claim, all, total]
      | @ended before last split others nothing =>
          rw [Outcome.map_done, ← first_claim, ← claimed_cons]
          exact .ended (congrArg _ split) (List.forall_mem_cons.mpr ⟨going, others⟩) nothing
      | failed split others fails calm =>
          exact .failed (congrArg _ split) (List.forall_mem_cons.mpr ⟨going, others⟩) fails calm

theorem tiles (filled : file.Filled offset buffer state visits filling) :
    file.Tiles offset buffer state visits filling where
  first _ _ := filled.first
  placed _ _ _ := filled.placed
  handed _ _ _ _ := filled.handed
  kept _ _ _ := filled.kept
  few := filled.few

end Filled

/-- Filling a buffer that lies within the offsets, from a file that answers as it likes but claims
no more than it was given room for: the reads tile the range and are few, filling stops at the first
thing that can stop it, and it never ends in an interruption. -/
theorem fill_tiles_range (file : File σ) {offset : Nat} {buffer : Bytes} {state : σ}
    (addressable : offset + buffer.length ≤ lastOffset)
    (fair : ∀ visit ∈ file.visits ⟨true, offset, buffer⟩ state,
      (visit.answer file).outcome.FitsIn visit.buffer.length) :
    let visits := file.visits ⟨true, offset, buffer⟩ state
    let filling := file.fill offset buffer state
    file.Tiles offset buffer state visits filling ∧
      file.Stops buffer.length visits filling.outcome ∧
      filling.events = visits.flatMap (fun visit => (visit.answer file).events) ∧
      filling.isInterrupted = false := by
  intro visits filling
  have filled : file.Filled offset buffer state visits filling := file.filled offset buffer state
  refine ⟨filled.tiles, filled.stops fun visit member => ?_, ?_, file.isInterrupted_fill _ _ _⟩
  · have fits := fair visit member
    obtain ⟨before, after, split⟩ := List.append_of_mem member
    obtain ⟨place, size, _⟩ := filled.placed split
    have bound : visit.claim file ≤ visit.buffer.length := fits.claimed_le
    exact ⟨fits, fun _ => (by omega : visit.offset + visit.claim file ≤ lastOffset)⟩
  · exact file.events_serve ⟨true, offset, buffer⟩ state

/-- Four bytes are wanted: one comes, with others that are not claimed, then an interruption, then
two more, and the last read fails. -/
theorem fill_tiles_range_replayed :
    let denied : IoError := .ofKind .permissionDenied
    let replies : List Reply :=
      [⟨.done 1, [1, 9, 9, 9], []⟩, ⟨.failed (.ofKind .interrupted), [8], []⟩,
        ⟨.done 2, [2, 3, 7], []⟩, ⟨.failed denied, [4], []⟩]
    let request : FileRequest := ⟨true, 5, [0, 0, 0, 0]⟩
    let visits := replaying.visits request replies
    let filling := replaying.fill 5 [0, 0, 0, 0] replies
    5 + [0, 0, 0, 0].length ≤ lastOffset ∧
      (∀ visit ∈ visits, (visit.answer replaying).outcome.FitsIn visit.buffer.length) ∧
      visits.map (fun visit => (visit.offset, visit.buffer)) =
        [(5, [0, 0, 0, 0]), (6, [9, 9, 9]), (6, [8, 9, 9]), (8, [7])] ∧
      visits.length ≤ 4 + 1 + 1 ∧
      (filling.buffer.drop 1).take 2 = [2, 3] ∧
      filling.outcome = .failed denied := by
  intro denied replies request visits filling
  let first : Visit (List Reply) := ⟨5, [0, 0, 0, 0], replies⟩
  let second : Visit (List Reply) := ⟨6, [9, 9, 9], replies.drop 1⟩
  let third : Visit (List Reply) := ⟨6, [8, 9, 9], replies.drop 2⟩
  let fourth : Visit (List Reply) := ⟨8, [7], replies.drop 3⟩
  have made : visits = [first, second, third, fourth] := by
    unfold visits first second third fourth request replies denied
    cbv
  have addressable : 5 + [0, 0, 0, 0].length ≤ lastOffset := by decide
  have fair : ∀ visit ∈ visits, (visit.answer replaying).outcome.FitsIn visit.buffer.length := by
    rw [made]
    simp only [List.forall_mem_cons]
    exact ⟨(by decide : 1 ≤ 4), trivial, (by decide : 2 ≤ 3), trivial, by simp⟩
  obtain ⟨tiles, stops, _⟩ := fill_tiles_range replaying addressable fair
  have kept := tiles.kept [first, second] third [fourth] made
  refine ⟨addressable, fair, ?_, ?_, kept, ?_⟩
  · rw [made]
    rfl
  · have few : visits.length ≤ 4 + replaying.interruptions visits + 1 := tiles.few
    rw [made] at few ⊢
    exact few
  · change replaying.Stops 4 visits filling.outcome at stops
    have last_read {before last} (split : visits = before ++ [last]) : last = fourth := by
      simpa [made] using (congrArg List.getLast? split).symm
    generalize filling.outcome = outcome at stops
    cases stops with
    | full all =>
        rw [made] at all
        cases all
    | ended split _ nothing =>
        rw [last_read split] at nothing
        cases nothing
    | failed split _ fails =>
        rw [last_read split] at fails
        exact fails.symm

end File
end BulkTransfer
