import BulkTransfer.Proofs.File.Likeness

/-!
# The reads that a request comes to

To meet a request a file is read once, or as often as it takes to fill the buffer. A file that
remembers its reads in its state tells them afterwards, and is read like one that does not. All
that a request reports is reported by these reads, its error is the error of one of them, and a file
that answers just these reads like another one meets the request like the other.
-/

namespace BulkTransfer

variable {σ τ : Type}

/-- A read made of a file. -/
structure Visit (σ : Type) where
  /-- Offset the read was made at. -/
  offset : Nat
  /-- Buffer it was given. -/
  buffer : Bytes
  /-- State the file was in. -/
  state : σ

/-- What a file answers to a read. -/
def Visit.answer (visit : Visit σ) (file : File σ) : Transfer σ IoError Nat :=
  file.readAt visit.offset visit.buffer visit.state

/-- Whether filling stops at a read that ends so, whatever was to be read. -/
def Outcome.stopsFilling : Outcome IoError Nat → Bool
  | .aborted _ => true
  | .failed error => !error.isInterrupted
  | .done _ => false

theorem Outcome.verdict_of_stopsFilling {outcome : Outcome IoError Nat} (offset room : Nat)
    (stops : outcome.stopsFilling = true) : outcome.verdict offset room = .ends outcome := by
  cases outcome with
  | aborted cause => rfl
  | failed error =>
      rw [stopsFilling, Bool.not_eq_true'] at stops
      rw [verdict, stops]
      rfl
  | done count => cases stops

theorem Outcome.map_of_stopsFilling {outcome : Outcome IoError Nat} (change : Nat → Nat)
    (stops : outcome.stopsFilling = true) : outcome.map change = outcome := by
  cases outcome with
  | aborted cause => rfl
  | failed error => rfl
  | done count => cases stops

namespace File

/-- Seen through a view of its states, one file is another: it answers and reports the same. -/
def SeenAs (view : σ → τ) (left : File σ) (right : File τ) : Prop :=
  ∀ offset buffer state,
    right.readAt offset buffer (view state) = (left.readAt offset buffer state).mapState view

namespace SeenAs

variable {view : σ → τ} {left : File σ} {right : File τ} (seen : left.SeenAs view right)

include seen

theorem fill (offset : Nat) (buffer : Bytes) (state : σ) :
    right.fill offset buffer (view state) = (left.fill offset buffer state).mapState view := by
  induction offset, buffer, state using left.fill_induction with
  | full offset state =>
      rw [fill_nil, fill_nil]
      rfl
  | round offset buffer state wanted ih =>
      rw [left.fill_round offset wanted, right.fill_round offset wanted, seen]
      simp only [Transfer.mapState]
      cases came : (left.readAt offset buffer state).outcome.verdict offset buffer.length with
      | ends outcome => rfl
      | goesOn given =>
          simp only [ih given came]
          rfl

theorem serve (request : FileRequest) (state : σ) :
    right.serve request (view state) = (left.serve request state).mapState view := by
  simp only [File.serve]
  split
  · exact seen.fill request.offset request.buffer state
  · exact seen request.offset request.buffer state

end SeenAs

/-- The same file, remembering in its state every read that is made of it. -/
def remembering (file : File σ) : File (σ × List (Visit σ)) where
  readAt offset buffer state :=
    (file.readAt offset buffer state.1).mapState fun reached =>
      (reached, state.2 ++ [⟨offset, buffer, state.1⟩])
  patience offset buffer state := file.patience offset buffer state.1
  length_readAt offset buffer state := file.length_readAt offset buffer state.1
  patience_lt offset buffer state := file.patience_lt offset buffer state.1

/-- Reads made of a file to meet a request, in order. -/
def visits (file : File σ) (request : FileRequest) (state : σ) : List (Visit σ) :=
  (file.remembering.serve request (state, [])).state.2

variable (file : File σ)

theorem seenAs_remembering_append (front : List (Visit σ)) :
    file.remembering.SeenAs (fun state => (state.1, front ++ state.2)) file.remembering := by
  intro offset buffer state
  simp [remembering, Transfer.mapState]

theorem visits_append (request : FileRequest) (state : σ) (front : List (Visit σ)) :
    (file.remembering.serve request (state, front)).state.2 =
      front ++ file.visits request state := by
  have same := (file.seenAs_remembering_append front).serve request (state, [])
  simp only [List.append_nil] at same
  rw [same]
  rfl

theorem visits_of_single {request : FileRequest} (single : request.full = false) (state : σ) :
    file.visits request state = [⟨request.offset, request.buffer, state⟩] := by
  rw [visits, serve, single]
  rfl

theorem visits_full (offset : Nat) (state : σ) : file.visits ⟨true, offset, []⟩ state = [] := by
  rw [visits, serve, if_pos rfl, fill_nil]
  rfl

/-- Each round of filling makes one read. -/
theorem visits_round (offset : Nat) {buffer : Bytes} (wanted : buffer ≠ []) (state : σ) :
    file.visits ⟨true, offset, buffer⟩ state =
      let answer := file.readAt offset buffer state
      ⟨offset, buffer, state⟩ ::
        match answer.outcome.verdict offset buffer.length with
        | .ends _ => []
        | .goesOn given =>
            file.visits ⟨true, offset + given, answer.buffer.drop given⟩ answer.state := by
  have read : file.remembering.readAt offset buffer (state, []) =
      (file.readAt offset buffer state).mapState fun reached =>
        (reached, [⟨offset, buffer, state⟩]) := rfl
  rw [visits, serve, if_pos rfl, file.remembering.fill_round offset wanted, read]
  simp only [Transfer.mapState]
  cases (file.readAt offset buffer state).outcome.verdict offset buffer.length with
  | ends outcome => rfl
  | goesOn given => exact file.visits_append ⟨true, offset + given, _⟩ _ _

/-- A request reports what its reads report, one after the other. -/
theorem events_serve (request : FileRequest) (state : σ) :
    (file.serve request state).events =
      (file.visits request state).flatMap fun visit => (visit.answer file).events := by
  obtain ⟨_ | _, offset, buffer⟩ := request
  · rw [file.visits_of_single rfl, List.flatMap_singleton]
    rfl
  · change (file.fill offset buffer state).events = _
    induction offset, buffer, state using file.fill_induction with
    | full offset state =>
        rw [file.visits_full, fill_nil]
        rfl
    | round offset buffer state wanted ih =>
        simp only [file.fill_round offset wanted, file.visits_round offset wanted]
        cases came : (file.readAt offset buffer state).outcome.verdict offset buffer.length with
        | ends outcome => exact (List.append_nil _).symm
        | goesOn given =>
            exact congrArg ((file.readAt offset buffer state).events ++ ·) (ih given came)

/-- A request ends as a read of it does that it cannot be gone on from. -/
theorem outcome_serve_of_stops {request : FileRequest} {state : σ} {visit : Visit σ}
    (visited : visit ∈ file.visits request state)
    (stops : request.full = true → (visit.answer file).outcome.stopsFilling = true) :
    (file.serve request state).outcome = (visit.answer file).outcome := by
  obtain ⟨_ | _, offset, buffer⟩ := request
  · rw [file.visits_of_single rfl, List.mem_singleton] at visited
    rw [visited]
    rfl
  · change (file.fill offset buffer state).outcome = _
    have stopped := stops rfl
    induction offset, buffer, state using file.fill_induction with
    | full offset state =>
        rw [file.visits_full] at visited
        cases visited
    | round offset buffer state wanted ih =>
        rw [file.visits_round offset wanted] at visited
        rw [file.fill_round offset wanted]
        cases visited with
        | head =>
            have ends := Outcome.verdict_of_stopsFilling offset buffer.length stopped
            rw [Visit.answer] at ends ⊢
            simp only [ends]
        | tail _ later =>
            cases came : (file.readAt offset buffer state).outcome.verdict offset buffer.length with
            | ends outcome =>
                simp only [came] at later
                cases later
            | goesOn given =>
                simp only [came] at later ⊢
                rw [Transfer.followedBy, ih given came later stops,
                  Outcome.map_of_stopsFilling _ stopped]

/-- A file that answers the reads of a request like another file, whatever state that one is in,
meets the request like the other. -/
theorem result_serve_of_visits {other : File τ} {request : FileRequest} {state : σ}
    (same : ∀ visit ∈ file.visits request state, ∀ there,
      (visit.answer file).result = (other.readAt visit.offset visit.buffer there).result)
    (there : τ) : (file.serve request state).result = (other.serve request there).result := by
  obtain ⟨_ | _, offset, buffer⟩ := request
  · exact same _ (by rw [file.visits_of_single rfl]; exact List.mem_cons_self) there
  · change (file.fill offset buffer state).result = (other.fill offset buffer there).result
    induction offset, buffer, state using file.fill_induction generalizing there with
    | full offset state =>
        rw [fill_nil, fill_nil]
        rfl
    | round offset buffer state wanted ih =>
        rw [file.visits_round offset wanted] at same
        have first := same _ List.mem_cons_self there
        have outcome_eq : (file.readAt offset buffer state).outcome =
            (other.readAt offset buffer there).outcome := congrArg Prod.fst first
        have buffer_eq : (file.readAt offset buffer state).buffer =
            (other.readAt offset buffer there).buffer := congrArg Prod.snd first
        simp only [file.fill_round offset wanted, other.fill_round offset wanted, ← outcome_eq]
        cases came : (file.readAt offset buffer state).outcome.verdict offset buffer.length with
        | ends outcome => exact Prod.ext rfl buffer_eq
        | goesOn given =>
            simp only [came] at same
            have later := ih given came (other.readAt offset buffer there).state
              fun visit visited => same visit (.tail _ visited)
            rw [buffer_eq] at later
            simp only [Transfer.result, Transfer.followedBy, buffer_eq, Prod.mk.injEq] at later ⊢
            exact ⟨congrArg (Outcome.map (given + ·)) later.1, congrArg (_ ++ ·) later.2⟩

end File
end BulkTransfer
