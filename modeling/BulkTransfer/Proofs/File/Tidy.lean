import BulkTransfer.Proofs.File.Calling

/-!
# What filling leaves alone

A tidy file writes no more than it claims. Filling from a tidy file then leaves the buffer as it was
past the bytes that it claims itself, in however many reads it came by them. And if the file shows
fixed contents, no read is made past their end that was not asked for there.
-/

namespace BulkTransfer

theorem Outcome.exists_of_map_eq_done {ε α β : Type} {change : α → β} {outcome : Outcome ε α}
    {value : β} (done : outcome.map change = .done value) :
    ∃ earlier, outcome = .done earlier ∧ change earlier = value := by
  cases outcome with
  | done earlier =>
      rw [map_done, Outcome.done.injEq] at done
      exact ⟨earlier, rfl, done⟩
  | failed error => cases done
  | aborted cause => cases done

variable {σ : Type}

/-- If bytes are claimed, the buffer is left as it was past them. -/
def Transfer.LeavesRest (transfer : Transfer σ IoError Nat) (buffer : Bytes) : Prop :=
  ∀ count, transfer.outcome = .done count → transfer.buffer.drop count = buffer.drop count

namespace File

/-- Reads write nothing past the bytes they claim, and nothing at all if they fail. -/
structure Tidy (file : File σ) : Prop where
  /-- A read leaves the buffer as it was past the bytes it claims. -/
  done : ∀ offset buffer state, (file.readAt offset buffer state).LeavesRest buffer
  /-- A read that fails leaves the buffer as it was. -/
  failed : ∀ {offset buffer state error},
    (file.readAt offset buffer state).outcome = .failed error →
      (file.readAt offset buffer state).buffer = buffer

variable {file : File σ} {contents : Contents} {offset : Nat} {buffer : Bytes} {state : σ}

/-- Filling from a tidy file leaves the buffer as it was past the bytes it claims, whatever the file
shows. -/
theorem Tidy.leavesRest_fill (tidy : file.Tidy) (offset : Nat) (buffer : Bytes) (state : σ) :
    (file.fill offset buffer state).LeavesRest buffer := by
  -- A read that is made again has left the buffer alone, and one that is gone on from has left
  -- alone all that the reads after it are given.
  fun_induction file.fill offset buffer state with
  | case1 =>
      intro count _
      simp [Transfer.leaving]
  | case2 offset buffer state | case4 offset buffer state | case5 offset buffer state =>
      exact tidy.done offset buffer state
  | case3 offset buffer state _ answer _ outcome _ ih =>
      have kept : answer.buffer = buffer := tidy.failed outcome
      intro count claimed
      exact (ih count claimed).trans (congrArg (List.drop count) kept)
  | case6 | case7 =>
      intro count claimed
      cases claimed
  | case8 offset buffer state _ answer first outcome fits _ rest ih =>
      have kept : answer.buffer.drop (first + 1) = buffer.drop (first + 1) :=
        tidy.done offset buffer state _ outcome
      have size : answer.buffer.length = buffer.length := file.length_readAt _ _ _
      have front : (answer.buffer.take (first + 1)).length = first + 1 := by
        rw [List.length_take, size]
        omega
      intro count claimed
      obtain ⟨more, ending, rfl⟩ := Outcome.exists_of_map_eq_done claimed
      have later : rest.buffer.drop more = (answer.buffer.drop (first + 1)).drop more :=
        ih more ending
      calc (answer.buffer.take (first + 1) ++ rest.buffer).drop (first + 1 + more)
        _ = rest.buffer.drop more := by
            rw [← List.drop_drop, List.drop_append_of_le_length (Nat.le_of_eq front.symm),
              List.drop_of_length_le (Nat.le_of_eq front), List.nil_append]
        _ = (buffer.drop (first + 1)).drop more := by rw [later, kept]
        _ = buffer.drop (first + 1 + more) := List.drop_drop

/-- Filling from a tidy file that shows contents writes what they hold over the front of the buffer
and does nothing else to it. -/
theorem Tidy.buffer_fill (tidy : file.Tidy) (shows : file.Shows contents)
    (addressable : contents.size ≤ lastOffset) (offset : Nat) (buffer : Bytes) (state : σ) :
    (file.fill offset buffer state).buffer =
      overlay (contents.slice offset buffer.length) buffer := by
  obtain ⟨done, front⟩ := fill_of_shows shows addressable offset buffer state
  have back := tidy.leavesRest_fill offset buffer state _ done
  rw [overlay_of_length_le (contents.length_slice_le _ _), contents.length_slice, ← front, ← back,
    List.take_append_drop]

theorem Shows.watched (shows : file.Shows contents) : file.watched.Shows contents :=
  shows

/-- A read of shown contents ends where they end, or where it began. -/
theorem Shows.offset_add_count_le (shows : file.Shows contents) (offset : Nat) (buffer : Bytes)
    (state : σ) :
    let call : ReadCall := ⟨offset, buffer.length, (file.readAt offset buffer state).outcome⟩
    call.offset + call.count ≤ max offset contents.size := by
  intro call
  cases outcome : (file.readAt offset buffer state).outcome with
  | done count =>
      have bound := (shows.delivers outcome).1
      simp only [call, ReadCall.count, outcome]
      omega
  | failed error =>
      simp only [call, ReadCall.count, outcome]
      omega
  | aborted cause =>
      simp only [call, ReadCall.count, outcome]
      omega

/-- However filling goes from read to read, it does not get past the end of shown contents, unless
it was asked to begin there. -/
theorem Shows.offset_le_of_mem_calls (shows : file.Shows contents) (unwatched : file.Unwatched)
    {call : ReadCall}
    (called : call ∈ Event.calls (file.watched.fill offset buffer state).events) :
    call.offset + call.count ≤ max offset contents.size := by
  fun_induction file.watched.fill offset buffer state with
  | case1 => cases called
  | case2 offset buffer state | case4 offset buffer state | case5 offset buffer state
  | case6 offset buffer state | case7 offset buffer state =>
      rw [unwatched.calls_watched, List.mem_singleton] at called
      rw [called]
      exact shows.watched.offset_add_count_le offset buffer state
  | case3 offset buffer state _ answer _ _ _ ih =>
      rw [Transfer.after, Event.calls_append, unwatched.calls_watched, List.singleton_append,
        List.mem_cons] at called
      rcases called with rfl | later
      · exact shows.watched.offset_add_count_le offset buffer state
      · exact ih later
  | case8 offset buffer state _ answer count outcome _ _ rest ih =>
      rw [Event.calls_append, unwatched.calls_watched, List.singleton_append,
        List.mem_cons] at called
      rcases called with rfl | later
      · exact shows.watched.offset_add_count_le offset buffer state
      · have bound := (shows.watched.delivers outcome).1
        have reached := ih later
        omega

end File

namespace Contents

theorem tidy_hesitant (contents : Contents) : contents.hesitant.Tidy := by
  constructor
  · intro offset buffer ready count done
    cases ready with
    | false => cases done
    | true =>
        cases done
        have size := contents.length_slice_le offset (min 1 buffer.length)
        exact drop_overlay rfl (Nat.le_trans size (Nat.min_le_right _ _))
  · intro offset buffer ready error failed
    cases ready with
    | false => rfl
    | true => cases failed

theorem unwatched_hesitant (contents : Contents) : contents.hesitant.Unwatched := by
  intro offset buffer ready
  cases ready <;> rfl

end Contents
end BulkTransfer
