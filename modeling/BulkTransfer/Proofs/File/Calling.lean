import BulkTransfer.File.Script
import BulkTransfer.File.Watched
import BulkTransfer.Proofs.File.Replaying
import Mathlib.Algebra.GroupWithZero.Nat

/-!
# The calls that are made of a file

A watched file reports every read that is made of it. Filling a buffer that wants bytes makes one
at least, and all that it finds out about the file is in the reports: it fails with the error that
some call failed with, and it stops short because some call gave no bytes.
-/

namespace BulkTransfer

namespace Event

@[simp]
theorem calls_nil : calls [] = [] := rfl

@[simp]
theorem calls_append (earlier later : List Event) :
    calls (earlier ++ later) = calls earlier ++ calls later :=
  List.filterMap_append

end Event

/-- Number of bytes that a call was answered with. -/
def ReadCall.count (call : ReadCall) : Nat :=
  match call.outcome with
  | .done count => count
  | _ => 0

/-- What can go wrong with a file in the middle of reading it. -/
inductive Mishap where
  /-- It fails with an error. -/
  | failure (error : IoError)
  /-- It ends after it has given so many bytes. -/
  | ending (given : Nat)

/-- The calls meet with a mishap: one of them fails, and was not just interrupted, or one of them
gives no bytes. -/
def Mishap.MetIn (calls : List ReadCall) : Mishap → Prop
  | failure error => error.isInterrupted = false ∧ ∃ call ∈ calls, call.outcome = .failed error
  | ending given =>
      (∃ call ∈ calls, call.outcome = .done 0) ∧ (calls.map ReadCall.count).sum = given

theorem Mishap.not_metIn_nil (mishap : Mishap) : ¬ mishap.MetIn [] := by
  cases mishap <;> simp [MetIn]

namespace File

variable {σ : Type} (file : File σ)

/-- A file that reports no calls. -/
def Unwatched : Prop :=
  ∀ offset buffer state, Event.calls (file.readAt offset buffer state).events = []

theorem calls_watched (offset : Nat) (buffer : Bytes) (state : σ) :
    Event.calls (file.watched.readAt offset buffer state).events =
      Event.calls (file.readAt offset buffer state).events ++
        [⟨offset, buffer.length, (file.readAt offset buffer state).outcome⟩] :=
  Event.calls_append _ _

/-- Filling a buffer that wants bytes reports what its first read reports, and possibly more. -/
theorem exists_events_fill (offset : Nat) {buffer : Bytes} (wanted : buffer ≠ []) (state : σ) :
    ∃ later, (file.fill offset buffer state).events =
      (file.readAt offset buffer state).events ++ later := by
  have alone : ∃ later, (file.readAt offset buffer state).events =
      (file.readAt offset buffer state).events ++ later := ⟨[], (List.append_nil _).symm⟩
  rw [file.fill_of_readAt wanted rfl]
  split
  · exact alone
  · split
    · exact ⟨_, rfl⟩
    · exact alone
  · exact alone
  · split
    · exact alone
    · split
      · exact alone
      · exact ⟨_, rfl⟩

/-- Filling a buffer that wants bytes calls the file. -/
theorem calls_fill_watched_ne_nil (offset : Nat) {buffer : Bytes} (wanted : buffer ≠ [])
    (state : σ) : Event.calls (file.watched.fill offset buffer state).events ≠ [] := by
  obtain ⟨later, events⟩ := file.watched.exists_events_fill offset wanted state
  rw [events, Event.calls_append, calls_watched]
  simp

variable {file} (unwatched : file.Unwatched) {offset : Nat} {buffer : Bytes} {state : σ}

include unwatched

theorem Unwatched.calls_watched (offset : Nat) (buffer : Bytes) (state : σ) :
    Event.calls (file.watched.readAt offset buffer state).events =
      [⟨offset, buffer.length, (file.watched.readAt offset buffer state).outcome⟩] := by
  rw [File.calls_watched, unwatched]
  rfl

/-- If a call fails, and was not just interrupted, then filling fails with the same error. -/
theorem fill_of_failure {error : IoError}
    (met : (Mishap.failure error).MetIn
      (Event.calls (file.watched.fill offset buffer state).events)) :
    (file.watched.fill offset buffer state).outcome = .failed error := by
  obtain ⟨calm, call, called, failed⟩ := met
  fun_induction file.watched.fill offset buffer state with
  | case1 => cases called
  | case2 | case4 | case5 =>
      rw [unwatched.calls_watched, List.mem_singleton] at called
      rw [called] at failed
      exact failed
  | case6 _ _ _ _ _ _ outcome | case7 _ _ _ _ _ _ outcome =>
      rw [unwatched.calls_watched, List.mem_singleton] at called
      rw [called] at failed
      cases outcome.symm.trans failed
  | case3 offset buffer state _ answer other outcome interrupted ih =>
      rw [Transfer.after, Event.calls_append, unwatched.calls_watched, List.singleton_append,
        List.mem_cons] at called
      rcases called with rfl | later
      · cases outcome.symm.trans failed
        exact absurd (calm.symm.trans interrupted) (by decide)
      · exact ih later
  | case8 offset buffer state _ answer count outcome _ _ rest ih =>
      rw [Event.calls_append, unwatched.calls_watched, List.singleton_append,
        List.mem_cons] at called
      rcases called with rfl | later
      · cases outcome.symm.trans failed
      · rw [show rest.outcome = _ from ih later, Outcome.map_failed]

theorem fill_of_ending {given : Nat}
    (met : (Mishap.ending given).MetIn
      (Event.calls (file.watched.fill offset buffer state).events)) :
    (file.watched.fill offset buffer state).outcome = .done given ∧ given < buffer.length := by
  obtain ⟨⟨call, called, ended⟩, rfl⟩ := met
  fun_induction file.watched.fill offset buffer state with
  | case1 => cases called
  | case2 _ _ _ _ _ _ outcome | case4 _ _ _ _ _ _ outcome
  | case6 _ _ _ _ _ _ outcome | case7 _ _ _ _ _ _ outcome =>
      rw [unwatched.calls_watched, List.mem_singleton] at called
      rw [called] at ended
      cases outcome.symm.trans ended
  | case5 offset buffer state wanted answer outcome =>
      rw [unwatched.calls_watched]
      simp [ReadCall.count, answer, outcome, List.length_pos_iff, wanted]
  | case3 offset buffer state _ answer _ outcome _ ih =>
      rw [Transfer.after, Event.calls_append, unwatched.calls_watched, List.singleton_append]
        at called ⊢
      rcases List.mem_cons.mp called with rfl | later
      · cases outcome.symm.trans ended
      · obtain ⟨stopped, short⟩ := ih later
        have kept : answer.buffer.length = buffer.length := file.watched.length_readAt _ _ _
        have none_given : ReadCall.count ⟨offset, buffer.length, answer.outcome⟩ = 0 := by
          rw [ReadCall.count, outcome]
        rw [List.map_cons, List.sum_cons, none_given, Nat.zero_add]
        exact ⟨stopped, kept ▸ short⟩
  | case8 offset buffer state _ answer count outcome _ _ rest ih =>
      rw [Event.calls_append, unwatched.calls_watched, List.singleton_append] at called ⊢
      rcases List.mem_cons.mp called with rfl | later
      · cases outcome.symm.trans ended
      · obtain ⟨stopped, short⟩ := ih later
        change rest.outcome = .done (((Event.calls rest.events).map ReadCall.count).sum) at stopped
        change ((Event.calls rest.events).map ReadCall.count).sum < _ at short
        have kept : answer.buffer.length = buffer.length := file.watched.length_readAt _ _ _
        have some_given : ReadCall.count ⟨offset, buffer.length, answer.outcome⟩ = count + 1 := by
          rw [ReadCall.count, outcome]
        rw [List.length_drop, kept] at short
        rw [List.map_cons, List.sum_cons, some_given, stopped]
        exact ⟨rfl, by omega⟩

end File

theorem Contents.unwatched_scripted (contents : Contents) : contents.scripted.Unwatched := by
  intro offset buffer script
  simp only [Contents.scripted]
  cases Turn.next script <;> rfl

end BulkTransfer
