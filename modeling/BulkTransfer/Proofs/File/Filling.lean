import BulkTransfer.Contents
import BulkTransfer.File.Request
import Mathlib.Data.List.Permutation

/-!
# What filling a buffer makes of the reads below it

Filling adds nothing of its own to the events of the reads it makes. If the file shows fixed
contents, filling finds the bytes that are there, in whatever pieces the file delivers them and
however often it is interrupted.
-/

namespace BulkTransfer
namespace File

variable {σ : Type}

/-- An event that some read of the file reports. -/
def Emits (file : File σ) (event : Event) : Prop :=
  ∃ offset buffer state, event ∈ (file.readAt offset buffer state).events

/-- Filling reports what its reads report, and nothing else. -/
theorem emits_of_mem_fill (file : File σ) {offset : Nat} {buffer : Bytes} {state : σ}
    {event : Event} (member : event ∈ (file.fill offset buffer state).events) :
    file.Emits event := by
  fun_induction file.fill offset buffer state with
  | case1 => simp [Transfer.leaving] at member
  | case2 | case4 | case5 | case6 | case7 => exact ⟨_, _, _, member⟩
  | case3 _ _ _ _ answer _ _ _ ih =>
      rcases List.mem_append.mp member with own | later
      · exact ⟨_, _, _, own⟩
      · exact ih later
  | case8 _ _ _ _ answer _ _ _ _ rest ih =>
      rcases List.mem_append.mp member with own | later
      · exact ⟨_, _, _, own⟩
      · exact ih later

theorem emits_of_mem_serve (file : File σ) {request : FileRequest} {state : σ} {event : Event}
    (member : event ∈ (file.serve request state).events) : file.Emits event := by
  rw [serve] at member
  split at member
  · exact file.emits_of_mem_fill member
  · exact ⟨_, _, _, member⟩

/-- Each read is interrupted, or delivers bytes of the contents that are there at its offset; it
delivers none only if there are none or none are wanted. How many it delivers is left open. -/
def Shows (file : File σ) (contents : Contents) : Prop :=
  ∀ offset buffer state,
    (file.readAt offset buffer state).isInterrupted = true ∨
      ∃ count,
        (file.readAt offset buffer state).outcome = .done count ∧
        count ≤ min buffer.length (contents.size - offset) ∧
        (file.readAt offset buffer state).buffer.take count = contents.slice offset count ∧
        (count = 0 → buffer = [] ∨ contents.size ≤ offset)

theorem Shows.delivers {file : File σ} {contents : Contents} (shows : file.Shows contents)
    {offset count : Nat} {buffer : Bytes} {state : σ}
    (done : (file.readAt offset buffer state).outcome = .done count) :
    count ≤ min buffer.length (contents.size - offset) ∧
      (file.readAt offset buffer state).buffer.take count = contents.slice offset count ∧
      (count = 0 → buffer = [] ∨ contents.size ≤ offset) := by
  rcases shows offset buffer state with interrupted | ⟨delivered, outcome, facts⟩
  · simp [Transfer.isInterrupted, done] at interrupted
  · rw [done] at outcome
    cases outcome
    exact facts

theorem Shows.interrupted_or_done {file : File σ} {contents : Contents}
    (shows : file.Shows contents) (offset : Nat) (buffer : Bytes) (state : σ) :
    (file.readAt offset buffer state).isInterrupted = true ∨
      ∃ count, (file.readAt offset buffer state).outcome = .done count := by
  rcases shows offset buffer state with interrupted | ⟨count, done, _⟩
  · exact .inl interrupted
  · exact .inr ⟨count, done⟩

/-- Filling from shown contents delivers as many bytes as fit and are there, at the front. -/
theorem fill_of_shows {file : File σ} {contents : Contents} (shows : file.Shows contents)
    (addressable : contents.size ≤ lastOffset) (offset : Nat) (buffer : Bytes) (state : σ) :
    (file.fill offset buffer state).outcome =
        .done (min buffer.length (contents.size - offset)) ∧
      (file.fill offset buffer state).buffer.take (min buffer.length (contents.size - offset)) =
        contents.slice offset buffer.length := by
  fun_induction file.fill offset buffer state with
  | case1 => simp [Transfer.leaving, Contents.slice]
  | case2 offset buffer state _ answer _ outcome =>
      rcases shows.interrupted_or_done offset buffer state with interrupted | ⟨_, done⟩
      · simp_all [Transfer.isInterrupted, answer]
      · simp_all [answer]
  | case3 offset buffer state _ answer _ _ _ ih =>
      have kept : answer.buffer.length = buffer.length := file.length_readAt _ _ _
      rw [kept] at ih
      exact ih
  | case4 offset buffer state _ answer _ outcome calm =>
      rcases shows.interrupted_or_done offset buffer state with interrupted | ⟨_, done⟩
      · simp_all [Transfer.isInterrupted, answer]
      · simp_all [answer]
  | case5 offset buffer state wanted answer outcome =>
      obtain ⟨_, _, none_left⟩ := shows.delivers outcome
      have past : contents.size ≤ offset := (none_left rfl).resolve_left wanted
      simp [answer, outcome, Nat.sub_eq_zero_of_le past, contents.slice_of_size_le _ past]
  | case6 offset buffer state _ answer count outcome overrun =>
      obtain ⟨bound, _⟩ := shows.delivers outcome
      omega
  | case7 offset buffer state _ answer count outcome fits past =>
      obtain ⟨bound, _⟩ := shows.delivers outcome
      omega
  | case8 offset buffer state _ answer count outcome fits inside rest ih =>
      obtain ⟨bound, front, _⟩ := shows.delivers outcome
      have kept : answer.buffer.length = buffer.length := file.length_readAt _ _ _
      obtain ⟨ending, bytes⟩ := ih
      simp only [List.length_drop, kept] at ending bytes
      have total : min buffer.length (contents.size - offset) =
          (count + 1) + min (buffer.length - (count + 1))
            (contents.size - (offset + (count + 1))) := by
        omega
      have width : buffer.length = (count + 1) + (buffer.length - (count + 1)) := by omega
      have front_length : (answer.buffer.take (count + 1)).length = count + 1 := by
        rw [List.length_take, kept]
        omega
      constructor
      · rw [show rest.outcome = _ from ending, Outcome.map_done, total]
      · rw [total, List.take_append, front_length,
          List.take_of_length_le (by omega : (answer.buffer.take (count + 1)).length ≤ _)]
        rw [width, contents.slice_add _ (by omega), ← show _ = contents.slice offset _ from front]
        simp only [Nat.add_sub_cancel_left]
        rw [← bytes]

end File

namespace Contents

/-- A file that is interrupted before every read and then delivers one byte at most. -/
def hesitant (contents : Contents) : File Bool where
  readAt offset buffer ready :=
    if ready then
      .delivering (contents.slice offset (min 1 buffer.length)) buffer false
    else
      .leaving (.failed (.ofKind .interrupted)) buffer true
  patience _ _ ready := if ready then 0 else 1
  length_readAt offset buffer ready := by
    cases ready with
    | false => rfl
    | true => exact length_overlay _ _
  patience_lt offset buffer ready interrupted := by
    cases ready with
    | false => exact Nat.zero_lt_one
    | true => simp at interrupted

theorem shows_hesitant (contents : Contents) : contents.hesitant.Shows contents := by
  intro offset buffer ready
  cases ready with
  | false => exact .inl rfl
  | true =>
      have size := contents.length_slice offset (min 1 buffer.length)
      refine .inr ⟨_, rfl, by rw [size]; omega, ?_, ?_⟩
      · rw [slice_length_slice]
        exact take_overlay rfl (by rw [size]; omega)
      · intro none_read
        rw [size] at none_read
        rcases Nat.eq_zero_or_pos buffer.length with empty | some_room
        · exact .inl (List.length_eq_zero_iff.mp empty)
        · exact .inr (by omega)

end Contents
end BulkTransfer
