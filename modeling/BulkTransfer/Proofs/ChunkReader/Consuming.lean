import BulkTransfer.ChunkReader.Basic
import Mathlib.Algebra.GroupWithZero.Nat

/-!
# Consumers

A consumer reads with one buffer after the other until a read tells that it met the end or goes
wrong, or no buffer is left. What it gets of a string of bytes that is handed out in order is the
bytes cut into pieces as long as the buffers.
-/

namespace BulkTransfer

/-- Bytes cut into pieces of given lengths until they are used up; the last piece may be shorter. -/
def cut : List Nat → Bytes → List Bytes
  | [], _ => []
  | room :: rooms, bytes =>
      if bytes.length ≤ room then [bytes] else bytes.take room :: cut rooms (bytes.drop room)

section Cutting

variable {bytes : Bytes} {rooms : List Nat}

theorem flatten_cut (rooms : List Nat) (bytes : Bytes) :
    (cut rooms bytes).flatten = bytes.take rooms.sum := by
  induction rooms generalizing bytes with
  | nil => rfl
  | cons room rooms ih =>
      rw [cut, List.sum_cons]
      split
      · next last =>
          rw [List.take_of_length_le (Nat.le_trans last (Nat.le_add_right _ _))]
          exact List.append_nil bytes
      · rw [List.flatten_cons, ih, ← List.take_add]

theorem ne_nil_of_mem_cut (wanted : ∀ room ∈ rooms, 0 < room) (some_left : bytes ≠ [])
    {piece : Bytes} (member : piece ∈ cut rooms bytes) : piece ≠ [] := by
  induction rooms generalizing bytes with
  | nil => cases member
  | cons room rooms ih =>
      rw [cut] at member
      split at member
      · rw [List.mem_singleton.mp member]
        exact some_left
      · next more =>
          have positive : 0 < room := wanted room List.mem_cons_self
          cases member with
          | head =>
              rw [ne_eq, List.take_eq_nil_iff, not_or]
              exact ⟨Nat.ne_of_gt positive, some_left⟩
          | tail _ later =>
              refine ih (fun other listed => wanted other (.tail _ listed)) ?_ later
              rw [ne_eq, List.drop_eq_nil_iff]
              exact more

/-- If the lengths do not reach all the bytes, each of them makes a piece. -/
theorem lengths_cut_of_lt (short : rooms.sum < bytes.length) :
    (cut rooms bytes).map List.length = rooms := by
  induction rooms generalizing bytes with
  | nil => rfl
  | cons room rooms ih =>
      rw [List.sum_cons] at short
      have more : ¬ bytes.length ≤ room := by omega
      have later : rooms.sum < (bytes.drop room).length := by
        rw [List.length_drop]
        omega
      rw [cut, if_neg more, List.map_cons, ih later, List.length_take, Nat.min_eq_left (by omega)]

theorem lengths_dropLast_cut (rooms : List Nat) (bytes : Bytes) :
    (cut rooms bytes).dropLast.map List.length <+: rooms := by
  induction rooms generalizing bytes with
  | nil => exact List.nil_prefix
  | cons room rooms ih =>
      rw [cut]
      split
      · exact List.nil_prefix
      · next more =>
          have whole : (bytes.take room).length = room := by
            rw [List.length_take]
            omega
          cases later : cut rooms (bytes.drop room) with
          | nil => exact List.nil_prefix
          | cons piece pieces =>
              have rest := ih (bytes.drop room)
              rw [later] at rest
              rw [List.dropLast_cons_cons, List.map_cons, whole]
              exact (List.cons_prefix_cons).mpr ⟨rfl, rest⟩

theorem length_cut_le (wanted : ∀ room ∈ rooms, 0 < room) (some_left : bytes ≠ []) :
    (cut rooms bytes).length ≤ bytes.length := by
  induction rooms generalizing bytes with
  | nil => exact Nat.zero_le _
  | cons room rooms ih =>
      rw [cut]
      split
      · exact List.length_pos_iff.mpr some_left
      · next more =>
          have positive : 0 < room := wanted room List.mem_cons_self
          have later : bytes.drop room ≠ [] := by
            rw [ne_eq, List.drop_eq_nil_iff]
            exact more
          have rest := ih (fun other listed => wanted other (.tail _ listed)) later
          rw [List.length_drop] at rest
          rw [List.length_cons]
          omega

theorem length_cut_replicate {step calls : Nat} (positive : 0 < step) (some_left : bytes ≠ [])
    (enough : bytes.length ≤ calls * step) :
    (cut (List.replicate calls step) bytes).length = (bytes.length + (step - 1)) / step := by
  induction calls generalizing bytes with
  | zero =>
      rw [Nat.zero_mul, Nat.le_zero, List.length_eq_zero_iff] at enough
      exact absurd enough some_left
  | succ calls ih =>
      have some_length := List.length_pos_iff.mpr some_left
      rw [List.replicate_succ, cut]
      split
      · next last =>
          have once : bytes.length + (step - 1) = (bytes.length - 1) + step := by omega
          rw [once, Nat.add_div_right _ positive, Nat.div_eq_of_lt (by omega)]
          rfl
      · next more =>
          have later : bytes.drop step ≠ [] := by
            rw [ne_eq, List.drop_eq_nil_iff]
            exact more
          have reach : (bytes.drop step).length ≤ calls * step := by
            rw [List.length_drop]
            rw [Nat.succ_mul] at enough
            omega
          have again : bytes.length + (step - 1) = bytes.length - step + (step - 1) + step := by
            omega
          rw [List.length_cons, ih later reach, List.length_drop, again,
            Nat.add_div_right _ positive]

theorem rooms_pos {buffers : List Bytes} (wanted : ∀ buffer ∈ buffers, buffer ≠ []) :
    ∀ room ∈ buffers.map List.length, 0 < room := by
  intro room member
  obtain ⟨buffer, listed, rfl⟩ := List.mem_map.mp member
  exact List.length_pos_iff.mpr (wanted buffer listed)

/-- Buffers that want bytes have room for one byte each at least. -/
theorem length_le_sum {buffers : List Bytes} (wanted : ∀ buffer ∈ buffers, buffer ≠ []) :
    buffers.length ≤ (buffers.map List.length).sum := by
  induction buffers with
  | nil => exact Nat.le_refl 0
  | cons buffer rest ih =>
      have some_room := List.length_pos_iff.mpr (wanted buffer List.mem_cons_self)
      have others := ih fun other listed => wanted other (.tail _ listed)
      rw [List.map_cons, List.sum_cons, List.length_cons]
      omega

end Cutting

/-- What a consumer has got who read with one buffer after the other. Its outcome tells whether the
end was met, if no read went wrong. -/
structure Drained (σ ε : Type) extends Step σ ε Bool where
  /-- What each read gave. -/
  pieces : List Bytes

namespace Drained

variable {σ ε : Type}

/-- The same, with other events before its own. -/
def after (earlier : List Event) (drained : Drained σ ε) : Drained σ ε :=
  { drained with events := earlier ++ drained.events }

/-- The same, with a piece before its own. -/
def behind (piece : Bytes) (drained : Drained σ ε) : Drained σ ε :=
  { drained with pieces := piece :: drained.pieces }

end Drained

section Reading

variable {σ ε : Type} {read : Bytes → σ → Transfer σ ε Portion} {state : σ} {buffer : Bytes}
  (rest : List Bytes)

/-- Read with one buffer after the other, until a read tells that it met the end or goes wrong. -/
def readThrough (read : Bytes → σ → Transfer σ ε Portion) : List Bytes → σ → Drained σ ε
  | [], state => { outcome := .done false, state, events := [], pieces := [] }
  | buffer :: rest, state =>
      let answer := read buffer state
      match answer.outcome with
      | .failed error => { answer with outcome := .failed error, pieces := [] }
      | .aborted cause => { answer with outcome := .aborted cause, pieces := [] }
      | .done portion =>
          let piece := answer.buffer.take portion.count
          if portion.atEnd then
            { answer with outcome := .done true, pieces := [piece] }
          else
            ((readThrough read rest answer.state).behind piece).after answer.events

theorem readThrough_last {reached : σ} {events : List Event} {filled : Bytes} {count : Nat}
    (last : read buffer state = ⟨⟨.done ⟨count, true⟩, reached, events⟩, filled⟩) :
    readThrough read (buffer :: rest) state =
      ⟨⟨.done true, reached, events⟩, [filled.take count]⟩ := by
  simp [readThrough, last]

theorem readThrough_more {reached : σ} {events : List Event} {filled : Bytes} {count : Nat}
    (more : read buffer state = ⟨⟨.done ⟨count, false⟩, reached, events⟩, filled⟩) :
    readThrough read (buffer :: rest) state =
      ((readThrough read rest reached).behind (filled.take count)).after events := by
  simp [readThrough, more]

theorem readThrough_failed {reached : σ} {events : List Event} {filled : Bytes} {error : ε}
    (failed : read buffer state = ⟨⟨.failed error, reached, events⟩, filled⟩) :
    readThrough read (buffer :: rest) state = ⟨⟨.failed error, reached, events⟩, []⟩ := by
  simp [readThrough, failed]

theorem readThrough_aborted {reached : σ} {events : List Event} {filled : Bytes} {cause : Abort}
    (aborted : read buffer state = ⟨⟨.aborted cause, reached, events⟩, filled⟩) :
    readThrough read (buffer :: rest) state = ⟨⟨.aborted cause, reached, events⟩, []⟩ := by
  simp [readThrough, aborted]

/-- What comes before the first read comes before all of them. -/
theorem readThrough_after {other : σ} {earlier : List Event}
    (same : read buffer state = (read buffer other).after earlier) :
    readThrough read (buffer :: rest) state =
      (readThrough read (buffer :: rest) other).after earlier := by
  rcases answer : read buffer other with ⟨⟨outcome, reached, events⟩, filled⟩
  rw [answer] at same
  cases outcome with
  | failed error =>
      rw [readThrough_failed rest same, readThrough_failed rest answer]
      rfl
  | aborted cause =>
      rw [readThrough_aborted rest same, readThrough_aborted rest answer]
      rfl
  | done portion =>
      obtain ⟨count, _ | _⟩ := portion
      · rw [readThrough_more rest same, readThrough_more rest answer]
        simp only [Drained.after, List.append_assoc]
      · rw [readThrough_last rest same, readThrough_last rest answer]
        rfl

end Reading

end BulkTransfer
