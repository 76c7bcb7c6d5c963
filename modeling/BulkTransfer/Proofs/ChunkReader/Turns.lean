import BulkTransfer.Proofs.ChunkReader.Course
import BulkTransfer.Proofs.File.Quiet
import Mathlib.Algebra.Ring.Int.Defs

/-!
# Holding and letting go by turns

A reader takes hold of its chunk and lets go of it by turns. Each turn adds the length of the chunk
to the byte counter, or takes it off, and logs one record of it right away. Whatever its file
reports, and however its operations end, this is all that a reader reports of itself.
-/

namespace BulkTransfer

/-- Blocks of events in order, each in one piece, with foreign events around them. -/
inductive Woven (foreign : Event → Prop) : List (List Event) → List Event → Prop where
  /-- Nothing is woven of no blocks. -/
  | nil : Woven foreign [] []
  /-- A foreign event comes before a block, or after the last. -/
  | foreign {event : Event} {blocks : List (List Event)} {events : List Event}
      (strange : foreign event) (woven : Woven foreign blocks events) :
      Woven foreign blocks (event :: events)
  /-- A block comes as a whole. -/
  | block (block : List Event) {blocks : List (List Event)} {events : List Event}
      (woven : Woven foreign blocks events) : Woven foreign (block :: blocks) (block ++ events)

namespace Woven

variable {foreign : Event → Prop} {blocks later_blocks : List (List Event)}
  {events later : List Event}

theorem of_foreign (strange : ∀ event ∈ events, foreign event) : Woven foreign [] events := by
  induction events with
  | nil => exact .nil
  | cons event rest ih =>
      exact .foreign (strange event List.mem_cons_self)
        (ih fun other member => strange other (List.mem_cons_of_mem _ member))

theorem append (woven : Woven foreign blocks events) (next : Woven foreign later_blocks later) :
    Woven foreign (blocks ++ later_blocks) (events ++ later) := by
  induction woven with
  | nil => exact next
  | foreign strange _ ih => exact .foreign strange ih
  | block block _ ih =>
      rw [List.append_assoc]
      exact .block block ih

/-- If foreign events add nothing to the counter, all that is added is added by the blocks. -/
theorem deltas_eq (woven : Woven foreign blocks events)
    (silent : ∀ event, foreign event → Event.deltas [event] = []) :
    Event.deltas events = Event.deltas blocks.flatten := by
  induction woven with
  | nil => rfl
  | @foreign event _ events strange _ ih =>
      rw [← List.singleton_append, Event.deltas_append, silent event strange, List.nil_append, ih]
  | block block _ ih => rw [List.flatten_cons, Event.deltas_append, Event.deltas_append, ih]

end Woven

/-- An amount, its negation, the amount again, and so on. -/
def swings (amount : Int) : Nat → List Int
  | 0 => []
  | count + 1 => amount :: swings (-amount) count

namespace ChunkReader

/-- What the reader of a range reports in a number of turns, given whether it holds its chunk. -/
def turns (offset length : Nat) : Bool → Nat → List (List Event)
  | _, 0 => []
  | false, count + 1 =>
      [.tracked length, .logged (.prefetched length offset)] :: turns offset length true count
  | true, count + 1 =>
      [.tracked (-length), .logged (.discarded length offset)] :: turns offset length false count

/-- Whether the chunk is held after a number of turns. -/
def heldAfter (held : Bool) : Nat → Bool
  | 0 => held
  | count + 1 => heldAfter (!held) count

theorem heldAfter_add (held : Bool) (earlier later : Nat) :
    heldAfter held (earlier + later) = heldAfter (heldAfter held earlier) later := by
  induction earlier generalizing held with
  | zero => rw [Nat.zero_add, heldAfter]
  | succ earlier ih => rw [Nat.succ_add, heldAfter, heldAfter, ih]

theorem heldAfter_eq (held : Bool) (count : Nat) :
    heldAfter held count = (held ^^ decide (count % 2 = 1)) := by
  induction count generalizing held with
  | zero => simp [heldAfter]
  | succ count ih =>
      rw [heldAfter, ih]
      rcases Nat.mod_two_eq_zero_or_one count with even | odd
      · have next : (count + 1) % 2 = 1 := by omega
        simp [even, next]
      · have next : (count + 1) % 2 = 0 := by omega
        simp [odd, next]

theorem turns_add (offset length : Nat) (held : Bool) (earlier later : Nat) :
    turns offset length held (earlier + later) =
      turns offset length held earlier ++ turns offset length (heldAfter held earlier) later := by
  induction earlier generalizing held with
  | zero => rw [Nat.zero_add, heldAfter, turns, List.nil_append]
  | succ earlier ih =>
      cases held <;>
      · rw [Nat.succ_add, turns, turns, heldAfter, ih]
        rfl

/-- The first turn of a reader that holds nothing adds the length of its chunk. -/
theorem deltas_turns (offset length : Nat) (held : Bool) (count : Nat) :
    Event.deltas (turns offset length held count).flatten =
      swings (if held then -length else length) count := by
  induction count generalizing held with
  | zero => rfl
  | succ count ih =>
      cases held with
      | false =>
          rw [turns, List.flatten_cons, Event.deltas_append, ih]
          rfl
      | true =>
          rw [turns, List.flatten_cons, Event.deltas_append, ih]
          simp [swings, Event.deltas]

variable {σ : Type} {file : File σ} {before after : ChunkReader} {events : List Event}

theorem Foreign.deltas_eq (quiet : file.Quiet) {event : Event} (foreign : Foreign file event) :
    Event.deltas [event] = [] := by
  rcases foreign with emitted | ⟨details, rfl⟩
  · exact quiet.deltas_of_emits emitted
  · rfl

theorem release_cases (reader : ChunkReader) :
    (reader.isLoaded = false ∧ reader.release = (reader, [])) ∨
    (reader.isLoaded = true ∧
      reader.release.2 =
        [.tracked (-reader.length), .logged (.discarded reader.length reader.offset)]) := by
  cases loaded : reader.loaded with
  | none => simp [isLoaded, release, loaded]
  | some bytes => simp [isLoaded, release, loaded]

theorem sum_deltas_release (reader : ChunkReader) :
    (Event.deltas reader.release.2).sum = -(reader.held : Int) := by
  rcases release_cases reader with ⟨vacant, step⟩ | ⟨holds, step⟩
  · simp [step, held, vacant, Event.deltas]
  · simp [step, held, holds, Event.deltas]

theorem held_release (reader : ChunkReader) : reader.release.1.held = 0 := by
  rw [held, isLoaded_release]
  rfl

/-- All that a reader reports of itself on its course are turns of holding and letting go. -/
theorem Course.woven (course : Course file before events after) (sound : before.Sound) :
    ∃ count, Woven (Foreign file)
        (turns before.offset before.length before.isLoaded count) events ∧
      after.isLoaded = heldAfter before.isLoaded count ∧
      (0 < count → before.length ≤ signedMax) := by
  induction course with
  | listen foreign => exact ⟨0, .of_foreign foreign, rfl, by simp⟩
  | move => exact ⟨0, .nil, rfl, by simp⟩
  | @hold reader bytes vacant _ fits =>
      have holds_not : reader.isLoaded = false := by simp [isLoaded, vacant]
      rw [holds_not]
      exact ⟨1, .block _ .nil, rfl, fun _ => fits⟩
  | release reader =>
      rw [isLoaded_release]
      rcases release_cases reader with ⟨vacant, step⟩ | ⟨holds, step⟩ <;> rw [step]
      · exact ⟨0, .nil, vacant.symm, by simp⟩
      · rw [holds]
        exact ⟨1, .block _ .nil, rfl, fun _ => sound.fits holds⟩
  | append first second earlier later =>
      obtain ⟨early, woven, held, fits⟩ := earlier sound
      obtain ⟨late, next, held_later, fits_later⟩ := later (first.sound sound)
      rw [first.same_range.1, first.same_range.2, held] at next
      rw [first.same_range.2] at fits_later
      refine ⟨early + late, ?_, ?_, ?_⟩
      · rw [turns_add]
        exact woven.append next
      · rw [held_later, held, heldAfter_add]
      · intro some_turn
        rcases Nat.eq_zero_or_pos early with none_early | some_early
        · exact fits_later (by omega)
        · exact fits some_early

end ChunkReader
end BulkTransfer
