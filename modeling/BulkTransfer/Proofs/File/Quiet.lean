import BulkTransfer.File.Script
import BulkTransfer.File.Watched
import BulkTransfer.Proofs.File.Filling

/-!
# Files that leave the byte counter alone

A quiet file adds nothing to the byte counter, so what is added while it is read is added by its
readers.
-/

namespace BulkTransfer

namespace Event

@[simp]
theorem deltas_append (earlier later : List Event) :
    deltas (earlier ++ later) = deltas earlier ++ deltas later :=
  List.filterMap_append

theorem deltas_eq_nil {events : List Event} (silent : ∀ event ∈ events, deltas [event] = []) :
    deltas events = [] := by
  induction events with
  | nil => rfl
  | cons event rest ih =>
      rw [← List.singleton_append, deltas_append, silent event List.mem_cons_self, List.nil_append]
      exact ih fun other member => silent other (List.mem_cons_of_mem _ member)

end Event

/-- A file whose reads add nothing to the byte counter. -/
def File.Quiet {σ : Type} (file : File σ) : Prop :=
  ∀ offset buffer state, Event.deltas (file.readAt offset buffer state).events = []

theorem File.Quiet.deltas_of_emits {σ : Type} {file : File σ} (quiet : file.Quiet) {event : Event}
    (emitted : file.Emits event) : Event.deltas [event] = [] := by
  obtain ⟨offset, buffer, state, member⟩ := emitted
  have silent := quiet offset buffer state
  obtain ⟨earlier, later, split⟩ := List.append_of_mem member
  rw [split, ← List.singleton_append, Event.deltas_append, Event.deltas_append] at silent
  exact (List.append_eq_nil_iff.mp (List.append_eq_nil_iff.mp silent).2).1

/-- Watching a file leaves the counter alone. -/
theorem File.Quiet.watched {σ : Type} {file : File σ} (quiet : file.Quiet) :
    file.watched.Quiet := by
  intro offset buffer state
  rw [File.watched, Event.deltas_append, quiet]
  rfl

theorem Contents.quiet_scripted (contents : Contents) : contents.scripted.Quiet := by
  intro offset buffer script
  simp only [Contents.scripted]
  cases Turn.next script <;> rfl

end BulkTransfer
