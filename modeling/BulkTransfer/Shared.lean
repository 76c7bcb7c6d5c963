import BulkTransfer.ChunkReader.Stream
import BulkTransfer.Counter

/-!
# Sharing a byte counter

Readers of one file may share a byte counter, which then stands beside the state of the file. The
file itself need not know of it; or it is a range of another file, whose reader shares the counter.
-/

namespace BulkTransfer

/-- A state with a byte counter beside it. -/
structure Shared (σ : Type) where
  /-- The counter that is shared. -/
  counter : Counter
  /-- State of the file. -/
  source : σ
  deriving DecidableEq

/-- Tracking by the counter that is shared. -/
def Tracker.counting {σ : Type} : Tracker (Shared σ) where
  add delta shared :=
    let (sum, counter) := shared.counter.addFetch delta
    (sum.map fun _ => (), { shared with counter })

namespace File

variable {σ τ : Type}

/-- A file whose state is a part of a larger state. -/
def within (file : File σ) (part : τ → σ) (replace : σ → τ → τ)
    (part_replace : ∀ state whole, part (replace state whole) = state) : File τ where
  readAt offset buffer whole :=
    (file.readAt offset buffer (part whole)).mapState (replace · whole)
  patience offset buffer whole := file.patience offset buffer (part whole)
  length_readAt _ _ _ := file.length_readAt _ _ _
  patience_lt offset buffer whole interrupted := by
    rw [Transfer.mapState, part_replace]
    exact file.patience_lt offset buffer (part whole) interrupted

/-- The same file beside a counter that it knows nothing of. -/
def beside (file : File σ) : File (Shared σ) :=
  file.within Shared.source (fun source shared => { shared with source }) fun _ _ => rfl

/-- The range of a chunk reader that shares its counter, as a file. -/
def nestedBeside (file : File (Shared σ)) : File (Shared (ChunkReader × σ)) :=
  (file.nested .counting).within
    (fun shared => (shared.source.1, ⟨shared.counter, shared.source.2⟩))
    (fun state _ => ⟨state.2.counter, (state.1, state.2.source)⟩)
    fun _ _ => rfl

end File
end BulkTransfer
