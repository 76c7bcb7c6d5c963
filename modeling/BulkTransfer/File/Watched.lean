import BulkTransfer.File.Basic

/-!
# Watched files

Watching a file changes none of its answers: it only adds each read to the events.
-/

namespace BulkTransfer
namespace File

variable {σ : Type}

/-- The same file, reporting every read made of it. -/
def watched (file : File σ) : File σ where
  readAt offset buffer state :=
    let answer := file.readAt offset buffer state
    { answer with
      events := answer.events ++ [.called ⟨offset, buffer.length, answer.outcome⟩] }
  patience := file.patience
  length_readAt := file.length_readAt
  patience_lt := file.patience_lt

end File
end BulkTransfer
