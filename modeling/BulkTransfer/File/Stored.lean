import BulkTransfer.Contents
import BulkTransfer.File.Basic

/-!
# Stored files

Files that hold fixed contents and have no state: bytes in memory, and a file of the operating
system, which refuses offsets that a signed number cannot hold.
-/

namespace BulkTransfer
namespace Contents

/-- Contents held in memory, read as far as they reach. -/
def inMemory (contents : Contents) : File Unit where
  readAt offset buffer state :=
    .delivering (contents.slice offset buffer.length) buffer state
  patience _ _ _ := 0
  length_readAt _ _ _ := length_overlay _ _
  patience_lt _ _ _ interrupted := by simp at interrupted

/-- Refusal of an offset that the operating system cannot take. -/
def offsetRefused : IoError :=
  .plain .invalidInput "Invalid argument (os error 22)"

/-- Contents held in a file of the operating system. -/
def onDisk (contents : Contents) : File Unit where
  readAt offset buffer state :=
    if signedMax < offset then
      .leaving (.failed offsetRefused) buffer state
    else
      .delivering (contents.slice offset buffer.length) buffer state
  patience _ _ _ := 0
  length_readAt offset buffer state := by
    split
    · rfl
    · exact length_overlay _ _
  patience_lt offset buffer state interrupted := by
    split at interrupted
    · simp [Transfer.isInterrupted, Transfer.leaving, offsetRefused, IoError.isInterrupted,
        IoError.kind] at interrupted
    · simp at interrupted

end Contents
end BulkTransfer
