import BulkTransfer.Cursor.Stored
import BulkTransfer.Shared

/-!
# Sources

The ways in which a file can be put together, as data: stored contents of several kinds, directly or
through a locked cursor, and ranges of other sources to any depth. A source fixes the type of its
state, the file it is, and the state in which that file starts.
-/

namespace BulkTransfer

/-- A description of a file. -/
inductive Source where
  /-- Contents in memory. -/
  | memory (contents : Contents)
  /-- Contents in a file of the operating system. -/
  | disk (contents : Contents)
  /-- Contents read as a script says. -/
  | scripted (contents : Contents) (script : List Turn)
  /-- A locked cursor on contents in memory. -/
  | lockedMemory (contents : Contents)
  /-- A locked cursor on a file of the operating system. -/
  | lockedDisk (contents : Contents)
  /-- A locked cursor on contents that are read as a script says. -/
  | lockedScripted (contents : Contents) (script : List Turn)
  /-- A locked chunk reader on a range of another source. -/
  | nested (inner : Source) (offset length : Nat)

namespace Source

/-- Type of the state of a source. -/
def State : Source → Type
  | memory _ => Unit
  | disk _ => Unit
  | scripted _ _ => List Turn
  | lockedMemory _ => Nat
  | lockedDisk _ => Nat
  | lockedScripted _ _ => Playback
  | nested inner _ _ => ChunkReader × inner.State

/-- The file that a source is. -/
def file : (source : Source) → File source.State
  | memory contents => contents.inMemory
  | disk contents => contents.onDisk
  | scripted contents _ => contents.scripted
  | lockedMemory contents => contents.memoryCursor.locked
  | lockedDisk contents => contents.diskCursor.locked
  | lockedScripted contents _ => contents.scriptedCursor.locked
  | nested inner _ _ => inner.file.nested

/-- The file that a source is, to readers that share their counter with its ranges. -/
def fileBeside : (source : Source) → File (Shared source.State)
  | memory contents => contents.inMemory.beside
  | disk contents => contents.onDisk.beside
  | scripted contents _ => contents.scripted.beside
  | lockedMemory contents => contents.memoryCursor.locked.beside
  | lockedDisk contents => contents.diskCursor.locked.beside
  | lockedScripted contents _ => contents.scriptedCursor.locked.beside
  | nested inner _ _ => inner.fileBeside.nestedBeside

/-- State in which a source starts; a nested range must not be empty. -/
def start : (source : Source) → Except Abort source.State
  | memory _ => .ok ()
  | disk _ => .ok ()
  | scripted _ script => .ok script
  | lockedMemory _ => .ok (0 : Nat)
  | lockedDisk _ => .ok (0 : Nat)
  | lockedScripted _ script => .ok (⟨script, 0⟩ : Playback)
  | nested inner offset length =>
      match inner.start, ChunkReader.create offset length with
      | .ok state, .ok reader => .ok (reader, state)
      | .error cause, _ => .error cause
      | _, .error cause => .error cause

end Source
end BulkTransfer
