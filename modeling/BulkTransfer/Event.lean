import BulkTransfer.Failure.Cause
import BulkTransfer.Log
import BulkTransfer.Outcome

/-!
# Events

Everything an operation does besides changing its own state, in order: calls made of a watched
file or cursor, amounts added to the byte counter, and records for the log. Deltas, calls and log
lines are views of one list of events, so their order among each other is kept.
-/

namespace BulkTransfer

/-- One positioned read made of a watched file. -/
structure ReadCall where
  /-- Offset the read was made at. -/
  offset : Nat
  /-- Length of the buffer it was given. -/
  room : Nat
  /-- How it ended. -/
  outcome : Outcome IoError Nat
  deriving DecidableEq

/-- One call made of a watched cursor. -/
inductive CursorCall where
  /-- The cursor was asked to move to a position. -/
  | seek (position : Nat)
  /-- The cursor was asked to read into a buffer of this length. -/
  | read (room : Nat)
  deriving DecidableEq

/-- What chunk readers report to the log. -/
inductive ChunkRecord where
  /-- A chunk was loaded. -/
  | prefetched (length offset : Nat)
  /-- A loaded chunk was released. -/
  | discarded (length offset : Nat)
  /-- A chunk reached past the end of its file. -/
  | shortRead (details : ShortRead)
  deriving DecidableEq

/-- Log line of a record. -/
def ChunkRecord.line : ChunkRecord → LogLine
  | prefetched length offset =>
      ⟨.trace, "prefetched " ++ toString length ++ " bytes at offset " ++ toString offset⟩
  | discarded length offset =>
      ⟨.trace, "discarded " ++ toString length ++ " bytes at offset " ++ toString offset⟩
  | shortRead details =>
      ⟨.debug, "short read of chunk at offset " ++ toString details.offset ++ ": read " ++
        toString details.read ++ " of " ++ toString details.expected ++ " bytes"⟩

/-- A single effect of an operation. -/
inductive Event where
  /-- A watched file was read. -/
  | called (call : ReadCall)
  /-- A watched cursor was moved or read. -/
  | moved (call : CursorCall)
  /-- An amount was added to the byte counter. -/
  | tracked (delta : Int)
  /-- A record was logged. -/
  | logged (record : ChunkRecord)
  deriving DecidableEq

namespace Event

/-- Reads made of a watched file, in order. -/
def calls (events : List Event) : List ReadCall :=
  events.filterMap fun
    | called call => some call
    | _ => none

/-- Calls made of a watched cursor, in order. -/
def cursorCalls (events : List Event) : List CursorCall :=
  events.filterMap fun
    | moved call => some call
    | _ => none

/-- Amounts added to the byte counter, in order. -/
def deltas (events : List Event) : List Int :=
  events.filterMap fun
    | tracked delta => some delta
    | _ => none

/-- Records logged, in order. -/
def records (events : List Event) : List ChunkRecord :=
  events.filterMap fun
    | logged record => some record
    | _ => none

end Event
end BulkTransfer
