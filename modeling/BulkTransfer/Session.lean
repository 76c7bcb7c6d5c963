import BulkTransfer.ChunkReader.Command
import BulkTransfer.Registry

/-!
# Sessions

Any number of named chunk readers that share one file and one tracker. The readers are worked one
command at a time, in any order, and one that is cut off does not keep others from going on.
-/

namespace BulkTransfer

/-- Named readers with the state of what they share. -/
structure Session (σ : Type) where
  /-- Readers by name. -/
  readers : Registry ChunkReader
  /-- State of the shared file and of the shared tracker. -/
  source : σ

/-- What can be asked of a session. -/
inductive SessionCommand where
  /-- Create a reader of a range, in place of an older one of the same name. -/
  | create (offset length : Nat)
  /-- Drop a reader. -/
  | drop
  /-- Ask something of a reader. -/
  | reader (command : ReaderCommand)
  /-- Read from the shared file. -/
  | file (request : FileRequest)
  deriving DecidableEq

namespace Session

variable {σ : Type}

/-- What the reader under a name reports when it is dropped, if there is one. -/
def parting (session : Session σ) (name : String) : List Event :=
  ((session.readers.find? name).map (·.release.2)).getD []

/-- Carry out a command on the name it is meant for. A reader that is replaced is dropped only after
the new one has taken its name. -/
def step (file : File σ) (tracker : Tracker σ) (name : String) (command : SessionCommand)
    (session : Session σ) : Step (Session σ) Fault Answer :=
  match command with
  | .create offset length =>
      match ChunkReader.create offset length with
      | .error cause => { outcome := .aborted cause, state := session, events := [] }
      | .ok reader =>
          (tracker.hear .nothing (session.parting name) session.source).mapState
            (⟨session.readers.insert name reader, ·⟩)
  | .drop =>
      (tracker.hear .nothing (session.parting name) session.source).mapState
        (⟨session.readers.erase name, ·⟩)
  | .reader command =>
      match session.readers.find? name with
      | none => { outcome := .failed .noReader, state := session, events := [] }
      | some reader =>
          (reader.perform file command session.source tracker).mapState fun (moved, source) =>
            ⟨session.readers.insert name moved, source⟩
  | .file request =>
      let answer := file.serve request session.source
      { outcome := .done (.positioned answer.outcome answer.buffer)
        state := { session with source := answer.state }
        events := answer.events }

/-- Carry out commands one after the other. -/
def run (file : File σ) (tracker : Tracker σ) : List (String × SessionCommand) → Session σ →
    List (Step (Session σ) Fault Answer)
  | [], _ => []
  | (name, command) :: rest, session =>
      let done := session.step file tracker name command
      done :: run file tracker rest done.state

/-- Drop all readers that are left, in the order of their names. What becomes of the others is left
open once a drop is cut off. -/
def finish (tracker : Tracker σ) (session : Session σ) : Step (Session σ) Empty Unit :=
  let parting := session.readers.values.flatMap (·.release.2)
  (tracker.hear () parting session.source).mapState (⟨{}, ·⟩)

end Session
end BulkTransfer
