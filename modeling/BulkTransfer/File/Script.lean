import BulkTransfer.Contents
import BulkTransfer.File.Basic

/-!
# Scripted files

A scripted file holds contents but answers each read as the next turn of its script says: in part,
with an error, with an abort, or with a false claim. Once the script is used up it reads plainly.
-/

namespace BulkTransfer

/-- What a scripted file does on one call. -/
inductive Turn where
  /-- Read as far as the contents reach. -/
  | plain
  /-- Read at most this many bytes. -/
  | atMost (count : Nat)
  /-- Fail with an error. -/
  | fail (error : IoError)
  /-- Give up. -/
  | abort
  /-- Write nothing, and claim this many bytes more than the buffer holds. -/
  | claim (excess : Nat)
  /-- Fail with an error if the call is a seek, and read plainly otherwise. -/
  | failSeek (error : IoError)
  deriving DecidableEq

namespace Turn

/-- Answer a read of the contents as a turn says. -/
def read {σ : Type} (turn : Turn) (contents : Contents) (offset : Nat) (buffer : Bytes)
    (state : σ) : Transfer σ IoError Nat :=
  match turn with
  | plain | failSeek _ => .delivering (contents.slice offset buffer.length) buffer state
  | atMost count => .delivering (contents.slice offset (min count buffer.length)) buffer state
  | fail error => .leaving (.failed error) buffer state
  | abort => .leaving (.aborted .raised) buffer state
  | claim excess => .leaving (.done (buffer.length + excess)) buffer state

@[simp]
theorem length_read {σ : Type} (turn : Turn) (contents : Contents) (offset : Nat) (buffer : Bytes)
    (state : σ) : (turn.read contents offset buffer state).buffer.length = buffer.length := by
  cases turn <;> simp [read, Transfer.delivering, Transfer.leaving]

@[simp]
theorem state_read {σ : Type} (turn : Turn) (contents : Contents) (offset : Nat) (buffer : Bytes)
    (state : σ) : (turn.read contents offset buffer state).state = state := by
  cases turn <;> rfl

/-- The turn a script takes next, which is a plain one at its end. -/
def next (script : List Turn) : Turn :=
  script.headD plain

/-- The turns left after the next one. -/
def rest : List Turn → List Turn
  | [] => []
  | _ :: later => later

@[simp]
theorem rest_cons (turn : Turn) (later : List Turn) : rest (turn :: later) = later := rfl

/-- A read is interrupted only while the script has turns left. -/
theorem lt_length_of_isInterrupted {σ : Type} {script : List Turn} {contents : Contents}
    {offset : Nat} {buffer : Bytes} {state : σ}
    (interrupted : ((next script).read contents offset buffer state).isInterrupted = true) :
    (rest script).length < script.length := by
  cases script with
  | nil => simp [next, read] at interrupted
  | cons turn later => exact Nat.lt_succ_self _

end Turn

/-- A file that answers reads as its script says; the script that is left is its state. -/
def Contents.scripted (contents : Contents) : File (List Turn) where
  readAt offset buffer script := (Turn.next script).read contents offset buffer (Turn.rest script)
  patience _ _ script := script.length
  length_readAt _ _ _ := Turn.length_read _ _ _ _ _
  patience_lt _ _ _ interrupted := by
    simpa using Turn.lt_length_of_isInterrupted interrupted

end BulkTransfer
