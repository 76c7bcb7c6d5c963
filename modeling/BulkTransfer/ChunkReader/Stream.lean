import BulkTransfer.ChunkReader.Basic
import BulkTransfer.Cursor.Basic

/-!
# Chunk readers as byte streams

The stream interface knows byte counts and IO errors only: a read forgets whether it met the end,
and chunk errors become IO errors. Reading exactly, reading to the end and going back to the start
are built on it. Since loading a chunk makes interrupted reads again, no read of the stream is ever
interrupted, so a chunk reader is also a cursor and, under a lock, a file again.
-/

namespace BulkTransfer
namespace ChunkReader

variable {σ : Type}

/-- Read bytes from the position on; no bytes mean the end. -/
def streamRead (file : File σ) (buffer : Bytes) (reader : ChunkReader) (source : σ)
    (tracker : Tracker σ := .noting) : Transfer (ChunkReader × σ) IoError Nat :=
  (reader.read file buffer source tracker).mapOutcome fun outcome =>
    (outcome.map Portion.count).mapError ChunkError.toIoError

/-- Move to a target. -/
def streamSeek (target : SeekTarget) (reader : ChunkReader) : Except IoError Nat × ChunkReader :=
  let (offset, whence) := target.split
  let (outcome, moved) := ChunkReader.seek offset whence reader
  (outcome.mapError ChunkError.toIoError, moved)

/-- Moving to a position from the start always succeeds, and lands on the end if it aims past it. -/
@[simp]
theorem streamSeek_start (position : Nat) (reader : ChunkReader) :
    streamSeek (.start position) reader =
      (.ok (min (min position signedMax) reader.length),
        { reader with position := min (min position signedMax) reader.length }) := by
  rfl

theorem isInterrupted_of_load_failed (file : File σ) {offset length : Nat} {source : σ}
    {error : ChunkError} (failed : (file.load offset length source).outcome = .failed error) :
    (ChunkError.toIoError (error.during .read)).isInterrupted = false := by
  have calm := file.isInterrupted_fill offset (List.replicate length 0) source
  rw [File.load] at failed
  split at failed
  · simp at failed
  · split at failed
    · simp at failed
    · rename_i failure _ _ _ ending
      simp only [Outcome.failed.injEq] at failed
      subst failed
      change failure.isInterrupted = false
      simpa [ending, Transfer.isInterrupted] using calm
    · split at failed
      · simp at failed
      · simp only [Outcome.failed.injEq] at failed
        subst failed
        rfl

/-- Reading a chunk as a stream is never interrupted. -/
@[simp]
theorem isInterrupted_streamRead (file : File σ) (buffer : Bytes) (reader : ChunkReader)
    (source : σ) (tracker : Tracker σ := .noting) :
    (reader.streamRead file buffer source tracker).isInterrupted = false := by
  rw [streamRead, read]
  split
  · rfl
  · split
    · dsimp only [Transfer.mapOutcome, Transfer.isInterrupted]
      cases hearing : (Tracker.hear _ _ _ _ : Step _ ChunkError Portion).outcome with
      | done | aborted => rfl
      | failed => exact absurd hearing Tracker.outcome_hear_ne_failed
    · next loading =>
        exact isInterrupted_of_load_failed file
          (load_failed_of_ensureLoaded_failed (congrArg Step.outcome loading))
    · rfl

@[simp]
theorem length_streamRead (file : File σ) (buffer : Bytes) (reader : ChunkReader) (source : σ)
    (tracker : Tracker σ := .noting) :
    (reader.streamRead file buffer source tracker).buffer.length = buffer.length := by
  rw [streamRead, read]
  split
  · rfl
  · simp only [Transfer.mapOutcome]
    split <;> simp

/-- A stream read that gives bytes leaves less of the chunk to read. -/
theorem remaining_lt_of_streamRead {file : File σ} {buffer : Bytes} {reader : ChunkReader}
    {source : σ} {tracker : Tracker σ} {count : Nat}
    (done : (reader.streamRead file buffer source tracker).outcome = .done (count + 1)) :
    let moved := (reader.streamRead file buffer source tracker).state.1
    moved.length - moved.position < reader.length - reader.position := by
  change ((reader.read file buffer source tracker).outcome.map Portion.count).mapError _ = _ at done
  change (reader.read file buffer source tracker).state.1.length -
    (reader.read file buffer source tracker).state.1.position < _
  cases ending : (reader.read file buffer source tracker).outcome with
  | failed | aborted =>
      rw [ending] at done
      cases done
  | done portion =>
      rw [ending] at done
      have given : portion.count = count + 1 := Outcome.done.inj done
      have moved_to := position_read file ending (by omega)
      have kept := reader.length_read file buffer source tracker
      omega

/-- Error of a stream that ends before enough bytes were read. -/
def endedEarly : IoError :=
  .plain .unexpectedEof "failed to fill whole buffer"

/-- How much is wanted of a stream. -/
inductive Demand where
  /-- This many bytes, neither more nor less. -/
  | exactly (wanted : Nat)
  /-- All that is left, in blocks of this length. -/
  | blocks (length : Nat)
  deriving DecidableEq

namespace Demand

/-- Length of the next buffer. -/
def room : Demand → Nat
  | exactly wanted => wanted
  | blocks length => length

/-- What is wanted after this many bytes have come. -/
def past : Demand → Nat → Demand
  | exactly wanted, count => exactly (wanted - count)
  | blocks length, _ => blocks length

/-- How it ends if a read gives no bytes. If the stream is over before enough bytes have come, what
was there has been read all the same. -/
def close : Demand → Outcome IoError Nat → Outcome IoError Bytes
  | exactly _, .done _ => .failed endedEarly
  | blocks _, .done _ => .done []
  | _, .failed error => .failed error
  | _, .aborted cause => .aborted cause

end Demand

/-- Read until as much has come as is wanted, or a read gives no bytes. -/
def gather (file : File σ) (demand : Demand) (reader : ChunkReader) (source : σ)
    (tracker : Tracker σ := .noting) : Step (ChunkReader × σ) IoError Bytes :=
  if demand = .exactly 0 then
    { outcome := .done [], state := (reader, source), events := [] }
  else
    let reading := reader.streamRead file (List.replicate demand.room 0) source tracker
    match _given : reading.outcome with
    | .done (count + 1) =>
        ((reading.state.1.gather file (demand.past (count + 1)) reading.state.2 tracker).map
          (reading.buffer.take (count + 1) ++ ·)).after reading.events
    | ended =>
        { outcome := demand.close ended, state := reading.state, events := reading.events }
termination_by reader.length - reader.position
decreasing_by exact remaining_lt_of_streamRead _given

/-- Read a number of bytes exactly, by as many reads as it takes. -/
def streamExact (file : File σ) (wanted : Nat) (reader : ChunkReader) (source : σ)
    (tracker : Tracker σ := .noting) : Step (ChunkReader × σ) IoError Bytes :=
  reader.gather file (.exactly wanted) source tracker

/-- Read block after block until a read gives no bytes. -/
def drain (file : File σ) (block : Nat) (reader : ChunkReader) (source : σ)
    (tracker : Tracker σ := .noting) : Step (ChunkReader × σ) IoError Bytes :=
  reader.gather file (.blocks block) source tracker

/-- Length of the blocks in which a stream is read to its end. -/
def blockLength : Nat := 4096

/-- Read all bytes that are left. -/
def streamToEnd (file : File σ) (reader : ChunkReader) (source : σ)
    (tracker : Tracker σ := .noting) : Step (ChunkReader × σ) IoError Bytes :=
  reader.drain file blockLength source tracker

/-- A chunk reader as a cursor. -/
def cursor (file : File σ) (tracker : Tracker σ := .noting) : Cursor (ChunkReader × σ) where
  seek position state :=
    match streamSeek (.start position) state.1 with
    | (.ok reached, moved) =>
        { outcome := .done reached, state := (moved, state.2), events := [] }
    | (.error error, moved) =>
        { outcome := .failed error, state := (moved, state.2), events := [] }
  read buffer state := state.1.streamRead file buffer state.2 tracker
  patience _ _ _ := 0
  length_read _ _ := length_streamRead _ _ _ _ _
  patience_lt offset buffer state interrupted := by
    simp [seekThenRead] at interrupted

end ChunkReader

/-- The range of a chunk reader, as a file of its own: the reader is held under a lock. -/
def File.nested {σ : Type} (file : File σ) (tracker : Tracker σ := .noting) :
    File (ChunkReader × σ) :=
  (ChunkReader.cursor file tracker).locked

end BulkTransfer
