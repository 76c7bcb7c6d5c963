import BulkTransfer.ChunkReader.Stream
import BulkTransfer.File.Request

/-!
# Commands to a chunk reader

Everything that can be asked of a chunk reader, through its own interface, through the stream
interface, or of the file below it, with one type of answers and one type of faults.
-/

namespace BulkTransfer

/-- What can be asked of a chunk reader. -/
inductive ReaderCommand where
  /-- Load the chunk. -/
  | prefetch
  /-- Read into a buffer of this length. -/
  | read (room : Nat)
  /-- Move by an offset from an origin. -/
  | seek (offset : Int) (whence : Whence)
  /-- Tell the position. -/
  | seekPosition
  /-- Tell the length. -/
  | seekLength
  /-- Move to the start. -/
  | reset
  /-- Release the chunk. -/
  | close
  /-- Tell the range. -/
  | range
  /-- Read into a buffer of this length, as a stream. -/
  | streamRead (room : Nat)
  /-- Read this many bytes exactly, as a stream. -/
  | streamExact (wanted : Nat)
  /-- Read all bytes that are left, as a stream. -/
  | streamToEnd
  /-- Move to a target, as a stream. -/
  | streamSeek (target : SeekTarget)
  /-- Move to the start, as a stream. -/
  | streamRewind
  /-- Tell the position, as a stream. -/
  | streamPosition
  /-- Read from the file itself. -/
  | file (request : FileRequest)
  deriving DecidableEq

/-- What a command gives. -/
inductive Answer where
  /-- The command was carried out. -/
  | nothing
  /-- A position or a length. -/
  | number (value : Nat)
  /-- Offset and length of a range. -/
  | range (offset length : Nat)
  /-- Bytes of a chunk, and whether its end was reached. -/
  | portion (bytes : Bytes) (atEnd : Bool)
  /-- Bytes of a stream, as many as there were. -/
  | stream (bytes : Bytes)
  /-- Bytes of a stream, as many as were wanted. -/
  | exact (bytes : Bytes)
  /-- How a positioned read ended, with its whole buffer. -/
  | positioned (outcome : Outcome IoError Nat) (buffer : Bytes)
  deriving DecidableEq

/-- Why a command fails. -/
inductive Fault where
  /-- A chunk operation failed. -/
  | chunk (error : ChunkError)
  /-- A stream operation failed. -/
  | io (error : IoError)
  /-- There is no reader to ask. -/
  | noReader
  deriving DecidableEq

namespace ChunkReader

variable {σ : Type}

/-- A step that looks at the reader and not at the file. -/
def apart {ε α : Type} (fault : ε → Fault) (answer : α → Answer) (source : σ)
    (result : Except ε α × ChunkReader) : Step (ChunkReader × σ) Fault Answer :=
  match result with
  | (.ok value, reader) =>
      { outcome := .done (answer value), state := (reader, source), events := [] }
  | (.error error, reader) =>
      { outcome := .failed (fault error), state := (reader, source), events := [] }

/-- Carry out a command. -/
def perform (file : File σ) (command : ReaderCommand) (reader : ChunkReader) (source : σ)
    (tracker : Tracker σ := .noting) : Step (ChunkReader × σ) Fault Answer :=
  match command with
  | .prefetch =>
      ((reader.prefetch file source tracker).map fun _ => Answer.nothing).mapError .chunk
  | .read room =>
      let reading := reader.read file (List.replicate room 0) source tracker
      (reading.toStep.map fun portion =>
        Answer.portion (reading.buffer.take portion.count) portion.atEnd).mapError .chunk
  | .seek offset whence => apart .chunk .number source (ChunkReader.seek offset whence reader)
  | .seekPosition => apart .chunk .number source (Seeker.position ChunkReader.seek reader)
  | .seekLength => apart .chunk .number source (Seeker.length ChunkReader.seek reader)
  | .reset => apart .chunk (fun _ => .nothing) source (Seeker.reset ChunkReader.seek reader)
  | .close => (reader.close source tracker).map fun _ => .nothing
  | .range =>
      { outcome := .done (.range reader.offset reader.length)
        state := (reader, source)
        events := [] }
  | .streamRead room =>
      let reading := reader.streamRead file (List.replicate room 0) source tracker
      (reading.toStep.map fun count => Answer.stream (reading.buffer.take count)).mapError .io
  | .streamExact wanted =>
      ((reader.streamExact file wanted source tracker).map .exact).mapError .io
  | .streamToEnd => ((reader.streamToEnd file source tracker).map .stream).mapError .io
  | .streamSeek target => apart .io .number source (reader.streamSeek target)
  | .streamRewind => apart .io (fun _ => .nothing) source (reader.streamSeek (.start 0))
  | .streamPosition => apart .io .number source (reader.streamSeek (.current 0))
  | .file request =>
      let answer := file.serve request source
      { outcome := .done (.positioned answer.outcome answer.buffer)
        state := (reader, answer.state)
        events := answer.events }

end ChunkReader
end BulkTransfer
