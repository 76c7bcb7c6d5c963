import BulkTransfer.Failure.IoKind

/-!
# Causes of errors

An error may be caused by another one, of any of five sorts: a bare text, the details of a short
read, an IO error, a failed chunk operation, or an operation that failed elsewhere. IO errors and
causes nest in each other to any depth, so both are defined together. An IO error that wraps a
payload shows the payload's text and passes over the payload itself when its own causes are listed.
-/

namespace BulkTransfer

/-- Values that are shown by a fixed wording. -/
class Worded (α : Type) where
  /-- Text shown for a value. -/
  wording : α → String

export Worded (wording)

/-- Details of a read that met the end of the file before the range was complete. -/
structure ShortRead where
  /-- Offset of the range in the file. -/
  offset : Nat
  /-- Number of bytes the range should hold. -/
  expected : Nat
  /-- Number of bytes that were there. -/
  read : Nat
  deriving DecidableEq

instance : Worded String where
  wording text := text

instance : Worded ShortRead where
  wording details :=
    "read " ++ toString details.read ++ " of " ++ toString details.expected ++
      " bytes at offset " ++ toString details.offset

/-- Operations on a chunk that can fail. -/
inductive ChunkOperation where
  | prefetch
  | read
  | seek
  deriving DecidableEq

instance : Worded ChunkOperation where
  wording
    | .prefetch => "prefetch chunk"
    | .read => "read chunk"
    | .seek => "seek chunk"

/-- Reasons for which an operation on a chunk fails. -/
inductive ChunkErrorKind where
  | io
  | shortRead
  | negativeSeek
  /-- A reason given in words. -/
  | other (message : String)
  deriving DecidableEq

instance : Worded ChunkErrorKind where
  wording
    | .io => "IO error"
    | .shortRead => "short read"
    | .negativeSeek => "cannot seek before the start of the chunk"
    | .other message => message

mutual

/-- An error of the input and output layer. -/
inductive IoError where
  /-- An error with a fixed text and nothing inside. -/
  | plain (kind : IoKind) (text : String)
  /-- An error that wraps another one as its payload. -/
  | wrapping (kind : IoKind) (payload : Cause)

/-- What can stand behind an error. -/
inductive Cause where
  /-- A bare text. -/
  | text (message : String)
  /-- Details of a short read. -/
  | shortRead (details : ShortRead)
  /-- An IO error. -/
  | io (error : IoError)
  /-- A failed chunk operation without a cause of its own. -/
  | chunk (operation : ChunkOperation) (kind : ChunkErrorKind)
  /-- A failed chunk operation with a cause of its own. -/
  | chunkCaused (operation : ChunkOperation) (kind : ChunkErrorKind) (source : Cause)
  /-- A failed operation of another vocabulary, known by its words, without a cause of its own. -/
  | failure (operation kind : String)
  /-- A failed operation of another vocabulary with a cause of its own. -/
  | failureCaused (operation kind : String) (source : Cause)

end

deriving instance DecidableEq for IoError, Cause

/-- Text of a failed operation that has no cause. -/
def failureText {ω κ : Type} [Worded ω] [Worded κ] (operation : ω) (kind : κ) : String :=
  wording operation ++ " failed; " ++ wording kind

mutual

/-- Text of an IO error; a wrapped payload speaks for the error. -/
def IoError.message : IoError → String
  | .plain _ text => text
  | .wrapping _ payload => payload.message

/-- Text of a cause. -/
def Cause.message : Cause → String
  | .text message => message
  | .shortRead details => wording details
  | .io error => error.message
  | .chunk operation kind => failureText operation kind
  | .chunkCaused operation kind source =>
      failureText operation kind ++ " (" ++ source.message ++ ")"
  | .failure operation kind => failureText operation kind
  | .failureCaused operation kind source =>
      failureText operation kind ++ " (" ++ source.message ++ ")"

end

mutual

/-- Causes behind an IO error, nearest first; a wrapped payload itself is passed over. -/
def IoError.causes : IoError → List Cause
  | .plain _ _ => []
  | .wrapping _ payload => payload.causes

/-- Causes behind a cause, nearest first and without the cause itself. -/
def Cause.causes : Cause → List Cause
  | .text _ => []
  | .shortRead _ => []
  | .io error => error.causes
  | .chunk _ _ => []
  | .chunkCaused _ _ source => source :: source.causes
  | .failure _ _ => []
  | .failureCaused _ _ source => source :: source.causes

end

namespace IoError

/-- Kind of an IO error. -/
def kind : IoError → IoKind
  | plain kind _ => kind
  | wrapping kind _ => kind

/-- Error wrapped inside an IO error. -/
def payload? : IoError → Option Cause
  | plain _ _ => none
  | wrapping _ payload => some payload

/-- An IO error that knows its kind alone. -/
def ofKind (kind : IoKind) : IoError :=
  plain kind kind.text

/-- Whether the call that gave the error was interrupted and may simply be made again. -/
def isInterrupted (error : IoError) : Bool :=
  error.kind = .interrupted

end IoError

namespace Cause

/-- The cause as an IO error, if it is one. -/
def io? : Cause → Option IoError
  | io error => some error
  | _ => none

/-- The cause as the details of a short read, if it holds them. -/
def shortRead? : Cause → Option ShortRead
  | shortRead details => some details
  | _ => none

end Cause
end BulkTransfer
