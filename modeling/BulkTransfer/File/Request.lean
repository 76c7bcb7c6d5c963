import BulkTransfer.File.Basic

/-!
# Requests to a file

A positioned read as a value: where, into which buffer, and whether it goes on until the buffer is
full.
-/

namespace BulkTransfer

/-- A positioned read to be made of a file. -/
structure FileRequest where
  /-- Whether to read until the buffer is full. -/
  full : Bool
  /-- Offset to read from. -/
  offset : Nat
  /-- Buffer to read into. -/
  buffer : Bytes
  deriving DecidableEq

namespace File

variable {σ : Type}

/-- Make a positioned read. -/
def serve (file : File σ) (request : FileRequest) (state : σ) : Transfer σ IoError Nat :=
  if request.full then
    file.fill request.offset request.buffer state
  else
    file.readAt request.offset request.buffer state

/-- Make positioned reads one after the other. -/
def serveAll (file : File σ) : List FileRequest → σ → List (Transfer σ IoError Nat)
  | [], _ => []
  | request :: rest, state =>
      let answer := file.serve request state
      answer :: file.serveAll rest answer.state

end File
end BulkTransfer
