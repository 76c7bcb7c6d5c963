import BulkTransfer.Failure.Basic

/-!
# Chunk errors

The failures of chunk operations, and how they pass through an interface that knows IO errors only.
A failure that was caused by an IO error becomes that very error again; any other one is wrapped
whole, so that its text and its causes stay readable.
-/

namespace BulkTransfer

instance : OpenKind ChunkErrorKind where
  other := .other

/-- A failed operation on a chunk. -/
abbrev ChunkError := Failure ChunkOperation ChunkErrorKind

namespace ChunkError

/-- An operation failed because the file did. -/
def io (operation : ChunkOperation) (error : IoError) : ChunkError :=
  ⟨operation, .io, some (.io error)⟩

/-- The file ended before the chunk was complete. -/
def shortRead (details : ShortRead) : ChunkError :=
  ⟨.prefetch, .shortRead, some (.shortRead details)⟩

/-- A seek aimed before the start of the chunk. -/
def negativeSeek : ChunkError :=
  ⟨.seek, .negativeSeek, none⟩

/-- The error as the cause of another one. -/
def toCause (error : ChunkError) : Cause :=
  match error.cause with
  | none => .chunk error.operation error.kind
  | some source => .chunkCaused error.operation error.kind source

/-- Text of the IO error that stands for a failure of kind IO without a cause. -/
def unknownIo : String := "unknown IO error"

/-- The IO error that a chunk error becomes. -/
def toIoError (error : ChunkError) : IoError :=
  match error.kind with
  | .io =>
      match error.cause with
      | some (.io source) => source
      | some source => .wrapping .other source
      | none => .wrapping .other (.text unknownIo)
  | .shortRead => .wrapping .unexpectedEof error.toCause
  | .negativeSeek => .wrapping .invalidInput error.toCause
  | .other _ => .wrapping .other error.toCause

@[simp]
theorem message_toCause (error : ChunkError) : error.toCause.message = error.message := by
  rw [toCause, Failure.message]
  split <;> simp_all [Cause.message]

@[simp]
theorem causes_toCause (error : ChunkError) : error.toCause.causes = error.causes := by
  rw [toCause, Failure.causes]
  split <;> simp_all [Cause.causes]

@[simp]
theorem toIoError_io (operation : ChunkOperation) (error : IoError) :
    (io operation error).toIoError = error := rfl

@[simp]
theorem toIoError_negativeSeek :
    negativeSeek.toIoError = .wrapping .invalidInput (.chunk .seek .negativeSeek) := rfl

end ChunkError

/-- The cause as a chunk error, if it is one. -/
def Cause.chunk? : Cause → Option ChunkError
  | .chunk operation kind => some ⟨operation, kind, none⟩
  | .chunkCaused operation kind source => some ⟨operation, kind, some source⟩
  | _ => none

@[simp]
theorem ChunkError.chunk?_toCause (error : ChunkError) : error.toCause.chunk? = some error := by
  obtain ⟨operation, kind, _ | cause⟩ := error <;> rfl

end BulkTransfer
