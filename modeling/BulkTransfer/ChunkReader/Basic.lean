import BulkTransfer.File.Basic
import BulkTransfer.Seeking
import BulkTransfer.Tracker

/-!
# Chunk readers

A chunk is one fixed range of a file. Its reader loads the whole range on first need, hands bytes
out from its position, and releases them as soon as the last one has been read; a chunk that is read
again is loaded again. A tracker is told what is held, when it is loaded and when it is released;
bytes are held only once it has heard of them, and are gone before it hears of that.
-/

namespace BulkTransfer

/-- A reader of one range of a file. -/
structure ChunkReader where
  /-- Offset of the range in the file. -/
  offset : Nat
  /-- Length of the range. -/
  length : Nat
  /-- Position in the range that is read next. -/
  position : Nat
  /-- The bytes of the range, while they are held. -/
  loaded : Option Bytes
  deriving DecidableEq

/-- What one read of a chunk gave. -/
structure Portion where
  /-- Number of bytes read. -/
  count : Nat
  /-- Whether the end of the chunk has been reached. -/
  atEnd : Bool
  deriving DecidableEq

/-- Load a whole range of a file. -/
def File.load {σ : Type} (file : File σ) (offset length : Nat) (source : σ) :
    Step σ ChunkError Bytes :=
  if signedMax < length then
    { outcome := .aborted .chunkTooLong, state := source, events := [] }
  else
    match file.fill offset (List.replicate length 0) source with
    | ⟨⟨.aborted cause, source, events⟩, _⟩ =>
        { outcome := .aborted cause, state := source, events }
    | ⟨⟨.failed error, source, events⟩, _⟩ =>
        { outcome := .failed (.io .prefetch error), state := source, events }
    | ⟨⟨.done read, source, events⟩, bytes⟩ =>
        if read = length then
          { outcome := .done bytes, state := source, events }
        else
          { outcome := .failed (.shortRead ⟨offset, length, read⟩)
            state := source
            events := events ++ [.logged (.shortRead ⟨offset, length, read⟩)] }

namespace ChunkReader

variable {σ : Type}

/-- A reader at the start of a range, which must not be empty. -/
def create (offset length : Nat) : Except Abort ChunkReader :=
  if length = 0 then .error .emptyChunk else .ok ⟨offset, length, 0, none⟩

/-- Whether the bytes of the range are held. -/
def isLoaded (reader : ChunkReader) : Bool :=
  reader.loaded.isSome

/-- Number of bytes held. -/
def held (reader : ChunkReader) : Nat :=
  if reader.isLoaded then reader.length else 0

/-- Give up the bytes that are held, if any. -/
def release (reader : ChunkReader) : ChunkReader × List Event :=
  match reader.loaded with
  | none => (reader, [])
  | some _ =>
      ({ reader with loaded := none },
        [.tracked (-reader.length), .logged (.discarded reader.length reader.offset)])

/-- Take hold of the bytes of the range. -/
def hold (reader : ChunkReader) (bytes : Bytes) : ChunkReader × List Event :=
  ({ reader with loaded := some bytes },
    [.tracked reader.length, .logged (.prefetched reader.length reader.offset)])

/-- The bytes of the range, loaded from the file unless they are held already. They are held once
the tracker has heard of them; if it cuts that off they are lost. -/
def ensureLoaded (file : File σ) (reader : ChunkReader) (source : σ)
    (tracker : Tracker σ := .noting) : Step (ChunkReader × σ) ChunkError Bytes :=
  match reader.loaded with
  | some bytes => { outcome := .done bytes, state := (reader, source), events := [] }
  | none =>
      match file.load reader.offset reader.length source with
      | ⟨.done bytes, source, events⟩ =>
          let (holder, taken) := reader.hold bytes
          match tracker.hear bytes taken source with
          | ⟨.aborted cause, source, heard⟩ =>
              { outcome := .aborted cause, state := (reader, source), events := events ++ heard }
          | ⟨outcome, source, heard⟩ =>
              { outcome, state := (holder, source), events := events ++ heard }
      | ⟨.failed error, source, events⟩ =>
          { outcome := .failed error, state := (reader, source), events }
      | ⟨.aborted cause, source, events⟩ =>
          { outcome := .aborted cause, state := (reader, source), events }

/-- Load the chunk ahead of reading. -/
def prefetch (file : File σ) (reader : ChunkReader) (source : σ)
    (tracker : Tracker σ := .noting) : Step (ChunkReader × σ) ChunkError Unit :=
  (reader.ensureLoaded file source tracker).map fun _ => ()

/-- Release the chunk, if it is held. -/
def close {ε : Type} (reader : ChunkReader) (source : σ) (tracker : Tracker σ := .noting) :
    Step (ChunkReader × σ) ε Unit :=
  let (released, events) := reader.release
  (tracker.hear () events source).mapState (released, ·)

/-- Move past bytes that were read, and release the chunk if they were the last. -/
def advance (reader : ChunkReader) (count : Nat) : ChunkReader × List Event :=
  let moved := { reader with position := reader.position + count }
  if moved.length ≤ moved.position then moved.release else (moved, [])

/-- Read from the position on. At the end nothing is loaded and nothing is read. -/
def read (file : File σ) (buffer : Bytes) (reader : ChunkReader) (source : σ)
    (tracker : Tracker σ := .noting) : Transfer (ChunkReader × σ) ChunkError Portion :=
  if reader.length ≤ reader.position then
    .leaving (.done ⟨0, true⟩) buffer (reader, source)
  else
    match reader.ensureLoaded file source tracker with
    | ⟨.done bytes, (holder, source), events⟩ =>
        let copied := (bytes.drop reader.position).take buffer.length
        let (moved, released) := holder.advance copied.length
        let hearing :=
          tracker.hear ⟨copied.length, reader.length ≤ moved.position⟩ released source
        { outcome := hearing.outcome
          state := (moved, hearing.state)
          events := events ++ hearing.events
          buffer := overlay copied buffer }
    | ⟨.failed error, state, events⟩ =>
        { outcome := .failed (error.during .read), state, events, buffer }
    | ⟨.aborted cause, state, events⟩ =>
        { outcome := .aborted cause, state, events, buffer }

/-- Move to another position of the chunk; a seek before its start fails and moves nothing. -/
def seek : Seeker ChunkReader := fun offset whence reader =>
  match whence.landing? offset reader.position reader.length with
  | none => (.error .negativeSeek, reader)
  | some position => (.ok position, { reader with position })

@[simp]
theorem position_release (reader : ChunkReader) : reader.release.1.position = reader.position := by
  rw [release]
  split <;> rfl

@[simp]
theorem length_release (reader : ChunkReader) : reader.release.1.length = reader.length := by
  rw [release]
  split <;> rfl

@[simp]
theorem offset_release (reader : ChunkReader) : reader.release.1.offset = reader.offset := by
  rw [release]
  split <;> rfl

@[simp]
theorem loaded_release (reader : ChunkReader) : reader.release.1.loaded = none := by
  rw [release]
  split <;> simp_all

@[simp]
theorem position_advance (reader : ChunkReader) (count : Nat) :
    (reader.advance count).1.position = reader.position + count := by
  simp only [advance]
  split <;> simp

@[simp]
theorem length_advance (reader : ChunkReader) (count : Nat) :
    (reader.advance count).1.length = reader.length := by
  simp only [advance]
  split <;> simp

theorem exists_loaded_ensureLoaded (file : File σ) (reader : ChunkReader) (source : σ)
    (tracker : Tracker σ := .noting) :
    ∃ loaded, (reader.ensureLoaded file source tracker).state.1 = { reader with loaded } := by
  rw [ensureLoaded]
  split
  · exact ⟨reader.loaded, rfl⟩
  · split
    · dsimp only
      split
      · exact ⟨reader.loaded, rfl⟩
      · exact ⟨_, rfl⟩
    · exact ⟨reader.loaded, rfl⟩
    · exact ⟨reader.loaded, rfl⟩

/-- Loading moves nothing. -/
@[simp]
theorem position_ensureLoaded (file : File σ) (reader : ChunkReader) (source : σ)
    (tracker : Tracker σ := .noting) :
    (reader.ensureLoaded file source tracker).state.1.position = reader.position := by
  obtain ⟨loaded, same⟩ := reader.exists_loaded_ensureLoaded file source tracker
  rw [same]

@[simp]
theorem length_ensureLoaded (file : File σ) (reader : ChunkReader) (source : σ)
    (tracker : Tracker σ := .noting) :
    (reader.ensureLoaded file source tracker).state.1.length = reader.length := by
  obtain ⟨loaded, same⟩ := reader.exists_loaded_ensureLoaded file source tracker
  rw [same]

/-- The bytes of the range are failed to be had only if loading fails. -/
theorem load_failed_of_ensureLoaded_failed {file : File σ} {reader : ChunkReader} {source : σ}
    {tracker : Tracker σ} {error : ChunkError}
    (failed : (reader.ensureLoaded file source tracker).outcome = .failed error) :
    (file.load reader.offset reader.length source).outcome = .failed error := by
  rw [ensureLoaded] at failed
  split at failed
  · cases failed
  · split at failed
    · next loading =>
        dsimp only at failed
        split at failed
        · cases failed
        · next heard =>
            exact absurd ((congrArg Step.outcome heard).trans failed) Tracker.outcome_hear_ne_failed
    · next loading =>
        rw [loading]
        exact failed
    · cases failed

/-- The range of a reader never changes. -/
@[simp]
theorem length_read (file : File σ) (buffer : Bytes) (reader : ChunkReader) (source : σ)
    (tracker : Tracker σ := .noting) :
    (reader.read file buffer source tracker).state.1.length = reader.length := by
  have kept := reader.length_ensureLoaded file source tracker
  rw [read]
  split
  · rfl
  · split <;> simp_all

/-- A read that gives bytes started before the end and moves past them. -/
theorem position_read (file : File σ) {tracker : Tracker σ} {buffer : Bytes} {reader : ChunkReader}
    {source : σ} {portion : Portion}
    (done : (reader.read file buffer source tracker).outcome = .done portion)
    (some_read : 0 < portion.count) :
    reader.position < reader.length ∧
      (reader.read file buffer source tracker).state.1.position =
        reader.position + portion.count := by
  have kept := reader.position_ensureLoaded file source tracker
  rw [read] at done ⊢
  split at done
  · simp only [Transfer.leaving, Outcome.done.injEq] at done
    simp [← done] at some_read
  · rename_i before
    simp only [before, if_false]
    split at done <;> simp_all
    have told := Tracker.eq_of_hear_done done
    simp [told]

end ChunkReader
end BulkTransfer
