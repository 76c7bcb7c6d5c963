import BulkTransfer.Cursor.Basic
import BulkTransfer.File.Script
import BulkTransfer.File.Stored

/-!
# Cursors on stored contents

Cursors whose state is a position: on bytes in memory, on a file of the operating system, and on
contents played back by a script, which may also fail a move.
-/

namespace BulkTransfer

/-- State of a cursor on scripted contents. -/
structure Playback where
  /-- Turns that are left. -/
  script : List Turn
  /-- Position the next read starts from. -/
  position : Nat
  deriving DecidableEq

/-- The state after a read, past the bytes that were claimed. -/
def Playback.past {ε : Type} (state : Playback) : Outcome ε Nat → Playback
  | .done count => { state with position := state.position + count }
  | _ => state

@[simp]
theorem Playback.script_past {ε : Type} (state : Playback) (outcome : Outcome ε Nat) :
    (state.past outcome).script = state.script := by
  cases outcome <;> rfl

namespace Contents

/-- Read at a position and move past the bytes delivered. -/
def readOn {ε : Type} (contents : Contents) (buffer : Bytes) (position : Nat) :
    Transfer Nat ε Nat :=
  let bytes := contents.slice position buffer.length
  .delivering bytes buffer (position + bytes.length)

/-- A cursor on bytes in memory. -/
def memoryCursor (contents : Contents) : Cursor Nat where
  seek position _ := { outcome := .done position, state := position, events := [] }
  read := contents.readOn
  patience _ _ _ := 0
  length_read _ _ := length_overlay _ _
  patience_lt _ _ _ interrupted := by simp [seekThenRead, readOn] at interrupted

/-- A cursor on a file of the operating system. -/
def diskCursor (contents : Contents) : Cursor Nat where
  seek position here :=
    if signedMax < position then
      { outcome := .failed offsetRefused, state := here, events := [] }
    else
      { outcome := .done position, state := position, events := [] }
  read := contents.readOn
  patience _ _ _ := 0
  length_read _ _ := length_overlay _ _
  patience_lt offset _ _ interrupted := by
    by_cases refused : signedMax < offset <;>
      simp [seekThenRead, readOn, refused, Transfer.isInterrupted, Transfer.after,
        Transfer.delivering, offsetRefused, IoError.isInterrupted, IoError.kind] at interrupted

/-- Move a scripted cursor, unless the next turn fails the move. -/
def seekScripted (position : Nat) (state : Playback) : Step Playback IoError Nat :=
  match state.script with
  | .failSeek error :: rest =>
      { outcome := .failed error, state := { state with script := rest }, events := [] }
  | _ => { outcome := .done position, state := { state with position }, events := [] }

/-- Read from a scripted cursor as the next turn says. -/
def readScripted (contents : Contents) (buffer : Bytes) (state : Playback) :
    Transfer Playback IoError Nat :=
  let answer := (Turn.next state.script).read contents state.position buffer
    { state with script := Turn.rest state.script }
  { answer with state := answer.state.past answer.outcome }

/-- A scripted cursor is interrupted only while its script has turns left. -/
theorem script_lt_of_isInterrupted {contents : Contents} {offset : Nat} {buffer : Bytes}
    {state : Playback}
    (interrupted : (seekThenRead seekScripted contents.readScripted offset buffer
      state).isInterrupted = true) :
    (seekThenRead seekScripted contents.readScripted offset buffer state).state.script.length <
      state.script.length := by
  obtain ⟨_ | ⟨turn, rest⟩, position⟩ := state
  · simp [seekThenRead, seekScripted, readScripted, Turn.next, Turn.read, Transfer.isInterrupted,
      Transfer.delivering, Transfer.after] at interrupted
  · cases turn <;> simp [seekThenRead, seekScripted, readScripted, Transfer.after]

/-- A cursor that answers as its script says. -/
def scriptedCursor (contents : Contents) : Cursor Playback where
  seek := seekScripted
  read := contents.readScripted
  patience _ _ state := state.script.length
  length_read _ _ := Turn.length_read _ _ _ _ _
  patience_lt _ _ _ := script_lt_of_isInterrupted

end Contents
end BulkTransfer
