import BulkTransfer.ChunkReader.Command
import BulkTransfer.Contents

/-!
# Windows

A window is a range of fixed contents, read through nothing but a position. This file says what
each command to a chunk reader answers then: reads give the bytes that are there, seeks move within
the range, and loading or releasing means nothing.
-/

namespace BulkTransfer

theorem Contents.take_drop_slice (contents : Contents) {offset length position : Nat} (room : Nat)
    (inside : position ≤ length) (stored : offset + length ≤ contents.size) :
    ((contents.slice offset length).drop position).take room =
      contents.slice (offset + position) (min room (length - position)) := by
  have whole : min length (contents.size - offset) = length := by omega
  have piece : min (min room (length - position)) (contents.size - (offset + position)) =
      min room (length - position) := by
    omega
  simp only [slice, whole, piece]
  rw [← List.map_drop, ← List.map_take, List.drop_range', Nat.mul_one]
  rcases Nat.le_total room (length - position) with short | long
  · rw [List.take_range'_of_length_ge short, Nat.min_eq_left short]
  · rw [List.take_range'_of_length_le long, Nat.min_eq_right long]

/-- The position a target aims at, which may lie outside the range. -/
def SeekTarget.aim (target : SeekTarget) (position length : Nat) : Int :=
  match target with
  | start aimed => aimed
  | current offset => position + offset
  | fromEnd offset => length - offset

/-- Commands that only change what is held. -/
def ReaderCommand.isIdle : ReaderCommand → Bool
  | prefetch | close => true
  | _ => false

/-- Commands that ask the file below the reader. -/
def ReaderCommand.asksFile : ReaderCommand → Bool
  | file _ => true
  | _ => false

/-- A range of fixed contents that is not empty, lies inside, and can be held in memory. -/
structure Window where
  /-- Contents the range belongs to. -/
  contents : Contents
  /-- Offset of the range. -/
  offset : Nat
  /-- Length of the range. -/
  length : Nat
  /-- The range is not empty. -/
  nonempty : 0 < length
  /-- The range can be held. -/
  fits : length ≤ signedMax
  /-- The range lies within the contents. -/
  stored : offset + length ≤ contents.size
  /-- The contents have offsets throughout. -/
  addressable : contents.size ≤ lastOffset

namespace Window

/-- The whole range. -/
def whole (window : Window) : Bytes :=
  window.contents.slice window.offset window.length

/-- Number of bytes that a read from a position gives. -/
def count (window : Window) (position room : Nat) : Nat :=
  min room (window.length - position)

/-- The bytes that a read from a position gives. -/
def bytes (window : Window) (position room : Nat) : Bytes :=
  window.contents.slice (window.offset + position) (window.count position room)

/-- Move to where a seek aims, or to the end; aiming before the start is a fault. -/
def seek (window : Window) (fault : Fault) (aim : Int) (position : Nat) :
    Outcome Fault Answer × Nat :=
  if aim < 0 then
    (.failed fault, position)
  else
    (.done (.number (min aim.toNat window.length)), min aim.toNat window.length)

/-- Carry out a command with nothing but a position. The file below is no business of a window. -/
def obey (window : Window) (position : Nat) : ReaderCommand → Outcome Fault Answer × Nat
  | .prefetch | .close | .file _ => (.done .nothing, position)
  | .read room =>
      (.done (.portion (window.bytes position room)
        (position + window.count position room = window.length)),
        position + window.count position room)
  | .seek offset whence =>
      window.seek (.chunk .negativeSeek) (whence.aim offset position window.length) position
  | .seekPosition | .streamPosition => (.done (.number position), position)
  | .seekLength => (.done (.number window.length), position)
  | .reset | .streamRewind => (.done .nothing, 0)
  | .range => (.done (.range window.offset window.length), position)
  | .streamRead room =>
      (.done (.stream (window.bytes position room)), position + window.count position room)
  | .streamExact wanted =>
      if wanted ≤ window.length - position then
        (.done (.exact (window.bytes position wanted)), position + wanted)
      else
        (.failed (.io ChunkReader.endedEarly), window.length)
  | .streamToEnd =>
      (.done (.stream (window.bytes position (window.length - position))), window.length)
  | .streamSeek target =>
      window.seek (.io (.wrapping .invalidInput (.chunk .seek .negativeSeek)))
        (target.aim position window.length) position

/-- Carry out commands one after the other, and write down how each one ended. -/
def transcript (window : Window) :
    List ReaderCommand → Nat → List (ReaderCommand × Outcome Fault Answer)
  | [], _ => []
  | command :: rest, position =>
      let (outcome, reached) := window.obey position command
      (command, outcome) :: window.transcript rest reached

/-- A chunk reader at the start of the window. -/
def reader (window : Window) : ChunkReader :=
  ⟨window.offset, window.length, 0, none⟩

theorem create_reader (window : Window) :
    ChunkReader.create window.offset window.length = .ok window.reader := by
  rw [ChunkReader.create, if_neg (Nat.pos_iff_ne_zero.mp window.nonempty), reader]

theorem count_le (window : Window) {position : Nat} (room : Nat)
    (inside : position ≤ window.length) :
    position + window.count position room ≤ window.length := by
  rw [count]
  omega

theorem length_bytes (window : Window) {position : Nat} (room : Nat)
    (inside : position ≤ window.length) :
    (window.bytes position room).length = window.count position room := by
  have stored := window.stored
  have bound := window.count_le room inside
  rw [bytes, Contents.length_slice]
  omega

theorem take_drop_whole (window : Window) {position : Nat} (inside : position ≤ window.length)
    (room : Nat) : (window.whole.drop position).take room = window.bytes position room := by
  rw [whole, window.contents.take_drop_slice _ inside window.stored]
  rfl

theorem length_whole (window : Window) : window.whole.length = window.length := by
  have stored := window.stored
  rw [whole, Contents.length_slice]
  omega

/-- Idle commands leave no trace in what the others are answered. -/
theorem filter_transcript (window : Window) (commands : List ReaderCommand) (position : Nat) :
    (window.transcript commands position).filter (!·.1.isIdle) =
      window.transcript (commands.filter (!·.isIdle)) position := by
  induction commands generalizing position with
  | nil => rfl
  | cons command rest ih =>
      cases command with
      | prefetch | close => exact ih position
      | _ => exact congrArg (_ :: ·) (ih _)

/-- Windows with the same bytes answer all commands alike, unless they are asked where they are. -/
theorem obey_congr {left right : Window} (same_length : left.length = right.length)
    (same_bytes : ∀ position room, left.bytes position room = right.bytes position room)
    (position : Nat) {command : ReaderCommand} (placeless : command ≠ .range) :
    left.obey position command = right.obey position command := by
  cases command with
  | range => exact absurd rfl placeless
  | read room => rw [obey, obey, count, count, same_bytes, same_length]
  | _ => simp only [obey, seek, count, same_length, same_bytes]

theorem transcript_congr {left right : Window} (same_length : left.length = right.length)
    (same_bytes : ∀ position room, left.bytes position room = right.bytes position room)
    (position : Nat) {commands : List ReaderCommand}
    (placeless : ∀ command ∈ commands, command ≠ .range) :
    left.transcript commands position = right.transcript commands position := by
  induction commands generalizing position with
  | nil => rfl
  | cons command rest ih =>
      rw [List.forall_mem_cons] at placeless
      rw [transcript, transcript, obey_congr same_length same_bytes position placeless.1]
      exact congrArg (_ :: ·) (ih _ placeless.2)

end Window
end BulkTransfer
