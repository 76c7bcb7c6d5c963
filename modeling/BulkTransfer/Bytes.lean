/-!
# Byte strings and buffers

Readers fill a caller's buffer from the front.  `overlay` is that effect: the written bytes replace
the front of the buffer, the rest of the buffer stays, and its length never changes.
-/

namespace BulkTransfer

/-- A finite string of bytes. -/
abbrev Bytes := List UInt8

/-- The buffer after bytes have been written over its front. -/
def overlay (written buffer : Bytes) : Bytes :=
  written.take buffer.length ++ buffer.drop written.length

@[simp]
theorem length_overlay (written buffer : Bytes) :
    (overlay written buffer).length = buffer.length := by
  simp [overlay]
  omega

@[simp]
theorem overlay_nil (buffer : Bytes) : overlay [] buffer = buffer := by
  simp [overlay]

theorem overlay_of_length_le {written buffer : Bytes} (fits : written.length ≤ buffer.length) :
    overlay written buffer = written ++ buffer.drop written.length := by
  simp [overlay, List.take_of_length_le fits]

/-- What was written is found at the front. -/
theorem take_overlay {written buffer : Bytes} {count : Nat} (size : written.length = count)
    (fits : count ≤ buffer.length) : (overlay written buffer).take count = written := by
  subst size
  simp [overlay_of_length_le fits]

/-- What was not written over is kept. -/
theorem drop_overlay {written buffer : Bytes} {count : Nat} (size : written.length = count)
    (fits : count ≤ buffer.length) : (overlay written buffer).drop count = buffer.drop count := by
  subst size
  simp [overlay_of_length_le fits]

end BulkTransfer
