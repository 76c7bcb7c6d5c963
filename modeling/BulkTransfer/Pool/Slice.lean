import BulkTransfer.Bytes

/-!
# Slices

A slice holds bytes in memory of a certain capacity. Growing within the capacity keeps the memory;
growing past it needs new memory. A pool makes its slices large enough and never grows one past its
capacity. Only a client may do that with a slice it holds, and the new memory is then taken to be no
larger than needed, though an allocator may well give more.
-/

namespace BulkTransfer

/-- Bytes with the capacity of the memory they lie in. -/
structure Slice where
  /-- Bytes of the slice. -/
  bytes : Bytes
  /-- Number of bytes there is memory for. -/
  capacity : Nat
  deriving DecidableEq

namespace Slice

/-- A slice without bytes and without memory. -/
def empty : Slice := ⟨[], 0⟩

/-- Number of bytes of a slice. -/
def length (slice : Slice) : Nat :=
  slice.bytes.length

/-- A slice without bytes, with memory for some. -/
def ofCapacity (capacity : Nat) : Slice :=
  ⟨[], capacity⟩

/-- Cut a slice to a length, or extend it to that length with copies of a byte. The memory is kept
unless it is too small, and then replaced by the least that will do. -/
def resize (slice : Slice) (length : Nat) (byte : UInt8) : Slice where
  bytes := slice.bytes.take length ++ List.replicate (length - slice.length) byte
  capacity := max slice.capacity length

/-- Set all bytes of a slice. -/
def fill (slice : Slice) (byte : UInt8) : Slice :=
  { slice with bytes := List.replicate slice.length byte }

/-- Write bytes into a slice from a position on. -/
def write (slice : Slice) (position : Nat) (bytes : Bytes) : Slice :=
  { slice with bytes := slice.bytes.take position ++ overlay bytes (slice.bytes.drop position) }

/-- A slice of zeros in memory of just that size. -/
def zeros (length : Nat) : Slice :=
  empty.resize length 0

@[simp]
theorem length_resize (slice : Slice) (length : Nat) (byte : UInt8) :
    (slice.resize length byte).length = length := by
  simp only [Slice.length, resize, List.length_append, List.length_take, List.length_replicate]
  omega

@[simp]
theorem length_fill (slice : Slice) (byte : UInt8) : (slice.fill byte).length = slice.length := by
  simp [Slice.length, fill]

@[simp]
theorem length_write (slice : Slice) (position : Nat) (bytes : Bytes) :
    (slice.write position bytes).length = slice.length := by
  simp only [Slice.length, write, List.length_append, List.length_take, length_overlay,
    List.length_drop]
  omega

end Slice
end BulkTransfer
