import BulkTransfer.Bytes

/-!
# File contents

The contents of a file are a size and a byte at each offset, so a file may be far larger than any
list of its bytes.  `Contents.slice` is the one way to look at a range: it stops at the end.
-/

namespace BulkTransfer

/-- The bytes a file holds, given byte by byte. -/
structure Contents where
  /-- Number of bytes in the file. -/
  size : Nat
  /-- Byte at each offset below the size. -/
  byte : Nat → UInt8

namespace Contents

/-- Contents that hold the bytes of an array. -/
def ofArray (bytes : Array UInt8) : Contents where
  size := bytes.size
  byte offset := bytes.getD offset 0

/-- Bytes from an offset on, at most `count` of them and none past the end. -/
def slice (contents : Contents) (offset count : Nat) : Bytes :=
  (List.range' offset (min count (contents.size - offset))).map contents.byte

@[simp]
theorem length_slice (contents : Contents) (offset count : Nat) :
    (contents.slice offset count).length = min count (contents.size - offset) := by
  simp [slice]

theorem length_slice_le (contents : Contents) (offset count : Nat) :
    (contents.slice offset count).length ≤ count := by
  simp only [length_slice]
  omega

theorem slice_of_size_le (contents : Contents) {offset : Nat} (count : Nat)
    (past : contents.size ≤ offset) : contents.slice offset count = [] := by
  simp [slice, Nat.sub_eq_zero_of_le past]

/-- Asking for just as much as there is changes nothing. -/
theorem slice_length_slice (contents : Contents) (offset count : Nat) :
    contents.slice offset (contents.slice offset count).length = contents.slice offset count := by
  rw [length_slice, slice, slice, Nat.min_assoc, Nat.min_self]

/-- A range is read in one piece or in two. -/
theorem slice_add (contents : Contents) {offset first : Nat} (second : Nat)
    (inside : first ≤ contents.size - offset) :
    contents.slice offset (first + second) =
      contents.slice offset first ++ contents.slice (offset + first) second := by
  have whole : min first (contents.size - offset) = first := by omega
  have rest : min (first + second) (contents.size - offset) =
      first + min second (contents.size - (offset + first)) := by omega
  simp only [slice, whole, rest]
  rw [← List.map_append, List.range'_append_1]

end Contents
end BulkTransfer
