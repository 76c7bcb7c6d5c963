import BulkTransfer.Bounds
import BulkTransfer.Outcome

/-!
# The byte counter

A signed accumulator of bytes in 64 bits. Readers that share a counter report what they hold to it,
so that new work can wait while too much memory is held. The number itself wraps around; the sum
that is told is checked, so whoever makes the number wrap around is cut off after it has done so.
-/

namespace BulkTransfer

/-- A signed number of bytes, in 64 bits. -/
structure Counter where
  /-- The number as it is kept. -/
  word : Int64 := 0
  deriving DecidableEq

namespace Counter

/-- A counter that starts at a number. -/
def startingAt (initial : Int) : Counter :=
  ⟨.ofInt initial⟩

/-- Current value of the counter. -/
def value (counter : Counter) : Int :=
  counter.word.toInt

/-- Add an amount, which may be negative, and wrap around where the sum is out of range. -/
def add (counter : Counter) (delta : Int) : Counter :=
  ⟨counter.word + .ofInt delta⟩

/-- Add an amount and tell the new value. It is worked out from the value before, and the caller is
cut off if that is not what the number has become, but the amount has been added by then. -/
def addFetch (counter : Counter) (delta : Int) : Except Abort Int × Counter :=
  let next := counter.add delta
  (if next.value = counter.value + delta then .ok next.value else .error .counterOverflow, next)

end Counter
end BulkTransfer
