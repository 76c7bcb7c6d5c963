/-!
# Size classes

Size class `index` stands for the capacity `2 ^ index`. A request is served from the smallest class
that is large enough, so its length is rounded up; a slice is filed in the largest class whose every
request it can serve, so its capacity is rounded down. On powers of two both agree.
-/

namespace BulkTransfer

/-- A class of slices of one power-of-two capacity. -/
structure SizeClass where
  /-- Base-2 logarithm of the capacity. -/
  index : Nat
  deriving DecidableEq

namespace SizeClass

/-- Capacity of the slices that are made for a class. -/
def capacity (sizeClass : SizeClass) : Nat :=
  1 <<< sizeClass.index

/-- The class that serves requests of a length; none serves an empty one. -/
def serving? (length : Nat) : Option SizeClass :=
  if length = 0 then
    none
  else if 1 <<< length.log2 = length then
    some ⟨length.log2⟩
  else
    some ⟨length.log2 + 1⟩

/-- The class a slice of a capacity is filed in; one without capacity is filed nowhere. -/
def filing? (capacity : Nat) : Option SizeClass :=
  if capacity = 0 then none else some ⟨capacity.log2⟩

@[simp]
theorem serving?_zero : serving? 0 = none := rfl

@[simp]
theorem filing?_zero : filing? 0 = none := rfl

end SizeClass
end BulkTransfer
