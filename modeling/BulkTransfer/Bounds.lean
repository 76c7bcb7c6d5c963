/-!
# Bounds on offsets and lengths

Offsets and lengths are natural numbers. Two bounds are visible in what readers do: no offset lies
past `lastOffset`, and nothing longer than `signedMax` can be held in memory or sought to directly.
-/

namespace BulkTransfer

/-- Greatest offset a file can have. -/
def lastOffset : Nat := 0xFFFFFFFFFFFFFFFF

/-- Greatest length of a buffer, and greatest position a signed offset can name. -/
def signedMax : Nat := 0x7FFFFFFFFFFFFFFF

end BulkTransfer
