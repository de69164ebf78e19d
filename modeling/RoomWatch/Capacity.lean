/-!
# Capacities that are too large

Bounds may be any number, but a semaphore and a stream have a largest capacity. Beyond it
nothing can be built.
-/

namespace RoomWatch

/-- What cannot be built because its capacity is too large. -/
inductive Oversized where
  | permits
  | stream
  deriving DecidableEq

/-- The largest number of permits of a semaphore, `2 ^ 61 - 1`. -/
def maxPermits : Nat := 2305843009213693951

/-- The largest capacity of a stream, `2 ^ 63 - 1`. -/
def maxStreamCapacity : Nat := 9223372036854775807

def Oversized.message : Oversized → String
  | .permits => "a semaphore may not have more than MAX_PERMITS permits (2305843009213693951)"
  | .stream => "broadcast channel capacity exceeded `usize::MAX / 2`"

end RoomWatch
