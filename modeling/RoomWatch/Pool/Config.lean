import RoomWatch.Capacity

/-!
# Bounds and counters of a delivery pool

A pool runs a bounded number of tasks at once and queues a bounded number more. Bounds of
zero count as one, and neither may exceed the number of permits that a semaphore can hold.

The pool counts what becomes of the tasks it is given.
-/

namespace RoomWatch

/-- What a delivery pool has counted. -/
structure PoolStats where
  submitted : Nat := 0
  rejected : Nat := 0
  completed : Nat := 0
  panicked : Nat := 0
  deriving DecidableEq

structure PoolConfig where
  /-- How many tasks run at once. -/
  maxWorkers : Nat := 50
  /-- How many tasks wait. -/
  queueCapacity : Nat := 4096
  deriving DecidableEq

namespace PoolConfig

/-- Both bounds raised to at least one. -/
def normalized (c : PoolConfig) : PoolConfig := ⟨max 1 c.maxWorkers, max 1 c.queueCapacity⟩

/-- The bounds that a pool with this configuration works with. -/
def checked (c : PoolConfig) : Except Oversized PoolConfig :=
  let bounds := c.normalized
  if maxPermits < bounds.maxWorkers ∨ maxPermits < bounds.queueCapacity then .error .permits
  else .ok bounds

end PoolConfig

end RoomWatch
