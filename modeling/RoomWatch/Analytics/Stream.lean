import RoomWatch.Log
import RoomWatch.Table

/-!
# The analytics stream

The stream hands every event to every receiver that is subscribed. It keeps a bounded number
of events; a receiver that falls further behind loses the oldest ones and is told how many.
An event is dropped when its context is cancelled or when nobody is subscribed.

The number of events kept is the requested capacity, raised to at least one and to the next
power of two (`roundUp`). Positions count the events sent; a receiver is its next position.
-/

namespace RoomWatch

/-- The least of `p`, `2 * p`, `4 * p` and so on that is at least `n`, within `fuel` doublings. -/
def doubleUpTo (n p : Nat) : (fuel : Nat) → Nat
  | 0 => p
  | fuel + 1 => if n ≤ p then p else doubleUpTo n (2 * p) fuel

/-- The least power of two that is at least `n`. -/
def roundUp (n : Nat) : Nat := doubleUpTo n 1 n

def defaultAnalyticsBuffer : Nat := 1024

structure AnalyticsStream where
  /-- How many events are kept. -/
  buffer : Nat
  /-- The events that are kept, the latest first. -/
  kept : List AnalyticsEvent := []
  /-- How many events have been handed to receivers. -/
  sent : Nat := 0
  dropped : Nat := 0
  /-- The next position of each receiver. -/
  receivers : Table String Nat := .empty
  /-- Whether the sending side is still there. -/
  alive : Bool := true
  length_kept : kept.length = min sent buffer := by simp

/-- What a receive answers. -/
inductive Received where
  | event (e : AnalyticsEvent)
  /-- This many events have been lost. -/
  | lagged (n : Nat)
  /-- Nothing is left for now. -/
  | empty
  /-- Nothing is left and nothing will come. -/
  | closed
  deriving DecidableEq

namespace AnalyticsStream

/-- A stream for the given capacity. -/
def withCapacity (capacity : Nat) : Except Oversized AnalyticsStream :=
  if maxStreamCapacity < capacity then .error .stream
  else .ok { buffer := roundUp (max 1 capacity) }

/-- Hands an event to all receivers. -/
def send (s : AnalyticsStream) (cancelled : Bool) (e : AnalyticsEvent) :
    Outcome AnalyticsStream Unit :=
  if cancelled then ⟨{ s with dropped := s.dropped + 1 }, (), [.eventCancelled e.kind]⟩
  else if s.receivers.size = 0 then
    ⟨{ s with dropped := s.dropped + 1 }, (), [.eventUnheard e.kind]⟩
  else
    ⟨{ s with
        kept := (e :: s.kept).take s.buffer
        sent := s.sent + 1
        length_kept := by
          have := s.length_kept
          rw [List.length_take, List.length_cons]
          omega }, (), []⟩

/-- Subscribes a receiver, which gets every event from now on. -/
def subscribe (s : AnalyticsStream) (name : String) : AnalyticsStream :=
  { s with receivers := s.receivers.insert name s.sent }

/-- Drops a receiver; answers whether there was one. -/
def unsubscribe (s : AnalyticsStream) (name : String) : AnalyticsStream × Bool :=
  ({ s with receivers := s.receivers.erase name }, (s.receivers.find? name).isSome)

/-- What a receiver at a position receives, and its position after that. -/
def receiveAt (s : AnalyticsStream) (position : Nat) : Nat × Received :=
  let unread := s.sent - position
  if _ : s.buffer < unread then (s.sent - s.buffer, .lagged (unread - s.buffer))
  else if _ : unread = 0 then (position, if s.alive then .empty else .closed)
  else
    -- The latest event comes first, so the oldest unread one is the last of the unread.
    have : unread - 1 < s.kept.length := by
      have := s.length_kept
      omega
    (position + 1, .event s.kept[unread - 1])

/-- Receives what is next for a receiver; none if there is no such receiver. -/
def receive? (s : AnalyticsStream) (name : String) : Option (AnalyticsStream × Received) :=
  (s.receivers.find? name).map fun position =>
    let (position, received) := s.receiveAt position
    ({ s with receivers := s.receivers.insert name position }, received)

/-- Receives at most `n` times, up to and including the first `empty` or `closed`. -/
def drainUpTo (s : AnalyticsStream) (name : String) : Nat → AnalyticsStream × List Received
  | 0 => (s, [])
  | n + 1 =>
    match s.receive? name with
    | none => (s, [])
    | some (s, r) =>
      match r with
      | .empty | .closed => (s, [r])
      | .event _ | .lagged _ =>
        let (s, rs) := s.drainUpTo name n
        (s, r :: rs)

/-- Receives everything that is there for a receiver. A lag report and the events kept for it
are followed by one answer that nothing is left. -/
def drain (s : AnalyticsStream) (name : String) : AnalyticsStream × List Received :=
  s.drainUpTo name (s.kept.length + 2)

/-- Drops the sending side; answers whether it was still there. -/
def close (s : AnalyticsStream) : AnalyticsStream × Bool := ({ s with alive := false }, s.alive)

end AnalyticsStream

end RoomWatch
