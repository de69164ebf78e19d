import RoomWatch.Pool.Gate
import RoomWatch.Pool.Schedule

/-!
# Plain tasks

Tasks that show how a pool behaves: they may wait for a gate, then submit one task that does
nothing to their own pool, and then end or panic.
-/

namespace RoomWatch

structure PlainTask where
  /-- The number under which its progress is noted, if it has one. -/
  number : Option Nat := none
  /-- Whether it waits for a unit of the gate first. -/
  gated : Bool := false
  /-- Whether it submits a task that does nothing. -/
  nests : Bool := false
  panics : Bool := false
  deriving DecidableEq

/-- The gate, and what has been noted about tasks with a number, in order. -/
structure TaskWorld where
  gate : Gate Spot := {}
  started : List Nat := []
  finished : List Nat := []
  nested : List (Nat × Except SubmitError Unit) := []
  log : List LogLine := []

namespace PlainTask

/-- What a task does once it need not wait any more. -/
def act (w : TaskWorld) (t : PlainTask) : Verdict PlainTask TaskWorld where
  world := if t.panics then w else { w with finished := w.finished ++ t.number.toList }
  ending := some (if t.panics then .panicked else .completed)
  submits := if t.nests then [{}] else []

/-- A task's turn. -/
def turn (w : TaskWorld) (spot : Spot) (t : PlainTask) : Verdict PlainTask TaskWorld :=
  let w := if w.gate.IsPresent spot then w else { w with started := w.started ++ t.number.toList }
  if t.gated then
    let (gate, free) := w.gate.enter spot
    let w := { w with gate }
    if free then t.act w else ⟨w, none, [], []⟩
  else t.act w

def conduct : Conduct PlainTask TaskWorld where
  turn := turn
  heard w t result := { w with nested := w.nested ++ (t.number.toList.map fun n => (n, result)) }
  logged w lines := { w with log := w.log ++ lines }
  returned w _ := w

end PlainTask

end RoomWatch
