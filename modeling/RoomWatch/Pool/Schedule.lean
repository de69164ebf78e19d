import RoomWatch.Pool.Basic

/-!
# Running pools in turns

Pools make progress in turns: a dispatcher runs until it can make no move or has made as many
as one turn allows (`Schedule.turnLength`), a task until it ends or waits. Whoever becomes able
to run joins the end of one line (`Schedule.ready`), and the head of the line runs next.
`Schedule.settle` gives turns until nobody is left in line.

What tasks do is given by a `Conduct` over a world of their own. This is one schedule among
those that `Pool.move?` allows.
-/

namespace RoomWatch

/-- Whether each of a number of shutdown calls has returned. In turns they begin in the order in
which they are made: the first waits for the dispatcher, and every other returns at once. -/
def Pool.returned {τ : Type} (p : Pool τ) (calls : Nat) : List Bool :=
  (List.range calls).map fun k => k ≠ 0 || p.phase = .stopped

/-- Where a task runs. -/
structure Spot where
  pool : Nat
  ticket : Nat
  deriving DecidableEq

/-- Someone who is able to run. -/
inductive Turn where
  | dispatcher (pool : Nat)
  | task (spot : Spot)
  /-- A shutdown call begins. -/
  | shutdown (pool : Nat)
  /-- The first shutdown call goes on after the dispatcher has exited. -/
  | stopped (pool : Nat)
  deriving DecidableEq

/-- What a task does in its turn. -/
structure Verdict (τ ω : Type) where
  world : ω
  /-- None if the task goes on waiting. -/
  ending : Option Ending
  /-- Tasks that it submits to its own pool. -/
  submits : List τ := []
  /-- Other tasks that can go on now. -/
  woken : List Spot := []

/-- How tasks behave in a world. -/
structure Conduct (τ ω : Type) where
  turn : ω → Spot → τ → Verdict τ ω
  /-- A task learns what has become of a task it has submitted. -/
  heard : ω → τ → Except SubmitError Unit → ω
  /-- A pool has logged something. -/
  logged : ω → List LogLine → ω
  /-- A shutdown call on a pool returns. -/
  returned : ω → Nat → ω

/-- Pools, the world of their tasks, and the line of those who are able to run. -/
structure Schedule (τ ω : Type) where
  pools : List (Pool τ)
  world : ω
  ready : List Turn

namespace Schedule

variable {τ ω : Type}

/-- Pools that have just been started. -/
def start (bounds : List PoolConfig) (world : ω) : Schedule τ ω where
  pools := bounds.map .start
  world := world
  ready := (List.range bounds.length).map .dispatcher

/-- Joins the line, once. -/
def call (s : Schedule τ ω) (t : Turn) : Schedule τ ω :=
  if t ∈ s.ready then s else { s with ready := s.ready ++ [t] }

/-- Tasks join the line. -/
def wake (s : Schedule τ ω) (spots : List Spot) : Schedule τ ω :=
  spots.foldl (fun s spot => s.call (.task spot)) s

/-- Replaces a pool; its dispatcher joins the line if it can make a move. -/
def setPool (s : Schedule τ ω) (i : Nat) (p : Pool τ) : Schedule τ ω :=
  let s := { s with pools := s.pools.set i p }
  if p.nextMove?.isSome then s.call (.dispatcher i) else s

/-- Submits a task to a pool; none if there is no such pool. -/
def submit? (s : Schedule τ ω) (i : Nat) (task : τ) :
    Option (Schedule τ ω × Except SubmitError Unit) :=
  s.pools[i]?.map fun p =>
    let (p, result) := p.submit task
    (s.setPool i p, result)

/-- The number of moves that a dispatcher makes in one turn. -/
def turnLength : Nat := 128

/-- A dispatcher's turn. -/
def runDispatcher (s : Schedule τ ω) (i : Nat) (p : Pool τ) : Schedule τ ω :=
  -- Tasks that have been started stand behind those that were running before.
  let after := p.advance turnLength
  let started := (after.running.drop p.running.length).map fun j => Spot.mk i j.ticket
  let s := (s.wake started).setPool i after
  match after.move? .stop with
  | some _ => s.call (.stopped i)
  | none => s

/-- Submits the tasks that a task submits in its turn. -/
def runSubmits (c : Conduct τ ω) (s : Schedule τ ω) (i : Nat) (parent : τ) (tasks : List τ) :
    Schedule τ ω :=
  tasks.foldl (fun s t =>
    match s.submit? i t with
    | some (s, result) => { s with world := c.heard s.world parent result }
    | none => s) s

/-- A task's turn. -/
def runTask (c : Conduct τ ω) (s : Schedule τ ω) (i : Nat) (j : Job τ) : Schedule τ ω :=
  let v := c.turn s.world ⟨i, j.ticket⟩ j.task
  let s := runSubmits c { s with world := v.world } i j.task v.submits
  let s := s.wake v.woken
  match v.ending.bind fun e => (s.pools[i]?).bind fun p => p.move? (.finish j.ticket e) with
  | some p => s.setPool i p
  | none => s

/-- The turn of a shutdown call that begins. -/
def runShutdown (c : Conduct τ ω) (s : Schedule τ ω) (i : Nat) (p : Pool τ) : Schedule τ ω :=
  if p.isOpen then s.setPool i p.shutdown else { s with world := c.returned s.world i }

/-- The turn of the first shutdown call after the dispatcher has exited. -/
def runStopped (c : Conduct τ ω) (s : Schedule τ ω) (i : Nat) (p : Pool τ) : Schedule τ ω :=
  match p.move? .stop with
  | some q =>
    { s with
      pools := s.pools.set i q
      world := c.returned (c.logged s.world (p.moveLog .stop)) i }
  | none => s

/-- One turn. -/
def runTurn (c : Conduct τ ω) (s : Schedule τ ω) (t : Turn) : Schedule τ ω :=
  match t with
  | .dispatcher i => (s.pools[i]?).elim s (s.runDispatcher i)
  | .task spot =>
    match (s.pools[spot.pool]?).bind fun p => p.running.find? fun j => j.ticket = spot.ticket with
    | some j => s.runTask c spot.pool j
    | none => s
  | .shutdown i => (s.pools[i]?).elim s (s.runShutdown c i)
  | .stopped i => (s.pools[i]?).elim s (s.runStopped c i)

/-- At most this many turns. -/
def runTurns (c : Conduct τ ω) : Nat → Schedule τ ω → Schedule τ ω
  | 0, s => s
  | n + 1, s =>
    match s.ready with
    | [] => s
    | t :: rest => runTurns c n ({ s with ready := rest }.runTurn c t)

/-- A bound on the turns until everybody waits, if each task submits at most one other. -/
def effort (s : Schedule τ ω) : Nat :=
  8 * s.pools.foldl (fun n p => n + p.load + p.running.length + 2) s.ready.length

/-- Gives turns until nobody is in line. -/
def settle (c : Conduct τ ω) (s : Schedule τ ω) : Schedule τ ω := runTurns c s.effort s

end Schedule

end RoomWatch
