import RoomWatch.Log

/-!
# The delivery pool

Accepted tasks wait in a bounded queue. One dispatcher takes them in order; it needs a free
permit to start a task, and while there is none it holds the task it has taken. A task that
ends, normally or by a panic, gives its permit to a waiting dispatcher first. The dispatcher
collects how tasks have ended, and only then counts the panics.

Shutting down closes the queue for new tasks. The dispatcher still starts what is in the
queue, collects every ending and then exits; the first shutdown call returns after that.

What may happen next is nondeterministic: `Move` lists the possibilities and `move?` says
which are possible and what they do. Submitting and shutting down are always possible. A submit
call takes two steps, `offer` and `count`; `submit` makes them one after the other.

* `load_move`: every move of the dispatcher lowers `load`, so it comes to rest.
-/

namespace RoomWatch

/-- How a task has ended. -/
inductive Ending where
  | completed
  | panicked
  deriving DecidableEq

/-- An accepted task with its number among the accepted tasks. -/
structure Job (τ : Type) where
  ticket : Nat
  task : τ

/-- What the dispatcher is doing. -/
inductive Dispatcher (τ : Type) where
  /-- It waits for a task or for an ending. -/
  | idle
  /-- It has taken a task and waits for a permit. -/
  | holding (j : Job τ)
  /-- It has a permit for the task it has taken. -/
  | granted (j : Job τ)
  /-- The queue is closed and empty; it waits for the remaining endings. -/
  | draining
  | exited

/-- How far a pool has been shut down. -/
inductive Phase where
  | accepting
  /-- The first shutdown call is waiting. -/
  | stopping
  /-- The first shutdown call has returned. -/
  | stopped
  deriving DecidableEq

structure Pool (τ : Type) where
  bounds : PoolConfig
  phase : Phase := .accepting
  queue : List (Job τ) := []
  dispatcher : Dispatcher τ := .idle
  running : List (Job τ) := []
  /-- Endings that the dispatcher has not yet collected. -/
  uncollected : List Ending := []
  /-- Permits that nobody has. -/
  free : Nat := bounds.maxWorkers
  stats : PoolStats := {}

/-- A step that the pool can take by itself. -/
inductive Move where
  /-- The dispatcher takes the first task of the queue. -/
  | take
  /-- The dispatcher starts the task for which it has a permit. -/
  | start
  /-- A running task ends. -/
  | finish (ticket : Nat) (ending : Ending)
  /-- The dispatcher collects an ending. -/
  | collect
  /-- The dispatcher finds the queue closed and empty. -/
  | drain
  | exit
  /-- The first shutdown call returns. -/
  | stop
  deriving DecidableEq

namespace Pool

variable {τ : Type}

/-- A pool that has just been started within the given bounds. -/
def start (bounds : PoolConfig) : Pool τ := { bounds }

/-- What is logged when a pool is started. -/
def startLog (bounds : PoolConfig) : List LogLine :=
  [.poolStarted bounds.maxWorkers bounds.queueCapacity]

def isOpen (p : Pool τ) : Bool := p.phase = .accepting

/-- The number of permits that are in use. -/
def inFlight (p : Pool τ) : Nat := p.bounds.maxWorkers - p.free

/-- Whether the pool refuses a task now, and why. -/
def refusal? (p : Pool τ) : Option SubmitError :=
  if p.phase ≠ .accepting then some .closed
  else if p.bounds.queueCapacity ≤ p.queue.length then some .queueFull
  else none

/-- Puts a task into the queue, or refuses it. Nothing is counted yet, and the last `lag` of the
tasks that have been accepted need not be counted either: the number of the task comes after
theirs. -/
def offer (p : Pool τ) (lag : Nat) (task : τ) : Pool τ × Except SubmitError Unit :=
  match p.refusal? with
  | some e => (p, .error e)
  | none => ({ p with queue := p.queue ++ [⟨p.stats.submitted + lag, task⟩] }, .ok ())

/-- Counts the answer to a submit call. -/
def count (p : Pool τ) : Except SubmitError Unit → Pool τ
  | .ok () => { p with stats := { p.stats with submitted := p.stats.submitted + 1 } }
  | .error _ => { p with stats := { p.stats with rejected := p.stats.rejected + 1 } }

/-- A submit call: queues a task, or refuses it, and counts the answer. -/
def submit (p : Pool τ) (task : τ) : Pool τ × Except SubmitError Unit :=
  let (q, answer) := p.offer 0 task
  (q.count answer, answer)

/-- Begins to shut the pool down. A further call changes nothing. -/
def shutdown (p : Pool τ) : Pool τ :=
  if p.phase = .accepting then { p with phase := .stopping } else p

/-- Gives a permit back: to the dispatcher if it waits for one. -/
def release (p : Pool τ) : Pool τ :=
  match p.dispatcher with
  | .holding j => { p with dispatcher := .granted j }
  | _ => { p with free := p.free + 1 }

/-- Takes the first task of the queue, with a permit if one is free. -/
def take (p : Pool τ) (j : Job τ) (rest : List (Job τ)) : Pool τ :=
  if 0 < p.free then { p with queue := rest, dispatcher := .granted j, free := p.free - 1 }
  else { p with queue := rest, dispatcher := .holding j }

/-- The counters after the end of a task. -/
def countEnding (s : PoolStats) : Ending → PoolStats
  | .completed => { s with completed := s.completed + 1 }
  | .panicked => s

/-- The counters after an ending has been collected. -/
def countCollected (s : PoolStats) : Ending → PoolStats
  | .completed => s
  | .panicked => { s with panicked := s.panicked + 1 }

/-- Ends a running task. -/
def finish (p : Pool τ) (ticket : Nat) (ending : Ending) : Pool τ :=
  { p.release with
    running := p.running.filter fun j => j.ticket ≠ ticket
    uncollected := p.uncollected ++ [ending]
    stats := countEnding p.stats ending }

/-- Collects the first ending. -/
def collect (p : Pool τ) (e : Ending) (rest : List Ending) : Pool τ :=
  { p with uncollected := rest, stats := countCollected p.stats e }

/-- The pool after a move; none if the move is not possible. -/
def move? (p : Pool τ) : Move → Option (Pool τ)
  | .take =>
    match p.dispatcher, p.queue with
    | .idle, j :: rest => some (p.take j rest)
    | _, _ => none
  | .start =>
    match p.dispatcher with
    | .granted j => some { p with dispatcher := .idle, running := p.running ++ [j] }
    | _ => none
  | .finish ticket ending =>
    if p.running.any fun j => j.ticket = ticket then some (p.finish ticket ending) else none
  | .collect =>
    match p.dispatcher, p.uncollected with
    | .idle, e :: rest => some (p.collect e rest)
    | .draining, e :: rest => some (p.collect e rest)
    | _, _ => none
  | .drain =>
    match p.dispatcher, p.queue with
    | .idle, [] => if p.phase = .accepting then none else some { p with dispatcher := .draining }
    | _, _ => none
  | .exit =>
    match p.dispatcher, p.running, p.uncollected with
    | .draining, [], [] => some { p with dispatcher := .exited }
    | _, _, _ => none
  | .stop =>
    match p.dispatcher, p.phase with
    | .exited, .stopping => some { p with phase := .stopped }
    | _, _ => none

/-- What is logged when a pool makes a move: its counters, when it has been shut down. -/
def moveLog (p : Pool τ) : Move → List LogLine
  | .stop => [.poolStopped p.stats]
  | _ => []

/-- The move that the dispatcher makes next, if it can make one. -/
def nextMove? (p : Pool τ) : Option Move :=
  match p.dispatcher with
  | .idle =>
    if p.uncollected ≠ [] then some .collect
    else if p.queue ≠ [] then some .take
    else if p.phase ≠ .accepting then some .drain
    else none
  | .holding _ => none
  | .granted _ => some .start
  | .draining =>
    if p.uncollected ≠ [] then some .collect
    else if p.running = [] then some .exit
    else none
  | .exited => none

/-- How much is left for the dispatcher to do in its present state. -/
def Dispatcher.load {τ : Type} : Dispatcher τ → Nat
  | .exited => 0
  | .draining => 1
  | .idle => 2
  | .holding _ => 4
  | .granted _ => 4

/-- How much is left for the dispatcher to do. -/
def load (p : Pool τ) : Nat :=
  3 * p.queue.length + p.uncollected.length + Dispatcher.load p.dispatcher

theorem load_take (p : Pool τ) (j : Job τ) (rest : List (Job τ)) :
    (p.take j rest).load = 3 * rest.length + p.uncollected.length + 4 := by
  unfold take
  split <;> rfl

theorem load_move {p q : Pool τ} {m : Move} (hm : p.nextMove? = some m) (h : p.move? m = some q) :
    q.load < p.load := by
  unfold nextMove? at hm
  grind [move?, load_take, collect, load, Dispatcher.load]

/-- The dispatcher moves until it can make no move, but at most `n` times, its exit not counted. -/
def advance (p : Pool τ) : Nat → Pool τ
  | 0 => (p.move? .exit).getD p
  | n + 1 => ((p.nextMove?.bind p.move?).map fun q => q.advance n).getD p

end Pool

end RoomWatch
