import RoomWatch.Proofs.Pool.Effort

/-!
# The bound on running tasks

What the permits of a pool are good for: never more tasks run than the pool may run, and no permit
is ever lost, whatever the tasks do and whenever the pool is shut down.

* `permitted_run`: every run keeps the permits together.
* `inFlight_of_atRest`: a pool that has come to rest tells how many tasks run.
* `samePermits_finish`: a task gives its permit back in the same way whether it ends or panics.
* `bounded_of_run`: **the bound holds after every run.**
-/

namespace RoomWatch

variable {τ : Type}

namespace Pool

variable {p q : Pool τ}

/-- A pool at rest can do nothing by itself: only the end of a task may come next. -/
def AtRest (p : Pool τ) : Prop :=
  ∀ m q, p.move? m = some q → ∃ ticket ending, m = .finish ticket ending

theorem granted_le_one (p : Pool τ) : p.granted ≤ 1 := by
  unfold granted
  split <;> decide

/-- A dispatcher that has a permit for a task can start it, so it has none when it is at rest. -/
theorem granted_of_atRest (h : p.AtRest) : p.granted = 0 := by
  cases hd : p.dispatcher with
  | granted j =>
    have hstart : (p.move? .start).isSome := by simp [move?, hd]
    obtain ⟨q, hq⟩ := Option.isSome_iff_exists.1 hstart
    obtain ⟨_, _, hm⟩ := h _ _ hq
    cases hm
  | _ => simp only [granted, hd]

/-- **A pool at rest tells how many tasks run.** -/
theorem inFlight_of_atRest (hp : p.Permitted) (h : p.AtRest) : p.inFlight = p.running.length := by
  rw [inFlight_eq hp, granted_of_atRest h, Nat.zero_add]

/-- What two pools have to agree on for their permits to be in the same places. -/
structure SamePermits (p q : Pool τ) : Prop where
  free : q.free = p.free
  dispatcher : q.dispatcher = p.dispatcher
  running : q.running = p.running

/-- **How a task ends makes no difference to the permits.** -/
theorem samePermits_finish (p : Pool τ) (ticket : Nat) (e e' : Ending) :
    SamePermits (p.finish ticket e) (p.finish ticket e') := ⟨rfl, rfl, rfl⟩

end Pool

namespace Observed

variable {o o' : Observed τ} {e : PoolEvent τ} {es : List (PoolEvent τ)}

theorem bounds_step (he : o.step? e = some o') : o'.pool.bounds = o.pool.bounds := by
  cases e with
  | submit t => cases he; exact Pool.bounds_submit ..
  | shutdown => cases he; exact Pool.bounds_shutdown _
  | move m =>
    obtain ⟨q, hq, rfl⟩ := Option.map_eq_some_iff.1 he
    exact Pool.bounds_move hq

/-- Every step keeps the permits together. -/
theorem permitted_step (hb : o.pool.Balanced o.ledger) (h : o.pool.Permitted)
    (he : o.step? e = some o') : o'.pool.Permitted := by
  cases e with
  | submit t => cases he; exact Pool.permitted_submit h t
  | shutdown => cases he; exact Pool.permitted_shutdown h
  | move m =>
    obtain ⟨q, hq, rfl⟩ := Option.map_eq_some_iff.1 he
    exact Pool.permitted_move h hb hq

/-- So does every run, and the bounds stay what they are. -/
theorem permitted_run (hb : o.pool.Balanced o.ledger) (h : o.pool.Permitted)
    (hr : o.run? es = some o') : o'.pool.Permitted ∧ o'.pool.bounds = o.pool.bounds := by
  have hall : o'.pool.Balanced o'.ledger ∧ o'.pool.Permitted ∧ o'.pool.bounds = o.pool.bounds := by
    refine foldlM_induction (P := fun q : Observed τ =>
      q.pool.Balanced q.ledger ∧ q.pool.Permitted ∧ q.pool.bounds = o.pool.bounds)
      hr ⟨hb, h, rfl⟩ ?_
    rintro o₁ o₂ e ⟨hb, h, hbounds⟩ he
    exact ⟨balanced_step hb he, permitted_step hb h he, (bounds_step he).trans hbounds⟩
  exact hall.2

/-- **The bound on running tasks is kept, and every permit is accounted for.** -/
structure Bounded (bounds : PoolConfig) (o : Observed τ) : Prop where
  /-- The running tasks are those that have been started and have not ended. -/
  running : o.ledger.started.length = o.pool.running.length + o.ledger.ended.length
  bounded : o.pool.running.length ≤ bounds.maxWorkers
  /-- A permit is free, or with a running task, or with the dispatcher for the task that it is about
  to start. -/
  conserved : o.pool.free + o.pool.running.length + o.pool.granted = bounds.maxWorkers
  granted_le : o.pool.granted ≤ 1
  /-- What the pool tells is the number of workers less the free permits, and that is no truncated
  difference. -/
  inFlight : o.pool.inFlight + o.pool.free = bounds.maxWorkers
  resting : o.pool.AtRest → o.pool.inFlight = o.pool.running.length
  /-- A running task may end in either way, and gives back one permit. -/
  returned : ∀ j ∈ o.pool.running, ∀ e, ∃ q, o.pool.move? (.finish j.ticket e) = some q ∧
    q.free + q.granted = o.pool.free + o.pool.granted + 1 ∧
    q.running.length + 1 = o.pool.running.length
  /-- The permit of a task that panics goes where that of a task that completes goes. -/
  alike : ∀ ticket q q', o.pool.move? (.finish ticket .completed) = some q →
    o.pool.move? (.finish ticket .panicked) = some q' → q.SamePermits q'

/-- The running tasks are those that have been started and have not ended. -/
theorem length_started (hb : o.pool.Balanced o.ledger) :
    o.ledger.started.length = o.pool.running.length + o.ledger.ended.length := by
  rw [hb.split.length_eq, List.length_append, List.length_map]

/-- **The bound on running tasks holds after every run**, whatever the tasks do, in whatever order
the pool makes its moves and whenever it is shut down. -/
theorem bounded_of_run {c : PoolConfig} {es : List (PoolEvent τ)} {o : Observed τ}
    (h : (start c.normalized).run? es = some o) : o.Bounded c.normalized := by
  have hb := balanced_run (Pool.balanced_start _) h
  obtain ⟨hp, hbounds⟩ := permitted_run (Pool.balanced_start _) (Pool.permitted_start _) h
  have htotal : o.pool.free + o.pool.granted + o.pool.running.length = c.normalized.maxWorkers :=
    hp.total.trans (congrArg PoolConfig.maxWorkers hbounds)
  have hinFlight := Pool.inFlight_eq hp
  refine ⟨length_started hb, by omega, by omega, o.pool.granted_le_one, by omega,
    Pool.inFlight_of_atRest hp, ?_, ?_⟩
  · intro j hj e
    exact ⟨_, Pool.move_finish hj e, o.pool.free_add_granted_finish j.ticket e,
      Pool.length_running_finish hb hj e⟩
  · intro ticket q q' hq hq'
    cases Pool.moved_of_move? hq with
    | finish j _ hj =>
      rw [Pool.move_finish hj] at hq'
      cases hq'
      exact o.pool.samePermits_finish _ _ _

/-- Bounds of zero count as one. The dispatcher waits with the second task in hand while the first
one runs, and gets its permit when it panics. -/
def handover : List (PoolEvent Nat) :=
  [.submit 10, .move .take, .move .start, .submit 11, .move .take, .submit 12, .shutdown,
    .move (.finish 0 .panicked)]

theorem bounded_of_handover :
    ∃ o : Observed Nat, (start (PoolConfig.normalized ⟨0, 0⟩)).run? handover = some o ∧
      o.Bounded ⟨1, 1⟩ ∧ o.pool.free = 0 ∧ o.pool.granted = 1 ∧ o.pool.running.length = 0 ∧
      o.pool.inFlight = 1 := by
  refine ⟨_, rfl, ?_, rfl, rfl, rfl, rfl⟩
  exact @bounded_of_run Nat ⟨0, 0⟩ handover _ rfl

end Observed

end RoomWatch
