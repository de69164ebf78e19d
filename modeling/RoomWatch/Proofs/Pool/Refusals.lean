import RoomWatch.Proofs.Pool.Bound
import RoomWatch.Proofs.Pool.Closing

/-!
# What a submit call is told

A pool refuses a task only because it has been shut down or because its queue is full, and a
refusal is counted and changes nothing else.

* `queue_le_run`: the queue never holds more tasks than it may.
* `phase_run`: **a pool accepts tasks as long as it has not been shut down.**
* `counted_calls`, `calls_run`: every submit call of a run is counted once.
* `length_accepted`: an accepted task has been started, or is held, or is in the queue.
-/

namespace RoomWatch

variable {τ : Type}

/-- The task of a submit call. A task that runs may make such calls as well. -/
def PoolEvent.task? : PoolEvent τ → Option τ
  | .submit t => some t
  | .shutdown | .move _ => none

namespace Pool

variable {p q : Pool τ} {l : Ledger τ}

/-- The pool after it has refused a task. -/
def reject (p : Pool τ) : Pool τ :=
  { p with stats := { p.stats with rejected := p.stats.rejected + 1 } }

/-- The pool after it has put a task at the end of its queue. -/
def enqueue (p : Pool τ) (t : τ) : Pool τ :=
  { p with
    queue := p.queue ++ [⟨p.stats.submitted, t⟩]
    stats := { p.stats with submitted := p.stats.submitted + 1 } }

/-! ## The queue -/

theorem queue_le_submit (h : p.queue.length ≤ p.bounds.queueCapacity) (t : τ) :
    (p.submit t).1.queue.length ≤ p.bounds.queueCapacity := by
  cases hr : p.refusal? with
  | some e =>
    rw [submit_of_refusal hr]
    exact h
  | none =>
    have hroom := (refusal?_eq_none_iff.1 hr).2
    rw [submit_of_none hr, List.length_append, List.length_singleton]
    omega

theorem queue_shutdown (p : Pool τ) : p.shutdown.queue = p.queue := by
  unfold shutdown
  split <;> rfl

/-- Only submit calls make the queue longer. -/
theorem queue_length_move {m : Move} (hm : p.move? m = some q) :
    q.queue.length ≤ p.queue.length := by
  cases moved_of_move? hm with
  | take j rest _ hq =>
    rw [queue_take, hq, List.length_cons]
    exact Nat.le_succ _
  | finish j ending _ => exact Nat.le_of_eq (congrArg List.length (queue_finish ..))
  | _ => exact Nat.le_refl _

theorem held_length_le (p : Pool τ) : p.held.length ≤ 1 := by
  cases hd : p.dispatcher <;> simp [held, hd]

/-! ## The answer to a submit call -/

theorem submit_of_full (ha : p.phase = .accepting)
    (hq : p.queue.length = p.bounds.queueCapacity) (t : τ) :
    p.submit t = (p.reject, .error .queueFull) := by
  refine submit_of_refusal ?_ t
  simp [refusal?, ha, hq]

theorem submit_of_room (ha : p.phase = .accepting)
    (hle : p.queue.length ≤ p.bounds.queueCapacity)
    (hq : p.queue.length ≠ p.bounds.queueCapacity) (t : τ) :
    p.submit t = (p.enqueue t, .ok ()) :=
  submit_of_none (refusal?_eq_none_iff.2 ⟨ha, Nat.lt_of_le_of_ne hle hq⟩) t

theorem dispatcher_submit (p : Pool τ) (t : τ) : (p.submit t).1.dispatcher = p.dispatcher := by
  rw [submit_eq]
  split <;> rfl

/-- A task gives the dispatcher three moves to make. -/
theorem load_submit (p : Pool τ) (t : τ) : (p.submit t).1.load ≤ p.load + 3 := by
  cases hr : p.refusal? with
  | some e =>
    rw [submit_of_refusal hr]
    exact Nat.le_add_right _ 3
  | none =>
    simp only [submit_of_none hr, load, List.length_append, List.length_singleton]
    omega

end Pool

namespace Observed

variable {o o' : Observed τ} {e : PoolEvent τ} {es : List (PoolEvent τ)}

/-- The queue never holds more tasks than it may. -/
theorem queue_le_step (h : o.pool.queue.length ≤ o.pool.bounds.queueCapacity)
    (he : o.step? e = some o') : o'.pool.queue.length ≤ o'.pool.bounds.queueCapacity := by
  rw [bounds_step he]
  cases e with
  | submit t => cases he; exact Pool.queue_le_submit h t
  | shutdown =>
    cases he
    rw [Pool.queue_shutdown]
    exact h
  | move m =>
    obtain ⟨q, hq, rfl⟩ := Option.map_eq_some_iff.1 he
    exact Nat.le_trans (Pool.queue_length_move hq) h

theorem queue_le_run (h : o.pool.queue.length ≤ o.pool.bounds.queueCapacity)
    (hr : o.run? es = some o') : o'.pool.queue.length ≤ o'.pool.bounds.queueCapacity :=
  foldlM_induction (P := fun o => o.pool.queue.length ≤ o.pool.bounds.queueCapacity) hr h
    fun _ _ _ => queue_le_step

/-- Only a shutdown call ends the time in which tasks are accepted. -/
theorem phase_step (he : o.step? e = some o') :
    o'.pool.phase = .accepting ↔ o.pool.phase = .accepting ∧ e ≠ .shutdown := by
  cases e with
  | submit t =>
    cases he
    rw [Pool.phase_submit]
    simp
  | shutdown =>
    cases he
    simp [Pool.not_accepting_shutdown]
  | move m =>
    obtain ⟨q, hq, rfl⟩ := Option.map_eq_some_iff.1 he
    simp only [ne_eq, reduceCtorEq, not_false_eq_true, and_true]
    refine ⟨fun ha => ?_, fun ha => Pool.accepting_move ha hq⟩
    by_cases hs : m = .stop
    · subst hs
      cases Pool.moved_of_move? hq with
      | stop _ _ => cases ha
    · exact (Pool.phase_move hs hq).symm.trans ha

/-- **A pool accepts tasks as long as it has not been shut down.** -/
theorem phase_run (hr : o.run? es = some o') :
    o'.pool.phase = .accepting ↔ o.pool.phase = .accepting ∧ .shutdown ∉ es := by
  induction es generalizing o with
  | nil =>
    cases hr
    simp
  | cons e es ih =>
    obtain ⟨o₁, h₁, hr⟩ := Option.bind_eq_some_iff.1 hr
    rw [ih hr, phase_step h₁, List.mem_cons, not_or, and_assoc, ne_comm]

/-- The submit calls of a run are those that the ledger tells of. -/
theorem calls_run (hr : o.run? es = some o') :
    o'.ledger.calls.map Prod.fst =
      o.ledger.calls.map Prod.fst ++ es.filterMap PoolEvent.task? := by
  induction es generalizing o with
  | nil => cases hr; exact (List.append_nil _).symm
  | cons e es ih =>
    obtain ⟨o₁, h₁, hr⟩ := Option.bind_eq_some_iff.1 hr
    rw [ih hr]
    cases e with
    | submit t =>
      cases h₁
      simp [Ledger.enter, PoolEvent.task?]
    | shutdown => cases h₁; rfl
    | move m =>
      obtain ⟨q, -, rfl⟩ := Option.map_eq_some_iff.1 h₁
      rw [Ledger.calls_follow]
      rfl

/-- The tasks that a submit call leaves accepted. -/
theorem accepted_submit (t : τ) (he : o.step? (.submit t) = some o') :
    o'.ledger.accepted =
      if o.pool.refusal? = none then o.ledger.accepted ++ [t] else o.ledger.accepted := by
  cases he
  cases hr : o.pool.refusal? with
  | none =>
    rw [Pool.submit_of_none hr, if_pos rfl]
    exact Ledger.accepted_enter_ok ..
  | some e =>
    rw [Pool.submit_of_refusal hr, if_neg nofun]
    exact Ledger.accepted_enter_error ..

/-- Each submit call is counted once. -/
theorem counted_calls (hb : o.pool.Balanced o.ledger) :
    o.pool.stats.submitted + o.pool.stats.rejected = o.ledger.calls.length := by
  have hcalls := (List.filter_append_perm (fun c => c.2.isOk) o.ledger.calls).length_eq
  rw [hb.submitted, hb.rejected, Ledger.accepted, Ledger.refused, List.length_map,
    List.length_map, ← List.length_append]
  exact hcalls

/-- Where the accepted tasks are, counted. -/
theorem length_accepted (hb : o.pool.Balanced o.ledger) :
    o.ledger.accepted.length =
      o.ledger.started.length + o.pool.held.length + o.pool.queue.length := by
  have hjobs := congrArg List.length o.ledger.tasks_jobs
  have horder := congrArg List.length hb.order
  rw [List.length_map] at hjobs
  rw [List.length_append, List.length_append] at horder
  omega

end Observed

end RoomWatch
