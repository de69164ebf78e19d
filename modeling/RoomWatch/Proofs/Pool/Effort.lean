import RoomWatch.Proofs.Pool.Permits

/-!
# What is left to do in a pool

The effort of a pool counts the moves that are still to be made in it, those of its tasks
included: a task in the queue has to be taken, to be started, to end and to be collected.

* `effort_move`: **every move but the return of a shutdown call lowers the effort.**
* `exists_move`: a pool that is closed to new tasks can always move on, until the dispatcher has
  exited. A dispatcher that waits for a permit waits for a running task.
-/

namespace RoomWatch

namespace Pool

variable {τ : Type} {p q : Pool τ} {l : Ledger τ}

/-- How much is left to do for the dispatcher and the tasks. -/
def effort (p : Pool τ) : Nat :=
  p.load + 2 * (p.queue.length + p.held.length + p.running.length)

theorem load_finish (p : Pool τ) (ticket : Nat) (e : Ending) :
    (p.finish ticket e).load = p.load + 1 := by
  cases hd : p.dispatcher <;> simp [load, Dispatcher.load, finish, release, hd] <;> omega

/-- **A pool is used up by its moves.** -/
theorem effort_move (hb : p.Balanced l) {m : Move} (hm : p.move? m = some q) (hs : m ≠ .stop) :
    q.effort < p.effort := by
  unfold effort
  cases moved_of_move? hm with
  | take j rest hd hq =>
    rw [load_take, queue_take, held_take, running_take, held_of_idle hd, List.length_singleton,
      List.length_nil]
    simp only [load, hd, hq, Dispatcher.load, List.length_cons]
    omega
  | start j hd =>
    rw [held_of_granted hd, held_of_idle rfl]
    simp only [load, hd, Dispatcher.load, List.length_append, List.length_singleton,
      List.length_nil]
    omega
  | finish j ending hj =>
    have hrunning := length_running_finish hb hj ending
    rw [load_finish, queue_finish, held_finish]
    omega
  | collect e rest _ hu =>
    have hload : p.load = (p.collect e rest).load + 1 := by
      simp only [load, collect, hu, List.length_cons]
      omega
    have hheld : (p.collect e rest).held = p.held := rfl
    rw [hload, hheld]
    simp only [collect]
    omega
  | drain hd _ _ =>
    rw [held_of_idle hd, held_of_draining rfl]
    simp only [load, hd, Dispatcher.load]
    omega
  | exit hd _ _ =>
    have hheld : ({ p with dispatcher := .exited } : Pool τ).held = [] := rfl
    rw [held_of_draining hd, hheld]
    simp only [load, hd, Dispatcher.load]
    omega
  | stop _ _ => exact absurd rfl hs

/-- A running task may end. -/
theorem move_finish {j : Job τ} (hj : j ∈ p.running) (e : Ending) :
    p.move? (.finish j.ticket e) = some (p.finish j.ticket e) := by
  have hany : (p.running.any fun i => i.ticket = j.ticket) = true :=
    List.any_eq_true.2 ⟨j, hj, decide_eq_true rfl⟩
  simp only [move?, hany, if_true]

/-- **Nothing but its tasks can hold up a closed pool.** -/
theorem exists_move (hp : p.Permitted) (hw : 0 < p.bounds.maxWorkers)
    (hclosed : p.phase ≠ .accepting) (hout : p.dispatcher ≠ .exited) :
    ∃ m, m ≠ .stop ∧ (p.move? m).isSome := by
  have hfinish : ∀ {j}, j ∈ p.running → ∃ m, m ≠ .stop ∧ (p.move? m).isSome := fun {j} hj =>
    ⟨.finish j.ticket .completed, by simp, Option.isSome_of_eq_some (move_finish hj .completed)⟩
  cases hd : p.dispatcher with
  | idle =>
    cases hq : p.queue with
    | nil => exact ⟨.drain, by simp, by simp [move?, hd, hq, hclosed]⟩
    | cons j rest => exact ⟨.take, by simp, by simp [move?, hd, hq]⟩
  | holding j =>
    -- all permits are with running tasks
    have htotal := hp.total
    have hscarce := hp.scarce j hd
    have hgranted : p.granted = 0 := by unfold granted; rw [hd]
    obtain ⟨i, hi⟩ := List.exists_mem_of_length_pos (show 0 < p.running.length by omega)
    exact hfinish hi
  | granted j => exact ⟨.start, by simp, by simp [move?, hd]⟩
  | draining =>
    cases hr : p.running with
    | cons j rest => exact hfinish (hr ▸ List.mem_cons_self)
    | nil =>
      cases hu : p.uncollected with
      | nil => exact ⟨.exit, by simp, by simp [move?, hd, hr, hu]⟩
      | cons e rest => exact ⟨.collect, by simp, by simp [move?, hd, hu]⟩
  | exited => exact absurd hd hout

end Pool

end RoomWatch
