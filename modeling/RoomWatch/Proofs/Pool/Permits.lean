import RoomWatch.Proofs.Pool.Ledger

/-!
# Permits

A pool starts with as many permits as it may run tasks. A permit is free, or in the hand of the
dispatcher, which is about to start a task with it, or with a running task.

* `permitted_move`: **no move loses or doubles a permit**, whether a task ends or panics, and
  whether or not the dispatcher waits for its permit.
* `inFlight_eq`: so the pool tells exactly the permits that are in use.
-/

namespace RoomWatch

namespace Pool

variable {τ : Type} {p q : Pool τ} {l : Ledger τ}

/-- The permits that the dispatcher has in its hand. -/
def granted (p : Pool τ) : Nat :=
  match p.dispatcher with
  | .granted _ => 1
  | .idle | .holding _ | .draining | .exited => 0

/-- **Every permit is in one place**, and the dispatcher waits only if none is free. -/
structure Permitted (p : Pool τ) : Prop where
  total : p.free + p.granted + p.running.length = p.bounds.maxWorkers
  scarce : ∀ j, p.dispatcher = .holding j → p.free = 0

theorem bounds_submit (p : Pool τ) (t : τ) : (p.submit t).1.bounds = p.bounds := by
  rw [submit_eq]
  split <;> rfl

theorem bounds_shutdown (p : Pool τ) : p.shutdown.bounds = p.bounds := by
  unfold shutdown
  split <;> rfl

theorem bounds_move {m : Move} (h : p.move? m = some q) : q.bounds = p.bounds := by
  cases moved_of_move? h with
  | take j rest _ _ => unfold take; split <;> rfl
  | finish j ending _ => unfold finish release; split <;> rfl
  | _ => rfl

theorem permitted_start (bounds : PoolConfig) : (start bounds : Pool τ).Permitted := ⟨rfl, nofun⟩

/-- Submitting and shutting down have nothing to do with permits. -/
theorem permitted_submit (h : p.Permitted) (t : τ) : (p.submit t).1.Permitted := by
  rw [submit_eq]
  split <;> exact ⟨h.total, h.scarce⟩

theorem permitted_shutdown (h : p.Permitted) : p.shutdown.Permitted := by
  unfold shutdown
  split
  · exact ⟨h.total, h.scarce⟩
  · exact h

/-- A task that ends is one running task less. -/
theorem length_running_finish (h : p.Balanced l) {j : Job τ} (hj : j ∈ p.running) (e : Ending) :
    (p.finish j.ticket e).running.length + 1 = p.running.length := by
  have hone := congrArg List.length (filter_key_eq h.nodup_running hj)
  have hall := (List.filter_append_perm (fun i => decide (i.ticket = j.ticket)) p.running).length_eq
  have hkept : (p.finish j.ticket e).running =
      p.running.filter fun i => !decide (i.ticket = j.ticket) := by
    simp
  rw [List.length_singleton] at hone
  rw [List.length_append, ← hkept, hone] at hall
  omega

/-- The permit of a task that ends goes to the dispatcher if it waits, else to the free ones. -/
theorem free_add_granted_finish (p : Pool τ) (ticket : Nat) (e : Ending) :
    (p.finish ticket e).free + (p.finish ticket e).granted = p.free + p.granted + 1 := by
  cases hd : p.dispatcher <;> simp only [finish, release, granted, hd]

/-- After the end of a task no dispatcher waits. -/
theorem not_holding_finish (p : Pool τ) (ticket : Nat) (e : Ending) (j : Job τ) :
    (p.finish ticket e).dispatcher ≠ .holding j := by
  cases hd : p.dispatcher <;> simp [finish, release, hd]

/-- **No permit is lost or doubled by a move.** -/
theorem permitted_move (h : p.Permitted) (hb : p.Balanced l) {m : Move}
    (hm : p.move? m = some q) : q.Permitted := by
  have hbounds := bounds_move hm
  have htotal := h.total
  cases moved_of_move? hm with
  | take j rest hd hq =>
    have hgranted : p.granted = 0 := by unfold granted; rw [hd]
    unfold take
    split
    · refine ⟨?_, nofun⟩
      simp only [granted]
      omega
    · refine ⟨?_, fun _ _ => ?_⟩
      · simp only [granted]
        omega
      · dsimp only
        omega
  | start j hd =>
    have hgranted : p.granted = 1 := by unfold granted; rw [hd]
    refine ⟨?_, nofun⟩
    simp only [granted, List.length_append, List.length_singleton]
    omega
  | finish j ending hj =>
    have hrunning := length_running_finish hb hj ending
    have hpermit := p.free_add_granted_finish j.ticket ending
    refine ⟨?_, fun i hi => absurd hi (p.not_holding_finish _ _ i)⟩
    rw [hbounds]
    omega
  | collect e rest _ _ => exact ⟨htotal, h.scarce⟩
  | drain hd _ _ =>
    have hgranted : p.granted = 0 := by unfold granted; rw [hd]
    refine ⟨?_, nofun⟩
    simp only [granted]
    omega
  | exit hd _ _ =>
    have hgranted : p.granted = 0 := by unfold granted; rw [hd]
    refine ⟨?_, nofun⟩
    simp only [granted]
    omega
  | stop _ _ => exact ⟨htotal, h.scarce⟩

/-- What the pool tells about the permits that are in use. -/
theorem inFlight_eq (h : p.Permitted) : p.inFlight = p.granted + p.running.length := by
  have := h.total
  unfold inFlight
  omega

end Pool

end RoomWatch
