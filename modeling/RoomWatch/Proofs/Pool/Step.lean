import RoomWatch.Pool.Basic

/-!
# What a step of a pool does

Every step of a pool is a submit call, a shutdown call or a move.

* `moved_of_move?`: what a move needs and what it does, one case for each kind of move.
* `refusal?_eq_none_iff`, `submit_of_refusal`, `submit_of_none`: the two outcomes of a submit
  call.
* `held_take`, `held_finish` and their like: which parts of a pool an operation leaves as they are.
-/

namespace RoomWatch

namespace Pool

variable {τ : Type} {p q : Pool τ}

/-- The job that the dispatcher has taken from the queue and not yet started, if there is one. -/
def held (p : Pool τ) : List (Job τ) :=
  match p.dispatcher with
  | .holding j | .granted j => [j]
  | .idle | .draining | .exited => []

/-- What a move needs and what it does. -/
inductive Moved (p : Pool τ) : Move → Pool τ → Prop where
  | take (j : Job τ) (rest : List (Job τ)) (idle : p.dispatcher = .idle)
      (next : p.queue = j :: rest) : Moved p .take (p.take j rest)
  | start (j : Job τ) (granted : p.dispatcher = .granted j) :
      Moved p .start { p with dispatcher := .idle, running := p.running ++ [j] }
  | finish (j : Job τ) (ending : Ending) (runs : j ∈ p.running) :
      Moved p (.finish j.ticket ending) (p.finish j.ticket ending)
  | collect (e : Ending) (rest : List Ending)
      (free : p.dispatcher = .idle ∨ p.dispatcher = .draining) (next : p.uncollected = e :: rest) :
      Moved p .collect (p.collect e rest)
  | drain (idle : p.dispatcher = .idle) (empty : p.queue = []) (closed : p.phase ≠ .accepting) :
      Moved p .drain { p with dispatcher := .draining }
  | exit (draining : p.dispatcher = .draining) (ended : p.running = [])
      (collected : p.uncollected = []) : Moved p .exit { p with dispatcher := .exited }
  | stop (exited : p.dispatcher = .exited) (stopping : p.phase = .stopping) :
      Moved p .stop { p with phase := .stopped }

/-- **Inversion of moves.** A move that is possible is one of the seven. -/
theorem moved_of_move? {m : Move} (h : p.move? m = some q) : p.Moved m q := by
  cases m with
  | take =>
    simp only [move?] at h
    split at h
    · next j rest hd hq => cases h; exact .take j rest hd hq
    · cases h
  | start =>
    simp only [move?] at h
    split at h
    · next j hd => cases h; exact .start j hd
    · cases h
  | finish ticket ending =>
    simp only [move?, List.any_eq_true, decide_eq_true_eq] at h
    split at h
    · next hj =>
      cases h
      obtain ⟨j, hj, rfl⟩ := hj
      exact .finish j ending hj
    · cases h
  | collect =>
    simp only [move?] at h
    split at h
    · next e rest hd hu => cases h; exact .collect e rest (.inl hd) hu
    · next e rest hd hu => cases h; exact .collect e rest (.inr hd) hu
    · cases h
  | drain =>
    simp only [move?] at h
    split at h
    · next hd hq =>
      split at h
      · cases h
      · next hp => cases h; exact .drain hd hq hp
    · cases h
  | exit =>
    simp only [move?] at h
    split at h
    · next hd hr hu => cases h; exact .exit hd hr hu
    · cases h
  | stop =>
    simp only [move?] at h
    split at h
    · next hd hp => cases h; exact .stop hd hp
    · cases h

/-- The task that ends is the one that is found under its ticket. -/
theorem finish_of_find? {ticket : Nat} {e : Ending} {j : Job τ}
    (hj : (p.running.find? fun i => i.ticket = ticket) = some j)
    (hq : p.move? (.finish ticket e) = some q) :
    j ∈ p.running ∧ j.ticket = ticket ∧ q = p.finish ticket e := by
  have hticket := List.find?_some hj
  rw [decide_eq_true_eq] at hticket
  refine ⟨List.mem_of_find?_eq_some hj, hticket, ?_⟩
  simp only [move?] at hq
  split at hq
  · cases hq
    rfl
  · cases hq

/-! ## Submitting -/

theorem refusal?_eq_none_iff :
    p.refusal? = none ↔ p.phase = .accepting ∧ p.queue.length < p.bounds.queueCapacity := by
  unfold refusal?
  by_cases hp : p.phase = .accepting
  · by_cases hq : p.bounds.queueCapacity ≤ p.queue.length
    · simp [hp, hq]
    · simp only [hp, hq, ne_eq, not_true_eq_false, if_false, true_and, true_iff]
      omega
  · simp [hp]

/-- What comes of both steps of a submit call. -/
theorem submit_eq (p : Pool τ) (t : τ) :
    p.submit t = match p.refusal? with
      | some e =>
        ({ p with stats := { p.stats with rejected := p.stats.rejected + 1 } }, .error e)
      | none =>
        ({ p with
            queue := p.queue ++ [⟨p.stats.submitted, t⟩]
            stats := { p.stats with submitted := p.stats.submitted + 1 } }, .ok ()) := by
  unfold submit offer
  cases p.refusal? <;> rfl

theorem submit_of_refusal {e : SubmitError} (h : p.refusal? = some e) (t : τ) :
    p.submit t =
      ({ p with stats := { p.stats with rejected := p.stats.rejected + 1 } }, .error e) := by
  rw [submit_eq, h]

theorem submit_of_none (h : p.refusal? = none) (t : τ) :
    p.submit t =
      ({ p with
          queue := p.queue ++ [⟨p.stats.submitted, t⟩]
          stats := { p.stats with submitted := p.stats.submitted + 1 } }, .ok ()) := by
  rw [submit_eq, h]

/-! ## What operations leave as it is -/

theorem shutdown_eq (p : Pool τ) : p.shutdown = p ∨ p.shutdown = { p with phase := .stopping } := by
  unfold shutdown
  split
  · exact .inr rfl
  · exact .inl rfl

theorem held_of_idle (h : p.dispatcher = .idle) : p.held = [] := by
  unfold held; rw [h]

theorem held_of_draining (h : p.dispatcher = .draining) : p.held = [] := by
  unfold held; rw [h]

theorem held_of_granted {j : Job τ} (h : p.dispatcher = .granted j) : p.held = [j] := by
  unfold held; rw [h]

@[simp] theorem held_take (p : Pool τ) (j : Job τ) (rest : List (Job τ)) :
    (p.take j rest).held = [j] := by
  unfold take; split <;> rfl

@[simp] theorem queue_take (p : Pool τ) (j : Job τ) (rest : List (Job τ)) :
    (p.take j rest).queue = rest := by
  unfold take; split <;> rfl

@[simp] theorem running_take (p : Pool τ) (j : Job τ) (rest : List (Job τ)) :
    (p.take j rest).running = p.running := by
  unfold take; split <;> rfl

@[simp] theorem uncollected_take (p : Pool τ) (j : Job τ) (rest : List (Job τ)) :
    (p.take j rest).uncollected = p.uncollected := by
  unfold take; split <;> rfl

@[simp] theorem stats_take (p : Pool τ) (j : Job τ) (rest : List (Job τ)) :
    (p.take j rest).stats = p.stats := by
  unfold take; split <;> rfl

@[simp] theorem phase_take (p : Pool τ) (j : Job τ) (rest : List (Job τ)) :
    (p.take j rest).phase = p.phase := by
  unfold take; split <;> rfl

/-- A job that waits for a permit is held just as well once it has one. -/
@[simp] theorem held_finish (p : Pool τ) (ticket : Nat) (e : Ending) :
    (p.finish ticket e).held = p.held := by
  cases hd : p.dispatcher <;> simp [finish, release, held, hd]

@[simp] theorem queue_finish (p : Pool τ) (ticket : Nat) (e : Ending) :
    (p.finish ticket e).queue = p.queue := by
  unfold finish release; split <;> rfl

@[simp] theorem running_finish (p : Pool τ) (ticket : Nat) (e : Ending) :
    (p.finish ticket e).running = p.running.filter fun j => j.ticket ≠ ticket := rfl

@[simp] theorem uncollected_finish (p : Pool τ) (ticket : Nat) (e : Ending) :
    (p.finish ticket e).uncollected = p.uncollected ++ [e] := rfl

@[simp] theorem stats_finish (p : Pool τ) (ticket : Nat) (e : Ending) :
    (p.finish ticket e).stats = countEnding p.stats e := rfl

@[simp] theorem phase_finish (p : Pool τ) (ticket : Nat) (e : Ending) :
    (p.finish ticket e).phase = p.phase := by
  unfold finish release; split <;> rfl

end Pool

end RoomWatch
