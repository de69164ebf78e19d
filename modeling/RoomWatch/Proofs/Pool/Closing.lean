import RoomWatch.Proofs.Pool.Ledger

/-!
# How a pool comes to rest

* `Pool.Closing`: the dispatcher leaves only a closed pool in which nothing is left to do. Every
  step keeps this (`closing_submit`, `closing_shutdown`, `closing_move`).
* `nothing_left`: **a pool that has stopped has no task left anywhere**, so all that it has accepted
  has ended (`ended_of_stopped`) and nothing moves in it any more (`no_move_of_stopped`).
* `offer_of_closed`, `submit_of_closed`, `shutdown_of_closed`: what is left for callers of a closed
  pool.
-/

namespace RoomWatch

namespace Pool

variable {τ : Type} {p q : Pool τ}

/-- The dispatcher is done with the queue. -/
def Drained (p : Pool τ) : Prop := p.dispatcher = .draining ∨ p.dispatcher = .exited

/-- **How a pool is closed**: first to new tasks, then the queue, then the dispatcher. -/
structure Closing (p : Pool τ) : Prop where
  stopped : p.phase = .stopped → p.dispatcher = .exited
  closed : p.Drained → p.phase ≠ .accepting
  empty : p.Drained → p.queue = []
  exited : p.dispatcher = .exited → p.running = [] ∧ p.uncollected = []

theorem closing_start (bounds : PoolConfig) : (start bounds : Pool τ).Closing := by
  constructor <;> simp [start, Drained]

theorem closing_submit (h : p.Closing) (t : τ) : (p.submit t).1.Closing := by
  cases hr : p.refusal? with
  | some e =>
    rw [submit_of_refusal hr]
    exact ⟨h.stopped, h.closed, h.empty, h.exited⟩
  | none =>
    rw [submit_of_none hr]
    -- a pool that takes a task accepts, so the dispatcher is not done with the queue
    refine ⟨h.stopped, h.closed, ?_, h.exited⟩
    intro hd
    exact absurd (refusal?_eq_none_iff.1 hr).1 (h.closed hd)

theorem closing_shutdown (h : p.Closing) : p.shutdown.Closing := by
  unfold shutdown
  split
  · exact ⟨nofun, nofun, h.empty, h.exited⟩
  · exact h

theorem not_drained_take (p : Pool τ) (j : Job τ) (rest : List (Job τ)) :
    ¬(p.take j rest).Drained := by
  unfold take
  split <;> simp [Drained]

theorem drained_finish {ticket : Nat} {e : Ending} :
    (p.finish ticket e).Drained ↔ p.Drained := by
  cases hd : p.dispatcher <;> simp [Drained, finish, release, hd]

theorem exited_finish {ticket : Nat} {e : Ending} :
    (p.finish ticket e).dispatcher = .exited ↔ p.dispatcher = .exited := by
  cases hd : p.dispatcher <;> simp [finish, release, hd]

theorem closing_move (h : p.Closing) {m : Move} (hm : p.move? m = some q) : q.Closing := by
  cases moved_of_move? hm with
  | take j rest hd hq =>
    have hout := p.not_drained_take j rest
    refine ⟨?_, fun hc => absurd hc hout, fun hc => absurd hc hout, fun hc => absurd (.inr hc) hout⟩
    intro hs
    rw [phase_take] at hs
    have := h.stopped hs
    rw [hd] at this
    cases this
  | start j hd =>
    refine ⟨?_, ?_, ?_, nofun⟩
    · intro hs
      have := h.stopped hs
      rw [hd] at this
      cases this
    · rintro (hc | hc) <;> cases hc
    · rintro (hc | hc) <;> cases hc
  | finish j ending hj =>
    refine ⟨?_, ?_, ?_, ?_⟩
    · rw [phase_finish, exited_finish]
      exact h.stopped
    · rw [drained_finish, phase_finish]
      exact h.closed
    · rw [drained_finish, queue_finish]
      exact h.empty
    · -- nothing runs any more once the dispatcher has exited
      intro hc
      have := (h.exited (exited_finish.1 hc)).1
      rw [this] at hj
      cases hj
  | collect e rest hd hu =>
    refine ⟨h.stopped, h.closed, h.empty, ?_⟩
    intro hc
    have := (h.exited hc).2
    rw [hu] at this
    cases this
  | drain hd hq hp =>
    refine ⟨?_, fun _ => hp, fun _ => hq, nofun⟩
    intro hs
    have := h.stopped hs
    rw [hd] at this
    cases this
  | exit hd hr hu =>
    exact ⟨fun _ => rfl, fun _ => h.closed (.inl hd), fun _ => h.empty (.inl hd), fun _ => ⟨hr, hu⟩⟩
  | stop hd hp => exact ⟨fun _ => hd, nofun, h.empty, h.exited⟩

/-- **Nothing is left in a pool that has stopped.** -/
theorem nothing_left (h : p.Closing) (hs : p.phase = .stopped) :
    p.queue = [] ∧ p.held = [] ∧ p.running = [] ∧ p.uncollected = [] := by
  have hd := h.stopped hs
  have hheld : p.held = [] := by unfold held; rw [hd]
  exact ⟨h.empty (.inr hd), hheld, h.exited hd⟩

/-- Once a pool has stopped, every accepted task has ended, once. -/
theorem ended_of_stopped {l : Ledger τ} (h : p.Closing) (hb : p.Balanced l)
    (hs : p.phase = .stopped) : (l.ended.map Prod.fst).Perm l.jobs := by
  obtain ⟨hqueue, hheld, hrunning, -⟩ := nothing_left h hs
  have hsplit := hb.split
  rw [← hb.order, hheld, hqueue, List.append_nil, List.append_nil]
  rw [hrunning, List.nil_append] at hsplit
  exact hsplit.symm

/-- Only shutting down ends the time in which a pool accepts tasks. -/
theorem accepting_move (h : p.phase = .accepting) {m : Move} (hm : p.move? m = some q) :
    q.phase = .accepting := by
  cases moved_of_move? hm with
  | take j rest _ _ => rw [phase_take]; exact h
  | finish j ending _ => rw [phase_finish]; exact h
  | stop _ hp => rw [h] at hp; cases hp
  | _ => exact h

theorem accepting_submit (h : p.phase = .accepting) (t : τ) :
    (p.submit t).1.phase = .accepting := by
  rw [submit_eq]
  split <;> exact h

/-! ## Closed pools -/

theorem phase_submit (p : Pool τ) (t : τ) : (p.submit t).1.phase = p.phase := by
  rw [submit_eq]
  split <;> rfl

theorem offer_of_closed (h : p.phase ≠ .accepting) (lag : Nat) (t : τ) :
    p.offer lag t = (p, .error .closed) := by
  have hrefusal : p.refusal? = some .closed := by simp [refusal?, h]
  simp only [offer, hrefusal]

/-- A pool that has been closed counts a submit call and does nothing else with it. -/
theorem submit_of_closed (h : p.phase ≠ .accepting) (t : τ) :
    p.submit t =
      ({ p with stats := { p.stats with rejected := p.stats.rejected + 1 } }, .error .closed) := by
  refine submit_of_refusal ?_ t
  simp [refusal?, h]

/-- A pool is closed only once. -/
theorem shutdown_of_closed (h : p.phase ≠ .accepting) : p.shutdown = p := by
  unfold shutdown
  rw [if_neg h]

theorem not_accepting_shutdown (p : Pool τ) : p.shutdown.phase ≠ .accepting := by
  unfold shutdown
  split
  · nofun
  · assumption

theorem stopped_shutdown (p : Pool τ) : p.shutdown.phase = .stopped ↔ p.phase = .stopped := by
  unfold shutdown
  split
  · next h => simp [h]
  · rfl

/-- Only the return of a shutdown call makes a pool a stopped one. -/
theorem phase_move {m : Move} (hs : m ≠ .stop) (hm : p.move? m = some q) : q.phase = p.phase := by
  cases moved_of_move? hm with
  | take j rest _ _ => exact phase_take ..
  | finish j ending _ => exact phase_finish ..
  | stop _ _ => exact absurd rfl hs
  | _ => rfl

/-- **In a pool that has stopped nothing moves.** -/
theorem no_move_of_stopped (h : p.Closing) (hs : p.phase = .stopped) (m : Move) :
    p.move? m ≠ some q := by
  intro hm
  have hexited := h.stopped hs
  obtain ⟨hrunning, -⟩ := h.exited hexited
  cases moved_of_move? hm with
  | take j rest hd _ => rw [hexited] at hd; cases hd
  | start j hd => rw [hexited] at hd; cases hd
  | finish j ending hj => rw [hrunning] at hj; cases hj
  | collect e rest hd _ => rw [hexited] at hd; rcases hd with hd | hd <;> cases hd
  | drain hd _ _ => rw [hexited] at hd; cases hd
  | exit hd _ _ => rw [hexited] at hd; cases hd
  | stop _ hp => rw [hs] at hp; cases hp

end Pool

end RoomWatch
