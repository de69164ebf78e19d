import RoomWatch.Pool.Task
import RoomWatch.Proofs.Pool.Saturation

/-!
# Backpressure

The schedule of turns settles a pool as any other scheduling does, so that waiting tasks fill it to
the same bound. With that, backpressure is exact.

* `stuck_turns`: tasks at a gate that is shut leave their pool as it is.
* `settles_settle`: the dispatcher's turn settles its pool.
* `fed_feed`: **feeding a schedule is one way to feed its pool.**
* `metered_of_run`: **a submit call is refused only by a closed pool or a full queue, and a refusal
  changes nothing else; how much a pool takes is exact.**
-/

namespace RoomWatch

variable {τ : Type}

namespace Schedule

open Observed

variable {s : Schedule PlainTask TaskWorld} {p : Pool PlainTask} {o : Observed PlainTask}
  {bounds : PoolConfig}

/-- Submits a task to the first pool, and gives turns until nobody is in line. -/
def feed {ω : Type} (c : Conduct τ ω) (s : Schedule τ ω) (t : τ) : Schedule τ ω :=
  ((s.submit? 0 t).map fun x => x.1.settle c).getD s

/-- A gate that lets nobody pass. -/
def Shut (w : TaskWorld) : Prop := w.gate.units = 0 ∧ w.gate.admitted = []

/-- There is one pool, and only its tasks are in line; a gate that is shut makes them wait. -/
structure Stuck (p : Pool PlainTask) (s : Schedule PlainTask TaskWorld) : Prop where
  pools : s.pools = [p]
  shut : Shut s.world
  gated : ∀ j ∈ p.running, j.task.gated = true
  tasks : ∀ t ∈ s.ready, ∃ spot, t = .task spot

theorem enter_of_shut {g : Gate Spot} (hunits : g.units = 0) (hadmitted : g.admitted = [])
    (spot : Spot) : ∃ waiting, g.enter spot = ({ g with waiting }, false) := by
  unfold Gate.enter
  rw [if_neg (by rw [hadmitted]; exact List.not_mem_nil)]
  by_cases hw : spot ∈ g.waiting
  · exact ⟨g.waiting, if_pos hw⟩
  · refine ⟨g.waiting ++ [spot], ?_⟩
    rw [if_neg hw, if_neg (by omega)]

/-- A task at a gate that is shut goes on waiting. -/
theorem turn_of_shut {w : TaskWorld} (h : Shut w) (spot : Spot) {t : PlainTask}
    (ht : t.gated = true) :
    ∃ w', Shut w' ∧ PlainTask.conduct.turn w spot t = ⟨w', none, [], []⟩ := by
  obtain ⟨hunits, hadmitted⟩ := h
  obtain ⟨waiting, henter⟩ := enter_of_shut hunits hadmitted spot
  by_cases hpresent : w.gate.IsPresent spot
  · refine ⟨{ w with gate := { w.gate with waiting } }, ⟨hunits, hadmitted⟩, ?_⟩
    simp only [PlainTask.conduct, PlainTask.turn, hpresent, ht, if_true, henter]
    rfl
  · refine ⟨{ w with
        started := w.started ++ t.number.toList
        gate := { w.gate with waiting } }, ⟨hunits, hadmitted⟩, ?_⟩
    simp only [PlainTask.conduct, PlainTask.turn, hpresent, ht, if_true, if_false, henter]
    rfl

/-- The turn of a task that waits leaves the pool as it is. -/
theorem stuck_turn (h : s.Stuck p) (spot : Spot) :
    (s.runTurn PlainTask.conduct (.task spot)).Stuck p ∧
      (s.runTurn PlainTask.conduct (.task spot)).ready = s.ready := by
  simp only [runTurn]
  split
  · next j hj =>
    obtain ⟨p', hp', hj⟩ := Option.bind_eq_some_iff.1 hj
    rw [h.pools] at hp'
    have hp : p' = p := List.mem_singleton.1 (List.mem_of_getElem? hp')
    subst hp
    have hgated := h.gated j (List.mem_of_find?_eq_some hj)
    obtain ⟨w', hshut, hturn⟩ := turn_of_shut h.shut ⟨spot.pool, j.ticket⟩ hgated
    have hrun : s.runTask PlainTask.conduct spot.pool j = { s with world := w' } := by
      simp only [runTask, hturn, runSubmits, wake, List.foldl_nil, Option.bind_none]
    rw [hrun]
    exact ⟨⟨h.pools, hshut, h.gated, h.tasks⟩, rfl⟩
  · exact ⟨h, rfl⟩

/-- So nothing happens but that all of them get their turns. -/
theorem stuck_turns (h : s.Stuck p) {n : Nat} (hn : s.ready.length ≤ n) :
    (runTurns PlainTask.conduct n s).Stuck p ∧ (runTurns PlainTask.conduct n s).ready = [] := by
  induction n generalizing s with
  | zero => exact ⟨h, List.eq_nil_of_length_eq_zero (Nat.le_zero.1 hn)⟩
  | succ n ih =>
    unfold runTurns
    split
    · next hready => exact ⟨h, hready⟩
    · next t rest hready =>
      have htasks := h.tasks
      rw [hready] at htasks hn
      obtain ⟨spot, rfl⟩ := htasks t List.mem_cons_self
      have hrest : Stuck p { s with ready := rest } :=
        ⟨h.pools, h.shut, h.gated, fun t ht => htasks t (List.mem_cons_of_mem _ ht)⟩
      obtain ⟨hstuck, hready'⟩ := stuck_turn hrest spot
      refine ih hstuck ?_
      rw [hready']
      exact Nat.le_of_succ_le_succ hn

theorem pools_call {τ ω : Type} (s : Schedule τ ω) (t : Turn) : (s.call t).pools = s.pools := by
  unfold call
  split <;> rfl

theorem pools_wake {τ ω : Type} (s : Schedule τ ω) (spots : List Spot) :
    (s.wake spots).pools = s.pools := by
  unfold wake
  induction spots generalizing s with
  | nil => rfl
  | cons spot spots ih => exact (ih (s.call _)).trans (s.pools_call _)

/-- Tasks join the line, each at most once. -/
theorem ready_wake (s : Schedule PlainTask TaskWorld) (spots : List Spot) :
    (∀ t ∈ (s.wake spots).ready, t ∈ s.ready ∨ ∃ spot, t = .task spot) ∧
      (s.wake spots).ready.length ≤ s.ready.length + spots.length ∧
      (s.wake spots).world = s.world := by
  unfold wake
  induction spots generalizing s with
  | nil => exact ⟨fun t ht => .inl ht, Nat.le_refl _, rfl⟩
  | cons spot spots ih =>
    obtain ⟨hmem, hlength, hworld⟩ := ih (s.call (.task spot))
    rw [List.foldl_cons, List.length_cons]
    by_cases hin : Turn.task spot ∈ s.ready
    · have hcall : s.call (.task spot) = s := if_pos hin
      rw [hcall] at hmem hlength hworld ⊢
      exact ⟨hmem, by omega, hworld⟩
    · have hcall : s.call (.task spot) = { s with ready := s.ready ++ [.task spot] } := if_neg hin
      rw [hcall] at hmem hlength hworld ⊢
      rw [List.length_append, List.length_singleton] at hlength
      refine ⟨fun t ht => ?_, by omega, hworld⟩
      rcases hmem t ht with hold | hnew
      · rcases List.mem_append.1 hold with hold | hlast
        · exact .inl hold
        · exact .inr ⟨spot, List.mem_singleton.1 hlast⟩
      · exact .inr hnew

/-- A dispatcher's turn, if it comes to rest in it. -/
theorem runDispatcher_eq (s : Schedule PlainTask TaskWorld) (hpools : s.pools = [p])
    {q : Pool PlainTask} (hq : p.advance turnLength = q) (hrest : q.AtRest) :
    ∃ spots, spots.length ≤ q.running.length ∧
      s.runDispatcher 0 p = { s.wake spots with pools := [q] } := by
  refine ⟨(q.running.drop p.running.length).map fun j => ⟨0, j.ticket⟩, ?_, ?_⟩
  · rw [List.length_map, List.length_drop]
    omega
  · have hnext := Pool.nextMove?_of_atRest hrest
    have hstop : q.move? .stop = none := by
      by_contra hsome
      obtain ⟨q', hq'⟩ := Option.ne_none_iff_exists'.1 hsome
      obtain ⟨_, _, hm⟩ := hrest _ _ hq'
      cases hm
    simp only [runDispatcher, hq, hstop, setPool, hnext, pools_wake, hpools, List.set_cons_zero,
      Option.isSome_none, Bool.false_eq_true, if_false]

/-- **The dispatcher's turn settles the pool, and the tasks that it starts come to wait.** -/
theorem settles_settle (h : o.Unending bounds) (hpools : s.pools = [o.pool]) (hshut : Shut s.world)
    (hgated : ∀ j ∈ o.pool.unfinished, j.task.gated = true) (hready : s.ready = [.dispatcher 0])
    (hload : o.pool.load ≤ turnLength) :
    ∃ o', Settles o o' ∧ (s.settle PlainTask.conduct).Stuck o'.pool ∧
      (s.settle PlainTask.conduct).ready = [] := by
  obtain ⟨l, hs⟩ := settles_advance h hload
  refine ⟨_, hs, ?_⟩
  obtain ⟨-, hrest, -⟩ := unending_settles h hs
  have hperm := unfinished_settles hs
  obtain ⟨spots, hspots, hrun⟩ :=
    runDispatcher_eq { s with ready := [] } hpools (rfl : o.pool.advance turnLength = _) hrest
  obtain ⟨hmem, hlength, hworld⟩ := ready_wake { s with ready := [] } spots
  -- the tasks that run now were all unfinished before
  have hstuck : Stuck (o.pool.advance turnLength)
      { wake { s with ready := [] } spots with pools := [o.pool.advance turnLength] } := by
    refine ⟨rfl, ?_, fun j hj => ?_, fun t ht => ?_⟩
    · show Shut (wake { s with ready := [] } spots).world
      rw [hworld]
      exact hshut
    · exact hgated j (hperm.mem_iff.1 (Pool.mem_unfinished_of_running hj))
    · exact (hmem t ht).resolve_left List.not_mem_nil
  have hturns : s.effort = 8 * (1 + o.pool.load + o.pool.running.length + 2) := by
    simp only [effort, hpools, hready, List.foldl_cons, List.foldl_nil, List.length_singleton]
  obtain ⟨n, hn⟩ : ∃ n, s.effort = n + 1 := ⟨s.effort - 1, by omega⟩
  have hhead : s.pools[0]? = some o.pool := by rw [hpools]; rfl
  have hfirst : s.settle PlainTask.conduct = runTurns PlainTask.conduct n
      { wake { s with ready := [] } spots with pools := [o.pool.advance turnLength] } := by
    rw [settle, hn, runTurns, hready]
    simp only [runTurn, hhead, Option.elim_some, hrun]
  rw [hfirst]
  refine stuck_turns hstuck ?_
  have hunfinished := Pool.length_unfinished_le o.pool
  have hmore := hperm.length_eq
  have hrunning : (o.pool.advance turnLength).running.length ≤
      (o.pool.advance turnLength).unfinished.length := by
    rw [Pool.unfinished, List.length_append]
    omega
  show (wake { s with ready := [] } spots).ready.length ≤ n
  have hnone : ({ s with ready := [] } : Schedule PlainTask TaskWorld).ready.length = 0 := rfl
  dsimp only at hmore
  omega

/-- A schedule between two submit calls. Only at the very beginning the dispatcher is in line. -/
structure Settled (o : Observed PlainTask) (s : Schedule PlainTask TaskWorld) : Prop where
  pools : s.pools = [o.pool]
  shut : Shut s.world
  line : s.ready = [] ∨ s.ready = [.dispatcher 0] ∧ o.pool.dispatcher = .idle

/-- Who is in line after a submit call. -/
theorem line_submit (hs : s.Settled o) (h : o.Unending bounds) (hrest : o.pool.AtRest)
    (t : PlainTask) :
    let s₁ := s.setPool 0 (o.pool.submit t).1
    s₁.pools = [(o.pool.submit t).1] ∧ s₁.world = s.world ∧
      (s₁.ready = [] ∧ (o.pool.submit t).1.nextMove? = none ∨
        s₁.ready = [.dispatcher 0] ∧ o.pool.dispatcher = .idle) := by
  intro s₁
  have hset : s.pools.set 0 (o.pool.submit t).1 = [(o.pool.submit t).1] := by
    rw [hs.pools]
    rfl
  cases hm : (o.pool.submit t).1.nextMove? with
  | none =>
    have heq : s₁ = { s with pools := [(o.pool.submit t).1] } := by
      simp only [s₁, setPool, hm, hset, Option.isSome_none, Bool.false_eq_true, if_false]
    rw [heq]
    refine ⟨rfl, rfl, ?_⟩
    rcases hs.line with hready | ⟨hready, hidle⟩
    · exact .inl ⟨hready, rfl⟩
    · exact .inr ⟨hready, hidle⟩
  | some m =>
    have hidle := Pool.idle_of_next hm hrest h.accepting h.closing
    have heq : s₁ = call { s with pools := [(o.pool.submit t).1] } (.dispatcher 0) := by
      simp only [s₁, setPool, hm, hset, Option.isSome_some, if_true]
    rw [heq]
    unfold call
    rcases hs.line with hready | ⟨hready, -⟩
    · simp [hready, hidle]
    · simp [hready, hidle]

/-- **Feeding a schedule is one way to feed its pool.** -/
theorem fed_feed {ts : List PlainTask} (hcap : 0 < bounds.queueCapacity) (hfed : Fed bounds ts o)
    (hts : ∀ t ∈ ts, t.gated = true) (hs : s.Settled o) {t : PlainTask} (ht : t.gated = true) :
    ∃ o', Fed bounds (ts ++ [t]) o' ∧ (s.feed PlainTask.conduct t).Settled o' := by
  obtain ⟨hunending, hrest, haccepted⟩ := accepted_of_fed hcap hfed
  obtain ⟨o₁, he⟩ : ∃ o₁, o.step? (.submit t) = some o₁ := ⟨_, rfl⟩
  have hunending₁ := unending_submit hunending t he
  have hgated : ∀ j ∈ o₁.pool.unfinished, j.task.gated = true := by
    intro j hj
    have hmem := mem_accepted_of_unfinished hunending₁.balanced hj
    rw [accepted_submit t he, haccepted] at hmem
    have hold : ∀ x ∈ ts.take (bounds.maxWorkers + bounds.queueCapacity + 1), x.gated = true :=
      fun x hx => hts x (List.mem_of_mem_take hx)
    split at hmem
    · rcases List.mem_append.1 hmem with hmem | hmem
      · exact hold _ hmem
      · rw [List.mem_singleton.1 hmem]
        exact ht
    · exact hold _ hmem
  have hpool : o₁.pool = (o.pool.submit t).1 := by cases he; rfl
  obtain ⟨hpools, hworld, hline⟩ := line_submit hs hunending hrest t
  have hhead : s.pools[0]? = some o.pool := by rw [hs.pools]; rfl
  have hfeed : s.feed PlainTask.conduct t =
      (s.setPool 0 (o.pool.submit t).1).settle PlainTask.conduct := by
    simp only [feed, submit?, hhead, Option.map_some, Option.getD_some]
  rw [hfeed]
  rw [← hpool] at hpools hworld hline ⊢
  have hshut : Shut (s.setPool 0 o₁.pool).world := hworld ▸ hs.shut
  rcases hline with ⟨hready, hnext⟩ | ⟨hready, hidle⟩
  · -- nobody gets a turn
    have hsettle : (s.setPool 0 o₁.pool).settle PlainTask.conduct = s.setPool 0 o₁.pool := by
      rw [settle]
      cases (s.setPool 0 o₁.pool).effort with
      | zero => rfl
      | succ n => rw [runTurns, hready]
    rw [hsettle]
    have hrest₁ := Pool.atRest_of_nextMove? hnext hunending₁.accepting hunending₁.closing
    exact ⟨o₁, .submit t hfed he (.rest hrest₁), hpools, hshut, .inl hready⟩
  · have hload : o₁.pool.load ≤ turnLength := by
      have hmore := Pool.load_submit o.pool t
      rw [Pool.load_of_idle hrest hidle, ← hpool] at hmore
      exact Nat.le_trans hmore (by decide)
    obtain ⟨o', hsettles, hstuck, hempty⟩ :=
      settles_settle hunending₁ hpools hshut hgated hready hload
    exact ⟨o', .submit t hfed he hsettles, hstuck.pools, hstuck.shut, .inl hempty⟩

/-- Whatever waiting tasks a schedule is fed, and however many. -/
theorem fed_foldl_feed (hcap : 0 < bounds.queueCapacity) (ts : List PlainTask)
    (hts : ∀ t ∈ ts, t.gated = true) :
    ∃ o, Fed bounds ts o ∧
      (ts.foldl (feed PlainTask.conduct) (start [bounds] {})).Settled o := by
  induction ts using List.reverseRecOn with
  | nil => exact ⟨_, .start, rfl, ⟨rfl, rfl⟩, .inr ⟨rfl, rfl⟩⟩
  | append_singleton ts t ih =>
    have hold : ∀ x ∈ ts, x.gated = true := fun x hx => hts x (List.mem_append_left _ hx)
    obtain ⟨o, hfed, hs⟩ := ih hold
    rw [List.foldl_append]
    exact fed_feed hcap hfed hold hs (hts t (List.mem_append_right _ List.mem_cons_self))

end Schedule

namespace Observed

variable {es : List (PoolEvent τ)} {o : Observed τ}

/-- **What a submit call is told**, after the given events, and what it changes. -/
structure Metered (bounds : PoolConfig) (es : List (PoolEvent τ)) (o : Observed τ) : Prop where
  /-- A pool that has been shut down refuses every task. -/
  closed : .shutdown ∈ es → ∀ t, o.pool.submit t = (o.pool.reject, .error .closed)
  full : .shutdown ∉ es → o.pool.queue.length = bounds.queueCapacity →
    ∀ t, o.pool.submit t = (o.pool.reject, .error .queueFull)
  taken : .shutdown ∉ es → o.pool.queue.length ≠ bounds.queueCapacity →
    ∀ t, o.pool.submit t = (o.pool.enqueue t, .ok ())
  /-- Every submit call is counted once, whoever has made it. -/
  counted : o.pool.stats.submitted + o.pool.stats.rejected = (es.filterMap PoolEvent.task?).length
  queue_le : o.pool.queue.length ≤ bounds.queueCapacity
  unstarted : o.ledger.accepted.length ≤ o.ledger.started.length + (bounds.queueCapacity + 1)
  unfinished : o.ledger.accepted.length ≤
    o.ledger.ended.length + (bounds.maxWorkers + bounds.queueCapacity + 1)

/-- **How much a fresh pool takes** of tasks that never end. -/
structure Fills (τ : Type) (bounds : PoolConfig) : Prop where
  /-- If the pool settles after each, it takes the first ones up to the bound, in whatever order it
  makes its moves. -/
  settled : ∀ (ts : List τ) (o : Observed τ), Fed bounds ts o →
    o.ledger.accepted = ts.take (bounds.maxWorkers + bounds.queueCapacity + 1) ∧
      o.pool.stats.submitted = min ts.length (bounds.maxWorkers + bounds.queueCapacity + 1)
  /-- A pool does settle after each of them. -/
  settles : ∀ ts : List τ, ∃ o, Fed bounds ts o
  /-- So it is in particular if the schedule gives turns until nobody is in line. -/
  scheduled : ∀ ts : List PlainTask, (∀ t ∈ ts, t.gated = true) →
    ∃ p, (ts.foldl (Schedule.feed PlainTask.conduct) (.start [bounds] {})).pools = [p] ∧
      p.stats.submitted = min ts.length (bounds.maxWorkers + bounds.queueCapacity + 1)
  /-- If the pool does not run in between, it takes the first ones up to its queue's capacity. -/
  unsettled : ∀ ts : List τ, ∃ o, (start bounds).run? (ts.map .submit) = some o ∧
    o.ledger.accepted = ts.take bounds.queueCapacity ∧
      o.pool.stats.submitted = min ts.length bounds.queueCapacity

theorem fills_of_capacity {bounds : PoolConfig} (hcap : 0 < bounds.queueCapacity) :
    Fills τ bounds := by
  refine ⟨fun ts o hfed => ?_, exists_fed hcap, fun ts hts => ?_, fun ts => ?_⟩
  · obtain ⟨hunending, -, haccepted⟩ := accepted_of_fed hcap hfed
    refine ⟨haccepted, ?_⟩
    rw [hunending.balanced.submitted, haccepted, List.length_take, Nat.min_comm]
  · obtain ⟨o, hfed, hs⟩ := Schedule.fed_foldl_feed hcap ts hts
    obtain ⟨hunending, -, haccepted⟩ := accepted_of_fed hcap hfed
    refine ⟨o.pool, hs.pools, ?_⟩
    rw [hunending.balanced.submitted, haccepted, List.length_take, Nat.min_comm]
  · obtain ⟨o, hr, hunending, -, -, haccepted⟩ := accepted_of_submits bounds ts
    refine ⟨o, hr, haccepted, ?_⟩
    rw [hunending.balanced.submitted, haccepted, List.length_take, Nat.min_comm]

/-- **Backpressure is exact.** In every run, a task is refused if the pool has been shut down or its
queue is full, and never otherwise; and what a fresh pool takes of tasks that never end is as much
as the workers, the dispatcher and the queue hold. -/
theorem metered_of_run {c : PoolConfig} (h : (start c.normalized).run? es = some o) :
    o.Metered c.normalized es ∧ Fills τ c.normalized := by
  have hcap : 0 < c.normalized.queueCapacity := Nat.le_max_left 1 c.queueCapacity
  have hb := balanced_run (Pool.balanced_start _) h
  obtain ⟨hp, hbounds⟩ := permitted_run (Pool.balanced_start _) (Pool.permitted_start _) h
  have hphase := phase_run h
  have hqueue := queue_le_run (Nat.zero_le _) h
  have hplaces := length_accepted hb
  have hstarted := length_started hb
  have hheld := o.pool.held_length_le
  have htotal := hp.total
  rw [hbounds] at hqueue htotal
  have hopen : .shutdown ∉ es → o.pool.phase = .accepting := fun hes => hphase.2 ⟨rfl, hes⟩
  refine ⟨⟨?_, ?_, ?_, ?_, hqueue, ?_, ?_⟩, fills_of_capacity hcap⟩
  · intro hes t
    refine Pool.submit_of_closed ?_ t
    intro ha
    exact (hphase.1 ha).2 hes
  · intro hes hfull t
    exact Pool.submit_of_full (hopen hes) (hfull.trans (congrArg _ hbounds.symm)) t
  · intro hes hroom t
    rw [← show o.pool.bounds = c.normalized from hbounds] at hqueue hroom
    exact Pool.submit_of_room (hopen hes) hqueue hroom t
  · have hcalls := congrArg List.length (calls_run h)
    rw [List.length_map, List.length_append] at hcalls
    rw [counted_calls hb, hcalls]
    exact Nat.zero_add _
  · show o.ledger.accepted.length ≤ _
    change o.pool.queue.length ≤ c.normalized.queueCapacity at hqueue
    omega
  · change o.pool.queue.length ≤ c.normalized.queueCapacity at hqueue
    change _ = c.normalized.maxWorkers at htotal
    omega

/-- With one worker and one place in the queue, three tasks fill the pool: one runs, one is held and
one is in the queue. The fourth one is refused because of that, and a later one because the pool has
been shut down. -/
def brim : List (PoolEvent Nat) :=
  [.submit 10, .move .take, .move .start, .submit 11, .move .take, .submit 12, .submit 13]

theorem metered_of_brim :
    (∃ o : Observed Nat, (start (PoolConfig.normalized ⟨0, 0⟩)).run? brim = some o ∧
      (o.Metered ⟨1, 1⟩ brim ∧ Fills Nat ⟨1, 1⟩) ∧ o.pool.queue.length = 1 ∧
      o.pool.stats = ⟨3, 1, 0, 0⟩) ∧
    ∃ o : Observed Nat,
      (start (PoolConfig.normalized ⟨0, 0⟩)).run? (brim ++ [.shutdown, .submit 14]) = some o ∧
      (o.Metered ⟨1, 1⟩ (brim ++ [.shutdown, .submit 14]) ∧ Fills Nat ⟨1, 1⟩) ∧
      o.pool.stats = ⟨3, 2, 0, 0⟩ := by
  refine ⟨⟨_, rfl, ?_, rfl, rfl⟩, ⟨_, rfl, ?_, rfl⟩⟩
  · exact @metered_of_run Nat brim _ ⟨0, 0⟩ rfl
  · exact @metered_of_run Nat (brim ++ [.shutdown, .submit 14]) _ ⟨0, 0⟩ rfl

end Observed

end RoomWatch
