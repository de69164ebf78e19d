import RoomWatch.Proofs.Pool.Shutdown

/-!
# Draining a pool

What shutdown calls achieve, however many there are and however they overlap.

* `recorded_run`: once a call has closed the queue, every task that is offered is refused.
* `exists_return`: the call that has taken the dispatcher's handle can always still return, because
  nothing but tasks holds it up.
* `Sound.drained`: when it returns, every accepted task has ended and every permit is free.
* `unmoved_run`: from then on, nothing happens but that submit calls are counted.
* `shutsDown_of_run`: **a pool that is shut down drains completely, and for good.**
* `not_drained_of_first`: this is not about the call that is made first, or begins first.
-/

namespace RoomWatch

variable {τ : Type}

namespace ShutdownRun

variable {a b : ShutdownRun τ} {e : ShutdownEvent τ} {es : List (ShutdownEvent τ)}

/-! ## After a call has closed the queue -/

theorem bounds_step (he : a.step? e = some b) : b.pool.bounds = a.pool.bounds := by
  cases stepped_of_step? he with
  | offer t => unfold Pool.offer; split <;> rfl
  | count _ answer _ => cases answer <;> rfl
  | begin _ _ => exact Pool.bounds_shutdown _
  | stop _ _ _ hq | move _ _ _ hq => exact Pool.bounds_move hq
  | _ => rfl

/-- A call that has closed the queue stays in the list. -/
theorem begun_step (h : a.Begun) (he : a.step? e = some b) : b.Begun := by
  have hset : ∀ {i c c'}, a.calls[i]? = some c → c' ≠ .made → ∃ d ∈ a.calls.set i c', d ≠ .made :=
    fun {i c c'} hi hc => ⟨c', List.mem_set (List.getElem?_eq_some_iff.1 hi).1 c', hc⟩
  obtain ⟨c, hc, hmade⟩ := h
  cases stepped_of_step? he with
  | call => exact ⟨c, List.mem_append_left _ hc, hmade⟩
  | begin _ hi | claim _ hi _ | further _ _ hi _ => exact hset hi nofun
  | stop _ _ _ _ =>
    refine ⟨c.wake, List.mem_map_of_mem hc, ?_⟩
    cases c with
    | made => exact absurd rfl hmade
    | begun | waiting | returned => nofun
  | offer _ | count _ _ _ | move _ _ _ _ => exact ⟨c, hc, hmade⟩

/-- A task that is offered after the queue has been closed is refused. -/
theorem recorded_step (h : a.Sound) (hc : a.Begun) (he : a.step? e = some b) :
    b.ledger.calls = a.ledger.calls ++ e.task?.toList.map (·, .error .closed) := by
  cases stepped_of_step? he with
  | offer t =>
    rw [Pool.offer_of_closed (h.closed hc)]
    rfl
  | move m q _ _ => exact (Ledger.calls_follow ..).trans (List.append_nil _).symm
  | count _ _ _ | call | begin _ _ | claim _ _ _ | further _ _ _ _ | stop _ _ _ _ =>
    exact (List.append_nil _).symm

/-- **After a shutdown call has closed the queue, every task that is offered is refused.** -/
theorem recorded_run (h : a.Sound) (hc : a.Begun) (hr : a.run? es = some b) :
    b.ledger.calls =
      a.ledger.calls ++ (es.filterMap ShutdownEvent.task?).map (·, .error .closed) := by
  induction es generalizing a with
  | nil => cases hr; exact (List.append_nil _).symm
  | cons e es ih =>
    obtain ⟨a₁, h₁, hr⟩ := Option.bind_eq_some_iff.1 hr
    rw [ih (sound_step h h₁) (begun_step hc h₁) hr, recorded_step h hc h₁,
      List.append_assoc, ← List.map_append, List.filterMap_cons]
    cases e.task? <;> rfl

/-- The call that takes the handle is the one that goes on first. -/
theorem taker?_run (hr : a.run? es = some b) :
    b.taker? = a.taker?.or (es.filterMap ShutdownEvent.proceeding?).head? := by
  induction es generalizing a with
  | nil => cases hr; exact (Option.or_none).symm
  | cons e es ih =>
    obtain ⟨a₁, h₁, hr⟩ := Option.bind_eq_some_iff.1 hr
    rw [ih hr]
    cases stepped_of_step? h₁ with
    | claim i _ htaker => rw [htaker]; rfl
    | further i k _ hk => rw [hk]; rfl
    | offer _ | count _ _ _ | call | begin _ _ | stop _ _ _ _ | move _ _ _ _ => rfl

/-- A call that goes on after another one has taken the handle returns at once. -/
theorem proceed_further {i k : Nat} (hi : a.calls[i]? = some .begun) (hk : a.taker? = some k) :
    a.step? (.proceed i) = some { a with calls := a.calls.set i .returned } := by
  simp only [step?, if_pos hi, hk]

/-- A call that is made after another one has taken the handle returns as soon as it runs. -/
theorem run_further (h : a.Sound) {k : Nat} (hk : a.taker? = some k) :
    a.run? [.call, .begin a.calls.length, .proceed a.calls.length] =
      some { a with calls := a.calls ++ [.returned] } := by
  have hlast : ∀ c : ShutdownCall, (a.calls ++ [c])[a.calls.length]? = some c := by simp
  have hset : ∀ c c' : ShutdownCall, (a.calls ++ [c]).set a.calls.length c' = a.calls ++ [c'] := by
    simp
  have hshut := Pool.shutdown_of_closed (h.closed (h.begun hk))
  have hcall : a.step? .call = some { a with calls := a.calls ++ [.made] } := rfl
  have hbegin : ({ a with calls := a.calls ++ [.made] } : ShutdownRun τ).step?
      (.begin a.calls.length) = some { a with calls := a.calls ++ [.begun] } := by
    simp only [step?, hlast, hset, hshut, if_true]
  rw [run?_cons, hcall, Option.bind_some, run?_cons, hbegin, Option.bind_some, run?_cons,
    proceed_further (a := { a with calls := a.calls ++ [.begun] }) (hlast .begun) hk,
    Option.bind_some, hset]
  rfl

/-! ## After the call that waits has returned -/

/-- The call that has taken the dispatcher's handle has returned. -/
def Ended (a : ShutdownRun τ) : Prop := ∃ i, a.taker? = some i ∧ a.calls[i]? = some .returned

theorem Sound.stopped (h : a.Sound) (hend : a.Ended) : a.pool.phase = .stopped := by
  obtain ⟨i, hi, hcall⟩ := hend
  have := h.claimed i hi
  rw [hcall] at this
  unfold takerCall at this
  split at this
  · assumption
  · cases this

theorem Sound.ended (h : a.Sound) (hs : a.pool.phase = .stopped) : a.Ended := by
  cases htaker : a.taker? with
  | none => exact absurd hs (h.unclaimed htaker).1
  | some i =>
    have := h.claimed i htaker
    rw [takerCall, if_pos hs] at this
    exact ⟨i, htaker, this⟩

/-- **Nothing is left of the accepted tasks but how they have ended.** -/
structure Drained (a : ShutdownRun τ) : Prop where
  queue : a.pool.queue = []
  held : a.pool.held = []
  running : a.pool.running = []
  uncollected : a.pool.uncollected = []
  /-- Every accepted task has ended, once. -/
  ended : (a.ledger.ended.map Prod.fst).Perm a.ledger.jobs
  /-- The accepted tasks, those included that have not been counted yet. -/
  counted : a.pool.stats.submitted + a.lag = a.pool.stats.completed + a.pool.stats.panicked
  inFlight : a.pool.inFlight = 0
  free : a.pool.free = a.pool.bounds.maxWorkers

theorem Sound.drained (h : a.Sound) (hend : a.Ended) : a.Drained := by
  have hs : a.counted.phase = .stopped := h.stopped hend
  obtain ⟨hqueue, hheld, hrunning, huncollected⟩ := Pool.nothing_left h.closing hs
  have hended := Pool.ended_of_stopped h.closing h.balanced hs
  have hgranted : a.counted.granted = 0 := by
    unfold Pool.granted
    rw [h.closing.stopped hs]
  have hinFlight := Pool.inFlight_eq h.permitted
  have htotal := h.permitted.total
  rw [hrunning, hgranted, List.length_nil] at hinFlight htotal
  refine ⟨hqueue, hheld, hrunning, huncollected, hended, ?_, hinFlight, htotal⟩
  -- the two kinds of endings are all endings, and these are as many as the accepted tasks
  have hkinds := (Observed.endedBy_perm a.ledger).length_eq
  have hpanicked := h.balanced.panicked
  rw [huncollected, List.count_nil] at hpanicked
  have hjobs := congrArg List.length a.ledger.tasks_jobs
  rw [List.length_map] at hjobs
  rw [List.length_append, hended.length_eq, hjobs, ← h.balanced.submitted,
    ← h.balanced.completed, ← hpanicked] at hkinds
  exact hkinds.symm

/-- **What is final**: two states differ only in submit calls that have been refused or counted, and
in further shutdown calls. -/
structure Unmoved (a b : ShutdownRun τ) : Prop where
  /-- The counter of accepted tasks can only catch up. -/
  submitted : b.pool.stats.submitted + b.lag = a.pool.stats.submitted + a.lag
  submitted_le : a.pool.stats.submitted ≤ b.pool.stats.submitted
  completed : b.pool.stats.completed = a.pool.stats.completed
  panicked : b.pool.stats.panicked = a.pool.stats.panicked
  started : b.ledger.started = a.ledger.started
  ended : b.ledger.ended = a.ledger.ended
  log : b.log = a.log

theorem Unmoved.refl (a : ShutdownRun τ) : Unmoved a a :=
  ⟨rfl, Nat.le_refl _, rfl, rfl, rfl, rfl, rfl⟩

theorem Unmoved.trans {c : ShutdownRun τ} (h : Unmoved a b) (h' : Unmoved b c) : Unmoved a c :=
  ⟨h'.submitted.trans h.submitted, Nat.le_trans h.submitted_le h'.submitted_le,
    h'.completed.trans h.completed, h'.panicked.trans h.panicked, h'.started.trans h.started,
    h'.ended.trans h.ended, h'.log.trans h.log⟩

theorem unmoved_step (h : a.Sound) (hend : a.Ended) (he : a.step? e = some b) :
    Unmoved a b ∧ b.Ended := by
  have hs := h.stopped hend
  have hclosed : a.pool.phase ≠ .accepting := by rw [hs]; nofun
  have hb := sound_step h he
  cases stepped_of_step? he with
  | offer t =>
    rw [Pool.offer_of_closed hclosed] at hb ⊢
    refine ⟨⟨?_, Nat.le_refl _, rfl, rfl, rfl, rfl, rfl⟩, hb.ended hs⟩
    simp [lag, Except.isOk, Except.toBool]
  | count k answer hk =>
    -- what the counter gains, the lag loses
    have hcounted := congrArg (fun p => p.stats.submitted) (counted_count hk)
    refine ⟨⟨hcounted, ?_, ?_, ?_, rfl, rfl, rfl⟩, hb.ended ?_⟩ <;>
      cases answer <;> simp [Pool.count, hs]
  | begin i hi =>
    rw [Pool.shutdown_of_closed hclosed] at hb ⊢
    exact ⟨⟨rfl, Nat.le_refl _, rfl, rfl, rfl, rfl, rfl⟩, hb.ended hs⟩
  | call | claim _ _ _ | further _ _ _ _ =>
    exact ⟨⟨rfl, Nat.le_refl _, rfl, rfl, rfl, rfl, rfl⟩, hb.ended hs⟩
  | stop _ q _ hq | move _ q _ hq =>
    -- nothing is left that could move
    have hcounted := Pool.move?_credit hq a.lag a.refusals
    exact absurd hcounted (Pool.no_move_of_stopped h.closing hs _)

/-- **Once the waiting call has returned, nothing happens any more but that submit calls are refused
and counted.** -/
theorem unmoved_run (h : a.Sound) (hend : a.Ended) (hr : a.run? es = some b) :
    Unmoved a b ∧ b.Ended := by
  induction es generalizing a with
  | nil => cases hr; exact ⟨.refl _, hend⟩
  | cons e es ih =>
    obtain ⟨a₁, h₁, hr⟩ := Option.bind_eq_some_iff.1 hr
    obtain ⟨hsame, hend₁⟩ := unmoved_step h hend h₁
    obtain ⟨hrest, hend⟩ := ih (sound_step h h₁) hend₁ hr
    exact ⟨hsame.trans hrest, hend⟩

/-! ## The way to the return of the waiting call -/

theorem step?_move {m : Move} (hm : m ≠ .stop) {q : Pool τ} (hq : a.pool.move? m = some q) :
    ∃ b, a.step? (.move m) = some b ∧ b.pool = q := by
  simp only [step?, hm, false_and, if_false, hq, Option.map_some]
  exact ⟨_, rfl, rfl⟩

/-- When the dispatcher has exited, the call that waits for it returns next. -/
theorem exists_stop (h : a.Sound) {i : Nat} (hi : a.taker? = some i)
    (hs : a.pool.phase ≠ .stopped) (hd : a.pool.dispatcher = .exited) :
    ∃ b, a.step? (.move .stop) = some b ∧ b.Ended := by
  have hphase : a.pool.phase = .stopping := by
    cases hp : a.pool.phase with
    | accepting => exact absurd hp (h.closed (h.begun hi))
    | stopping => rfl
    | stopped => exact absurd hp hs
  have hq : a.pool.move? .stop = some { a.pool with phase := .stopped } := by
    simp only [Pool.move?, hd, hphase]
  have hstop : (a.step? (.move .stop)).isSome := by
    simp [step?, hi, hq]
  obtain ⟨b, hb⟩ := Option.isSome_iff_exists.1 hstop
  refine ⟨b, hb, (sound_step h hb).ended ?_⟩
  cases stepped_of_step? hb with
  | stop _ q _ hq => cases Pool.moved_of_move? hq; rfl
  | move _ _ hm _ => exact absurd rfl hm

/-- **The call that has taken the handle can always still return.** From where a run has led, moves
alone lead to its return. -/
theorem exists_return (h : a.Sound) {i : Nat} (hi : a.taker? = some i)
    (hw : 0 < a.pool.bounds.maxWorkers) :
    ∃ (ms : List Move) (b : ShutdownRun τ), a.run? (ms.map .move) = some b ∧ b.Ended := by
  induction hn : a.pool.effort using Nat.strongRecOn generalizing a with
  | ind n ih =>
    subst hn
    by_cases hs : a.pool.phase = .stopped
    · exact ⟨[], a, rfl, h.ended hs⟩
    by_cases hd : a.pool.dispatcher = .exited
    · obtain ⟨b, hb, hend⟩ := exists_stop h hi hs hd
      refine ⟨[.stop], b, ?_, hend⟩
      rw [List.map_singleton, run?_cons, hb]
      rfl
    · have hpermitted : a.pool.Permitted := ⟨h.permitted.total, h.permitted.scarce⟩
      obtain ⟨m, hm, hq⟩ := Pool.exists_move hpermitted hw (h.closed (h.begun hi)) hd
      obtain ⟨q, hq⟩ := Option.isSome_iff_exists.1 hq
      obtain ⟨b, hb, rfl⟩ := step?_move hm hq
      have hcounted : a.counted.move? m = some (b.pool.credit a.lag a.refusals) :=
        Pool.move?_credit hq a.lag a.refusals
      -- what has been counted makes no difference to what is left to do
      have hless : (b.pool.credit a.lag a.refusals).effort < a.counted.effort :=
        Pool.effort_move h.balanced hcounted hm
      have htaker : b.taker? = some i := by
        cases stepped_of_step? hb with
        | stop _ _ _ _ | move _ _ _ _ => exact hi
      obtain ⟨ms, c, hc, hend⟩ := ih _ hless (sound_step h hb) htaker
        ((bounds_step hb).symm ▸ hw) rfl
      refine ⟨m :: ms, c, ?_, hend⟩
      rw [List.map_cons, run?_cons, hb]
      exact hc

/-! ## Shutting down -/

theorem bounds_run (hr : a.run? es = some b) : b.pool.bounds = a.pool.bounds :=
  run_induction (P := fun c => c.pool.bounds = a.pool.bounds)
    (fun hb he => (bounds_step he).trans hb) rfl hr

/-- **Shutting down a pool drains it completely, and for good**, as seen after the given events.
What drains it is the call that takes the dispatcher's handle. -/
structure ShutsDown (bounds : PoolConfig) (es : List (ShutdownEvent τ)) (a : ShutdownRun τ) :
    Prop where
  /-- The handle goes to the call that is the first to go on. -/
  taker : a.taker? = (es.filterMap ShutdownEvent.proceeding?).head?
  /-- Once any call has closed the queue, every task that is offered is refused. -/
  refused : a.Begun → ∀ fs b, a.run? fs = some b →
    b.ledger.calls = a.ledger.calls ++ (fs.filterMap ShutdownEvent.task?).map (·, .error .closed)
  /-- The call with the handle can always still return, after moves of the pool alone. -/
  returns : a.taker? ≠ none → ∃ (ms : List Move) (b : ShutdownRun τ),
    a.run? (ms.map .move) = some b ∧ b.Ended
  /-- When it returns, everything has ended. -/
  drained : a.Ended → a.Drained
  /-- After that only submit calls are still counted. -/
  final : a.Ended → ∀ fs b, a.run? fs = some b → Unmoved a b ∧ b.Ended
  /-- Its return logs the counters as they are then. -/
  stops : ∀ b, a.step? (.move .stop) = some b →
    b.Ended ∧ b.log = a.log ++ [.poolStopped a.pool.stats] ∧ b.pool.stats = a.pool.stats
  /-- There is no other line. It may be that submit calls are counted after it. -/
  logged : a.Ended → ∃ submitted ≤ a.pool.stats.submitted, ∃ rejected ≤ a.pool.stats.rejected,
    a.log = Pool.startLog bounds ++
      [.poolStopped ⟨submitted, rejected, a.pool.stats.completed, a.pool.stats.panicked⟩]
  unlogged : ¬a.Ended → a.log = Pool.startLog bounds
  /-- A call that has begun and has not been the first to go on returns as soon as it goes on; this
  changes nothing else. -/
  overtaken : a.taker? ≠ none → ∀ i, a.calls[i]? = some .begun →
    a.step? (.proceed i) = some { a with calls := a.calls.set i .returned }
  /-- A call that is made later returns at once as well. -/
  further : a.taker? ≠ none →
    a.run? [.call, .begin a.calls.length, .proceed a.calls.length] =
      some { a with calls := a.calls ++ [.returned] }
  /-- No call but the one with the handle ever waits. -/
  alone : ∀ i, a.calls[i]? = some .waiting → a.taker? = some i

theorem shutsDown_of_run {c : PoolConfig} {es : List (ShutdownEvent τ)} {a : ShutdownRun τ}
    (h : (start c.normalized).run? es = some a) : a.ShutsDown c.normalized es := by
  have hsound := sound_run (sound_start _) h
  have hbounds : a.pool.bounds = c.normalized := bounds_run h
  have hworkers : 0 < a.pool.bounds.maxWorkers := by
    rw [hbounds]
    exact Nat.le_max_left 1 c.maxWorkers
  have hlogged := hsound.logged
  rw [Logged, hbounds] at hlogged
  refine ⟨taker?_run h, ?_, ?_, hsound.drained, ?_, ?_, ?_, ?_, ?_, ?_, hsound.alone⟩
  · exact fun hc fs b hr => recorded_run hsound hc hr
  · intro htaker
    obtain ⟨i, hi⟩ := Option.ne_none_iff_exists'.1 htaker
    exact exists_return hsound hi hworkers
  · exact fun hend fs b hr => unmoved_run hsound hend hr
  · intro b hb
    have hsound' := sound_step hsound hb
    cases stepped_of_step? hb with
    | stop i q hi hq =>
      cases Pool.moved_of_move? hq
      exact ⟨hsound'.ended rfl, rfl, rfl⟩
    | move _ _ hm _ => exact absurd rfl hm
  · intro hend
    rw [if_pos (hsound.stopped hend)] at hlogged
    exact hlogged
  · intro hend
    rw [if_neg fun hs => hend (hsound.ended hs)] at hlogged
    exact hlogged
  · intro htaker i hi
    obtain ⟨k, hk⟩ := Option.ne_none_iff_exists'.1 htaker
    exact proceed_further hi hk
  · intro htaker
    obtain ⟨k, hk⟩ := Option.ne_none_iff_exists'.1 htaker
    exact run_further hsound hk

/-- Two calls overlap while one task runs and another one is held. The second one takes the handle.
A running task submits in vain, and a third call is made and returns while the second one still
waits. One accepted task is counted only after that one has returned. -/
def overlap : List (ShutdownEvent Nat) :=
  [.offer 10, .move .take, .move .start, .offer 11, .count 1, .move .take, .call, .begin 0, .call,
    .begin 1, .offer 12, .proceed 1, .proceed 0, .move (.finish 0 .panicked), .move .start, .call,
    .begin 2, .proceed 2, .move .collect, .move (.finish 1 .completed), .move .drain,
    .move .collect, .move .exit, .move .stop, .count 0, .offer 13, .count 1]

theorem shutsDown_of_overlap :
    ∃ a : ShutdownRun Nat, (start (PoolConfig.normalized ⟨0, 0⟩)).run? overlap = some a ∧
      a.ShutsDown ⟨1, 1⟩ overlap ∧ a.Ended ∧ a.calls = [.returned, .returned, .returned] ∧
      a.log = [.poolStarted 1 1, .poolStopped ⟨1, 0, 1, 1⟩] ∧ a.pool.stats = ⟨2, 1, 1, 1⟩ := by
  refine ⟨_, rfl, ?_, ⟨1, rfl, rfl⟩, rfl, rfl, rfl⟩
  exact @shutsDown_of_run Nat ⟨0, 0⟩ overlap _ rfl

/-- **The call that is made first, or begins first, need not be the one that drains the pool.** A
call that has only been made closes nothing. Of two calls that overlap the one that has begun first
may return while a task is in the queue. And at the return of a call that has been alone the counter
of accepted tasks may still lag behind, and change later. With more workers than a semaphore has
permits there is no pool at all. -/
theorem not_drained_of_first :
    PoolConfig.checked ⟨maxPermits + 1, 4⟩ = .error .permits ∧
    (∃ a : ShutdownRun Nat, (start ⟨1, 1⟩).run? [.call, .offer 10] = some a ∧
      a.calls = [.made] ∧ a.ledger.calls = [(10, .ok ())]) ∧
    (∃ a : ShutdownRun Nat, (start ⟨1, 1⟩).run?
        [.offer 10, .count 0, .call, .begin 0, .call, .begin 1, .proceed 1, .proceed 0] = some a ∧
      a.calls = [.returned, .waiting] ∧ a.pool.queue.map Job.task = [10]) ∧
    ∃ a b : ShutdownRun Nat, (start ⟨1, 1⟩).run?
        [.offer 10, .call, .begin 0, .proceed 0, .move .take, .move .start,
          .move (.finish 0 .completed), .move .collect, .move .drain, .move .exit,
          .move .stop] = some a ∧
      a.calls = [.returned] ∧ a.pool.stats = ⟨0, 0, 1, 0⟩ ∧
      a.step? (.count 0) = some b ∧ b.pool.stats = ⟨1, 0, 1, 0⟩ := by
  exact ⟨by decide, ⟨_, rfl, rfl, rfl⟩, ⟨_, rfl, rfl, rfl⟩, _, _, rfl, rfl, rfl, rfl, rfl⟩

end ShutdownRun

end RoomWatch
