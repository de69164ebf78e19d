import Mathlib.Algebra.Order.BigOperators.Group.List
import Mathlib.Algebra.Order.Group.Nat
import RoomWatch.Proofs.Pool.Bound
import RoomWatch.Proofs.Pool.Script

/-!
# A pool does not stall

* `work_step`: **every inner step uses up work**, also when a task submits another one, so that a
  pool comes to rest under every scheduling (`length_le_work`, `exists_settled`).
* `isSome_step?_task`: nothing holds up a running task but the gate.
* `waits_of_settled`, `holding_of_atRest`: what stands still in a settled state, and why.
* `neverStalls_of_run`: **a pool does not stall with work to do.**
-/

namespace RoomWatch

/-! ## Pools at rest -/

namespace Pool

variable {τ : Type} {p : Pool τ}

/-- In a pool at rest an accepted task is held up only by the want of a permit. -/
theorem holding_of_atRest (hc : p.Closing) (h : p.AtRest) {j : Job τ}
    (hj : j ∈ p.held ++ p.queue) : ∃ i, p.dispatcher = .holding i := by
  cases hd : p.dispatcher with
  | idle =>
    rw [held_of_idle hd, List.nil_append] at hj
    obtain ⟨i, rest, hq⟩ := List.exists_cons_of_ne_nil (List.ne_nil_of_mem hj)
    have htake : p.move? .take = some (p.take i rest) := by simp only [move?, hd, hq]
    obtain ⟨_, _, hm⟩ := h _ _ htake
    cases hm
  | holding i => exact ⟨i, rfl⟩
  | granted i =>
    have hgranted := granted_of_atRest h
    rw [granted, hd] at hgranted
    cases hgranted
  | draining =>
    rw [held_of_draining hd, hc.empty (.inl hd)] at hj
    cases hj
  | exited =>
    have hheld : p.held = [] := by rw [held, hd]
    rw [hheld, hc.empty (.inr hd)] at hj
    cases hj

/-- A dispatcher that waits for a permit waits for running tasks, which have them all. -/
theorem full_of_holding (hp : p.Permitted) {i : Job τ} (hd : p.dispatcher = .holding i) :
    p.free = 0 ∧ p.running.length = p.bounds.maxWorkers := by
  have htotal := hp.total
  have hscarce := hp.scarce i hd
  have hgranted : p.granted = 0 := by rw [granted, hd]
  exact ⟨hscarce, by omega⟩

/-- A pool at rest that is closed and runs nothing is done. -/
theorem exited_of_atRest (hp : p.Permitted) (hw : 0 < p.bounds.maxWorkers) (h : p.AtRest)
    (hclosed : p.phase ≠ .accepting) (hr : p.running = []) : p.dispatcher = .exited := by
  by_contra hout
  obtain ⟨m, -, hm⟩ := exists_move hp hw hclosed hout
  obtain ⟨q, hq⟩ := Option.isSome_iff_exists.1 hm
  obtain ⟨ticket, e, rfl⟩ := h _ _ hq
  cases moved_of_move? hq with
  | finish j _ hj => rw [hr] at hj; cases hj

/-- The dispatcher's own moves use up its load. -/
theorem load_lt_of_move {q : Pool τ} {l : Ledger τ} (hb : p.Balanced l) {m : Move}
    (hm : ∀ ticket e, m ≠ .finish ticket e) (hs : m ≠ .stop) (h : p.move? m = some q) :
    q.load < p.load := by
  have heffort := effort_move hb h hs
  have hlength := (unfinished_move hm h).length_eq
  simp only [effort, unfinished, List.length_append] at heffort hlength
  omega

end Pool

/-- At most how many steps a task still causes once it is started, those of its dispatcher and of
the tasks that it submits included. -/
def TaskScript.cost : TaskScript → Nat
  | .done _ => 2
  | .wait next => next.cost + 2
  | .submit child next => child.cost + next.cost + 5

namespace ScriptRun

variable {a b : ScriptRun} {e : ScriptEvent} {es fs : List ScriptEvent} {i j : Job TaskScript}

/-! ## Work -/

/-- The steps that a task still causes. Who has come to the gate need not come to it again. -/
def toDo (a : ScriptRun) (j : Job TaskScript) : Nat :=
  (a.rest j).cost + if a.gate.IsPresent j.ticket then 0 else 1

/-- At most how many inner steps are still possible. -/
def work (a : ScriptRun) : Nat :=
  a.pool.load + a.total a.toDo + if a.pool.phase = .stopping then 1 else 0

theorem toDo_le (a : ScriptRun) (j : Job TaskScript) : a.toDo j ≤ (a.rest j).cost + 1 := by
  unfold toDo
  split <;> omega

theorem cost_le_toDo (a : ScriptRun) (j : Job TaskScript) : (a.rest j).cost ≤ a.toDo j :=
  Nat.le_add_right _ _

theorem work_submit (h : a.Sound) (s : TaskScript) : (a.submit s).work ≤ a.work + s.cost + 4 := by
  unfold work total
  cases hr : a.pool.refusal? with
  | some e =>
    simp only [submit, Pool.submit_of_refusal hr]
    exact Nat.le_trans (Nat.le_add_right _ s.cost) (Nat.le_add_right _ 4)
  | none =>
    have hsum := ((Pool.unfinished_submit_ok hr s).map a.toDo).sum_nat
    have hnew : a.toDo ⟨a.pool.stats.submitted, s⟩ ≤ s.cost + 1 := by
      refine Nat.le_trans (a.toDo_le _) ?_
      simp [rest, h.fresh _ (Nat.le_refl _)]
    have hload : (a.pool.submit s).1.load = a.pool.load + 3 := by
      simp only [Pool.submit_of_none hr, Pool.load, List.length_append, List.length_singleton]
      omega
    rw [List.map_cons, List.sum_cons] at hsum
    change (a.pool.submit s).1.load + ((a.pool.submit s).1.unfinished.map a.toDo).sum +
      (if (a.pool.submit s).1.phase = .stopping then 1 else 0) ≤ _
    rw [hload, hsum, Pool.phase_submit]
    omega

theorem work_move (h : a.Sound) {m : Move} {q : Pool TaskScript}
    (hm : ∀ ticket e, m ≠ .finish ticket e) (hq : a.pool.move? m = some q) :
    { a with pool := q, ledger := a.ledger.follow a.pool m : ScriptRun }.work < a.work := by
  have htotal := total_move hm hq a.toDo
  change q.load + (q.unfinished.map a.toDo).sum + (if q.phase = .stopping then 1 else 0) < _
  rw [htotal]
  unfold work
  by_cases hs : m = .stop
  · subst hs
    cases Pool.moved_of_move? hq with
    | stop _ hp =>
      rw [if_pos hp]
      exact Nat.lt_succ_self _
  · have hload := Pool.load_lt_of_move h.balanced hm hs hq
    rw [Pool.phase_move hs hq]
    omega

theorem work_finish (h : a.Sound) (hj : j ∈ a.pool.running) {e : Ending}
    (hscript : a.rest j = .done e) :
    { a with
      pool := a.pool.finish j.ticket e
      ledger := a.ledger.follow a.pool (.finish j.ticket e) : ScriptRun }.work < a.work := by
  have htotal := total_finish h.balanced hj e a.toDo
  have hcost := a.cost_le_toDo j
  rw [hscript] at hcost
  change (a.pool.finish j.ticket e).load + ((a.pool.finish j.ticket e).unfinished.map a.toDo).sum +
    (if (a.pool.finish j.ticket e).phase = .stopping then 1 else 0) < _
  rw [Pool.load_finish, Pool.phase_finish]
  simp only [TaskScript.cost] at hcost
  unfold work
  omega

/-- The work of the task that goes on is all that changes. -/
theorem work_of_toDo (h : a.Sound) (hj : j ∈ a.pool.running) (hpool : b.pool = a.pool)
    (hrest : ∀ i, i.ticket ≠ j.ticket → b.toDo i = a.toDo i) :
    b.work + a.toDo j = a.work + b.toDo j := by
  have htotal := total_replace h.balanced hj hrest
  have hb : b.total b.toDo = a.total b.toDo := by unfold total; rw [hpool]
  unfold work
  rw [hb, hpool]
  omega

theorem work_advance (h : a.Sound) (hj : j ∈ a.pool.running) {child next : TaskScript}
    (hscript : a.rest j = .submit child next) :
    (a.advance j next).work + child.cost + 5 = a.work := by
  have hwork := work_of_toDo (b := a.advance j next) h hj rfl fun i hi => by
    unfold toDo
    rw [rest_advance_of_ne hi]
    rfl
  have hgate : (a.advance j next).gate = a.gate := rfl
  simp only [toDo, rest_advance_self, hscript, TaskScript.cost, hgate] at hwork
  omega

theorem work_pass (h : a.Sound) (hj : j ∈ a.pool.running) {next : TaskScript}
    (hscript : a.rest j = .wait next) (hcomes : j.ticket ∉ a.gate.waiting)
    (hfree : (a.gate.enter j.ticket).2 = true) :
    { a.advance j next with gate := (a.gate.enter j.ticket).1 : ScriptRun }.work < a.work := by
  have hwork := work_of_toDo
    (b := { a.advance j next with gate := (a.gate.enter j.ticket).1 }) h hj rfl fun i hi => by
      have hpresent := Gate.isPresent_of_free (b := i.ticket) h.fair hcomes hfree
      have hrest := rest_advance_of_ne (a := a) hi next
      simp only [toDo, hpresent, hi, ne_eq, not_false_eq_true, and_true]
      exact congrArg (·.cost + _) hrest
  have hbefore := a.cost_le_toDo j
  have hafter := toDo_le { a.advance j next with gate := (a.gate.enter j.ticket).1 } j
  have hnext : ({ a.advance j next with gate := (a.gate.enter j.ticket).1 } : ScriptRun).rest j =
      next := rest_advance_self a j next
  rw [hscript, TaskScript.cost] at hbefore
  rw [hnext] at hafter
  omega

theorem work_line (h : a.Sound) (hj : j ∈ a.pool.running) (hcomes : j.ticket ∉ a.gate.waiting)
    (hshut : (a.gate.enter j.ticket).2 = false) :
    { a with gate := (a.gate.enter j.ticket).1 : ScriptRun }.work < a.work := by
  have hpresent (t : Nat) := Gate.isPresent_of_shut (b := t) hcomes hshut
  have habsent := (Gate.waiting_of_shut hcomes hshut).1
  have hwork := work_of_toDo
    (b := { a with gate := (a.gate.enter j.ticket).1 }) h hj rfl fun i hi => by
      simp only [toDo, hpresent, hi, or_false]
      rfl
  have hrest : ({ a with gate := (a.gate.enter j.ticket).1 } : ScriptRun).rest j = a.rest j := rfl
  simp only [toDo, hrest, hpresent, or_true, if_true, habsent, if_false] at hwork
  omega

/-- **Every inner step uses up work.** A task that submits another one pays for all the steps that
this one will cause. -/
theorem work_step (h : a.Sound) (hin : e.IsInner) (he : a.step? e = some b) : b.work < a.work := by
  cases stepped_of_step? he with
  | submit s | shutdown | give n => exact hin.elim
  | move m q hm hq => exact work_move h hm hq
  | finish j e hj hscript => exact work_finish h hj hscript
  | nest j child next hj hscript =>
    have hadvance := work_advance h hj hscript
    have hsubmit := work_submit (sound_advance h hj hscript) child
    omega
  | pass j next hj hscript hcomes hfree => exact work_pass h hj hscript hcomes hfree
  | line j next hj hscript hcomes hshut => exact work_line h hj hcomes hshut

/-- So no scheduling makes more inner steps than there is work. -/
theorem length_le_work (h : a.Sound) (hin : ∀ e ∈ fs, e.IsInner) (hr : a.run? fs = some b) :
    fs.length ≤ a.work := by
  induction fs generalizing a with
  | nil => exact Nat.zero_le _
  | cons e fs ih =>
    obtain ⟨hfirst, hmore⟩ := List.forall_mem_cons.1 hin
    obtain ⟨a₁, h₁, hr⟩ := Option.bind_eq_some_iff.1 hr
    have hless := work_step h hfirst h₁
    have hrest := ih (sound_step h h₁) hmore hr
    rw [List.length_cons]
    omega

/-! ## Settled states -/

/-- Nothing moves by itself any more. -/
def Settled (a : ScriptRun) : Prop := ∀ e, e.IsInner → a.step? e = none

/-- A task has come to the gate and waits for a unit. -/
def Waits (a : ScriptRun) (j : Job TaskScript) : Prop :=
  (∃ next, a.rest j = .wait next) ∧ j.ticket ∈ a.gate.waiting

/-- **A settled state is reached from every state.** -/
theorem exists_settled (h : a.Sound) :
    ∃ fs b, (∀ e ∈ fs, e.IsInner) ∧ a.run? fs = some b ∧ b.Settled := by
  induction hn : a.work using Nat.strongRecOn generalizing a with
  | ind n ih =>
    subst hn
    by_cases hs : a.Settled
    · exact ⟨[], a, nofun, rfl, hs⟩
    · unfold Settled at hs
      push Not at hs
      obtain ⟨e, hin, hne⟩ := hs
      obtain ⟨a₁, h₁⟩ := Option.ne_none_iff_exists'.1 hne
      obtain ⟨fs, b, hfs, hr, hb⟩ := ih _ (work_step h hin h₁) (sound_step h h₁) rfl
      refine ⟨e :: fs, b, List.forall_mem_cons.2 ⟨hin, hfs⟩, ?_, hb⟩
      rw [run?_cons, h₁]
      exact hr

/-- The turn of a running task is its own. -/
theorem step?_task (h : a.Sound) (hj : j ∈ a.pool.running) :
    a.step? (.task j.ticket) = a.proceed? j := by
  have hfind : (a.pool.running.find? fun i => i.ticket = j.ticket) = some j := by
    cases hf : a.pool.running.find? fun i => i.ticket = j.ticket with
    | none => exact absurd (decide_eq_true rfl) (List.find?_eq_none.1 hf j hj)
    | some i =>
      have hi := List.mem_of_find?_eq_some hf
      have hticket : i.ticket = j.ticket := of_decide_eq_true (List.find?_some hf :)
      rw [List.inj_on_of_nodup_map h.balanced.nodup_running hi hj hticket]
  simp only [step?, hfind, Option.bind_some]

/-- A task that submits another one goes on, whatever becomes of that one. -/
theorem step?_submit (h : a.Sound) (hj : j ∈ a.pool.running) {child next : TaskScript}
    (hscript : a.rest j = .submit child next) :
    a.step? (.task j.ticket) = some ((a.advance j next).submit child) := by
  rw [step?_task h hj, proceed?, hscript]

/-- **Nothing holds up a running task but the gate.** -/
theorem isSome_step?_task (h : a.Sound) (hj : j ∈ a.pool.running) (hw : ¬a.Waits j) :
    (a.step? (.task j.ticket)).isSome := by
  rw [step?_task h hj, proceed?]
  split
  · next e _ => rw [Pool.move_finish hj]; rfl
  · rfl
  · next next hscript =>
    rw [if_neg fun hwaiting => hw ⟨⟨next, hscript⟩, hwaiting⟩]
    split <;> rfl

theorem waits_of_settled (h : a.Sound) (hs : a.Settled) (hj : j ∈ a.pool.running) : a.Waits j := by
  by_contra hw
  have hstep := isSome_step?_task h hj hw
  rw [hs (.task j.ticket) trivial] at hstep
  cases hstep

theorem atRest_of_settled (hs : a.Settled) : a.pool.AtRest := by
  intro m q hq
  by_contra hm
  push Not at hm
  have hnone := hs (.move m) trivial
  cases m with
  | finish ticket e => exact hm ticket e rfl
  | _ => simp only [step?, hq, Option.map_some, reduceCtorEq] at hnone

/-- In a settled state nobody has a unit that is not used. -/
theorem stock_of_settled (h : a.Sound) (hs : a.Settled) (hj : j ∈ a.pool.running) :
    a.gate.stock = 0 := by
  have hwaiting := (waits_of_settled h hs hj).2
  have hunits : a.gate.units = 0 := by
    by_contra hpos
    rw [h.fair.kept (Nat.pos_of_ne_zero hpos)] at hwaiting
    cases hwaiting
  have hadmitted : a.gate.admitted = [] := by
    refine List.eq_nil_iff_forall_not_mem.2 fun t ht => ?_
    obtain ⟨i, hi, rfl, -⟩ := h.present t (.inr ht)
    -- whoever is admitted would pass
    have hdisjoint := (List.nodup_append.1 h.fair.distinct).2.2
    exact hdisjoint _ (waits_of_settled h hs hi).2 _ ht rfl
  rw [Gate.stock, hunits, hadmitted]
  rfl

/-- **With units enough, no task is left running.** -/
theorem not_running_of_settled (h : a.Sound) (hs : a.Settled)
    (henough : (a.ledger.accepted.map TaskScript.waits).sum ≤ a.given) : a.pool.running = [] := by
  refine List.eq_nil_iff_forall_not_mem.2 fun j hj => ?_
  obtain ⟨next, hscript⟩ := (waits_of_settled h hs hj).1
  have hunits := h.units
  rw [stock_of_settled h hs hj] at hunits
  have hone : a.waitsLeft j ≤ a.total a.waitsLeft :=
    List.le_sum_of_mem (List.mem_map_of_mem (Pool.mem_unfinished_of_running hj))
  rw [waitsLeft, hscript, TaskScript.waits] at hone
  omega

theorem mem_waiting_jobs (h : a.Sound) (hj : j ∈ a.ledger.jobs) (hnew : j ∉ a.ledger.started) :
    j ∈ a.pool.held ++ a.pool.queue := by
  rw [← h.balanced.order, List.append_assoc] at hj
  exact (List.mem_append.1 hj).resolve_left hnew

/-- Every accepted task has ended in a settled state, if the gate has units enough. -/
theorem ended_of_settled (h : a.Sound) (hw : 0 < a.pool.bounds.maxWorkers) (hs : a.Settled)
    (henough : (a.ledger.accepted.map TaskScript.waits).sum ≤ a.given) :
    (a.ledger.ended.map Prod.fst).Perm a.ledger.jobs := by
  have hrunning := not_running_of_settled h hs henough
  have hwaiting : a.pool.held ++ a.pool.queue = [] := by
    refine List.eq_nil_iff_forall_not_mem.2 fun j hj => ?_
    obtain ⟨i, hi⟩ := Pool.holding_of_atRest h.closing (atRest_of_settled hs) hj
    have hfull := (Pool.full_of_holding h.permitted hi).2
    rw [hrunning, List.length_nil] at hfull
    omega
  obtain ⟨hheld, hqueue⟩ := List.append_eq_nil_iff.1 hwaiting
  have hperm := Pool.unfinished_append_ended h.balanced
  rw [Pool.unfinished, hrunning, hheld, hqueue] at hperm
  exact hperm

/-! ## Runs -/

theorem bounds_step (he : a.step? e = some b) : b.pool.bounds = a.pool.bounds := by
  cases stepped_of_step? he with
  | submit s | nest _ s _ _ _ => exact Pool.bounds_submit ..
  | shutdown => exact Pool.bounds_shutdown _
  | move m q _ hq => exact Pool.bounds_move hq
  | finish j e hj _ => exact Pool.bounds_move (Pool.move_finish hj e)
  | give _ | pass _ _ _ _ _ _ | line _ _ _ _ _ _ => rfl

theorem bounds_run (hr : a.run? es = some b) : b.pool.bounds = a.pool.bounds :=
  run_induction (P := fun c => c.pool.bounds = a.pool.bounds)
    (fun hc he => (bounds_step he).trans hc) rfl hr

/-- Only a pool that has not been shut down accepts tasks. -/
theorem accepting_step (he : a.step? e = some b) (hb : b.pool.phase = .accepting) :
    a.pool.phase = .accepting ∧ e ≠ .shutdown := by
  cases stepped_of_step? he with
  | submit s | nest _ s _ _ _ => exact ⟨(Pool.phase_submit ..).symm.trans hb, nofun⟩
  | shutdown => exact absurd hb (Pool.not_accepting_shutdown _)
  | move m q _ hq =>
    by_cases hs : m = .stop
    · subst hs
      cases Pool.moved_of_move? hq with
      | stop _ _ => cases hb
    · exact ⟨(Pool.phase_move hs hq).symm.trans hb, nofun⟩
  | finish j e _ _ => exact ⟨(Pool.phase_finish ..).symm.trans hb, nofun⟩
  | give _ | pass _ _ _ _ _ _ | line _ _ _ _ _ _ => exact ⟨hb, nofun⟩

theorem accepting_run (hr : a.run? es = some b) (hb : b.pool.phase = .accepting) :
    a.pool.phase = .accepting ∧ .shutdown ∉ es := by
  induction es generalizing a with
  | nil => cases hr; exact ⟨hb, nofun⟩
  | cons e es ih =>
    obtain ⟨a₁, h₁, hr⟩ := Option.bind_eq_some_iff.1 hr
    obtain ⟨hphase, hmore⟩ := ih hr
    obtain ⟨hphase, hfirst⟩ := accepting_step h₁ hphase
    refine ⟨hphase, fun hmem => ?_⟩
    rcases List.mem_cons.1 hmem with rfl | hmem
    · exact hfirst rfl
    · exact hmore hmem

/-- A settled pool that has been shut down and runs nothing is done, and the shutdown call has
returned. -/
theorem exited_of_settled (h : a.Sound) (hw : 0 < a.pool.bounds.maxWorkers) (hs : a.Settled)
    (hclosed : a.pool.phase ≠ .accepting) (hr : a.pool.running = []) :
    a.pool.dispatcher = .exited ∧ a.pool.phase = .stopped := by
  have hrest := atRest_of_settled hs
  have hexited := Pool.exited_of_atRest h.permitted hw hrest hclosed hr
  refine ⟨hexited, ?_⟩
  cases hp : a.pool.phase with
  | accepting => exact absurd hp hclosed
  | stopping =>
    have hstop : a.pool.move? .stop = some { a.pool with phase := .stopped } := by
      simp only [Pool.move?, hexited, hp]
    obtain ⟨_, _, hm⟩ := hrest _ _ hstop
    cases hm
  | stopped => rfl

/-- **A pool does not stall with work to do**, as seen after the given events. -/
structure NeverStalls (bounds : PoolConfig) (es : List ScriptEvent) (a : ScriptRun) : Prop where
  /-- Under every scheduling, pool and tasks make only finitely many steps by themselves. -/
  finite : ∀ fs b, (∀ e ∈ fs, e.IsInner) → a.run? fs = some b → fs.length ≤ a.work
  settles : ∃ fs b, (∀ e ∈ fs, e.IsInner) ∧ a.run? fs = some b ∧ b.Settled
  /-- A running task that does not wait for the gate can go on, in whatever state the pool is. -/
  unblocked : ∀ j ∈ a.pool.running, ¬a.Waits j → (a.step? (.task j.ticket)).isSome
  /-- In particular a task that submits another one goes on behind that. -/
  submitting : ∀ j ∈ a.pool.running, ∀ child next, a.rest j = .submit child next →
    ∃ b, a.step? (.task j.ticket) = some b ∧ b.rest j = next
  /-- In a settled state an accepted task that has not been started is held up by running tasks:
  they have all permits, and each of them waits for the gate. -/
  busy : a.Settled → ∀ j ∈ a.ledger.jobs, j ∉ a.ledger.started →
    a.pool.free = 0 ∧ a.pool.running.length = bounds.maxWorkers ∧ ∀ i ∈ a.pool.running, a.Waits i
  /-- If the gate has been given units enough for all accepted tasks, all of them have ended. -/
  ended : a.Settled → (a.ledger.accepted.map TaskScript.waits).sum ≤ a.given →
    (a.ledger.ended.map Prod.fst).Perm a.ledger.jobs
  /-- If then the pool has been shut down, the dispatcher has exited and the call has returned. -/
  exited : a.Settled → (a.ledger.accepted.map TaskScript.waits).sum ≤ a.given → .shutdown ∈ es →
    a.pool.dispatcher = .exited ∧ a.pool.phase = .stopped

/-- **A pool does not stall**, wherever a run has led it. -/
theorem neverStalls_of_run {c : PoolConfig} {es : List ScriptEvent} {a : ScriptRun}
    (h : (start c.normalized).run? es = some a) : a.NeverStalls c.normalized es := by
  have hsound := sound_run (sound_start _) h
  have hbounds : a.pool.bounds = c.normalized := bounds_run h
  have hworkers : 0 < a.pool.bounds.maxWorkers := by
    rw [hbounds]
    exact Nat.le_max_left 1 c.maxWorkers
  refine ⟨fun fs b hin hr => length_le_work hsound hin hr, exists_settled hsound,
    fun j hj hw => isSome_step?_task hsound hj hw, ?_, ?_,
    fun hs henough => ended_of_settled hsound hworkers hs henough, ?_⟩
  · intro j hj child next hscript
    exact ⟨_, step?_submit hsound hj hscript, rest_advance_self a j next⟩
  · intro hs j hj hnew
    have hwaiting := mem_waiting_jobs hsound hj hnew
    obtain ⟨i, hi⟩ := Pool.holding_of_atRest hsound.closing (atRest_of_settled hs) hwaiting
    obtain ⟨hfree, hfull⟩ := Pool.full_of_holding hsound.permitted hi
    exact ⟨hfree, hfull.trans (congrArg PoolConfig.maxWorkers hbounds),
      fun k hk => waits_of_settled hsound hs hk⟩
  · intro hs henough hshut
    have hclosed : a.pool.phase ≠ .accepting := fun hp => (accepting_run h hp).2 hshut
    exact exited_of_settled hsound hworkers hs hclosed (not_running_of_settled hsound hs henough)

/-- With one worker and one place in the queue, the first task submits another one in vain, because
the queue is full, and waits for the gate. Then the second task is held up. -/
def standstill : List ScriptEvent :=
  [.submit (.submit (.done .completed) (.wait (.done .panicked))), .move .take, .move .start,
    .submit (.done .completed), .task 0, .task 0, .move .take]

/-- Shutting down changes nothing about that, but a unit of the gate does. -/
def resumption : List ScriptEvent :=
  standstill ++ [.shutdown, .give 1, .task 0, .task 0, .move .start, .move .collect, .task 1,
    .move .collect, .move .drain, .move .exit, .move .stop]

theorem neverStalls_of_standstill :
    (∃ a : ScriptRun, (start (PoolConfig.normalized ⟨0, 0⟩)).run? standstill = some a ∧
      a.NeverStalls ⟨1, 1⟩ standstill ∧ a.Settled ∧ a.ledger.started.length = 1 ∧
      a.ledger.jobs.length = 2 ∧ a.gate.waiting = [0]) ∧
    ∃ b : ScriptRun, (start (PoolConfig.normalized ⟨0, 0⟩)).run? resumption = some b ∧
      b.NeverStalls ⟨1, 1⟩ resumption ∧ b.Settled ∧
      (b.ledger.accepted.map TaskScript.waits).sum ≤ b.given ∧ b.pool.stats = ⟨2, 1, 1, 1⟩ := by
  refine ⟨⟨_, rfl, ?_, ?_, rfl, rfl, rfl⟩, ⟨_, rfl, ?_, ?_, by decide, rfl⟩⟩
  · exact @neverStalls_of_run ⟨0, 0⟩ standstill _ rfl
  · intro e he
    cases e with
    | move m => cases m <;> rfl
    | task t => cases t <;> rfl
    | submit _ | shutdown | give _ => exact he.elim
  · exact @neverStalls_of_run ⟨0, 0⟩ resumption _ rfl
  · intro e he
    cases e with
    | move m => cases m <;> rfl
    | task t => rfl
    | submit _ | shutdown | give _ => exact he.elim

end ScriptRun

end RoomWatch
