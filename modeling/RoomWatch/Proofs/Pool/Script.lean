import Mathlib.Algebra.Ring.Nat
import Mathlib.Data.List.Nodup
import Mathlib.Logic.Function.Basic
import RoomWatch.Pool.Task
import RoomWatch.Proofs.Pool.Closing
import RoomWatch.Proofs.Pool.Effort
import RoomWatch.Proofs.Pool.Gate

/-!
# Tasks that wait for a gate and submit tasks

What a task does is a `TaskScript`: it waits for a unit of the gate, or submits a task with a script
of its own to the same pool, any number of times, and then it ends or panics. The plain tasks are of
this kind (`PlainTask.script`).

In a run (`ScriptRun.run?`) the inner steps are the moves of the dispatcher and single steps of the
tasks that run. They may come in any order, and between any two of them tasks may be submitted from
outside, the gate may be given units, and the pool may be shut down.

* `stepped_of_step?`: what an event needs and what it does.
* `ScriptRun.Sound`: tasks that are at the gate run and wait, and every unit that the gate has been
  given is still there or has let an accepted task pass. Every step keeps this (`sound_step`).
-/

namespace RoomWatch

/-- What a task does. -/
inductive TaskScript where
  | done (ending : Ending)
  /-- It waits for a unit of the gate. -/
  | wait (next : TaskScript)
  /-- It submits a task to its own pool, and goes on whatever the answer is. -/
  | submit (child next : TaskScript)

/-- How many units of the gate a task takes. Those of tasks that it submits are not counted. -/
def TaskScript.waits : TaskScript → Nat
  | .done _ => 0
  | .wait next => next.waits + 1
  | .submit _ next => next.waits

/-- What a plain task does. -/
def PlainTask.script (t : PlainTask) : TaskScript :=
  let ending := .done (if t.panics then .panicked else .completed)
  let rest := if t.nests then .submit (.done .completed) ending else ending
  if t.gated then .wait rest else rest

/-- The script of a plain task is what it does in its turns: once the gate lets it pass, it submits
its tasks one after another, and then it ends. -/
theorem PlainTask.script_eq (t : PlainTask) (w : TaskWorld) :
    ∃ e, (t.act w).ending = some e ∧ t.script =
      (if t.gated then .wait else id)
        ((t.act w).submits.foldr (fun child next => .submit child.script next) (.done e)) := by
  refine ⟨_, rfl, ?_⟩
  cases hn : t.nests <;> cases hg : t.gated <;> simp [script, act, hn, hg]

/-- Something that happens to a pool, its tasks and their gate. -/
inductive ScriptEvent where
  /-- A task is submitted from outside. -/
  | submit (s : TaskScript)
  | shutdown
  /-- The gate is given units. -/
  | give (n : Nat)
  /-- The dispatcher moves, or the first shutdown call returns. -/
  | move (m : Move)
  /-- A running task goes on. -/
  | task (ticket : Nat)

/-- The steps that pool and tasks make by themselves. -/
def ScriptEvent.IsInner : ScriptEvent → Prop
  | .move _ | .task _ => True
  | .submit _ | .shutdown | .give _ => False

/-- A pool, what has been seen of it, the gate of its tasks and how far they have got. -/
structure ScriptRun where
  pool : Pool TaskScript
  ledger : Ledger TaskScript := {}
  gate : Gate Nat := {}
  /-- The units that the gate has been given. -/
  given : Nat := 0
  /-- What is left to do, by ticket, for tasks that have gone on. -/
  left : Nat → Option TaskScript := fun _ => none

/-- The tasks that have been accepted and have not ended. -/
def Pool.unfinished {τ : Type} (p : Pool τ) : List (Job τ) := p.queue ++ p.held ++ p.running

namespace ScriptRun

variable {a b : ScriptRun} {e : ScriptEvent} {es : List ScriptEvent} {j : Job TaskScript}

def start (bounds : PoolConfig) : ScriptRun := { pool := .start bounds }

/-- What is left of the script of a task. -/
def rest (a : ScriptRun) (j : Job TaskScript) : TaskScript := (a.left j.ticket).getD j.task

/-- A task is submitted. -/
def submit (a : ScriptRun) (s : TaskScript) : ScriptRun :=
  { a with pool := (a.pool.submit s).1, ledger := a.ledger.enter s (a.pool.submit s).2 }

/-- A task has got to the given rest of its script. -/
def advance (a : ScriptRun) (j : Job TaskScript) (next : TaskScript) : ScriptRun :=
  { a with left := Function.update a.left j.ticket (some next) }

/-- A running task makes its next step, if it can make one. -/
def proceed? (a : ScriptRun) (j : Job TaskScript) : Option ScriptRun :=
  match a.rest j with
  | .done e =>
    (a.pool.move? (.finish j.ticket e)).map fun q =>
      { a with pool := q, ledger := a.ledger.follow a.pool (.finish j.ticket e) }
  | .submit child next => some ((a.advance j next).submit child)
  | .wait next =>
    -- who waits for a unit already goes on waiting
    if j.ticket ∈ a.gate.waiting then none
    else if (a.gate.enter j.ticket).2 then
      some { a.advance j next with gate := (a.gate.enter j.ticket).1 }
    else some { a with gate := (a.gate.enter j.ticket).1 }

/-- What an event does; none if it is not possible. -/
def step? (a : ScriptRun) : ScriptEvent → Option ScriptRun
  | .submit s => some (a.submit s)
  | .shutdown => some { a with pool := a.pool.shutdown }
  | .give n => some { a with gate := (a.gate.give n).1, given := a.given + n }
  -- a task ends when its script says so
  | .move (.finish _ _) => none
  | .move m => (a.pool.move? m).map fun q =>
      { a with pool := q, ledger := a.ledger.follow a.pool m }
  | .task ticket => (a.pool.running.find? fun j => j.ticket = ticket).bind a.proceed?

/-- The state after a run; none if something in it is not possible. -/
def run? (a : ScriptRun) (es : List ScriptEvent) : Option ScriptRun := es.foldlM step? a

theorem run?_cons (a : ScriptRun) (e : ScriptEvent) (es : List ScriptEvent) :
    a.run? (e :: es) = (a.step? e).bind fun b => b.run? es := rfl

/-- What an event needs and what it does. -/
inductive Stepped (a : ScriptRun) : ScriptEvent → ScriptRun → Prop where
  | submit (s : TaskScript) : Stepped a (.submit s) (a.submit s)
  | shutdown : Stepped a .shutdown { a with pool := a.pool.shutdown }
  | give (n : Nat) : Stepped a (.give n)
      { a with gate := (a.gate.give n).1, given := a.given + n }
  | move (m : Move) (q : Pool TaskScript) (own : ∀ ticket e, m ≠ .finish ticket e)
      (moves : a.pool.move? m = some q) :
      Stepped a (.move m) { a with pool := q, ledger := a.ledger.follow a.pool m }
  | finish (j : Job TaskScript) (e : Ending) (runs : j ∈ a.pool.running)
      (script : a.rest j = .done e) : Stepped a (.task j.ticket)
      { a with
        pool := a.pool.finish j.ticket e
        ledger := a.ledger.follow a.pool (.finish j.ticket e) }
  | nest (j : Job TaskScript) (child next : TaskScript) (runs : j ∈ a.pool.running)
      (script : a.rest j = .submit child next) :
      Stepped a (.task j.ticket) ((a.advance j next).submit child)
  | pass (j : Job TaskScript) (next : TaskScript) (runs : j ∈ a.pool.running)
      (script : a.rest j = .wait next) (comes : j.ticket ∉ a.gate.waiting)
      (free : (a.gate.enter j.ticket).2 = true) : Stepped a (.task j.ticket)
      { a.advance j next with gate := (a.gate.enter j.ticket).1 }
  | line (j : Job TaskScript) (next : TaskScript) (runs : j ∈ a.pool.running)
      (script : a.rest j = .wait next) (comes : j.ticket ∉ a.gate.waiting)
      (shut : (a.gate.enter j.ticket).2 = false) : Stepped a (.task j.ticket)
      { a with gate := (a.gate.enter j.ticket).1 }

theorem stepped_of_step? (h : a.step? e = some b) : a.Stepped e b := by
  cases e with
  | submit s => cases h; exact .submit s
  | shutdown => cases h; exact .shutdown
  | give n => cases h; exact .give n
  | move m =>
    have hown : ∀ ticket e, m ≠ .finish ticket e := by
      rintro ticket e rfl
      cases h
    have hmove : (a.pool.move? m).map (fun q =>
        { a with pool := q, ledger := a.ledger.follow a.pool m }) = some b := by
      cases m with
      | finish ticket e => exact absurd rfl (hown ticket e)
      | _ => exact h
    obtain ⟨q, hq, rfl⟩ := Option.map_eq_some_iff.1 hmove
    exact .move m q hown hq
  | task ticket =>
    obtain ⟨j, hj, hgo⟩ := Option.bind_eq_some_iff.1 h
    have hruns := List.mem_of_find?_eq_some hj
    obtain rfl : j.ticket = ticket := of_decide_eq_true (List.find?_some hj :)
    unfold proceed? at hgo
    split at hgo
    · next e hscript =>
      obtain ⟨q, hq, rfl⟩ := Option.map_eq_some_iff.1 hgo
      rw [Pool.move_finish hruns] at hq
      cases hq
      exact .finish j e hruns hscript
    · next child next hscript => cases hgo; exact .nest j child next hruns hscript
    · next next hscript =>
      split at hgo
      · cases hgo
      · next hcomes =>
        split at hgo
        · next hfree => cases hgo; exact .pass j next hruns hscript hcomes hfree
        · next hshut =>
          cases hgo
          exact .line j next hruns hscript hcomes (Bool.not_eq_true _ ▸ hshut)

/-- What every step keeps holds after every run. -/
theorem run_induction {P : ScriptRun → Prop}
    (hstep : ∀ {a b : ScriptRun} {e}, P a → a.step? e = some b → P b) (h : P a)
    (hr : a.run? es = some b) : P b :=
  foldlM_induction hr h fun _ _ _ => hstep

end ScriptRun

/-! ## The unfinished tasks -/

namespace Pool

variable {τ : Type} {p q : Pool τ} {l : Ledger τ} {j : Job τ}

/-- The accepted tasks are the unfinished and the ended ones. -/
theorem unfinished_append_ended (h : p.Balanced l) :
    (p.unfinished ++ l.ended.map Prod.fst).Perm l.jobs := by
  have hstarted := h.split.symm.append_left (p.queue ++ p.held)
  rw [← h.order]
  unfold unfinished
  rw [List.append_assoc _ p.running]
  refine hstarted.trans (List.perm_append_comm.trans ?_)
  rw [List.append_assoc]
  exact List.perm_append_comm.append_left _

theorem nodup_unfinished (h : p.Balanced l) : (p.unfinished.map Job.ticket).Nodup := by
  have hall := ((unfinished_append_ended h).map Job.ticket).nodup_iff.2 l.nodup_tickets_jobs
  rw [List.map_append] at hall
  exact (List.nodup_append.1 hall).1

/-- Tickets are given out in order. -/
theorem ticket_lt (h : p.Balanced l) (hj : j ∈ p.unfinished) : j.ticket < p.stats.submitted := by
  have hjobs := (unfinished_append_ended h).mem_iff.1 (List.mem_append_left _ hj)
  have hticket := List.mem_map_of_mem (f := Job.ticket) hjobs
  rw [l.tickets_jobs, List.mem_range, ← h.submitted] at hticket
  exact hticket

theorem mem_unfinished_of_running (hj : j ∈ p.running) : j ∈ p.unfinished :=
  List.mem_append_right _ hj

/-- A task that is accepted is unfinished. -/
theorem unfinished_submit_ok (hr : p.refusal? = none) (t : τ) :
    (p.submit t).1.unfinished.Perm (⟨p.stats.submitted, t⟩ :: p.unfinished) := by
  rw [submit_of_none hr]
  simp only [unfinished, List.append_assoc, List.cons_append, List.nil_append]
  exact List.perm_middle

theorem unfinished_submit_error {e : SubmitError} (hr : p.refusal? = some e) (t : τ) :
    (p.submit t).1.unfinished = p.unfinished := by
  rw [submit_of_refusal hr]
  rfl

theorem unfinished_shutdown (p : Pool τ) : p.shutdown.unfinished = p.unfinished := by
  rcases p.shutdown_eq with he | he <;> rw [he]
  rfl

/-- The dispatcher ends no task. -/
theorem unfinished_move {m : Move} (hm : ∀ ticket e, m ≠ .finish ticket e)
    (h : p.move? m = some q) : q.unfinished.Perm p.unfinished := by
  unfold unfinished
  cases moved_of_move? h with
  | take j rest hd hq =>
    rw [queue_take, held_take, running_take, held_of_idle hd, hq, List.append_nil]
    exact List.perm_append_singleton j rest |>.append_right _
  | start j hd =>
    rw [held_of_idle rfl, held_of_granted hd, List.append_nil, List.append_assoc]
    exact List.perm_append_comm.append_left _
  | finish j e _ => exact absurd rfl (hm _ _)
  | drain hd _ _ => rw [held_of_idle hd, held_of_draining rfl]
  | exit hd _ _ => rw [held_of_draining hd]; rfl
  | collect _ _ _ _ | stop _ _ => exact .refl _

/-- A task that ends is unfinished no more. -/
theorem unfinished_finish (h : p.Balanced l) (hj : j ∈ p.running) (e : Ending) :
    (j :: (p.finish j.ticket e).unfinished).Perm p.unfinished := by
  have hone := filter_key_eq h.nodup_running hj
  have hrun := List.filter_append_perm (fun i => decide (i.ticket = j.ticket)) p.running
  rw [hone] at hrun
  have hkept : (p.finish j.ticket e).running =
      p.running.filter fun i => !decide (i.ticket = j.ticket) := by
    simp
  unfold unfinished
  rw [held_finish, queue_finish, hkept]
  exact List.perm_middle.symm.trans (hrun.append_left _)

end Pool

/-- A sum over jobs with different tickets, when the summand of one of them changes. -/
theorem sum_map_replace {τ : Type} {js : List (Job τ)} (hn : (js.map Job.ticket).Nodup)
    {j : Job τ} (hj : j ∈ js) {f g : Job τ → Nat} (h : ∀ i, i.ticket ≠ j.ticket → g i = f i) :
    (js.map g).sum + f j = (js.map f).sum + g j := by
  induction js with
  | nil => cases hj
  | cons i js ih =>
    rw [List.map_cons, List.nodup_cons] at hn
    rw [List.map_cons, List.sum_cons, List.map_cons, List.sum_cons]
    rcases List.mem_cons.1 hj with rfl | hj
    · -- the others keep their summands
      have hsame : js.map g = js.map f := by
        refine List.map_congr_left fun k hk => h k fun he => hn.1 ?_
        exact he ▸ List.mem_map_of_mem hk
      rw [hsame]
      omega
    · have hi := h i fun he => hn.1 (he ▸ List.mem_map_of_mem hj)
      have := ih hn.2 hj
      omega

namespace ScriptRun

variable {a b : ScriptRun} {e : ScriptEvent} {es : List ScriptEvent} {i j : Job TaskScript}

/-- A sum over the unfinished tasks. -/
def total (a : ScriptRun) (f : Job TaskScript → Nat) : Nat := (a.pool.unfinished.map f).sum

theorem total_move {m : Move} {q : Pool TaskScript} (hm : ∀ ticket e, m ≠ .finish ticket e)
    (h : a.pool.move? m = some q) (f : Job TaskScript → Nat) :
    (q.unfinished.map f).sum = a.total f :=
  ((Pool.unfinished_move hm h).map f).sum_nat

theorem total_finish (h : a.pool.Balanced a.ledger) (hj : j ∈ a.pool.running) (e : Ending)
    (f : Job TaskScript → Nat) :
    f j + ((a.pool.finish j.ticket e).unfinished.map f).sum = a.total f := by
  have hperm := ((Pool.unfinished_finish h hj e).map f).sum_nat
  rwa [List.map_cons, List.sum_cons] at hperm

theorem total_replace (h : a.pool.Balanced a.ledger) (hj : j ∈ a.pool.running)
    {f g : Job TaskScript → Nat} (hfg : ∀ i, i.ticket ≠ j.ticket → g i = f i) :
    a.total g + f j = a.total f + g j :=
  sum_map_replace (Pool.nodup_unfinished h) (Pool.mem_unfinished_of_running hj) hfg

/-! ## What is left of the scripts -/

theorem rest_advance_self (a : ScriptRun) (j : Job TaskScript) (next : TaskScript) :
    (a.advance j next).rest j = next := by
  simp [rest, advance]

theorem rest_advance_of_ne (h : i.ticket ≠ j.ticket) (next : TaskScript) :
    (a.advance j next).rest i = a.rest i := by
  simp [rest, advance, Function.update_of_ne h]

/-! ## What every step keeps -/

/-- How many units of the gate a task still takes. -/
def waitsLeft (a : ScriptRun) (j : Job TaskScript) : Nat := (a.rest j).waits

/-- **What every step keeps.** -/
structure Sound (a : ScriptRun) : Prop where
  balanced : a.pool.Balanced a.ledger
  permitted : a.pool.Permitted
  closing : a.pool.Closing
  fair : a.gate.Fair
  /-- Who is at the gate runs and waits. -/
  present : ∀ t, a.gate.IsPresent t → ∃ j ∈ a.pool.running, j.ticket = t ∧
    ∃ next, a.rest j = .wait next
  /-- A task that has not been submitted has not gone on. -/
  fresh : ∀ t, a.pool.stats.submitted ≤ t → a.left t = none
  /-- The units that are not at the gate any more have let accepted tasks pass. -/
  units :
    a.gate.stock + (a.ledger.accepted.map TaskScript.waits).sum = a.given + a.total a.waitsLeft

theorem sound_start (bounds : PoolConfig) : (start bounds).Sound where
  balanced := Pool.balanced_start bounds
  permitted := Pool.permitted_start bounds
  closing := Pool.closing_start bounds
  fair := Gate.fair_new
  present := fun _ h => by rcases h with h | h <;> cases h
  fresh := fun _ _ => rfl
  units := rfl

theorem accepted_follow (l : Ledger TaskScript) (p : Pool TaskScript) (m : Move) :
    (l.follow p m).accepted = l.accepted := by
  cases m <;> rfl

theorem running_submit (p : Pool TaskScript) (s : TaskScript) :
    (p.submit s).1.running = p.running := by
  rw [Pool.submit_eq]
  split <;> rfl

/-- A running task goes on running when another one is submitted or the dispatcher moves. -/
theorem running_of_move {m : Move} {q : Pool TaskScript} (hm : ∀ ticket e, m ≠ .finish ticket e)
    (h : a.pool.move? m = some q) (hj : j ∈ a.pool.running) : j ∈ q.running := by
  cases Pool.moved_of_move? h with
  | take k rest _ _ => rw [Pool.running_take]; exact hj
  | start k _ => exact List.mem_append_left _ hj
  | finish k e _ => exact absurd rfl (hm _ _)
  | _ => exact hj

theorem sound_submit (h : a.Sound) (s : TaskScript) : (a.submit s).Sound where
  balanced := Pool.balanced_submit h.balanced s
  permitted := Pool.permitted_submit h.permitted s
  closing := Pool.closing_submit h.closing s
  fair := h.fair
  present := fun t ht => by
    obtain ⟨j, hj, hrest⟩ := h.present t ht
    exact ⟨j, (running_submit a.pool s).symm ▸ hj, hrest⟩
  fresh := fun t ht => by
    refine h.fresh t (Nat.le_trans ?_ ht)
    simp only [submit, Pool.submit_eq]
    split
    · exact Nat.le_refl _
    · exact Nat.le_succ _
  units := by
    have hunits := h.units
    unfold total at hunits ⊢
    cases hr : a.pool.refusal? with
    | some e =>
      have haccepted : (a.submit s).ledger.accepted = a.ledger.accepted := by
        simp only [submit, Pool.submit_of_refusal hr, Ledger.accepted_enter_error]
      rw [haccepted, submit, Pool.unfinished_submit_error hr]
      exact hunits
    | none =>
      have haccepted : (a.submit s).ledger.accepted = a.ledger.accepted ++ [s] := by
        simp only [submit, Pool.submit_of_none hr, Ledger.accepted_enter_ok]
      have hperm := ((Pool.unfinished_submit_ok hr s).map a.waitsLeft).sum_nat
      -- the new task has not gone on
      have hnew : a.waitsLeft ⟨a.pool.stats.submitted, s⟩ = s.waits := by
        simp [waitsLeft, rest, h.fresh _ (Nat.le_refl _)]
      rw [List.map_cons, List.sum_cons, hnew] at hperm
      rw [haccepted, List.map_append, List.sum_append, List.map_singleton, List.sum_singleton]
      simp only [submit] at hperm ⊢
      change _ = a.given + ((a.pool.submit s).1.unfinished.map a.waitsLeft).sum
      rw [hperm]
      omega

theorem sound_shutdown (h : a.Sound) : { a with pool := a.pool.shutdown : ScriptRun }.Sound := by
  have hpool : a.pool.shutdown.running = a.pool.running ∧
      a.pool.shutdown.stats = a.pool.stats := by
    rcases a.pool.shutdown_eq with he | he <;> rw [he] <;> exact ⟨rfl, rfl⟩
  refine ⟨Pool.balanced_shutdown h.balanced, Pool.permitted_shutdown h.permitted,
    Pool.closing_shutdown h.closing, h.fair, ?_, ?_, ?_⟩
  · rw [hpool.1]
    exact h.present
  · rw [hpool.2]
    exact h.fresh
  · unfold total
    rw [Pool.unfinished_shutdown]
    exact h.units

theorem sound_give (h : a.Sound) (n : Nat) :
    { a with gate := (a.gate.give n).1, given := a.given + n : ScriptRun }.Sound where
  balanced := h.balanced
  permitted := h.permitted
  closing := h.closing
  fair := Gate.fair_give h.fair n
  present := fun t ht => h.present t ((Gate.isPresent_give n).1 ht)
  fresh := h.fresh
  units := by
    have hunits := h.units
    change (a.gate.give n).1.stock + (a.ledger.accepted.map TaskScript.waits).sum =
      a.given + n + a.total a.waitsLeft
    rw [Gate.stock_give]
    omega

theorem sound_move (h : a.Sound) {m : Move} {q : Pool TaskScript}
    (hm : ∀ ticket e, m ≠ .finish ticket e) (hq : a.pool.move? m = some q) :
    { a with pool := q, ledger := a.ledger.follow a.pool m : ScriptRun }.Sound where
  balanced := Pool.balanced_move h.balanced hq
  permitted := Pool.permitted_move h.permitted h.balanced hq
  closing := Pool.closing_move h.closing hq
  fair := h.fair
  present := fun t ht => by
    obtain ⟨j, hj, hrest⟩ := h.present t ht
    exact ⟨j, running_of_move hm hq hj, hrest⟩
  fresh := fun t ht => h.fresh t (by
    have hsubmitted : q.stats.submitted = a.pool.stats.submitted := by
      rw [(Pool.balanced_move h.balanced hq).submitted, accepted_follow, h.balanced.submitted]
    exact hsubmitted ▸ ht)
  units := by
    rw [accepted_follow]
    refine h.units.trans ?_
    exact congrArg (a.given + ·) (total_move hm hq a.waitsLeft).symm

/-- A task that ends was not at the gate. -/
theorem sound_finish (h : a.Sound) (hj : j ∈ a.pool.running) {e : Ending}
    (hscript : a.rest j = .done e) :
    { a with
      pool := a.pool.finish j.ticket e
      ledger := a.ledger.follow a.pool (.finish j.ticket e) : ScriptRun }.Sound where
  balanced := Pool.balanced_finish h.balanced hj e
  permitted := Pool.permitted_move h.permitted h.balanced (Pool.move_finish hj e)
  closing := Pool.closing_move h.closing (Pool.move_finish hj e)
  fair := h.fair
  present := fun t ht => by
    obtain ⟨i, hi, rfl, next, hrest⟩ := h.present t ht
    refine ⟨i, ?_, rfl, next, hrest⟩
    rw [Pool.running_finish, List.mem_filter]
    refine ⟨hi, decide_eq_true fun he => ?_⟩
    -- two running tasks with one ticket are one task
    obtain rfl := List.inj_on_of_nodup_map h.balanced.nodup_running hi hj he
    rw [hscript] at hrest
    cases hrest
  fresh := fun t ht => h.fresh t (by
    rw [Pool.stats_finish] at ht
    cases e <;> exact ht)
  units := by
    have htotal := total_finish h.balanced hj e a.waitsLeft
    have hnone : a.waitsLeft j = 0 := by rw [waitsLeft, hscript]; rfl
    rw [hnone, Nat.zero_add] at htotal
    rw [accepted_follow]
    exact h.units.trans (congrArg (a.given + ·) htotal.symm)

/-- What a task that has gone on needs to keep. -/
theorem fresh_advance (h : a.Sound) (hj : j ∈ a.pool.running) (next : TaskScript) (t : Nat)
    (ht : a.pool.stats.submitted ≤ t) : (a.advance j next).left t = none := by
  have hlt := Pool.ticket_lt h.balanced (Pool.mem_unfinished_of_running hj)
  exact (Function.update_of_ne (by omega) _ _).trans (h.fresh t ht)

theorem total_advance (h : a.Sound) (hj : j ∈ a.pool.running) (next : TaskScript) :
    a.total (a.advance j next).waitsLeft + a.waitsLeft j = a.total a.waitsLeft + next.waits := by
  have hreplace := total_replace h.balanced hj (f := a.waitsLeft)
    (g := (a.advance j next).waitsLeft) fun i hi => by
      rw [waitsLeft, rest_advance_of_ne hi, waitsLeft]
  have hnext : (a.advance j next).waitsLeft j = next.waits := by
    rw [waitsLeft, rest_advance_self]
  rwa [hnext] at hreplace

/-- A task that goes on without the gate was not at the gate. -/
theorem sound_advance (h : a.Sound) (hj : j ∈ a.pool.running) {child next : TaskScript}
    (hscript : a.rest j = .submit child next) : (a.advance j next).Sound where
  balanced := h.balanced
  permitted := h.permitted
  closing := h.closing
  fair := h.fair
  present := fun t ht => by
    obtain ⟨i, hi, rfl, next', hrest⟩ := h.present t ht
    refine ⟨i, hi, rfl, next', ?_⟩
    rw [rest_advance_of_ne ?_]
    · exact hrest
    · intro he
      obtain rfl := List.inj_on_of_nodup_map h.balanced.nodup_running hi hj he
      rw [hscript] at hrest
      cases hrest
  fresh := fresh_advance h hj next
  units := by
    have htotal := total_advance h hj next
    have hsame : a.waitsLeft j = next.waits := by rw [waitsLeft, hscript]; rfl
    rw [hsame] at htotal
    change a.gate.stock + _ = a.given + a.total (a.advance j next).waitsLeft
    rw [Nat.add_right_cancel htotal]
    exact h.units

/-- A task that passes takes a unit with it. -/
theorem sound_pass (h : a.Sound) (hj : j ∈ a.pool.running) {next : TaskScript}
    (hscript : a.rest j = .wait next) (hcomes : j.ticket ∉ a.gate.waiting)
    (hfree : (a.gate.enter j.ticket).2 = true) :
    { a.advance j next with gate := (a.gate.enter j.ticket).1 : ScriptRun }.Sound where
  balanced := h.balanced
  permitted := h.permitted
  closing := h.closing
  fair := Gate.fair_enter h.fair hcomes
  present := fun t ht => by
    obtain ⟨hpresent, hne⟩ := (Gate.isPresent_of_free h.fair hcomes hfree).1 ht
    obtain ⟨i, hi, rfl, next', hrest⟩ := h.present t hpresent
    exact ⟨i, hi, rfl, next', (rest_advance_of_ne hne next).trans hrest⟩
  fresh := fresh_advance h hj next
  units := by
    have htotal := total_advance h hj next
    have hone : a.waitsLeft j = next.waits + 1 := by rw [waitsLeft, hscript]; rfl
    have hstock := Gate.stock_of_free hcomes hfree
    have hunits := h.units
    change (a.gate.enter j.ticket).1.stock + _ = a.given + a.total (a.advance j next).waitsLeft
    change _ + (a.ledger.accepted.map TaskScript.waits).sum = _
    omega

theorem sound_line (h : a.Sound) (hj : j ∈ a.pool.running) {next : TaskScript}
    (hscript : a.rest j = .wait next) (hcomes : j.ticket ∉ a.gate.waiting)
    (hshut : (a.gate.enter j.ticket).2 = false) :
    { a with gate := (a.gate.enter j.ticket).1 : ScriptRun }.Sound where
  balanced := h.balanced
  permitted := h.permitted
  closing := h.closing
  fair := Gate.fair_enter h.fair hcomes
  present := fun t ht => by
    rcases (Gate.isPresent_of_shut hcomes hshut).1 ht with ht | rfl
    · exact h.present t ht
    · exact ⟨j, hj, rfl, next, hscript⟩
  fresh := h.fresh
  units := by
    change (a.gate.enter j.ticket).1.stock + _ = _
    rw [Gate.stock_of_shut hcomes hshut]
    exact h.units

/-- **Every step keeps a pool, its tasks and their gate sound.** -/
theorem sound_step (h : a.Sound) (he : a.step? e = some b) : b.Sound := by
  cases stepped_of_step? he with
  | submit s => exact sound_submit h s
  | shutdown => exact sound_shutdown h
  | give n => exact sound_give h n
  | move m q hm hq => exact sound_move h hm hq
  | finish j e hj hscript => exact sound_finish h hj hscript
  | nest j child next hj hscript => exact sound_submit (sound_advance h hj hscript) child
  | pass j next hj hscript hcomes hfree => exact sound_pass h hj hscript hcomes hfree
  | line j next hj hscript hcomes hshut => exact sound_line h hj hscript hcomes hshut

theorem sound_run (h : a.Sound) (hr : a.run? es = some b) : b.Sound :=
  run_induction sound_step h hr

end ScriptRun

end RoomWatch
