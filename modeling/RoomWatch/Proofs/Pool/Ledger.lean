import RoomWatch.Proofs.Pool.Step
import RoomWatch.Proofs.Runs

/-!
# What becomes of the tasks of a pool

A `Ledger` records what can be seen of a pool: the submit calls with their answers, and the jobs
that have been started and that have ended, each in order. A run of a pool (`Observed.run?`) is
any list of submit calls, shutdown calls and moves in which every move is possible.

* `Pool.Balanced`: a pool agrees with its ledger. Every step keeps this (`balanced_step`).
* `conserved_of_run`: **the accepted tasks are in the queue, held, running, completed or ended
  by a panic, each of them exactly once**, and they are started in the order of acceptance.
-/

namespace RoomWatch

variable {τ : Type}

/-- Something that happens to a pool. A submit call may come from a task that runs. -/
inductive PoolEvent (τ : Type) where
  | submit (task : τ)
  | shutdown
  | move (m : Move)

structure Ledger (τ : Type) where
  /-- The submit calls with their answers. -/
  calls : List (τ × Except SubmitError Unit) := []
  started : List (Job τ) := []
  ended : List (Job τ × Ending) := []

/-- Only one element has the key of an element if the keys are different. -/
theorem filter_key_eq {α κ : Type} [DecidableEq κ] {key : α → κ} {xs : List α}
    (hn : (xs.map key).Nodup) {x : α} (hx : x ∈ xs) : (xs.filter fun y => key y = key x) = [x] := by
  induction xs with
  | nil => cases hx
  | cons y xs ih =>
    rw [List.map_cons, List.nodup_cons] at hn
    rcases List.mem_cons.1 hx with rfl | hx
    · have hrest : xs.filter (fun y => key y = key x) = [] := by
        rw [List.filter_eq_nil_iff]
        intro y hy he
        exact hn.1 (List.mem_map.2 ⟨y, hy, of_decide_eq_true he⟩)
      rw [List.filter_cons_of_pos (by simp), hrest]
    · have hne : key y ≠ key x := fun he => hn.1 (he ▸ List.mem_map_of_mem hx)
      rw [List.filter_cons_of_neg (by simpa using hne)]
      exact ih hn.2 hx

namespace Ledger

/-- The tasks whose submit calls have succeeded. -/
def accepted (l : Ledger τ) : List τ := (l.calls.filter fun c => c.2.isOk).map Prod.fst

/-- The tasks whose submit calls have failed. -/
def refused (l : Ledger τ) : List τ := (l.calls.filter fun c => !c.2.isOk).map Prod.fst

/-- The accepted tasks, each with its number among them. -/
def jobs (l : Ledger τ) : List (Job τ) := l.accepted.mapIdx Job.mk

/-- The jobs that have ended in the given way. -/
def endedBy (l : Ledger τ) (e : Ending) : List (Job τ) :=
  (l.ended.filter fun x => x.2 = e).map Prod.fst

/-- The ledger after a submit call. -/
def enter (l : Ledger τ) (task : τ) (answer : Except SubmitError Unit) : Ledger τ :=
  { l with calls := l.calls ++ [(task, answer)] }

/-- The ledger after a move of the given pool. -/
def follow (l : Ledger τ) (p : Pool τ) : Move → Ledger τ
  | .start => { l with started := l.started ++ p.held }
  | .finish ticket ending =>
    { l with ended := l.ended ++ (p.running.filter fun j => j.ticket = ticket).map (·, ending) }
  | .take | .collect | .drain | .exit | .stop => l

/-- No move is a submit call. -/
theorem calls_follow (l : Ledger τ) (p : Pool τ) (m : Move) : (l.follow p m).calls = l.calls := by
  cases m <;> rfl

/-- Nothing but the end of a job is the end of a job. -/
theorem ended_follow (l : Ledger τ) (p : Pool τ) {m : Move}
    (hm : ∀ ticket e, m ≠ .finish ticket e) : (l.follow p m).ended = l.ended := by
  cases m with
  | finish ticket e => exact absurd rfl (hm ticket e)
  | _ => rfl

theorem tickets_jobs (l : Ledger τ) : l.jobs.map Job.ticket = List.range l.accepted.length := by
  apply List.ext_getElem
  · simp [jobs]
  · intro i _ _
    simp [jobs]

theorem tasks_jobs (l : Ledger τ) : l.jobs.map Job.task = l.accepted := by
  apply List.ext_getElem
  · simp [jobs]
  · intro i _ _
    simp [jobs]

theorem nodup_tickets_jobs (l : Ledger τ) : (l.jobs.map Job.ticket).Nodup := by
  rw [tickets_jobs]
  exact List.nodup_range

theorem accepted_enter_ok (l : Ledger τ) (t : τ) :
    (l.enter t (.ok ())).accepted = l.accepted ++ [t] := by
  simp [accepted, enter, Except.isOk, Except.toBool]

theorem accepted_enter_error (l : Ledger τ) (t : τ) (e : SubmitError) :
    (l.enter t (.error e)).accepted = l.accepted := by
  simp [accepted, enter, Except.isOk, Except.toBool]

theorem refused_enter_ok (l : Ledger τ) (t : τ) : (l.enter t (.ok ())).refused = l.refused := by
  simp [refused, enter, Except.isOk, Except.toBool]

theorem refused_enter_error (l : Ledger τ) (t : τ) (e : SubmitError) :
    (l.enter t (.error e)).refused = l.refused ++ [t] := by
  simp [refused, enter, Except.isOk, Except.toBool]

theorem jobs_enter_ok (l : Ledger τ) (t : τ) :
    (l.enter t (.ok ())).jobs = l.jobs ++ [⟨l.accepted.length, t⟩] := by
  unfold jobs
  rw [accepted_enter_ok, List.mapIdx_concat]

theorem jobs_enter_error (l : Ledger τ) (t : τ) (e : SubmitError) :
    (l.enter t (.error e)).jobs = l.jobs := by
  unfold jobs
  rw [accepted_enter_error]

end Ledger

/-- **A pool agrees with its ledger.** The last field is where the counter of panics lags behind:
a panic is counted only when the dispatcher collects the ending. -/
structure Pool.Balanced (p : Pool τ) (l : Ledger τ) : Prop where
  order : l.started ++ p.held ++ p.queue = l.jobs
  split : l.started.Perm (p.running ++ l.ended.map Prod.fst)
  submitted : p.stats.submitted = l.accepted.length
  rejected : p.stats.rejected = l.refused.length
  completed : p.stats.completed = (l.endedBy .completed).length
  panicked : p.stats.panicked + p.uncollected.count .panicked = (l.endedBy .panicked).length

namespace Pool

variable {p q : Pool τ} {l : Ledger τ}

theorem balanced_start (bounds : PoolConfig) : (Pool.start bounds : Pool τ).Balanced {} :=
  ⟨rfl, .nil, rfl, rfl, rfl, rfl⟩

/-- The jobs that run have different tickets. -/
theorem Balanced.nodup_running (h : p.Balanced l) : (p.running.map Job.ticket).Nodup := by
  -- tickets are numbers in the order of acceptance, and only accepted jobs are started
  have hs : (l.started.map Job.ticket).Nodup := by
    refine (l.nodup_tickets_jobs).sublist (List.Sublist.map _ ?_)
    rw [← h.order, List.append_assoc]
    exact List.sublist_append_left _ _
  have hp := (h.split.map Job.ticket).nodup_iff.1 hs
  rw [List.map_append, List.nodup_append] at hp
  exact hp.1

theorem balanced_submit (h : p.Balanced l) (t : τ) :
    (p.submit t).1.Balanced (l.enter t (p.submit t).2) := by
  cases hr : p.refusal? with
  | some e =>
    rw [submit_of_refusal hr]
    refine ⟨?_, h.split, ?_, ?_, h.completed, h.panicked⟩
    · rw [Ledger.jobs_enter_error]; exact h.order
    · rw [Ledger.accepted_enter_error]; exact h.submitted
    · rw [Ledger.refused_enter_error, List.length_append, ← h.rejected]; rfl
  | none =>
    rw [submit_of_none hr]
    refine ⟨?_, h.split, ?_, ?_, h.completed, h.panicked⟩
    · rw [Ledger.jobs_enter_ok, ← h.order, ← h.submitted, List.append_assoc _ p.queue]
      rfl
    · rw [Ledger.accepted_enter_ok, List.length_append, ← h.submitted]
      rfl
    · rw [Ledger.refused_enter_ok]; exact h.rejected

/-- Only the waiting jobs, the running ones, the endings and the counters matter. -/
theorem Balanced.of_eq (h : p.Balanced l) (hw : q.held ++ q.queue = p.held ++ p.queue)
    (hr : q.running = p.running) (hu : q.uncollected = p.uncollected) (hs : q.stats = p.stats) :
    q.Balanced l := by
  have ho := h.order
  rw [List.append_assoc, ← hw, ← List.append_assoc] at ho
  exact ⟨ho, hr ▸ h.split, hs ▸ h.submitted, hs ▸ h.rejected, hs ▸ h.completed,
    hs ▸ hu ▸ h.panicked⟩

theorem balanced_shutdown (h : p.Balanced l) : p.shutdown.Balanced l := by
  rcases p.shutdown_eq with he | he <;> rw [he]
  · exact h
  · exact h.of_eq rfl rfl rfl rfl

/-- The end of a running job is the end of one job. -/
theorem ended_finish (h : p.Balanced l) {j : Job τ} (hj : j ∈ p.running) (e : Ending) :
    (l.follow p (.finish j.ticket e)).ended = l.ended ++ [(j, e)] := by
  have hone := filter_key_eq h.nodup_running hj
  simp only [Ledger.follow, hone, List.map_cons, List.map_nil]

/-- What the end of a running job adds to the jobs that have ended in a certain way. -/
theorem endedBy_finish (h : p.Balanced l) {j : Job τ} (hj : j ∈ p.running) (e e' : Ending) :
    (l.follow p (.finish j.ticket e)).endedBy e' = l.endedBy e' ++ if e = e' then [j] else [] := by
  unfold Ledger.endedBy
  rw [ended_finish h hj, List.filter_append, List.map_append]
  by_cases he : e = e' <;> simp [he]

/-- A job that ends leaves the running jobs for the ended ones. -/
theorem balanced_finish (h : p.Balanced l) {j : Job τ} (hj : j ∈ p.running) (e : Ending) :
    (p.finish j.ticket e).Balanced (l.follow p (.finish j.ticket e)) := by
  have hone := filter_key_eq h.nodup_running hj
  refine ⟨?_, ?_, ?_, ?_, ?_, ?_⟩
  · rw [held_finish, queue_finish]; exact h.order
  · -- the running jobs are the one that ends and those that go on
    have hrun := (List.filter_append_perm (fun i => decide (i.ticket = j.ticket)) p.running).symm
    rw [hone] at hrun
    have hkept : (p.finish j.ticket e).running =
        p.running.filter fun i => !decide (i.ticket = j.ticket) := by
      simp
    rw [hkept, ended_finish h hj, List.map_append, List.map_singleton, ← List.append_assoc]
    refine (h.split.trans (hrun.append_right _)).trans ?_
    rw [List.append_assoc]
    exact List.perm_append_comm
  · rw [stats_finish]
    cases e <;> exact h.submitted
  · rw [stats_finish]
    cases e <;> exact h.rejected
  · rw [stats_finish, endedBy_finish h hj, List.length_append, ← h.completed]
    cases e <;> rfl
  · rw [stats_finish, uncollected_finish, endedBy_finish h hj, List.length_append, ← h.panicked,
      List.count_append]
    cases e <;> rfl

/-- The dispatcher counts a panic when it collects it. -/
theorem balanced_collect (h : p.Balanced l) {e : Ending} {rest : List Ending}
    (hu : p.uncollected = e :: rest) : (p.collect e rest).Balanced l := by
  have hp := h.panicked
  rw [hu, List.count_cons] at hp
  -- only the end of a panic moves from the uncollected endings to the counter
  cases e with
  | completed => exact ⟨h.order, h.split, h.submitted, h.rejected, h.completed, hp⟩
  | panicked =>
    refine ⟨h.order, h.split, h.submitted, h.rejected, h.completed, ?_⟩
    rw [← hp]
    simp only [collect, countCollected, beq_self_eq_true, if_true]
    omega

/-- A job that is started leaves the dispatcher for the running ones. -/
theorem balanced_begin (h : p.Balanced l) {j : Job τ} (hd : p.dispatcher = .granted j) :
    ({ p with dispatcher := .idle, running := p.running ++ [j] } : Pool τ).Balanced
      (l.follow p .start) := by
  have hj := held_of_granted hd
  refine ⟨?_, ?_, h.submitted, h.rejected, h.completed, h.panicked⟩
  · refine Eq.trans ?_ h.order
    rw [held_of_idle rfl, List.append_nil]
    rfl
  · simp only [Ledger.follow, hj]
    refine (h.split.append_right [j]).trans ?_
    rw [List.append_assoc, List.append_assoc]
    exact List.perm_append_comm.append_left _

/-- **Every move keeps a pool in agreement with its ledger.** -/
theorem balanced_move (h : p.Balanced l) {m : Move} (hm : p.move? m = some q) :
    q.Balanced (l.follow p m) := by
  cases moved_of_move? hm with
  | take j rest hd hq =>
    refine h.of_eq ?_ (running_take ..) (uncollected_take ..) (stats_take ..)
    rw [held_take, queue_take, held_of_idle hd, hq]
    rfl
  | start j hd => exact balanced_begin h hd
  | finish j ending hj => exact balanced_finish h hj ending
  | collect e rest _ hu => exact balanced_collect h hu
  | drain hd _ _ => exact h.of_eq (by rw [held_of_idle hd]; rfl) rfl rfl rfl
  | exit hd _ _ => exact h.of_eq (by rw [held_of_draining hd]; rfl) rfl rfl rfl
  | stop _ _ => exact h.of_eq rfl rfl rfl rfl

end Pool

/-- A pool and what has been seen of it. -/
structure Observed (τ : Type) where
  pool : Pool τ
  ledger : Ledger τ := {}

namespace Observed

/-- A pool that has just been started. -/
def start (bounds : PoolConfig) : Observed τ := { pool := .start bounds }

/-- The pool after something has happened to it; none if that is not possible. -/
def step? (o : Observed τ) : PoolEvent τ → Option (Observed τ)
  | .submit t => some ⟨(o.pool.submit t).1, o.ledger.enter t (o.pool.submit t).2⟩
  | .shutdown => some { o with pool := o.pool.shutdown }
  | .move m => (o.pool.move? m).map fun q => ⟨q, o.ledger.follow o.pool m⟩

/-- The pool after a run; none if something in it is not possible. -/
def run? (o : Observed τ) (es : List (PoolEvent τ)) : Option (Observed τ) := es.foldlM step? o

theorem run?_concat (o : Observed τ) (es : List (PoolEvent τ)) (e : PoolEvent τ) :
    o.run? (es ++ [e]) = (o.run? es).bind fun o₁ => o₁.step? e := by
  unfold run?
  rw [List.foldlM_append]
  exact bind_congr fun o₁ => bind_pure (o₁.step? e)

/-- What happens to a pool does not depend on what has been seen of it before. -/
theorem step?_mk {p : Pool τ} {e : PoolEvent τ} {o : Observed τ} (l : Ledger τ)
    (he : (Observed.mk p {}).step? e = some o) :
    ∃ l', (Observed.mk p l).step? e = some ⟨o.pool, l'⟩ := by
  cases e with
  | submit t => cases he; exact ⟨_, rfl⟩
  | shutdown => cases he; exact ⟨_, rfl⟩
  | move m =>
    obtain ⟨q, hq, rfl⟩ := Option.map_eq_some_iff.1 he
    refine ⟨l.follow p m, ?_⟩
    simp only [step?, hq, Option.map_some]

/-- Where an accepted task can be. -/
def places (o : Observed τ) : List (Job τ) :=
  o.pool.queue ++ o.pool.held ++ o.pool.running ++ o.ledger.endedBy .completed ++
    o.ledger.endedBy .panicked

/-- The invariant is kept by every step. -/
theorem balanced_step {o o' : Observed τ} (h : o.pool.Balanced o.ledger) {e : PoolEvent τ}
    (he : o.step? e = some o') : o'.pool.Balanced o'.ledger := by
  cases e with
  | submit t => cases he; exact Pool.balanced_submit h t
  | shutdown => cases he; exact Pool.balanced_shutdown h
  | move m =>
    simp only [step?, Option.map_eq_some_iff] at he
    obtain ⟨q, hq, rfl⟩ := he
    exact Pool.balanced_move h hq

/-- The invariant holds after every run. -/
theorem balanced_run {es : List (PoolEvent τ)} {o o' : Observed τ} (h : o.pool.Balanced o.ledger)
    (hr : o.run? es = some o') : o'.pool.Balanced o'.ledger :=
  foldlM_induction (P := fun o => o.pool.Balanced o.ledger) hr h
    fun _ _ _ hb he => balanced_step hb he

/-- **Nothing is lost, doubled or invented.** -/
structure Conserved (o : Observed τ) : Prop where
  /-- The accepted tasks are exactly those in the queue, held, running, completed or ended by a
  panic. -/
  partition : o.places.Perm o.ledger.jobs
  /-- No accepted task is in two of these places, or in one of them twice. -/
  once : (o.places.map Job.ticket).Nodup
  /-- A task of which no submit call was accepted is in none of them, refused or not. -/
  unaccepted : ∀ t, t ∉ o.ledger.accepted → t ∉ o.places.map Job.task
  /-- Tasks are started in the order of acceptance: first those that have been started, in their
  order, then the one that is held, then those in the queue. -/
  order : o.ledger.started ++ o.pool.held ++ o.pool.queue = o.ledger.jobs
  submitted : o.pool.stats.submitted = o.ledger.accepted.length
  rejected : o.pool.stats.rejected = o.ledger.refused.length
  completed : o.pool.stats.completed = (o.ledger.endedBy .completed).length
  /-- The counter of panics may lag behind. -/
  panicked_le : o.pool.stats.panicked ≤ (o.ledger.endedBy .panicked).length
  /-- It is right as soon as the dispatcher has collected all endings. -/
  panicked : o.pool.uncollected = [] →
    o.pool.stats.panicked = (o.ledger.endedBy .panicked).length

/-- The ended jobs are the completed ones and those ended by a panic. -/
theorem endedBy_perm (l : Ledger τ) :
    (l.endedBy .completed ++ l.endedBy .panicked).Perm (l.ended.map Prod.fst) := by
  unfold Ledger.endedBy
  rw [← List.map_append]
  have hc : (fun x : Job τ × Ending => decide (x.2 = .panicked)) =
      fun x => !decide (x.2 = .completed) := by
    funext x
    cases x.2 <;> rfl
  rw [hc]
  exact (List.filter_append_perm _ _).map _

theorem places_perm {o : Observed τ} (h : o.pool.Balanced o.ledger) :
    o.places.Perm o.ledger.jobs := by
  have hended := (endedBy_perm o.ledger).append_left o.pool.running
  have hstarted := hended.trans h.split.symm
  -- what waits comes first among the places, but last among the accepted jobs
  rw [← h.order]
  unfold places
  rw [List.append_assoc _ o.pool.running, List.append_assoc _ _ (o.ledger.endedBy .panicked),
    List.append_assoc o.pool.running]
  have hall := hstarted.append_left (o.pool.queue ++ o.pool.held)
  refine hall.trans ?_
  refine List.perm_append_comm.trans ?_
  rw [List.append_assoc]
  exact List.perm_append_comm.append_left _

/-- **Conservation of work.** In every run of a pool, whatever its bounds are, the accepted tasks
are in the queue, held, running, completed or ended by a panic, each of them exactly once, and
the counters are those of the ledger. -/
theorem conserved_of_run {bounds : PoolConfig} {es : List (PoolEvent τ)} {o : Observed τ}
    (h : (Observed.start bounds).run? es = some o) : o.Conserved := by
  have hb := balanced_run (Pool.balanced_start bounds) h
  have hp := places_perm hb
  refine ⟨hp, ?_, ?_, hb.order, hb.submitted, hb.rejected, hb.completed, ?_, ?_⟩
  · exact (hp.map Job.ticket).nodup_iff.2 o.ledger.nodup_tickets_jobs
  · intro t ht hmem
    rw [(hp.map Job.task).mem_iff, Ledger.tasks_jobs] at hmem
    exact ht hmem
  · have := hb.panicked
    omega
  · intro hu
    have := hb.panicked
    rw [hu, List.count_nil] at this
    exact this

/-- A run with one worker and one place in the queue. The second task finds the queue full and
the fourth one the pool closed; the first panics, and its permit goes to the third. -/
def overload : List (PoolEvent Nat) :=
  [.submit 10, .submit 11, .move .take, .submit 12, .move .start, .move .take,
    .move (.finish 0 .panicked), .shutdown, .submit 13, .move .start]

theorem conserved_of_overload :
    ∃ o : Observed Nat, (start ⟨1, 1⟩).run? overload = some o ∧ o.Conserved ∧
      o.ledger.refused = [11, 13] ∧ o.places.map Job.task = [12, 10] ∧
      o.pool.stats = ⟨2, 2, 0, 0⟩ := by
  refine ⟨_, rfl, ?_, rfl, rfl, rfl⟩
  exact @conserved_of_run Nat ⟨1, 1⟩ overload _ rfl

end Observed

end RoomWatch
