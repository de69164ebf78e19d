import Mathlib.Data.List.Perm.Basic
import RoomWatch.Proofs.Pool.Ledger
import RoomWatch.Proofs.Service.Run

/-!
# What becomes of webhook events

An event that a call creates is stamped, submitted to the pool, started, and delivered by a call
of the notifier, with other events between any two of these. On its way it can meet one of four
ends (`Fate`).

* `delivering_step`: pool, notifier and log agree with the ledger of the pool, after every step.
* `settled_of_run`: **once the pool has stopped, every event that was created has met exactly
  one end**, and what the notifier was called with, what was logged and what was counted is what
  these ends say.
-/

namespace RoomWatch

/-- What becomes of a webhook event. -/
inductive Fate where
  | delivered
  | failed (e : NotifyError)
  | panicked
  | refused (e : SubmitError)
  deriving DecidableEq

/-- What came of calling the notifier with an event that ended in this way; none if the notifier
has not been called. -/
def Fate.reaction? : Fate → Option Reaction
  | .delivered => some (.returned (.ok ()))
  | .failed e => some (.returned (.error e))
  | .panicked => some .panicked
  | .refused _ => none

/-- The warning that an end leaves in the log. -/
def Fate.warning? (event : WebhookEvent) : Fate → Option LogLine
  | .failed e => some (.deliveryFailed event.kind event.id e)
  | .refused e => some (.deliveryDropped event.kind event.id e)
  | .delivered | .panicked => none

/-- The end of an event with which the notifier has been called. -/
def Reaction.fate : Reaction → Fate
  | .returned (.ok ()) => .delivered
  | .returned (.error e) => .failed e
  | .panicked => .panicked

theorem Reaction.reaction?_fate (r : Reaction) : r.fate.reaction? = some r := by
  rcases r with (_ | _) | _ <;> rfl

theorem Reaction.warning?_fate (r : Reaction) (e : WebhookEvent) :
    (r.fate.warning? e).toList = r.log e := by
  rcases r with (_ | _) | _ <;> rfl

theorem Reaction.warnings_log (r : Reaction) (e : WebhookEvent) :
    warnings (r.log e) = r.log e := by
  rcases r with (_ | _) | _ <;> rfl

/-- The events that calls create, in the order of the calls. -/
def created (calls : List (Moment × Call)) : List WebhookEvent :=
  calls.filterMap fun x => x.2.notice? x.1

theorem warnings_clear (s : Service) : warnings s.clear.log = [] := by
  have hall : ∀ ws : List Worker, warnings ((ws.map Worker.close).flatMap Outcome.log) = [] := by
    intro ws
    induction ws with
    | nil => rfl
    | cons w ws ih =>
      rw [List.map_cons, List.flatMap_cons, warnings_append, Service.warnings_close, ih]
      rfl
  simp only [Service.clear, Registry.closeAll, warnings_append, hall]
  split <;> rfl

theorem warnings_moveLog (p : Pool Delivery) (m : Move) : warnings (p.moveLog m) = [] := by
  cases m <;> rfl

namespace Ledger

theorem events_accepted (l : Ledger Delivery) :
    ((l.calls.filter fun c => c.2.isOk).map fun c => c.1.event) =
      l.accepted.map Delivery.event := by
  rw [accepted, List.map_map]
  rfl

theorem events_jobs (l : Ledger Delivery) :
    (l.jobs.map fun j => j.task.event) = l.accepted.map Delivery.event := by
  rw [← l.tasks_jobs, List.map_map]
  rfl

end Ledger

/-- The notifier has been called with the events of the jobs that have ended. -/
theorem notified_eq {notices : List (WebhookEvent × Reaction)}
    {ended : List (Job Delivery × Ending)}
    (h : notices.map (fun n => (n.1, n.2.ending)) = ended.map fun x => (x.1.task.event, x.2)) :
    notices.map Prod.fst = (ended.map Prod.fst).map fun j => j.task.event := by
  have hfst := congrArg (List.map Prod.fst) h
  rw [List.map_map, List.map_map] at hfst
  rw [List.map_map]
  exact hfst

namespace ServiceRun

variable {a a' : ServiceRun} {b : Ledger Delivery}

/-- **Pool, notifier and log agree with a ledger of the pool.** -/
structure Delivering (a : ServiceRun) (b : Ledger Delivery) : Prop where
  notifies : a.service.notifies = true
  closing : a.service.pool.Closing
  balanced : a.service.pool.Balanced b
  submitted : b.calls.map (fun x => x.1.event) = created a.calls.reverse
  noticed : a.notices.map (fun n => (n.1, n.2.ending)) =
    b.ended.map fun x => (x.1.task.event, x.2)
  warned : (warnings a.log).Perm
    ((b.calls.flatMap fun x => Service.submitLog x.1.event x.2) ++
      a.notices.flatMap fun n => n.2.log n.1)

theorem delivering_call (h : a.Delivering b) (m : Moment) (c : Call) :
    ∃ b', Delivering
      { a with
        service := (a.service.call m c).state
        calls := (m, c) :: a.calls
        log := a.log ++ (a.service.call m c).log } b' := by
  have hstate := a.service.call_state m c
  have hlog := a.service.warnings_call m c
  have hcreated : created (((m, c) :: a.calls).reverse) =
      created a.calls.reverse ++ (c.notice? m).toList := by
    unfold created
    rw [List.reverse_cons, List.filterMap_append]
    cases hn : c.notice? m <;> simp [hn]
  cases hn : c.notice? m with
  | none =>
    have hd : a.service.delivery? m c = none := by unfold Service.delivery?; rw [hn]; rfl
    rw [hn] at hcreated
    rw [hd] at hlog
    refine ⟨b, ?_, ?_, ?_, ?_, h.noticed, ?_⟩
    · rw [hstate]; exact h.notifies
    · rw [hstate]; simp only [Service.poolAfter, hd]; exact h.closing
    · rw [hstate]; simp only [Service.poolAfter, hd]; exact h.balanced
    · rw [hcreated]; exact h.submitted.trans (List.append_nil _).symm
    · rw [warnings_append, hlog]
      exact (List.Perm.of_eq (List.append_nil _)).trans h.warned
  | some e =>
    have hd : a.service.delivery? m c = some ⟨e, m.token⟩ := by
      unfold Service.delivery?; rw [hn, Option.bind_some, if_pos h.notifies]
    rw [hn] at hcreated
    rw [hd] at hlog
    refine ⟨b.enter ⟨e, m.token⟩ (a.service.pool.submit ⟨e, m.token⟩).2, ?_, ?_, ?_, ?_,
      h.noticed, ?_⟩
    · rw [hstate]; exact h.notifies
    · rw [hstate]; simp only [Service.poolAfter, hd]; exact Pool.closing_submit h.closing _
    · rw [hstate]; simp only [Service.poolAfter, hd]; exact Pool.balanced_submit h.balanced _
    · rw [hcreated]
      simp only [Ledger.enter, List.map_append, h.submitted]
      rfl
    · -- the line about the new event stands last, but among the submit calls
      rw [warnings_append, hlog]
      simp only [Ledger.enter, List.flatMap_append, List.flatMap_cons, List.flatMap_nil,
        List.append_nil, Option.elim_some]
      refine (h.warned.append_right _).trans ?_
      rw [List.append_assoc, List.append_assoc]
      exact List.perm_append_comm.append_left _

/-- A move other than the end of a delivery. -/
theorem delivering_move (h : a.Delivering b) {m : Move} {p : Pool Delivery}
    (hm : ∀ ticket e, m ≠ .finish ticket e) (hp : a.service.pool.move? m = some p) :
    Delivering
      { a with
        service := { a.service with pool := p }
        log := a.log ++ a.service.pool.moveLog m } (b.follow a.service.pool m) := by
  have hcalls := b.calls_follow a.service.pool m
  have hended := b.ended_follow a.service.pool hm
  refine ⟨h.notifies, Pool.closing_move h.closing hp, Pool.balanced_move h.balanced hp, ?_, ?_, ?_⟩
  · rw [hcalls]; exact h.submitted
  · rw [hended]; exact h.noticed
  · rw [hcalls, warnings_append, warnings_moveLog, List.append_nil]
    exact h.warned

theorem delivering_answer (h : a.Delivering b) {j : Job Delivery} (r : Reaction)
    (hj : j ∈ a.service.pool.running)
    (hp : a.service.pool.move? (.finish j.ticket r.ending) =
      some (a.service.pool.finish j.ticket r.ending)) :
    Delivering
      { a with
        service := { a.service with pool := a.service.pool.finish j.ticket r.ending }
        notices := a.notices ++ [(j.task.event, r)]
        log := a.log ++ r.log j.task.event }
      (b.follow a.service.pool (.finish j.ticket r.ending)) := by
  have hended := Pool.ended_finish h.balanced hj r.ending
  refine ⟨h.notifies, Pool.closing_move h.closing hp, Pool.balanced_move h.balanced hp,
    h.submitted, ?_, ?_⟩
  · rw [hended, List.map_append, List.map_append, h.noticed]
    rfl
  · rw [warnings_append, r.warnings_log, List.flatMap_append, ← List.append_assoc]
    refine (h.warned.append_right _).trans (List.Perm.of_eq ?_)
    simp [Ledger.follow]

theorem delivering_step {e : ServiceEvent} (h : ∃ b, a.Delivering b) (hs : a.Stepped e a') :
    ∃ b', a'.Delivering b' := by
  obtain ⟨b, h⟩ := h
  cases hs with
  | call m c => exact delivering_call h m c
  | move m p hm hp => exact ⟨_, delivering_move h hm hp⟩
  | answer j r hj hp => exact ⟨_, delivering_answer h r hj hp⟩
  | shutdown =>
    exact ⟨b, h.notifies, Pool.closing_shutdown h.closing, Pool.balanced_shutdown h.balanced,
      h.submitted, h.noticed, h.warned⟩
  | clear _ =>
    refine ⟨b, h.notifies, h.closing, h.balanced, h.submitted, h.noticed, ?_⟩
    rw [warnings_append, warnings_clear, List.append_nil]
    exact h.warned

theorem delivering_run {analytics : AnalyticsClient} {bounds : PoolConfig}
    {es : List ServiceEvent} (h : (start analytics true bounds).run? es = some a) :
    ∃ b, a.Delivering b := by
  refine invariant_run (∃ b, ·.Delivering b) (fun h _ hs => delivering_step h hs) ?_ h
  exact ⟨{}, rfl, Pool.closing_start bounds, Pool.balanced_start bounds, rfl, rfl, .nil⟩

/-! ## The end of each event -/

/-- The notifier's part of what has become of events. -/
def reactions (ends : List (WebhookEvent × Fate)) : List (WebhookEvent × Reaction) :=
  ends.filterMap fun x => x.2.reaction?.map (x.1, ·)

/-- The warnings that these ends leave. -/
def warningsOf (ends : List (WebhookEvent × Fate)) : List LogLine :=
  ends.filterMap fun x => x.2.warning? x.1

theorem reactions_cons (event : WebhookEvent) (fate : Fate) (ends : List (WebhookEvent × Fate)) :
    reactions ((event, fate) :: ends) =
      (fate.reaction?.map (event, ·)).toList ++ reactions ends := by
  unfold reactions
  rw [List.filterMap_cons]
  cases fate <;> rfl

theorem warningsOf_cons (event : WebhookEvent) (fate : Fate) (ends : List (WebhookEvent × Fate)) :
    warningsOf ((event, fate) :: ends) = (fate.warning? event).toList ++ warningsOf ends := by
  unfold warningsOf
  rw [List.filterMap_cons]
  cases fate <;> rfl

/-- Whether a submit call has been answered well, and what has come of the notifier then, together
make up the end of each event. -/
theorem exists_ends (calls : List (Delivery × Except SubmitError Unit))
    (notices : List (WebhookEvent × Reaction))
    (h : (calls.filter fun c => c.2.isOk).map (fun c => c.1.event) = notices.map Prod.fst) :
    ∃ ends, ends.map Prod.fst = calls.map (fun c => c.1.event) ∧ reactions ends = notices ∧
      ((calls.flatMap fun c => Service.submitLog c.1.event c.2) ++
        notices.flatMap fun n => n.2.log n.1).Perm (warningsOf ends) := by
  -- a good answer is followed by the next notice, a bad one is the end itself
  induction calls generalizing notices with
  | nil =>
    rw [List.filter_nil, List.map_nil, eq_comm, List.map_eq_nil_iff] at h
    subst h
    exact ⟨[], rfl, rfl, .nil⟩
  | cons c calls ih =>
    obtain ⟨d, answer⟩ := c
    cases answer with
    | error e =>
      obtain ⟨ends, hevents, hnotices, hwarnings⟩ := ih notices h
      refine ⟨(d.event, .refused e) :: ends, ?_, hnotices, hwarnings.cons _⟩
      rw [List.map_cons, List.map_cons, hevents]
    | ok u =>
      cases notices with
      | nil => cases h
      | cons n notices =>
        obtain ⟨event, r⟩ := n
        obtain ⟨hevent, hrest⟩ := List.cons.inj h
        obtain ⟨ends, hevents, hnotices, hwarnings⟩ := ih notices hrest
        dsimp only at hevent
        subst hevent
        refine ⟨(d.event, r.fate) :: ends, ?_, ?_, ?_⟩
        · rw [List.map_cons, List.map_cons, hevents]
        · rw [reactions_cons, r.reaction?_fate, hnotices]
          rfl
        · rw [warningsOf_cons, r.warning?_fate, List.flatMap_cons, List.flatMap_cons]
          refine List.Perm.trans ?_ (hwarnings.append_left _)
          rw [← List.append_assoc, ← List.append_assoc]
          exact List.Perm.append_right _ List.perm_append_comm

theorem count_panicked (ends : List (WebhookEvent × Fate)) :
    ((reactions ends).map fun n => n.2.ending).count .panicked =
      (ends.map Prod.snd).count .panicked := by
  induction ends with
  | nil => rfl
  | cons x ends ih =>
    obtain ⟨event, fate⟩ := x
    rw [reactions_cons, List.map_append, List.count_append, ih, List.map_cons, List.count_cons,
      Nat.add_comm]
    cases fate <;> rfl

/-- What is found under the key of an element, if the keys are different. -/
theorem filter_filterMap_eq {α β κ : Type} [DecidableEq κ] (key : α → κ) {xs : List α}
    {f : α → Option β} {q : β → Bool} (hn : (xs.map key).Nodup) {x : α} (hx : x ∈ xs)
    (hq : ∀ y z, f y = some z → q z = decide (key y = key x)) :
    (xs.filterMap f).filter q = (f x).toList := by
  have hone := congrArg (List.filterMap f) (filter_key_eq hn hx)
  rw [List.filterMap_filter] at hone
  rw [List.filter_filterMap]
  have hpointwise : (fun y => (f y).filter q) =
      fun y => if decide (key y = key x) then f y else none := by
    funext y
    cases hy : f y with
    | none => simp
    | some z =>
      rw [Option.filter_some, hq y z hy]
  rw [hpointwise, hone]
  cases hf : f x <;> simp [hf]

/-- **What has become of the events of a run.** -/
structure Settled (es : List ServiceEvent) (a : ServiceRun) (ends : List (WebhookEvent × Fate)) :
    Prop where
  /-- Every call that has a webhook has created one event, which has one end. -/
  events : ends.map Prod.fst = created (es.filterMap ServiceEvent.call?)
  /-- The notifier has been called with those that were not refused, once with each. -/
  notices : a.notices.Perm (reactions ends)
  /-- Each event that failed or was refused has left one warning, and no other has. -/
  warned : (warnings a.log).Perm (warningsOf ends)
  panicked : a.service.pool.stats.panicked = (ends.map Prod.snd).count .panicked
  /-- The same for each event by itself, if their ids are different. -/
  each : (ends.map fun x => x.1.id).Nodup → ∀ x ∈ ends,
    (a.notices.filter fun n => n.1.id = x.1.id) = (x.2.reaction?.map (x.1, ·)).toList ∧
      ((warnings a.log).filter fun l => l.webhookId? = some x.1.id) = (x.2.warning? x.1).toList

/-- A list of at most one element has no other order. -/
theorem eq_toList_of_perm {α : Type} {xs : List α} {o : Option α} (h : xs.Perm o.toList) :
    xs = o.toList := by
  cases o with
  | none => exact List.perm_nil.1 h
  | some x => exact List.perm_singleton.1 h

/-- Under the id of an event there is only what has become of that event. -/
theorem filter_reactions {ends : List (WebhookEvent × Fate)}
    (hn : (ends.map fun x => x.1.id).Nodup) {x : WebhookEvent × Fate} (hx : x ∈ ends) :
    ((reactions ends).filter fun n => n.1.id = x.1.id) =
      (x.2.reaction?.map (x.1, ·)).toList := by
  refine filter_filterMap_eq (fun x => x.1.id) hn hx ?_
  intro y z hz
  rw [Option.map_eq_some_iff] at hz
  obtain ⟨r, -, rfl⟩ := hz
  rfl

theorem filter_warningsOf {ends : List (WebhookEvent × Fate)}
    (hn : (ends.map fun x => x.1.id).Nodup) {x : WebhookEvent × Fate} (hx : x ∈ ends) :
    ((warningsOf ends).filter fun l => l.webhookId? = some x.1.id) =
      (x.2.warning? x.1).toList := by
  refine filter_filterMap_eq (fun x => x.1.id) hn hx ?_
  intro y z hz
  have hid : z.webhookId? = some y.1.id := by
    obtain ⟨event, fate⟩ := y
    cases fate <;> cases hz <;> rfl
  simp [hid]

/-- Once the pool has stopped, the notifier has been called with all events that were accepted. -/
theorem accepted_perm_notices (h : a.Delivering b) (hs : a.service.pool.phase = .stopped) :
    ((b.calls.filter fun c => c.2.isOk).map fun c => c.1.event).Perm
      (a.notices.map Prod.fst) := by
  have hended := (Pool.ended_of_stopped h.closing h.balanced hs).symm
  rw [Ledger.events_accepted, ← Ledger.events_jobs, notified_eq h.noticed]
  exact hended.map _

/-- Once all endings have been collected, the pool has counted the panics of the notifier. -/
theorem panicked_eq (h : a.Delivering b) (hu : a.service.pool.uncollected = []) :
    a.service.pool.stats.panicked = (a.notices.map fun n => n.2.ending).count .panicked := by
  have hcount := h.balanced.panicked
  rw [hu, List.count_nil, Nat.add_zero] at hcount
  have hendings : (a.notices.map fun n => n.2.ending) = b.ended.map Prod.snd := by
    have := congrArg (List.map Prod.snd) h.noticed
    rw [List.map_map, List.map_map] at this
    exact this
  rw [hcount, hendings, Ledger.endedBy, List.length_map, List.count_eq_countP, List.countP_map,
    List.countP_eq_length_filter]
  rfl

/-- **No webhook disappears silently.** In every run of a service with a notifier, whatever the
bounds of its pool are and whatever the notifier does, once the pool has stopped every event that
a call created has met one end: it was delivered, it failed or was refused, with one warning
each, or its delivery panicked and is counted. -/
theorem settled_of_run {analytics : AnalyticsClient} {bounds : PoolConfig}
    {es : List ServiceEvent} (h : (start analytics true bounds).run? es = some a)
    (hs : a.service.pool.phase = .stopped) : ∃ ends, Settled es a ends := by
  obtain ⟨b, hd⟩ := delivering_run h
  -- the notifier's calls, in the order in which their events were accepted
  obtain ⟨notices, hmap, hperm⟩ : ∃ notices : List (WebhookEvent × Reaction),
      ((b.calls.filter fun c => c.2.isOk).map fun c => c.1.event) = notices.map Prod.fst ∧
        notices.Perm a.notices :=
    (congrFun (congrFun (List.eq_map_comp_perm Prod.fst) _) _).mpr (accepted_perm_notices hd hs)
  obtain ⟨ends, hends, hreactions, hwarnings⟩ := exists_ends b.calls notices hmap
  have hnotices : a.notices.Perm (reactions ends) := by
    rw [hreactions]
    exact hperm.symm
  have hwarned : (warnings a.log).Perm (warningsOf ends) := by
    refine hd.warned.trans (List.Perm.trans ?_ hwarnings)
    exact (hperm.symm.flatMap_right _).append_left _
  refine ⟨ends, ?_, hnotices, hwarned, ?_, ?_⟩
  · rw [hends, hd.submitted, calls_run h]
  · rw [panicked_eq hd (Pool.nothing_left hd.closing hs).2.2.2, ← count_panicked]
    exact (hnotices.map _).count_eq _
  · intro hn x hx
    constructor
    · refine eq_toList_of_perm ?_
      rw [← filter_reactions hn hx]
      exact hnotices.filter _
    · refine eq_toList_of_perm ?_
      rw [← filter_warningsOf hn hx]
      exact hwarned.filter _

/-- A run with one worker and one place in the queue. Of five events one fails, one finds the
queue full, one panics, one is delivered and one finds the pool closed. -/
def turmoil : List ServiceEvent :=
  let tick (clock : Int64) (freshId : String) : Moment := { clock, freshId }
  [.call (tick 1 "a") (.roomStarted {}), .call (tick 2 "b") (.roomEnded {}), .move .take,
    .move .start, .call (tick 3 "c") (.participantJoined {} {} none), .move .take,
    .call (tick 4 "d") (.recordingStarted {}), .answer 0 (.returned (.error .cancelled)),
    .call (tick 5 "") (.trackPublished "" {}), .shutdown, .call (tick 6 "e") (.recordingEnded {}),
    .move .start, .answer 1 .panicked, .move .take, .move .start, .move .collect,
    .answer 2 (.returned (.ok ())), .move .collect, .move .drain, .move .collect, .move .exit,
    .move .stop, .clear]

theorem settled_of_turmoil :
    ∃ a, (start .discarding true ⟨1, 1⟩).run? turmoil = some a ∧
      a.service.pool.phase = .stopped ∧ (∃ ends, Settled turmoil a ends) ∧
      a.notices.map (fun n => n.1.id) = ["a", "c", "d"] ∧
      warnings a.log = [.deliveryDropped .roomFinished "b" .queueFull,
        .deliveryFailed .roomStarted "a" .cancelled,
        .deliveryDropped .recordingFinished "e" .closed] ∧
      a.service.pool.stats = ⟨3, 2, 2, 1⟩ := by
  refine ⟨_, rfl, rfl, ?_, rfl, rfl, rfl⟩
  exact @settled_of_run _ .discarding ⟨1, 1⟩ turmoil rfl rfl

end ServiceRun

end RoomWatch
