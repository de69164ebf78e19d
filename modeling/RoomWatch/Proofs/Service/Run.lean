import RoomWatch.Proofs.Pool.Closing
import RoomWatch.Proofs.Service.Sinks

/-!
# Runs of a service

In a run, calls on a service alternate in any order with moves of its pool and with deliveries
that end. What the notifier does with an event is not laid down (`Reaction`). A `ServiceRun`
keeps what the service itself forgets: the calls, what the notifier was called with, and the log.

* `ServiceRun.invariant_run`: what every step keeps holds after every run.
-/

namespace RoomWatch

/-- What comes of calling the notifier with an event. -/
inductive Reaction where
  | returned (result : Except NotifyError Unit)
  | panicked

def Reaction.ending : Reaction → Ending
  | .returned _ => .completed
  | .panicked => .panicked

/-- What is logged about a delivery that ends in this way. -/
def Reaction.log (e : WebhookEvent) : Reaction → List LogLine
  | .returned result => Service.deliveryLog e result
  | .panicked => []

/-- Something that happens to a service. -/
inductive ServiceEvent where
  | call (m : Moment) (c : Call)
  /-- The pool makes a move, but not the end of a delivery. -/
  | move (m : Move)
  /-- The notifier has been called by a running delivery, which ends with that. -/
  | answer (ticket : Nat) (r : Reaction)
  /-- A shutdown call begins. -/
  | shutdown
  /-- A shutdown call goes on once the pool lets it. -/
  | clear

/-- The call that happens. -/
def ServiceEvent.call? : ServiceEvent → Option (Moment × Call)
  | .call m c => some (m, c)
  | .move _ | .answer _ _ | .shutdown | .clear => none

/-- A service in the course of a run. -/
structure ServiceRun where
  service : Service
  /-- The calls, the latest first. -/
  calls : List (Moment × Call) := []
  /-- The events with which the notifier has been called, and what came of it. -/
  notices : List (WebhookEvent × Reaction) := []
  log : List LogLine := []

/-- A service that has just been built, in front of the given client. -/
def Service.start (analytics : AnalyticsClient) (notifies : Bool) (bounds : PoolConfig) : Service :=
  { analytics, notifies, pool := .start bounds }

/-- A call does not close the pool. -/
theorem Service.accepting_call {s : Service} (h : s.pool.phase = .accepting) (m : Moment)
    (c : Call) : (s.call m c).state.pool.phase = .accepting := by
  rw [s.call_state m c]
  simp only [poolAfter]
  cases s.delivery? m c with
  | none => exact h
  | some d => exact Pool.accepting_submit h d

namespace ServiceRun

/-- The run after something has happened; none if that is not possible. -/
def step? (a : ServiceRun) : ServiceEvent → Option ServiceRun
  | .call m c => some
    { a with
      service := (a.service.call m c).state
      calls := (m, c) :: a.calls
      log := a.log ++ (a.service.call m c).log }
  | .move (.finish _ _) => none
  | .move m => (a.service.pool.move? m).map fun p =>
    { a with
      service := { a.service with pool := p }
      log := a.log ++ a.service.pool.moveLog m }
  | .answer ticket r =>
    (a.service.pool.running.find? fun j => j.ticket = ticket).bind fun j =>
      (a.service.pool.move? (.finish ticket r.ending)).map fun p =>
        { a with
          service := { a.service with pool := p }
          notices := a.notices ++ [(j.task.event, r)]
          log := a.log ++ r.log j.task.event }
  | .shutdown => some { a with service := { a.service with pool := a.service.pool.shutdown } }
  | .clear =>
    if a.service.pool.phase = .accepting then none
    else some { a with service := a.service.clear.state, log := a.log ++ a.service.clear.log }

/-- The run after a list of events; none if one of them is not possible. -/
def run? (a : ServiceRun) (es : List ServiceEvent) : Option ServiceRun := es.foldlM step? a

/-- A service that has just been built, in front of the given client. -/
def start (analytics : AnalyticsClient) (notifies : Bool) (bounds : PoolConfig) : ServiceRun :=
  { service := .start analytics notifies bounds }

variable {a a' : ServiceRun}

/-- What an event needs and what it does. -/
inductive Stepped (a : ServiceRun) : ServiceEvent → ServiceRun → Prop where
  | call (m : Moment) (c : Call) : Stepped a (.call m c)
      { a with
        service := (a.service.call m c).state
        calls := (m, c) :: a.calls
        log := a.log ++ (a.service.call m c).log }
  | move (m : Move) (p : Pool Delivery) (inner : ∀ ticket e, m ≠ .finish ticket e)
      (moves : a.service.pool.move? m = some p) : Stepped a (.move m)
      { a with
        service := { a.service with pool := p }
        log := a.log ++ a.service.pool.moveLog m }
  | answer (j : Job Delivery) (r : Reaction) (runs : j ∈ a.service.pool.running)
      (moves : a.service.pool.move? (.finish j.ticket r.ending) =
        some (a.service.pool.finish j.ticket r.ending)) :
      Stepped a (.answer j.ticket r)
      { a with
        service := { a.service with pool := a.service.pool.finish j.ticket r.ending }
        notices := a.notices ++ [(j.task.event, r)]
        log := a.log ++ r.log j.task.event }
  | shutdown : Stepped a .shutdown
      { a with service := { a.service with pool := a.service.pool.shutdown } }
  | clear (closed : a.service.pool.phase ≠ .accepting) : Stepped a .clear
      { a with service := a.service.clear.state, log := a.log ++ a.service.clear.log }

/-- **Inversion of steps.** -/
theorem stepped_of_step? {e : ServiceEvent} (h : a.step? e = some a') : a.Stepped e a' := by
  cases e with
  | call m c => cases h; exact .call m c
  | move m =>
    cases m with
    | finish ticket e => cases h
    | _ =>
      simp only [step?, Option.map_eq_some_iff] at h
      obtain ⟨p, hp, rfl⟩ := h
      exact .move _ p nofun hp
  | answer ticket r =>
    simp only [step?, Option.bind_eq_some_iff, Option.map_eq_some_iff] at h
    obtain ⟨j, hj, p, hp, rfl⟩ := h
    obtain ⟨hmem, rfl, rfl⟩ := Pool.finish_of_find? hj hp
    exact .answer j r hmem hp
  | shutdown => cases h; exact .shutdown
  | clear =>
    simp only [step?] at h
    split at h
    · cases h
    · next hp => cases h; exact .clear hp

theorem calls_of_stepped {e : ServiceEvent} (h : a.Stepped e a') :
    a'.calls = e.call?.toList ++ a.calls := by
  cases h <;> rfl

theorem calls_append_of_run {es : List ServiceEvent} (h : a.run? es = some a') :
    a'.calls.reverse = a.calls.reverse ++ es.filterMap ServiceEvent.call? := by
  induction es generalizing a with
  | nil => cases h; exact (List.append_nil _).symm
  | cons e es ih =>
    simp only [run?, List.foldlM_cons, Option.bind_eq_bind, Option.bind_eq_some_iff] at h
    obtain ⟨a₁, h₁, h⟩ := h
    rw [ih h, calls_of_stepped (stepped_of_step? h₁), List.reverse_append, List.append_assoc,
      List.filterMap_cons]
    cases e.call? <;> rfl

/-- The calls are those of the run, the latest first. -/
theorem calls_run {analytics : AnalyticsClient} {notifies : Bool} {bounds : PoolConfig}
    {es : List ServiceEvent} (h : (start analytics notifies bounds).run? es = some a) :
    a.calls.reverse = es.filterMap ServiceEvent.call? := calls_append_of_run h

/-- **What every step keeps holds after every run.** -/
theorem invariant_run (P : ServiceRun → Prop) {es : List ServiceEvent}
    (hstep : ∀ {a a' e}, P a → e ∈ es → a.Stepped e a' → P a') (h : P a)
    (hr : a.run? es = some a') : P a' := by
  induction es generalizing a with
  | nil => cases hr; exact h
  | cons e es ih =>
    simp only [run?, List.foldlM_cons, Option.bind_eq_bind, Option.bind_eq_some_iff] at hr
    obtain ⟨a₁, h₁, hr⟩ := hr
    have hfirst := hstep h List.mem_cons_self (stepped_of_step? h₁)
    exact ih (fun h he => hstep h (List.mem_cons_of_mem _ he)) hfirst hr

end ServiceRun

end RoomWatch
