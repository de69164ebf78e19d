import RoomWatch.Proofs.Pool.Effort
import RoomWatch.Proofs.Service.Front
import RoomWatch.Proofs.Service.Webhooks

/-!
# Shutting a service down

A shutdown call on a service closes the pool to new deliveries, waits until the pool has stopped,
clears the registry and returns. It stops nobody: calls begin and go on all the time, before it
clears the registry and after it.

A run (`Closedown.run?`) is any list of steps of calls, of uses of the registry by others, of moves
of the pool, of deliveries that end and of the two steps of one shutdown call.

* `stepped_of_step?`: what an event needs and what it does.
* `sound_step`: pool, registry, notifier, log and shutdown call fit together after every step.
-/

namespace RoomWatch

/-! ## Dropped deliveries in a log -/

/-- The lines of a log about deliveries that have been dropped. -/
def drops (log : List LogLine) : List LogLine :=
  log.filter fun l => l.message = "Webhook delivery dropped"

theorem drops_append (l k : List LogLine) : drops (l ++ k) = drops l ++ drops k :=
  List.filter_append l k

theorem drops_warnings (log : List LogLine) : drops (warnings log) = drops log := by
  unfold drops warnings
  rw [List.filter_filter]
  refine List.filter_congr fun l _ => ?_
  cases l <;> rfl

theorem drops_eq_nil {log : List LogLine} (h : warnings log = []) : drops log = [] := by
  rw [← drops_warnings, h]
  rfl

theorem drops_submitLog (e : WebhookEvent) (result : Except SubmitError Unit) :
    drops (Service.submitLog e result) = Service.submitLog e result := by
  cases result <;> rfl

theorem Reaction.drops_log (r : Reaction) (e : WebhookEvent) : drops (r.log e) = [] := by
  rcases r with (_ | _) | _ <;> rfl

theorem RegistryOp.warnings_log (s : Service) (op : RegistryOp) :
    warnings (op.log s.registry) = [] := by
  cases op with
  | put id w => exact Service.warnings_put ..
  | removeAndClose id => exact Service.warnings_removeAndClose ..
  | releaseTrack id ssrc => exact Service.warnings_releaseTrack ..
  | closeAll => exact warnings_clear s
  | _ => rfl

/-- Of webhooks, a step of a call logs exactly that a delivery has been refused. -/
theorem Service.warnings_atom (s : Service) (x : Account) (t : Atom) :
    warnings (s.atom x t).log =
      (x.creation? s t).elim [] fun d => submitLog d.event (s.pool.submit d).2 := by
  cases t with
  | consult => exact warnings_consult ..
  | add d => rfl
  | send => exact warnings_part_send ..
  | report => exact warnings_line ..
  | notify =>
    refine (congrArg (fun o => warnings (Outcome.log o)) (part_notify ..)).trans ?_
    unfold Account.creation?
    cases s.delivery? x.moment x.call with
    | none => rfl
    | some d => exact warnings_submitLog ..

/-! ## Closed workers in a log -/

theorem Reaction.closedIn_log (r : Reaction) (e : WebhookEvent) : closedIn (r.log e) = [] := by
  rcases r with (_ | _) | _ <;> rfl

theorem closedIn_moveLog (p : Pool Delivery) (m : Move) : closedIn (p.moveLog m) = [] := by
  cases m <;> rfl

/-- Of workers, a step of a call logs what its operation on the registry logs. -/
theorem Service.closedIn_atom (s : Service) (x : Account) (t : Atom) :
    closedIn (s.atom x t).log = (x.op? t).elim [] fun op => closedIn (op.log s.registry) := by
  cases t with
  | consult =>
    refine (congrArg closedIn (x.call.log_consult s.registry)).trans ?_
    unfold Account.op?
    cases x.call.op? <;> rfl
  | add d => rfl
  | send =>
    have hnone : closingsIn (s.atom x .send).log = [] := by
      refine List.filterMap_eq_nil_iff.2 fun l hl => ?_
      obtain ⟨kind, rfl | rfl⟩ := mem_log_send s x.moment x.call x.seen hl <;> rfl
    exact congrArg (List.map _) hnone
  | report =>
    show closedIn (x.call.line? x.seen).toList = []
    cases x.call with
    | trackBufferOpened id ssrc track =>
      simp only [Call.line?]
      split <;> rfl
    | _ => rfl
  | notify =>
    refine (congrArg (fun o => closedIn (Outcome.log o)) (part_notify ..)).trans ?_
    cases s.delivery? x.moment x.call with
    | none => rfl
    | some d => cases hd : (s.pool.submit d).2 <;> simp only [Option.elim_some, hd] <;> rfl

/-! ## Pools -/

/-- What every step of a pool keeps. -/
structure Pool.Steady {τ : Type} (p : Pool τ) (l : Ledger τ) : Prop where
  closing : p.Closing
  balanced : p.Balanced l
  permitted : p.Permitted

namespace Pool

variable {τ : Type} {p q : Pool τ} {l : Ledger τ}

theorem steady_start (bounds : PoolConfig) : (start bounds : Pool τ).Steady {} :=
  ⟨closing_start bounds, balanced_start bounds, permitted_start bounds⟩

theorem steady_submit (h : p.Steady l) (t : τ) :
    (p.submit t).1.Steady (l.enter t (p.submit t).2) :=
  ⟨closing_submit h.closing t, balanced_submit h.balanced t, permitted_submit h.permitted t⟩

theorem steady_shutdown (h : p.Steady l) : p.shutdown.Steady l :=
  ⟨closing_shutdown h.closing, balanced_shutdown h.balanced, permitted_shutdown h.permitted⟩

theorem steady_move (h : p.Steady l) {m : Move} (hm : p.move? m = some q) :
    q.Steady (l.follow p m) :=
  ⟨closing_move h.closing hm, balanced_move h.balanced hm, permitted_move h.permitted h.balanced hm⟩

end Pool

/-! ## Runs -/

/-- How far the shutdown call of a service has got. -/
inductive Stage where
  | uncalled
  /-- It waits until the pool has stopped. -/
  | waiting
  /-- It has cleared the registry and returned. -/
  | returned
  deriving DecidableEq

/-- A service that may be shut down, with all that is seen of it. -/
structure Closedown where
  front : Front
  ledger : Ledger Delivery := {}
  /-- The events with which the notifier has been called, and what came of it. -/
  notices : List (WebhookEvent × Reaction) := []
  log : List LogLine := []
  stage : Stage := .uncalled
  /-- The workers that the shutdown call has closed, as they were after that. -/
  cleared : List Worker := []

/-- Something that happens to a service that may be shut down. -/
inductive ClosedownEvent where
  | front (e : FrontEvent)
  /-- The pool makes a move, but not the end of a delivery. -/
  | move (m : Move)
  /-- The notifier has been called by a running delivery, which ends with that. -/
  | answer (ticket : Nat) (r : Reaction)
  /-- The shutdown call begins. -/
  | shutdown
  /-- The shutdown call clears the registry and returns. -/
  | clear

namespace Closedown

variable {a b : Closedown} {e : ClosedownEvent} {es : List ClosedownEvent}

def pool (a : Closedown) : Pool Delivery := a.front.pool

/-- A service that has just been built, before any call. -/
def start (s : Service) : Closedown := { front := { crowd := .start s } }

/-- The service after a call has made a step. -/
def make (a : Closedown) (i : Nat) (x : Account) (t : Atom) (left : List Atom) : Closedown :=
  { a with
    front := a.front.make i x t left
    ledger := (x.creation? a.front.service t).elim a.ledger fun d =>
      a.ledger.enter d (a.pool.submit d).2
    log := a.log ++ (a.front.service.atom x t).log }

/-- The service after something has happened; none if that is not possible. -/
def step? (a : Closedown) : ClosedownEvent → Option Closedown
  | .front (.begin m c) => some { a with front := a.front.enter m c }
  | .front (.act i) =>
    match a.front.crowd.activities[i]? with
    | some ⟨x, t :: left⟩ => some (a.make i x t left)
    | _ => none
  | .front (.use op) => some
    { a with front := a.front.use op, log := a.log ++ op.log a.front.service.registry }
  | .move (.finish _ _) => none
  | .move m => (a.pool.move? m).map fun p =>
    { a with
      front := a.front.withPool p
      ledger := a.ledger.follow a.pool m
      log := a.log ++ a.pool.moveLog m }
  | .answer ticket r =>
    (a.pool.running.find? fun j => j.ticket = ticket).bind fun j =>
      (a.pool.move? (.finish ticket r.ending)).map fun p =>
        { a with
          front := a.front.withPool p
          ledger := a.ledger.follow a.pool (.finish ticket r.ending)
          notices := a.notices ++ [(j.task.event, r)]
          log := a.log ++ r.log j.task.event }
  | .shutdown =>
    if a.stage = .uncalled then
      some { a with front := a.front.withPool a.pool.shutdown, stage := .waiting }
    else none
  | .clear =>
    if a.stage = .waiting ∧ a.pool.phase = .stopped then
      some
        { a with
          front := a.front.clear
          log := a.log ++ a.front.service.clear.log
          stage := .returned
          cleared := a.front.service.clear.result }
    else none

/-- The service after a run; none if something in it is not possible. -/
def run? (a : Closedown) (es : List ClosedownEvent) : Option Closedown := es.foldlM step? a

theorem run?_cons (a : Closedown) (e : ClosedownEvent) (es : List ClosedownEvent) :
    a.run? (e :: es) = (a.step? e).bind fun b => b.run? es := rfl

theorem run?_append (a : Closedown) (es fs : List ClosedownEvent) :
    a.run? (es ++ fs) = (a.run? es).bind fun b => b.run? fs := List.foldlM_append

/-- What an event needs and what it does. -/
inductive Stepped (a : Closedown) : ClosedownEvent → Closedown → Prop where
  | begin (m : Moment) (c : Call) :
      Stepped a (.front (.begin m c)) { a with front := a.front.enter m c }
  | act (i : Nat) (x : Account) (t : Atom) (left : List Atom)
      (next : a.front.crowd.activities[i]? = some ⟨x, t :: left⟩) :
      Stepped a (.front (.act i)) (a.make i x t left)
  | use (op : RegistryOp) : Stepped a (.front (.use op))
      { a with front := a.front.use op, log := a.log ++ op.log a.front.service.registry }
  | move (m : Move) (p : Pool Delivery) (inner : ∀ ticket e, m ≠ .finish ticket e)
      (moves : a.pool.move? m = some p) : Stepped a (.move m)
      { a with
        front := a.front.withPool p
        ledger := a.ledger.follow a.pool m
        log := a.log ++ a.pool.moveLog m }
  | answer (j : Job Delivery) (r : Reaction) (runs : j ∈ a.pool.running)
      (moves : a.pool.move? (.finish j.ticket r.ending) =
        some (a.pool.finish j.ticket r.ending)) :
      Stepped a (.answer j.ticket r)
      { a with
        front := a.front.withPool (a.pool.finish j.ticket r.ending)
        ledger := a.ledger.follow a.pool (.finish j.ticket r.ending)
        notices := a.notices ++ [(j.task.event, r)]
        log := a.log ++ r.log j.task.event }
  | shutdown (uncalled : a.stage = .uncalled) : Stepped a .shutdown
      { a with front := a.front.withPool a.pool.shutdown, stage := .waiting }
  | clear (waiting : a.stage = .waiting) (stopped : a.pool.phase = .stopped) :
      Stepped a .clear
      { a with
        front := a.front.clear
        log := a.log ++ a.front.service.clear.log
        stage := .returned
        cleared := a.front.service.clear.result }

/-- **Inversion of steps.** -/
theorem stepped_of_step? (h : a.step? e = some b) : a.Stepped e b := by
  cases e with
  | front e =>
    cases e with
    | begin m c => cases h; exact .begin m c
    | use op => cases h; exact .use op
    | act i =>
      simp only [step?] at h
      split at h
      · next x t left hx => cases h; exact .act i x t left hx
      · cases h
  | move m =>
    cases m with
    -- a delivery ends only by an answer of the notifier
    | finish ticket e => cases h
    | _ =>
      obtain ⟨p, hp, rfl⟩ := Option.map_eq_some_iff.1 h
      exact .move _ p nofun hp
  | answer ticket r =>
    obtain ⟨j, hj, h⟩ := Option.bind_eq_some_iff.1 h
    obtain ⟨p, hp, rfl⟩ := Option.map_eq_some_iff.1 h
    obtain ⟨hmem, rfl, rfl⟩ := Pool.finish_of_find? hj hp
    exact .answer j r hmem hp
  | shutdown =>
    obtain ⟨hs, h⟩ := Option.ite_none_right_eq_some.1 h
    cases h
    exact .shutdown hs
  | clear =>
    obtain ⟨⟨hs, hp⟩, h⟩ := Option.ite_none_right_eq_some.1 h
    cases h
    exact .clear hs hp

/-- What every step keeps holds after every run. -/
theorem run_induction {P : Closedown → Prop}
    (hstep : ∀ {a b : Closedown} {e}, P a → a.Stepped e b → P b) (h : P a)
    (hr : a.run? es = some b) : P b :=
  foldlM_induction hr h fun _ _ _ h he => hstep h (stepped_of_step? he)

/-! ## What every step keeps -/

/-- **Everything fits together**, on a service that has started as the given one. -/
structure Sound (s : Service) (a : Closedown) : Prop where
  pool : a.pool.Steady a.ledger
  bounds : a.pool.bounds = s.pool.bounds
  uncalled : a.stage = .uncalled ↔ a.pool.phase = .accepting
  returned : a.stage = .returned → a.pool.phase = .stopped
  recorded : a.front.Recorded
  filing : Front.Filing s a.front
  submitted : a.ledger.calls.map Prod.fst = a.front.created s
  noticed : a.notices.map (fun n => (n.1, n.2.ending)) =
    a.ledger.ended.map fun x => (x.1.task.event, x.2)
  dropped : drops a.log = a.ledger.calls.flatMap fun c => Service.submitLog c.1.event c.2
  told : Tells a.log a.front.ops

variable {s : Service}

theorem sound_start (analytics : AnalyticsClient) (notifies : Bool) (bounds : PoolConfig) :
    Sound (.start analytics notifies bounds) (start (.start analytics notifies bounds)) where
  pool := Pool.steady_start bounds
  bounds := rfl
  uncalled := ⟨fun _ => rfl, fun _ => rfl⟩
  returned := nofun
  recorded := ⟨rfl, .slnil⟩
  filing := ⟨rfl, fun _ hx => absurd hx List.not_mem_nil⟩
  submitted := rfl
  noticed := rfl
  dropped := rfl
  told := fun _ => rfl

theorem sound_begin (h : Sound s a) (m : Moment) (c : Call) :
    Sound s { a with front := a.front.enter m c } where
  pool := h.pool
  bounds := h.bounds
  uncalled := h.uncalled
  returned := h.returned
  recorded := Front.recorded_step h.recorded (.begin m c)
  filing := Front.filing_step h.filing (.begin m c)
  submitted := h.submitted
  noticed := h.noticed
  dropped := h.dropped
  told := h.told

theorem sound_use (h : Sound s a) (op : RegistryOp) :
    Sound s { a with
      front := a.front.use op, log := a.log ++ op.log a.front.service.registry } where
  pool := h.pool
  bounds := h.bounds
  uncalled := h.uncalled
  returned := h.returned
  recorded := Front.recorded_step h.recorded (.use op)
  filing := Front.filing_step h.filing (.use op)
  submitted := h.submitted
  noticed := h.noticed
  dropped := by
    rw [drops_append, drops_eq_nil (op.warnings_log a.front.service), List.append_nil]
    exact h.dropped
  told := h.told.concat (by rw [← h.recorded.registry])

/-- What a step of a call does to the pool and its ledger. -/
theorem pool_make (a : Closedown) (i : Nat) (x : Account) (t : Atom) (left : List Atom) :
    (a.make i x t left).pool =
      (x.creation? a.front.service t).elim a.pool fun d => (a.pool.submit d).1 :=
  congrArg Service.pool (a.front.service.atom_state x t)

theorem phase_make (a : Closedown) (i : Nat) (x : Account) (t : Atom) (left : List Atom) :
    (a.make i x t left).pool.phase = a.pool.phase := by
  rw [pool_make]
  cases x.creation? a.front.service t with
  | none => rfl
  | some d => exact Pool.phase_submit ..

theorem told_make (h : Sound s a) (x : Account) (t : Atom) :
    Tells (a.log ++ (a.front.service.atom x t).log) (a.front.ops ++ (x.op? t).toList) := by
  have hatom := a.front.service.closedIn_atom x t
  cases hop : x.op? t with
  | none =>
    rw [hop] at hatom
    rw [Option.toList_none, List.append_nil]
    exact h.told.append_quiet hatom
  | some op =>
    rw [hop, Option.elim_some, h.recorded.registry] at hatom
    exact h.told.concat hatom

theorem sound_make (h : Sound s a) {i : Nat} {x : Account} {t : Atom} {left : List Atom}
    (hx : a.front.crowd.activities[i]? = some ⟨x, t :: left⟩) : Sound s (a.make i x t left) := by
  -- whether a service notifies never changes, and nothing else of it matters here
  have hcreation : x.creation? a.front.service = x.creation? s :=
    congrFun (Account.creation?_congr h.filing.notifies) x
  have hcreated : (a.front.make i x t left).created s =
      a.front.created s ++ (x.creation? s t).toList := Crowd.filterMap_make _ i x t left
  have hpool := pool_make a i x t left
  have hphase := phase_make a i x t left
  have hlog : drops (a.make i x t left).log = drops a.log ++
      (x.creation? s t).elim [] fun d => Service.submitLog d.event (a.pool.submit d).2 := by
    refine (drops_append ..).trans ?_
    rw [← drops_warnings (a.front.service.atom x t).log, Service.warnings_atom, hcreation]
    cases x.creation? s t with
    | none => rfl
    | some d => exact congrArg _ (drops_submitLog ..)
  have hledger : (a.make i x t left).ledger =
      (x.creation? s t).elim a.ledger fun d => a.ledger.enter d (a.pool.submit d).2 := by
    rw [← hcreation]
    rfl
  rw [hcreation] at hpool
  refine ⟨?_, ?_, ?_, ?_, Front.recorded_step h.recorded (.act i x t left hx),
    Front.filing_step h.filing (.act i x t left hx), ?_, ?_, ?_, told_make h x t⟩
  · rw [hpool, hledger]
    cases x.creation? s t with
    | none => exact h.pool
    | some d => exact Pool.steady_submit h.pool d
  · rw [hpool]
    cases x.creation? s t with
    | none => exact h.bounds
    | some d => exact (Pool.bounds_submit ..).trans h.bounds
  · rw [hphase]
    exact h.uncalled
  · rw [hphase]
    exact h.returned
  · refine Eq.trans ?_ hcreated.symm
    rw [hledger, ← h.submitted]
    cases x.creation? s t with
    | none => exact (List.append_nil _).symm
    | some d => exact List.map_append
  · rw [hledger]
    refine h.noticed.trans ?_
    cases x.creation? s t <;> rfl
  · rw [hlog, hledger, h.dropped]
    cases x.creation? s t with
    | none => exact List.append_nil _
    | some d => simp [Ledger.enter]

theorem sound_move (h : Sound s a) {m : Move} {p : Pool Delivery}
    (hm : ∀ ticket e, m ≠ .finish ticket e) (hp : a.pool.move? m = some p) :
    Sound s { a with
      front := a.front.withPool p
      ledger := a.ledger.follow a.pool m
      log := a.log ++ a.pool.moveLog m } := by
  have hcalls := a.ledger.calls_follow a.pool m
  have hended := a.ledger.ended_follow a.pool hm
  refine ⟨Pool.steady_move h.pool hp, (Pool.bounds_move hp).trans h.bounds, ?_, ?_,
    Front.recorded_withPool h.recorded p, Front.filing_withPool h.filing p, ?_, ?_, ?_,
    h.told.append_quiet (closedIn_moveLog a.pool m)⟩
  · refine h.uncalled.trans ⟨fun ha => Pool.accepting_move ha hp, fun ha => ?_⟩
    -- a pool that accepts after a move has accepted before
    by_cases hs : m = .stop
    · subst hs
      cases Pool.moved_of_move? hp with
      | stop _ _ => cases ha
    · exact (Pool.phase_move hs hp).symm.trans ha
  · intro hr
    exact absurd hp (Pool.no_move_of_stopped h.pool.closing (h.returned hr) m)
  · rw [hcalls]
    exact h.submitted
  · rw [hended]
    exact h.noticed
  · rw [hcalls, drops_append, drops_eq_nil (warnings_moveLog a.pool m), List.append_nil]
    exact h.dropped

theorem sound_answer (h : Sound s a) {j : Job Delivery} (r : Reaction) (hj : j ∈ a.pool.running)
    (hp : a.pool.move? (.finish j.ticket r.ending) = some (a.pool.finish j.ticket r.ending)) :
    Sound s { a with
      front := a.front.withPool (a.pool.finish j.ticket r.ending)
      ledger := a.ledger.follow a.pool (.finish j.ticket r.ending)
      notices := a.notices ++ [(j.task.event, r)]
      log := a.log ++ r.log j.task.event } := by
  have hended := Pool.ended_finish h.pool.balanced hj r.ending
  have hphase := Pool.phase_finish a.pool j.ticket r.ending
  refine ⟨Pool.steady_move h.pool hp, (Pool.bounds_move hp).trans h.bounds, ?_, ?_,
    Front.recorded_withPool h.recorded _, Front.filing_withPool h.filing _, h.submitted, ?_, ?_,
    h.told.append_quiet (r.closedIn_log j.task.event)⟩
  · refine h.uncalled.trans ?_
    rw [← hphase]
    rfl
  · intro hr
    exact hphase.trans (h.returned hr)
  · rw [hended, List.map_append, List.map_append, h.noticed]
    rfl
  · rw [drops_append, r.drops_log, List.append_nil]
    exact h.dropped

theorem sound_shutdown (h : Sound s a) :
    Sound s { a with front := a.front.withPool a.pool.shutdown, stage := .waiting } where
  pool := Pool.steady_shutdown h.pool
  bounds := (Pool.bounds_shutdown _).trans h.bounds
  uncalled := ⟨nofun, fun hp => absurd hp (Pool.not_accepting_shutdown _)⟩
  returned := nofun
  recorded := Front.recorded_withPool h.recorded _
  filing := Front.filing_withPool h.filing _
  submitted := h.submitted
  noticed := h.noticed
  dropped := h.dropped
  told := h.told

theorem sound_clear (h : Sound s a) (hs : a.pool.phase = .stopped) :
    Sound s { a with
      front := a.front.clear
      log := a.log ++ a.front.service.clear.log
      stage := .returned
      cleared := a.front.service.clear.result } where
  pool := h.pool
  bounds := h.bounds
  uncalled := ⟨nofun, fun hp => absurd (hs.symm.trans hp) nofun⟩
  returned := fun _ => hs
  recorded := a.front.clear_eq ▸ Front.recorded_step h.recorded (.use .closeAll)
  filing := a.front.clear_eq ▸ Front.filing_step h.filing (.use .closeAll)
  submitted := h.submitted
  noticed := h.noticed
  dropped := by
    rw [drops_append, drops_eq_nil (warnings_clear a.front.service), List.append_nil]
    exact h.dropped
  told := by
    have hclear : a.front.service.clear.log = RegistryOp.log a.front.service.registry .closeAll :=
      rfl
    rw [hclear, h.recorded.registry]
    exact h.told.concat rfl

/-- **Every step keeps everything together.** -/
theorem sound_step (h : Sound s a) (he : a.Stepped e b) : Sound s b := by
  cases he with
  | begin m c => exact sound_begin h m c
  | act i x t left hx => exact sound_make h hx
  | use op => exact sound_use h op
  | move m p hm hp => exact sound_move h hm hp
  | answer j r hj hp => exact sound_answer h r hj hp
  | shutdown _ => exact sound_shutdown h
  | clear _ hs => exact sound_clear h hs

theorem sound_run (h : Sound s a) (hr : a.run? es = some b) : Sound s b :=
  run_induction sound_step h hr

end Closedown

end RoomWatch
