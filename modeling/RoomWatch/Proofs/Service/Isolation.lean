import RoomWatch.Proofs.Service.Crowd
import RoomWatch.Proofs.Service.Run

/-!
# Webhooks do not interfere

Whether webhooks are enabled, what the pool is like, how deliveries end and when the pool makes
progress: none of this can be seen in the counters, in the registry, by the analytics client or by
the callers.

* `Crowd.quiet`: a crowd without everything that has to do with webhooks.
* `quiet_step`: what happens aside cannot be seen in it, and steps of calls are steps in it.
* `isolated_of_runs`: **two services that differ only in their webhooks cannot be told apart** by
  the same calls, and no call needs the pool in order to finish.
-/

namespace RoomWatch

def Activity.anonymous (x : Activity) : Activity := { x with moment := x.moment.anonymous }

/-- The part of an event that has nothing to do with webhooks. -/
def CrowdEvent.front? : CrowdEvent → Option CrowdEvent
  | .begin m c => some (.begin m.anonymous c)
  | .act i => some (.act i)
  | .aside _ => none

namespace Service

/-- The service without webhooks. -/
def quiet (s : Service) : Service := { s with notifies := false, pool := .start {} }

theorem quiet_atom (s : Service) (x : Account) (t : Atom) :
    (s.atom x t).state.quiet = (s.quiet.atom x.anonymous t).state := by
  have hcreation : x.anonymous.creation? s.quiet t = none := by
    cases t with
    | notify =>
      unfold Account.creation? delivery?
      cases Call.notice? x.anonymous.moment x.anonymous.call <;> rfl
    | _ => rfl
  rw [atom_state, atom_state, hcreation]
  cases t <;> rfl

theorem quiet_account (s : Service) (x : Account) (t : Atom) :
    (s.account x t).anonymous = s.quiet.account x.anonymous t := by
  unfold account
  rw [atom_result, atom_result]
  cases t <;> rfl

/-- A step of a call does not touch the tasks that the pool has started. -/
theorem running_atom (s : Service) (x : Account) (t : Atom) :
    (s.atom x t).state.pool.dispatcher = s.pool.dispatcher ∧
      (s.atom x t).state.pool.running = s.pool.running ∧
      (s.atom x t).state.pool.uncollected = s.pool.uncollected := by
  rw [atom_state]
  cases x.creation? s t with
  | none => exact ⟨rfl, rfl, rfl⟩
  | some d =>
    simp only [Option.elim_some, Pool.submit_eq]
    split <;> exact ⟨rfl, rfl, rfl⟩

theorem running_runAtoms (s : Service) (x : Account) (ts : List Atom) :
    (s.runAtoms x ts).1.pool.dispatcher = s.pool.dispatcher ∧
      (s.runAtoms x ts).1.pool.running = s.pool.running ∧
      (s.runAtoms x ts).1.pool.uncollected = s.pool.uncollected := by
  induction ts generalizing s x with
  | nil => exact ⟨rfl, rfl, rfl⟩
  | cons t ts ih =>
    obtain ⟨hd, hr, hu⟩ := s.running_atom x t
    obtain ⟨hd', hr', hu'⟩ := ih (s.atom x t).state (s.account x t)
    exact ⟨hd'.trans hd, hr'.trans hr, hu'.trans hu⟩

end Service

namespace Crowd

variable {a b : Crowd} {e : CrowdEvent} {es fs : List CrowdEvent}

/-- The crowd without everything that has to do with webhooks. -/
def quiet (a : Crowd) : Crowd where
  service := a.service.quiet
  activities := a.activities.map Activity.anonymous
  steps := a.steps.map fun s => (s.1.anonymous, s.2)

/-- What callers have been answered so far: for each call that has finished, its answer. -/
def answers (a : Crowd) : List (Option (Option Bool)) :=
  a.activities.map fun x => if x.left.isEmpty then some (x.call.answer? x.seen) else none

theorem handed_quiet (a : Crowd) : a.quiet.handed = a.handed := by
  unfold handed quiet
  rw [List.filterMap_map]
  congr 1

theorem answers_quiet (a : Crowd) : a.quiet.answers = a.answers := List.map_map

theorem quiet_enter (a : Crowd) (m : Moment) (c : Call) :
    (a.enter m c).quiet = a.quiet.enter m.anonymous c := by
  simp only [quiet, enter, List.map_append]
  rfl

theorem quiet_make (a : Crowd) (i : Nat) (x : Account) (t : Atom) (left : List Atom) :
    (a.make i x t left).quiet = a.quiet.make i x.anonymous t left := by
  simp only [quiet, make, Service.quiet_atom, ← Service.quiet_account, List.map_append,
    List.map_set]
  rfl

/-- **A step aside cannot be seen, and any other step is one without webhooks as well.** -/
theorem quiet_step (he : a.step? e = some b) :
    e.front?.elim (some a.quiet) a.quiet.step? = some b.quiet := by
  cases stepped_of_step? he with
  | begin m c => exact congrArg some (quiet_enter a m c).symm
  | act i x t left hx =>
    have hx' : a.quiet.activities[i]? = some ⟨x.anonymous, t :: left⟩ := by
      simp only [quiet, List.getElem?_map, hx]
      rfl
    simp only [CrowdEvent.front?, Option.elim_some, step?, hx', quiet_make]
  | aside e p => rfl

theorem quiet_run (hr : a.run? es = some b) :
    a.quiet.run? (es.filterMap CrowdEvent.front?) = some b.quiet :=
  foldlM_view quiet hr fun _ _ _ => quiet_step

/-- Every call that has begun can finish by its own steps, and for that neither the dispatcher nor
a task of the pool has to do anything. -/
def Unhindered (a : Crowd) : Prop :=
  ∀ i x, a.activities[i]? = some x →
    ∃ b, a.run? (List.replicate x.left.length (.act i)) = some b ∧
      b.activities[i]?.map Activity.left = some [] ∧
      b.service.pool.dispatcher = a.service.pool.dispatcher ∧
      b.service.pool.running = a.service.pool.running ∧
      b.service.pool.uncollected = a.service.pool.uncollected

theorem unhindered (a : Crowd) : a.Unhindered := by
  intro i x hx
  obtain ⟨b, hb, hservice, hactivities, -⟩ := run_alone hx
  refine ⟨b, hb, ?_, ?_⟩
  · rw [hactivities, List.getElem?_set_self (List.getElem?_eq_some_iff.1 hx).1]
    rfl
  · rw [hservice]
    exact Service.running_runAtoms ..

/-- **Two crowds cannot be told apart** by anyone but the pool and the notifier. -/
structure Isolated (a b : Crowd) : Prop where
  metrics : a.service.metrics = b.service.metrics
  registry : a.service.registry = b.service.registry
  analytics : a.service.analytics = b.service.analytics
  /-- The client has been handed the same events in the same order. -/
  handed : a.handed = b.handed
  answers : a.answers = b.answers
  unhindered : a.Unhindered ∧ b.Unhindered

/-- Crowds that are the same without everything that has to do with webhooks. -/
theorem isolated_of_quiet (h : a.quiet = b.quiet) : Isolated a b := by
  refine ⟨congrArg (fun c => c.service.metrics) h, congrArg (fun c => c.service.registry) h,
    congrArg (fun c => c.service.analytics) h, ?_, ?_, a.unhindered, b.unhindered⟩
  · rw [← handed_quiet, h, handed_quiet]
  · rw [← answers_quiet, h, answers_quiet]

/-- **Webhooks do not interfere.** The two services may differ in whether they notify and in the
whole state of their pools, the two runs in everything that happens to these pools and in the ids
of webhook events. The rest of what happens is the same, whatever it is, and so the runs agree
whenever they have come equally far. -/
theorem isolated_of_runs {s t : Service} (hmetrics : s.metrics = t.metrics)
    (hregistry : s.registry = t.registry) (hanalytics : s.analytics = t.analytics)
    {es fs : List CrowdEvent}
    (hfront : es.filterMap CrowdEvent.front? = fs.filterMap CrowdEvent.front?) {a b : Crowd}
    (ha : (start s).run? es = some a) (hb : (start t).run? fs = some b) : Isolated a b := by
  have hstart : (start s).quiet = (start t).quiet := by
    simp only [quiet, start, Service.quiet, hmetrics, hregistry, hanalytics]
  have hquiet : a.quiet = b.quiet := by
    have ha := quiet_run ha
    have hb := quiet_run hb
    rw [hstart, hfront] at ha
    exact Option.some.inj (ha.symm.trans hb)
  exact isolated_of_quiet hquiet

/-- A participant joins, opens a buffer and leaves. In the middle of leaving, something happens
aside. -/
def visit (ids : List String) (aside : List (PoolEvent Delivery)) : List CrowdEvent :=
  let moment (i : Nat) : Moment := { clock := 5, freshId := (ids[i]?).getD "" }
  whole 0 (moment 0) (.participantJoined { sid := "r" } { sid := "p" } none) ++
    whole 1 (moment 1) (.trackBufferOpened "p" 7 { sid := "t" }) ++
    [.begin (moment 2) (.participantLeft { sid := "r" } { sid := "p" }), .act 2] ++
    aside.map .aside ++ List.replicate 4 (.act 2)

/-- A pool whose first delivery panics, and that is shut down before. -/
def trouble : List (PoolEvent Delivery) :=
  [.move .take, .move .start, .shutdown, .move (.finish 0 .panicked)]

theorem isolated_of_visit :
    ∃ a b,
      (start (.start (.collecting []) true ⟨1, 1⟩)).run? (visit ["a", "b", "c"] trouble) = some a ∧
      (start (.start (.collecting []) false ⟨5, 5⟩)).run? (visit [] []) = some b ∧
      (visit ["a", "b", "c"] trouble).filterMap CrowdEvent.front? =
        (visit [] []).filterMap CrowdEvent.front? ∧
      Isolated a b ∧ a.service.pool.stats = ⟨1, 1, 0, 0⟩ ∧ b.service.pool.stats = {} ∧
      a.handed.map (fun x => x.2.kind) = [.participantJoined, .participantLeft] ∧
      a.answers = [some none, some (some true), some none] := by
  have ha : ((start (.start (.collecting []) true ⟨1, 1⟩)).run? (visit ["a", "b", "c"] trouble)).map
      (fun a => (a.service.pool.stats, a.handed.map (fun x => x.2.kind), a.answers)) =
      some (⟨1, 1, 0, 0⟩, [.participantJoined, .participantLeft],
        [some none, some (some true), some none]) := rfl
  have hb : ((start (.start (.collecting []) false ⟨5, 5⟩)).run? (visit [] [])).map
      (fun b => b.service.pool.stats) = some {} := rfl
  obtain ⟨a, ha, haside⟩ := Option.map_eq_some_iff.1 ha
  obtain ⟨b, hb, hquiet⟩ := Option.map_eq_some_iff.1 hb
  simp only [Prod.mk.injEq] at haside
  obtain ⟨hstats, hkinds, hanswers⟩ := haside
  have hfront : (visit ["a", "b", "c"] trouble).filterMap CrowdEvent.front? =
      (visit [] []).filterMap CrowdEvent.front? := rfl
  refine ⟨a, b, ha, hb, hfront, ?_, hstats, hquiet, hkinds, hanswers⟩
  refine isolated_of_runs ?_ ?_ ?_ hfront ha hb <;> rfl

end Crowd

end RoomWatch
