import RoomWatch.Proofs.Metrics.Increments
import RoomWatch.Proofs.Pool.Ledger
import RoomWatch.Proofs.Runs
import RoomWatch.Proofs.Service.Sinks

/-!
# Calls that overlap

Calls on a service come from many threads. A call goes through its steps in order, and between two
of them anything else may happen: steps of other calls, and whatever the pool and its other users
do. A step (`Atom`) is what happens at once: the registry is consulted under its lock, one counter
is added to, a delivery is submitted, an event is sent.

A `Crowd` is a service with the calls that have begun on it, each with the steps that are left of
it, and with the steps that have been made so far.

* `Service.atom_state`: what a step does to each sink.
* `Service.runAtoms_call`: the steps of a call, made without a break, are the call.
* `Crowd.Kept`: the sinks are what the steps so far have made of them. Every step keeps this
  (`kept_step`).
* `Crowd.supplied_run`: the pool is what the submit calls of the created deliveries and what has
  happened aside have made of it.
* `Crowd.run_alone`: **a call can always finish by its own steps alone.**
-/

namespace RoomWatch

/-- A step of a call. -/
inductive Atom where
  | consult
  /-- One counter is added to. -/
  | add (delta : Metrics)
  | notify
  | send
  | report
  deriving DecidableEq

namespace Call

/-- The steps of a part of a call. -/
def partAtoms (clock : Int64) (c : Call) : Part → List Atom
  | .consult => [.consult]
  | .count => (c.count?.elim [] (Count.increments clock)).map .add
  | .notify => [.notify]
  | .send => [.send]
  | .report => [.report]

/-- The steps of a call in their order. -/
def atoms (clock : Int64) (c : Call) : List Atom := c.parts.flatMap (c.partAtoms clock)

end Call

/-- A call with what it has learnt. -/
structure Account where
  moment : Moment
  call : Call
  seen : Seen := {}

/-- The moment without the id that it has ready for a webhook event. -/
def Moment.anonymous (m : Moment) : Moment := { m with freshId := "" }

def Account.anonymous (x : Account) : Account := { x with moment := x.moment.anonymous }

/-- What a step adds to the counters. -/
def Atom.delta? : Atom → Option Metrics
  | .add d => some d
  | .consult | .notify | .send | .report => none

namespace Account

/-- The analytics event that a call sends, given what it has learnt. -/
def event? (x : Account) : Option AnalyticsEvent :=
  x.call.event? (unixTime x.moment.clock) x.seen

/-- The call that consults the registry in a step. -/
def consultation? (x : Account) : Atom → Option (Moment × Call)
  | .consult => some (x.moment, x.call)
  | .add _ | .notify | .send | .report => none

/-- The event that is handed to the client in a step, and whether its context is cancelled. -/
def handing? (x : Account) : Atom → Option (Bool × AnalyticsEvent)
  | .send => x.event?.map fun e => (x.moment.cancelled, e)
  | .consult | .add _ | .notify | .report => none

/-- The delivery that a service submits in a step. -/
def creation? (s : Service) (x : Account) : Atom → Option Delivery
  | .notify => s.delivery? x.moment x.call
  | .consult | .add _ | .send | .report => none

/-- What is submitted depends on a service only in whether it notifies. -/
theorem creation?_congr {r s : Service} (h : r.notifies = s.notifies) :
    creation? r = creation? s := by
  funext x t
  cases t with
  | notify => simp only [creation?, Service.delivery?, h]
  | _ => rfl

end Account

/-- The client after it has been handed an event. -/
def AnalyticsClient.take (client : AnalyticsClient) (x : Bool × AnalyticsEvent) : AnalyticsClient :=
  (client.send x.1 x.2).state

namespace Service

/-- One step of a call. -/
def atom (s : Service) (x : Account) : Atom → Outcome Service Seen
  | .consult => s.part x.moment x.call x.seen .consult
  | .add d => ⟨{ s with metrics := s.metrics.plus d }, x.seen, []⟩
  | .notify => s.part x.moment x.call x.seen .notify
  | .send => s.part x.moment x.call x.seen .send
  | .report => s.part x.moment x.call x.seen .report

/-- **What a step does to each sink.** -/
theorem atom_state (s : Service) (x : Account) (t : Atom) :
    (s.atom x t).state =
      { metrics := t.delta?.elim s.metrics s.metrics.plus
        registry := (x.consultation? t).elim s.registry fun y => (y.2.consult s.registry).state
        analytics := (x.handing? t).elim s.analytics s.analytics.take
        notifies := s.notifies
        pool := (x.creation? s t).elim s.pool fun d => (s.pool.submit d).1 } := by
  cases t with
  | send =>
    refine (state_part_send ..).trans ?_
    unfold clientAfter Account.handing? Account.event?
    cases x.call.event? (unixTime x.moment.clock) x.seen <;> rfl
  | notify => exact congrArg Outcome.state (part_notify ..)
  | _ => rfl

theorem notifies_atom (s : Service) (x : Account) (t : Atom) :
    (s.atom x t).state.notifies = s.notifies := by
  rw [atom_state]

/-- What a call has learnt after a step. -/
theorem atom_result (s : Service) (x : Account) (t : Atom) :
    (s.atom x t).result =
      (x.consultation? t).elim x.seen fun y => (y.2.consult s.registry).result := by
  cases t with
  | send => exact result_part_send ..
  | notify => exact congrArg Outcome.result (part_notify ..)
  | _ => rfl

/-- A call with what it has learnt after a step. -/
def account (s : Service) (x : Account) (t : Atom) : Account :=
  { x with seen := (s.atom x t).result }

/-- Only the step in which the registry is consulted teaches a call something. -/
theorem account_of_ne (s : Service) (x : Account) {t : Atom} (ht : t ≠ .consult) :
    s.account x t = x := by
  unfold account
  rw [atom_result]
  cases t with
  | consult => exact absurd rfl ht
  | _ => rfl

/-- Steps of one call, one after another. -/
def runAtoms (s : Service) (x : Account) : List Atom → Service × Seen
  | [] => (s, x.seen)
  | t :: ts => runAtoms (s.atom x t).state (s.account x t) ts

theorem runAtoms_append (s : Service) (x : Account) (ts us : List Atom) :
    s.runAtoms x (ts ++ us) =
      (s.runAtoms x ts).1.runAtoms { x with seen := (s.runAtoms x ts).2 } us := by
  induction ts generalizing s x with
  | nil => rfl
  | cons t ts ih => exact ih ..

theorem runAtoms_add (s : Service) (x : Account) (ds : List Metrics) :
    s.runAtoms x (ds.map .add) =
      ({ s with metrics := ds.foldl Metrics.plus s.metrics }, x.seen) := by
  induction ds generalizing s with
  | nil => rfl
  | cons d ds ih => exact ih ..

/-- The steps of a part make the part. -/
theorem runAtoms_part (s : Service) (x : Account) (p : Part) :
    s.runAtoms x (x.call.partAtoms x.moment.clock p) =
      ((s.part x.moment x.call x.seen p).state, (s.part x.moment x.call x.seen p).result) := by
  cases p with
  | count =>
    refine (runAtoms_add ..).trans ?_
    rw [part_count]
    cases x.call.count? with
    | none => rfl
    | some k =>
      simp only [Option.elim_some, Metrics.count_eq]
  | _ => rfl

/-- **The steps of a call make the call.** -/
theorem runAtoms_call (s : Service) (m : Moment) (c : Call) :
    (s.runAtoms ⟨m, c, {}⟩ (c.atoms m.clock)).1 = (s.call m c).state ∧
      c.answer? (s.runAtoms ⟨m, c, {}⟩ (c.atoms m.clock)).2 = (s.call m c).result := by
  have hparts : ∀ (ps : List Part) (s : Service) (seen : Seen),
      s.runAtoms ⟨m, c, seen⟩ (ps.flatMap (c.partAtoms m.clock)) =
        ((s.runParts m c seen ps).state, (s.runParts m c seen ps).result) := by
    intro ps
    induction ps with
    | nil => exact fun _ _ => rfl
    | cons p ps ih =>
      intro s seen
      rw [List.flatMap_cons, runAtoms_append, runAtoms_part s ⟨m, c, seen⟩ p]
      exact ih ..
  unfold Call.atoms
  rw [hparts]
  exact ⟨rfl, rfl⟩

end Service

/-- A call that has begun, with the steps that are left of it. -/
structure Activity extends Account where
  left : List Atom

/-- A service, the calls that have begun on it, and the steps that have been made. -/
structure Crowd where
  service : Service
  activities : List Activity := []
  /-- Each step with the call that made it, as the call was before the step. -/
  steps : List (Account × Atom) := []

/-- Something that happens while calls overlap. -/
inductive CrowdEvent where
  /-- Another call begins. -/
  | begin (m : Moment) (c : Call)
  /-- A call makes its next step. -/
  | act (activity : Nat)
  /-- The pool makes a move, is shut down, or is given a task by someone else. -/
  | aside (e : PoolEvent Delivery)

/-- What happens to the pool without any of the calls. -/
def CrowdEvent.aside? : CrowdEvent → Option (PoolEvent Delivery)
  | .aside e => some e
  | .begin _ _ | .act _ => none

namespace Crowd

variable {a b : Crowd} {e : CrowdEvent} {es : List CrowdEvent}

/-- The crowd after another call has begun. -/
def enter (a : Crowd) (m : Moment) (c : Call) : Crowd :=
  { a with activities := a.activities ++ [{ moment := m, call := c, left := c.atoms m.clock }] }

/-- The crowd after a call has made a step, with the steps that are then left of it. -/
def make (a : Crowd) (i : Nat) (x : Account) (t : Atom) (left : List Atom) : Crowd where
  service := (a.service.atom x t).state
  activities := a.activities.set i ⟨a.service.account x t, left⟩
  steps := a.steps ++ [(x, t)]

/-- The crowd after something has happened; none if that is not possible. -/
def step? (a : Crowd) : CrowdEvent → Option Crowd
  | .begin m c => some (a.enter m c)
  | .act i =>
    match a.activities[i]? with
    | some ⟨x, t :: left⟩ => some (a.make i x t left)
    | _ => none
  | .aside e => ((Observed.mk a.service.pool {}).step? e).map fun o =>
    { a with service := { a.service with pool := o.pool } }

/-- The crowd after a run; none if something in it is not possible. -/
def run? (a : Crowd) (es : List CrowdEvent) : Option Crowd := es.foldlM step? a

/-- The crowd before any call has begun. -/
def start (s : Service) : Crowd := { service := s }

/-- The calls that have begun, in this order. -/
def begun (a : Crowd) : List (Moment × Call) := a.activities.map fun x => (x.moment, x.call)

/-- The calls that have consulted the registry, in this order. -/
def consulted (a : Crowd) : List (Moment × Call) :=
  a.steps.filterMap fun s => s.1.consultation? s.2

/-- The events that the client has been handed, in this order. -/
def handed (a : Crowd) : List (Bool × AnalyticsEvent) := a.steps.filterMap fun s => s.1.handing? s.2

/-- The deliveries that have been submitted, whether the pool has taken them or not. -/
def created (a : Crowd) : List Delivery :=
  a.steps.filterMap fun s => s.1.creation? a.service s.2

/-- What has been added to the counters. -/
def added (a : Crowd) : List Metrics := a.steps.filterMap fun s => s.2.delta?

/-- All calls that have begun have finished. -/
def Finished (a : Crowd) : Prop := ∀ x ∈ a.activities, x.left = []

/-- What an event needs and what it does. -/
inductive Stepped (a : Crowd) : CrowdEvent → Crowd → Prop where
  | begin (m : Moment) (c : Call) : Stepped a (.begin m c) (a.enter m c)
  | act (i : Nat) (x : Account) (t : Atom) (left : List Atom)
      (next : a.activities[i]? = some ⟨x, t :: left⟩) : Stepped a (.act i) (a.make i x t left)
  | aside (e : PoolEvent Delivery) (p : Pool Delivery) : Stepped a (.aside e)
      { a with service := { a.service with pool := p } }

theorem stepped_of_step? (h : a.step? e = some b) : a.Stepped e b := by
  cases e with
  | begin m c => cases h; exact .begin m c
  | act i =>
    simp only [step?] at h
    split at h
    · next x t left hx => cases h; exact .act i x t left hx
    · cases h
  | aside e =>
    obtain ⟨o, -, rfl⟩ := Option.map_eq_some_iff.1 h
    exact .aside e o.pool

theorem run?_cons (a : Crowd) (e : CrowdEvent) (es : List CrowdEvent) :
    a.run? (e :: es) = (a.step? e).bind fun b => b.run? es := rfl

theorem run?_append (a : Crowd) (es fs : List CrowdEvent) :
    a.run? (es ++ fs) = (a.run? es).bind fun b => b.run? fs := List.foldlM_append

/-- What every step keeps holds after every run. -/
theorem run_induction {P : Crowd → Prop}
    (hstep : ∀ {a b : Crowd} {e}, P a → a.Stepped e b → P b) (h : P a)
    (hr : a.run? es = some b) : P b :=
  foldlM_induction hr h fun _ _ _ h he => hstep h (stepped_of_step? he)

/-! ## What the steps have made of the sinks -/

/-- The registry after it has been consulted by calls, one after another. -/
def consultAll (r : Registry) (calls : List (Moment × Call)) : Registry :=
  calls.foldl (fun r x => (x.2.consult r).state) r

/-- **The sinks are what the steps have made of them.** -/
structure Kept (s : Service) (a : Crowd) : Prop where
  metrics : a.service.metrics = a.added.foldl Metrics.plus s.metrics
  registry : a.service.registry = consultAll s.registry a.consulted
  analytics : a.service.analytics = a.handed.foldl AnalyticsClient.take s.analytics
  notifies : a.service.notifies = s.notifies

theorem foldl_filterMap_concat {α β γ : Type} (f : γ → β → γ) (g : α → Option β) (xs : List α)
    (x : α) (z : γ) :
    ((xs ++ [x]).filterMap g).foldl f z =
      (g x).elim ((xs.filterMap g).foldl f z) (f ((xs.filterMap g).foldl f z)) := by
  rw [List.filterMap_append, List.foldl_append, List.filterMap_cons]
  cases g x <;> rfl

theorem kept_step {s : Service} (h : Kept s a) (he : a.Stepped e b) : Kept s b := by
  cases he with
  | begin m c => exact ⟨h.metrics, h.registry, h.analytics, h.notifies⟩
  | aside e p => exact ⟨h.metrics, h.registry, h.analytics, h.notifies⟩
  | act i x t left hx =>
    have hm := h.metrics
    have hr := h.registry
    have ha := h.analytics
    unfold added at hm
    unfold consulted consultAll at hr
    unfold handed at ha
    refine ⟨?_, ?_, ?_, ?_⟩
    · rw [added, make, foldl_filterMap_concat, ← hm, Service.atom_state]
    · rw [consultAll, consulted, make, foldl_filterMap_concat, ← hr, Service.atom_state]
    · rw [handed, make, foldl_filterMap_concat, ← ha, Service.atom_state]
    · rw [make, Service.atom_state]
      exact h.notifies

theorem filterMap_make {β : Type} (g : Account × Atom → Option β) (i : Nat) (x : Account) (t : Atom)
    (left : List Atom) :
    (a.make i x t left).steps.filterMap g = a.steps.filterMap g ++ (g (x, t)).toList := by
  rw [make, List.filterMap_append, filterMap_cons_toList, List.filterMap_nil, List.append_nil]

/-! ## What the pool has been given -/

/-- **The pool is what the calls have made of it**: there is one submit call for each delivery that
they have created, in the same order, and what has happened aside has come in between. -/
def Supplied (p : Pool Delivery) (asides : List (PoolEvent Delivery)) (a : Crowd) : Prop :=
  ∃ (fed : List (Delivery ⊕ PoolEvent Delivery)) (l : Ledger Delivery),
    fed.filterMap Sum.getLeft? = a.created ∧ fed.filterMap Sum.getRight? = asides ∧
      (Observed.mk p {}).run? (fed.map (Sum.elim .submit id)) = some ⟨a.service.pool, l⟩

section Supply

variable {p : Pool Delivery} {asides : List (PoolEvent Delivery)}

theorem created_make_eq (a : Crowd) (i : Nat) (x : Account) (t : Atom) (left : List Atom) :
    (a.make i x t left).created = a.created ++ (x.creation? a.service t).toList := by
  have hsame : Account.creation? (a.make i x t left).service = Account.creation? a.service :=
    Account.creation?_congr (a.service.notifies_atom x t)
  rw [created, filterMap_make, hsame]
  rfl

/-- A crowd with the same pool has been supplied just as well, if it has created the same. -/
theorem Supplied.of_eq (h : a.Supplied p asides) (hcreated : b.created = a.created)
    (hpool : b.service.pool = a.service.pool) : b.Supplied p asides := by
  obtain ⟨fed, l, hleft, hright, hrun⟩ := h
  exact ⟨fed, l, hleft.trans hcreated.symm, hright, hpool ▸ hrun⟩

theorem supplied_start (s : Service) : (start s).Supplied s.pool [] := ⟨[], {}, rfl, rfl, rfl⟩

/-- **A step of a call submits what it creates**, and nothing else. -/
theorem supplied_make (h : a.Supplied p asides) (i : Nat) (x : Account) (t : Atom)
    (left : List Atom) : (a.make i x t left).Supplied p asides := by
  have hcreated := a.created_make_eq i x t left
  have hpool : (a.make i x t left).service.pool =
      (x.creation? a.service t).elim a.service.pool fun d => (a.service.pool.submit d).1 :=
    congrArg Service.pool (a.service.atom_state x t)
  cases hx : x.creation? a.service t with
  | none =>
    rw [hx] at hcreated hpool
    -- nothing is created, and the pool is left alone
    exact h.of_eq (hcreated.trans (List.append_nil _)) hpool
  | some d =>
    rw [hx] at hcreated hpool
    obtain ⟨fed, l, hleft, hright, hrun⟩ := h
    -- the delivery goes behind everything that the pool has been given before
    refine ⟨fed ++ [.inl d], l.enter d (a.service.pool.submit d).2, ?_, ?_, ?_⟩
    · rw [hcreated, ← hleft, List.filterMap_append]
      rfl
    · rw [List.filterMap_append, hright]
      exact List.append_nil _
    · rw [List.map_append, List.map_singleton, Observed.run?_concat, hrun, hpool]
      rfl

theorem supplied_aside (h : a.Supplied p asides) {e : PoolEvent Delivery} {o : Observed Delivery}
    (he : (Observed.mk a.service.pool {}).step? e = some o) :
    { a with service := { a.service with pool := o.pool } : Crowd }.Supplied p (asides ++ [e]) := by
  obtain ⟨fed, l, hleft, hright, hrun⟩ := h
  obtain ⟨l', hl'⟩ := Observed.step?_mk l he
  refine ⟨fed ++ [.inr e], l', ?_, ?_, ?_⟩
  · rw [List.filterMap_append, hleft]
    exact List.append_nil _
  · rw [List.filterMap_append, hright]
    rfl
  · rw [List.map_append, List.map_singleton, Observed.run?_concat, hrun]
    exact hl'

theorem supplied_step (h : a.Supplied p asides) (he : a.step? e = some b) :
    b.Supplied p (asides ++ e.aside?.toList) := by
  cases e with
  | begin m c =>
    cases he
    exact (List.append_nil asides).symm ▸ h.of_eq rfl rfl
  | act i =>
    cases stepped_of_step? he with
    | act i x t left _ => exact (List.append_nil asides).symm ▸ supplied_make h i x t left
  | aside e =>
    obtain ⟨o, ho, rfl⟩ := Option.map_eq_some_iff.1 he
    exact supplied_aside h ho

theorem supplied_run {s : Service} (hr : (start s).run? es = some a) :
    a.Supplied s.pool (es.filterMap CrowdEvent.aside?) :=
  foldlM_record (P := fun asides a => Supplied s.pool asides a) hr (supplied_start s)
    fun _ _ _ _ => supplied_step

end Supply

/-! ## A call by itself -/

/-- A call from its beginning to its end, as the call with the given number. -/
def whole (i : Nat) (m : Moment) (c : Call) : List CrowdEvent :=
  .begin m c :: List.replicate (c.atoms m.clock).length (.act i)

/-- **A call can always finish by its own steps alone**, and these make of the service what they
would make of it without a break. -/
theorem run_alone {i : Nat} {x : Activity} (hx : a.activities[i]? = some x) :
    ∃ b, a.run? (List.replicate x.left.length (.act i)) = some b ∧
      b.service = (a.service.runAtoms x.toAccount x.left).1 ∧
      b.activities = a.activities.set i
        ⟨{ x.toAccount with seen := (a.service.runAtoms x.toAccount x.left).2 }, []⟩ ∧
      b.consulted = a.consulted ++ x.left.filterMap x.consultation? := by
  obtain ⟨x, left⟩ := x
  induction left generalizing a x with
  | nil =>
    refine ⟨a, rfl, rfl, ?_, (List.append_nil _).symm⟩
    obtain ⟨hi, hget⟩ := List.getElem?_eq_some_iff.1 hx
    exact (hget ▸ List.set_getElem_self hi).symm
  | cons t left ih =>
    have hi := (List.getElem?_eq_some_iff.1 hx).1
    have hstep : a.step? (.act i) = some (a.make i x t left) := by
      simp only [step?, hx]
    obtain ⟨b, hb, hservice, hactivities, hconsulted⟩ :=
      ih (a := a.make i x t left) _ (List.getElem?_set_self hi)
    refine ⟨b, ?_, hservice, ?_, ?_⟩
    · rw [List.length_cons, List.replicate_succ, run?_cons, hstep]
      exact hb
    · rw [hactivities, make, List.set_set]
      rfl
    · rw [hconsulted]
      simp only [consulted, make, List.filterMap_append, List.filterMap_cons, List.append_assoc]
      congr 1
      cases x.consultation? t <;> rfl

end Crowd

end RoomWatch
