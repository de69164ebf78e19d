import RoomWatch.Pool.Gate
import RoomWatch.Pool.Schedule
import RoomWatch.Service.Basic
import RoomWatch.Webhook.Notifier

/-!
# Sites

A site runs one or more services side by side: their pools make progress in turns, contexts
can be cancelled, and what the notifiers do is laid down (`Answers`). The services may share
one registry.
-/

namespace RoomWatch

/-- A notifier that answers by the kind of the event. -/
structure Script where
  /-- Whether a delivery waits for a unit of the gate first. -/
  gated : Bool := false
  panics : List WebhookKind := []
  /-- The status with which the endpoint answers; an event without one is delivered. -/
  fails : List (WebhookKind × UInt16) := []

/-- What the notifiers of a site do. -/
inductive Answers where
  | script (s : Script)
  /-- Events are posted to endpoints, at each of which the same thing happens every time. -/
  | endpoints (apiKey : Option String) (turns : List (String × Exchange))

/-- Several services with all that is around them. -/
structure Site where
  services : List Service
  /-- Whether the services have one registry in common. -/
  shared : Bool := false
  answers : Answers
  gate : Gate Spot := {}
  /-- The names of the contexts that have been cancelled. -/
  cancelled : List String := []
  /-- The events that scripted notifiers have been called with, by service. -/
  notified : List (Nat × WebhookEvent) := []
  /-- The requests that endpoints have got, by service. -/
  requests : List (Nat × Request) := []
  log : List LogLine := []
  /-- Who is able to run. -/
  ready : List Turn := []

namespace Site

/-- The endpoint that a scripted notifier stands for. -/
def scriptedUrl : String := "http://hooks.local"

/-- A site whose services have just been built. -/
def start (services : List Service) (shared : Bool) (answers : Answers) : Site where
  services := services
  shared := shared
  answers := answers
  ready := (List.range services.length).map .dispatcher

def isCancelled (s : Site) (token : Option String) : Bool := token.any fun t => t ∈ s.cancelled

/-- A registry that replaces that of one service, or of all if they share it. -/
def setRegistry (s : Site) (i : Nat) (r : Registry) : Site :=
  { s with
    services :=
      if s.shared then s.services.map fun v => { v with registry := r }
      else s.services.modify i fun v => { v with registry := r } }

/-- Replaces a service. Its dispatcher joins the line if it can make a move. -/
def setService (s : Site) (i : Nat) (v : Service) : Site :=
  let s := { s with services := s.services.set i v }.setRegistry i v.registry
  if v.pool.nextMove?.isSome && !(.dispatcher i ∈ s.ready : Bool) then
    { s with ready := s.ready ++ [.dispatcher i] }
  else s

/-- A call on one of the services. -/
def call (s : Site) (i : Nat) (clock : Int64) (token : Option String) (freshId : String)
    (c : Call) : Site × Option Bool :=
  match s.services[i]? with
  | none => (s, none)
  | some v =>
    let o := v.call ⟨clock, token, s.isCancelled token, freshId⟩ c
    ({ s.setService i o.state with log := s.log ++ o.log }, o.result)

/-- Ends a delivery with a result of the notifier. -/
def ended (s : Site) (d : Delivery) (result : Except NotifyError Unit) : Verdict Delivery Site :=
  { world := { s with log := s.log ++ Service.deliveryLog d.event result }
    ending := some .completed }

/-- A scripted notifier is called. -/
def notify (s : Site) (script : Script) (i : Nat) (d : Delivery) : Verdict Delivery Site :=
  if d.event.kind ∈ script.panics then { world := s, ending := some .panicked }
  else
    { s with notified := s.notified ++ [(i, d.event)] }.ended d <|
      match script.fails.lookup d.event.kind with
      | some status => .error (.status scriptedUrl status)
      | none => .ok ()

/-- A delivery's turn. -/
def turn (s : Site) (spot : Spot) (d : Delivery) : Verdict Delivery Site :=
  match s.answers with
  | .script script =>
    if s.isCancelled d.token then
      -- A unit that it was given while it waited goes to the next waiter.
      let (gate, woken) := s.gate.leave spot
      { { s with gate }.ended d (.error .cancelled) with woken }
    else if script.gated then
      let (gate, free) := s.gate.enter spot
      let s := { s with gate }
      if free then s.notify script spot.pool d else { world := s, ending := none }
    else s.notify script spot.pool d
  | .endpoints apiKey turns =>
    -- The whole delivery takes one turn: no endpoint makes it wait for another task.
    let turns := if s.isCancelled d.token then turns.map fun t => (t.1, .cancelledBefore) else turns
    let posting := Notifier.post apiKey d.event turns
    let cancels := posting.attempts.any fun a => a.exchange = .cancelledDuring
    { s with
      cancelled := (if cancels then d.token.toList else []) ++ s.cancelled
      requests := s.requests ++ posting.received.map fun r => (spot.pool, r)
      log := s.log ++ posting.log }.ended d posting.result

/-- A shutdown call on a service returns: all its workers are closed. -/
def returned (s : Site) (i : Nat) : Site :=
  match s.services[i]? with
  | none => s
  | some v =>
    let o := v.clear
    { s.setRegistry i o.state.registry with log := s.log ++ o.log }

def conduct : Conduct Delivery Site where
  turn := turn
  heard s _ _ := s
  logged s lines := { s with log := s.log ++ lines }
  returned := returned

/-- The schedule of the pools of all services. -/
def schedule (s : Site) : Schedule Delivery Site := ⟨s.services.map Service.pool, s, s.ready⟩

/-- Takes pools and line over from a schedule. -/
def ofSchedule (t : Schedule Delivery Site) : Site :=
  { t.world with
    services := List.zipWith (fun (v : Service) p => { v with pool := p }) t.world.services t.pools
    ready := t.ready }

/-- Everything runs until nothing can go on. -/
def settle (s : Site) : Site := ofSchedule (s.schedule.settle conduct)

/-- A shutdown call on a service, in the background, and then everything runs. -/
def shutdown (s : Site) (i : Nat) : Site :=
  ofSchedule ((s.schedule.call (.shutdown i)).settle conduct)

/-- Gives units to the gate. -/
def release (s : Site) (n : Nat) : Site :=
  let (gate, admitted) := s.gate.give n
  ofSchedule ({ s with gate }.schedule.wake admitted)

/-- The delivery that runs at a spot. -/
def delivery? (s : Site) (spot : Spot) : Option Delivery := do
  let v ← s.services[spot.pool]?
  let j ← v.pool.running.find? fun j => j.ticket = spot.ticket
  return j.task

/-- Cancels a context. Deliveries that wait in this context can go on. -/
def cancel (s : Site) (token : String) : Site :=
  let waiting := s.gate.waiting.filter fun spot =>
    (s.delivery? spot).any fun d => d.token = some token
  ofSchedule ({ s with cancelled := token :: s.cancelled }.schedule.wake waiting)

end Site

end RoomWatch
