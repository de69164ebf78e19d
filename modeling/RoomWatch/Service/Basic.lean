import RoomWatch.Analytics.Client
import RoomWatch.Pool.Basic
import RoomWatch.Service.Call
import RoomWatch.Service.Config

/-!
# The telemetry service

The service passes each lifecycle transition on to its sinks: counters, the registry, the
webhook pool and the analytics client. A call never waits and never fails (`Service.call`);
webhooks are delivered later, by the pool.
-/

namespace RoomWatch

/-- A webhook event on its way. -/
structure Delivery where
  event : WebhookEvent
  /-- The name of the context that can cancel it, if there is one. -/
  token : Option String
  deriving DecidableEq

structure Service where
  metrics : Metrics := {}
  registry : Registry := .empty
  analytics : AnalyticsClient := .collecting []
  /-- Whether webhooks are enabled. -/
  notifies : Bool
  pool : Pool Delivery

/-- When and in which context a call is made. -/
structure Moment where
  clock : Int64
  token : Option String := none
  cancelled : Bool := false
  /-- The id for a webhook event that the call creates. -/
  freshId : String

namespace Service

/-- The service that a configuration describes, in front of the given client. -/
def ofConfig (c : TelemetryConfig) (analytics : AnalyticsClient) :
    Except Oversized (Outcome Service Unit) :=
  c.poolConfig.checked.map fun bounds =>
    ⟨{ analytics, notifies := c.webhooksEnabled, pool := .start bounds }, (),
      Pool.startLog bounds ++
        if c.webhooksEnabled then [.webhooksEnabled c.webhookUrls.length] else []⟩

/-- Stamps a webhook event and submits its delivery. -/
def submit (s : Service) (m : Moment) (e : WebhookEvent) : Outcome Service Unit :=
  let event := e.stamp m.freshId (unixTime m.clock)
  let (pool, result) := s.pool.submit ⟨event, m.token⟩
  ⟨{ s with pool }, (),
    match result with
    | .ok () => []
    | .error error => [.deliveryDropped event.kind event.id error]⟩

/-- One part of a call, given what the call has learnt before it. -/
def part (s : Service) (m : Moment) (c : Call) (seen : Seen) : Part → Outcome Service Seen
  | .consult =>
    let o := c.consult s.registry
    ⟨{ s with registry := o.state }, o.result, o.log⟩
  | .count =>
    ⟨{ s with metrics := c.count?.elim s.metrics (s.metrics.count m.clock) }, seen, []⟩
  | .notify =>
    match c.webhook? with
    | some e =>
      if s.notifies then
        let o := s.submit m e
        ⟨o.state, seen, o.log⟩
      else ⟨s, seen, []⟩
    | none => ⟨s, seen, []⟩
  | .send =>
    match c.event? (unixTime m.clock) seen with
    | some e =>
      let o := s.analytics.send m.cancelled e
      ⟨{ s with analytics := o.state }, seen, o.log⟩
    | none => ⟨s, seen, []⟩
  | .report => ⟨s, seen, (c.line? seen).toList⟩

/-- Parts of a call, one after another. -/
def runParts (s : Service) (m : Moment) (c : Call) (seen : Seen) :
    List Part → Outcome Service Seen
  | [] => ⟨s, seen, []⟩
  | p :: ps =>
    let first := s.part m c seen p
    let rest := runParts first.state m c first.result ps
    ⟨rest.state, rest.result, first.log ++ rest.log⟩

/-- A whole call; answers whether a buffer has been opened, if that was asked. -/
def call (s : Service) (m : Moment) (c : Call) : Outcome Service (Option Bool) :=
  let o := s.runParts m c {} c.parts
  ⟨o.state, c.answer? o.result, o.log⟩

/-- What is logged about a delivery that has ended. -/
def deliveryLog (e : WebhookEvent) : Except NotifyError Unit → List LogLine
  | .ok () => []
  | .error error => [.deliveryFailed e.kind e.id error]

/-- What a shutdown call does once the pool has stopped: it closes all workers. -/
def clear (s : Service) : Outcome Service (List Worker) :=
  let o := s.registry.closeAll
  ⟨{ s with registry := o.state }, o.result, o.log⟩

end Service

end RoomWatch
