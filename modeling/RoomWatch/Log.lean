import RoomWatch.Analytics.Event
import RoomWatch.Webhook.Event
import RoomWatch.Failure
import RoomWatch.Pool.Config

/-!
# Log lines

What is logged, as data: one constructor for each line, with what the line says. `level`,
`message` and `fields` are its form.

An operation returns its new state, its result and its log lines as an `Outcome`.
-/

namespace RoomWatch

open Number

inductive Level where
  | trace
  | debug
  | info
  | warn
  deriving DecidableEq

def Level.label : Level → String
  | .trace => "TRACE"
  | .debug => "DEBUG"
  | .info => "INFO"
  | .warn => "WARN"

inductive LogLine where
  | bufferReleased (participant : String) (ssrc : Ssrc) (track : String)
  /-- The line also says, in a field `lifetime_ms`, how long the worker has lived. That is real time
  and is left out here. -/
  | workerClosed (participant room : String) (released : Nat)
  | workerRegistered (participant room : String) (workers : Nat)
  | workerReplaced (participant previousRoom room : String)
  | workerRemoved (participant room : String) (released workers : Nat)
  | allWorkersClosed (workers : Nat)
  | bufferIgnored (participant track : String) (ssrc : Ssrc)
  | eventCancelled (kind : Transition)
  | eventUnheard (kind : Transition)
  | poolStarted (maxWorkers queueCapacity : Nat)
  | poolStopped (stats : PoolStats)
  | webhooksEnabled (endpoints : Nat)
  | deliveryDropped (kind : WebhookKind) (id : String) (error : SubmitError)
  | deliveryFailed (kind : WebhookKind) (id : String) (error : NotifyError)
  | endpointFailed (url : String) (kind : WebhookKind) (error : NotifyError)
  | roomStarted (room name : String)
  | roomEnded (room name : String)
  | participantJoined (room participant identity : String)
  | participantLeft (room participant : String) (hadWorker : Bool)
  deriving DecidableEq

/-- The value of a field of a log line. -/
inductive LogValue where
  | text (s : String)
  | number (n : Nat)
  | flag (b : Bool)
  deriving DecidableEq

namespace LogLine

def level : LogLine → Level
  | .eventUnheard _ => .trace
  | .bufferReleased .. | .workerClosed .. | .bufferIgnored .. | .eventCancelled _
  | .endpointFailed .. | .roomStarted .. | .roomEnded .. | .participantJoined ..
  | .participantLeft .. => .debug
  | .workerRegistered .. | .workerRemoved .. | .allWorkersClosed _ | .poolStarted ..
  | .poolStopped _ | .webhooksEnabled _ => .info
  | .workerReplaced .. | .deliveryDropped .. | .deliveryFailed .. => .warn

def message : LogLine → String
  | .bufferReleased .. => "Track buffer released"
  | .workerClosed .. => "Stats worker closed"
  | .workerRegistered .. => "Stats worker registered"
  | .workerReplaced .. => "Replaced existing stats worker"
  | .workerRemoved .. => "Stats worker removed"
  | .allWorkersClosed _ => "Closed all stats workers"
  | .bufferIgnored .. => "Track buffer ignored: no stats worker"
  | .eventCancelled _ => "Analytics event dropped: context cancelled"
  | .eventUnheard _ => "Analytics event dropped: no receivers"
  | .poolStarted .. => "Delivery pool started"
  | .poolStopped _ => "Delivery pool stopped"
  | .webhooksEnabled _ => "Webhook notifications enabled"
  | .deliveryDropped .. => "Webhook delivery dropped"
  | .deliveryFailed .. => "Failed to notify webhook"
  | .endpointFailed .. => "Webhook endpoint failed"
  | .roomStarted .. => "Room started"
  | .roomEnded .. => "Room ended"
  | .participantJoined .. => "Participant joined"
  | .participantLeft .. => "Participant left"

def fields : LogLine → List (String × LogValue)
  | .bufferReleased participant ssrc track =>
    [("participant", .text participant), ("ssrc", .number ssrc.toNat), ("track", .text track)]
  | .workerClosed participant room released =>
    [("participant", .text participant), ("room", .text room), ("released", .number released)]
  | .workerRegistered participant room workers =>
    [("participant", .text participant), ("room", .text room), ("workers", .number workers)]
  | .workerReplaced participant previousRoom room =>
    [("participant", .text participant), ("previous_room", .text previousRoom),
      ("room", .text room)]
  | .workerRemoved participant room released workers =>
    [("participant", .text participant), ("room", .text room),
      ("released_buffers", .number released), ("workers", .number workers)]
  | .allWorkersClosed workers => [("workers", .number workers)]
  | .bufferIgnored participant track ssrc =>
    [("participant", .text participant), ("track", .text track), ("ssrc", .number ssrc.toNat)]
  | .eventCancelled kind => [("event", .text kind.label)]
  | .eventUnheard kind => [("event", .text kind.label)]
  | .poolStarted maxWorkers queueCapacity =>
    [("max_workers", .number maxWorkers), ("queue_capacity", .number queueCapacity)]
  | .poolStopped stats =>
    [("submitted", .number stats.submitted), ("completed", .number stats.completed),
      ("rejected", .number stats.rejected), ("panicked", .number stats.panicked)]
  | .webhooksEnabled endpoints => [("endpoints", .number endpoints)]
  | .deliveryDropped kind id error =>
    [("event", .text kind.label), ("id", .text id), ("error", .text error.message)]
  | .deliveryFailed kind id error =>
    [("event", .text kind.label), ("id", .text id), ("error", .text error.message)]
  | .endpointFailed url kind error =>
    [("url", .text url), ("event", .text kind.label), ("error", .text error.message)]
  | .roomStarted room name => [("room", .text room), ("name", .text name)]
  | .roomEnded room name => [("room", .text room), ("name", .text name)]
  | .participantJoined room participant identity =>
    [("room", .text room), ("participant", .text participant), ("identity", .text identity)]
  | .participantLeft room participant hadWorker =>
    [("room", .text room), ("participant", .text participant), ("had_worker", .flag hadWorker)]

/-- What a line about a closed worker says. -/
def closing? : LogLine → Option (String × String × Nat)
  | .workerClosed participant room released => some (participant, room, released)
  | _ => none

/-- Whether the first of two lines may stand before the second, both about closed workers. -/
def closesBefore (a b : LogLine) : Bool :=
  match a.closing?, b.closing? with
  | some (p, r, n), some (q, s, m) =>
    p < q || (p == q && (r < s || (r == s && n ≤ m)))
  | _, _ => true

/-- Sorts each run of adjacent lines about closed workers, whose order means nothing. -/
def arrange (lines : List LogLine) : List LogLine :=
  (lines.splitBy fun a b => a.closing?.isSome && b.closing?.isSome).flatMap
    fun run => run.mergeSort closesBefore

end LogLine

/-- What an operation leaves, answers and logs. -/
structure Outcome (σ α : Type) where
  state : σ
  result : α
  log : List LogLine := []

end RoomWatch
