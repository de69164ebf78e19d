import RoomWatch.Text.Located

/-!
# Failures

Why a webhook event could not be delivered, and why the delivery pool refuses a task. None
of them reaches the caller of a lifecycle entry point: they are logged. `Failure` collects
them, with the wording and the chain of causes below each.
-/

namespace RoomWatch

open Number Text

/-- A request that got no answer. -/
structure TransportFault where
  text : String
  timedOut : Bool
  deriving DecidableEq

/-- Why an event was not delivered. -/
inductive NotifyError where
  | transport (url : String) (fault : TransportFault)
  /-- An endpoint answered with a status outside 200 to 299. -/
  | status (url : String) (code : UInt16)
  | encoding (cause : Located)
  | cancelled
  deriving DecidableEq

def NotifyError.message : NotifyError → String
  | .transport url fault => "http request to " ++ url ++ " failed: " ++ fault.text
  | .status url code => "endpoint " ++ url ++ " returned status " ++ decimal code.toNat
  | .encoding cause => "failed to encode event: " ++ cause.message
  | .cancelled => "delivery cancelled"

/-- The text of what caused the error, if it has a cause of its own. -/
def NotifyError.cause? : NotifyError → Option String
  | .transport _ fault => some fault.text
  | .status _ _ => none
  | .encoding cause => some cause.message
  | .cancelled => none

/-- Why the pool refuses a task. -/
inductive SubmitError where
  | queueFull
  | closed
  deriving DecidableEq

def SubmitError.message : SubmitError → String
  | .queueFull => "delivery queue is full"
  | .closed => "delivery pool is closed"

/-- Any failure of the telemetry layer. -/
inductive Failure where
  /-- The webhook client could not be built. -/
  | client (cause : String)
  | notify (e : NotifyError)
  | delivery (e : SubmitError)
  deriving DecidableEq

namespace Failure

def message : Failure → String
  | .client cause => "failed to build webhook client: " ++ cause
  | .notify e => "webhook notification failed: " ++ e.message
  | .delivery e => "delivery pool rejected task: " ++ e.message

/-- The messages of the causes, from the nearest on. -/
def causes : Failure → List String
  | .client cause => [cause]
  | .notify e => e.message :: e.cause?.toList
  | .delivery e => [e.message]

end Failure

end RoomWatch
