import RoomWatch.Analytics.Stream
import RoomWatch.Pool.Config

/-!
# Configuration of the telemetry service

Where webhooks go, how they are delivered, and how many events a stream keeps. Webhooks are
enabled by naming an endpoint.
-/

namespace RoomWatch

structure TelemetryConfig where
  /-- Webhook endpoints; without any, webhooks are disabled. -/
  webhookUrls : List String := []
  /-- The bearer token for the endpoints. -/
  webhookApiKey : Option String := none
  /-- How long one request may take. -/
  webhookTimeoutMs : Nat := 5000
  deliveryWorkers : Nat := 50
  deliveryQueueCapacity : Nat := 4096
  /-- How many events an analytics stream keeps. -/
  analyticsBuffer : Nat := defaultAnalyticsBuffer
  deriving DecidableEq

namespace TelemetryConfig

/-- Adds an endpoint behind the others. -/
def addWebhookUrl (c : TelemetryConfig) (url : String) : TelemetryConfig :=
  { c with webhookUrls := c.webhookUrls ++ [url] }

def webhooksEnabled (c : TelemetryConfig) : Bool := !c.webhookUrls.isEmpty

/-- The bounds of the delivery pool. -/
def poolConfig (c : TelemetryConfig) : PoolConfig := ⟨c.deliveryWorkers, c.deliveryQueueCapacity⟩

end TelemetryConfig

end RoomWatch
