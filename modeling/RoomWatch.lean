import RoomWatch.Service.Config
import RoomWatch.Webhook.EventId
import RoomWatch.Metrics
import RoomWatch.Registry.Basic
import RoomWatch.Pool.Task
import RoomWatch.Service.Site
import RoomWatch.Proofs.Registry.Tenure
import RoomWatch.Proofs.Service.Attribution
import RoomWatch.Proofs.Service.Webhooks
import RoomWatch.Proofs.Pool.Drain
import RoomWatch.Proofs.Service.Isolation
import RoomWatch.Proofs.Service.Linear
import RoomWatch.Proofs.Wire.RoundTrip
import RoomWatch.Proofs.Pool.Bound
import RoomWatch.Proofs.Pool.Gate
import RoomWatch.Proofs.Pool.Script
import RoomWatch.Proofs.Pool.Progress
import RoomWatch.Proofs.Analytics.Receivers
import RoomWatch.Proofs.Number.Literals
import RoomWatch.Proofs.Text.Glyphs
import RoomWatch.Proofs.Wire.Spelling
import RoomWatch.Proofs.Wire.Json
import RoomWatch.Proofs.Wire.Members
import RoomWatch.Proofs.Wire.Exact
import RoomWatch.Proofs.Pool.Refusals
import RoomWatch.Proofs.Pool.Saturation
import RoomWatch.Proofs.Pool.Backpressure
import RoomWatch.Proofs.Registry.Buffers
import RoomWatch.Proofs.Registry.Lifetime
import RoomWatch.Proofs.Service.Audience
import RoomWatch.Proofs.Service.Cancellation
import RoomWatch.Proofs.Service.Front
import RoomWatch.Proofs.Service.Closedown
import RoomWatch.Proofs.Service.Teardown
import RoomWatch.Proofs.Service.Headcount
import RoomWatch.Proofs.Analytics.Feed
import RoomWatch.Proofs.Webhook.Posting
import RoomWatch.Proofs.Wire.SelfDelimiting
import RoomWatch.Proofs.Metrics.Totals
import RoomWatch.Proofs.Wire.Positional
import RoomWatch.Proofs.Text.Faults
import RoomWatch.Proofs.Wire.Denoted
import RoomWatch.Proofs.Wire.Integers
import RoomWatch.Proofs.Number.Doubles
import RoomWatch.Proofs.Number.Overflow
