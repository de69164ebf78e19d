import RoomWatch.Analytics.Stream

/-!
# Analytics clients

A client takes events without ever making the caller wait. It may collect them, discard
them, or hand them to the receivers of a stream. A client that collects keeps every event that it
is handed, with whether the context of the event was cancelled.
-/

namespace RoomWatch

inductive AnalyticsClient where
  | collecting (events : List (Bool × AnalyticsEvent))
  | discarding
  | streaming (s : AnalyticsStream)

/-- Hands an event to the client. -/
def AnalyticsClient.send (c : AnalyticsClient) (cancelled : Bool) (e : AnalyticsEvent) :
    Outcome AnalyticsClient Unit :=
  match c with
  | .collecting events => ⟨.collecting (events ++ [(cancelled, e)]), (), []⟩
  | .discarding => ⟨.discarding, (), []⟩
  | .streaming s =>
    let o := s.send cancelled e
    ⟨.streaming o.state, (), o.log⟩

/-- The events whose context was not cancelled. -/
def uncancelled (events : List (Bool × AnalyticsEvent)) : List AnalyticsEvent :=
  events.filterMap fun x => if x.1 then none else some x.2

end RoomWatch
