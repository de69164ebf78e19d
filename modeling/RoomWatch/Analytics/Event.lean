import RoomWatch.Snapshot

/-!
# Analytics events

What the analytics client is handed for each lifecycle transition. Ids that do not apply, or
are not known, are empty texts.
-/

namespace RoomWatch

open Wire

/-- The transition that an analytics event reports. -/
inductive Transition where
  | roomCreated
  | roomEnded
  | participantJoined
  | participantLeft
  | trackPublished
  | trackUnpublished
  | trackSubscribed
  | trackUnsubscribed
  | recordingStarted
  | recordingEnded
  deriving DecidableEq

def Transition.label : Transition → String
  | .roomCreated => "ROOM_CREATED"
  | .roomEnded => "ROOM_ENDED"
  | .participantJoined => "PARTICIPANT_JOINED"
  | .participantLeft => "PARTICIPANT_LEFT"
  | .trackPublished => "TRACK_PUBLISHED"
  | .trackUnpublished => "TRACK_UNPUBLISHED"
  | .trackSubscribed => "TRACK_SUBSCRIBED"
  | .trackUnsubscribed => "TRACK_UNSUBSCRIBED"
  | .recordingStarted => "RECORDING_STARTED"
  | .recordingEnded => "RECORDING_ENDED"

instance : Labelled Transition where
  all := [.roomCreated, .roomEnded, .participantJoined, .participantLeft, .trackPublished,
    .trackUnpublished, .trackSubscribed, .trackUnsubscribed, .recordingStarted, .recordingEnded]
  label := Transition.label
  mem_all a := by cases a <;> decide
  label_injective {a b} := by cases a <;> cases b <;> decide

def Transition.codec : Codec Transition := .choice Transition

structure AnalyticsEvent where
  kind : Transition
  /-- Unix seconds. -/
  timestamp : Int64
  roomSid : String := ""
  participantId : String := ""
  trackId : String := ""
  recordingId : String := ""
  room : Option Room := none
  participant : Option Participant := none
  track : Option Track := none
  sdk : Option Sdk := none
  deriving DecidableEq

namespace AnalyticsEvent

/-- The name of the room in question, empty if there is none. -/
def roomName (e : AnalyticsEvent) : String := (e.room.map Room.name).getD ""

def schema : Schema AnalyticsEvent where
  name := "AnalyticsEvent"
  Row := Transition × Int64 × String × String × String × String ×
    Option Room × Option Participant × Option Track × Option Sdk × Unit
  fields :=
    .cons (.required "type" Transition.codec) <|
    .cons (.required "timestamp" .int64) <|
    .cons (.defaulted "room_sid" .text "") <|
    .cons (.defaulted "participant_id" .text "") <|
    .cons (.defaulted "track_id" .text "") <|
    .cons (.defaulted "recording_id" .text "") <|
    .cons (.optional "room" Room.codec) <|
    .cons (.optional "participant" Participant.codec) <|
    .cons (.optional "track" Track.codec) <|
    .cons (.optional "sdk_type" Sdk.codec) .nil
  build := fun (kind, timestamp, roomSid, participantId, trackId, recordingId, room, participant,
    track, sdk, ()) => ⟨kind, timestamp, roomSid, participantId, trackId, recordingId, room,
    participant, track, sdk⟩
  parts e := (e.kind, e.timestamp, e.roomSid, e.participantId, e.trackId, e.recordingId, e.room,
    e.participant, e.track, e.sdk, ())
  build_parts _ := rfl
  parts_build _ := rfl

def codec : Codec AnalyticsEvent := schema.codec

end AnalyticsEvent

end RoomWatch
