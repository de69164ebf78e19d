import RoomWatch.Snapshot

/-!
# Webhook events

What is posted to the webhook endpoints. Rooms, participants and recordings are reported;
tracks are not. An event is stamped with an id and the time when it is handed over
(`WebhookEvent.stamp`); until then both are empty.
-/

namespace RoomWatch

open Wire

/-- The transition that a webhook reports. -/
inductive WebhookKind where
  | roomStarted
  | roomFinished
  | participantJoined
  | participantLeft
  | recordingStarted
  | recordingFinished
  deriving DecidableEq

def WebhookKind.label : WebhookKind → String
  | .roomStarted => "room_started"
  | .roomFinished => "room_finished"
  | .participantJoined => "participant_joined"
  | .participantLeft => "participant_left"
  | .recordingStarted => "recording_started"
  | .recordingFinished => "recording_finished"

instance : Labelled WebhookKind where
  all := [.roomStarted, .roomFinished, .participantJoined, .participantLeft, .recordingStarted,
    .recordingFinished]
  label := WebhookKind.label
  mem_all a := by cases a <;> decide
  label_injective {a b} := by cases a <;> cases b <;> decide

def WebhookKind.codec : Codec WebhookKind := .choice WebhookKind

structure WebhookEvent where
  kind : WebhookKind
  room : Option Room := none
  participant : Option Participant := none
  recording : Option Recording := none
  id : String := ""
  /-- Unix seconds. -/
  createdAt : Int64 := 0
  deriving DecidableEq

namespace WebhookEvent

def schema : Schema WebhookEvent where
  name := "WebhookEvent"
  Row := WebhookKind × Option Room × Option Participant × Option Recording × String × Int64 × Unit
  fields :=
    .cons (.required "event" WebhookKind.codec) <|
    .cons (.optional "room" Room.codec) <|
    .cons (.optional "participant" Participant.codec) <|
    .cons (.optional "recording_info" Recording.codec) <|
    .cons (.required "id" .text) <|
    .cons (.required "created_at" .int64) .nil
  build := fun (kind, room, participant, recording, id, createdAt, ()) =>
    ⟨kind, room, participant, recording, id, createdAt⟩
  parts e := (e.kind, e.room, e.participant, e.recording, e.id, e.createdAt, ())
  build_parts _ := rfl
  parts_build _ := rfl

def codec : Codec WebhookEvent := schema.codec

def roomStarted (room : Room) : WebhookEvent := { kind := .roomStarted, room := some room }

def roomFinished (room : Room) : WebhookEvent := { kind := .roomFinished, room := some room }

def participantJoined (room : Room) (participant : Participant) : WebhookEvent :=
  { kind := .participantJoined, room := some room, participant := some participant }

def participantLeft (room : Room) (participant : Participant) : WebhookEvent :=
  { kind := .participantLeft, room := some room, participant := some participant }

def recordingStarted (recording : Recording) : WebhookEvent :=
  { kind := .recordingStarted, recording := some recording }

def recordingFinished (recording : Recording) : WebhookEvent :=
  { kind := .recordingFinished, recording := some recording }

/-- The event with its id and the time at which it is handed over. -/
def stamp (e : WebhookEvent) (id : String) (now : Int64) : WebhookEvent :=
  { e with id := id, createdAt := now }

end WebhookEvent

end RoomWatch
