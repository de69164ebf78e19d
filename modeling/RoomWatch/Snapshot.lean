import RoomWatch.Wire.Choice
import RoomWatch.Wire.Record

/-!
# Snapshots

Values that describe a room, a participant, a client, a track or a recording at the time of
an event. The caller passes them in; they are only copied into events. Of all their fields
only ids and room names are ever looked at.

Each snapshot has a `codec`, given by its list of fields.
-/

namespace RoomWatch

open Wire

/-- A room. Times are unix seconds. -/
structure Room where
  sid : String := ""
  name : String := ""
  creationTime : Int64 := 0
  metadata : String := ""
  numParticipants : UInt32 := 0
  deriving DecidableEq

/-- A room of which only the name is known. -/
def Room.named (name : String) : Room := { name }

def Room.schema : Schema Room where
  name := "Room"
  Row := String × String × Int64 × String × UInt32 × Unit
  fields :=
    .cons (.required "sid" .text) <|
    .cons (.required "name" .text) <|
    .cons (.required "creation_time" .int64) <|
    .cons (.textOrEmpty "metadata") <|
    .cons (.defaulted "num_participants" .uint32 0) .nil
  build := fun (sid, name, time, metadata, count, ()) => ⟨sid, name, time, metadata, count⟩
  parts r := (r.sid, r.name, r.creationTime, r.metadata, r.numParticipants, ())
  build_parts _ := rfl
  parts_build _ := rfl

def Room.codec : Codec Room := Room.schema.codec

/-- A participant. The `sid` is the key under which its stats worker is registered. -/
structure Participant where
  sid : String := ""
  identity : String := ""
  name : String := ""
  metadata : String := ""
  joinedAt : Int64 := 0
  deriving DecidableEq

def Participant.schema : Schema Participant where
  name := "ParticipantInfo"
  Row := String × String × String × String × Int64 × Unit
  fields :=
    .cons (.required "sid" .text) <|
    .cons (.required "identity" .text) <|
    .cons (.textOrEmpty "name") <|
    .cons (.textOrEmpty "metadata") <|
    .cons (.defaulted "joined_at" .int64 0) .nil
  build := fun (sid, identity, name, metadata, joined, ()) =>
    ⟨sid, identity, name, metadata, joined⟩
  parts p := (p.sid, p.identity, p.name, p.metadata, p.joinedAt, ())
  build_parts _ := rfl
  parts_build _ := rfl

def Participant.codec : Codec Participant := Participant.schema.codec

/-- The software that a client reports when it connects. -/
inductive Sdk where
  | unknown
  | js
  | swift
  | android
  | flutter
  | go
  | unity
  | reactNative
  | rust
  deriving DecidableEq

def Sdk.label : Sdk → String
  | .unknown => "UNKNOWN"
  | .js => "JS"
  | .swift => "SWIFT"
  | .android => "ANDROID"
  | .flutter => "FLUTTER"
  | .go => "GO"
  | .unity => "UNITY"
  | .reactNative => "REACT_NATIVE"
  | .rust => "RUST"

instance : Labelled Sdk where
  all := [.unknown, .js, .swift, .android, .flutter, .go, .unity, .reactNative, .rust]
  label := Sdk.label
  mem_all a := by cases a <;> decide
  label_injective {a b} := by cases a <;> cases b <;> decide

def Sdk.codec : Codec Sdk := .choice Sdk

/-- What a client reports when it connects. -/
structure Client where
  sdk : Sdk := .unknown
  version : String := ""
  os : String := ""
  deriving DecidableEq

def Client.schema : Schema Client where
  name := "ClientInfo"
  Row := Sdk × String × String × Unit
  fields :=
    .cons (.required "sdk" Sdk.codec) <|
    .cons (.defaulted "version" .text "") <|
    .cons (.defaulted "os" .text "") .nil
  build := fun (sdk, version, os, ()) => ⟨sdk, version, os⟩
  parts c := (c.sdk, c.version, c.os, ())
  build_parts _ := rfl
  parts_build _ := rfl

def Client.codec : Codec Client := Client.schema.codec

/-- The kind of media that a track carries. -/
inductive Media where
  | audio
  | video
  | data
  deriving DecidableEq

def Media.label : Media → String
  | .audio => "AUDIO"
  | .video => "VIDEO"
  | .data => "DATA"

instance : Labelled Media where
  all := [.audio, .video, .data]
  label := Media.label
  mem_all a := by cases a <;> decide
  label_injective {a b} := by cases a <;> cases b <;> decide

def Media.codec : Codec Media := .choice Media

/-- The transport id of a published track. -/
abbrev Ssrc := UInt32

structure Track where
  sid : String := ""
  media : Media := .audio
  name : String := ""
  muted : Bool := false
  deriving DecidableEq

def Track.schema : Schema Track where
  name := "TrackInfo"
  Row := String × Media × String × Bool × Unit
  fields :=
    .cons (.required "sid" .text) <|
    .cons (.required "type" Media.codec) <|
    .cons (.textOrEmpty "name") <|
    .cons (.defaulted "muted" .boolean false) .nil
  build := fun (sid, media, name, muted, ()) => ⟨sid, media, name, muted⟩
  parts t := (t.sid, t.media, t.name, t.muted, ())
  build_parts _ := rfl
  parts_build _ := rfl

def Track.codec : Codec Track := Track.schema.codec

/-- A recording of a room. It has an id of its own and knows its room only by name. -/
structure Recording where
  id : String := ""
  roomName : String := ""
  /-- The request that started it. -/
  request : String := ""
  /-- Why it failed, if it did. -/
  error : String := ""
  deriving DecidableEq

def Recording.schema : Schema Recording where
  name := "RecordingInfo"
  Row := String × String × String × String × Unit
  fields :=
    .cons (.required "id" .text) <|
    .cons (.required "room_name" .text) <|
    .cons (.textOrEmpty "request") <|
    .cons (.textOrEmpty "error") .nil
  build := fun (id, roomName, request, error, ()) => ⟨id, roomName, request, error⟩
  parts r := (r.id, r.roomName, r.request, r.error, ())
  build_parts _ := rfl
  parts_build _ := rfl

def Recording.codec : Codec Recording := Recording.schema.codec

end RoomWatch
