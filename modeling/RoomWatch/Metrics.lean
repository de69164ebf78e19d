import RoomWatch.Snapshot

/-!
# Lifecycle counters

Counters of rooms, participants and tracks. Gauges are signed and may fall below zero; all
counters wrap around at 64 bits. An ended room adds its lifetime in seconds, which is never
negative and saturates (`lifetime`).
-/

namespace RoomWatch

/-- The clock as unix seconds: a clock before 1970 counts as zero. -/
def unixTime (clock : Int64) : Int64 := if clock < 0 then 0 else clock

/-- The lifetime of a room created at `createdAt` that ends now, between zero and the largest
number of seconds that a clock can show. -/
def lifetime (clock createdAt : Int64) : UInt64 :=
  UInt64.ofNat (min ((unixTime clock).toInt - createdAt.toInt) Int64.maxValue.toInt).toNat

/-- A gauge for each kind of media. -/
structure TrackGauge where
  audio : Int64 := 0
  video : Int64 := 0
  data : Int64 := 0
  deriving DecidableEq

namespace TrackGauge

def get (g : TrackGauge) : Media → Int64
  | .audio => g.audio
  | .video => g.video
  | .data => g.data

/-- Adds to the gauge of one kind of media. -/
def add (g : TrackGauge) (media : Media) (n : Int64) : TrackGauge :=
  match media with
  | .audio => { g with audio := g.audio + n }
  | .video => { g with video := g.video + n }
  | .data => { g with data := g.data + n }

end TrackGauge

/-- All counters. -/
structure Metrics where
  /-- Rooms that are open. -/
  rooms : Int64 := 0
  roomsStartedTotal : UInt64 := 0
  roomsEndedTotal : UInt64 := 0
  /-- The sum of the lifetimes of ended rooms. -/
  roomDurationSecondsTotal : UInt64 := 0
  /-- Participants that are in a room. -/
  participants : Int64 := 0
  participantsJoinedTotal : UInt64 := 0
  publishedTracks : TrackGauge := {}
  subscribedTracks : TrackGauge := {}
  deriving DecidableEq

/-- Something that is counted. -/
inductive Count where
  | roomStarted
  | roomEnded (createdAt : Int64)
  | addParticipant
  | subParticipant
  | addPublishedTrack (media : Media)
  | subPublishedTrack (media : Media)
  | addSubscribedTrack (media : Media)
  | subSubscribedTrack (media : Media)
  deriving DecidableEq

/-- The counters after something has been counted, with the clock at that time. -/
def Metrics.count (m : Metrics) (clock : Int64) : Count → Metrics
  | .roomStarted => { m with rooms := m.rooms + 1, roomsStartedTotal := m.roomsStartedTotal + 1 }
  | .roomEnded createdAt =>
    { m with
      rooms := m.rooms - 1
      roomsEndedTotal := m.roomsEndedTotal + 1
      roomDurationSecondsTotal := m.roomDurationSecondsTotal + lifetime clock createdAt }
  | .addParticipant =>
    { m with
      participants := m.participants + 1
      participantsJoinedTotal := m.participantsJoinedTotal + 1 }
  | .subParticipant => { m with participants := m.participants - 1 }
  | .addPublishedTrack media => { m with publishedTracks := m.publishedTracks.add media 1 }
  | .subPublishedTrack media => { m with publishedTracks := m.publishedTracks.add media (-1) }
  | .addSubscribedTrack media => { m with subscribedTracks := m.subscribedTracks.add media 1 }
  | .subSubscribedTrack media => { m with subscribedTracks := m.subscribedTracks.add media (-1) }

end RoomWatch
