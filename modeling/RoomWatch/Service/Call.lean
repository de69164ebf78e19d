import RoomWatch.Metrics
import RoomWatch.Registry.Basic

/-!
# Entry points

The calls by which lifecycle transitions are reported, and what each of them means for the
sinks: what is counted (`count?`), what the registry is asked (`consult`), which webhook is
created (`webhook?`), which analytics event is sent (`event?`) and what is logged at the end
(`line?`). `parts` is the order in which a call goes through the sinks.
-/

namespace RoomWatch

inductive Call where
  | roomStarted (room : Room)
  | roomEnded (room : Room)
  | participantJoined (room : Room) (participant : Participant) (client : Option Client)
  | participantLeft (room : Room) (participant : Participant)
  | trackPublished (participantId : String) (track : Track)
  | trackUnpublished (participantId : String) (track : Track) (ssrc : Ssrc)
  | trackSubscribed (participantId : String) (track : Track)
  | trackUnsubscribed (participantId : String) (track : Track)
  | trackBufferOpened (participantId : String) (ssrc : Ssrc) (track : Track)
  | recordingStarted (recording : Recording)
  | recordingEnded (recording : Recording)
  deriving DecidableEq

/-- A part of a call. -/
inductive Part where
  | consult
  | count
  | notify
  | send
  | report
  deriving DecidableEq

/-- What a call has learnt from the registry. -/
structure Seen where
  room : RoomContext := {}
  /-- Whether there was a worker. -/
  found : Bool := false
  deriving DecidableEq

namespace Call

/-- The parts of a call in their order. -/
def parts : Call → List Part
  | .roomStarted .. | .roomEnded .. => [.count, .notify, .send, .report]
  | .participantJoined .. | .participantLeft .. => [.consult, .count, .notify, .send, .report]
  | .trackPublished .. | .trackUnpublished .. | .trackSubscribed .. | .trackUnsubscribed .. =>
    [.count, .consult, .send]
  | .trackBufferOpened .. => [.consult, .report]
  | .recordingStarted .. | .recordingEnded .. => [.notify, .send]

def count? : Call → Option Count
  | .roomStarted _ => some .roomStarted
  | .roomEnded room => some (.roomEnded room.creationTime)
  | .participantJoined .. => some .addParticipant
  | .participantLeft .. => some .subParticipant
  | .trackPublished _ track => some (.addPublishedTrack track.media)
  | .trackUnpublished _ track _ => some (.subPublishedTrack track.media)
  | .trackSubscribed _ track => some (.addSubscribedTrack track.media)
  | .trackUnsubscribed _ track => some (.subSubscribedTrack track.media)
  | .trackBufferOpened .. | .recordingStarted _ | .recordingEnded _ => none

def consult (r : Registry) : Call → Outcome Registry Seen
  | .participantJoined room participant _ =>
    let o := r.put participant.sid (.new room.sid room.name participant.sid)
    ⟨o.state, {}, o.log⟩
  | .participantLeft _ participant =>
    let o := r.removeAndClose participant.sid
    ⟨o.state, { found := o.result.isSome }, o.log⟩
  | .trackPublished id _ | .trackSubscribed id _ | .trackUnsubscribed id _ =>
    ⟨r, { room := r.get id }, []⟩
  | .trackUnpublished id _ ssrc =>
    let o := r.releaseTrack id ssrc
    ⟨o.state, { room := o.result }, o.log⟩
  | .trackBufferOpened id ssrc track =>
    let (after, opened) := r.openTrack id ssrc track.sid
    ⟨after, { found := opened }, []⟩
  | .roomStarted _ | .roomEnded _ | .recordingStarted _ | .recordingEnded _ => ⟨r, {}, []⟩

/-- The webhook event that a call creates, not yet stamped. Tracks have none. -/
def webhook? : Call → Option WebhookEvent
  | .roomStarted room => some (.roomStarted room)
  | .roomEnded room => some (.roomFinished room)
  | .participantJoined room participant _ => some (.participantJoined room participant)
  | .participantLeft room participant => some (.participantLeft room participant)
  | .recordingStarted recording => some (.recordingStarted recording)
  | .recordingEnded recording => some (.recordingFinished recording)
  | .trackPublished .. | .trackUnpublished .. | .trackSubscribed .. | .trackUnsubscribed ..
  | .trackBufferOpened .. => none

/-- The event of a whole room. -/
def roomEvent (kind : Transition) (time : Int64) (room : Room) : AnalyticsEvent :=
  { kind, timestamp := time, roomSid := room.sid, room := some room }

/-- The event of a track, attributed to the room of its participant. -/
def trackEvent (kind : Transition) (time : Int64) (room : RoomContext) (participantId : String)
    (track : Track) : AnalyticsEvent :=
  { kind, timestamp := time, roomSid := room.roomId, participantId, trackId := track.sid,
    room := some (.named room.roomName) }

/-- The event of a recording, which knows its room only by name. -/
def recordingEvent (kind : Transition) (time : Int64) (recording : Recording) : AnalyticsEvent :=
  { kind, timestamp := time, recordingId := recording.id, room := some (.named recording.roomName) }

/-- The analytics event of a call made at the given time. A new room is dated by its creation. -/
def event? (now : Int64) (seen : Seen) : Call → Option AnalyticsEvent
  | .roomStarted room => some (roomEvent .roomCreated room.creationTime room)
  | .roomEnded room => some (roomEvent .roomEnded now room)
  | .participantJoined room participant client => some
    { roomEvent .participantJoined now room with
      participantId := participant.sid
      participant := some participant
      sdk := some ((client.map Client.sdk).getD .unknown) }
  | .participantLeft room participant => some
    { roomEvent .participantLeft now room with participantId := participant.sid }
  | .trackPublished id track => some
    { trackEvent .trackPublished now seen.room id track with track := some track }
  | .trackUnpublished id track _ => some (trackEvent .trackUnpublished now seen.room id track)
  | .trackSubscribed id track => some (trackEvent .trackSubscribed now seen.room id track)
  | .trackUnsubscribed id track => some (trackEvent .trackUnsubscribed now seen.room id track)
  | .trackBufferOpened .. => none
  | .recordingStarted recording => some (recordingEvent .recordingStarted now recording)
  | .recordingEnded recording => some (recordingEvent .recordingEnded now recording)

/-- The line that is logged at the end of a call. -/
def line? (seen : Seen) : Call → Option LogLine
  | .roomStarted room => some (.roomStarted room.sid room.name)
  | .roomEnded room => some (.roomEnded room.sid room.name)
  | .participantJoined room participant _ =>
    some (.participantJoined room.sid participant.sid participant.identity)
  | .participantLeft room participant => some (.participantLeft room.sid participant.sid seen.found)
  | .trackBufferOpened id ssrc track =>
    if seen.found then none else some (.bufferIgnored id track.sid ssrc)
  | .trackPublished .. | .trackUnpublished .. | .trackSubscribed .. | .trackUnsubscribed ..
  | .recordingStarted _ | .recordingEnded _ => none

/-- What a call answers: whether a buffer has been opened. -/
def answer? (seen : Seen) : Call → Option Bool
  | .trackBufferOpened .. => some seen.found
  | _ => none

end Call

end RoomWatch
