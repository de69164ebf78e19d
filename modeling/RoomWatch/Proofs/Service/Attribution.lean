import RoomWatch.Proofs.Service.Run

/-!
# Which room an event is attributed to

A track event carries only the id of its participant. Which room that participant is in follows
from the calls alone: it is decided by the latest of the participant's joins and leaves
(`lastRoom?`). The registry knows the same.

* `room?_consult`: what a call does to the room that the registry knows for a participant.
* `attributing_step`: every step keeps registry and client in agreement with the calls.
* `attributed_of_run`: **in every run the registry knows each participant's room as the calls
  tell it, and the client is handed one event for each call, attributed to that room.**
-/

namespace RoomWatch

/-- The room that the registry knows for a participant. -/
def Registry.room? (r : Registry) (id : String) : Option RoomContext :=
  (r.find? id).map Worker.context

/-- What a call says about where a participant is: in a room since it has joined, or nowhere
since it has left, whichever room the call names. -/
def Call.attendance? (id : String) : Call → Option (Option RoomContext)
  | .participantJoined room participant _ =>
    if participant.sid = id then some (some ⟨room.sid, room.name⟩) else none
  | .participantLeft _ participant => if participant.sid = id then some none else none
  | _ => none

/-- Where a participant is by the latest call that says so. The latest call comes first. -/
def lastRoom? (calls : List (Moment × Call)) (id : String) : Option RoomContext :=
  (calls.findSome? fun x => x.2.attendance? id).join

/-- The room to which a call's track is attributed, after earlier calls. -/
def contextAfter (earlier : List (Moment × Call)) (c : Call) : RoomContext :=
  (c.track?.bind fun t => lastRoom? earlier t.1).getD {}

/-- The events that calls report, in the order of the calls. The latest call comes first. -/
def reports : List (Moment × Call) → List (Moment × AnalyticsEvent)
  | [] => []
  | (m, c) :: earlier =>
    reports earlier ++
      ((c.report? (max 0 m.clock) (contextAfter earlier c)).map fun e => (m, e)).toList

/-- A client that has been handed an event. -/
def AnalyticsClient.hand (client : AnalyticsClient) (x : Moment × AnalyticsEvent) :
    AnalyticsClient := (client.send x.1.cancelled x.2).state

/-- A client that collects keeps what it is handed, in that order. -/
theorem foldl_hand_collecting (earlier : List (Bool × AnalyticsEvent))
    (events : List (Moment × AnalyticsEvent)) :
    events.foldl AnalyticsClient.hand (.collecting earlier) =
      .collecting (earlier ++ events.map fun x => (x.1.cancelled, x.2)) := by
  induction events generalizing earlier with
  | nil => exact congrArg AnalyticsClient.collecting (List.append_nil earlier).symm
  | cons x events ih =>
    refine (ih _).trans ?_
    rw [List.append_assoc]
    rfl

theorem lastRoom?_cons (m : Moment) (c : Call) (earlier : List (Moment × Call)) (id : String) :
    lastRoom? ((m, c) :: earlier) id = (c.attendance? id).getD (lastRoom? earlier id) := by
  unfold lastRoom?
  rw [List.findSome?_cons]
  cases c.attendance? id <;> rfl

/-- Every call reports one event, but for an opened buffer. -/
theorem kinds_reports (calls : List (Moment × Call)) :
    (reports calls).map (fun x => x.2.kind) =
      calls.reverse.filterMap fun x => x.2.transition? := by
  induction calls with
  | nil => rfl
  | cons x earlier ih =>
    obtain ⟨m, c⟩ := x
    rw [reports, List.map_append, ih, List.reverse_cons, List.filterMap_append]
    congr 1
    cases c <;> rfl

namespace Registry

variable (r : Registry)

theorem contains_eq (id : String) : r.contains id = (r.room? id).isSome := by
  unfold contains room?
  rw [Option.isSome_map]

theorem get_eq (id : String) : r.get id = (r.room? id).getD {} := rfl

/-- Opening and releasing buffers does not move anyone to another room. -/
theorem room?_openTrack (id other : String) (ssrc : Ssrc) (trackSid : String) :
    room? (r.openTrack id ssrc trackSid).1 other = r.room? other := by
  unfold room?
  rw [find?_openTrack]
  split
  · next he =>
    rw [he, Option.map_map]
    congr 1
    funext w
    exact Worker.context_eq (w.identity_addBuffer ssrc trackSid)
  · rfl

theorem room?_releaseTrack (id other : String) (ssrc : Ssrc) :
    room? (r.releaseTrack id ssrc).state other = r.room? other := by
  unfold room?
  rw [find?_releaseTrack]
  split
  · next he =>
    rw [he, Option.map_map]
    congr 1
    funext w
    exact Worker.context_eq (w.identity_removeBuffer ssrc)
  · rfl

/-- **Where the registry knows a participant to be after a call.** -/
theorem room?_consult (c : Call) (id : String) :
    room? (c.consult r).state id = (c.attendance? id).getD (r.room? id) := by
  cases c with
  | participantJoined room participant client =>
    simp only [Call.consult, Call.attendance?, room?, find?_put]
    by_cases he : participant.sid = id
    · rw [if_pos he.symm, if_pos he]
      rfl
    · rw [if_neg (Ne.symm he), if_neg he]
      rfl
  | participantLeft room participant =>
    simp only [Call.consult, Call.attendance?, room?, find?_removeAndClose]
    by_cases he : participant.sid = id
    · rw [if_pos he.symm, if_pos he]
      rfl
    · rw [if_neg (Ne.symm he), if_neg he]
      rfl
  | trackUnpublished k track ssrc => exact r.room?_releaseTrack k id ssrc
  | trackBufferOpened k ssrc track => exact r.room?_openTrack k id ssrc track.sid
  | _ => rfl

/-- A call learns from the registry where the participant of its track is. -/
theorem seen_room (c : Call) :
    (c.consult r).result.room = (c.track?.bind fun t => r.room? t.1).getD {} := by
  cases c with
  | trackUnpublished id track ssrc => exact r.result_releaseTrack id ssrc
  | _ => rfl

end Registry

namespace ServiceRun

variable {a a' : ServiceRun} {before : AnalyticsClient}

/-- **Registry and client agree with the calls.** -/
structure Attributing (before : AnalyticsClient) (a : ServiceRun) : Prop where
  accepting : a.service.pool.phase = .accepting
  rooms : ∀ id, a.service.registry.room? id = lastRoom? a.calls id
  handed : a.service.analytics = (reports a.calls).foldl AnalyticsClient.hand before

/-- A pool that goes on accepting changes nothing about that. -/
theorem Attributing.of_pool (h : a.Attributing before) {p : Pool Delivery}
    (hp : p.phase = .accepting) (notices : List (WebhookEvent × Reaction)) (log : List LogLine) :
    Attributing before
      { a with service := { a.service with pool := p }, notices := notices, log := log } :=
  ⟨hp, h.rooms, h.handed⟩

theorem attributing_call (h : a.Attributing before) (m : Moment) (c : Call) (log : List LogLine) :
    Attributing before
      { a with service := (a.service.call m c).state, calls := (m, c) :: a.calls, log := log } := by
  have hstate := a.service.call_state m c
  -- the call learns where the participant was before it, which the earlier calls tell
  have hroom : (c.consult a.service.registry).result.room = contextAfter a.calls c := by
    rw [Registry.seen_room]
    unfold contextAfter
    simp only [h.rooms]
  refine ⟨Service.accepting_call h.accepting m c, ?_, ?_⟩
  · intro id
    rw [hstate, lastRoom?_cons, ← h.rooms id]
    exact Registry.room?_consult ..
  · rw [hstate]
    simp only [Service.clientAfter, reports, List.foldl_append]
    rw [Call.event?_eq_report?, unixTime_eq_max, hroom, ← h.handed]
    cases c.report? (max 0 m.clock) (contextAfter a.calls c) <;> rfl

/-- Every step but a shutdown call keeps this. -/
theorem attributing_step {e : ServiceEvent} (h : a.Attributing before) (he : e ≠ .shutdown)
    (hs : a.Stepped e a') : a'.Attributing before := by
  cases hs with
  | call m c => exact attributing_call h m c _
  | move m p _ hp => exact h.of_pool (Pool.accepting_move h.accepting hp) _ _
  | answer j r _ hp => exact h.of_pool (Pool.accepting_move h.accepting hp) _ _
  | shutdown => exact absurd rfl he
  -- workers are cleared away only after a shutdown call
  | clear hc => exact absurd h.accepting hc

/-- **Events are attributed as the calls tell.** -/
structure Attributed (before : AnalyticsClient) (es : List ServiceEvent) (a : ServiceRun) :
    Prop where
  calls : a.calls.reverse = es.filterMap ServiceEvent.call?
  /-- A participant has a worker if the latest of its joins and leaves is a join. -/
  contains : ∀ id, a.service.registry.contains id = (lastRoom? a.calls id).isSome
  /-- The room of a participant is the one that it has joined last, unless it has left since. -/
  get : ∀ id, a.service.registry.get id = (lastRoom? a.calls id).getD {}
  /-- The client has been handed the events that the calls report, and nothing else. -/
  handed : a.service.analytics = (reports a.calls).foldl AnalyticsClient.hand before
  /-- A client that collects has kept all of them, those of cancelled calls included. -/
  kept : ∀ earlier, before = .collecting earlier → a.service.analytics =
    .collecting (earlier ++ (reports a.calls).map fun x => (x.1.cancelled, x.2))
  /-- That is one event for each call that has a transition, in the order of the calls. -/
  kinds : (reports a.calls).map (fun x => x.2.kind) =
    (es.filterMap ServiceEvent.call?).filterMap fun x => x.2.transition?

/-- **Attribution.** In every run of a service without a shutdown call, whatever the pool and the
notifier do, the registry knows each participant's room as the joins and leaves tell it, and the
client is handed exactly the events that the calls report with these rooms. -/
theorem attributed_of_run {notifies : Bool} {bounds : PoolConfig} {es : List ServiceEvent}
    (hes : ServiceEvent.shutdown ∉ es) (h : (start before notifies bounds).run? es = some a) :
    a.Attributed before es := by
  have hstart : (start before notifies bounds).Attributing before := ⟨rfl, fun _ => rfl, rfl⟩
  have hinv : a.Attributing before :=
    invariant_run (·.Attributing before)
      (fun ha he hs => attributing_step ha (fun heq => hes (heq ▸ he)) hs) hstart h
  have hcalls := calls_run h
  refine ⟨hcalls, ?_, ?_, hinv.handed, ?_, ?_⟩
  · intro id
    rw [Registry.contains_eq, hinv.rooms]
  · intro id
    rw [Registry.get_eq, hinv.rooms]
  · intro earlier hbefore
    rw [hinv.handed, hbefore, foldl_hand_collecting]
  · rw [kinds_reports, hcalls]

/-- A participant joins a second room without leaving the first, and then leaves a third. -/
def wandering : List ServiceEvent :=
  let tick (clock : Int64) : Moment := { clock, freshId := "" }
  let join (sid : String) : Call := .participantJoined { sid } { sid := "p" } none
  [.call (tick 1) (join "a"), .call (tick 2) (.trackPublished "p" { sid := "t" }),
    .call (tick 3) (join "b"), .move .take,
    .call (tick 4) (.trackBufferOpened "p" 7 { sid := "t" }),
    .call (tick 5) (.trackUnpublished "p" { sid := "t" } 7),
    .call (tick 6) (.participantLeft { sid := "c" } { sid := "p" }),
    .call (tick 7) (.trackSubscribed "p" { sid := "t" })]

theorem attributed_of_wandering :
    ServiceEvent.shutdown ∉ wandering ∧
      ∃ a, (start (.collecting []) true ⟨1, 4⟩).run? wandering = some a ∧
        a.Attributed (.collecting []) wandering ∧
        (reports a.calls).map (fun x => x.2.roomSid) = ["a", "a", "b", "b", "c", ""] := by
  have hout : ServiceEvent.shutdown ∉ wandering := by simp [wandering]
  refine ⟨hout, _, rfl, ?_, rfl⟩
  exact @attributed_of_run _ (.collecting []) true ⟨1, 4⟩ wandering hout rfl

end ServiceRun

end RoomWatch
