import RoomWatch.Service.Basic

/-!
# What a call does to each sink

A call goes through its parts in order. Whatever the order is, it comes to this:

* `call_state`: the registry is consulted, the counters count, the pool is submitted at most one
  delivery and the client is handed at most one event.
* `event?_eq_report?`, `webhook?_eq_notice?`: what that event and that delivery say, field by
  field, in terms of what the caller has passed in.
* `warnings_call`: of webhooks, a call logs only a refused delivery.
-/

namespace RoomWatch

/-- The id of the webhook event of which a line tells that it has not been delivered. -/
def LogLine.webhookId? : LogLine → Option String
  | .deliveryDropped _ id _ | .deliveryFailed _ id _ => some id
  | _ => none

/-- The lines of a log about webhook events that have not been delivered. -/
def warnings (log : List LogLine) : List LogLine := log.filter fun l => l.webhookId?.isSome

theorem warnings_nil : warnings [] = [] := rfl

theorem warnings_append (l k : List LogLine) : warnings (l ++ k) = warnings l ++ warnings k :=
  List.filter_append l k

/-- The time at which a call is made, but never before the epoch. -/
theorem unixTime_eq_max (clock : Int64) : unixTime clock = max 0 clock := by
  unfold unixTime
  show _ = if _ then _ else _
  by_cases h : clock < 0
  · rw [if_pos h, if_neg (Int64.not_le.2 h)]
  · rw [if_neg h, if_pos (Int64.not_lt.1 h)]

namespace Call

/-! ## What the caller has passed in -/

def room? : Call → Option Room
  | .roomStarted room | .roomEnded room | .participantJoined room _ _ | .participantLeft room _ =>
    some room
  | _ => none

def participant? : Call → Option Participant
  | .participantJoined _ participant _ | .participantLeft _ participant => some participant
  | _ => none

/-- The id of the participant whose track is reported, and the track. -/
def track? : Call → Option (String × Track)
  | .trackPublished id track | .trackUnpublished id track _ | .trackSubscribed id track
  | .trackUnsubscribed id track => some (id, track)
  | _ => none

def recording? : Call → Option Recording
  | .recordingStarted recording | .recordingEnded recording => some recording
  | _ => none

/-- The software of the client that joins. -/
def sdk? : Call → Option Sdk
  | .participantJoined _ _ client => some ((client.map Client.sdk).getD .unknown)
  | _ => none

/-- The transition that a call reports to analytics. A track buffer is not reported. -/
def transition? : Call → Option Transition
  | .roomStarted _ => some .roomCreated
  | .roomEnded _ => some .roomEnded
  | .participantJoined .. => some .participantJoined
  | .participantLeft .. => some .participantLeft
  | .trackPublished .. => some .trackPublished
  | .trackUnpublished .. => some .trackUnpublished
  | .trackSubscribed .. => some .trackSubscribed
  | .trackUnsubscribed .. => some .trackUnsubscribed
  | .recordingStarted _ => some .recordingStarted
  | .recordingEnded _ => some .recordingEnded
  | .trackBufferOpened .. => none

/-- The transition that a call reports by a webhook. -/
def webhookKind? : Call → Option WebhookKind
  | .roomStarted _ => some .roomStarted
  | .roomEnded _ => some .roomFinished
  | .participantJoined .. => some .participantJoined
  | .participantLeft .. => some .participantLeft
  | .recordingStarted _ => some .recordingStarted
  | .recordingEnded _ => some .recordingFinished
  | _ => none

/-- The room that an event shows: the whole one that was passed in, or else only its name, known
from the registry for a track and from the recording for a recording. -/
def shownRoom? (c : Call) (context : RoomContext) : Option Room :=
  c.room? <|> c.track?.map (fun _ => { name := context.roomName }) <|>
    c.recording?.map fun recording => { name := recording.roomName }

/-- The analytics event of a call, field by field. A new room is dated by its creation, and only
a published track is shown whole. -/
def report? (now : Int64) (context : RoomContext) (c : Call) : Option AnalyticsEvent :=
  c.transition?.map fun kind =>
    { kind
      timestamp := if kind = .roomCreated then (c.room?.map Room.creationTime).getD 0 else now
      roomSid := (c.room?.map Room.sid <|> c.track?.map fun _ => context.roomId).getD ""
      participantId := (c.participant?.map Participant.sid <|> c.track?.map Prod.fst).getD ""
      trackId := (c.track?.map fun t => t.2.sid).getD ""
      recordingId := (c.recording?.map Recording.id).getD ""
      room := c.shownRoom? context
      participant := if kind = .participantJoined then c.participant? else none
      track := if kind = .trackPublished then c.track?.map Prod.snd else none
      sdk := c.sdk? }

/-- The stamped webhook event of a call, field by field. A clock before the epoch reads as the
epoch. -/
def notice? (m : Moment) (c : Call) : Option WebhookEvent :=
  c.webhookKind?.map fun kind =>
    { kind
      room := c.room?
      participant := c.participant?
      recording := c.recording?
      id := m.freshId
      createdAt := max 0 m.clock }

theorem event?_eq_report? (now : Int64) (seen : Seen) (c : Call) :
    c.event? now seen = c.report? now seen.room := by
  cases c <;> rfl

theorem webhook?_eq_notice? (m : Moment) (c : Call) :
    (c.webhook?.map fun e => e.stamp m.freshId (unixTime m.clock)) = c.notice? m := by
  rw [unixTime_eq_max]
  cases c <;> rfl

end Call

namespace Service

variable (s : Service) (m : Moment) (c : Call) (seen : Seen)

/-! ## One part -/

/-- The delivery that a call hands to the pool, if there is a notifier. -/
def delivery? : Option Delivery :=
  (c.notice? m).bind fun e => if s.notifies then some ⟨e, m.token⟩ else none

/-- The pool after a call. -/
def poolAfter : Pool Delivery := (s.delivery? m c).elim s.pool fun d => (s.pool.submit d).1

/-- The client after a call that has learnt something from the registry. -/
def clientAfter : AnalyticsClient :=
  (c.event? (unixTime m.clock) seen).elim s.analytics fun e =>
    (s.analytics.send m.cancelled e).state

/-- What is logged about a webhook event when it is submitted. -/
def submitLog (e : WebhookEvent) : Except SubmitError Unit → List LogLine
  | .ok () => []
  | .error error => [.deliveryDropped e.kind e.id error]

theorem part_consult :
    s.part m c seen .consult =
      ⟨{ s with registry := (c.consult s.registry).state }, (c.consult s.registry).result,
        (c.consult s.registry).log⟩ := rfl

theorem part_count :
    s.part m c seen .count =
      ⟨{ s with metrics := c.count?.elim s.metrics (s.metrics.count m.clock) }, seen, []⟩ := rfl

theorem part_report : s.part m c seen .report = ⟨s, seen, (c.line? seen).toList⟩ := rfl

theorem part_notify :
    s.part m c seen .notify =
      ⟨{ s with pool := s.poolAfter m c }, seen,
        (s.delivery? m c).elim [] fun d => submitLog d.event (s.pool.submit d).2⟩ := by
  unfold poolAfter delivery?
  rw [← Call.webhook?_eq_notice?]
  simp only [part]
  cases c.webhook? with
  | none => rfl
  | some e =>
    simp only [Option.map_some, Option.bind_some]
    by_cases hn : s.notifies = true
    · rw [if_pos hn, if_pos hn]
      rfl
    · rw [if_neg hn, if_neg hn]
      rfl

theorem state_part_send :
    (s.part m c seen .send).state = { s with analytics := s.clientAfter m c seen } := by
  unfold clientAfter
  cases he : c.event? (unixTime m.clock) seen <;> simp [part, he]

theorem result_part_send : (s.part m c seen .send).result = seen := by
  cases he : c.event? (unixTime m.clock) seen <;> simp [part, he]

/-! ## A whole call -/

/-- **What a call does.** -/
theorem call_state :
    (s.call m c).state =
      { metrics := c.count?.elim s.metrics (s.metrics.count m.clock)
        registry := (c.consult s.registry).state
        analytics := s.clientAfter m c (c.consult s.registry).result
        notifies := s.notifies
        pool := s.poolAfter m c } := by
  -- a part that a kind of call does not have would change nothing
  cases c <;>
    simp only [call, Call.parts, runParts, part_consult, part_count, part_notify, part_report,
      state_part_send, result_part_send] <;>
    rfl

/-! ## What is logged about webhooks -/

theorem warnings_close (w : Worker) : warnings w.close.log = [] := by
  unfold Worker.close
  split <;> rfl

theorem warnings_put (r : Registry) (id : String) (w : Worker) :
    warnings (r.put id w).log = [] := by
  unfold Registry.put
  split
  · simp only [warnings_append, warnings_close]; rfl
  · rfl

theorem warnings_removeAndClose (r : Registry) (id : String) :
    warnings (r.removeAndClose id).log = [] := by
  unfold Registry.removeAndClose
  split
  · rfl
  · simp only [warnings_append, warnings_close]; rfl

theorem warnings_releaseTrack (r : Registry) (id : String) (ssrc : Ssrc) :
    warnings (r.releaseTrack id ssrc).log = [] := by
  unfold Registry.releaseTrack
  split
  · rfl
  · simp only [Worker.removeBuffer]
    split <;> rfl

theorem warnings_consult (r : Registry) : warnings (c.consult r).log = [] := by
  cases c with
  | participantJoined room participant client => exact warnings_put ..
  | participantLeft room participant => exact warnings_removeAndClose ..
  | trackUnpublished id track ssrc => exact warnings_releaseTrack ..
  | _ => rfl

/-- Handing an event to the client is logged only if the event is dropped. -/
theorem mem_log_send {l : LogLine} (hl : l ∈ (s.part m c seen .send).log) :
    ∃ kind, l = .eventCancelled kind ∨ l = .eventUnheard kind := by
  cases he : c.event? (unixTime m.clock) seen with
  | none =>
    simp only [part, he] at hl
    exact absurd hl List.not_mem_nil
  | some e =>
    simp only [part, he] at hl
    cases hclient : s.analytics with
    | collecting events =>
      rw [hclient] at hl
      exact absurd hl List.not_mem_nil
    | discarding =>
      rw [hclient] at hl
      exact absurd hl List.not_mem_nil
    | streaming stream =>
      rw [hclient] at hl
      simp only [AnalyticsClient.send, AnalyticsStream.send] at hl
      split at hl
      · exact ⟨_, .inl (List.mem_singleton.1 hl)⟩
      · split at hl
        · exact ⟨_, .inr (List.mem_singleton.1 hl)⟩
        · exact absurd hl List.not_mem_nil

theorem warnings_part_send : warnings (s.part m c seen .send).log = [] := by
  refine List.filter_eq_nil_iff.2 fun l hl => ?_
  obtain ⟨kind, rfl | rfl⟩ := mem_log_send s m c seen hl <;> exact Bool.false_ne_true

theorem warnings_line : warnings (c.line? seen).toList = [] := by
  cases c with
  | trackBufferOpened id ssrc track =>
    simp only [Call.line?]
    split <;> rfl
  | _ => rfl

theorem warnings_submitLog (e : WebhookEvent) (result : Except SubmitError Unit) :
    warnings (submitLog e result) = submitLog e result := by
  cases result <;> rfl

/-- **Of webhooks, a call logs exactly that its event has been refused.** -/
theorem warnings_call :
    warnings (s.call m c).log =
      (s.delivery? m c).elim [] fun d => submitLog d.event (s.pool.submit d).2 := by
  have hnotify : ∀ d : Option Delivery,
      warnings (d.elim [] fun d => submitLog d.event (s.pool.submit d).2) =
        d.elim [] fun d => submitLog d.event (s.pool.submit d).2 := by
    intro d
    cases d with
    | none => rfl
    | some d => exact warnings_submitLog _ _
  cases c <;>
    simp only [call, Call.parts, runParts, part_consult, part_count, part_notify, part_report,
      result_part_send, state_part_send, warnings_append, warnings_consult, warnings_part_send,
      warnings_line] <;>
    simp only [List.nil_append, List.append_nil, warnings_nil] <;>
    first
    | exact hnotify _
    | rfl

end Service

end RoomWatch
