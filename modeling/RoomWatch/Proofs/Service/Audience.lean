import RoomWatch.Proofs.Analytics.Receivers
import RoomWatch.Proofs.Service.Isolation

/-!
# Calls with an audience

The client of a service may be a stream. While calls overlap, receivers subscribe, receive and go,
and the stream has a history of its own (`Audience.run?`).

* `tuned_run`: **as long as some receiver is there, the stream accepts exactly the events of calls
  that are not cancelled**, in the order in which it is handed them, and drops the others.
* `mute_run`: nothing else can be seen of the stream. Without it the calls do the same.
-/

namespace RoomWatch

/-- A crowd on a service with a stream, and what has happened to the stream. -/
structure Audience where
  crowd : Crowd
  history : StreamHistory := []

/-- Something that happens to an audience. -/
inductive AudienceEvent where
  | crowd (e : CrowdEvent)
  | subscribe (name : String)
  | unsubscribe (name : String)
  | receive (name : String)

/-- The part of an event that callers take in it. -/
def AudienceEvent.front? : AudienceEvent → Option CrowdEvent
  | .crowd (.begin m c) => some (.begin m c)
  | .crowd (.act i) => some (.act i)
  | .crowd (.aside _) | .subscribe _ | .unsubscribe _ | .receive _ => none

/-- What happens to the pool without any of the calls. -/
def AudienceEvent.aside? : AudienceEvent → Option (PoolEvent Delivery)
  | .crowd e => e.aside?
  | .subscribe _ | .unsubscribe _ | .receive _ => none

/-- What a receiver does to the stream. -/
def AudienceEvent.stream? : AudienceEvent → Option StreamEvent
  | .crowd _ => none
  | .subscribe name => some (.subscribe name)
  | .unsubscribe name => some (.unsubscribe name)
  | .receive name => some (.receive name)

/-- The event that a client is handed next by the call with the given number, and whether the
context of the call is cancelled. -/
def Crowd.hands? (a : Crowd) : CrowdEvent → Option (Bool × AnalyticsEvent)
  | .act i => (a.activities[i]?).bind fun x => x.left.head?.bind x.toAccount.handing?
  | .begin _ _ | .aside _ => none

/-- What has happened to a stream that is handed an event. -/
def StreamEntry.ofHanding (x : Bool × AnalyticsEvent) : StreamEntry := .sent x.1 x.2

namespace Audience

/-- A receiver does something; none if it cannot. -/
def listen? (a : Audience) (e : StreamEvent) : Option Audience :=
  match a.crowd.service.analytics with
  | .streaming stream =>
    ((StreamRun.mk stream a.history).step? e).map fun r =>
      { crowd := { a.crowd with
          service := { a.crowd.service with analytics := .streaming r.stream } }
        history := r.history }
  | .collecting _ | .discarding => none

def step? (a : Audience) : AudienceEvent → Option Audience
  | .crowd e =>
    (a.crowd.step? e).map fun b =>
      ⟨b, (a.crowd.hands? e).toList.map StreamEntry.ofHanding ++ a.history⟩
  | .subscribe name => a.listen? (.subscribe name)
  | .unsubscribe name => a.listen? (.unsubscribe name)
  | .receive name => a.listen? (.receive name)

def run? (a : Audience) (es : List AudienceEvent) : Option Audience := es.foldlM step? a

/-- A service with a stream to which something has happened, before any call has begun. -/
def start (s : Service) (history : StreamHistory) : Audience := ⟨.start s, history⟩

variable {a b : Audience} {e : AudienceEvent} {es : List AudienceEvent}

/-- What an event needs and what it does. -/
inductive Stepped (a : Audience) : AudienceEvent → Audience → Prop where
  | begin (m : Moment) (c : Call) :
      Stepped a (.crowd (.begin m c)) ⟨a.crowd.enter m c, a.history⟩
  | act (i : Nat) (x : Account) (t : Atom) (left : List Atom)
      (next : a.crowd.activities[i]? = some ⟨x, t :: left⟩) :
      Stepped a (.crowd (.act i)) ⟨a.crowd.make i x t left,
        (x.handing? t).toList.map StreamEntry.ofHanding ++ a.history⟩
  | aside (e : PoolEvent Delivery) (p : Pool Delivery) :
      Stepped a (.crowd (.aside e))
        ⟨{ a.crowd with service := { a.crowd.service with pool := p } }, a.history⟩
  | listen (e : AudienceEvent) (f : StreamEvent) (listens : e.stream? = some f)
      (stream : AnalyticsStream) (r : StreamRun)
      (client : a.crowd.service.analytics = .streaming stream)
      (steps : (StreamRun.mk stream a.history).step? f = some r) :
      Stepped a e
        { crowd := { a.crowd with
            service := { a.crowd.service with analytics := .streaming r.stream } }
          history := r.history }

theorem stepped_of_step? (h : a.step? e = some b) : a.Stepped e b := by
  have hlisten : ∀ (e : AudienceEvent) (f : StreamEvent), e.stream? = some f →
      a.listen? f = some b → a.Stepped e b := by
    intro e f hstream hf
    unfold listen? at hf
    split at hf
    · next stream hclient =>
      obtain ⟨r, hr, rfl⟩ := Option.map_eq_some_iff.1 hf
      exact .listen e f hstream stream r hclient hr
    · cases hf
    · cases hf
  cases e with
  | subscribe name => exact hlisten _ _ rfl h
  | unsubscribe name => exact hlisten _ _ rfl h
  | receive name => exact hlisten _ _ rfl h
  | crowd e =>
    obtain ⟨c, hc, rfl⟩ := Option.map_eq_some_iff.1 h
    cases Crowd.stepped_of_step? hc with
    | begin m c => exact .begin m c
    | aside e p => exact .aside e p
    | act i x t left hx =>
      have hhands : a.crowd.hands? (.act i) = x.handing? t := by
        simp only [Crowd.hands?, hx, Option.bind_some, List.head?_cons]
      rw [hhands]
      exact .act i x t left hx

/-- **The pool of an audience has been given what the calls have created**, whatever the receivers
do. -/
theorem supplied_run {s : Service} {history : StreamHistory}
    (hr : (start s history).run? es = some a) :
    a.crowd.Supplied s.pool (es.filterMap AudienceEvent.aside?) := by
  refine foldlM_record (P := fun asides (a : Audience) => a.crowd.Supplied s.pool asides) hr
    (Crowd.supplied_start s) ?_
  intro asides a b e h he
  have hlisten : ∀ f : StreamEvent, a.listen? f = some b → b.crowd.Supplied s.pool asides := by
    intro f hf
    unfold listen? at hf
    split at hf
    · obtain ⟨r, -, rfl⟩ := Option.map_eq_some_iff.1 hf
      exact h.of_eq rfl rfl
    · cases hf
    · cases hf
  cases e with
  | crowd e =>
    obtain ⟨c, hc, rfl⟩ := Option.map_eq_some_iff.1 he
    exact Crowd.supplied_step h hc
  | subscribe name | unsubscribe name | receive name =>
    exact (List.append_nil asides).symm ▸ hlisten _ he

/-! ## What the stream is told -/

/-- The client is a stream with some receiver. -/
def IsAttended (a : Audience) : Prop :=
  ∃ stream, a.crowd.service.analytics = .streaming stream ∧ stream.receivers.size ≠ 0

/-- Throughout a run, some receiver is there. -/
def Attended (a : Audience) (es : List AudienceEvent) : Prop :=
  ∀ n b, a.run? (es.take n) = some b → b.IsAttended

/-- **The stream of an audience is what the calls have made of it**, when it has been in the state
`base` before. -/
structure Tuned (base : StreamRun) (a : Audience) (stream : AnalyticsStream) : Prop where
  client : a.crowd.service.analytics = .streaming stream
  logged : StreamRun.Logged ⟨stream, a.history⟩
  accepted : a.history.accepted =
    base.history.accepted ++ (a.crowd.handed.filter fun x => !x.1).map Prod.snd
  dropped : stream.dropped = base.stream.dropped + a.crowd.handed.countP fun x => x.1

/-- Whatever receivers do, it makes no difference to what is accepted and dropped. -/
theorem accepted_listen {r r' : StreamRun} {f : StreamEvent} (hf : e.stream? = some f)
    (h : r.step? f = some r') :
    r'.history.accepted = r.history.accepted ∧ r'.stream.dropped = r.stream.dropped := by
  cases e with
  | crowd e => cases hf
  | subscribe name | unsubscribe name | receive name =>
    cases hf
    cases StreamRun.stepped_of_step? h
    exact ⟨rfl, rfl⟩

/-- An event that is handed to a stream with receivers is accepted, unless it is cancelled. -/
theorem tuned_make {base : StreamRun} {stream : AnalyticsStream} (h : Tuned base a stream)
    (hattended : a.IsAttended) (i : Nat) (x : Account) (t : Atom) (left : List Atom) :
    ∃ stream', Tuned base ⟨a.crowd.make i x t left,
      (x.handing? t).toList.map StreamEntry.ofHanding ++ a.history⟩ stream' := by
  have hclient := h.client
  have hstate : (a.crowd.make i x t left).service.analytics =
      (x.handing? t).elim a.crowd.service.analytics a.crowd.service.analytics.take :=
    congrArg Service.analytics (a.crowd.service.atom_state x t)
  have hhanded : (a.crowd.make i x t left).handed = a.crowd.handed ++ (x.handing? t).toList :=
    Crowd.filterMap_make _ i x t left
  cases hx : x.handing? t with
  | none =>
    rw [hx] at hstate hhanded
    rw [Option.toList_none, List.append_nil] at hhanded
    refine ⟨stream, hstate.trans hclient, h.logged, ?_, ?_⟩
    · rw [hhanded]
      exact h.accepted
    · rw [hhanded]
      exact h.dropped
  | some y =>
    obtain ⟨cancelled, e⟩ := y
    rw [hx, Option.elim_some, hclient] at hstate
    rw [hx, Option.toList_some] at hhanded
    have hlogged := StreamRun.logged_send h.logged cancelled e
    -- some receiver is there, also as the history tells it
    obtain ⟨stream', hstream', hsize⟩ := hattended
    rw [hclient] at hstream'
    cases hstream'
    have hlive : a.history.live ≠ [] := mt (StreamRun.live_eq_nil_iff h.logged).1 hsize
    refine ⟨(stream.send cancelled e).state, hstate, hlogged, ?_, ?_⟩
    · show StreamHistory.accepted (.sent cancelled e :: a.history) = _
      rw [hhanded, List.filter_append, List.map_append, ← List.append_assoc, ← h.accepted]
      cases cancelled with
      | true => exact (if_pos (.inl rfl)).trans (List.append_nil _).symm
      | false => exact if_neg (by simp [hlive])
    · rw [hhanded, List.countP_append]
      cases cancelled with
      | true =>
        rw [AnalyticsStream.state_send_refused (.inl rfl), h.dropped]
        rfl
      | false =>
        rw [AnalyticsStream.state_send_accepted hsize]
        exact h.dropped

theorem tuned_step {base : StreamRun} {stream : AnalyticsStream} (h : Tuned base a stream)
    (hattended : a.IsAttended) (he : a.Stepped e b) : ∃ stream', Tuned base b stream' := by
  cases he with
  | begin m c => exact ⟨stream, h.client, h.logged, h.accepted, h.dropped⟩
  | aside e p => exact ⟨stream, h.client, h.logged, h.accepted, h.dropped⟩
  | act i x t left _ => exact tuned_make h hattended i x t left
  | listen e f hf stream' r hclient hr =>
    rw [h.client] at hclient
    cases hclient
    obtain ⟨haccepted, hdropped⟩ := accepted_listen hf hr
    exact ⟨r.stream, rfl, StreamRun.logged_step h.logged hr, haccepted.trans h.accepted,
      hdropped.trans h.dropped⟩

theorem attended_cons (h : a.Attended (e :: es)) (he : a.step? e = some b) : b.Attended es := by
  intro n c hc
  refine h (n + 1) c ?_
  rw [List.take_succ_cons]
  exact Option.bind_eq_some_iff.2 ⟨b, he, hc⟩

/-- Handing an event to a stream leaves its receivers as they are. -/
theorem receivers_send (s : AnalyticsStream) (cancelled : Bool) (e : AnalyticsEvent) :
    (s.send cancelled e).state.receivers = s.receivers := by
  unfold AnalyticsStream.send
  split
  · rfl
  · split <;> rfl

/-- A receiver that is there stays unless it goes. -/
theorem size_listen {r r' : StreamRun} {f : StreamEvent} (hf : e.stream? = some f)
    (hgo : ∀ name, e ≠ .unsubscribe name) (h : r.step? f = some r')
    (hsize : r.stream.receivers.size ≠ 0) : r'.stream.receivers.size ≠ 0 := by
  have hinsert : ∀ name position, (r.stream.receivers.insert name position).size ≠ 0 := by
    intro name position
    have hone := r.stream.receivers.size_insert name position
    have hfound := Bool.toNat_le (r.stream.receivers.find? name).isSome
    omega
  cases e with
  | crowd e => cases hf
  | subscribe name =>
    cases hf
    cases StreamRun.stepped_of_step? h
    exact hinsert _ _
  | unsubscribe name => exact absurd rfl (hgo name)
  | receive name =>
    cases hf
    cases StreamRun.stepped_of_step? h
    exact hinsert _ _

theorem isAttended_step (h : a.IsAttended) (he : a.Stepped e b)
    (hgo : ∀ name, e ≠ .unsubscribe name) : b.IsAttended := by
  obtain ⟨stream, hclient, hsize⟩ := h
  cases he with
  | begin m c => exact ⟨stream, hclient, hsize⟩
  | aside e p => exact ⟨stream, hclient, hsize⟩
  | act i x t left _ =>
    have hstate : (a.crowd.make i x t left).service.analytics =
        (x.handing? t).elim a.crowd.service.analytics a.crowd.service.analytics.take :=
      congrArg Service.analytics (a.crowd.service.atom_state x t)
    rw [hclient] at hstate
    cases hx : x.handing? t with
    | none => exact ⟨stream, hstate.trans (by rw [hx]; rfl), hsize⟩
    | some y =>
      refine ⟨(stream.send y.1 y.2).state, hstate.trans (by rw [hx]; rfl), ?_⟩
      rw [receivers_send]
      exact hsize
  | listen e f hf stream' r hclient' hr =>
    rw [hclient] at hclient'
    cases hclient'
    exact ⟨r.stream, rfl, size_listen hf hgo hr hsize⟩

/-- **If nobody goes, some receiver is there throughout.** -/
theorem attended_of_staying (h : a.IsAttended) (hgo : ∀ name, .unsubscribe name ∉ es) :
    a.Attended es := by
  induction es generalizing a with
  | nil =>
    intro n b hb
    rw [List.take_nil] at hb
    cases hb
    exact h
  | cons e es ih =>
    intro n b hb
    cases n with
    | zero => cases hb; exact h
    | succ n =>
      rw [List.take_succ_cons] at hb
      obtain ⟨a₁, h₁, hb⟩ := Option.bind_eq_some_iff.1 hb
      have hfirst := isAttended_step h (stepped_of_step? h₁) fun name he =>
        hgo name (he ▸ List.mem_cons_self)
      exact ih hfirst (fun name hmem => hgo name (List.mem_cons_of_mem _ hmem)) n b hb

/-- **What becomes of the events of calls** while some receiver is there. -/
theorem tuned_run {base : StreamRun} {stream : AnalyticsStream} (h : Tuned base a stream)
    (hattended : a.Attended es) (hr : a.run? es = some b) : ∃ stream', Tuned base b stream' := by
  induction es generalizing a stream with
  | nil => cases hr; exact ⟨stream, h⟩
  | cons e es ih =>
    obtain ⟨a₁, h₁, hr⟩ := Option.bind_eq_some_iff.1 hr
    obtain ⟨stream₁, htuned⟩ := tuned_step h (hattended 0 a rfl) (stepped_of_step? h₁)
    exact ih htuned (attended_cons hattended h₁) hr

end Audience

/-! ## Without the stream -/

/-- The service without its client, and without webhooks. -/
def Service.mute (s : Service) : Service := { s.quiet with analytics := .discarding }

/-- The crowd without the client, and without webhooks. -/
def Crowd.mute (a : Crowd) : Crowd := { a with service := a.service.mute }

theorem Service.mute_atom (s : Service) (x : Account) (t : Atom) :
    (s.atom x t).state.mute = (s.mute.atom x t).state := by
  have hcreation : x.creation? s.mute t = none := by
    cases t with
    | notify =>
      unfold Account.creation? delivery?
      cases Call.notice? x.moment x.call <;> rfl
    | _ => rfl
  have hdiscards : (x.handing? t).elim AnalyticsClient.discarding
      AnalyticsClient.discarding.take = .discarding := by
    cases x.handing? t <;> rfl
  rw [atom_state, atom_state, hcreation]
  simp only [mute, quiet, Option.elim_none, hdiscards]

theorem Service.mute_account (s : Service) (x : Account) (t : Atom) :
    s.account x t = s.mute.account x t := by
  unfold account
  rw [atom_result, atom_result]
  rfl

namespace Audience

variable {a b : Audience} {e : AudienceEvent} {es : List AudienceEvent}

/-- **A step of a call is the same step without the stream**, and what receivers and the pool do
cannot be seen then. -/
theorem mute_step (he : a.step? e = some b) :
    e.front?.elim (some a.crowd.mute) a.crowd.mute.step? = some b.crowd.mute := by
  cases stepped_of_step? he with
  | begin m c => rfl
  | aside e p => rfl
  | listen e f hf stream r _ _ =>
    have hfront : e.front? = none := by
      cases e with
      | crowd e => cases hf
      | _ => rfl
    rw [hfront]
    rfl
  | act i x t left hx =>
    have hx' : a.crowd.mute.activities[i]? = some ⟨x, t :: left⟩ := hx
    have hmake : a.crowd.mute.make i x t left = (a.crowd.make i x t left).mute := by
      simp only [Crowd.mute, Crowd.make, Service.mute_atom, ← Service.mute_account]
    simp only [AudienceEvent.front?, Option.elim_some, Crowd.step?, hx', hmake]

theorem mute_run (hr : a.run? es = some b) :
    a.crowd.mute.run? (es.filterMap AudienceEvent.front?) = some b.crowd.mute :=
  foldlM_view (fun a : Audience => a.crowd.mute) hr fun _ _ _ => mute_step

/-- Whether webhooks are enabled does not change. -/
theorem notifies_run (hr : a.run? es = some b) :
    b.crowd.service.notifies = a.crowd.service.notifies := by
  refine foldlM_induction
    (P := fun b : Audience => b.crowd.service.notifies = a.crowd.service.notifies) hr rfl ?_
  intro a₁ a₂ e hsame he
  refine Eq.trans ?_ hsame
  cases stepped_of_step? he with
  | act i x t left _ => exact a₁.crowd.service.notifies_atom x t
  | _ => rfl

end Audience

end RoomWatch
