import Mathlib.Data.List.Forall2
import RoomWatch.Proofs.Service.Audience

/-!
# What cancelling a context reaches

Two runs make the same calls at the same times, step by step, but in the second one more calls are
made with a context that is cancelled already.

* `cancels_step`: without the stream, the two cannot be told apart, step by step.
* `exists_twins`: the client is handed the same events, some of them cancelled only in the second
  run.
* `thinned_of_runs`: **only the stream is told less**, and just by the events of these calls.
-/

namespace RoomWatch

/-- The two accounts are of the same call at the same time. The context may be cancelled in the
second one alone. -/
structure Account.Cancels (x y : Account) : Prop where
  call : x.call = y.call
  seen : x.seen = y.seen
  clock : x.moment.clock = y.moment.clock
  cancelled : x.moment.cancelled = true → y.moment.cancelled = true

/-- The same thing happens. A call that begins may have a cancelled context in the second run
alone. -/
inductive CrowdEvent.Cancels : CrowdEvent → CrowdEvent → Prop where
  | begin {m n : Moment} (c : Call) (clock : m.clock = n.clock)
      (cancelled : m.cancelled = true → n.cancelled = true) : Cancels (.begin m c) (.begin n c)
  | act (i : Nat) : Cancels (.act i) (.act i)

/-- An event that the client is handed in both runs. -/
structure Twin where
  event : AnalyticsEvent
  /-- Whether the context of its call is cancelled in the first run. -/
  first : Bool
  second : Bool

def Twin.inFirst (w : Twin) : Bool × AnalyticsEvent := (w.first, w.event)

def Twin.inSecond (w : Twin) : Bool × AnalyticsEvent := (w.second, w.event)

/-- What a delivery tells, whatever the id of its event is. -/
def Delivery.notice (d : Delivery) : WebhookEvent := { d.event with id := "" }

/-! ## Lists that agree -/

section Lists

variable {α β : Type} {R : α → β → Prop} {xs : List α} {ys : List β}

theorem forall₂_getElem? (h : List.Forall₂ R xs ys) {i : Nat} {x : α} (hx : xs[i]? = some x) :
    ∃ y, ys[i]? = some y ∧ R x y := by
  induction h generalizing i with
  | nil => cases hx
  | cons hr _ ih =>
    cases i with
    | zero =>
      cases hx
      exact ⟨_, rfl, hr⟩
    | succ i => exact ih hx

theorem forall₂_set (h : List.Forall₂ R xs ys) (i : Nat) {x : α} {y : β} (hr : R x y) :
    List.Forall₂ R (xs.set i x) (ys.set i y) := by
  induction h generalizing i with
  | nil => exact .nil
  | cons hhead htail ih =>
    cases i with
    | zero => exact .cons hr htail
    | succ i => exact .cons hhead (ih i)

theorem forall₂_concat (h : List.Forall₂ R xs ys) {x : α} {y : β} (hr : R x y) :
    List.Forall₂ R (xs ++ [x]) (ys ++ [y]) := List.rel_append h (.cons hr .nil)

end Lists

/-! ## Step by step -/

namespace Account

variable {s : Service} {x y : Account}

/-- A step does the same to a service without a stream. -/
theorem Cancels.state (h : x.Cancels y) (hs : s.mute = s) (t : Atom) :
    (s.atom x t).state = (s.atom y t).state := by
  have hsame : (s.atom x t).state.mute = (s.atom y t).state.mute := by
    rw [Service.atom_state, Service.atom_state]
    simp only [Service.mute, Service.quiet]
    cases t with
    | consult => simp only [consultation?, Option.elim_some, h.call]
    | _ => simp only [consultation?, Option.elim_none]
  rw [Service.mute_atom, Service.mute_atom, hs] at hsame
  exact hsame

theorem Cancels.account (h : x.Cancels y) (t : Atom) :
    (s.account x t).Cancels (s.account y t) := by
  refine ⟨h.call, ?_, h.clock, h.cancelled⟩
  unfold Service.account
  rw [Service.atom_result, Service.atom_result]
  cases t with
  | consult => simp only [consultation?, Option.elim_some, h.call]
  | _ => exact h.seen

/-- What is handed to the client in a step is the same event, if any. -/
theorem Cancels.handing (h : x.Cancels y) (t : Atom) :
    ∃ w : Option Twin, x.handing? t = w.map Twin.inFirst ∧ y.handing? t = w.map Twin.inSecond ∧
      ∀ u ∈ w, u.first = true → u.second = true := by
  cases t with
  | send =>
    refine ⟨x.event?.map fun e => ⟨e, x.moment.cancelled, y.moment.cancelled⟩, ?_, ?_, ?_⟩
    · rw [handing?, Option.map_map]
      rfl
    · have hevent : y.event? = x.event? := by
        unfold event?
        rw [h.call, h.seen, h.clock]
      rw [handing?, Option.map_map, hevent]
      rfl
    · intro u hu
      obtain ⟨e, -, rfl⟩ := Option.map_eq_some_iff.1 hu
      exact h.cancelled
  | _ => exact ⟨none, rfl, rfl, fun _ hw => nomatch hw⟩

/-- The webhook event that is created in a step is the same up to its id. -/
theorem Cancels.creation (h : x.Cancels y) {r : Service} (hnotifies : r.notifies = s.notifies)
    (t : Atom) :
    (x.creation? s t).map Delivery.notice = (y.creation? r t).map Delivery.notice := by
  cases t with
  | notify =>
    unfold creation? Service.delivery? Call.notice?
    rw [h.call, h.clock, hnotifies]
    cases y.call.webhookKind? with
    | none => rfl
    | some kind => cases s.notifies <;> rfl
  | _ => rfl

end Account

namespace Crowd

variable {a b a' b' : Crowd} {e f : CrowdEvent} {es fs : List CrowdEvent}

/-- **Two crowds without a stream that cannot be told apart**: the same calls have made the same
steps. -/
structure Cancels (a b : Crowd) : Prop where
  muted : a.service.mute = a.service
  service : a.service = b.service
  activities : List.Forall₂
    (fun x y => x.toAccount.Cancels y.toAccount ∧ x.left = y.left) a.activities b.activities
  steps : List.Forall₂ (fun s t => s.1.Cancels t.1 ∧ s.2 = t.2) a.steps b.steps

theorem cancels_enter (h : Cancels a b) {m n : Moment} (c : Call) (hclock : m.clock = n.clock)
    (hcancelled : m.cancelled = true → n.cancelled = true) :
    Cancels (a.enter m c) (b.enter n c) := by
  refine ⟨h.muted, h.service, forall₂_concat h.activities ⟨⟨rfl, rfl, hclock, hcancelled⟩, ?_⟩,
    h.steps⟩
  exact congrArg c.atoms hclock

theorem cancels_make (h : Cancels a b) (i : Nat) {x y : Account} (hxy : x.Cancels y) (t : Atom)
    (left : List Atom) : Cancels (a.make i x t left) (b.make i y t left) := by
  have hstate := hxy.state h.muted t
  refine ⟨?_, ?_, ?_, forall₂_concat h.steps ⟨hxy, rfl⟩⟩
  · show (a.service.atom x t).state.mute = (a.service.atom x t).state
    rw [Service.mute_atom, h.muted]
  · show (a.service.atom x t).state = (b.service.atom y t).state
    rw [← h.service]
    exact hstate
  · show List.Forall₂ _ (a.activities.set i _) (b.activities.set i _)
    rw [← h.service]
    exact forall₂_set h.activities i ⟨hxy.account t, rfl⟩

/-- **No step tells the two apart.** -/
theorem cancels_step (h : Cancels a b) (hef : e.Cancels f) (ha : a.step? e = some a')
    (hb : b.step? f = some b') : Cancels a' b' := by
  cases hef with
  | begin c hclock hcancelled =>
    cases ha
    cases hb
    exact cancels_enter h c hclock hcancelled
  | act i =>
    cases stepped_of_step? ha with
    | act i x t left hx =>
      -- the other run has the same call in this place, with the same steps left
      obtain ⟨⟨y, left'⟩, hy, hxy, hleft⟩ := forall₂_getElem? h.activities hx
      dsimp only at hxy hleft
      subst hleft
      have hstep : b.step? (.act i) = some (b.make i y t left) := by
        simp only [step?, hy]
      cases hstep.symm.trans hb
      exact cancels_make h i hxy t left

theorem cancels_run (h : Cancels a b) (hef : List.Forall₂ CrowdEvent.Cancels es fs)
    (ha : a.run? es = some a') (hb : b.run? fs = some b') : Cancels a' b' := by
  induction hef generalizing a b with
  | nil =>
    cases ha
    cases hb
    exact h
  | cons hhead _ ih =>
    obtain ⟨a₁, ha₁, ha⟩ := Option.bind_eq_some_iff.1 ha
    obtain ⟨b₁, hb₁, hb⟩ := Option.bind_eq_some_iff.1 hb
    exact ih (cancels_step h hhead ha₁ hb₁) ha hb

/-! ## What the steps tell -/

theorem answers_eq (h : Cancels a b) : a.answers = b.answers := by
  have hactivities := h.activities
  unfold answers
  generalize a.activities = xs at hactivities ⊢
  generalize b.activities = ys at hactivities ⊢
  induction hactivities with
  | nil => rfl
  | cons hxy _ ih =>
    obtain ⟨hxy, hleft⟩ := hxy
    rw [List.map_cons, List.map_cons, ih, hleft, hxy.call, hxy.seen]

/-- The client is handed the same events. -/
theorem exists_twins {ss ts : List (Account × Atom)}
    (h : List.Forall₂ (fun s t => s.1.Cancels t.1 ∧ s.2 = t.2) ss ts) :
    ∃ twins : List Twin,
      (ss.filterMap fun s => s.1.handing? s.2) = twins.map Twin.inFirst ∧
      (ts.filterMap fun s => s.1.handing? s.2) = twins.map Twin.inSecond ∧
      ∀ w ∈ twins, w.first = true → w.second = true := by
  induction h with
  | nil => exact ⟨[], rfl, rfl, fun _ hw => absurd hw List.not_mem_nil⟩
  | @cons s t ss ts hst _ ih =>
    obtain ⟨hxy, ht⟩ := hst
    obtain ⟨twins, hfirst, hsecond, hmore⟩ := ih
    -- a step hands one event over in both runs, or none in either of them
    obtain ⟨w, hx, hy, hw⟩ := hxy.handing s.2
    rw [ht] at hy
    rw [List.filterMap_cons, List.filterMap_cons, hx, hy]
    cases w with
    | none => exact ⟨twins, hfirst, hsecond, hmore⟩
    | some w =>
      refine ⟨w :: twins, congrArg (_ :: ·) hfirst, congrArg (_ :: ·) hsecond, ?_⟩
      exact List.forall_mem_cons.2 ⟨hw w rfl, hmore⟩

/-- The same webhook events are created. -/
theorem notices_eq {ss ts : List (Account × Atom)} {s r : Service}
    (h : List.Forall₂ (fun s t => s.1.Cancels t.1 ∧ s.2 = t.2) ss ts)
    (hnotifies : r.notifies = s.notifies) :
    (ss.filterMap fun x => x.1.creation? s x.2).map Delivery.notice =
      (ts.filterMap fun x => x.1.creation? r x.2).map Delivery.notice := by
  rw [List.map_filterMap, List.map_filterMap]
  induction h with
  | nil => rfl
  | cons hst _ ih =>
    obtain ⟨hxy, ht⟩ := hst
    rw [List.filterMap_cons, List.filterMap_cons, ih, hxy.creation hnotifies, ht]

end Crowd

namespace Audience

variable {a b : Audience} {es fs : List AudienceEvent}

/-- How the streams of two runs are related that have been handed the same events, after both have
been in the state `base`. -/
structure Divides (base : StreamRun) (a b : Audience) (twins : List Twin)
    (s t : AnalyticsStream) : Prop where
  first : a.crowd.service.analytics = .streaming s
  second : b.crowd.service.analytics = .streaming t
  /-- The clients have been handed these events, with the contexts of their calls. -/
  handed : a.crowd.handed = twins.map Twin.inFirst
  handed' : b.crowd.handed = twins.map Twin.inSecond
  /-- Whatever is cancelled in the first run is so in the second one. -/
  more : ∀ w ∈ twins, w.first = true → w.second = true
  /-- What a stream has accepted is what it has sent and, at the end, what it keeps. -/
  window : s.Window a.history.accepted
  window' : t.Window b.history.accepted
  accepted : a.history.accepted =
    base.history.accepted ++ (twins.filter fun w => !w.first).map Twin.event
  /-- Of these events, those are taken out that are cancelled in the second run. -/
  accepted' : b.history.accepted =
    base.history.accepted ++ ((twins.filter fun w => !w.first).filter fun w => !w.second).map
      Twin.event
  dropped : t.dropped = s.dropped + (twins.filter fun w => !w.first).countP fun w => w.second

/-- **The second run differs from the first one only in what the stream is told.** -/
structure Thinned (s : Service) (base : StreamRun) (es fs : List AudienceEvent) (a b : Audience) :
    Prop where
  metrics : a.crowd.service.metrics = b.crowd.service.metrics
  registry : a.crowd.service.registry = b.crowd.service.registry
  /-- The same webhook events have been created, up to their ids. -/
  created : a.crowd.created.map Delivery.notice = b.crowd.created.map Delivery.notice
  /-- In the first run they have been submitted, each of them once. -/
  supplied : a.crowd.Supplied s.pool (es.filterMap AudienceEvent.aside?)
  /-- So have they in the second run. -/
  supplied' : b.crowd.Supplied s.pool (fs.filterMap AudienceEvent.aside?)
  /-- The same calls have been answered, in the same way. -/
  answers : a.crowd.answers = b.crowd.answers
  streams : ∃ twins s t, Divides base a b twins s t

/-- The events that are cancelled in the second run alone, counted. -/
theorem countP_second {twins : List Twin} (h : ∀ w ∈ twins, w.first = true → w.second = true) :
    (twins.countP fun w => w.second) = (twins.countP fun w => w.first) +
      (twins.filter fun w => !w.first).countP fun w => w.second := by
  induction twins with
  | nil => rfl
  | cons w twins ih =>
    obtain ⟨hw, hmore⟩ := List.forall_mem_cons.1 h
    have hrest := ih hmore
    rw [List.countP_cons, List.countP_cons, hrest]
    by_cases hfirst : w.first = true
    · rw [List.filter_cons_of_neg (by simp [hfirst]), if_pos (hw hfirst), if_pos hfirst]
      omega
    · rw [List.filter_cons_of_pos (by simp [hfirst]), List.countP_cons, if_neg hfirst]
      omega

/-- What is not cancelled in the second run was not in the first one. -/
theorem filter_second {twins : List Twin} (h : ∀ w ∈ twins, w.first = true → w.second = true) :
    (twins.filter fun w => !w.second) =
      (twins.filter fun w => !w.first).filter fun w => !w.second := by
  rw [List.filter_filter]
  refine List.filter_congr fun w hw => ?_
  cases hsecond : w.second with
  | true => rfl
  | false =>
    have hfirst : w.first = false := by
      rw [Bool.eq_false_iff]
      intro hfirst
      rw [h w hw hfirst] at hsecond
      cases hsecond
    rw [hfirst]
    rfl

theorem divides_of_tuned {base : StreamRun} {twins : List Twin} {s t : AnalyticsStream}
    (ha : Tuned base a s) (hb : Tuned base b t) (hfirst : a.crowd.handed = twins.map Twin.inFirst)
    (hsecond : b.crowd.handed = twins.map Twin.inSecond)
    (hmore : ∀ w ∈ twins, w.first = true → w.second = true) : Divides base a b twins s t := by
  have haccepted := ha.accepted
  have haccepted' := hb.accepted
  have hdropped := ha.dropped
  have hdropped' := hb.dropped
  rw [hfirst, List.filter_map, List.map_map] at haccepted
  rw [hsecond, List.filter_map, List.map_map] at haccepted'
  rw [hfirst, List.countP_map] at hdropped
  rw [hsecond, List.countP_map] at hdropped'
  refine ⟨ha.client, hb.client, hfirst, hsecond, hmore, ha.logged.window, hb.logged.window,
    haccepted, ?_, ?_⟩
  · rw [← filter_second hmore]
    exact haccepted'
  · have hcount := countP_second hmore
    rw [hdropped, hdropped']
    exact (congrArg (base.stream.dropped + ·) hcount).trans (Nat.add_assoc ..).symm

/-- **Cancellation reaches only the stream.** Two runs on the same service make the same calls at
the same times, step by step; in the second one more calls are given a cancelled context. What the
pool and the receivers do in between may be different, as long as some receiver is always there. -/
theorem thinned_of_runs {capacity : Nat} {fresh stream : AnalyticsStream} {before : List StreamEvent}
    {history : StreamHistory} {s : Service}
    (hfresh : AnalyticsStream.withCapacity capacity = .ok fresh)
    (hbefore : (StreamRun.mk fresh []).run? before = some ⟨stream, history⟩)
    (hclient : s.analytics = .streaming stream)
    (hfront : List.Forall₂ CrowdEvent.Cancels (es.filterMap AudienceEvent.front?)
      (fs.filterMap AudienceEvent.front?))
    (hattended : (start s history).Attended es) (hattended' : (start s history).Attended fs)
    (ha : (start s history).run? es = some a) (hb : (start s history).run? fs = some b) :
    Thinned s ⟨stream, history⟩ es fs a b := by
  have hlogged : StreamRun.Logged ⟨stream, history⟩ :=
    (StreamRun.logged_run (StreamRun.logged_start hfresh) hbefore).1
  have hstart : Tuned ⟨stream, history⟩ (start s history) stream :=
    ⟨hclient, hlogged, (List.append_nil _).symm, rfl⟩
  obtain ⟨s₁, htuned⟩ := tuned_run hstart hattended ha
  obtain ⟨s₂, htuned'⟩ := tuned_run hstart hattended' hb
  have hcancels : Crowd.Cancels a.crowd.mute b.crowd.mute :=
    Crowd.cancels_run ⟨rfl, rfl, .nil, .nil⟩ hfront (mute_run ha) (mute_run hb)
  have hnotifies := (notifies_run hb).trans (notifies_run ha).symm
  have hmetrics := congrArg Service.metrics hcancels.service
  have hregistry := congrArg Service.registry hcancels.service
  have hanswers := Crowd.answers_eq hcancels
  obtain ⟨twins, hfirst, hsecond, hmore⟩ := Crowd.exists_twins hcancels.steps
  refine ⟨hmetrics, hregistry, Crowd.notices_eq hcancels.steps hnotifies, supplied_run ha,
    supplied_run hb, hanswers, twins, s₁, s₂, ?_⟩
  exact divides_of_tuned htuned htuned' hfirst hsecond hmore

/-- A call from its beginning to its end consists of events that callers take part in. -/
theorem front_whole (i : Nat) (m : Moment) (c : Call) :
    ((Crowd.whole i m c).map .crowd).filterMap AudienceEvent.front? = Crowd.whole i m c := by
  rw [List.filterMap_map, Crowd.whole, List.filterMap_cons]
  refine congrArg (_ :: ·) ?_
  rw [List.filterMap_replicate]
  rfl

theorem cancels_whole (i : Nat) {m n : Moment} (c : Call) (hclock : m.clock = n.clock)
    (hcancelled : m.cancelled = true → n.cancelled = true) :
    List.Forall₂ CrowdEvent.Cancels (Crowd.whole i m c) (Crowd.whole i n c) := by
  unfold Crowd.whole
  rw [← hclock]
  refine .cons (.begin c hclock hcancelled) ?_
  induction (c.atoms m.clock).length with
  | zero => exact .nil
  | succ k ih => exact .cons (.act i) ih

/-- A participant joins, publishes a track and leaves. Before the track is published something
happens aside. The contexts of the calls are cancelled as told. -/
def stay (cancelled : Nat → Bool) (aside : List AudienceEvent) : List AudienceEvent :=
  let moment (i : Nat) : Moment := { clock := 5, cancelled := cancelled i, freshId := "e" }
  (Crowd.whole 0 (moment 0) (.participantJoined { sid := "r" } { sid := "p" } none)).map .crowd ++
    aside ++ (Crowd.whole 1 (moment 1) (.trackPublished "p" { sid := "t" })).map .crowd ++
    (Crowd.whole 2 (moment 2) (.participantLeft { sid := "r" } { sid := "p" })).map .crowd

theorem cancels_stay (first second : Nat → Bool) (h : ∀ i, first i = true → second i = true)
    {aside aside' : List AudienceEvent} (hnone : aside.filterMap AudienceEvent.front? = [])
    (hnone' : aside'.filterMap AudienceEvent.front? = []) :
    List.Forall₂ CrowdEvent.Cancels ((stay first aside).filterMap AudienceEvent.front?)
      ((stay second aside').filterMap AudienceEvent.front?) := by
  simp only [stay, List.filterMap_append, front_whole, hnone, hnone', List.append_nil]
  refine List.rel_append (List.rel_append ?_ ?_) ?_
  · exact cancels_whole 0 _ rfl (h 0)
  · exact cancels_whole 1 _ rfl (h 1)
  · exact cancels_whole 2 _ rfl (h 2)

/-- A stream to which somebody has subscribed. -/
def heard : AnalyticsStream := AnalyticsStream.subscribe { buffer := 2 } "a"

/-- A service with this stream, and webhooks. -/
def broadcasting : Audience :=
  start { analytics := .streaming heard, notifies := true, pool := .start ⟨1, 1⟩ }
    [.subscribed "a" 0]

/-- The first call is cancelled in both runs, the second one only in the second run. There, another
receiver comes, and the pool makes no move. -/
theorem thinned_of_stay :
    ∃ a b,
      broadcasting.run? (stay (· == 0) [.crowd (.aside (.move .take))]) = some a ∧
      broadcasting.run? (stay (· ≤ 1) [.subscribe "b", .receive "a"]) = some b ∧
      Thinned broadcasting.crowd.service ⟨heard, [.subscribed "a" 0]⟩
        (stay (· == 0) [.crowd (.aside (.move .take))])
        (stay (· ≤ 1) [.subscribe "b", .receive "a"]) a b ∧
      a.history.accepted.map AnalyticsEvent.kind = [.trackPublished, .participantLeft] ∧
      b.history.accepted.map AnalyticsEvent.kind = [.participantLeft] ∧
      a.crowd.created.length = 2 := by
  have ha : (broadcasting.run? (stay (· == 0) [.crowd (.aside (.move .take))])).map
      (fun a => (a.history.accepted.map AnalyticsEvent.kind, a.crowd.created.length)) =
      some ([.trackPublished, .participantLeft], 2) := rfl
  have hb : (broadcasting.run? (stay (· ≤ 1) [.subscribe "b", .receive "a"])).map
      (fun b => b.history.accepted.map AnalyticsEvent.kind) = some [.participantLeft] := rfl
  obtain ⟨a, ha, htold⟩ := Option.map_eq_some_iff.1 ha
  obtain ⟨b, hb, htold'⟩ := Option.map_eq_some_iff.1 hb
  obtain ⟨hkinds, hcreated⟩ := Prod.mk.inj htold
  have hfresh : AnalyticsStream.withCapacity 2 = .ok { buffer := 2 } := rfl
  have hbefore : (StreamRun.mk { buffer := 2 } []).run? [.subscribe "a"] =
      some ⟨heard, [.subscribed "a" 0]⟩ := rfl
  have hfront := cancels_stay (· == 0) (· ≤ 1) (by intro i hi; simp_all)
    (rfl : [AudienceEvent.crowd (.aside (.move .take))].filterMap AudienceEvent.front? = [])
    (rfl : [AudienceEvent.subscribe "b", .receive "a"].filterMap AudienceEvent.front? = [])
  have hsomebody : broadcasting.IsAttended := ⟨heard, rfl, by decide⟩
  have hattended : broadcasting.Attended (stay (· == 0) [.crowd (.aside (.move .take))]) :=
    attended_of_staying hsomebody fun name => by simp [stay]
  have hattended' : broadcasting.Attended (stay (· ≤ 1) [.subscribe "b", .receive "a"]) :=
    attended_of_staying hsomebody fun name => by simp [stay]
  refine ⟨a, b, ha, hb, ?_, hkinds, htold', hcreated⟩
  exact thinned_of_runs hfresh hbefore rfl hfront hattended hattended' ha hb

end Audience

end RoomWatch
