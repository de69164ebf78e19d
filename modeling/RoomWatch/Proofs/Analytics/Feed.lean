import RoomWatch.Proofs.Analytics.Receivers

/-!
# One receiver by itself

All receivers of a stream share its buffer and its counters. Still, what a receiver is answered is a
matter of what is sent since it has subscribed, of its own receives, and of the end of the sending
side: its `Feed`. Neither the other receivers nor the time at which it has come make a difference.

* `feeds_step`: to a receiver that stays, a step of the stream is a step of its feed, or nothing.
* `sights_eq`: **what is seen from a receiver is what its feed shows.**
* `isolated_of_stays`: so two runs that are the same to a receiver look the same from it.
-/

namespace RoomWatch

/-- Something that happens to a receiver. -/
inductive FeedEvent where
  | send (cancelled : Bool) (e : AnalyticsEvent)
  /-- The receiver itself receives. -/
  | receive
  | close
  deriving DecidableEq

/-- What is seen of that. -/
inductive FeedSight where
  /-- What the receiver is answered. -/
  | answered (x : Received)
  /-- What is added to the counts of sent and of dropped events. -/
  | counted (sent dropped : Int)
  | closed
  deriving DecidableEq

/-- All that a receiver depends on. -/
structure Feed where
  /-- How many events the stream keeps. -/
  buffer : Nat
  /-- Whether the sending side is still there. -/
  alive : Bool := true
  /-- The events that the receiver has neither got nor been told to have lost. -/
  unread : List AnalyticsEvent := []
  deriving DecidableEq

namespace Feed

/-- What the receiver is answered next. -/
def answer (f : Feed) : Received :=
  if f.buffer < f.unread.length then .lagged (f.unread.length - f.buffer)
  else match f.unread with
    | [] => if f.alive then .empty else .closed
    | e :: _ => .event e

/-- What is seen of an event. -/
def sight (f : Feed) : FeedEvent → FeedSight
  | .send cancelled _ => if cancelled then .counted 0 1 else .counted 1 0
  | .receive => .answered f.answer
  | .close => .closed

/-- The feed after an event. -/
def after (f : Feed) : FeedEvent → Feed
  | .send cancelled e => if cancelled then f else { f with unread := f.unread ++ [e] }
  | .receive => { f with unread := f.unread.drop f.answer.advance }
  | .close => { f with alive := false }

/-- What is seen of one event after another. -/
def sights (f : Feed) : List FeedEvent → List FeedSight
  | [] => []
  | e :: es => f.sight e :: (f.after e).sights es

end Feed

namespace StreamEvent

/-- What an event is to the receiver of a name, if it is anything. -/
def feed? (name : String) : StreamEvent → Option FeedEvent
  | .send cancelled e => some (.send cancelled e)
  | .receive other => if other = name then some .receive else none
  | .close => some .close
  | .subscribe _ | .unsubscribe _ => none

/-- An event by which the receiver of a name goes: it is dropped, or another one takes its name. -/
def Ends (name : String) : StreamEvent → Prop
  | .subscribe other | .unsubscribe other => other = name
  | .send _ _ | .receive _ | .close => False

instance (name : String) : DecidablePred (Ends name)
  | .subscribe other | .unsubscribe other => inferInstanceAs (Decidable (other = name))
  | .send _ _ | .receive _ | .close => inferInstanceAs (Decidable False)

end StreamEvent

namespace StreamRun

variable {a b : StreamRun} {name : String} {e : StreamEvent} {es : List StreamEvent}

/-- What is seen from a receiver when an event happens. -/
def sight? (a : StreamRun) (name : String) : StreamEvent → Option FeedSight
  | .send cancelled e =>
    let after := (a.stream.send cancelled e).state
    some (.counted (after.sent - a.stream.sent) (after.dropped - a.stream.dropped))
  | .receive other =>
    if other = name then (a.stream.receive? name).map fun r => .answered r.2 else none
  | .close => some .closed
  | .subscribe _ | .unsubscribe _ => none

/-- What is seen from a receiver in the course of a run. -/
def sights (a : StreamRun) (name : String) : List StreamEvent → List FeedSight
  | [] => []
  | e :: es => (a.sight? name e).toList ++ (a.step? e).elim [] fun b => b.sights name es

/-- What a receiver depends on. -/
def feed (a : StreamRun) (name : String) : Feed :=
  ⟨a.stream.buffer, a.stream.alive, a.unread name⟩

/-! ## Single events -/

/-- A receiver of the name is there, and the stream keeps up with its history. -/
structure Attends (name : String) (a : StreamRun) : Prop where
  logged : a.Logged
  reads : ∃ r, a.history.reader? name = some r

theorem Attends.size_ne_zero (h : Attends name a) : a.stream.receivers.size ≠ 0 := by
  obtain ⟨r, hr⟩ := h.reads
  intro hsize
  have hnone := Table.size_eq_zero_iff.1 hsize name
  rw [h.logged.positions, hr] at hnone
  cases hnone

/-- A receiver that is there stays there unless it is dropped or its name is taken. -/
theorem attends_step (h : Attends name a) (he : ¬e.Ends name) (hs : a.step? e = some b) :
    Attends name b := by
  refine ⟨logged_step h.logged hs, ?_⟩
  obtain ⟨r, hr⟩ := h.reads
  cases stepped_of_step? hs with
  | send => exact ⟨r, hr⟩
  | subscribe other => exact ⟨r, (if_neg (Ne.symm he)).trans hr⟩
  | unsubscribe other => exact ⟨r, (if_neg (Ne.symm he)).trans hr⟩
  | receive other =>
    simp only [StreamHistory.reader?, hr]
    split
    · exact ⟨_, rfl⟩
    · exact ⟨r, rfl⟩
  | close => exact ⟨r, hr⟩

/-- What an event at a stream means for the feed of a receiver, and what is seen of it. -/
structure Feeds (name : String) (a : StreamRun) (e : StreamEvent) (b : StreamRun) : Prop where
  seen : a.sight? name e = (e.feed? name).map (a.feed name).sight
  after : b.feed name = (e.feed? name).elim (a.feed name) (a.feed name).after

theorem feeds_send (h : Attends name a) (cancelled : Bool) (e : AnalyticsEvent) :
    Feeds name a (.send cancelled e)
      ⟨(a.stream.send cancelled e).state, .sent cancelled e :: a.history⟩ := by
  obtain ⟨r, hr⟩ := h.reads
  have hsize := h.size_ne_zero
  have hlive : a.history.live ≠ [] := mt (live_eq_nil_iff h.logged).1 hsize
  cases cancelled with
  | true =>
    have hstate := AnalyticsStream.state_send_refused (s := a.stream) (e := e) (.inl rfl)
    have haccepted : StreamHistory.accepted (.sent true e :: a.history) = a.history.accepted :=
      if_pos (.inl rfl)
    refine ⟨?_, ?_⟩
    · have hcount : ((a.stream.dropped + 1 : Nat) : Int) - a.stream.dropped = 1 := by omega
      simp only [sight?, hstate, hcount, Int.sub_self]
      rfl
    · simp only [feed, unread, hstate, haccepted]
      rfl
  | false =>
    have hstate := AnalyticsStream.state_send_accepted (e := e) hsize
    have haccepted : StreamHistory.accepted (.sent false e :: a.history) =
        a.history.accepted ++ [e] := if_neg (not_or.2 ⟨Bool.false_ne_true, hlive⟩)
    have hle := (h.logged.reads name r hr).le
    refine ⟨?_, ?_⟩
    · have hcount : ((a.stream.sent + 1 : Nat) : Int) - a.stream.sent = 1 := by omega
      simp only [sight?, hstate, hcount, Int.sub_self]
      rfl
    · simp only [feed, unread, hstate, haccepted, h.logged.positions, hr, Option.map_some,
        Option.getD_some]
      rw [List.drop_append_of_le_length hle]
      rfl

/-- An event that leaves the log and the position of a receiver alone means nothing to it. -/
theorem feed_eq (hbuffer : b.stream.buffer = a.stream.buffer)
    (halive : b.stream.alive = a.stream.alive) (hlog : b.history.accepted = a.history.accepted)
    (hposition : b.stream.receivers.find? name = a.stream.receivers.find? name) :
    b.feed name = a.feed name := by
  simp only [feed, unread, hbuffer, halive, hlog, hposition]

/-- What a receiver has still to read after it has been answered. -/
theorem unread_afterReceive (h : a.Logged) {r : Reader} (hr : a.history.reader? name = some r)
    (x : Received) :
    unread ⟨a.stream.afterReceive name r.position x, .received name x :: a.history⟩ name =
      (a.unread name).drop x.advance := by
  rw [unread, AnalyticsStream.find?_afterReceive, unread_eq h hr, List.drop_drop]
  rfl

theorem feeds_receive (h : Attends name a) {other : String}
    (hs : a.step? (.receive other) = some b) : Feeds name a (.receive other) b := by
  obtain ⟨r, hr⟩ := h.reads
  by_cases hname : other = name
  · subst hname
    have hanswer : (a.feed other).answer = a.stream.answer (a.unread other) := rfl
    have hevent : StreamEvent.feed? other (.receive other) = some .receive := if_pos rfl
    have hstep := step?_receive h.logged hr
    rw [hstep] at hs
    cases hs
    refine ⟨?_, ?_⟩
    · have hfind : a.stream.receivers.find? other = some r.position := by
        rw [h.logged.positions, hr, Option.map_some]
      have hreceive :=
        AnalyticsStream.receive?_eq h.logged.window hfind (h.logged.reads other r hr).le
      rw [← unread_eq h.logged hr, ← hanswer] at hreceive
      rw [sight?, if_pos rfl, hreceive, hevent]
      rfl
    · rw [hevent, Option.elim_some, feed, unread_afterReceive h.logged hr]
      rfl
  · have hevent : StreamEvent.feed? name (.receive other) = none := if_neg hname
    cases stepped_of_step? hs with
    | receive _ position _ =>
      refine ⟨?_, ?_⟩
      · rw [hevent]
        exact if_neg hname
      · rw [hevent, Option.elim_none]
        refine feed_eq rfl rfl rfl ?_
        rw [Table.find?_insert, if_neg (Ne.symm hname)]

/-- **To a receiver that stays, a step of the stream is a step of its feed, or nothing.** -/
theorem feeds_step (h : Attends name a) (he : ¬e.Ends name) (hs : a.step? e = some b) :
    Feeds name a e b := by
  cases stepped_of_step? hs with
  | send cancelled e => exact feeds_send h cancelled e
  | subscribe other =>
    refine ⟨rfl, feed_eq rfl rfl rfl ?_⟩
    rw [AnalyticsStream.subscribe, Table.find?_insert, if_neg (Ne.symm he)]
  | unsubscribe other =>
    refine ⟨rfl, feed_eq rfl rfl rfl ?_⟩
    rw [AnalyticsStream.unsubscribe, Table.find?_erase, if_neg (Ne.symm he)]
  | receive other => exact feeds_receive h hs
  | close => exact ⟨rfl, rfl⟩

/-- **What is seen from a receiver that stays is what its feed shows.** -/
theorem sights_eq (h : Attends name a) (hes : ∀ e ∈ es, ¬e.Ends name) (hr : a.run? es = some b) :
    a.sights name es = (a.feed name).sights (es.filterMap (StreamEvent.feed? name)) := by
  induction es generalizing a with
  | nil => rfl
  | cons e es ih =>
    obtain ⟨a₁, h₁, hr⟩ := Option.bind_eq_some_iff.1 hr
    obtain ⟨he, hes⟩ := List.forall_mem_cons.1 hes
    have hfeeds := feeds_step h he h₁
    have hrest := ih (attends_step h he h₁) hes hr
    rw [sights, h₁, Option.elim_some, hrest, hfeeds.seen, hfeeds.after, List.filterMap_cons]
    cases e.feed? name <;> rfl

/-- A receiver that has just come. -/
theorem feed_subscribe (h : a.Logged) (hs : a.step? (.subscribe name) = some b) :
    Attends name b ∧ b.feed name = { buffer := a.stream.buffer } := by
  have hlogged := logged_step h hs
  cases stepped_of_step? hs with
  | subscribe _ halive =>
    refine ⟨⟨hlogged, _, if_pos rfl⟩, ?_⟩
    have hunread :
        unread ⟨a.stream.subscribe name, .subscribed name a.stream.sent :: a.history⟩ name =
          a.history.accepted.drop a.stream.sent := by
      rw [unread, AnalyticsStream.subscribe, Table.find?_insert, if_pos rfl]
      rfl
    rw [feed, hunread, h.window.sent, List.drop_length]
    simp only [AnalyticsStream.subscribe, halive]

/-- A receiver subscribes at some time in a run of a stream and then stays for some events. -/
structure Stays (s : AnalyticsStream) (name : String) (es : List StreamEvent) (a : StreamRun) :
    Prop where
  came : ∃ earlier, run? ⟨s, []⟩ (earlier ++ [.subscribe name]) = some a
  stays : ∀ e ∈ es, ¬e.Ends name
  runs : (a.run? es).isSome

theorem run?_append (a : StreamRun) (es fs : List StreamEvent) :
    a.run? (es ++ fs) = (a.run? es).bind fun b => b.run? fs := by
  induction es generalizing a with
  | nil => rfl
  | cons e es ih =>
    simp only [List.cons_append, run?, ih, Option.bind_assoc]

/-- From a receiver that stays only its feed is seen, which is empty when it comes. -/
theorem sights_of_stays {capacity : Nat} {s : AnalyticsStream}
    (hs : AnalyticsStream.withCapacity capacity = .ok s) (h : Stays s name es a) :
    a.sights name es =
      Feed.sights { buffer := s.buffer } (es.filterMap (StreamEvent.feed? name)) := by
  obtain ⟨earlier, hcame⟩ := h.came
  rw [run?_append] at hcame
  obtain ⟨b, hb, hsubscribe⟩ := Option.bind_eq_some_iff.1 hcame
  obtain ⟨a', hstep, hend⟩ := Option.bind_eq_some_iff.1 hsubscribe
  cases hend
  obtain ⟨hlogged, hbuffer⟩ := logged_run (logged_start hs) hb
  obtain ⟨hattends, hfeed⟩ := feed_subscribe hlogged hstep
  obtain ⟨c, hc⟩ := Option.isSome_iff_exists.1 h.runs
  rw [sights_eq hattends h.stays hc, hfeed, hbuffer]

/-- **Receivers are isolated from each other.** Take two runs in each of which some receiver comes
and stays, and in which from then on the same is sent, the receiver receives at the same times, and
the sending side is dropped at the same time. Whatever else happens before and meanwhile, the
receiver is answered the same and every event is counted alike. -/
theorem isolated_of_stays {capacity : Nat} {s : AnalyticsStream} {name' : String}
    {es' : List StreamEvent} {a' : StreamRun}
    (hs : AnalyticsStream.withCapacity capacity = .ok s)
    (h : Stays s name es a) (h' : Stays s name' es' a')
    (hsame : es.filterMap (StreamEvent.feed? name) = es'.filterMap (StreamEvent.feed? name')) :
    a.sights name es = a'.sights name' es' ∧
      a.sights name es =
        Feed.sights { buffer := s.buffer } (es.filterMap (StreamEvent.feed? name)) := by
  have hfirst := sights_of_stays hs h
  have hsecond := sights_of_stays hs h'
  rw [← hsame] at hsecond
  exact ⟨hfirst.trans hsecond.symm, hfirst⟩

/-- A receiver that is alone, falls behind by one event and is still there at the end. -/
def alone : List StreamEvent :=
  [.send false (beganAt 1), .receive "only", .send true (beganAt 2), .send false (beganAt 3),
    .send false (beganAt 4), .send false (beganAt 5), .receive "only", .receive "only", .close,
    .receive "only", .receive "only"]

/-- The same to a receiver that comes late, among others that come, fall behind and go. -/
def crowded : List StreamEvent :=
  [.send false (beganAt 1), .subscribe "third", .receive "late", .send true (beganAt 2),
    .receive "first", .send false (beganAt 3), .unsubscribe "first", .send false (beganAt 4),
    .send false (beganAt 5), .receive "late", .receive "third", .receive "late",
    .unsubscribe "third", .close, .receive "late", .receive "late"]

theorem isolated_of_crowded :
    ∃ s a a', AnalyticsStream.withCapacity 2 = .ok s ∧ Stays s "only" alone a ∧
      Stays s "late" crowded a' ∧
      alone.filterMap (StreamEvent.feed? "only") = crowded.filterMap (StreamEvent.feed? "late") ∧
      a.stream.sent = 0 ∧ a'.stream.sent = 2 ∧
      a.sights "only" alone = a'.sights "late" crowded ∧
      a.sights "only" alone =
        [.counted 1 0, .answered (.event (beganAt 1)), .counted 0 1, .counted 1 0, .counted 1 0,
          .counted 1 0, .answered (.lagged 1), .answered (.event (beganAt 4)), .closed,
          .answered (.event (beganAt 5)), .answered .closed] := by
  have halone : ∃ s a, AnalyticsStream.withCapacity 2 = .ok s ∧ Stays s "only" alone a ∧
      a.stream.sent = 0 :=
    ⟨_, _, rfl, ⟨⟨[], rfl⟩, by decide, rfl⟩, rfl⟩
  obtain ⟨s, a, hs, hstays, hsent⟩ := halone
  have hcrowded : ∃ a', Stays s "late" crowded a' ∧ a'.stream.sent = 2 := by
    cases hs
    exact ⟨_, ⟨⟨[.subscribe "first", .send false (beganAt 8), .send false (beganAt 9)], rfl⟩,
      by decide, rfl⟩, rfl⟩
  obtain ⟨a', hstays', hsent'⟩ := hcrowded
  have hsame : alone.filterMap (StreamEvent.feed? "only") =
      crowded.filterMap (StreamEvent.feed? "late") := rfl
  obtain ⟨hequal, hfeed⟩ := isolated_of_stays hs hstays hstays' hsame
  refine ⟨s, a, a', hs, hstays, hstays', hsame, hsent, hsent', hequal, hfeed.trans ?_⟩
  cases hs
  decide

end StreamRun

end RoomWatch
