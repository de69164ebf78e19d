import RoomWatch.Proofs.Analytics.Window

/-!
# Receivers of a stream

Events are sent to a stream, receivers come, receive and go, and at some time the sending side is
dropped, in any order (`StreamRun.run?`). The history of what has happened tells which events have
been accepted (`accepted`) and what each receiver has been through (`reader?`).

* `logged_run`: the stream keeps up with its history.
* `follows_of_logged`: what a receiver has got, what it is told next and what draining answers.
* `faithful_of_run`: **every receiver sees the accepted events in order, and is told of each gap.**
-/

namespace RoomWatch

/-- What may happen to a stream. -/
inductive StreamEvent where
  | send (cancelled : Bool) (e : AnalyticsEvent)
  /-- A receiver subscribes. A receiver of that name, if there is one, is dropped. -/
  | subscribe (name : String)
  | unsubscribe (name : String)
  | receive (name : String)
  | close

/-- What has happened to a stream. -/
inductive StreamEntry where
  | sent (cancelled : Bool) (e : AnalyticsEvent)
  /-- A receiver has come, when the stream counted that many events as sent. -/
  | subscribed (name : String) (count : Nat)
  | unsubscribed (name : String)
  | received (name : String) (answer : Received)
  | closed
  deriving DecidableEq

def StreamEntry.isSend : StreamEntry → Bool
  | .sent _ _ => true
  | _ => false

/-- What a receiver has been through since it subscribed. -/
structure Reader where
  /-- How many events the stream counted as sent then. -/
  since : Nat
  /-- The events that it has obtained, the first one first. -/
  got : List AnalyticsEvent := []
  /-- The sum of the losses that have been reported to it. -/
  lost : Nat := 0

namespace Reader

/-- The reader after it has been answered once more. -/
def note (r : Reader) : Received → Reader
  | .event e => { r with got := r.got ++ [e] }
  | .lagged n => { r with lost := r.lost + n }
  | .empty | .closed => r

/-- How far the reader has come. -/
def position (r : Reader) : Nat := r.since + r.got.length + r.lost

theorem position_note (r : Reader) (x : Received) :
    (r.note x).position = r.position + x.advance := by
  cases x <;> simp [note, position, Received.advance] <;> omega

theorem since_le_position (r : Reader) : r.since ≤ r.position :=
  Nat.le_trans (Nat.le_add_right ..) (Nat.le_add_right ..)

theorem since_note (r : Reader) (x : Received) : (r.note x).since = r.since := by
  cases x <;> rfl

end Reader

/-- What has happened to a stream, the latest first. -/
abbrev StreamHistory := List StreamEntry

namespace StreamHistory

/-- The names of the receivers that are there. -/
def live : StreamHistory → List String
  | [] => []
  | .subscribed name _ :: h => name :: live h
  | .unsubscribed name :: h => (live h).filter (· ≠ name)
  | .sent _ _ :: h | .received _ _ :: h | .closed :: h => live h

/-- The events that were not cancelled and were sent while some receiver was there, the oldest
first. -/
def accepted : StreamHistory → List AnalyticsEvent
  | [] => []
  | .sent cancelled e :: h => if cancelled ∨ live h = [] then accepted h else accepted h ++ [e]
  | .subscribed _ _ :: h | .unsubscribed _ :: h | .received _ _ :: h | .closed :: h => accepted h

/-- What the receiver of a name has been through, if there is one. -/
def reader? (name : String) : StreamHistory → Option Reader
  | [] => none
  | .subscribed m count :: h => if name = m then some { since := count } else reader? name h
  | .unsubscribed m :: h => if name = m then none else reader? name h
  | .received m x :: h => if name = m then (reader? name h).map (·.note x) else reader? name h
  | .sent _ _ :: h | .closed :: h => reader? name h

/-- The count of sent events that was noted when a receiver came is that of the events accepted by
then. -/
def Counted (h : StreamHistory) : Prop :=
  ∀ later name count earlier, h = later ++ .subscribed name count :: earlier →
    count = (accepted earlier).length

theorem counted_cons {x : StreamEntry} {h : StreamHistory} (hh : h.Counted)
    (hx : ∀ name count, x = .subscribed name count → count = h.accepted.length) :
    Counted (x :: h) := by
  intro later name count earlier heq
  cases later with
  | nil =>
    obtain ⟨rfl, rfl⟩ := List.cons.inj heq
    exact hx _ _ rfl
  | cons y later => exact hh later name count earlier (List.cons.inj heq).2

end StreamHistory

/-- A stream with its history. -/
structure StreamRun where
  stream : AnalyticsStream
  history : StreamHistory := []

namespace StreamRun

/-- Something happens; none if it cannot. Once the sending side is dropped there is nobody to send
or to subscribe with. -/
def step? (a : StreamRun) : StreamEvent → Option StreamRun
  | .send cancelled e =>
    if a.stream.alive then
      some ⟨(a.stream.send cancelled e).state, .sent cancelled e :: a.history⟩
    else none
  | .subscribe name =>
    if a.stream.alive then
      some ⟨a.stream.subscribe name, .subscribed name a.stream.sent :: a.history⟩
    else none
  | .unsubscribe name => some ⟨(a.stream.unsubscribe name).1, .unsubscribed name :: a.history⟩
  | .receive name =>
    (a.stream.receive? name).map fun (s, x) => ⟨s, .received name x :: a.history⟩
  | .close => if a.stream.alive then some ⟨a.stream.close.1, .closed :: a.history⟩ else none

def run? (a : StreamRun) : List StreamEvent → Option StreamRun
  | [] => some a
  | e :: es => (a.step? e).bind fun a' => a'.run? es

variable {a a' : StreamRun} {name : String} {r : Reader}

/-- What an event needs and what it does. -/
inductive Stepped (a : StreamRun) : StreamEvent → StreamRun → Prop where
  | send (cancelled : Bool) (e : AnalyticsEvent) (alive : a.stream.alive = true) :
      Stepped a (.send cancelled e)
        ⟨(a.stream.send cancelled e).state, .sent cancelled e :: a.history⟩
  | subscribe (name : String) (alive : a.stream.alive = true) :
      Stepped a (.subscribe name)
        ⟨a.stream.subscribe name, .subscribed name a.stream.sent :: a.history⟩
  | unsubscribe (name : String) :
      Stepped a (.unsubscribe name)
        ⟨(a.stream.unsubscribe name).1, .unsubscribed name :: a.history⟩
  | receive (name : String) (position : Nat)
      (found : a.stream.receivers.find? name = some position) :
      Stepped a (.receive name)
        ⟨{ a.stream with
            receivers := a.stream.receivers.insert name (a.stream.receiveAt position).1 },
          .received name (a.stream.receiveAt position).2 :: a.history⟩
  | close (alive : a.stream.alive = true) :
      Stepped a .close ⟨a.stream.close.1, .closed :: a.history⟩

theorem stepped_of_step? {e : StreamEvent} (h : a.step? e = some a') : a.Stepped e a' := by
  cases e with
  | send cancelled e =>
    obtain ⟨halive, h⟩ := Option.ite_none_right_eq_some.1 h
    cases h
    exact .send cancelled e halive
  | subscribe name =>
    obtain ⟨halive, h⟩ := Option.ite_none_right_eq_some.1 h
    cases h
    exact .subscribe name halive
  | unsubscribe name =>
    cases h
    exact .unsubscribe name
  | receive name =>
    obtain ⟨⟨s, x⟩, hs, rfl⟩ := Option.map_eq_some_iff.1 h
    obtain ⟨position, hfound, hx⟩ := Option.map_eq_some_iff.1 hs
    cases hx
    exact .receive name position hfound
  | close =>
    obtain ⟨halive, h⟩ := Option.ite_none_right_eq_some.1 h
    cases h
    exact .close halive

/-- The accepted events that the stream has still to hand to a receiver. -/
def unread (a : StreamRun) (name : String) : List AnalyticsEvent :=
  a.history.accepted.drop ((a.stream.receivers.find? name).getD 0)

/-- A reader has come as far as it says, and what it has got lies behind it in the log. -/
structure Reads (log : List AnalyticsEvent) (r : Reader) : Prop where
  le : r.position ≤ log.length
  got : r.got.Sublist ((log.take r.position).drop r.since)

/-- The stream agrees with its history. -/
structure Logged (a : StreamRun) : Prop where
  window : a.stream.Window a.history.accepted
  calls : a.stream.sent + a.stream.dropped = a.history.countP StreamEntry.isSend
  live : ∀ name, name ∈ a.history.live ↔ (a.stream.receivers.find? name).isSome
  alive : a.stream.alive = true ↔ .closed ∉ a.history
  counted : a.history.Counted
  positions : ∀ name,
    a.stream.receivers.find? name = (a.history.reader? name).map Reader.position
  reads : ∀ name r, a.history.reader? name = some r → Reads a.history.accepted r

namespace Reads

variable {log : List AnalyticsEvent}

/-- A reader that has just come has read nothing. -/
theorem start : Reads log { since := log.length } := ⟨Nat.le_refl _, List.nil_sublist _⟩

/-- What is put behind the part of the log that has been read comes after the subscription. -/
theorem drop_append (h : Reads log r) (es : List AnalyticsEvent) :
    (log.take r.position ++ es).drop r.since = (log.take r.position).drop r.since ++ es := by
  refine List.drop_append_of_le_length ?_
  rw [List.length_take]
  exact Nat.le_min.2 ⟨r.since_le_position, Nat.le_trans r.since_le_position h.le⟩

theorem append (h : Reads log r) (e : AnalyticsEvent) : Reads (log ++ [e]) r where
  le := by rw [List.length_append]; exact Nat.le_add_right_of_le h.le
  got := by rw [List.take_append_of_le_length h.le]; exact h.got

/-- A reader stays one when it is answered by the stream that has the log. -/
theorem note {s : AnalyticsStream} (h : Reads log r) :
    Reads log (r.note (s.answer (log.drop r.position))) := by
  have hlength : (log.drop r.position).length = log.length - r.position := List.length_drop
  have hle := h.le
  unfold AnalyticsStream.answer
  split
  case isTrue hlag =>
    refine ⟨by rw [Reader.position_note, Received.advance]; omega, ?_⟩
    -- skipped events lie behind the reader and are in nobody's way
    rw [Reader.position_note, Reader.since_note]
    exact h.got.trans ((List.take_sublist_take_left (Nat.le_add_right ..)).drop _)
  case isFalse =>
    by_cases hlt : r.position < log.length
    · rw [List.drop_eq_getElem_cons hlt]
      refine ⟨by rw [Reader.position_note]; exact hlt, ?_⟩
      rw [Reader.position_note, Reader.since_note]
      have htake : (log.take (r.position + 1)).drop r.since =
          (log.take r.position).drop r.since ++ [log[r.position]] := by
        rw [← List.take_append_getElem hlt, h.drop_append]
      exact htake ▸ h.got.append (List.Sublist.refl _)
    · rw [List.drop_eq_nil_of_le (Nat.le_of_not_lt hlt)]
      simp only [AnalyticsStream.rest]
      split <;> exact h

end Reads

/-- A stream has receivers if and only if its history says so. -/
theorem live_eq_nil_iff (h : a.Logged) : a.history.live = [] ↔ a.stream.receivers.size = 0 := by
  simp only [Table.size_eq_zero_iff, List.eq_nil_iff_forall_not_mem, h.live,
    Option.not_isSome_iff_eq_none]

theorem logged_start {capacity : Nat} {s : AnalyticsStream}
    (h : AnalyticsStream.withCapacity capacity = .ok s) : Logged ⟨s, []⟩ := by
  unfold AnalyticsStream.withCapacity at h
  split at h
  · cases h
  · cases h
    refine ⟨⟨rfl, ?_⟩, rfl, ?_, ?_, ?_, ?_, ?_⟩ <;>
      simp [StreamHistory.accepted, StreamHistory.live, StreamHistory.reader?,
        StreamHistory.Counted]

theorem logged_send (h : a.Logged) (cancelled : Bool) (e : AnalyticsEvent) :
    Logged ⟨(a.stream.send cancelled e).state, .sent cancelled e :: a.history⟩ := by
  have hcounted := StreamHistory.counted_cons h.counted (x := .sent cancelled e) (by simp)
  have hcalls : (StreamEntry.sent cancelled e :: a.history).countP StreamEntry.isSend =
      a.stream.sent + a.stream.dropped + 1 := by rw [List.countP_cons_of_pos rfl, h.calls]
  by_cases hrefused : cancelled = true ∨ a.history.live = []
  · have haccepted : StreamHistory.accepted (.sent cancelled e :: a.history) = a.history.accepted :=
      if_pos hrefused
    rw [AnalyticsStream.state_send_refused (hrefused.imp_right (live_eq_nil_iff h).1)]
    exact ⟨haccepted ▸ ⟨h.window.sent, h.window.kept⟩, hcalls.symm, h.live,
      h.alive.trans (by simp), hcounted, h.positions, haccepted ▸ h.reads⟩
  · have haccepted : StreamHistory.accepted (.sent cancelled e :: a.history) =
        a.history.accepted ++ [e] := if_neg hrefused
    obtain ⟨hcancelled, hlive⟩ := not_or.1 hrefused
    obtain rfl := Bool.eq_false_iff.2 hcancelled
    have hsize := mt (live_eq_nil_iff h).2 hlive
    have hwindow := AnalyticsStream.window_send h.window hsize e
    rw [AnalyticsStream.state_send_accepted hsize] at hwindow ⊢
    exact ⟨haccepted ▸ hwindow, (Nat.succ_add ..).trans hcalls.symm, h.live,
      h.alive.trans (by simp), hcounted, h.positions,
      fun name r hr => haccepted ▸ (h.reads name r hr).append e⟩

theorem logged_subscribe (h : a.Logged) (name : String) :
    Logged ⟨a.stream.subscribe name, .subscribed name a.stream.sent :: a.history⟩ where
  window := ⟨h.window.sent, h.window.kept⟩
  calls := h.calls
  live m := by
    rw [AnalyticsStream.subscribe, Table.find?_insert, StreamHistory.live, List.mem_cons, h.live]
    split <;> simp_all
  alive := h.alive.trans (by simp)
  counted := StreamHistory.counted_cons h.counted (by rintro _ _ ⟨⟩; exact h.window.sent)
  positions m := by
    rw [AnalyticsStream.subscribe, Table.find?_insert, StreamHistory.reader?, h.positions]
    split <;> rfl
  reads m r hr := by
    simp only [StreamHistory.reader?] at hr
    split at hr
    · cases hr
      rw [h.window.sent]
      exact .start
    · exact h.reads m r hr

theorem logged_unsubscribe (h : a.Logged) (name : String) :
    Logged ⟨(a.stream.unsubscribe name).1, .unsubscribed name :: a.history⟩ where
  window := ⟨h.window.sent, h.window.kept⟩
  calls := h.calls
  live m := by
    rw [AnalyticsStream.unsubscribe, Table.find?_erase, StreamHistory.live, List.mem_filter, h.live]
    split <;> simp_all
  alive := h.alive.trans (by simp)
  counted := StreamHistory.counted_cons h.counted (by simp)
  positions m := by
    rw [AnalyticsStream.unsubscribe, Table.find?_erase, StreamHistory.reader?, h.positions]
    split <;> rfl
  reads m r hr := by
    simp only [StreamHistory.reader?] at hr
    split at hr
    · cases hr
    · exact h.reads m r hr

theorem logged_close (h : a.Logged) : Logged ⟨a.stream.close.1, .closed :: a.history⟩ where
  window := ⟨h.window.sent, h.window.kept⟩
  calls := h.calls
  live := h.live
  alive := by simp [AnalyticsStream.close]
  counted := StreamHistory.counted_cons h.counted (by simp)
  positions := h.positions
  reads := h.reads

/-- A receive answers what the unread events say, and the history takes it down. -/
theorem step?_receive (h : a.Logged) (hr : a.history.reader? name = some r) :
    a.step? (.receive name) =
      some ⟨a.stream.afterReceive name r.position (a.stream.answer (a.unread name)),
        .received name (a.stream.answer (a.unread name)) :: a.history⟩ := by
  have hfind : a.stream.receivers.find? name = some r.position := by
    rw [h.positions, hr, Option.map_some]
  rw [step?, AnalyticsStream.receive?_eq h.window hfind (h.reads name r hr).le, unread, hfind]
  rfl

theorem unread_eq (h : a.Logged) (hr : a.history.reader? name = some r) :
    a.unread name = a.history.accepted.drop r.position := by
  rw [unread, h.positions, hr]
  rfl

theorem logged_receive (h : a.Logged) (hr : a.history.reader? name = some r) :
    Logged ⟨a.stream.afterReceive name r.position (a.stream.answer (a.unread name)),
      .received name (a.stream.answer (a.unread name)) :: a.history⟩ where
  window := AnalyticsStream.window_afterReceive h.window _
  calls := h.calls
  live m := by
    rw [AnalyticsStream.afterReceive, Table.find?_insert, StreamHistory.live, h.live]
    split
    case isTrue hm => simp [hm, h.positions, hr]
    case isFalse => rfl
  alive := h.alive.trans (by simp)
  counted := StreamHistory.counted_cons h.counted (by simp)
  positions m := by
    rw [AnalyticsStream.afterReceive, Table.find?_insert, StreamHistory.reader?, h.positions]
    split
    case isTrue hm => rw [hm, hr, Option.map_some, Option.map_some, Reader.position_note]
    case isFalse => rfl
  reads m r' hr' := by
    simp only [StreamHistory.reader?] at hr'
    split at hr'
    case isTrue hm =>
      rw [hm, hr] at hr'
      cases hr'
      rw [unread_eq h hr]
      exact (h.reads name r hr).note
    case isFalse => exact h.reads m r' hr'

/-- Whatever happens, the stream keeps up with its history. -/
theorem logged_step {e : StreamEvent} (h : a.Logged) (he : a.step? e = some a') : a'.Logged := by
  cases stepped_of_step? he with
  | send cancelled e => exact logged_send h cancelled e
  | subscribe name => exact logged_subscribe h name
  | unsubscribe name => exact logged_unsubscribe h name
  | receive name position hfound =>
    -- the history knows the receiver, since the stream does
    obtain ⟨r, hr, -⟩ := Option.map_eq_some_iff.1 ((h.positions name).symm.trans hfound)
    have hstep := step?_receive h hr
    rw [he] at hstep
    rw [Option.some.inj hstep]
    exact logged_receive h hr
  | close => exact logged_close h

theorem buffer_step {e : StreamEvent} (he : a.step? e = some a') :
    a'.stream.buffer = a.stream.buffer := by
  cases stepped_of_step? he with
  | send cancelled e =>
    unfold AnalyticsStream.send
    split
    · rfl
    · split <;> rfl
  | _ => rfl

/-- So it does in every run, with the buffer that it has from the start. -/
theorem logged_run {es : List StreamEvent} (h : a.Logged) (hr : a.run? es = some a') :
    a'.Logged ∧ a'.stream.buffer = a.stream.buffer := by
  induction es generalizing a with
  | nil => cases hr; exact ⟨h, rfl⟩
  | cons e es ih =>
    obtain ⟨a₁, h₁, hr⟩ := Option.bind_eq_some_iff.1 hr
    obtain ⟨hlogged, hbuffer⟩ := ih (logged_step h h₁) hr
    exact ⟨hlogged, hbuffer.trans (buffer_step h₁)⟩

/-- **What a receiver sees of a stream.** -/
structure Follows (a : StreamRun) (name : String) (r : Reader) : Prop where
  /-- What it has got and what it has still to read are accepted events that were sent after it
  subscribed, each at most once and in the order in which they were sent. -/
  inOrder : (r.got ++ a.unread name).Sublist (a.history.accepted.drop r.since)
  /-- Every event that has been counted as sent since it subscribed is got, lost or unread. -/
  accounted : r.since + (r.got.length + r.lost + (a.unread name).length) = a.stream.sent
  /-- The next receive reports a loss if and only if more events are unread than the buffer holds;
  otherwise it hands out the oldest of them. -/
  answered : ∃ a', a.step? (.receive name) = some a' ∧
    a'.history = .received name (a.stream.answer (a.unread name)) :: a.history
  /-- After a loss has been reported, the last events are unread, as many as the buffer holds. -/
  resumed : ∀ a', a.step? (.receive name) = some a' → a.stream.buffer < (a.unread name).length →
    a'.unread name = a.history.accepted.drop (a.history.accepted.length - a.stream.buffer)
  /-- Draining reports what is lost, then hands out all that is left, and then tells that nothing is
  left, whether or not the sending side is still there. -/
  drained : (a.stream.drain name).2 =
    (if a.stream.buffer < (a.unread name).length then
      [.lagged ((a.unread name).length - a.stream.buffer)] else []) ++
      ((a.unread name).drop ((a.unread name).length - a.stream.buffer)).map .event ++
      [if a.stream.alive then .empty else .closed]

theorem follows_of_logged (h : a.Logged) (hr : a.history.reader? name = some r) :
    a.Follows name r := by
  have hfind : a.stream.receivers.find? name = some r.position := by
    rw [h.positions, hr, Option.map_some]
  have hreads := h.reads name r hr
  have hle := hreads.le
  have hunread := unread_eq h hr
  refine ⟨?_, ?_, ⟨_, step?_receive h hr, rfl⟩, ?_, ?_⟩
  · have hsplit : (a.history.accepted.take r.position).drop r.since ++
        a.history.accepted.drop r.position = a.history.accepted.drop r.since := by
      rw [← hreads.drop_append, List.take_append_drop]
    rw [hunread, ← hsplit]
    exact hreads.got.append (List.Sublist.refl _)
  · rw [hunread, List.length_drop, h.window.sent]
    unfold Reader.position at hle ⊢
    omega
  · intro a' ha' hlag
    have hanswer : a.stream.answer (a.unread name) =
        .lagged ((a.unread name).length - a.stream.buffer) := if_pos hlag
    rw [step?_receive h hr, hanswer] at ha'
    cases ha'
    rw [unread, AnalyticsStream.find?_afterReceive]
    rw [hunread, List.length_drop] at hlag ⊢
    rw [Option.getD_some, Received.advance]
    exact congrArg (List.drop · a.history.accepted) (by omega)
  · rw [AnalyticsStream.drain_eq h.window hfind hle, hunread]
    rfl

/-- **Receivers get what they are due.** -/
structure Faithful (capacity : Nat) (a : StreamRun) : Prop where
  buffer : LeastPower (max 1 capacity) a.stream.buffer
  /-- The count of sent events is that of the accepted ones, also when a receiver comes. -/
  sent : a.stream.sent = a.history.accepted.length
  counted : a.history.Counted
  /-- Every event that the stream was given is counted, as sent or as dropped. -/
  calls : a.stream.sent + a.stream.dropped = a.history.countP StreamEntry.isSend
  alive : a.stream.alive = true ↔ .closed ∉ a.history
  /-- The receivers are those that have come and have not gone. -/
  live : ∀ name, name ∈ a.history.live ↔ (a.stream.receivers.find? name).isSome
  readers : ∀ name, name ∈ a.history.live ↔ (a.history.reader? name).isSome
  follows : ∀ name r, a.history.reader? name = some r → a.Follows name r

/-- **Receivers get what they are due in every run**, however events, receivers and the end of the
sending side are interleaved. -/
theorem faithful_of_run {capacity : Nat} {s : AnalyticsStream} {es : List StreamEvent}
    (hs : AnalyticsStream.withCapacity capacity = .ok s) (hr : run? ⟨s, []⟩ es = some a) :
    a.Faithful capacity := by
  obtain ⟨h, hbuffer⟩ := logged_run (logged_start hs) hr
  have hleast : LeastPower (max 1 capacity) s.buffer := by
    unfold AnalyticsStream.withCapacity at hs
    split at hs
    · cases hs
    · cases hs
      exact leastPower_roundUp _
  refine ⟨hbuffer ▸ hleast, h.window.sent, h.counted, h.calls, h.alive, h.live, ?_,
    fun name r hr => follows_of_logged h hr⟩
  intro name
  rw [h.live, h.positions, Option.isSome_map]

/-- The event of a room that has begun, at some time. -/
def beganAt (timestamp : Int64) : AnalyticsEvent := { kind := .roomCreated, timestamp }

/-- A capacity of three counts as four. The first receiver falls behind by five events, a second one
comes late, and the sending side is dropped before either has read everything. -/
def overtaking : List StreamEvent :=
  [.send false (beganAt 0), .subscribe "slow", .send false (beganAt 1), .send true (beganAt 2),
    .send false (beganAt 3), .send false (beganAt 4), .send false (beganAt 5),
    .subscribe "late", .send false (beganAt 6), .receive "slow", .receive "slow", .close,
    .receive "late"]

theorem faithful_of_overtaking :
    ∃ s a, AnalyticsStream.withCapacity 3 = .ok s ∧ run? ⟨s, []⟩ overtaking = some a ∧
      a.Faithful 3 ∧ a.stream.buffer = 4 ∧ a.stream.sent = 5 ∧ a.stream.dropped = 2 ∧
      a.history.reader? "slow" = some ⟨0, [beganAt 3], 1⟩ ∧
      a.history.reader? "late" = some ⟨4, [beganAt 6], 0⟩ ∧
      a.unread "slow" = [beganAt 4, beganAt 5, beganAt 6] :=
  ⟨_, _, rfl, rfl, @faithful_of_run _ 3 _ overtaking rfl rfl, rfl, rfl, rfl, rfl, rfl, rfl⟩

end StreamRun

end RoomWatch
