import Mathlib.Algebra.Ring.Nat
import RoomWatch.Analytics.Stream

/-!
# The window of a stream

A stream keeps the end of the log of the events that it has handed out, as much of it as its buffer
holds (`Window`). What a receiver is told is a matter of the part of the log that it has not read.

* `leastPower_roundUp`: the buffer is a power of two, the least that is large enough.
* `receive?_eq`: a receive answers what the unread part of the log says.
* `drain_eq`: **draining answers all that is unread and not lost, after one report of what is.**
-/

namespace RoomWatch

/-- The least power of two that is at least `n`. -/
structure LeastPower (n b : Nat) : Prop where
  power : ∃ k, b = 2 ^ k
  le : n ≤ b
  least : ∀ k, n ≤ 2 ^ k → b ≤ 2 ^ k

theorem doubleUpTo_eq {n k fuel : Nat} (hfuel : n ≤ 2 ^ (k + fuel)) (hk : ∀ j < k, 2 ^ j < n) :
    ∃ m, doubleUpTo n (2 ^ k) fuel = 2 ^ m ∧ n ≤ 2 ^ m ∧ ∀ j < m, 2 ^ j < n := by
  induction fuel generalizing k with
  | zero => exact ⟨k, rfl, hfuel, hk⟩
  | succ fuel ih =>
    rw [doubleUpTo]
    split
    case isTrue h => exact ⟨k, rfl, h, hk⟩
    case isFalse h =>
      rw [← Nat.pow_succ']
      refine ih (by rwa [Nat.succ_add_eq_add_succ]) fun j hj => ?_
      rcases Nat.lt_succ_iff_lt_or_eq.1 hj with hj | rfl
      · exact hk j hj
      · exact Nat.lt_of_not_le h

/-- The number of doublings that `roundUp` allows is enough. -/
theorem leastPower_roundUp (n : Nat) : LeastPower n (roundUp n) := by
  have hfuel : n ≤ 2 ^ (0 + n) := by
    rw [Nat.zero_add]
    exact Nat.le_of_lt Nat.lt_two_pow_self
  obtain ⟨m, hm, hle, hlt⟩ := doubleUpTo_eq hfuel (by simp)
  have hroundUp : roundUp n = 2 ^ m := hm
  rw [hroundUp]
  refine ⟨⟨m, rfl⟩, hle, fun k hk => Nat.le_of_not_lt fun hkm => ?_⟩
  exact absurd (hlt k ((Nat.pow_lt_pow_iff_right (by decide)).1 hkm)) (Nat.not_lt.2 hk)

/-- The number of events that an answer takes a receiver forward. -/
def Received.advance : Received → Nat
  | .event _ => 1
  | .lagged n => n
  | .empty | .closed => 0

namespace AnalyticsStream

variable {s : AnalyticsStream} {log : List AnalyticsEvent} {name : String} {p : Nat}

/-- A stream has handed out the events of a log, the oldest first. -/
structure Window (s : AnalyticsStream) (log : List AnalyticsEvent) : Prop where
  sent : s.sent = log.length
  kept : s.kept = log.reverse.take s.buffer

theorem state_send_refused {e : AnalyticsEvent} {cancelled : Bool}
    (h : cancelled = true ∨ s.receivers.size = 0) :
    (s.send cancelled e).state = { s with dropped := s.dropped + 1 } := by
  rcases h with rfl | h
  · rfl
  · cases cancelled with
    | false => rw [send, if_neg Bool.false_ne_true, if_pos h]
    | true => rfl

theorem state_send_accepted {e : AnalyticsEvent} (h : s.receivers.size ≠ 0) :
    (s.send false e).state =
      { s with
        kept := (e :: s.kept).take s.buffer
        sent := s.sent + 1
        length_kept := by
          rw [List.length_take, List.length_cons, s.length_kept]
          omega } := by
  rw [send, if_neg Bool.false_ne_true]
  simp only [if_neg h]

/-- An accepted event is appended to the log. -/
theorem window_send (hw : s.Window log) (h : s.receivers.size ≠ 0) (e : AnalyticsEvent) :
    (s.send false e).state.Window (log ++ [e]) := by
  have hkept : (e :: s.kept).take s.buffer = (log ++ [e]).reverse.take s.buffer := by
    rw [hw.kept, List.reverse_append, List.reverse_singleton, List.singleton_append]
    cases s.buffer with
    | zero => rfl
    | succ n => simp only [List.take_succ_cons, List.take_take, Nat.min_eq_left n.le_succ]
  rw [state_send_accepted h]
  exact ⟨by rw [List.length_append, ← hw.sent, List.length_singleton], hkept⟩

/-- What a stream answers when nothing is left. -/
def rest (s : AnalyticsStream) : Received := if s.alive then .empty else .closed

/-- What a receiver is answered that has not read these events. -/
def answer (s : AnalyticsStream) (unread : List AnalyticsEvent) : Received :=
  if s.buffer < unread.length then .lagged (unread.length - s.buffer)
  else match unread with
    | [] => s.rest
    | e :: _ => .event e

/-- The stream after a receiver has been answered at a position. -/
def afterReceive (s : AnalyticsStream) (name : String) (p : Nat) (r : Received) :
    AnalyticsStream :=
  { s with receivers := s.receivers.insert name (p + r.advance) }

/-- The event at a position of the log is in the window as long as the receiver has not lost it. -/
theorem kept_getElem (hw : s.Window log) {i : Nat} (hp : p < log.length)
    (hi : i = log.length - p - 1) (hkept : i < s.kept.length) : s.kept[i] = log[p] := by
  subst hi
  rw [List.getElem_of_eq hw.kept, List.getElem_take, List.getElem_reverse]
  congr 1
  omega

theorem receiveAt_eq (hw : s.Window log) (hp : p ≤ log.length) :
    s.receiveAt p = (p + (s.answer (log.drop p)).advance, s.answer (log.drop p)) := by
  have hlength : (log.drop p).length = s.sent - p := by rw [List.length_drop, hw.sent]
  have hsent := hw.sent
  simp only [receiveAt, answer, hlength]
  split
  case isTrue hlag =>
    rw [Received.advance]
    congr 1
    omega
  case isFalse hlag =>
    split
    case isTrue hnone =>
      rw [List.eq_nil_of_length_eq_zero (hlength.trans hnone)]
      simp only [rest]
      split <;> rfl
    case isFalse hsome =>
      have hlt : p < log.length := by omega
      rw [List.drop_eq_getElem_cons hlt]
      simp only [Received.advance, Prod.mk.injEq, Received.event.injEq, true_and]
      exact kept_getElem hw hlt (by omega) _

/-- A receive answers what the unread part of the log says. -/
theorem receive?_eq (hw : s.Window log) (hname : s.receivers.find? name = some p)
    (hp : p ≤ log.length) :
    s.receive? name =
      some (s.afterReceive name p (s.answer (log.drop p)), s.answer (log.drop p)) := by
  rw [receive?, hname, Option.map_some, receiveAt_eq hw hp, afterReceive]

@[simp] theorem buffer_afterReceive (r : Received) :
    (s.afterReceive name p r).buffer = s.buffer := rfl

theorem window_afterReceive (hw : s.Window log) (r : Received) :
    (s.afterReceive name p r).Window log := ⟨hw.sent, hw.kept⟩

theorem find?_afterReceive (s : AnalyticsStream) (name : String) (p : Nat) (r : Received) :
    (s.afterReceive name p r).receivers.find? name = some (p + r.advance) := by
  rw [afterReceive, Table.find?_insert, if_pos rfl]

/-- A receiver that has lost nothing gets every unread event, and is then told that nothing is
left. -/
theorem drainUpTo_unread {n : Nat} (hw : s.Window log)
    (hname : s.receivers.find? name = some p) (hp : p ≤ log.length)
    (hkept : (log.drop p).length ≤ s.buffer) (hn : (log.drop p).length < n) :
    (s.drainUpTo name n).2 = (log.drop p).map .event ++ [s.rest] := by
  induction n generalizing s p with
  | zero => omega
  | succ n ih =>
    have hanswer : s.answer (log.drop p) =
        match log.drop p with
        | [] => s.rest
        | e :: _ => .event e := if_neg (Nat.not_lt.2 hkept)
    rw [drainUpTo, receive?_eq hw hname hp, hanswer]
    by_cases hlt : p < log.length
    · rw [List.drop_eq_getElem_cons hlt, List.length_cons] at hkept hn
      rw [List.drop_eq_getElem_cons hlt]
      have hnext := ih (window_afterReceive hw (.event log[p]))
        (find?_afterReceive s name p (.event log[p])) hlt
        (Nat.le_of_succ_le hkept) (Nat.lt_of_succ_lt_succ hn)
      simp only [List.map_cons, List.cons_append, hnext]
      rfl
    · rw [List.drop_eq_nil_of_le (Nat.le_of_not_lt hlt)]
      simp only [List.map_nil, List.nil_append, rest]
      cases s.alive <;> rfl

/-- **A receiver that takes everything gets one report of what it has lost, if it has lost anything,
then each of the kept events that it has not read, then the word that nothing is left.** -/
theorem drain_eq (hw : s.Window log) (hname : s.receivers.find? name = some p)
    (hp : p ≤ log.length) :
    (s.drain name).2 =
      (if s.buffer < (log.drop p).length then [.lagged ((log.drop p).length - s.buffer)] else []) ++
        ((log.drop p).drop ((log.drop p).length - s.buffer)).map .event ++ [s.rest] := by
  have hlength : s.kept.length = min log.length s.buffer := by rw [s.length_kept, hw.sent]
  have hunread : (log.drop p).length = log.length - p := List.length_drop
  rw [drain]
  split
  case isTrue hlag =>
    have hanswer : s.answer (log.drop p) = .lagged ((log.drop p).length - s.buffer) := if_pos hlag
    -- one receive reports the loss; what is then unread fits into the buffer
    rw [drainUpTo, receive?_eq hw hname hp, hanswer, List.drop_drop]
    have hnext := drainUpTo_unread (n := s.kept.length + 1)
      (window_afterReceive hw (.lagged ((log.drop p).length - s.buffer)))
      (find?_afterReceive s name p (.lagged ((log.drop p).length - s.buffer)))
      (by rw [Received.advance]; omega)
      (by rw [Received.advance, List.length_drop, buffer_afterReceive]; omega)
      (by rw [Received.advance, List.length_drop]; omega)
    simp only [hnext, Received.advance, List.cons_append, List.nil_append]
    rfl
  case isFalse hlag =>
    have hfits := Nat.le_of_not_lt hlag
    rw [drainUpTo_unread hw hname hp hfits (by omega), Nat.sub_eq_zero_of_le hfits, List.drop_zero,
      List.nil_append]

end AnalyticsStream

end RoomWatch
