import Mathlib.Data.List.Perm.Basic
import RoomWatch.Metrics

/-!
# Counting as adding

Whatever is counted is counted by adding to one counter after another. Counters wrap around, so
adding to them is commutative without exception.

* `count_eq`: what one thing adds, counter by counter (`Count.increments`).
* `foldl_plus_perm`: **the order in which is added does not matter.**
-/

namespace RoomWatch

namespace TrackGauge

def plus (g h : TrackGauge) : TrackGauge := ⟨g.audio + h.audio, g.video + h.video, g.data + h.data⟩

theorem plus_assoc (g h k : TrackGauge) : (g.plus h).plus k = g.plus (h.plus k) := by
  simp only [plus, Int64.add_assoc]

theorem plus_comm (g h : TrackGauge) : g.plus h = h.plus g := by
  simp only [plus, Int64.add_comm]

theorem plus_zero (g : TrackGauge) : g.plus {} = g := by
  simp only [plus, Int64.add_zero]

theorem add_eq_plus (g : TrackGauge) (media : Media) (n : Int64) :
    g.add media n = g.plus (add {} media n) := by
  cases media <;> simp only [add, plus, Int64.add_zero, Int64.zero_add]

end TrackGauge

namespace Metrics

/-- Adds counter by counter. -/
def plus (m d : Metrics) : Metrics where
  rooms := m.rooms + d.rooms
  roomsStartedTotal := m.roomsStartedTotal + d.roomsStartedTotal
  roomsEndedTotal := m.roomsEndedTotal + d.roomsEndedTotal
  roomDurationSecondsTotal := m.roomDurationSecondsTotal + d.roomDurationSecondsTotal
  participants := m.participants + d.participants
  participantsJoinedTotal := m.participantsJoinedTotal + d.participantsJoinedTotal
  publishedTracks := m.publishedTracks.plus d.publishedTracks
  subscribedTracks := m.subscribedTracks.plus d.subscribedTracks

theorem plus_assoc (m d e : Metrics) : (m.plus d).plus e = m.plus (d.plus e) := by
  simp only [plus, Int64.add_assoc, UInt64.add_assoc, TrackGauge.plus_assoc]

theorem plus_comm (m d : Metrics) : m.plus d = d.plus m := by
  simp only [plus, Int64.add_comm, UInt64.add_comm, TrackGauge.plus_comm]

theorem plus_right_comm (m d e : Metrics) : (m.plus d).plus e = (m.plus e).plus d := by
  rw [plus_assoc, plus_comm d, plus_assoc]

instance : RightCommutative plus := ⟨plus_right_comm⟩

/-- **The order of increments does not matter.** -/
theorem foldl_plus_perm {ds es : List Metrics} (h : ds.Perm es) (m : Metrics) :
    ds.foldl plus m = es.foldl plus m :=
  h.foldl_eq m

end Metrics

/-- What is added to the counters, one counter at a time. -/
def Count.increments (clock : Int64) : Count → List Metrics
  | .roomStarted => [{ rooms := 1 }, { roomsStartedTotal := 1 }]
  | .roomEnded createdAt =>
    [{ rooms := -1 }, { roomsEndedTotal := 1 },
      { roomDurationSecondsTotal := lifetime clock createdAt }]
  | .addParticipant => [{ participants := 1 }, { participantsJoinedTotal := 1 }]
  | .subParticipant => [{ participants := -1 }]
  | .addPublishedTrack media => [{ publishedTracks := .add {} media 1 }]
  | .subPublishedTrack media => [{ publishedTracks := .add {} media (-1) }]
  | .addSubscribedTrack media => [{ subscribedTracks := .add {} media 1 }]
  | .subSubscribedTrack media => [{ subscribedTracks := .add {} media (-1) }]

/-- **To count is to add.** -/
theorem Metrics.count_eq (m : Metrics) (clock : Int64) (k : Count) :
    m.count clock k = (k.increments clock).foldl plus m := by
  cases k <;>
    simp only [count, Count.increments, List.foldl_cons, List.foldl_nil, plus, Int64.add_zero,
      UInt64.add_zero, TrackGauge.plus_zero, Int64.sub_eq_add_neg, ← TrackGauge.add_eq_plus]

end RoomWatch
