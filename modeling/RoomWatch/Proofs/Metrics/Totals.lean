import Mathlib.Data.Int.ModEq
import Mathlib.Data.List.Induction
import RoomWatch.Proofs.Metrics.Increments

/-!
# What the counters say about a run

A run of the counters is a list of calls, each with the clock at that time. Every counter is a
function of how often something occurs in that list: gauges are differences, totals are numbers of
calls or a sum of lifetimes, and all of them are taken modulo 64 bits (`Metrics.tally`).

* `toNat_lifetime`: a lifetime fits its counter, whatever the clock and the time of creation are.
* `count_tally`: one more call changes the counters of what it counts, and no other.
* `after_eq_tally`: after a run the counters are what its calls amount to.
* `after_perm`: calls in another order leave the same counters.
* `orderFree_of_calls`: **the counters are a function of the calls, whatever their order.**
-/

namespace RoomWatch

/-- Whether a room has ended. -/
def Count.isEnding : Count → Bool
  | .roomEnded _ => true
  | _ => false

/-- Seconds between two times, between zero and the largest number that a clock can show. A clock
before 1970 counts as zero. -/
def elapsed (clock createdAt : Int64) : Int :=
  max 0 (min (max 0 clock.toInt - createdAt.toInt) Int64.maxValue.toInt)

/-- What a gauge shows after so many steps up and down. -/
def gauge (ups downs : Nat) : Int64 := .ofInt (ups - downs)

/-- A gauge for each kind of media, by a function. -/
def TrackGauge.ofMedia (f : Media → Int64) : TrackGauge := ⟨f .audio, f .video, f .data⟩

namespace Metrics

/-- The counters after calls, each with the clock at that time. -/
def after (calls : List (Int64 × Count)) : Metrics :=
  calls.foldl (fun m call => m.count call.1 call.2) {}

/-- How often something has been counted. -/
def times (k : Count) (calls : List (Int64 × Count)) : Nat :=
  calls.countP fun call => call.2 = k

/-- How many rooms have ended. -/
def endings (calls : List (Int64 × Count)) : Nat := calls.countP fun call => call.2.isEnding

/-- How long the room has lasted that a call says has ended. -/
def lifetime? : Int64 × Count → Option Nat
  | (clock, .roomEnded createdAt) => some (elapsed clock createdAt).toNat
  | _ => none

/-- **What calls amount to**: gauges are differences, totals are numbers of calls or a sum of
lifetimes, modulo 64 bits. -/
def tally (calls : List (Int64 × Count)) : Metrics where
  rooms := gauge (times .roomStarted calls) (endings calls)
  roomsStartedTotal := .ofNat (times .roomStarted calls)
  roomsEndedTotal := .ofNat (endings calls)
  roomDurationSecondsTotal := .ofNat (calls.filterMap lifetime?).sum
  participants := gauge (times .addParticipant calls) (times .subParticipant calls)
  participantsJoinedTotal := .ofNat (times .addParticipant calls)
  publishedTracks := .ofMedia fun media =>
    gauge (times (.addPublishedTrack media) calls) (times (.subPublishedTrack media) calls)
  subscribedTracks := .ofMedia fun media =>
    gauge (times (.addSubscribedTrack media) calls) (times (.subSubscribedTrack media) calls)

/-! ## Lifetimes -/

theorem toInt_unixTime (clock : Int64) : (unixTime clock).toInt = max 0 clock.toInt := by
  unfold unixTime
  split
  · next h =>
    have hneg := Int64.lt_iff_toInt_lt.1 h
    rw [Int64.toInt_zero] at hneg ⊢
    omega
  · next h =>
    have hpos := mt Int64.lt_iff_toInt_lt.2 h
    rw [Int64.toInt_zero] at hpos
    omega

theorem lifetime_eq (clock createdAt : Int64) :
    lifetime clock createdAt = .ofNat (elapsed clock createdAt).toNat := by
  have hsame : (min (max 0 clock.toInt - createdAt.toInt) Int64.maxValue.toInt).toNat =
      (elapsed clock createdAt).toNat := by
    unfold elapsed
    omega
  rw [lifetime, toInt_unixTime, hsame]

/-- **A lifetime fits its counter.** -/
theorem toNat_lifetime (clock createdAt : Int64) :
    ((lifetime clock createdAt).toNat : Int) = elapsed clock createdAt := by
  have hlow : 0 ≤ elapsed clock createdAt := by unfold elapsed; omega
  have hhigh : elapsed clock createdAt ≤ Int64.maxValue.toInt := by
    have hmax : 0 ≤ Int64.maxValue.toInt := by decide
    unfold elapsed
    omega
  have hsize : Int64.maxValue.toInt < UInt64.size := by decide
  have hlt : (elapsed clock createdAt).toNat < UInt64.size := by omega
  rw [lifetime_eq, UInt64.toNat_ofNat_of_lt' hlt]
  omega

/-! ## One more call -/

theorem gauge_up (ups downs : Nat) (p : Prop) [Decidable p] :
    gauge (ups + if p then 1 else 0) downs = gauge ups downs + if p then 1 else 0 := by
  split
  · have hnext : ((ups + 1 : Nat) - downs : Int) = (ups - downs) + 1 := by omega
    rw [gauge, hnext, Int64.ofInt_add]
    rfl
  · rw [Nat.add_zero, Int64.add_zero]

theorem gauge_down (ups downs : Nat) (p : Prop) [Decidable p] :
    gauge ups (downs + if p then 1 else 0) = gauge ups downs + if p then -1 else 0 := by
  split
  · have hnext : (ups - (downs + 1 : Nat) : Int) = (ups - downs) + -1 := by omega
    rw [gauge, hnext, Int64.ofInt_add]
    rfl
  · rw [Nat.add_zero, Int64.add_zero]

theorem add_ofMedia (f : Media → Int64) (media : Media) (n : Int64) :
    (TrackGauge.ofMedia f).add media n = .ofMedia fun m => f m + if media = m then n else 0 := by
  cases media <;> simp [TrackGauge.ofMedia, TrackGauge.add]

theorem times_append (k k' : Count) (clock : Int64) (calls : List (Int64 × Count)) :
    times k (calls ++ [(clock, k')]) = times k calls + if k' = k then 1 else 0 := by
  simp [times, List.countP_append, List.countP_cons]

theorem endings_append (k : Count) (clock : Int64) (calls : List (Int64 × Count)) :
    endings (calls ++ [(clock, k)]) = endings calls + if k.isEnding then 1 else 0 := by
  simp [endings, List.countP_append, List.countP_cons]

theorem sum_append (k : Count) (clock : Int64) (calls : List (Int64 × Count)) :
    ((calls ++ [(clock, k)]).filterMap lifetime?).sum =
      (calls.filterMap lifetime?).sum + (lifetime? (clock, k)).getD 0 := by
  rw [List.filterMap_append, List.sum_append, List.filterMap_cons]
  cases lifetime? (clock, k) <;> simp

/-- **One more call** changes the counters of what it counts, and no other. -/
theorem count_tally (calls : List (Int64 × Count)) (clock : Int64) (k : Count) :
    (tally calls).count clock k = tally (calls ++ [(clock, k)]) := by
  unfold tally
  simp only [times_append, endings_append, sum_append, gauge_up, gauge_down]
  cases k <;>
    simp [count, lifetime?, Count.isEnding, add_ofMedia, lifetime_eq, Int64.sub_eq_add_neg]

/-! ## Runs -/

/-- **After a run the counters are what its calls amount to.** -/
theorem after_eq_tally (calls : List (Int64 × Count)) : after calls = tally calls := by
  induction calls using List.reverseRecOn with
  | nil => rfl
  | append_singleton calls call ih =>
    rw [← count_tally, ← ih, after, List.foldl_append]
    rfl

/-- **Calls in another order leave the same counters**, each with the clock at its time. -/
theorem after_perm {calls calls' : List (Int64 × Count)} (h : calls.Perm calls') :
    after calls = after calls' := by
  have hflat (calls : List (Int64 × Count)) (m : Metrics) :
      calls.foldl (fun m call => m.count call.1 call.2) m =
        (calls.flatMap fun call => call.2.increments call.1).foldl plus m := by
    rw [List.foldl_flatMap]
    exact congrArg (fun f => calls.foldl f m) (funext₂ fun m call => count_eq m call.1 call.2)
  rw [after, after, hflat, hflat]
  exact foldl_plus_perm (h.flatMap_right _) {}

/-- Rooms that are open are those that have started less those that have ended, however often the
counters have wrapped around. -/
theorem rooms_modEq (calls : List (Int64 × Count)) :
    (after calls).rooms.toInt ≡
      (after calls).roomsStartedTotal.toNat - (after calls).roomsEndedTotal.toNat
        [ZMOD UInt64.size] := by
  have hsize : (UInt64.size : Int) = 2 ^ 64 := by decide
  have htotal (n : Nat) : ((UInt64.ofNat n).toNat : Int) ≡ n [ZMOD UInt64.size] := by
    rw [UInt64.toNat_ofNat', hsize]
    exact Int.mod_modEq n (2 ^ 64)
  have hrooms : (tally calls).rooms.toInt ≡
      times .roomStarted calls - endings calls [ZMOD UInt64.size] := by
    rw [tally, gauge, Int64.toInt_ofInt, hsize]
    exact Int.bmod_emod
  rw [after_eq_tally]
  exact hrooms.trans ((htotal _).sub (htotal _)).symm

/-- **Counters that are a function of the calls, whatever their order.** -/
structure OrderFree (calls : List (Int64 × Count)) : Prop where
  /-- The counters, one by one. -/
  tallied : after calls = tally calls
  /-- The calls may come in any other order, each with the clock at its time. -/
  unordered : ∀ calls', calls.Perm calls' → after calls' = after calls
  /-- Rooms that are open are those that have started less those that have ended. -/
  balanced : (after calls).rooms.toInt ≡
    (after calls).roomsStartedTotal.toNat - (after calls).roomsEndedTotal.toNat [ZMOD UInt64.size]
  /-- No lifetime is cut off by the counter that takes it. -/
  lossless : ∀ clock createdAt, (clock, .roomEnded createdAt) ∈ calls →
    ((lifetime clock createdAt).toNat : Int) = elapsed clock createdAt

/-- **The counters are a function of the calls, whatever their order.** Every counter wraps around
at 64 bits, so that there is no call that it cannot take. -/
theorem orderFree_of_calls (calls : List (Int64 × Count)) : OrderFree calls :=
  ⟨after_eq_tally calls, fun _ h => (after_perm h).symm, rooms_modEq calls,
    fun clock createdAt _ => toNat_lifetime clock createdAt⟩

/-- A room from the beginning of time ends before 1970. It has lasted as long as a clock can
show. -/
example : after [(-5, .roomEnded Int64.minValue)] =
    { rooms := -1, roomsEndedTotal := 1, roomDurationSecondsTotal := Int64.maxValue.toUInt64 } := by
  decide

end Metrics

end RoomWatch
