import RoomWatch.Proofs.Service.Run
import RoomWatch.Proofs.Service.Tally

/-!
# Overlapping calls as calls one after another

The registry step of a call is the one that can be noticed: overlapping calls come to the same as
the same calls one after another, in the order in which they have consulted the registry. Calls
that do not consult it may stand anywhere.

* `Service.serve`: calls one after another. `run_inTurn`: that is a run as well, in which no two
  calls overlap.
* `unpublished_of_finished`: what an unpublished track is attributed to and where its buffer is
  released, whatever happens at the same time.
* `linearized_of_run`: **overlapping calls are linearizable at their registry steps.**
-/

namespace RoomWatch

/-- Calls one after another. -/
def Service.serve (s : Service) (calls : List (Moment × Call)) : Service :=
  calls.foldl (fun s x => (s.call x.1 x.2).state) s

/-- A client that collects keeps every event that it is handed. -/
theorem foldl_take_collecting (before handed : List (Bool × AnalyticsEvent)) :
    handed.foldl AnalyticsClient.take (.collecting before) = .collecting (before ++ handed) := by
  induction handed generalizing before with
  | nil => exact congrArg AnalyticsClient.collecting (List.append_nil before).symm
  | cons x handed ih =>
    refine (ih _).trans ?_
    exact congrArg AnalyticsClient.collecting (List.append_assoc ..)

namespace Crowd

variable {s : Service} {a b : Crowd} {es : List CrowdEvent}

/-! ## One call after another -/

/-- Whole calls, one after another, the first of them with the given number. -/
def inTurn : Nat → List (Moment × Call) → List CrowdEvent
  | _, [] => []
  | n, (m, c) :: calls => whole n m c ++ inTurn (n + 1) calls

/-- Nothing happens aside. -/
theorem aside?_inTurn (n : Nat) (calls : List (Moment × Call)) :
    (inTurn n calls).filterMap CrowdEvent.aside? = [] := by
  induction calls generalizing n with
  | nil => rfl
  | cons x calls ih =>
    rw [inTurn, List.filterMap_append, ih, List.append_nil, whole, List.filterMap_cons_none rfl,
      List.filterMap_replicate_of_none rfl]

theorem consultations_atoms (m : Moment) (c : Call) :
    (c.atoms m.clock).filterMap (Account.consultation? ⟨m, c, {}⟩) =
      if c.consults then [(m, c)] else [] := by
  cases c <;> rfl

/-- A whole call is the call. -/
theorem run_whole (a : Crowd) (m : Moment) (c : Call) :
    ∃ b seen, a.run? (whole a.activities.length m c) = some b ∧
      b.service = (a.service.call m c).state ∧
      b.activities = a.activities ++ [⟨⟨m, c, seen⟩, []⟩] ∧
      b.consulted = a.consulted ++ if c.consults then [(m, c)] else [] := by
  have hx : (a.enter m c).activities[a.activities.length]? =
      some ⟨⟨m, c, {}⟩, c.atoms m.clock⟩ := by
    simp [enter]
  obtain ⟨b, hb, hservice, hactivities, hconsulted⟩ := run_alone hx
  refine ⟨b, (a.service.runAtoms ⟨m, c, {}⟩ (c.atoms m.clock)).2, hb, ?_, ?_, ?_⟩
  · rw [hservice]
    exact (a.service.runAtoms_call m c).1
  · rw [hactivities, enter, List.set_append_right _ _ (Nat.le_refl _), Nat.sub_self]
    rfl
  · rw [hconsulted, ← consultations_atoms]
    rfl

/-- **Calls one after another are a run**, in which no two calls overlap. -/
theorem run_inTurn (a : Crowd) (hf : a.Finished) (calls : List (Moment × Call)) :
    ∃ b, a.run? (inTurn a.activities.length calls) = some b ∧ b.Finished ∧
      b.service = a.service.serve calls ∧ b.begun = a.begun ++ calls ∧
      b.consulted = a.consulted ++ calls.filter fun x => x.2.consults := by
  induction calls generalizing a with
  | nil => exact ⟨a, rfl, hf, rfl, (List.append_nil _).symm, (List.append_nil _).symm⟩
  | cons x calls ih =>
    obtain ⟨m, c⟩ := x
    obtain ⟨a₁, seen, h₁, hservice, hactivities, hconsulted⟩ := a.run_whole m c
    have hf₁ : a₁.Finished := by
      intro y hy
      rw [hactivities] at hy
      rcases List.mem_append.1 hy with hy | hy
      · exact hf y hy
      · rw [List.mem_singleton.1 hy]
    have hlength : a₁.activities.length = a.activities.length + 1 := by
      rw [hactivities, List.length_append, List.length_singleton]
    obtain ⟨b, hb, hfb, hserve, hbegun, hlater⟩ := ih a₁ hf₁
    refine ⟨b, ?_, hfb, ?_, ?_, ?_⟩
    · rw [inTurn, run?_append, h₁, Option.bind_some, ← hlength]
      exact hb
    · rw [hserve, hservice]
      rfl
    · rw [hbegun, begun, hactivities, List.map_append, List.append_assoc]
      rfl
    · rw [hlater, hconsulted, List.append_assoc, List.filter_cons]
      cases c.consults <;> rfl

/-! ## A track that is unpublished while its participant comes and goes -/

/-- **At most one worker has to do with a track that is unpublished**: the one that is registered
when the call consults the registry. If there is none, the event says so and nothing is released;
or else the event names that worker's room, and only that worker's buffer is released. -/
def Unpublished (s : Service) (a : Crowd) (x : Account) (id : String) (track : Track)
    (ssrc : Ssrc) : Prop :=
  ∃ earlier later room, a.consulted = earlier ++ (x.moment, x.call) :: later ∧
    (x.moment.cancelled,
      { kind := .trackUnpublished, timestamp := max 0 x.moment.clock, roomSid := room.roomId,
        participantId := id, trackId := track.sid, room := some { name := room.roomName } }) ∈
      a.handed ∧
    (((consultAll s.registry earlier).find? id = none ∧ room = {} ∧
        consultAll s.registry (earlier ++ [(x.moment, x.call)]) = consultAll s.registry earlier) ∨
      ∃ w, (consultAll s.registry earlier).find? id = some w ∧ room = w.context ∧
        ∀ other, (consultAll s.registry (earlier ++ [(x.moment, x.call)])).find? other =
          if other = id then some (w.removeBuffer ssrc).state
          else (consultAll s.registry earlier).find? other)

theorem unpublished_of_finished (h : Tallied s a) (hf : a.Finished) {x : Account}
    (hx : x ∈ a.accounts) {id : String} {track : Track} {ssrc : Ssrc}
    (hc : x.call = .trackUnpublished id track ssrc) : Unpublished s a x id track ssrc := by
  have htold : x ∈ learn s.registry a.consulted := by
    have hconsults : x.told? = some x := by
      rw [Account.told?, hc]
      rfl
    rw [h.told.mem_iff, filterMap_done? hf]
    exact List.mem_filterMap.2 ⟨x, hx, hconsults⟩
  obtain ⟨earlier, later, hconsulted, hseen⟩ := mem_learn htold
  have hlast : consultAll s.registry (earlier ++ [(x.moment, x.call)]) =
      ((consultAll s.registry earlier).releaseTrack id ssrc).state := by
    rw [consultAll, List.foldl_append, hc]
    rfl
  have hroom : x.seen.room = (consultAll s.registry earlier).get id := by
    rw [hseen, hc]
    exact Registry.result_releaseTrack ..
  refine ⟨earlier, later, x.seen.room, hconsulted, ?_, ?_⟩
  · rw [(handed_perm h hf).mem_iff]
    refine List.mem_filterMap.2 ⟨x, hx, ?_⟩
    unfold Account.handing? Account.event?
    rw [hc, unixTime_eq_max]
    rfl
  · rw [hlast, hroom]
    cases hw : (consultAll s.registry earlier).find? id with
    | none =>
      refine .inl ⟨rfl, ?_, ?_⟩
      · unfold Registry.get
        rw [hw]
        rfl
      · unfold Registry.releaseTrack
        rw [hw]
    | some w =>
      refine .inr ⟨w, rfl, ?_, ?_⟩
      · unfold Registry.get
        rw [hw]
        rfl
      · intro other
        rw [Registry.find?_releaseTrack, hw]
        rfl

/-! ## Linearizability -/

/-- **What overlapping calls come to**, against the same calls one after another in the given
order. -/
structure Linearized (s : Service) (before : List (Bool × AnalyticsEvent))
    (order : List (Moment × Call)) (es : List CrowdEvent) (a : Crowd) : Prop where
  /-- Counters, registry, events and webhook events are those of the calls one after another. -/
  serial : ∃ b, (start s).run? (inTurn 0 order) = some b ∧ b.service = s.serve order ∧
    Agree a b ∧ b.Supplied s.pool []
  /-- The webhook events have been submitted, each of them once. -/
  supplied : a.Supplied s.pool (es.filterMap CrowdEvent.aside?)
  /-- The client has collected the same events. -/
  events : ∃ xs ys, a.service.analytics = .collecting (before ++ xs) ∧
    (s.serve order).analytics = .collecting (before ++ ys) ∧ xs.Perm ys
  unpublished : ∀ x ∈ a.accounts, ∀ id track ssrc, x.call = .trackUnpublished id track ssrc →
    Unpublished s a x id track ssrc

/-- **Linearizability.** The order is any order of the calls in which those that consult the
registry stand as they have done so. The ids of webhook events may be others than in the run. -/
theorem linearized_of_run {s : Service} {before : List (Bool × AnalyticsEvent)}
    (hclient : s.analytics = .collecting before) {es : List CrowdEvent} {a : Crowd}
    (hr : (start s).run? es = some a) (hf : a.Finished) {order : List (Moment × Call)}
    (hcalls : (a.begun.map anonymousCall).Perm (order.map anonymousCall))
    (horder : a.consulted.map anonymousCall =
      (order.filter fun x => x.2.consults).map anonymousCall) :
    Linearized s before order es a := by
  have ha := tallied_run hr
  obtain ⟨b, hb, hfb, hserve, hbegun, hconsulted⟩ := (start s).run_inTurn (fun _ => nofun) order
  have htb := tallied_run hb
  have hagree : Agree a b := by
    refine agree_of_finished ha htb hf hfb ?_ ?_
    · rw [hbegun]
      exact hcalls
    · rw [hconsulted]
      exact horder
  have hevents : ∀ {c : Crowd}, Kept s c →
      c.service.analytics = .collecting (before ++ c.handed) := by
    intro c hc
    rw [hc.analytics, hclient, foldl_take_collecting]
  have hsupplied := supplied_run hb
  rw [aside?_inTurn] at hsupplied
  refine ⟨⟨b, hb, hserve, hagree, hsupplied⟩, supplied_run hr, ?_, ?_⟩
  · exact ⟨a.handed, b.handed, hevents ha.2, hserve ▸ hevents htb.2, hagree.handed⟩
  · exact fun x hx id track ssrc hc => unpublished_of_finished ha.1 hf hx hc

/-- A participant has joined and opened a buffer. Its track is unpublished while it leaves and joins
another room, and the registry is consulted by the leave, the new join and the unpublished track, in
this order. -/
def rejoin : List (Moment × Call) :=
  let m : Moment := { clock := 5, freshId := "" }
  [(m, .participantJoined { sid := "a" } { sid := "p" } none),
    (m, .trackBufferOpened "p" 7 { sid := "t" }),
    (m, .participantLeft { sid := "a" } { sid := "p" }),
    (m, .participantJoined { sid := "b" } { sid := "p" } none),
    (m, .trackUnpublished "p" { sid := "t" } 7)]

/-- The unpublished track is the first of the three calls to begin and the first to finish. -/
def racing : List CrowdEvent :=
  let m : Moment := { clock := 5, freshId := "" }
  inTurn 0 (rejoin.take 2) ++
    [.begin m (.trackUnpublished "p" { sid := "t" } 7),
      .begin m (.participantLeft { sid := "a" } { sid := "p" }),
      .begin m (.participantJoined { sid := "b" } { sid := "p" } none),
      .act 2, .act 3, .act 4, .act 2, .act 2, .aside (.move .take), .act 3, .act 4] ++
    List.replicate 4 (.act 4) ++ List.replicate 3 (.act 3)

theorem linearized_of_racing :
    ∃ a, (start (.start (.collecting []) true ⟨1, 9⟩)).run? racing = some a ∧ a.Finished ∧
      (a.begun.map anonymousCall).Perm (rejoin.map anonymousCall) ∧
      a.consulted.map anonymousCall =
        (rejoin.filter fun x => x.2.consults).map anonymousCall ∧
      Linearized (.start (.collecting []) true ⟨1, 9⟩) [] rejoin racing a ∧
      a.handed.map (fun x => (x.2.kind, x.2.roomSid)) = [(.participantJoined, "a"),
        (.trackUnpublished, "b"), (.participantJoined, "b"), (.participantLeft, "a")] := by
  have hrun : ((start (.start (.collecting []) true ⟨1, 9⟩)).run? racing).map
      (fun a => (a.activities.map Activity.left, a.begun, a.consulted,
        a.handed.map (fun x => (x.2.kind, x.2.roomSid)))) =
      some ([[], [], [], [], []],
        rejoin.take 2 ++ (rejoin.drop 4 ++ (rejoin.drop 2).take 2), rejoin,
        [(.participantJoined, "a"), (.trackUnpublished, "b"), (.participantJoined, "b"),
          (.participantLeft, "a")]) := rfl
  obtain ⟨a, ha, hviews⟩ := Option.map_eq_some_iff.1 hrun
  simp only [Prod.mk.injEq] at hviews
  obtain ⟨hleft, hbegun, hconsulted, hkinds⟩ := hviews
  have hf : a.Finished := by
    intro x hx
    have hmem := List.mem_map_of_mem (f := Activity.left) hx
    rw [hleft] at hmem
    simpa using hmem
  have hcalls : (a.begun.map anonymousCall).Perm (rejoin.map anonymousCall) := by
    rw [hbegun]
    exact (List.perm_append_comm.append_left (rejoin.take 2)).map _
  have horder : a.consulted.map anonymousCall =
      (rejoin.filter fun x => x.2.consults).map anonymousCall := by
    rw [hconsulted]
    rfl
  exact ⟨a, ha, hf, hcalls, horder, linearized_of_run rfl ha hf hcalls horder, hkinds⟩

end Crowd

end RoomWatch
