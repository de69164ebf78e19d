import Mathlib.Algebra.Ring.Nat
import Mathlib.Data.List.Chain
import RoomWatch.Proofs.Service.Attribution
import RoomWatch.Proofs.Service.Front

/-!
# The gauge of participants and the registry

The gauge of participants goes up with every join and down with every leave. The registry has at
most one worker for a participant, so a join that replaces a worker does not make it larger, and a
leave that finds no worker does not make it smaller. Each of these moves gauge and registry apart
for good.

* `Registry.size_consult`: what a call does to the number of workers.
* `drift_run`: **in every run gauge and registry drift apart by the joins that replace a worker,
  less the leaves that find none.**
* `unmet_of_turns`: where joins and leaves of every participant take turns, there is no such call.
* `drifted_of_run`: both together, for every beginning of a run.
-/

namespace RoomWatch

namespace Call

/-- Whether a call reports that a participant has come. -/
def joins : Call → Bool
  | .participantJoined .. => true
  | _ => false

/-- Whether a call reports that a participant has gone. -/
def leaves : Call → Bool
  | .participantLeft .. => true
  | _ => false

end Call

namespace Registry

/-- A join in place of a worker that is still open. -/
def replaces (r : Registry) : Call → Bool
  | .participantJoined _ participant _ => (r.find? participant.sid).any fun w => !w.closed
  | _ => false

/-- A leave for which there is no worker. -/
def misses (r : Registry) : Call → Bool
  | .participantLeft _ participant => !r.contains participant.sid
  | _ => false

end Registry

/-- Whether a participant comes or goes with a call. -/
def Call.passage? (id : String) (c : Call) : Option Bool := (c.attendance? id).map Option.isSome

/-- **Joins and leaves of every participant take turns.** The first of them is a join for those who
are away before, and a leave for those who are there. -/
def TakeTurns (there : String → Bool) (calls : List (Moment × Call)) : Prop :=
  ∀ id, (there id :: calls.filterMap fun x => x.2.passage? id).IsChain (· ≠ ·)

/-! ## One call -/

namespace Registry

variable {r : Registry}

theorem any_open (h : r.IsOpen) (id : String) :
    ((r.find? id).any fun w => !w.closed) = r.contains id := by
  unfold contains
  cases hw : r.find? id with
  | none => rfl
  | some w =>
    have hopen := h id w hw
    simp [hopen]

theorem size_put (r : Registry) (id : String) (w : Worker) :
    (r.put id w).state.size + (r.contains id).toNat = r.size + 1 := by
  unfold put
  split <;> exact r.size_insert id w

theorem size_removeAndClose (r : Registry) (id : String) :
    (r.removeAndClose id).state.size + (r.contains id).toNat = r.size := by
  unfold removeAndClose contains
  cases hw : r.find? id with
  | none => rfl
  | some w =>
    have herase := r.size_erase id
    rwa [hw] at herase

/-- A worker that is only changed is still the one worker of its participant. -/
theorem size_insert_of_contains {id : String} (h : (r.find? id).isSome) (w : Worker) :
    (r.insert id w).size = r.size := by
  have hinsert := r.size_insert id w
  rw [h, Bool.toNat_true] at hinsert
  omega

theorem size_openTrack (r : Registry) (id : String) (ssrc : Ssrc) (trackSid : String) :
    Table.size (r.openTrack id ssrc trackSid).1 = r.size := by
  unfold openTrack
  split
  · rfl
  · next w hw => exact size_insert_of_contains (by rw [hw]; rfl) _

theorem size_releaseTrack (r : Registry) (id : String) (ssrc : Ssrc) :
    (r.releaseTrack id ssrc).state.size = r.size := by
  unfold releaseTrack
  split
  · rfl
  · next w hw => exact size_insert_of_contains (by rw [hw]; rfl) _

/-- **What a call does to the number of workers.** -/
theorem size_consult (h : r.IsOpen) (c : Call) :
    (c.consult r).state.size + (r.replaces c).toNat + c.leaves.toNat =
      r.size + (r.misses c).toNat + c.joins.toNat := by
  cases c with
  | participantJoined room participant client =>
    have hput := r.size_put participant.sid (.new room.sid room.name participant.sid)
    simp only [Call.consult, replaces, misses, Call.joins, Call.leaves, any_open h,
      Bool.toNat_true, Bool.toNat_false]
    omega
  | participantLeft room participant =>
    have hremove := r.size_removeAndClose participant.sid
    simp only [Call.consult, replaces, misses, Call.joins, Call.leaves, Bool.toNat_true,
      Bool.toNat_false]
    cases hcontains : r.contains participant.sid with
    | true =>
      rw [hcontains, Bool.toNat_true] at hremove
      simp only [Bool.not_true, Bool.toNat_false]
      omega
    | false =>
      rw [hcontains, Bool.toNat_false] at hremove
      simp only [Bool.not_false, Bool.toNat_true]
      omega
  | trackUnpublished id track ssrc => exact r.size_releaseTrack id ssrc
  | trackBufferOpened id ssrc track => exact r.size_openTrack id ssrc track.sid
  | _ => rfl

/-- A call leaves the registered workers open. -/
theorem open_consult (h : r.IsOpen) (c : Call) : IsOpen (c.consult r).state := by
  rw [Call.state_consult]
  cases hop : c.op? with
  | none => exact h
  | some op =>
    refine open_step h fun id w hput => ?_
    -- the only worker that a call puts is a new one
    subst hput
    cases c <;> cases hop
    rfl

/-- Who is registered after a call. -/
theorem contains_consult (r : Registry) (c : Call) (id : String) :
    contains (c.consult r).state id = (c.passage? id).getD (r.contains id) := by
  rw [contains_eq, room?_consult, contains_eq]
  unfold Call.passage?
  cases c.attendance? id <;> rfl

/-- A call by which a participant comes who was away, or goes who was there, meets nothing odd. -/
theorem unmet_of_passage {c : Call} (h : ∀ id, ∀ b ∈ c.passage? id, r.contains id ≠ b) :
    r.replaces c = false ∧ r.misses c = false := by
  cases c with
  | participantJoined room participant client =>
    have hpassage : (Call.participantJoined room participant client).passage? participant.sid =
        some true := by
      simp [Call.passage?, Call.attendance?]
    have haway := h participant.sid true hpassage
    have hnone : r.find? participant.sid = none := by simpa [contains] using haway
    refine ⟨?_, rfl⟩
    simp only [replaces, hnone, Option.any_none]
  | participantLeft room participant =>
    have hpassage : (Call.participantLeft room participant).passage? participant.sid =
        some false := by
      simp [Call.passage?, Call.attendance?]
    have hthere : r.contains participant.sid = true := by
      simpa using h participant.sid false hpassage
    refine ⟨rfl, ?_⟩
    simp only [misses, hthere, Bool.not_true]
  | _ => exact ⟨rfl, rfl⟩

/-- Where joins and leaves take turns, the first of them finds its participant away or there as it
should, and the further ones take turns after it. -/
theorem takeTurns_cons {m : Moment} {c : Call} {calls : List (Moment × Call)}
    (h : TakeTurns r.contains ((m, c) :: calls)) :
    (∀ id, ∀ b ∈ c.passage? id, r.contains id ≠ b) ∧
      TakeTurns (contains (c.consult r).state) calls := by
  have hsplit : ∀ id, (r.contains id :: ((c.passage? id).toList ++
      calls.filterMap fun x => x.2.passage? id)).IsChain (· ≠ ·) := by
    intro id
    have hchain := h id
    rwa [filterMap_cons_toList] at hchain
  refine ⟨fun id b hb => ?_, fun id => ?_⟩
  · have hchain := hsplit id
    rw [Option.mem_def.1 hb] at hchain
    exact (List.isChain_cons_cons.1 hchain).1
  · have hchain := hsplit id
    rw [contains_consult]
    cases hb : c.passage? id with
    | none => rwa [hb] at hchain
    | some b =>
      rw [hb] at hchain
      exact (List.isChain_cons_cons.1 hchain).2

end Registry

/-- What a call does to the gauge of participants. -/
theorem Metrics.participants_count (m : Metrics) (clock : Int64) (c : Call) :
    (c.count?.elim m (m.count clock)).participants =
      m.participants + Int64.ofInt (c.joins.toNat - c.leaves.toNat) := by
  cases c with
  | participantLeft room participant => exact Int64.sub_eq_add_neg _ _
  | participantJoined room participant client => rfl
  | _ => exact (Int64.add_zero _).symm

/-! ## One call after another -/

namespace ServiceRun

variable {a b : ServiceRun} {e : ServiceEvent} {es : List ServiceEvent}

theorem run?_append (a : ServiceRun) (es fs : List ServiceEvent) :
    a.run? (es ++ fs) = (a.run? es).bind fun b => b.run? fs := List.foldlM_append

/-- How many have come, less how many have gone. -/
def headcount (a : ServiceRun) : Int :=
  a.calls.countP (fun x => x.2.joins) - a.calls.countP (fun x => x.2.leaves)

/-- By how much the headcount exceeds the number of registered workers. -/
def drift (a : ServiceRun) : Int := a.headcount - a.service.registry.size

/-- How many of the calls of a run find the registry in such a state. -/
def met (p : Registry → Call → Bool) (a : ServiceRun) : List ServiceEvent → Nat
  | [] => 0
  | e :: es =>
    (e.call?.any fun x => p a.service.registry x.2).toNat +
      (a.step? e).elim 0 fun b => b.met p es

/-- The gauge counts heads, as far as 64 bits go, in a service that has not been shut down. -/
structure Counting (a : ServiceRun) : Prop where
  accepting : a.service.pool.phase = .accepting
  workers : a.service.registry.IsOpen
  gauge : a.service.metrics.participants = Int64.ofInt a.headcount

theorem headcount_call (a : ServiceRun) (m : Moment) (c : Call) (s : Service) (log : List LogLine) :
    headcount { a with service := s, calls := (m, c) :: a.calls, log := log } =
      a.headcount + (c.joins.toNat - c.leaves.toNat) := by
  simp only [headcount, List.countP_cons]
  cases c.joins <;> cases c.leaves <;> simp <;> omega

theorem counting_call (h : a.Counting) (m : Moment) (c : Call) (log : List LogLine) :
    Counting
      { a with service := (a.service.call m c).state, calls := (m, c) :: a.calls, log := log } := by
  have hstate := a.service.call_state m c
  refine ⟨Service.accepting_call h.accepting m c, ?_, ?_⟩
  · rw [hstate]
    exact Registry.open_consult h.workers c
  · rw [headcount_call, hstate, Int64.ofInt_add, ← h.gauge]
    exact Metrics.participants_count ..

/-- A pool that goes on accepting changes nothing about that. -/
theorem Counting.of_pool (h : a.Counting) {p : Pool Delivery} (hp : p.phase = .accepting)
    (notices : List (WebhookEvent × Reaction)) (log : List LogLine) :
    Counting
      { a with service := { a.service with pool := p }, notices := notices, log := log } :=
  ⟨hp, h.workers, h.gauge⟩

/-- **What a step does to the drift.** -/
theorem drift_step (h : a.Counting) (he : e ≠ .shutdown) (hs : a.Stepped e b) :
    b.Counting ∧
      b.drift = a.drift + (e.call?.any fun x => a.service.registry.replaces x.2).toNat -
        (e.call?.any fun x => a.service.registry.misses x.2).toNat := by
  cases hs with
  | call m c =>
    refine ⟨counting_call h m c _, ?_⟩
    have hsize := Registry.size_consult h.workers c
    simp only [drift, headcount_call, a.service.call_state m c, ServiceEvent.call?, Option.any_some]
    omega
  -- the pool has nothing to do with gauge and registry
  | move m p _ hp =>
    refine ⟨h.of_pool (Pool.accepting_move h.accepting hp) _ _, ?_⟩
    change a.drift = a.drift + (0 : Nat) - (0 : Nat)
    omega
  | answer j r _ hp =>
    refine ⟨h.of_pool (Pool.accepting_move h.accepting hp) _ _, ?_⟩
    change a.drift = a.drift + (0 : Nat) - (0 : Nat)
    omega
  | shutdown => exact absurd rfl he
  -- workers are cleared away only after a shutdown call
  | clear hc => exact absurd h.accepting hc

/-- **Joins that replace a worker and leaves that find none make up the whole drift.** -/
theorem drift_run (h : a.Counting) (hes : .shutdown ∉ es) (hr : a.run? es = some b) :
    b.Counting ∧ b.drift = a.drift + a.met Registry.replaces es - a.met Registry.misses es := by
  induction es generalizing a with
  | nil =>
    cases hr
    refine ⟨h, ?_⟩
    simp [met]
  | cons e es ih =>
    obtain ⟨a₁, h₁, hr⟩ := Option.bind_eq_some_iff.1 hr
    have he : e ≠ .shutdown := (List.ne_of_not_mem_cons hes).symm
    obtain ⟨hcounting, hfirst⟩ := drift_step h he (stepped_of_step? h₁)
    obtain ⟨hb, hrest⟩ := ih hcounting (List.not_mem_of_not_mem_cons hes) hr
    refine ⟨hb, ?_⟩
    simp only [met, h₁, Option.elim_some]
    omega

/-- **Where joins and leaves take turns, no call replaces a worker or misses one.** -/
theorem unmet_of_turns (h : a.Counting) (hes : .shutdown ∉ es) (hr : a.run? es = some b)
    (hturns : TakeTurns a.service.registry.contains (es.filterMap ServiceEvent.call?)) :
    a.met Registry.replaces es = 0 ∧ a.met Registry.misses es = 0 := by
  induction es generalizing a with
  | nil => exact ⟨rfl, rfl⟩
  | cons e es ih =>
    obtain ⟨a₁, h₁, hr⟩ := Option.bind_eq_some_iff.1 hr
    have he : e ≠ .shutdown := (List.ne_of_not_mem_cons hes).symm
    have hs := stepped_of_step? h₁
    have hcounting := (drift_step h he hs).1
    have hrest := ih hcounting (List.not_mem_of_not_mem_cons hes) hr
    simp only [met, h₁, Option.elim_some]
    cases hs with
    | call m c =>
      obtain ⟨hpassage, hfurther⟩ := Registry.takeTurns_cons hturns
      obtain ⟨hreplaces, hmisses⟩ := Registry.unmet_of_passage hpassage
      have hregistry : (a.service.call m c).state.registry =
          (c.consult a.service.registry).state := by
        rw [a.service.call_state m c]
      rw [← hregistry] at hfurther
      simp only [ServiceEvent.call?, Option.any_some, hreplaces, hmisses, Bool.toNat_false,
        Nat.zero_add]
      exact hrest hfurther
    | move m p _ hp =>
      simp only [ServiceEvent.call?, Option.any_none, Bool.toNat_false, Nat.zero_add]
      exact hrest hturns
    | answer j r _ hp =>
      simp only [ServiceEvent.call?, Option.any_none, Bool.toNat_false, Nat.zero_add]
      exact hrest hturns
    | shutdown => exact absurd rfl he
    | clear hc => exact absurd h.accepting hc

/-- The headcount is no larger than the number of calls. -/
theorem headcount_le (a : ServiceRun) :
    -(a.calls.length : Int) ≤ a.headcount ∧ a.headcount ≤ a.calls.length := by
  have hjoins : a.calls.countP (fun x => x.2.joins) ≤ a.calls.length := List.countP_le_length
  have hleaves : a.calls.countP (fun x => x.2.leaves) ≤ a.calls.length := List.countP_le_length
  unfold headcount
  omega

/-- Below 2⁶³ calls the gauge does not wrap around. -/
theorem toInt_gauge (h : a.Counting) (hfew : a.calls.length < 2 ^ 63) :
    a.service.metrics.participants.toInt = a.headcount := by
  have hle := a.headcount_le
  rw [h.gauge]
  exact Int64.toInt_ofInt_of_le (by omega) (by omega)

theorem counting_start (before : AnalyticsClient) (notifies : Bool) (bounds : PoolConfig) :
    (start before notifies bounds).Counting :=
  ⟨rfl, nofun, rfl⟩

/-- **How far gauge and registry are apart** after the first events of a run. -/
structure Drifted (s : ServiceRun) (es earlier : List ServiceEvent) (a : ServiceRun) : Prop where
  /-- By the joins that have replaced an open worker, less the leaves that have found none. -/
  apart : a.service.metrics.participants.toInt - a.service.registry.size =
    (s.met Registry.replaces earlier : Int) - s.met Registry.misses earlier
  /-- Not at all, as long as every participant joins and leaves in turn, beginning with a join. -/
  level : TakeTurns (fun _ => false) (es.filterMap ServiceEvent.call?) →
    a.service.metrics.participants.toInt = a.service.registry.size

/-- **Gauge and registry drift apart only where a join replaces a worker or a leave finds none**, in
every run without a shutdown call, whatever else is called and whatever the pool does meanwhile. -/
theorem drifted_of_run {before : AnalyticsClient} {notifies : Bool} {bounds : PoolConfig}
    {es earlier : List ServiceEvent} (hes : .shutdown ∉ es)
    (hfew : (es.filterMap ServiceEvent.call?).length < 2 ^ 63)
    (hr : (start before notifies bounds).run? es = some b) (hearlier : earlier <+: es) :
    ∃ a, (start before notifies bounds).run? earlier = some a ∧
      Drifted (start before notifies bounds) es earlier a := by
  obtain ⟨later, rfl⟩ := hearlier
  rw [run?_append] at hr
  obtain ⟨a, ha, -⟩ := Option.bind_eq_some_iff.1 hr
  have hout : .shutdown ∉ earlier := fun hmem => hes (List.mem_append_left _ hmem)
  have hstart := counting_start before notifies bounds
  obtain ⟨hcounting, hdrift⟩ := drift_run hstart hout ha
  have hcalls : a.calls.length < 2 ^ 63 := by
    have hlength := congrArg List.length (calls_run ha)
    rw [List.length_reverse] at hlength
    rw [List.filterMap_append, List.length_append] at hfew
    omega
  have hgauge := toInt_gauge hcounting hcalls
  have hzero : (start before notifies bounds).drift = 0 := rfl
  have hapart : a.service.metrics.participants.toInt - a.service.registry.size =
      ((start before notifies bounds).met Registry.replaces earlier : Int) -
        (start before notifies bounds).met Registry.misses earlier := by
    rw [hzero] at hdrift
    unfold drift at hdrift
    omega
  refine ⟨a, ha, hapart, fun hturns => ?_⟩
  have hfirst : TakeTurns (fun _ => false) (earlier.filterMap ServiceEvent.call?) := by
    intro id
    have hchain := hturns id
    rw [List.filterMap_append, List.filterMap_append, ← List.cons_append] at hchain
    exact (List.isChain_append.1 hchain).1
  obtain ⟨hreplaced, hmissed⟩ := unmet_of_turns hstart hout ha hfirst
  omega

/-- Someone joins twice, and someone leaves twice who never joined. -/
def muddled : List ServiceEvent :=
  let tick (clock : Int64) : Moment := { clock, freshId := "" }
  let join (sid room : String) : Call := .participantJoined { sid := room } { sid } none
  let leave (sid : String) : Call := .participantLeft { sid := "a" } { sid }
  [.call (tick 1) (join "p" "a"), .call (tick 2) (.trackBufferOpened "p" 7 { sid := "t" }),
    .call (tick 3) (join "p" "b"), .move .take, .call (tick 4) (leave "q"),
    .call (tick 5) (leave "q")]

/-- Two participants come and go in turn, one of them while the other is there. -/
def orderly : List ServiceEvent :=
  let tick (clock : Int64) : Moment := { clock, freshId := "" }
  let join (sid : String) : Call := .participantJoined { sid := "a" } { sid } none
  let leave (sid : String) : Call := .participantLeft { sid := "a" } { sid }
  [.call (tick 1) (join "p"), .call (tick 2) (join "q"), .call (tick 3) (leave "p"),
    .call (tick 4) (.roomEnded { sid := "b" }), .call (tick 5) (join "p")]

theorem takeTurns_orderly :
    TakeTurns (fun _ => false) (orderly.filterMap ServiceEvent.call?) := by
  intro id
  by_cases hp : "p" = id
  · subst hp
    decide
  · by_cases hq : "q" = id
    · subst hq
      decide
    · simp [orderly, ServiceEvent.call?, Call.passage?, Call.attendance?, hp, hq]

/-- The first four events of the one run leave a participant counted who is not registered, and the
other run leaves gauge and registry level. -/
theorem drifted_of_visits :
    (ServiceEvent.shutdown ∉ muddled ∧ (muddled.filterMap ServiceEvent.call?).length < 2 ^ 63 ∧
      muddled.take 4 <+: muddled ∧
      ∃ a, (start .discarding true ⟨1, 4⟩).run? (muddled.take 4) = some a ∧
        Drifted (start .discarding true ⟨1, 4⟩) muddled (muddled.take 4) a ∧
        a.service.metrics.participants.toInt = 2 ∧ a.service.registry.size = 1) ∧
    (ServiceEvent.shutdown ∉ orderly ∧ (orderly.filterMap ServiceEvent.call?).length < 2 ^ 63 ∧
      TakeTurns (fun _ => false) (orderly.filterMap ServiceEvent.call?) ∧
      ∃ a, (start .discarding true ⟨1, 4⟩).run? orderly = some a ∧
        Drifted (start .discarding true ⟨1, 4⟩) orderly orderly a ∧
        a.service.metrics.participants.toInt = 2 ∧ a.service.registry.size = 2) := by
  have hmuddled : ServiceEvent.shutdown ∉ muddled := by simp [muddled]
  have horderly : ServiceEvent.shutdown ∉ orderly := by simp [orderly]
  have hfew : (muddled.filterMap ServiceEvent.call?).length < 2 ^ 63 := by
    have hlength : (muddled.filterMap ServiceEvent.call?).length = 5 := rfl
    omega
  have hfew' : (orderly.filterMap ServiceEvent.call?).length < 2 ^ 63 := by
    have hlength : (orderly.filterMap ServiceEvent.call?).length = 5 := rfl
    omega
  have hprefix : muddled.take 4 <+: muddled := List.take_prefix 4 muddled
  obtain ⟨a, ha, hdrifted⟩ :=
    @drifted_of_run _ .discarding true ⟨1, 4⟩ muddled _ hmuddled hfew rfl hprefix
  obtain ⟨b, hb, hlevel⟩ :=
    @drifted_of_run _ .discarding true ⟨1, 4⟩ orderly _ horderly hfew' rfl List.prefix_rfl
  refine ⟨⟨hmuddled, hfew, hprefix, a, ha, hdrifted, ?_, ?_⟩,
    ⟨horderly, hfew', takeTurns_orderly, b, hb, hlevel, ?_, ?_⟩⟩
  · cases ha; rfl
  · cases ha; rfl
  · cases hb; rfl
  · cases hb; rfl

end ServiceRun

end RoomWatch
