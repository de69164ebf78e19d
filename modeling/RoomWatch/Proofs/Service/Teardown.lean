import RoomWatch.Proofs.Pool.Script
import RoomWatch.Proofs.Service.Closedown

/-!
# What a shutdown call leaves alone, and what it leaves behind

* `alike_of_runs`: **callers, and whoever else uses the registry, do not notice that a service is
  being shut down** until it clears the registry, and then they notice no more than that.
* `after_run`: from the beginning of the shutdown call on, every delivery that calls submit is
  refused, with one warning, and nothing else is.
* `cleared_of_step`: **when the shutdown call returns**, all deliveries that were accepted before it
  have ended, and every worker that has ever been registered is closed.
* `exists_return`: it can always still return.
* `tornDown_of_run`: all this, for every run.
-/

namespace RoomWatch

/-- The event as callers and users of the registry meet it. Clearing the registry at the end of a
shutdown call is nothing that someone else could not do. -/
def ClosedownEvent.entry? : ClosedownEvent → Option FrontEvent
  | .front e => some e
  | .clear => some (.use .closeAll)
  | .move _ | .answer _ _ | .shutdown => none

/-- The part of an event that has nothing to do with webhooks. -/
def ClosedownEvent.front? (e : ClosedownEvent) : Option FrontEvent :=
  e.entry?.map FrontEvent.anonymous

theorem ClosedownEvent.front?_entries (es : List ClosedownEvent) :
    ((es.filterMap entry?).map front).filterMap front? = es.filterMap front? := by
  rw [List.filterMap_map, List.filterMap_filterMap]
  congr 1
  funext e
  unfold front?
  cases e.entry? <;> rfl

/-- A reaction of the notifier by which a delivery ends in the given way. -/
def Reaction.ofEnding : Ending → Reaction
  | .completed => .returned (.ok ())
  | .panicked => .panicked

theorem Reaction.ending_ofEnding (e : Ending) : (ofEnding e).ending = e := by
  cases e <;> rfl

/-- A move of the pool, the end of a delivery among them. -/
def ClosedownEvent.ofMove : Move → ClosedownEvent
  | .finish ticket e => .answer ticket (.ofEnding e)
  | m => .move m

/-- What is logged about a delivery that a closed pool has refused. -/
def Delivery.refusal (d : Delivery) : LogLine := .deliveryDropped d.event.kind d.event.id .closed

/-- Submit calls that a closed pool has answered. -/
def refusals (ds : List Delivery) : List (Delivery × Except SubmitError Unit) :=
  ds.map fun d => (d, .error .closed)

namespace Closedown

variable {s : Service} {a b c : Closedown} {e : ClosedownEvent} {es fs gs : List ClosedownEvent}
  {new : List Delivery}

/-! ## What can be noticed -/

/-- **Two services cannot be told apart** by callers or by users of the registry. -/
structure Alike (a b : Closedown) : Prop where
  crowd : Crowd.Isolated a.front.crowd b.front.crowd
  /-- The registry has been used in the same way, by calls and by others. -/
  ops : a.front.ops = b.front.ops
  /-- The others have been told the same. -/
  replies : a.front.replies = b.front.replies

theorem front_step (he : a.step? e = some b) :
    e.front?.elim (some a.front.quiet) a.front.quiet.step? = some b.front.quiet := by
  cases stepped_of_step? he with
  | begin m c => exact Front.quiet_step (.begin m c)
  | act i x t left hx => exact Front.quiet_step (.act i x t left hx)
  | use op => exact Front.quiet_step (.use op)
  | clear _ _ => exact Front.quiet_step (.use .closeAll)
  | _ => rfl

theorem front_run (hr : a.run? es = some b) :
    a.front.quiet.run? (es.filterMap ClosedownEvent.front?) = some b.front.quiet :=
  foldlM_view (fun a : Closedown => a.front.quiet) hr fun _ _ _ => front_step

/-- **Runs in which the same is done by callers and users of the registry cannot be told apart**,
whether the service is shut down in them or not. -/
theorem alike_of_runs (hq : a.front.quiet = b.front.quiet)
    (hfront : es.filterMap ClosedownEvent.front? = fs.filterMap ClosedownEvent.front?)
    {a' b' : Closedown} (ha : a.run? es = some a') (hb : b.run? fs = some b') : Alike a' b' := by
  have hquiet : a'.front.quiet = b'.front.quiet := by
    have ha := front_run ha
    have hb := front_run hb
    rw [hq, hfront] at ha
    exact Option.some.inj (ha.symm.trans hb)
  have hcrowd : a'.front.crowd.quiet = b'.front.crowd.quiet := congrArg Front.crowd hquiet
  have hops : a'.front.quiet.ops = b'.front.quiet.ops := congrArg Front.ops hquiet
  have hreplies : a'.front.quiet.replies = b'.front.quiet.replies := congrArg Front.replies hquiet
  exact ⟨Crowd.isolated_of_quiet hcrowd, hops, hreplies⟩

theorem exists_step_front {e : FrontEvent} {f : Front} (h : a.front.step? e = some f) :
    ∃ b, a.step? (.front e) = some b ∧ b.front = f ∧ b.stage = a.stage := by
  cases Front.stepped_of_step? h with
  | begin m c => exact ⟨_, rfl, rfl, rfl⟩
  | use op => exact ⟨_, rfl, rfl, rfl⟩
  | act i x t left hx =>
    refine ⟨a.make i x t left, ?_, rfl, rfl⟩
    simp only [step?, hx]

/-- What callers and users of the registry do in a run, they can do by themselves, on a service that
looks the same to them. -/
theorem exists_run_front (hq : a.front.quiet = c.front.quiet) (hr : a.run? es = some b) :
    ∃ d, c.run? ((es.filterMap ClosedownEvent.entry?).map .front) = some d ∧ d.stage = c.stage := by
  induction es generalizing a c with
  | nil => exact ⟨c, rfl, rfl⟩
  | cons e es ih =>
    obtain ⟨a₁, h₁, hr⟩ := Option.bind_eq_some_iff.1 hr
    have hstep := front_step h₁
    rw [hq] at hstep
    rw [List.filterMap_cons]
    cases he : e.entry? with
    | none =>
      rw [ClosedownEvent.front?, he] at hstep
      exact ih (Option.some.inj hstep).symm hr
    | some x =>
      rw [ClosedownEvent.front?, he, Option.map_some, Option.elim_some] at hstep
      obtain ⟨f, hf⟩ := Front.exists_step (Option.isSome_of_eq_some hstep)
      obtain ⟨c₁, hc₁, rfl, hstage⟩ := exists_step_front hf
      have hq₁ : c.front.quiet.step? x.anonymous = some c₁.front.quiet :=
        Front.quiet_step (Front.stepped_of_step? hf)
      rw [hq₁] at hstep
      obtain ⟨d, hd, hlast⟩ := ih (Option.some.inj hstep).symm hr
      refine ⟨d, ?_, hlast.trans hstage⟩
      rw [List.map_cons, run?_cons, hc₁]
      exact hd

/-! ## After the beginning of the shutdown call -/

/-- **What has become of deliveries since a shutdown call has begun**: they have been refused. -/
structure After (s : Service) (a b : Closedown) (new : List Delivery) : Prop where
  sound : Sound s b
  begun : b.stage ≠ .uncalled
  since : Front.Since s a.front b.front new
  calls : b.ledger.calls = a.ledger.calls ++ refusals new

theorem After.closed (h : After s a b new) : b.pool.phase ≠ .accepting :=
  fun hp => h.begun (h.sound.uncalled.2 hp)

/-- A step of a call is refused by a closed pool, if it submits something. -/
theorem after_make (h : After s a b new) {i : Nat} {x : Account} {t : Atom} {left : List Atom}
    (hx : b.front.crowd.activities[i]? = some ⟨x, t :: left⟩) :
    After s a (b.make i x t left) (new ++ (x.creation? s t).toList) := by
  refine ⟨sound_make h.sound hx, h.begun, Front.since_make h.since h.sound.filing hx, ?_⟩
  have hcreation : x.creation? b.front.service = x.creation? s :=
    congrFun (Account.creation?_congr h.sound.filing.notifies) x
  have hledger : (b.make i x t left).ledger =
      (x.creation? s t).elim b.ledger fun d => b.ledger.enter d (b.pool.submit d).2 := by
    rw [← hcreation]
    rfl
  rw [hledger]
  cases x.creation? s t with
  | none =>
    rw [Option.toList_none, List.append_nil]
    exact h.calls
  | some d =>
    have hcalls := h.calls
    rw [Option.elim_some, Pool.submit_of_closed h.closed]
    simp only [Ledger.enter, hcalls, refusals, Option.toList_some, List.map_append,
      List.append_assoc, List.map_cons, List.map_nil]

theorem after_step (h : After s a b new) (he : b.Stepped e c) : ∃ new', After s a c new' := by
  have hsound := sound_step h.sound he
  cases he with
  | begin m c => exact ⟨new, hsound, h.begun, Front.since_enter h.since m c, h.calls⟩
  | act i x t left hx => exact ⟨_, after_make h hx⟩
  | use op => exact ⟨new, hsound, h.begun, Front.since_use h.since op, h.calls⟩
  | move m p _ _ =>
    refine ⟨new, hsound, h.begun, Front.since_withPool h.since p, ?_⟩
    exact (b.ledger.calls_follow b.pool m).trans h.calls
  | answer j r _ _ => exact ⟨new, hsound, h.begun, Front.since_withPool h.since _, h.calls⟩
  | shutdown hs => exact absurd hs h.begun
  | clear _ _ => exact ⟨new, hsound, nofun, Front.since_use h.since .closeAll, h.calls⟩

theorem after_run (h : After s a b new) (hr : b.run? es = some c) : ∃ new', After s a c new' := by
  have hstep : ∀ {b c : Closedown} {e}, (∃ new, After s a b new) → b.Stepped e c →
      ∃ new, After s a c new := by
    rintro b c e ⟨new, h⟩ he
    exact after_step h he
  exact run_induction hstep ⟨new, h⟩ hr

/-- In the beginning nothing has been submitted yet. -/
theorem after_shutdown (h : Sound s a) (he : a.step? .shutdown = some b) : After s a b [] := by
  have hstepped := stepped_of_step? he
  have hsound := sound_step h hstepped
  cases hstepped with
  | shutdown _ =>
    refine ⟨hsound, nofun, Front.since_withPool (Front.since_self s a.front) _, ?_⟩
    exact (List.append_nil _).symm

/-- **The refusals**, as the counters and the log tell of them. -/
structure Refused (a b : Closedown) (new : List Delivery) : Prop where
  calls : b.ledger.calls = a.ledger.calls ++ refusals new
  submitted : b.pool.stats.submitted = a.pool.stats.submitted
  rejected : b.pool.stats.rejected = a.pool.stats.rejected + new.length
  dropped : drops b.log = drops a.log ++ new.map Delivery.refusal

theorem After.accepted (h : After s a b new) : b.ledger.accepted = a.ledger.accepted := by
  have hnone : (refusals new).filter (fun c => c.2.isOk) = [] := by
    rw [List.filter_eq_nil_iff]
    intro x hx
    obtain ⟨d, -, rfl⟩ := List.mem_map.1 hx
    nofun
  unfold Ledger.accepted
  rw [h.calls, List.filter_append, hnone, List.append_nil]

theorem After.jobs (h : After s a b new) : b.ledger.jobs = a.ledger.jobs := by
  unfold Ledger.jobs
  rw [h.accepted]

theorem After.refused (ha : Sound s a) (h : After s a b new) : Refused a b new := by
  have hall : (refusals new).filter (fun c => !c.2.isOk) = refusals new := by
    rw [List.filter_eq_self]
    intro x hx
    obtain ⟨d, -, rfl⟩ := List.mem_map.1 hx
    rfl
  have hrefused : b.ledger.refused = a.ledger.refused ++ new := by
    unfold Ledger.refused
    rw [h.calls, List.filter_append, hall, List.map_append, refusals, List.map_map]
    exact congrArg _ (List.map_id new)
  refine ⟨h.calls, ?_, ?_, ?_⟩
  · rw [h.sound.pool.balanced.submitted, ha.pool.balanced.submitted, h.accepted]
  · rw [h.sound.pool.balanced.rejected, ha.pool.balanced.rejected, hrefused, List.length_append]
  · rw [h.sound.dropped, ha.dropped, h.calls, List.flatMap_append, refusals, List.flatMap_map]
    exact congrArg _ (List.flatMap_pure_eq_map Delivery.refusal new)

/-- **The notifier is called with what has been accepted**, and with nothing else: with each event
once, unless its delivery is still in the pool. -/
theorem Sound.notified (h : Sound s b) :
    (b.pool.unfinished.map (fun j => j.task.event) ++ b.notices.map Prod.fst).Perm
      (b.ledger.accepted.map Delivery.event) := by
  have hall := Pool.unfinished_append_ended h.pool.balanced
  rw [notified_eq h.noticed, ← Ledger.events_jobs, ← List.map_append]
  exact hall.map _

/-! ## The return of the shutdown call -/

/-- **What is left when a shutdown call returns** that began in the given state. -/
structure Cleared (a b : Closedown) : Prop where
  registry : b.front.service.registry = .empty
  unfinished : b.pool.unfinished = []
  /-- Every delivery that was accepted before the call has ended, once. -/
  ended : (b.ledger.ended.map Prod.fst).Perm a.ledger.jobs
  /-- The notifier has been called with each of them. -/
  notified : (b.notices.map Prod.fst).Perm (a.ledger.accepted.map Delivery.event)
  /-- The members of the roster are all workers that have ever been registered, ... -/
  arrivals : (Roster.run b.front.ops).members.map Member.arrival =
    b.front.ops.filterMap RegistryOp.put?
  /-- ... those of all joins among them. -/
  joined : (b.front.crowd.steps.filterMap fun y => (y.1.op? y.2).bind RegistryOp.put?).Sublist
    ((Roster.run b.front.ops).members.map Member.arrival)
  /-- All of them have been torn down, by earlier operations or by the call itself. -/
  torn : ∃ earlier, b.front.ops = earlier ++ [.closeAll] ∧
    ((RegistryRun.run earlier).torn ++ b.cleared).Perm
      ((Roster.run b.front.ops).members.map Member.now)
  closed : ∀ m ∈ (Roster.run b.front.ops).members, m.now.closed = true ∧ m.now.bufferCount = 0
  /-- The log tells of each of them, if they have been put open. -/
  told : PutsOpen b.front.ops →
    (closedIn b.log).Perm ((Roster.run b.front.ops).members.map fun m => m.arrived.badge)

theorem unfinished_eq_nil {p : Pool Delivery} (h : p.Closing) (hs : p.phase = .stopped) :
    p.unfinished = [] := by
  obtain ⟨hqueue, hheld, hrunning, -⟩ := Pool.nothing_left h hs
  unfold Pool.unfinished
  rw [hqueue, hheld, hrunning]
  rfl

theorem cleared_of_step (h : After s a b new) (he : b.step? .clear = some c) : Cleared a c := by
  have hstepped := stepped_of_step? he
  obtain ⟨new', hc⟩ := after_step h hstepped
  have hclear : c.front = b.front.use .closeAll ∧ c.stage = .returned ∧
      c.cleared = (RegistryOp.perform b.front.service.registry .closeAll).2.2 := by
    cases hstepped with
    | clear _ _ => exact ⟨b.front.clear_eq, rfl, rfl⟩
  obtain ⟨hfront, hreturned, hcleared⟩ := hclear
  have hs := hc.sound.returned hreturned
  have hunfinished := unfinished_eq_nil hc.sound.pool.closing hs
  have hended := Pool.ended_of_stopped hc.sound.pool.closing hc.sound.pool.balanced hs
  have hnotified := hc.sound.notified
  rw [hunfinished, hc.accepted] at hnotified
  -- after the last operation on the registry nobody is registered
  obtain ⟨ok, -, torn⟩ := Roster.follows_run c.front.ops
  have harrivals := Roster.arrivals_run c.front.ops
  have hposts : (Roster.run c.front.ops).posts = .empty := by
    have hrun := Roster.run_concat b.front.ops .closeAll
    rw [hfront]
    exact congrArg Roster.posts hrun
  have hperm := torn.trans (Roster.workers_closings_perm ok hposts)
  refine ⟨by rw [hfront]; rfl, hunfinished, hc.jobs ▸ hended, hnotified, harrivals, ?_, ?_, ?_, ?_⟩
  · rw [harrivals, ← List.filterMap_filterMap]
    exact hc.sound.recorded.calls.filterMap _
  · refine ⟨b.front.ops, by rw [hfront]; rfl, ?_⟩
    have htorn := RegistryRun.torn_concat b.front.ops .closeAll
    rw [RegistryRun.registry_run, ← h.sound.recorded.registry, ← hcleared] at htorn
    have hops : c.front.ops = b.front.ops ++ [.closeAll] := by rw [hfront]; rfl
    rw [← htorn, ← hops]
    exact hperm
  · intro m hm
    have hin := List.mem_map_of_mem (f := Member.now) hm
    obtain ⟨n, hn, hworker⟩ := List.mem_filterMap.1 (torn.mem_iff.1 (hperm.mem_iff.2 hin))
    obtain ⟨m', hm', hnow⟩ := Option.map_eq_some_iff.1 hworker
    have hclosed : m.now.closed = true := hnow ▸ ok.closed n m' hm' hn
    exact ⟨hclosed, Worker.bufferCount_of_closed hclosed⟩
  · intro hput
    have hbadges : (Roster.run c.front.ops).members.map (fun m => m.arrived.badge) =
        ((Roster.run c.front.ops).members.map Member.now).map Worker.badge := by
      rw [List.map_map]
      refine List.map_congr_left fun m hm => ?_
      obtain ⟨n, hn⟩ := List.mem_iff_getElem?.1 hm
      exact (Worker.badge_eq (ok.same n m hn)).symm
    rw [hc.sound.told hput, hbadges]
    exact hperm.map Worker.badge

/-! ## The way to the return -/

/-- What the pool can do by itself, it can do here. -/
theorem exists_step_ofMove {m : Move} {p : Pool Delivery} (hm : a.pool.move? m = some p) :
    ∃ b, a.step? (.ofMove m) = some b ∧ b.pool = p ∧ b.stage = a.stage := by
  cases m with
  | finish ticket ending =>
    cases Pool.moved_of_move? hm with
    | finish j _ hj =>
      have hfound : (a.pool.running.find? fun i => i.ticket = j.ticket).isSome :=
        List.find?_isSome.2 ⟨j, hj, decide_eq_true rfl⟩
      obtain ⟨i, hi⟩ := Option.isSome_iff_exists.1 hfound
      simp only [ClosedownEvent.ofMove, step?, Reaction.ending_ofEnding, hi, Option.bind_some, hm,
        Option.map_some]
      exact ⟨_, rfl, rfl, rfl⟩
  | _ =>
    simp only [ClosedownEvent.ofMove, step?, hm, Option.map_some]
    exact ⟨_, rfl, rfl, rfl⟩

theorem exists_clear (hs : a.stage = .waiting) (hp : a.pool.phase = .stopped) :
    ∃ b, a.run? [.clear] = some b ∧ b.stage = .returned := by
  rw [run?_cons]
  simp only [step?, hs, hp, and_self, if_true, Option.bind_some]
  exact ⟨_, rfl, rfl⟩

/-- **A shutdown call that waits can always still return.** From where a run has led, moves of the
pool alone lead there. -/
theorem exists_return (h : Sound s a) (hs : a.stage = .waiting)
    (hw : 0 < s.pool.bounds.maxWorkers) :
    ∃ (ms : List Move) (b : Closedown),
      a.run? (ms.map .ofMove ++ [.clear]) = some b ∧ b.stage = .returned := by
  induction hn : a.pool.effort using Nat.strongRecOn generalizing a with
  | ind n ih =>
    subst hn
    by_cases hp : a.pool.phase = .stopped
    · obtain ⟨b, hb, hstage⟩ := exists_clear hs hp
      exact ⟨[], b, hb, hstage⟩
    have hclosed : a.pool.phase ≠ .accepting := by
      intro ha
      have huncalled := h.uncalled.2 ha
      rw [hs] at huncalled
      cases huncalled
    by_cases hd : a.pool.dispatcher = .exited
    · -- the pool stops, and nothing else is left to wait for
      have hphase : a.pool.phase = .stopping := by
        cases hphase : a.pool.phase with
        | accepting => exact absurd hphase hclosed
        | stopping => rfl
        | stopped => exact absurd hphase hp
      have hq : a.pool.move? .stop = some { a.pool with phase := .stopped } := by
        simp only [Pool.move?, hd, hphase]
      obtain ⟨b, hb, hpool, hstage⟩ := exists_step_ofMove hq
      obtain ⟨c, hc, hlast⟩ := exists_clear (hstage.trans hs) (hpool ▸ rfl)
      refine ⟨[.stop], c, ?_, hlast⟩
      rw [List.map_singleton, List.singleton_append, run?_cons, hb]
      exact hc
    · have hpositive : 0 < a.pool.bounds.maxWorkers := h.bounds ▸ hw
      obtain ⟨m, hm, hq⟩ := Pool.exists_move h.pool.permitted hpositive hclosed hd
      obtain ⟨q, hq⟩ := Option.isSome_iff_exists.1 hq
      obtain ⟨b, hb, rfl, hstage⟩ := exists_step_ofMove hq
      have hless := Pool.effort_move h.pool.balanced hq hm
      have hsound := sound_step h (stepped_of_step? hb)
      obtain ⟨ms, c, hc, hlast⟩ := ih _ hless hsound (hstage.trans hs) rfl
      refine ⟨m :: ms, c, ?_, hlast⟩
      rw [List.map_cons, List.cons_append, run?_cons, hb]
      exact hc

/-! ## Every run -/

/-- **What a shutdown call does** that begins in the state `a`, when it has come to the state `b`
after further events. -/
structure TornDown (s : Service) (a : Closedown) (fs : List ClosedownEvent) (b : Closedown) :
    Prop where
  /-- Had the service not been shut down, or its pool behaved in another way, then callers and users
  of the registry would have noticed nothing of it ... -/
  unaffected : ∀ gs c,
    gs.filterMap ClosedownEvent.front? = fs.filterMap ClosedownEvent.front? →
      a.run? gs = some c → Alike b c
  /-- ... and they could have done the same then. -/
  spared : ∃ c, a.run? ((fs.filterMap ClosedownEvent.entry?).map .front) = some c ∧
    c.pool.phase = .accepting ∧ Alike b c
  /-- Whatever has been submitted since then has been refused, for every call that has begun since
  then as well. -/
  refused : ∃ new, Front.Since s a.front b.front new ∧ Refused a b new
  /-- Events are delivered only if they have been accepted before. -/
  notified : (b.pool.unfinished.map (fun j => j.task.event) ++ b.notices.map Prod.fst).Perm
    (a.ledger.accepted.map Delivery.event)
  cleared : fs.getLast? = some .clear → Cleared a b
  returns : b.stage = .waiting →
    ∃ (ms : List Move) (c : Closedown),
      b.run? (ms.map .ofMove ++ [.clear]) = some c ∧ c.stage = .returned

/-- **A service is shut down in two phases.** In every run of a service in which one shutdown call
begins, while calls go on, others use the registry, and the pool and the notifier do whatever they
do, nobody notices the call before it clears the registry; new deliveries are refused from its
beginning on; and when it returns, nothing is left of the accepted deliveries and of the workers
that have been registered until then. -/
theorem tornDown_of_run {analytics : AnalyticsClient} {notifies : Bool} {bounds : PoolConfig}
    (ha : (start (.start analytics notifies bounds.normalized)).run? es = some a)
    (hb : a.run? (.shutdown :: fs) = some b) :
    TornDown (.start analytics notifies bounds.normalized) a fs b := by
  have hsound := sound_run (sound_start analytics notifies bounds.normalized) ha
  rw [run?_cons] at hb
  obtain ⟨a₁, h₁, hrun⟩ := Option.bind_eq_some_iff.1 hb
  have hbegun := after_shutdown hsound h₁
  obtain ⟨new, hafter⟩ := after_run hbegun hrun
  -- the beginning of the call cannot be noticed either
  have hquiet : a₁.front.quiet = a.front.quiet := (Option.some.inj (front_step h₁)).symm
  refine ⟨?_, ?_, ⟨new, hafter.since, hafter.refused hsound⟩, ?_, ?_, ?_⟩
  · intro gs c hfront hc
    exact alike_of_runs hquiet hfront.symm hrun hc
  · obtain ⟨c, hc, hstage⟩ := exists_run_front hquiet hrun
    have huncalled : a.stage = .uncalled := by
      cases stepped_of_step? h₁ with
      | shutdown huncalled => exact huncalled
    refine ⟨c, hc, (sound_run hsound hc).uncalled.1 (hstage.trans huncalled), ?_⟩
    exact alike_of_runs hquiet (ClosedownEvent.front?_entries fs).symm hrun hc
  · rw [← hafter.accepted]
    exact hafter.sound.notified
  · intro hlast
    obtain ⟨gs, rfl⟩ := List.getLast?_eq_some_iff.1 hlast
    rw [run?_append] at hrun
    obtain ⟨b₁, hb₁, hclear⟩ := Option.bind_eq_some_iff.1 hrun
    obtain ⟨new₁, hafter₁⟩ := after_run hbegun hb₁
    rw [run?_cons] at hclear
    obtain ⟨c, hc, hcb⟩ := Option.bind_eq_some_iff.1 hclear
    cases hcb
    exact cleared_of_step hafter₁ hc
  · intro hwaiting
    exact exists_return hafter.sound hwaiting (Nat.lt_of_lt_of_le Nat.one_pos (Nat.le_max_left ..))

/-- A call from its beginning to its end, as the call with the given number. -/
def whole (i : Nat) (m : Moment) (c : Call) : List ClosedownEvent :=
  .front (.begin m c) :: List.replicate (c.atoms m.clock).length (.front (.act i))

/-- A participant has joined, and the webhook about it is being delivered. A recording is about to
be reported. -/
def opening : List ClosedownEvent :=
  whole 0 { clock := 1, freshId := "a" } (.participantJoined { sid := "r" } { sid := "p" } none) ++
    [.move .take, .move .start,
      .front (.begin { clock := 2, freshId := "b" } (.recordingStarted { id := "z" }))]

/-- While the shutdown call waits, another participant joins and opens a buffer, and a track of the
first one is published. -/
def closing : List ClosedownEvent :=
  [.front (.act 1)] ++
    whole 2 { clock := 3, freshId := "c" } (.participantJoined { sid := "s" } { sid := "q" } none) ++
    whole 3 { clock := 4, freshId := "" } (.trackBufferOpened "q" 7 { sid := "t" }) ++
    whole 4 { clock := 5, freshId := "" } (.trackPublished "p" { sid := "t" }) ++
    [.front (.use (.get "q")), .answer 0 (.returned (.error .cancelled)), .move .collect,
      .move .drain, .move .exit, .move .stop, .clear]

theorem tornDown_of_closing :
    ∃ a b,
      (start (.start (.collecting []) true (PoolConfig.normalized ⟨0, 0⟩))).run? opening = some a ∧
      a.run? (.shutdown :: closing) = some b ∧
      TornDown (.start (.collecting []) true (PoolConfig.normalized ⟨0, 0⟩)) a closing b ∧
      Cleared a b ∧
      b.notices.map (fun n => n.1.id) = ["a"] ∧
      drops b.log = [.deliveryDropped .recordingStarted "b" .closed,
        .deliveryDropped .participantJoined "c" .closed] ∧
      b.pool.stats = ⟨1, 2, 1, 0⟩ ∧
      b.front.replies = [.room ⟨"s", ""⟩, .workers 2] ∧
      closedIn b.log = [("p", "r"), ("q", "s")] ∧
      b.front.crowd.handed.map (fun x => x.2.roomSid) = ["r", "s", "r"] := by
  have hrun : ((start (.start (.collecting []) true (PoolConfig.normalized ⟨0, 0⟩))).run?
      opening).bind (fun a => (a.run? (.shutdown :: closing)).map fun b =>
        (b.notices.map (fun n => n.1.id), drops b.log, b.pool.stats, b.front.replies,
          closedIn b.log, b.front.crowd.handed.map (fun x => x.2.roomSid))) =
      some (["a"], [.deliveryDropped .recordingStarted "b" .closed,
        .deliveryDropped .participantJoined "c" .closed], ⟨1, 2, 1, 0⟩,
        [.room ⟨"s", ""⟩, .workers 2], [("p", "r"), ("q", "s")], ["r", "s", "r"]) := rfl
  obtain ⟨a, ha, hrun⟩ := Option.bind_eq_some_iff.1 hrun
  obtain ⟨b, hb, hseen⟩ := Option.map_eq_some_iff.1 hrun
  simp only [Prod.mk.injEq] at hseen
  obtain ⟨hnotices, hdrops, hstats, hreplies, hclosed, hhanded⟩ := hseen
  have htorn := tornDown_of_run ha hb
  exact ⟨a, b, ha, hb, htorn, htorn.cleared rfl, hnotices, hdrops, hstats, hreplies, hclosed,
    hhanded⟩

end Closedown

end RoomWatch
