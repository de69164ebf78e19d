import Mathlib.Data.List.Basic
import RoomWatch.Proofs.Registry.Roster

/-!
# How long a worker is registered

* `shows_step`: the registry is what the roster shows under each id, after every operation.
* `torn_step`: an operation answers exactly the workers that it closes on the roster.
* `accounted_of_run`: **every worker is torn down exactly once and never seen again**, by the
  operation with which it loses its registration.
-/

namespace RoomWatch

/-- The worker that a member was put as, with the id. -/
def Member.arrival (m : Member) : String × Worker := (m.id, m.arrived)

namespace Roster

variable {s : Roster} {r : Registry}

/-- A worker has a registration, under whichever id. -/
def Posted (s : Roster) (n : Nat) : Prop := ∃ id, s.posts.find? id = some n

/-- The numbers of the workers that an operation closes. -/
def closes (s : Roster) : RegistryOp → List Nat
  | .put id _ | .removeAndClose id => (s.posts.find? id).toList
  | .closeAll => s.posts.values
  | .openTrack _ _ _ | .releaseTrack _ _ | .get _ | .contains _ | .bufferCount _ => []

/-- The workers with the given numbers. -/
def workers (s : Roster) (ns : List Nat) : List Worker :=
  ns.filterMap fun n => s.members[n]?.map Member.now

theorem closings_step (s : Roster) (op : RegistryOp) :
    (s.step op).closings = s.closings ++ s.closes op := by
  cases op <;> simp [step, closes, dismiss, dismissAll, enlist, close]

theorem posted_of_closes {op : RegistryOp} {n : Nat} (hn : n ∈ s.closes op) : s.Posted n := by
  cases op with
  | put id w => exact ⟨id, Option.mem_toList.1 hn⟩
  | removeAndClose id => exact ⟨id, Option.mem_toList.1 hn⟩
  | closeAll => exact Table.mem_values.1 hn
  | _ => cases hn

theorem arrivals_eq {t : Roster} {g : Nat → Member → Member}
    (hg : ∀ n m, (g n m).arrival = m.arrival)
    (ht : ∀ n, t.members[n]? = (s.members[n]?).map (g n)) :
    t.members.map Member.arrival = s.members.map Member.arrival := by
  apply List.ext_getElem?
  intro n
  rw [List.getElem?_map, List.getElem?_map, ht n, Option.map_map]
  congr 1
  funext m
  exact hg n m

/-- Only operations that put a worker add a member. -/
theorem arrivals_step (s : Roster) (op : RegistryOp) :
    (s.step op).members.map Member.arrival =
      s.members.map Member.arrival ++ op.put?.toList := by
  have hclose : ∀ ns, (s.close ns).members.map Member.arrival = s.members.map Member.arrival := by
    intro ns
    refine arrivals_eq ?_ (s.getElem?_close ns)
    intro n m
    split <;> rfl
  have halter : ∀ id f, (s.alter id f).members.map Member.arrival =
      s.members.map Member.arrival := by
    intro id f
    refine arrivals_eq ?_ (s.getElem?_alter id f)
    intro n m
    split <;> rfl
  cases op with
  | put id w =>
    simp only [step, enlist, List.map_append]
    exact congrArg (· ++ [(id, w)]) (hclose _)
  | removeAndClose id => exact (hclose _).trans (List.append_nil _).symm
  | closeAll => exact (hclose _).trans (List.append_nil _).symm
  | openTrack id ssrc trackSid => exact (halter id _).trans (List.append_nil _).symm
  | releaseTrack id ssrc => exact (halter id _).trans (List.append_nil _).symm
  | get _ | contains _ | bufferCount _ => exact (List.append_nil _).symm

/-- An operation does not touch a worker without a registration. -/
theorem member_step {op : RegistryOp} {n : Nat} (hn : n < s.members.length) (hout : ¬s.Posted n) :
    (s.step op).members[n]? = s.members[n]? := by
  have hclose : ∀ ns, (∀ k ∈ ns, s.Posted k) → (s.close ns).members[n]? = s.members[n]? := by
    intro ns hns
    have hnot : n ∉ ns := fun hin => hout (hns n hin)
    simp [getElem?_close, hnot]
  have halter : ∀ id f, (s.alter id f).members[n]? = s.members[n]? := by
    intro id f
    have hnot : s.posts.find? id ≠ some n := fun hid => hout ⟨id, hid⟩
    simp [getElem?_alter, hnot]
  have hdismiss : ∀ id, (s.dismiss id).members[n]? = s.members[n]? :=
    fun id => hclose _ fun k hk => ⟨id, Option.mem_toList.1 hk⟩
  cases op with
  | put id w =>
    have hlen : (s.dismiss id).members.length = s.members.length := by simp [dismiss, close]
    refine (getElem?_enlist ..).trans ?_
    rw [hlen, if_neg (Nat.ne_of_lt hn)]
    exact hdismiss id
  | removeAndClose id => exact hdismiss id
  | closeAll => exact hclose _ fun k hk => Table.mem_values.1 hk
  | openTrack id ssrc trackSid => exact halter id _
  | releaseTrack id ssrc => exact halter id _
  | get _ | contains _ | bufferCount _ => rfl

theorem OK.not_posted (h : s.OK) {n : Nat} (hn : n ∈ s.closings) : ¬s.Posted n := by
  rintro ⟨id, hid⟩
  exact (h.post id n hid).1 hn

/-- **A worker is closed by the operation with which it loses its registration.** -/
theorem closes_iff (h : s.OK) (op : RegistryOp) (n : Nat) :
    n ∈ s.closes op ↔ s.Posted n ∧ ¬(s.step op).Posted n := by
  have h' := ok_step h op
  constructor
  · intro hn
    refine ⟨posted_of_closes hn, h'.not_posted ?_⟩
    rw [closings_step]
    exact List.mem_append_right _ hn
  · -- a worker that has lost its registration without being closed would be nowhere
    rintro ⟨⟨id, hid⟩, hlost⟩
    obtain ⟨hopen, m, hm, -⟩ := h.post id n hid
    have hlt : n < (s.step op).members.length := by
      have hlen := congrArg List.length (arrivals_step s op)
      rw [List.length_append, List.length_map, List.length_map] at hlen
      have := (List.getElem?_eq_some_iff.1 hm).1
      omega
    obtain ⟨m', hm'⟩ : ∃ m', (s.step op).members[n]? = some m' :=
      ⟨_, List.getElem?_eq_getElem hlt⟩
    rcases h'.posted_or_closed n m' hm' with hp | hc
    · exact absurd ⟨m'.id, hp⟩ hlost
    · rw [closings_step] at hc
      exact (List.mem_append.1 hc).resolve_left hopen

/-- A closed worker stays as it is. -/
theorem untouched (h : s.OK) {n : Nat} (hn : n ∈ s.closings) (ops : List RegistryOp) :
    n ∈ (ops.foldl step s).closings ∧ (ops.foldl step s).members[n]? = s.members[n]? := by
  induction ops generalizing s with
  | nil => exact ⟨hn, rfl⟩
  | cons op ops ih =>
    have hn' : n ∈ (s.step op).closings := by
      rw [closings_step]
      exact List.mem_append_left _ hn
    obtain ⟨hc, hm⟩ := ih (ok_step h op) hn'
    exact ⟨hc, hm.trans (member_step (h.closings_lt n hn) (h.not_posted hn))⟩

/-! ## What the registry has to do with the roster -/

theorem registered?_alter (h : s.OK) (id other : String) (f : Worker → Worker) :
    (s.alter id f).registered? other =
      if other = id then (s.registered? id).map f else s.registered? other := by
  unfold registered?
  rw [posts_alter]
  by_cases he : other = id
  · subst he
    rw [if_pos rfl]
    cases hp : s.posts.find? other with
    | none => rfl
    | some n => simp [getElem?_alter, hp, Member.change, Function.comp_def]
  · rw [if_neg he]
    cases hp : s.posts.find? other with
    | none => rfl
    | some n =>
      have hne : s.posts.find? id ≠ some n := fun hid => he (h.post_inj hp hid)
      simp [getElem?_alter, hne, Function.comp_def]

theorem registered?_dismiss (h : s.OK) (id other : String) :
    (s.dismiss id).registered? other = if other = id then none else s.registered? other := by
  simp only [registered?, dismiss, Table.find?_erase]
  by_cases he : other = id
  · simp [he]
  · rw [if_neg he, if_neg he]
    cases hp : s.posts.find? other with
    | none => rfl
    | some n =>
      have hne : s.posts.find? id ≠ some n := fun hid => he (h.post_inj hp hid)
      simp [getElem?_close, hne, Function.comp_def]

theorem registered?_enlist (h : s.OK) (id other : String) (w : Worker) :
    (s.enlist id w).registered? other = if other = id then some w else s.registered? other := by
  have hposts : (s.enlist id w).posts = s.posts.insert id s.members.length := rfl
  unfold registered?
  rw [hposts, Table.find?_insert]
  by_cases he : other = id
  · simp [he, getElem?_enlist]
  · rw [if_neg he, if_neg he]
    cases hp : s.posts.find? other with
    | none => rfl
    | some n =>
      obtain ⟨-, m, hm, -⟩ := h.post other n hp
      have hne := Nat.ne_of_lt (List.getElem?_eq_some_iff.1 hm).1
      simp [getElem?_enlist, hne]

/-- **The registry keeps showing what the roster does**, whatever the operation is. -/
theorem shows_step (h : s.OK) (hs : ∀ id, r.find? id = s.registered? id) (op : RegistryOp)
    (id : String) : (op.perform r).1.find? id = (s.step op).registered? id := by
  cases op with
  | put k w =>
    refine (Registry.find?_put ..).trans ?_
    refine Eq.trans ?_ (registered?_enlist (ok_dismiss h k) k id w).symm
    rw [registered?_dismiss h, hs id]
    split <;> rfl
  | removeAndClose k =>
    refine (Registry.find?_removeAndClose ..).trans ?_
    rw [hs id]
    exact (registered?_dismiss h k id).symm
  | closeAll => rfl
  | openTrack k ssrc trackSid =>
    refine (Registry.find?_openTrack ..).trans ?_
    rw [hs id, hs k]
    exact (registered?_alter h k id _).symm
  | releaseTrack k ssrc =>
    refine (Registry.find?_releaseTrack ..).trans ?_
    rw [hs id, hs k]
    exact (registered?_alter h k id _).symm
  | get _ | contains _ | bufferCount _ => exact hs id

theorem workers_append (s : Roster) (ns ks : List Nat) :
    s.workers (ns ++ ks) = s.workers ns ++ s.workers ks := List.filterMap_append

/-- The workers that are closed, as they are after that. -/
theorem workers_close (s : Roster) (ns : List Nat) :
    (s.close ns).workers ns = (s.workers ns).map fun w => w.close.state := by
  unfold workers
  rw [List.map_filterMap]
  refine List.filterMap_congr fun n hn => ?_
  rw [getElem?_close, Option.map_map, Option.map_map]
  congr 1
  funext m
  simp [hn, Member.change]

/-- Removing a participant's worker answers the worker that is closed on the roster. -/
theorem torn_dismiss (hs : ∀ id, r.find? id = s.registered? id) (id : String) :
    ((r.find? id).map fun w => w.close.state).toList =
      (s.dismiss id).workers (s.posts.find? id).toList := by
  refine Eq.trans ?_ (workers_close s _).symm
  rw [hs id, registered?, workers]
  cases s.posts.find? id with
  | none => rfl
  | some n => cases hm : s.members[n]? <;> simp [hm]

/-- **What an operation tears down is what it closes on the roster.** -/
theorem torn_step (h : s.OK) (hs : ∀ id, r.find? id = s.registered? id) (op : RegistryOp) :
    (op.perform r).2.2.Perm ((s.step op).workers (s.closes op)) := by
  cases op with
  | put id w =>
    refine List.Perm.of_eq ?_
    have hput : ((RegistryOp.put id w).perform r).2.2 =
        ((r.find? id).map fun w => w.close.state).toList :=
      congrArg Option.toList (Registry.result_put r id w)
    rw [hput, torn_dismiss hs]
    refine List.filterMap_congr fun n hn => ?_
    -- the closed worker is there already when the new one is enlisted
    obtain ⟨-, m, hm, -⟩ := h.post id n (Option.mem_toList.1 hn)
    have hlen : (s.dismiss id).members.length = s.members.length := by simp [dismiss, close]
    have hne := Nat.ne_of_lt (List.getElem?_eq_some_iff.1 hm).1
    have hkept : (s.step (.put id w)).members[n]? = (s.dismiss id).members[n]? := by
      refine (getElem?_enlist ..).trans ?_
      rw [hlen, if_neg hne]
    rw [hkept]
  | removeAndClose id =>
    refine List.Perm.of_eq ?_
    have hremove : ((RegistryOp.removeAndClose id).perform r).2.2 =
        ((r.find? id).map fun w => w.close.state).toList :=
      congrArg Option.toList (Registry.result_removeAndClose r id)
    rw [hremove, torn_dismiss hs]
    rfl
  | closeAll =>
    have hall : (RegistryOp.closeAll.perform r).2.2 = r.values.map fun w => w.close.state := by
      simp [RegistryOp.perform, Registry.closeAll]
    have hclose : (s.step .closeAll).workers (s.closes .closeAll) =
        (s.workers s.posts.values).map fun w => w.close.state := workers_close s _
    rw [hall, hclose]
    exact (Table.values_perm hs).map _
  | _ => exact .nil

/-- What an operation on a registry has to do with the same operation on a roster. -/
structure Follows (a : RegistryRun) (s : Roster) : Prop where
  ok : s.OK
  shows : ∀ id, a.registry.find? id = s.registered? id
  torn : a.torn.Perm (s.workers s.closings)

theorem follows_step {a : RegistryRun} (h : Follows a s) (op : RegistryOp) :
    Follows (a.step op) (s.step op) := by
  refine ⟨ok_step h.ok op, shows_step h.ok h.shows op, ?_⟩
  rw [closings_step, workers_append]
  refine List.Perm.append ?_ (torn_step h.ok h.shows op)
  -- those that were closed before have stayed as they were
  have hkept : (s.step op).workers s.closings = s.workers s.closings := by
    refine List.filterMap_congr fun n hn => ?_
    rw [member_step (h.ok.closings_lt n hn) (h.ok.not_posted hn)]
  rw [hkept]
  exact h.torn

theorem follows_run (ops : List RegistryOp) : Follows (RegistryRun.run ops) (run ops) := by
  suffices ∀ a s, Follows a s → Follows (ops.foldl RegistryRun.step a) (ops.foldl step s) from
    this {} {} ⟨ok_empty, fun _ => rfl, .nil⟩
  induction ops with
  | nil => exact fun _ _ h => h
  | cons op ops ih => exact fun a s h => ih _ _ (follows_step h op)

theorem run_append (ops later : List RegistryOp) :
    run (ops ++ later) = later.foldl step (run ops) := List.foldl_append

theorem run_concat (ops : List RegistryOp) (op : RegistryOp) :
    run (ops ++ [op]) = (run ops).step op := run_append ops [op]

theorem arrivals_run (ops : List RegistryOp) :
    (run ops).members.map Member.arrival = ops.filterMap RegistryOp.put? := by
  suffices ∀ s : Roster, (ops.foldl step s).members.map Member.arrival =
      s.members.map Member.arrival ++ ops.filterMap RegistryOp.put? from this {}
  induction ops with
  | nil => exact fun s => (List.append_nil _).symm
  | cons op ops ih =>
    intro s
    rw [List.foldl_cons, ih, arrivals_step, List.append_assoc, List.filterMap_cons]
    cases op.put? <;> rfl

/-- Whoever is told a room is told that of a registered worker. -/
theorem reply_room {op : RegistryOp} {c : RoomContext} (hc : (op.perform r).2.1 = .room c) :
    c = {} ∨ ∃ id w, r.find? id = some w ∧ c = w.context := by
  have hget : ∀ id, r.get id = {} ∨ ∃ w, r.find? id = some w ∧ r.get id = w.context := by
    intro id
    unfold Registry.get
    cases hw : r.find? id with
    | none => exact .inl rfl
    | some w => exact .inr ⟨w, rfl, rfl⟩
  cases op with
  | get id =>
    cases hc
    exact (hget id).imp_right fun ⟨w, hw⟩ => ⟨id, w, hw⟩
  | releaseTrack id ssrc =>
    have hrel : (r.releaseTrack id ssrc).result = c := RegistryReply.room.inj hc
    rw [Registry.result_releaseTrack] at hrel
    subst hrel
    exact (hget id).imp_right fun ⟨w, hw⟩ => ⟨id, w, hw⟩
  | _ => cases hc

/-! ## A cleared registry -/

/-- With nobody registered any more, the closed workers are all workers. -/
theorem workers_closings_perm (h : s.OK) (hposts : s.posts = .empty) :
    (s.workers s.closings).Perm (s.members.map Member.now) := by
  have hmem : ∀ n, n ∈ s.closings ↔ n ∈ List.range s.members.length := by
    intro n
    rw [List.mem_range]
    refine ⟨h.closings_lt n, fun hn => ?_⟩
    have hposted := h.posted_or_closed n _ (List.getElem?_eq_getElem hn)
    rw [hposts, Table.find?_empty] at hposted
    exact hposted.resolve_left nofun
  have hclosings := (List.perm_ext_iff_of_nodup h.once List.nodup_range).2 hmem
  have hall : s.workers (List.range s.members.length) = s.members.map Member.now := by
    have hmembers : (List.range s.members.length).map (s.members[·]?) = s.members.map some := by
      apply List.ext_getElem <;> simp
    have hnow := congrArg (List.filterMap (Option.map Member.now)) hmembers
    rw [List.filterMap_map, List.filterMap_map] at hnow
    exact hnow.trans (congrFun List.filterMap_eq_map s.members)
  rw [← hall]
  exact hclosings.filterMap _

end Roster

namespace RegistryRun

open Roster

/-- **Every worker is torn down exactly once and never seen again.** -/
structure Accounted (ops : List RegistryOp) : Prop where
  /-- The members of the roster are the workers that have been put. -/
  arrivals : (Roster.run ops).members.map Member.arrival = ops.filterMap RegistryOp.put?
  /-- The registry shows, under each id, the worker that is registered there. -/
  shows : ∀ id, (run ops).registry.find? id = (Roster.run ops).registered? id
  one_worker : (run ops).registry.keys.Nodup
  one_id : ∀ id id' n, (Roster.run ops).posts.find? id = some n →
    (Roster.run ops).posts.find? id' = some n → id = id'
  /-- A worker is registered under the id with which it was put, or else it is closed. -/
  registered_or_closed : ∀ (n : Nat) (m : Member), (Roster.run ops).members[n]? = some m →
    (Roster.run ops).posts.find? m.id = some n ∨
      ¬(Roster.run ops).Posted n ∧ m.now.closed = true ∧ m.now.buffers = .empty
  /-- A worker that was put open is open exactly as long as it is registered. -/
  open_iff : ∀ (n : Nat) (m : Member), (Roster.run ops).members[n]? = some m →
    m.arrived.closed = false →
    (m.now.closed = false ↔ (Roster.run ops).posts.find? m.id = some n)
  /-- The operations answer the workers that they close, as those are now. -/
  torn : (run ops).torn.Perm ((Roster.run ops).workers (Roster.run ops).closings)
  once : (Roster.run ops).closings.Nodup
  /-- Closed are the workers that are replaced, removed or cleared away. -/
  closings : ∀ op, (Roster.run (ops ++ [op])).closings =
    (Roster.run ops).closings ++ (Roster.run ops).closes op
  lost : ∀ op n, n ∈ (Roster.run ops).closes op ↔
    (Roster.run ops).Posted n ∧ ¬(Roster.run (ops ++ [op])).Posted n
  /-- Nothing happens to a closed worker any more. -/
  untouched : ∀ later n, n ∈ (Roster.run ops).closings →
    ¬(Roster.run (ops ++ later)).Posted n ∧
      (Roster.run (ops ++ later)).members[n]? = (Roster.run ops).members[n]?
  /-- A room that an operation answers is that of a worker that is registered then. -/
  replies : ∀ (op : RegistryOp) (c : RoomContext), (op.perform (run ops).registry).2.1 = .room c →
    c = {} ∨ ∃ (n : Nat) (m : Member), (Roster.run ops).members[n]? = some m ∧
      (Roster.run ops).posts.find? m.id = some n ∧ c = m.arrived.context

/-- **The life of every worker.** In every run of a registry, whatever the workers are that are
put, a worker is closed once, by the operation with which it loses its registration, and no
later operation changes it or tells its room. -/
theorem accounted_of_run (ops : List RegistryOp) : Accounted ops := by
  obtain ⟨ok, shows, torn⟩ := follows_run ops
  refine ⟨arrivals_run ops, shows, (run ops).registry.nodup, ?_, ?_, ?_, torn, ok.once, ?_, ?_,
    ?_, ?_⟩
  · exact fun id id' n hn hn' => ok.post_inj hn hn'
  · intro n m hm
    rcases ok.posted_or_closed n m hm with hp | hc
    · exact .inl hp
    · have hclosed := ok.closed n m hm hc
      exact .inr ⟨ok.not_posted hc, hclosed, m.now.empty_of_closed hclosed⟩
  · intro n m hm harr
    constructor
    · intro hopen
      refine (ok.posted_or_closed n m hm).resolve_right fun hc => ?_
      rw [ok.closed n m hm hc] at hopen
      cases hopen
    · intro hp
      rw [ok.open_kept n m hm (ok.post m.id n hp).1, harr]
  · intro op
    rw [run_concat, closings_step]
  · intro op n
    rw [run_concat]
    exact closes_iff ok op n
  · intro later n hn
    rw [run_append]
    obtain ⟨hc, hm⟩ := Roster.untouched ok hn later
    have ok' := (follows_run (ops ++ later)).ok
    rw [run_append] at ok'
    exact ⟨ok'.not_posted hc, hm⟩
  · intro op c hc
    refine (reply_room hc).imp_right ?_
    rintro ⟨id, w, hw, rfl⟩
    rw [shows id, registered?, Option.bind_eq_some_iff] at hw
    obtain ⟨n, hn, hw⟩ := hw
    obtain ⟨-, m, hm, rfl⟩ := ok.post id n hn
    rw [hm, Option.map_some] at hw
    cases hw
    exact ⟨n, m, hm, hn, Worker.context_eq (ok.same n m hm)⟩

/-- A worker that is replaced is closed, and so is the one that takes its place when all are. -/
example : (run [.put "p" (.new "a" "" "p"), .openTrack "p" 7 "t", .put "p" (.new "b" "" "p"),
    .get "p", .closeAll]).torn.map (fun w => (w.roomId, w.closed, w.bufferCount)) =
      [("a", true, 0), ("b", true, 0)] := rfl

end RegistryRun

end RoomWatch
