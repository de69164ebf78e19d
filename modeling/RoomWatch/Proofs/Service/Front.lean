import Mathlib.Data.List.Perm.Subperm
import RoomWatch.Proofs.Registry.Buffers
import RoomWatch.Proofs.Service.Isolation
import RoomWatch.Proofs.Service.Tally

/-!
# What is seen of a service from outside

The registry of a service may be shared. While calls overlap, others look participants up in it,
register workers of their own or clear it. A `Front` is a crowd with the operations on the registry
so far, those of calls and those of others, and with what the others have been told.

* `recorded_step`: the registry is what these operations make of the empty one.
* `since_make`: from some moment on, **every call that begins submits its delivery once**, when it
  makes its step for that.
* `quiet_step`: what has to do with webhooks cannot be seen from outside.
-/

namespace RoomWatch

namespace Call

/-- The operation by which a call consults the registry, if it does. -/
def op? : Call → Option RegistryOp
  | .participantJoined room participant _ =>
    some (.put participant.sid (.new room.sid room.name participant.sid))
  | .participantLeft _ participant => some (.removeAndClose participant.sid)
  | .trackPublished id _ | .trackSubscribed id _ | .trackUnsubscribed id _ => some (.get id)
  | .trackUnpublished id _ ssrc => some (.releaseTrack id ssrc)
  | .trackBufferOpened id ssrc track => some (.openTrack id ssrc track.sid)
  | .roomStarted _ | .roomEnded _ | .recordingStarted _ | .recordingEnded _ => none

/-- Calls log of the registry what the operation logs. -/
theorem log_consult (r : Registry) (c : Call) :
    (c.consult r).log = c.op?.elim [] fun op => op.log r := by
  cases c <;> rfl

theorem state_consult (r : Registry) (c : Call) :
    (c.consult r).state = c.op?.elim r fun op => (op.perform r).1 := by
  cases c <;> rfl

end Call

/-- The operation on the registry in a step of a call. -/
def Account.op? (x : Account) : Atom → Option RegistryOp
  | .consult => x.call.op?
  | .add _ | .notify | .send | .report => none

theorem Service.registry_atom (s : Service) (x : Account) (t : Atom) :
    (s.atom x t).state.registry = (x.op? t).elim s.registry fun op => (op.perform s.registry).1 := by
  cases t with
  | consult => exact x.call.state_consult s.registry
  | _ => rw [atom_state]; rfl

/-- A crowd on a service, and what has been done with the registry of the service. -/
structure Front where
  crowd : Crowd
  /-- All operations on the registry so far. -/
  ops : List RegistryOp := []
  /-- What those who have used the registry by themselves have been told. -/
  replies : List RegistryReply := []

/-- Something that happens at a front. -/
inductive FrontEvent where
  /-- Another call begins. -/
  | begin (m : Moment) (c : Call)
  /-- A call makes its next step. -/
  | act (activity : Nat)
  /-- Someone uses the registry by himself. -/
  | use (op : RegistryOp)

/-- The event without the id for a webhook event. -/
def FrontEvent.anonymous : FrontEvent → FrontEvent
  | .begin m c => .begin m.anonymous c
  | .act i => .act i
  | .use op => .use op

namespace Front

variable {a b : Front} {e : FrontEvent}

def service (a : Front) : Service := a.crowd.service

def pool (a : Front) : Pool Delivery := a.service.pool

/-- The front after another call has begun. -/
def enter (a : Front) (m : Moment) (c : Call) : Front := { a with crowd := a.crowd.enter m c }

/-- The front after a call has made a step. -/
def make (a : Front) (i : Nat) (x : Account) (t : Atom) (left : List Atom) : Front :=
  { a with crowd := a.crowd.make i x t left, ops := a.ops ++ (x.op? t).toList }

/-- The front after someone has used the registry. -/
def use (a : Front) (op : RegistryOp) : Front where
  crowd := { a.crowd with
    service := { a.service with registry := (op.perform a.service.registry).1 } }
  ops := a.ops ++ [op]
  replies := a.replies ++ [(op.perform a.service.registry).2.1]

/-- The front after the service has been cleared. The workers that it answers are counted as for
someone who has asked for that. -/
def clear (a : Front) : Front where
  crowd := { a.crowd with service := a.service.clear.state }
  ops := a.ops ++ [.closeAll]
  replies := a.replies ++ [.workers a.service.clear.result.length]

/-- The front with another pool. -/
def withPool (a : Front) (p : Pool Delivery) : Front :=
  { a with crowd := { a.crowd with service := { a.service with pool := p } } }

/-- The front after something has happened; none if that is not possible. -/
def step? (a : Front) : FrontEvent → Option Front
  | .begin m c => some (a.enter m c)
  | .act i =>
    match a.crowd.activities[i]? with
    | some ⟨x, t :: left⟩ => some (a.make i x t left)
    | _ => none
  | .use op => some (a.use op)

/-- The front after a run; none if something in it is not possible. -/
def run? (a : Front) (es : List FrontEvent) : Option Front := es.foldlM step? a

/-- What an event needs and what it does. -/
inductive Stepped (a : Front) : FrontEvent → Front → Prop where
  | begin (m : Moment) (c : Call) : Stepped a (.begin m c) (a.enter m c)
  | act (i : Nat) (x : Account) (t : Atom) (left : List Atom)
      (next : a.crowd.activities[i]? = some ⟨x, t :: left⟩) :
      Stepped a (.act i) (a.make i x t left)
  | use (op : RegistryOp) : Stepped a (.use op) (a.use op)

theorem step?_act {i : Nat} {x : Account} {t : Atom} {left : List Atom}
    (h : a.crowd.activities[i]? = some ⟨x, t :: left⟩) :
    a.step? (.act i) = some (a.make i x t left) := by
  simp only [step?, h]

theorem stepped_of_step? (h : a.step? e = some b) : a.Stepped e b := by
  cases e with
  | begin m c => cases h; exact .begin m c
  | use op => cases h; exact .use op
  | act i =>
    simp only [step?] at h
    split at h
    · next x t left hx => cases h; exact .act i x t left hx
    · cases h

/-- **Clearing a service does to its front what clearing its registry does.** -/
theorem clear_eq (a : Front) : a.clear = a.use .closeAll := rfl

/-! ## The registry -/

/-- **The registry is what the operations so far make of the empty one**, and the calls have had
their part in them. -/
structure Recorded (a : Front) : Prop where
  registry : a.service.registry = Registry.after .empty a.ops
  calls : (a.crowd.steps.filterMap fun y => y.1.op? y.2).Sublist a.ops

theorem recorded_step (h : a.Recorded) (he : a.Stepped e b) : b.Recorded := by
  cases he with
  | begin m c => exact ⟨h.registry, h.calls⟩
  | use op =>
    refine ⟨?_, h.calls.trans (List.sublist_append_left _ _)⟩
    have hafter : (a.use op).service.registry = (op.perform a.service.registry).1 := rfl
    rw [hafter, h.registry]
    exact (Registry.after_concat ..).symm
  | act i x t left _ =>
    constructor
    · have hatom : (a.make i x t left).service.registry =
          (x.op? t).elim a.service.registry fun op => (op.perform a.service.registry).1 :=
        a.service.registry_atom x t
      rw [hatom, h.registry]
      unfold make
      cases x.op? t with
      | none => rw [Option.toList_none, List.append_nil]; rfl
      | some op => exact (Registry.after_concat ..).symm
    · show List.Sublist ((a.crowd.make i x t left).steps.filterMap _) (a.ops ++ (x.op? t).toList)
      rw [Crowd.filterMap_make]
      exact h.calls.append_right _

theorem recorded_withPool (h : a.Recorded) (p : Pool Delivery) : (a.withPool p).Recorded :=
  ⟨h.registry, h.calls⟩

/-! ## The deliveries -/

/-- The delivery that a call has submitted, if it has made its step for that. -/
def filed? (s : Service) (x : Activity) : Option Delivery :=
  x.done? .notify (·.creation? s .notify)

/-- The calls go on in their order, and the service goes on notifying, or not. -/
structure Filing (s : Service) (a : Front) : Prop where
  notifies : a.service.notifies = s.notifies
  orderly : ∀ x ∈ a.crowd.activities, x.call.Orderly x.left

theorem filing_step {s : Service} (h : Filing s a) (he : a.Stepped e b) : Filing s b := by
  cases he with
  | begin m c =>
    refine ⟨h.notifies, fun x hx => ?_⟩
    rcases List.mem_append.1 hx with hx | hx
    · exact h.orderly x hx
    · rw [List.mem_singleton.1 hx]
      exact c.orderly_atoms m.clock
  | use op => exact ⟨h.notifies, h.orderly⟩
  | act i x t left hx =>
    refine ⟨(a.service.notifies_atom x t).trans h.notifies, fun y hy => ?_⟩
    rcases List.mem_or_eq_of_mem_set hy with hy | rfl
    · exact h.orderly y hy
    · have hall := h.orderly _ (List.mem_of_getElem? hx)
      exact Call.Orderly.tail hall

theorem filing_withPool {s : Service} (h : Filing s a) (p : Pool Delivery) :
    Filing s (a.withPool p) :=
  ⟨h.notifies, h.orderly⟩

/-- What calls on the given service have submitted, whether the pool has taken it or not. -/
def created (s : Service) (a : Front) : List Delivery :=
  a.crowd.steps.filterMap fun y => y.1.creation? s y.2

/-- **What has been submitted since some moment**, and what calls that have begun since then have
to do with it. -/
structure Since (s : Service) (a b : Front) (new : List Delivery) : Prop where
  created : b.created s = a.created s ++ new
  begun : a.crowd.activities.length ≤ b.crowd.activities.length
  later : ((b.crowd.activities.drop a.crowd.activities.length).filterMap (filed? s)).Subperm new

theorem since_self (s : Service) (a : Front) : Since s a a [] := by
  refine ⟨(List.append_nil _).symm, Nat.le_refl _, ?_⟩
  rw [List.drop_length]
  exact List.Subperm.refl _

theorem since_withPool {s : Service} {new : List Delivery} (h : Since s a b new)
    (p : Pool Delivery) : Since s a (b.withPool p) new :=
  ⟨h.created, h.begun, h.later⟩

theorem since_use {s : Service} {new : List Delivery} (h : Since s a b new) (op : RegistryOp) :
    Since s a (b.use op) new :=
  ⟨h.created, h.begun, h.later⟩

/-- A call that has only begun has submitted nothing. -/
theorem since_enter {s : Service} {new : List Delivery} (h : Since s a b new) (m : Moment)
    (c : Call) : Since s a (b.enter m c) new := by
  have hlength : (b.enter m c).crowd.activities.length = b.crowd.activities.length + 1 :=
    List.length_append
  have hbegun := h.begun
  refine ⟨h.created, by omega, ?_⟩
  have hnotify := (c.mem_atoms m.clock).2.1
  have hnone : filed? s { moment := m, call := c, left := c.atoms m.clock } = none :=
    Activity.done?_begun (hnotify.imp_right Account.creation?_eq_none)
  have hlater := h.later
  simp only [enter, Crowd.enter]
  rw [List.drop_append_of_le_length hbegun, List.filterMap_append, filterMap_cons_toList, hnone]
  exact (List.append_nil _).symm ▸ hlater

/-- **What a step submits is added at the end**, whichever call makes the step. -/
theorem since_make {s : Service} {new : List Delivery} (h : Since s a b new) (hf : Filing s b)
    {i : Nat} {x : Account} {t : Atom} {left : List Atom}
    (hx : b.crowd.activities[i]? = some ⟨x, t :: left⟩) :
    Since s a (b.make i x t left) (new ++ (x.creation? s t).toList) := by
  have horderly : x.call.Orderly (t :: left) := hf.orderly _ (List.mem_of_getElem? hx)
  have hlength : (b.make i x t left).crowd.activities.length = b.crowd.activities.length :=
    List.length_set
  have hcreated : (b.make i x t left).created s = b.created s ++ (x.creation? s t).toList :=
    Crowd.filterMap_make _ i x t left
  refine ⟨?_, by rw [hlength]; exact h.begun, ?_⟩
  · rw [hcreated, h.created, List.append_assoc]
  have hset : (b.make i x t left).crowd.activities =
      b.crowd.activities.set i ⟨b.service.account x t, left⟩ := rfl
  rw [hset, List.drop_set]
  split
  · -- a call that had begun before
    exact h.later.trans (List.sublist_append_left _ _).subperm
  · next hi =>
    have hx' : (b.crowd.activities.drop a.crowd.activities.length)[i - a.crowd.activities.length]? =
        some ⟨x, t :: left⟩ := by
      rw [List.getElem?_drop, Nat.add_sub_cancel' (Nat.le_of_not_lt hi)]
      exact hx
    have hperm := perm_filterMap_set (List.Perm.refl _) hx'
      (Crowd.toList_done?_creation s horderly (b.service.atom x t).result)
    exact hperm.symm.subperm.trans ((List.subperm_append_right _).2 h.later)

/-! ## Without webhooks -/

/-- The front without everything that has to do with webhooks. -/
def quiet (a : Front) : Front := { a with crowd := a.crowd.quiet }

/-- **A step at a front is one without webhooks as well.** -/
theorem quiet_step (he : a.Stepped e b) : a.quiet.step? e.anonymous = some b.quiet := by
  cases he with
  | begin m c =>
    have henter := Crowd.quiet_enter a.crowd m c
    simp only [FrontEvent.anonymous, step?, quiet, enter, henter]
  | use op => rfl
  | act i x t left hx =>
    have hx' : a.quiet.crowd.activities[i]? = some ⟨x.anonymous, t :: left⟩ := by
      simp only [quiet, Crowd.quiet, List.getElem?_map, hx]
      rfl
    have hop : x.anonymous.op? t = x.op? t := by cases t <;> rfl
    have hmake := Crowd.quiet_make a.crowd i x t left
    refine (step?_act hx').trans ?_
    simp only [quiet, make, hmake, hop]

/-- A step that is possible without webhooks is possible with them. -/
theorem exists_step (h : (a.quiet.step? e.anonymous).isSome) : ∃ b, a.step? e = some b := by
  cases e with
  | begin m c => exact ⟨_, rfl⟩
  | use op => exact ⟨_, rfl⟩
  | act i =>
    simp only [FrontEvent.anonymous, step?, quiet, Crowd.quiet, List.getElem?_map] at h
    cases hx : a.crowd.activities[i]? with
    | none =>
      rw [hx] at h
      cases h
    | some y =>
      obtain ⟨x, left⟩ := y
      cases left with
      | nil =>
        rw [hx] at h
        cases h
      | cons t left => exact ⟨_, step?_act hx⟩

end Front

end RoomWatch
