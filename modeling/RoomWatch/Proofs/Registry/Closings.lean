import Mathlib.Algebra.Ring.Nat
import Mathlib.Data.List.Induction
import RoomWatch.Proofs.Registry.Roster

/-!
# What is logged about workers that are torn down

An operation that tears workers down says so in its log: one line for each of them that was open,
with the number of its buffers.

* `torn_eq`: the workers that an operation tears down are those that leave, closed.
* `closingsIn_log`, `releases_log`: what the log of an operation says of workers and of buffers.
* `closed_of_torn`: **whoever has been torn down in a run is closed.**
-/

namespace RoomWatch

/-- Whether a line says that a buffer has been released by itself. -/
def LogLine.isRelease : LogLine → Bool
  | .bufferReleased .. => true
  | _ => false

/-- What a log says of workers that have been closed: the participant, the room and how many buffers
have been released. -/
def closingsIn (log : List LogLine) : List (String × String × Nat) := log.filterMap LogLine.closing?

theorem closingsIn_append (l k : List LogLine) :
    closingsIn (l ++ k) = closingsIn l ++ closingsIn k :=
  List.filterMap_append

namespace Worker

variable (w : Worker)

/-- Who a worker is, to a reader of the log. -/
def badge : String × String := (w.participantId, w.roomId)

/-- What is said of a worker when it is closed. -/
def closing : List (String × String × Nat) :=
  if w.closed then [] else [(w.participantId, w.roomId, w.bufferCount)]

theorem closingsIn_close : closingsIn w.close.log = w.closing := by
  unfold close closing
  split <;> rfl

theorem releases_close : w.close.log.countP LogLine.isRelease = 0 := by
  unfold close
  split <;> rfl

/-- All buffers of a worker are released with it. -/
theorem sum_closing : (w.closing.map fun line => line.2.2).sum = w.bufferCount := by
  unfold closing
  split
  · next hclosed => exact (bufferCount_of_closed hclosed).symm
  · exact List.sum_singleton

theorem badge_eq {w v : Worker} (h : w.identity = v.identity) : w.badge = v.badge := by
  simp only [identity, Prod.mk.injEq] at h
  simp only [badge, h]

theorem closing_of_open {w : Worker} (hopen : w.closed = false) :
    w.closing.map (fun line => (line.1, line.2.1)) = [w.close.state.badge] := by
  rw [badge_eq w.identity_close, closing, if_neg (by rw [hopen]; exact Bool.false_ne_true)]
  rfl

/-- A buffer that is released is logged. -/
theorem releases_removeBuffer (ssrc : Ssrc) :
    (w.removeBuffer ssrc).log.countP LogLine.isRelease =
      (w.removeBuffer ssrc).result.isSome.toNat := by
  unfold removeBuffer
  split <;> rfl

theorem closingsIn_removeBuffer (ssrc : Ssrc) : closingsIn (w.removeBuffer ssrc).log = [] := by
  unfold removeBuffer
  split <;> rfl

end Worker

/-! ## The lines of an operation -/

namespace RegistryOp

variable (r : Registry) (op : RegistryOp)

/-- The workers that an operation tears down, as they are before it. -/
def leaving (r : Registry) : RegistryOp → List Worker
  | .put id _ | .removeAndClose id => (r.find? id).toList
  | .closeAll => r.values
  | .get _ | .contains _ | .bufferCount _ | .openTrack _ _ _ | .releaseTrack _ _ => []

theorem torn_eq : (op.perform r).2.2 = (op.leaving r).map fun w => w.close.state := by
  cases op with
  | put id w =>
    simp only [perform, leaving, Registry.result_put]
    cases r.find? id <;> rfl
  | removeAndClose id =>
    simp only [perform, leaving, Registry.result_removeAndClose]
    cases r.find? id <;> rfl
  | closeAll => exact List.map_map
  | get _ | contains _ | bufferCount _ | openTrack _ _ _ | releaseTrack _ _ => rfl

theorem closingsIn_closeAll (ws : List Worker) :
    closingsIn ((ws.map Worker.close).flatMap Outcome.log) = ws.flatMap Worker.closing := by
  induction ws with
  | nil => rfl
  | cons w ws ih =>
    rw [List.map_cons, List.flatMap_cons, closingsIn_append, w.closingsIn_close, ih,
      List.flatMap_cons]

theorem releases_closeAll (ws : List Worker) :
    ((ws.map Worker.close).flatMap Outcome.log).countP LogLine.isRelease = 0 := by
  induction ws with
  | nil => rfl
  | cons w ws ih => rw [List.map_cons, List.flatMap_cons, List.countP_append, w.releases_close, ih]

/-- **Workers that are torn down are logged**, each with its buffers. -/
theorem closingsIn_log : closingsIn (op.log r) = (op.leaving r).flatMap Worker.closing := by
  cases op with
  | put id w =>
    simp only [log, leaving, Registry.put]
    cases r.find? id with
    | none => rfl
    | some previous =>
      exact (closingsIn_append ..).trans (congrArg (· ++ []) previous.closingsIn_close)
  | removeAndClose id =>
    simp only [log, leaving, Registry.removeAndClose]
    cases r.find? id with
    | none => rfl
    | some w => exact (closingsIn_append ..).trans (congrArg (· ++ []) w.closingsIn_close)
  | closeAll =>
    refine (closingsIn_append ..).trans ?_
    rw [closingsIn_closeAll]
    have hnone : closingsIn (if r.size = 0 then [] else [.allWorkersClosed r.size]) = [] := by
      split <;> rfl
    rw [hnone, List.append_nil]
    rfl
  | releaseTrack id ssrc =>
    simp only [log, leaving, Registry.releaseTrack]
    cases r.find? id with
    | none => rfl
    | some w => exact w.closingsIn_removeBuffer ssrc
  | get _ | contains _ | bufferCount _ | openTrack _ _ _ => rfl

/-- **A buffer that is released by itself is logged**, and no other line says so. -/
theorem releases_log :
    (op.log r).countP LogLine.isRelease = match op with
      | .releaseTrack id ssrc =>
        ((r.find? id).bind fun w => (w.removeBuffer ssrc).result).isSome.toNat
      | _ => 0 := by
  cases op with
  | put id w =>
    simp only [log, Registry.put]
    cases r.find? id with
    | none => rfl
    | some previous => exact List.countP_append.trans (congrArg (· + 0) previous.releases_close)
  | removeAndClose id =>
    simp only [log, Registry.removeAndClose]
    cases r.find? id with
    | none => rfl
    | some w => exact List.countP_append.trans (congrArg (· + 0) w.releases_close)
  | closeAll =>
    refine List.countP_append.trans ?_
    rw [releases_closeAll]
    split <;> rfl
  | releaseTrack id ssrc =>
    simp only [log, Registry.releaseTrack]
    cases r.find? id with
    | none => rfl
    | some w => exact w.releases_removeBuffer ssrc
  | get _ | contains _ | bufferCount _ | openTrack _ _ _ => rfl

/-- Whoever an operation tears down is closed. -/
theorem closed_of_mem_torn {w : Worker} (hw : w ∈ (op.perform r).2.2) : w.closed = true := by
  cases op with
  | put id v => exact Registry.closed_of_put (Option.mem_toList.1 hw)
  | removeAndClose id => exact Registry.closed_of_removeAndClose (Option.mem_toList.1 hw)
  | closeAll => exact Registry.closed_of_closeAll hw
  | get _ | contains _ | bufferCount _ | openTrack _ _ _ | releaseTrack _ _ =>
    exact absurd hw List.not_mem_nil

end RegistryOp

/-- Whom a log tells to have been closed. -/
def closedIn (log : List LogLine) : List (String × String) :=
  (closingsIn log).map fun line => (line.1, line.2.1)

theorem closedIn_append (l k : List LogLine) : closedIn (l ++ k) = closedIn l ++ closedIn k := by
  unfold closedIn
  rw [closingsIn_append, List.map_append]

/-- The log of an operation tells of all workers that it tears down, if they were open. -/
theorem RegistryOp.closedIn_log {r : Registry} {op : RegistryOp}
    (hopen : ∀ w ∈ op.leaving r, w.closed = false) :
    closedIn (op.log r) = (op.perform r).2.2.map Worker.badge := by
  unfold closedIn
  rw [op.closingsIn_log, op.torn_eq]
  -- each of them was open, and so has a line of its own
  generalize op.leaving r = ws at hopen ⊢
  induction ws with
  | nil => rfl
  | cons w ws ih =>
    obtain ⟨hw, hws⟩ := List.forall_mem_cons.1 hopen
    rw [List.flatMap_cons, List.map_append, Worker.closing_of_open hw, ih hws]
    rfl

/-! ## The workers of a run -/

namespace RegistryRun

theorem torn_concat (ops : List RegistryOp) (op : RegistryOp) :
    (run (ops ++ [op])).torn = (run ops).torn ++ (op.perform (run ops).registry).2.2 := by
  unfold run
  rw [List.foldl_append]
  rfl

/-- **Whoever has been torn down is closed.** -/
theorem closed_of_torn (ops : List RegistryOp) : ∀ w ∈ (run ops).torn, w.closed = true := by
  induction ops using List.reverseRecOn with
  | nil => exact List.forall_mem_nil _
  | append_singleton ops op ih =>
    rw [torn_concat]
    intro w hw
    rcases List.mem_append.1 hw with hw | hw
    · exact ih w hw
    · exact op.closed_of_mem_torn _ hw

end RegistryRun

end RoomWatch
