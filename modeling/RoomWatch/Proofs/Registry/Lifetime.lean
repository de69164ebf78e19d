import Mathlib.Data.Set.Card
import RoomWatch.Proofs.Registry.Buffers

/-!
# The lifetime of a worker

A worker is called to open buffers, to release them and to close, in any order (`WorkerRun.run`).
Its history is the list of these calls, each with what it has been answered. What a worker answers
next can be read off from its history alone.

* `recorded`: a call of the history has been answered by the worker to which the earlier calls led.
* `tracks_step`: **every call keeps the worker in agreement with its history.**
* `oneWay_of_calls`: **a worker is a map with a one-way close.**
-/

namespace RoomWatch

namespace Table

variable {κ υ : Type} [DecidableEq κ]

/-- The size of a table is the number of keys that have a value. -/
theorem size_eq_ncard (t : Table κ υ) : t.size = {k | (t.find? k).isSome = true}.ncard := by
  have hkeys : {k | (t.find? k).isSome = true} = (t.keys.toFinset : Set κ) := by
    ext k
    have hnone := t.find?_eq_none_iff k
    rw [Set.mem_ofPred_eq, Finset.mem_coe, List.mem_toFinset, Option.isSome_iff_ne_none, Ne, hnone,
      not_not]
  have hsize : t.size = t.keys.length := (List.length_map ..).symm
  rw [hkeys, Set.ncard_coe_finset, hsize]
  exact (List.toFinset_card_of_nodup t.nodup).symm

end Table

/-! ## Calls -/

/-- What a worker may be called for. -/
inductive WorkerOp where
  | addBuffer (ssrc : Ssrc) (trackSid : String)
  | removeBuffer (ssrc : Ssrc)
  | close

/-- A call of a worker with what it has been answered. -/
inductive WorkerCall where
  | added (ssrc : Ssrc) (trackSid : String) (opened : Bool)
  | removed (ssrc : Ssrc) (buffer : Option TrackBuffer)
  | closed (released : Nat)
  deriving DecidableEq

/-- What a call leaves, what it is answered and what it logs. -/
def WorkerOp.perform (w : Worker) : WorkerOp → Outcome Worker WorkerCall
  | .addBuffer ssrc trackSid =>
    ⟨(w.addBuffer ssrc trackSid).1, .added ssrc trackSid (w.addBuffer ssrc trackSid).2, []⟩
  | .removeBuffer ssrc =>
    ⟨(w.removeBuffer ssrc).state, .removed ssrc (w.removeBuffer ssrc).result,
      (w.removeBuffer ssrc).log⟩
  | .close => ⟨w.close.state, .closed w.close.result, w.close.log⟩

namespace WorkerCall

/-- What the worker has been called for. -/
def op : WorkerCall → WorkerOp
  | .added ssrc trackSid _ => .addBuffer ssrc trackSid
  | .removed ssrc _ => .removeBuffer ssrc
  | .closed _ => .close

/-- A call that has opened a buffer for an ssrc. -/
def Opens (ssrc : Ssrc) (c : WorkerCall) : Prop := ∃ trackSid, c = .added ssrc trackSid true

/-- A call after which no buffer is open for an ssrc. -/
def Ends (ssrc : Ssrc) : WorkerCall → Prop
  | .added _ _ _ => False
  | .removed other _ => other = ssrc
  | .closed _ => True

/-- What closing has been answered. -/
def released? : WorkerCall → Option Nat
  | .closed released => some released
  | _ => none

end WorkerCall

theorem WorkerOp.op_perform (w : Worker) (op : WorkerOp) : (op.perform w).result.op = op := by
  cases op <;> rfl

theorem WorkerOp.identity_perform (w : Worker) (op : WorkerOp) :
    (op.perform w).state.identity = w.identity := by
  cases op with
  | addBuffer ssrc trackSid => exact w.identity_addBuffer ssrc trackSid
  | removeBuffer ssrc => exact w.identity_removeBuffer ssrc
  | close => exact w.identity_close

/-! ## Histories -/

/-- What a worker has been called for and what it has answered, the first call first. -/
abbrev WorkerHistory := List WorkerCall

namespace WorkerHistory

open WorkerCall

/-- What closing has been answered, each time. -/
def closings (h : WorkerHistory) : List Nat := h.filterMap released?

/-- A buffer has been opened for an ssrc, and since then it has not been released, nor has the
worker been closed. -/
def Held (ssrc : Ssrc) (h : WorkerHistory) : Prop := Lasts (Opens ssrc) (fun c => ¬c.Ends ssrc) h

/-- The latest buffer that has been opened for an ssrc is one for the given track, and since then
it has not been released, nor has the worker been closed. -/
def HeldFor (ssrc : Ssrc) (trackSid : String) (h : WorkerHistory) : Prop :=
  Lasts (· = .added ssrc trackSid true) (fun c => ¬c.Ends ssrc ∧ ¬c.Opens ssrc) h

variable {ssrc : Ssrc} {trackSid : String} {h : WorkerHistory}

theorem held_iff : h.Held ssrc ↔ ∃ trackSid, h.HeldFor ssrc trackSid := by
  constructor
  · intro hheld
    obtain ⟨earlier, c, later, hsplit, ⟨trackSid, hopens⟩, hlater⟩ := Lasts.latest hheld
    exact ⟨trackSid, earlier, c, later, hsplit, hopens, hlater⟩
  · rintro ⟨trackSid, earlier, c, later, hsplit, hopens, hlater⟩
    exact ⟨earlier, c, later, hsplit, ⟨trackSid, hopens⟩, fun d hd => (hlater d hd).1⟩

theorem closings_concat (h : WorkerHistory) (c : WorkerCall) :
    closings (h ++ [c]) = h.closings ++ c.released?.toList := by
  rw [closings, List.filterMap_append]
  cases hc : c.released? <;> simp [closings, hc]

theorem heldFor_added_true (other : Ssrc) (sid : String) :
    HeldFor ssrc trackSid (h ++ [.added other sid true]) ↔
      if ssrc = other then trackSid = sid else h.HeldFor ssrc trackSid := by
  rw [HeldFor, lasts_concat]
  split
  · next he =>
    subst he
    simp [Opens, eq_comm]
  · next hne =>
    have hother : ¬other = ssrc := fun h => hne h.symm
    simp [Opens, Ends, hother, HeldFor]

theorem heldFor_added_false (other : Ssrc) (sid : String) :
    HeldFor ssrc trackSid (h ++ [.added other sid false]) ↔ h.HeldFor ssrc trackSid := by
  rw [HeldFor, lasts_concat]
  simp [Opens, Ends, HeldFor]

theorem heldFor_removed (other : Ssrc) (buffer : Option TrackBuffer) :
    HeldFor ssrc trackSid (h ++ [.removed other buffer]) ↔
      ssrc ≠ other ∧ h.HeldFor ssrc trackSid := by
  rw [HeldFor, lasts_concat]
  simp [Opens, Ends, HeldFor, eq_comm]

theorem not_heldFor_closed (released : Nat) :
    ¬HeldFor ssrc trackSid (h ++ [.closed released]) := by
  rw [HeldFor, lasts_concat]
  simp [Ends]

end WorkerHistory

/-! ## Runs -/

/-- A worker in the course of a run. -/
structure WorkerRun where
  worker : Worker
  history : WorkerHistory := []
  log : List LogLine := []

namespace WorkerRun

open WorkerHistory

def step (a : WorkerRun) (op : WorkerOp) : WorkerRun where
  worker := (op.perform a.worker).state
  history := a.history ++ [(op.perform a.worker).result]
  log := a.log ++ (op.perform a.worker).log

/-- A run from a worker that has not been called yet. -/
def run (w : Worker) (ops : List WorkerOp) : WorkerRun := ops.foldl step { worker := w }

/-- The lines that say that a worker has been closed. -/
def closingLines (log : List LogLine) : List LogLine :=
  log.filter fun line => line.message = "Stats worker closed"

theorem closingLines_append (log more : List LogLine) :
    closingLines (log ++ more) = closingLines log ++ closingLines more := List.filter_append ..

theorem closingLines_removeBuffer (w : Worker) (ssrc : Ssrc) :
    closingLines (w.removeBuffer ssrc).log = [] := by
  unfold Worker.removeBuffer
  split
  · rfl
  · exact List.filter_cons_of_neg (by simp [LogLine.message])

theorem closingLines_close (w : Worker) :
    closingLines w.close.log =
      if w.closed then [] else [.workerClosed w.participantId w.roomId w.close.result] := by
  unfold Worker.close
  split
  · rfl
  · exact List.filter_cons_of_pos (by simp [LogLine.message])

variable {a : WorkerRun} {w : Worker} {ops : List WorkerOp}

theorem run_concat (w : Worker) (ops : List WorkerOp) (op : WorkerOp) :
    run w (ops ++ [op]) = (run w ops).step op := by
  rw [run, List.foldl_append]
  rfl

theorem closings_step (a : WorkerRun) (op : WorkerOp) :
    (a.step op).history.closings =
      a.history.closings ++ (op.perform a.worker).result.released?.toList := closings_concat _ _

/-- Closing has been answered if and only if the worker has been called to close. -/
theorem closings_ne_nil_iff (w : Worker) (ops : List WorkerOp) :
    (run w ops).history.closings ≠ [] ↔ .close ∈ ops := by
  induction ops using List.reverseRecOn with
  | nil => exact iff_of_false (absurd rfl) List.not_mem_nil
  | append_singleton ops op ih =>
    rw [run_concat, closings_step, List.mem_append, ← ih]
    cases op <;> simp [WorkerOp.perform, WorkerCall.released?]

theorem ops_history (w : Worker) (ops : List WorkerOp) :
    (run w ops).history.map WorkerCall.op = ops := by
  induction ops using List.reverseRecOn with
  | nil => rfl
  | append_singleton ops op ih =>
    rw [run_concat, step, List.map_append, ih, List.map_singleton, WorkerOp.op_perform]

/-- **A call of the history has been answered by the worker to which the earlier calls led**, and
those are the history of that worker. -/
theorem recorded {earlier later : WorkerHistory} {c : WorkerCall}
    (hsplit : (run w ops).history = earlier ++ c :: later) :
    (run w (earlier.map WorkerCall.op)).history = earlier ∧
      (c.op.perform (run w (earlier.map WorkerCall.op)).worker).result = c := by
  induction ops using List.reverseRecOn generalizing later with
  | nil => cases earlier <;> cases hsplit
  | append_singleton ops op ih =>
    rw [run_concat] at hsplit
    rcases split_concat hsplit with ⟨rfl, rfl, -⟩ | ⟨init, -, hinit⟩
    · -- the last call of all: the earlier ones are the run before it
      rw [ops_history, WorkerOp.op_perform]
      exact ⟨rfl, rfl⟩
    · exact ih hinit

/-- **A worker in agreement with its history**, if it was `w` before its first call. -/
structure Tracks (w : Worker) (a : WorkerRun) : Prop where
  identity : a.worker.identity = w.identity
  closed : a.worker.closed = true ↔ a.history.closings ≠ []
  buffers : ∀ ssrc b, a.worker.buffers.find? ssrc = some b ↔
    b.ssrc = ssrc ∧ a.history.HeldFor ssrc b.trackSid
  lines : closingLines a.log =
    a.history.closings.head?.toList.map (.workerClosed w.participantId w.roomId)

theorem Tracks.closings_eq_nil_iff (h : Tracks w a) :
    a.history.closings = [] ↔ a.worker.closed = false := by
  rw [← Bool.not_eq_true, h.closed, not_not]

theorem tracks_new (roomId roomName participantId : String) :
    Tracks (.new roomId roomName participantId)
      { worker := .new roomId roomName participantId } := by
  refine ⟨rfl, ⟨nofun, fun h => absurd rfl h⟩, fun ssrc b => ⟨nofun, fun h => ?_⟩, rfl⟩
  exact absurd h.2 not_lasts_nil

theorem tracks_addBuffer (h : Tracks w a) (ssrc : Ssrc) (trackSid : String) :
    Tracks w (a.step (.addBuffer ssrc trackSid)) := by
  have hclosings : (a.step (.addBuffer ssrc trackSid)).history.closings = a.history.closings :=
    (closings_step a _).trans (List.append_nil _)
  refine ⟨(WorkerOp.identity_perform _ _).trans h.identity, ?_, fun other b => ?_, ?_⟩
  · rw [hclosings, ← h.closed]
    exact Eq.congr (a.worker.closed_addBuffer ssrc trackSid) rfl
  · simp only [step, WorkerOp.perform, Worker.opened_addBuffer]
    cases hclosed : a.worker.closed with
    | true =>
      -- a refusal is a call that neither opens nor ends anything
      rw [a.worker.addBuffer_of_closed hclosed, Bool.not_true, heldFor_added_false]
      exact h.buffers other b
    | false =>
      rw [a.worker.find?_addBuffer hclosed, Bool.not_false, heldFor_added_true]
      split
      · next he =>
        obtain ⟨held, sid⟩ := b
        rw [he, Option.some.injEq, TrackBuffer.mk.injEq, eq_comm, eq_comm (a := trackSid)]
      · exact h.buffers other b
  · rw [hclosings, ← h.lines]
    exact congrArg closingLines (List.append_nil _)

theorem tracks_removeBuffer (h : Tracks w a) (ssrc : Ssrc) :
    Tracks w (a.step (.removeBuffer ssrc)) := by
  have hclosings : (a.step (.removeBuffer ssrc)).history.closings = a.history.closings :=
    (closings_step a _).trans (List.append_nil _)
  refine ⟨(WorkerOp.identity_perform _ _).trans h.identity, ?_, fun other b => ?_, ?_⟩
  · rw [hclosings, ← h.closed]
    exact Eq.congr (a.worker.closed_removeBuffer ssrc) rfl
  · simp only [step, WorkerOp.perform]
    rw [a.worker.find?_removeBuffer, heldFor_removed]
    split
    · next he => simp [he]
    · next hne => simp [hne, h.buffers]
  · rw [hclosings, ← h.lines]
    simp [step, WorkerOp.perform, closingLines_append, closingLines_removeBuffer]

theorem tracks_close (h : Tracks w a) : Tracks w (a.step .close) := by
  have hclosings : (a.step .close).history.closings =
      a.history.closings ++ [a.worker.close.result] := closings_step a .close
  refine ⟨(WorkerOp.identity_perform _ _).trans h.identity, ?_, fun other b => ?_, ?_⟩
  · rw [hclosings]
    exact iff_of_true a.worker.closed_close
      (List.append_ne_nil_of_right_ne_nil _ (List.cons_ne_nil _ _))
  · simp only [step, WorkerOp.perform]
    rw [Worker.empty_of_closed _ a.worker.closed_close, Table.find?_empty]
    exact iff_of_false (Option.some_ne_none b).symm fun hb => not_heldFor_closed _ hb.2
  · have hlog : closingLines (a.step .close).log =
        closingLines a.log ++ closingLines a.worker.close.log := closingLines_append _ _
    rw [hclosings, hlog, h.lines, closingLines_close]
    cases hclosed : a.worker.closed with
    | true =>
      -- the line has been logged before, and so has the first answer been given
      obtain ⟨n, ns, hn⟩ := List.exists_cons_of_ne_nil (h.closed.1 hclosed)
      simp [hn]
    | false =>
      have hnone := h.closings_eq_nil_iff.2 hclosed
      have hidentity := h.identity
      simp only [Worker.identity, Prod.mk.injEq] at hidentity
      obtain ⟨hroom, -, hparticipant⟩ := hidentity
      simp [hnone, hroom, hparticipant]

/-- **Every call keeps the worker in agreement with its history.** -/
theorem tracks_step (h : Tracks w a) (op : WorkerOp) : Tracks w (a.step op) := by
  cases op with
  | addBuffer ssrc trackSid => exact tracks_addBuffer h ssrc trackSid
  | removeBuffer ssrc => exact tracks_removeBuffer h ssrc
  | close => exact tracks_close h

theorem tracks_run (roomId roomName participantId : String) (ops : List WorkerOp) :
    Tracks (.new roomId roomName participantId) (run (.new roomId roomName participantId) ops) := by
  induction ops using List.reverseRecOn with
  | nil => exact tracks_new roomId roomName participantId
  | append_singleton ops op ih =>
    rw [run_concat]
    exact tracks_step ih op

/-! ## Answers -/

/-- Whether a buffer is opened depends on closing alone. -/
theorem Tracks.opened_addBuffer (h : Tracks w a) (ssrc : Ssrc) (trackSid : String) :
    (a.worker.addBuffer ssrc trackSid).2 = true ↔ a.history.closings = [] := by
  rw [h.closings_eq_nil_iff, Worker.opened_addBuffer, Bool.not_eq_true']

theorem Tracks.result_removeBuffer (h : Tracks w a) (ssrc : Ssrc) :
    ((a.worker.removeBuffer ssrc).result.isSome = true ↔ a.history.Held ssrc) ∧
      ∀ b, (a.worker.removeBuffer ssrc).result = some b →
        b.ssrc = ssrc ∧ a.history.HeldFor ssrc b.trackSid := by
  rw [Worker.result_removeBuffer]
  refine ⟨?_, fun b => (h.buffers ssrc b).1⟩
  rw [held_iff, Option.isSome_iff_exists]
  constructor
  · rintro ⟨b, hb⟩
    exact ⟨b.trackSid, ((h.buffers ssrc b).1 hb).2⟩
  · rintro ⟨trackSid, hheld⟩
    exact ⟨⟨ssrc, trackSid⟩, (h.buffers ssrc ⟨ssrc, trackSid⟩).2 ⟨rfl, hheld⟩⟩

theorem Tracks.result_close (h : Tracks w a) :
    a.worker.close.result = if a.history.closings = [] then a.worker.bufferCount else 0 := by
  rw [Worker.result_close]
  split
  · rfl
  · next hclosings => exact Worker.bufferCount_of_closed (h.closed.2 hclosings)

/-- **A map with a one-way close**, in the run of a worker through the given calls. -/
structure OneWay (w : Worker) (ops : List WorkerOp) : Prop where
  /-- Every call is answered. -/
  answered : (run w ops).history.map WorkerCall.op = ops
  /-- A buffer is opened exactly if the worker has not been closed before. -/
  opens : ∀ earlier ssrc trackSid opened later,
    (run w ops).history = earlier ++ .added ssrc trackSid opened :: later →
    (opened = true ↔ closings earlier = [])
  /-- A buffer is released exactly if one has been opened for the ssrc that nothing has ended since:
  the one that has been opened last. -/
  releases : ∀ earlier ssrc buffer later,
    (run w ops).history = earlier ++ .removed ssrc buffer :: later →
    (buffer.isSome = true ↔ Held ssrc earlier) ∧
      ∀ b, buffer = some b → b.ssrc = ssrc ∧ HeldFor ssrc b.trackSid earlier
  /-- The buffers that are counted are those that could be released. -/
  counts : (run w ops).worker.bufferCount =
    {ssrc | ((run w ops).worker.removeBuffer ssrc).result.isSome = true}.ncard
  /-- Closing releases what is open the first time, and nothing any more after that. -/
  closes : ∀ earlier released later,
    (run w ops).history = earlier ++ .closed released :: later →
    released = if closings earlier = [] then
      (run w (earlier.map WorkerCall.op)).worker.bufferCount else 0
  /-- A worker that has been closed is without buffers whatever comes after that. -/
  empty : .close ∈ ops → ∀ later, (run w (ops ++ later)).worker.buffers = .empty
  identity : (run w ops).worker.identity = w.identity
  /-- One line says that the worker has been closed, and how many buffers the first close has
  released. -/
  once : .close ∈ ops → ∃ released, (run w ops).history.closings.head? = some released ∧
    closingLines (run w ops).log = [.workerClosed w.participantId w.roomId released]
  silent : .close ∉ ops → closingLines (run w ops).log = []

/-- **A worker is a map with a one-way close**, whatever it is called for. -/
theorem oneWay_of_calls (roomId roomName participantId : String) (ops : List WorkerOp) :
    OneWay (.new roomId roomName participantId) ops := by
  have htracks := tracks_run roomId roomName participantId
  generalize Worker.new roomId roomName participantId = w at htracks ⊢
  refine ⟨ops_history w ops, ?_, ?_, ?_, ?_, ?_, (htracks ops).identity, ?_, ?_⟩
  · intro earlier ssrc trackSid opened later hsplit
    obtain ⟨hearlier, hanswer⟩ := recorded hsplit
    have hopened := (htracks (earlier.map WorkerCall.op)).opened_addBuffer ssrc trackSid
    obtain ⟨-, -, rfl⟩ := WorkerCall.added.inj hanswer
    rw [hearlier] at hopened
    exact hopened
  · intro earlier ssrc buffer later hsplit
    obtain ⟨hearlier, hanswer⟩ := recorded hsplit
    have hreleased := (htracks (earlier.map WorkerCall.op)).result_removeBuffer ssrc
    obtain ⟨-, rfl⟩ := WorkerCall.removed.inj hanswer
    rw [hearlier] at hreleased
    exact hreleased
  · simp only [Worker.result_removeBuffer]
    exact Table.size_eq_ncard _
  · intro earlier released later hsplit
    obtain ⟨hearlier, hanswer⟩ := recorded hsplit
    have hclosed := (htracks (earlier.map WorkerCall.op)).result_close
    obtain rfl := WorkerCall.closed.inj hanswer
    rw [hearlier] at hclosed
    exact hclosed
  · intro hclose later
    have hmem : .close ∈ ops ++ later := List.mem_append_left _ hclose
    exact Worker.empty_of_closed _ ((htracks _).closed.2 ((closings_ne_nil_iff w _).2 hmem))
  · intro hclose
    obtain ⟨released, more, hclosings⟩ :=
      List.exists_cons_of_ne_nil ((closings_ne_nil_iff w ops).2 hclose)
    refine ⟨released, by rw [hclosings, List.head?_cons], ?_⟩
    rw [(htracks ops).lines, hclosings]
    rfl
  · intro hopen
    have hclosings := not_ne_iff.1 (mt (closings_ne_nil_iff w ops).1 hopen)
    rw [(htracks ops).lines, hclosings]
    rfl

/-- An ssrc is opened twice and released twice. Another one is open when the worker is closed, which
opens nothing and releases nothing from then on. -/
example : (run (.new "RM_1" "" "PA_1") [.addBuffer 7 "t", .addBuffer 7 "u", .removeBuffer 7,
      .removeBuffer 7, .addBuffer 8 "v", .close, .addBuffer 8 "v", .close]).history =
    [.added 7 "t" true, .added 7 "u" true, .removed 7 (some ⟨7, "u"⟩), .removed 7 none,
      .added 8 "v" true, .closed 1, .added 8 "v" false, .closed 0] := by
  decide

end WorkerRun

end RoomWatch
