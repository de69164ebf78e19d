import RoomWatch.Registry.Worker

/-!
# The worker registry

The registry holds one stats worker for each joined participant. Events that carry only a
participant id find the participant's room here.

A worker never leaves the registry open: the operation that replaces it, removes it or clears
the registry closes it, and answers it as it is then.

* `find?_put`, `find?_removeAndClose`: what registering and removing do to the view.
* `find?_openTrack`, `find?_releaseTrack`: so do tracks, but they change only who is there.
* `closed_of_put`, `closed_of_removeAndClose`, `closed_of_closeAll`: workers that leave are closed.
-/

namespace RoomWatch

/-- The room of a participant; empty texts if the participant has no worker. -/
structure RoomContext where
  roomId : String := ""
  roomName : String := ""
  deriving DecidableEq

def RoomContext.IsEmpty (c : RoomContext) : Prop := c.roomId = "" ∧ c.roomName = ""

instance (c : RoomContext) : Decidable c.IsEmpty := inferInstanceAs (Decidable (_ ∧ _))

/-- The room that a worker knows. -/
def Worker.context (w : Worker) : RoomContext := ⟨w.roomId, w.roomName⟩

/-- A worker that stays who it is knows the same room. -/
theorem Worker.context_eq {w v : Worker} (h : w.identity = v.identity) : w.context = v.context := by
  simp only [identity, Prod.mk.injEq] at h
  simp only [context, h]

/-- The registered workers by participant id. -/
abbrev Registry := Table String Worker

namespace Registry

/-- Registers a worker under a participant id; answers the worker that it replaces, closed. -/
def put (r : Registry) (id : String) (w : Worker) : Outcome Registry (Option Worker) :=
  let after := r.insert id w
  match r.find? id with
  | some previous =>
    let closing := previous.close
    ⟨after, some closing.state, closing.log ++ [.workerReplaced id previous.roomId w.roomId]⟩
  | none => ⟨after, none, [.workerRegistered id w.roomId after.size]⟩

/-- The room of a participant. -/
def get (r : Registry) (id : String) : RoomContext := ((r.find? id).map Worker.context).getD {}

def contains (r : Registry) (id : String) : Bool := (r.find? id).isSome

/-- The number of open buffers of a participant's worker. -/
def bufferCount? (r : Registry) (id : String) : Option Nat := (r.find? id).map Worker.bufferCount

/-- Removes a participant's worker; answers it, closed, if there was one. -/
def removeAndClose (r : Registry) (id : String) : Outcome Registry (Option Worker) :=
  match r.find? id with
  | none => ⟨r, none, []⟩
  | some w =>
    let after := r.erase id
    let closing := w.close
    ⟨after, some closing.state,
      closing.log ++ [.workerRemoved id w.roomId closing.result after.size]⟩

/-- Opens a track buffer on a participant's worker; refused if there is none. -/
def openTrack (r : Registry) (id : String) (ssrc : Ssrc) (trackSid : String) : Registry × Bool :=
  match r.find? id with
  | none => (r, false)
  | some w => (r.insert id (w.addBuffer ssrc trackSid).1, (w.addBuffer ssrc trackSid).2)

/-- Releases a track buffer of a participant's worker, and answers the room of that worker. -/
def releaseTrack (r : Registry) (id : String) (ssrc : Ssrc) : Outcome Registry RoomContext :=
  match r.find? id with
  | none => ⟨r, {}, []⟩
  | some w =>
    let released := w.removeBuffer ssrc
    ⟨r.insert id released.state, w.context, released.log⟩

/-- Removes every worker; answers them, closed. -/
def closeAll (r : Registry) : Outcome Registry (List Worker) :=
  let closings := r.values.map Worker.close
  ⟨.empty, closings.map Outcome.state,
    closings.flatMap Outcome.log ++ if r.size = 0 then [] else [.allWorkersClosed r.size]⟩

theorem find?_put (r : Registry) (id other : String) (w : Worker) :
    (r.put id w).state.find? other = if other = id then some w else r.find? other := by
  unfold put
  split <;> exact Table.find?_insert ..

theorem find?_removeAndClose (r : Registry) (id other : String) :
    (r.removeAndClose id).state.find? other = if other = id then none else r.find? other := by
  unfold removeAndClose
  split
  · next h =>
    split
    · next he => rw [he, h]
    · rfl
  · exact Table.find?_erase ..

theorem find?_openTrack (r : Registry) (id other : String) (ssrc : Ssrc) (trackSid : String) :
    (r.openTrack id ssrc trackSid).1.find? other =
      if other = id then (r.find? id).map fun w => (w.addBuffer ssrc trackSid).1
      else r.find? other := by
  unfold openTrack
  split
  · next h =>
    split
    · next he => rw [he, h]; rfl
    · rfl
  · next w h => rw [h]; exact Table.find?_insert ..

theorem find?_releaseTrack (r : Registry) (id other : String) (ssrc : Ssrc) :
    (r.releaseTrack id ssrc).state.find? other =
      if other = id then (r.find? id).map fun w => (w.removeBuffer ssrc).state
      else r.find? other := by
  unfold releaseTrack
  split
  · next h =>
    split
    · next he => rw [he, h]; rfl
    · rfl
  · next w h => rw [h]; exact Table.find?_insert ..

/-- Releasing a track answers the room that looking it up would. -/
theorem result_releaseTrack (r : Registry) (id : String) (ssrc : Ssrc) :
    (r.releaseTrack id ssrc).result = r.get id := by
  unfold releaseTrack get
  split <;> next h => rw [h]; rfl

theorem result_put (r : Registry) (id : String) (w : Worker) :
    (r.put id w).result = (r.find? id).map fun v => v.close.state := by
  unfold put
  split <;> next h => rw [h]; rfl

theorem result_removeAndClose (r : Registry) (id : String) :
    (r.removeAndClose id).result = (r.find? id).map fun v => v.close.state := by
  unfold removeAndClose
  split <;> next h => rw [h]; rfl

theorem closed_of_put {r : Registry} {id : String} {w previous : Worker}
    (h : (r.put id w).result = some previous) : previous.closed = true := by
  rw [result_put, Option.map_eq_some_iff] at h
  obtain ⟨v, -, rfl⟩ := h
  exact Worker.closed_close v

theorem closed_of_removeAndClose {r : Registry} {id : String} {w : Worker}
    (h : (r.removeAndClose id).result = some w) : w.closed = true := by
  rw [result_removeAndClose, Option.map_eq_some_iff] at h
  obtain ⟨v, -, rfl⟩ := h
  exact Worker.closed_close v

theorem closed_of_closeAll {r : Registry} {w : Worker} (h : w ∈ r.closeAll.result) :
    w.closed = true := by
  simp only [closeAll, List.map_map, List.mem_map, Function.comp] at h
  obtain ⟨v, _, rfl⟩ := h
  exact Worker.closed_close v

end Registry

end RoomWatch
