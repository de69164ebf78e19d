import RoomWatch.Log
import RoomWatch.Table

/-!
# Stats workers

A stats worker stands for one joined participant. It knows the participant's room and holds
a buffer for each open track. Closing is one-way: a closed worker has no buffers and takes
none (`Worker.empty_of_closed`). Nothing changes who a worker is (`Worker.identity`).
-/

namespace RoomWatch

/-- A handle to the buffer of a track. -/
structure TrackBuffer where
  ssrc : Ssrc
  trackSid : String
  deriving DecidableEq

structure Worker where
  roomId : String
  roomName : String
  participantId : String
  /-- The open buffers by ssrc. -/
  buffers : Table Ssrc TrackBuffer := .empty
  closed : Bool := false
  empty_of_closed : closed = true → buffers = .empty := by nofun

namespace Worker

/-- An open worker without buffers. -/
def new (roomId roomName participantId : String) : Worker where
  roomId := roomId
  roomName := roomName
  participantId := participantId

/-- The number of open buffers. -/
def bufferCount (w : Worker) : Nat := w.buffers.size

/-- Opens a buffer, in place of an earlier one for the same ssrc; refused by a closed worker. -/
def addBuffer (w : Worker) (ssrc : Ssrc) (trackSid : String) : Worker × Bool :=
  if h : w.closed then (w, false)
  else
    ({ w with
      buffers := w.buffers.insert ssrc ⟨ssrc, trackSid⟩
      empty_of_closed := fun hc => absurd hc h }, true)

/-- The worker without the buffer of an ssrc. -/
def dropBuffer (w : Worker) (ssrc : Ssrc) : Worker :=
  { w with
    buffers := w.buffers.erase ssrc
    empty_of_closed := fun hc => by rw [w.empty_of_closed hc]; rfl }

/-- Releases the buffer of an ssrc; answers it, if there was one. -/
def removeBuffer (w : Worker) (ssrc : Ssrc) : Outcome Worker (Option TrackBuffer) :=
  match w.buffers.find? ssrc with
  | none => ⟨w, none, []⟩
  | some buffer =>
    ⟨w.dropBuffer ssrc, some buffer, [.bufferReleased w.participantId ssrc buffer.trackSid]⟩

/-- Closes the worker and releases its buffers; answers how many this call has released. -/
def close (w : Worker) : Outcome Worker Nat :=
  if w.closed then ⟨w, 0, []⟩
  else
    ⟨{ w with buffers := .empty, closed := true, empty_of_closed := fun _ => rfl },
      w.bufferCount, [.workerClosed w.participantId w.roomId w.bufferCount]⟩

theorem closed_close (w : Worker) : w.close.state.closed = true := by
  unfold close
  split
  · assumption
  · rfl

/-- What a worker is told once and for all. -/
def identity (w : Worker) : String × String × String := (w.roomId, w.roomName, w.participantId)

theorem identity_close (w : Worker) : w.close.state.identity = w.identity := by
  unfold close; split <;> rfl

theorem identity_addBuffer (w : Worker) (ssrc : Ssrc) (trackSid : String) :
    (w.addBuffer ssrc trackSid).1.identity = w.identity := by
  unfold addBuffer; split <;> rfl

theorem identity_removeBuffer (w : Worker) (ssrc : Ssrc) :
    (w.removeBuffer ssrc).state.identity = w.identity := by
  unfold removeBuffer; split <;> rfl

theorem closed_addBuffer (w : Worker) (ssrc : Ssrc) (trackSid : String) :
    (w.addBuffer ssrc trackSid).1.closed = w.closed := by
  unfold addBuffer; split <;> rfl

theorem closed_removeBuffer (w : Worker) (ssrc : Ssrc) :
    (w.removeBuffer ssrc).state.closed = w.closed := by
  unfold removeBuffer; split <;> rfl

theorem bufferCount_of_closed {w : Worker} (h : w.closed = true) : w.bufferCount = 0 := by
  rw [bufferCount, w.empty_of_closed h]
  rfl

end Worker

end RoomWatch
