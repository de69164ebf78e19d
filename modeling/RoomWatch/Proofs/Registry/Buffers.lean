import Mathlib.Algebra.Ring.Nat
import Mathlib.Data.List.Induction
import RoomWatch.Proofs.Registry.Closings
import RoomWatch.Proofs.Registry.Tenure
import RoomWatch.Proofs.Runs

/-!
# What becomes of track buffers

A buffer that has been opened is open still, or another one has taken its place, or it has been
released by itself or with its worker.

* `tallied_step`: **no operation loses a buffer or makes one up**, by what it answers and logs.
* `open_step`: registered workers are open, so a track is refused only where nobody is registered.
* `find?_touch`, `stands_run`: a worker is what the operations after its registration have made of
  it, whatever was before.
* `kept_of_run`: **no track buffer leaks.**
-/

namespace RoomWatch

/-! ## Sums over tables -/

namespace Table

variable {κ υ : Type}

/-- A sum over the values of a table. -/
def total (t : Table κ υ) (f : υ → Nat) : Nat := (t.values.map f).sum

variable [DecidableEq κ]

theorem total_erase (t : Table κ υ) (k : κ) (f : υ → Nat) :
    (t.erase k).total f + ((t.find? k).map f).getD 0 = t.total f := by
  obtain ⟨es, hn⟩ := t
  simp only [total, values, erase, find?]
  induction es with
  | nil => rfl
  | cons e es ih =>
    rw [List.map_cons, List.nodup_cons] at hn
    rw [List.map_cons, List.map_cons, List.sum_cons]
    by_cases he : e.1 = k
    · -- no other entry has this key
      have hes : es.filter (fun x => decide (x.1 ≠ k)) = es := by
        refine List.filter_eq_self.2 fun x hx => decide_eq_true fun hk => ?_
        exact hn.1 (List.mem_map.2 ⟨x, hx, hk.trans he.symm⟩)
      rw [List.filter_cons_of_neg (by simp [he]), List.find?_cons_of_pos (by simp [he]), hes]
      exact Nat.add_comm _ _
    · have hrest := ih hn.2
      rw [List.filter_cons_of_pos (by simp [he]), List.find?_cons_of_neg (by simp [he]),
        List.map_cons, List.map_cons, List.sum_cons]
      omega

theorem total_insert (t : Table κ υ) (k : κ) (v : υ) (f : υ → Nat) :
    (t.insert k v).total f + ((t.find? k).map f).getD 0 = t.total f + f v := by
  have herase := t.total_erase k f
  have hlast : (t.insert k v).total f = (t.erase k).total f + f v := by
    simp [total, values, insert]
  omega

end Table

/-! ## Workers -/

namespace Worker

variable (w : Worker)

/-- Closing a worker answers how many buffers were open. -/
theorem result_close : w.close.result = w.bufferCount := by
  unfold close
  split
  · next hclosed => exact (bufferCount_of_closed hclosed).symm
  · rfl

/-- A worker refuses a buffer only if it is closed. -/
theorem opened_addBuffer (ssrc : Ssrc) (trackSid : String) :
    (w.addBuffer ssrc trackSid).2 = !w.closed := by
  unfold addBuffer
  split
  · next hclosed => rw [hclosed]; rfl
  · next hopen =>
    have hfalse : w.closed = false := Bool.not_eq_true _ ▸ hopen
    simp only [hfalse, Bool.not_false]

/-- A closed worker takes no buffer. -/
theorem addBuffer_of_closed (hclosed : w.closed = true) (ssrc : Ssrc) (trackSid : String) :
    w.addBuffer ssrc trackSid = (w, false) := dif_pos hclosed

theorem bufferCount_addBuffer (ssrc : Ssrc) (trackSid : String) :
    (w.addBuffer ssrc trackSid).1.bufferCount +
        ((w.addBuffer ssrc trackSid).2 && (w.buffers.find? ssrc).isSome).toNat =
      w.bufferCount + (w.addBuffer ssrc trackSid).2.toNat := by
  unfold addBuffer
  split
  · rfl
  · exact Table.size_insert ..

theorem find?_addBuffer (hopen : w.closed = false) (ssrc other : Ssrc) (trackSid : String) :
    (w.addBuffer ssrc trackSid).1.buffers.find? other =
      if other = ssrc then some ⟨ssrc, trackSid⟩ else w.buffers.find? other := by
  unfold addBuffer
  rw [dif_neg (by rw [hopen]; exact Bool.false_ne_true)]
  exact Table.find?_insert ..

/-- Releasing a buffer answers it. -/
theorem result_removeBuffer (ssrc : Ssrc) :
    (w.removeBuffer ssrc).result = w.buffers.find? ssrc := by
  unfold removeBuffer
  split <;> next h => rw [h]

theorem bufferCount_removeBuffer (ssrc : Ssrc) :
    (w.removeBuffer ssrc).state.bufferCount + (w.removeBuffer ssrc).result.isSome.toNat =
      w.bufferCount := by
  rw [result_removeBuffer]
  unfold removeBuffer
  split
  · next h => rw [h]; rfl
  · exact Table.size_erase ..

theorem find?_removeBuffer (ssrc other : Ssrc) :
    (w.removeBuffer ssrc).state.buffers.find? other =
      if other = ssrc then none else w.buffers.find? other := by
  unfold removeBuffer
  split
  · next h =>
    split
    · next he => rw [he, h]
    · rfl
  · exact Table.find?_erase ..

end Worker

/-! ## The tally of a run -/

/-- What has become of the buffers of all workers. -/
structure BufferTally where
  /-- How many buffers have been opened. -/
  opened : Nat := 0
  /-- How many of them have taken the place of one that was open for the same track. -/
  replaced : Nat := 0
  /-- How many buffers have been released by themselves. -/
  released : Nat := 0
  /-- How many have been released with a worker that was replaced, removed or cleared away. -/
  closed : Nat := 0

def BufferTally.plus (a b : BufferTally) : BufferTally :=
  ⟨a.opened + b.opened, a.replaced + b.replaced, a.released + b.released, a.closed + b.closed⟩

/-- What one operation does to the buffers, as its answer and its log tell. -/
def RegistryOp.tally (r : Registry) (op : RegistryOp) : BufferTally where
  opened := match op with
    | .openTrack id ssrc trackSid => (r.openTrack id ssrc trackSid).2.toNat
    | _ => 0
  replaced := match op with
    | .openTrack id ssrc trackSid =>
      ((r.openTrack id ssrc trackSid).2 &&
        ((r.find? id).bind fun w => w.buffers.find? ssrc).isSome).toNat
    | _ => 0
  released := (op.log r).countP LogLine.isRelease
  closed := ((closingsIn (op.log r)).map fun line => line.2.2).sum

namespace Registry

variable {r : Registry} {op : RegistryOp} {ops : List RegistryOp}

/-- A registry after some operations. -/
def after (r : Registry) (ops : List RegistryOp) : Registry :=
  ops.foldl (fun r op => (op.perform r).1) r

/-- What some operations do to the buffers. -/
def tally (r : Registry) : List RegistryOp → BufferTally
  | [] => {}
  | op :: ops => (op.tally r).plus ((op.perform r).1.tally ops)

/-- The number of open buffers, over all ids that are registered. -/
def bufferTotal (r : Registry) : Nat := (r.keys.map fun id => (r.bufferCount? id).getD 0).sum

theorem bufferTotal_eq (r : Registry) : r.bufferTotal = r.total Worker.bufferCount := by
  unfold bufferTotal Table.total Table.keys Table.values
  rw [List.map_map, List.map_map]
  congr 1
  refine List.map_congr_left fun e he => ?_
  simp only [Function.comp, bufferCount?, Table.mem_entries_iff.1 he, Option.map_some,
    Option.getD_some]

theorem after_concat (r : Registry) (ops : List RegistryOp) (op : RegistryOp) :
    r.after (ops ++ [op]) = (op.perform (r.after ops)).1 := by
  unfold after
  rw [List.foldl_append]
  rfl

/-! ## Conservation -/

theorem total_put (r : Registry) (id : String) (w : Worker) (f : Worker → Nat) :
    (r.put id w).state.total f + ((r.find? id).map f).getD 0 = r.total f + f w := by
  unfold put
  split <;> exact r.total_insert id w f

theorem total_removeAndClose (r : Registry) (id : String) (f : Worker → Nat) :
    (r.removeAndClose id).state.total f + ((r.find? id).map f).getD 0 = r.total f := by
  unfold removeAndClose
  split
  · next h => rw [h]; rfl
  · exact r.total_erase id f

/-- A buffer that is opened is one more, unless it takes the place of another one. -/
theorem total_openTrack (r : Registry) (id : String) (ssrc : Ssrc) (trackSid : String) :
    (r.openTrack id ssrc trackSid).1.total Worker.bufferCount +
        ((r.openTrack id ssrc trackSid).2 &&
          ((r.find? id).bind fun w => w.buffers.find? ssrc).isSome).toNat =
      r.total Worker.bufferCount + (r.openTrack id ssrc trackSid).2.toNat := by
  unfold openTrack
  cases hw : r.find? id with
  | none => simp
  | some w =>
    have hinsert := r.total_insert id (w.addBuffer ssrc trackSid).1 Worker.bufferCount
    have hcount := w.bufferCount_addBuffer ssrc trackSid
    rw [hw, Option.map_some, Option.getD_some] at hinsert
    rw [Option.bind_some]
    dsimp only
    omega

theorem total_releaseTrack (r : Registry) (id : String) (ssrc : Ssrc) :
    (r.releaseTrack id ssrc).state.total Worker.bufferCount +
        ((r.find? id).bind fun w => (w.removeBuffer ssrc).result).isSome.toNat =
      r.total Worker.bufferCount := by
  unfold releaseTrack
  cases hw : r.find? id with
  | none => simp
  | some w =>
    have hinsert := r.total_insert id (w.removeBuffer ssrc).state Worker.bufferCount
    have hcount := w.bufferCount_removeBuffer ssrc
    rw [hw, Option.map_some, Option.getD_some] at hinsert
    rw [Option.bind_some]
    dsimp only
    omega

/-- The buffers that are released with workers are those of the workers that leave. -/
theorem closed_tally (r : Registry) (op : RegistryOp) :
    (op.tally r).closed = ((op.leaving r).map Worker.bufferCount).sum := by
  simp only [RegistryOp.tally, op.closingsIn_log]
  induction op.leaving r with
  | nil => rfl
  | cons w ws ih =>
    rw [List.flatMap_cons, List.map_append, List.sum_append, w.sum_closing, ih, List.map_cons,
      List.sum_cons]

theorem sum_toList (o : Option Worker) :
    (o.toList.map Worker.bufferCount).sum = (o.map Worker.bufferCount).getD 0 := by
  cases o <;> rfl

/-- **No operation loses a buffer or makes one up**, if workers are put without buffers. -/
theorem tallied_step (r : Registry) {op : RegistryOp}
    (hput : ∀ id w, op = .put id w → w.bufferCount = 0) :
    r.bufferTotal + (op.tally r).opened =
      (op.tally r).replaced + (op.tally r).released + (op.tally r).closed +
        (op.perform r).1.bufferTotal := by
  rw [bufferTotal_eq, bufferTotal_eq]
  have hclosed := closed_tally r op
  have hreleased := op.releases_log r
  cases op with
  | put id w =>
    -- the new worker brings no buffers, and those of the old one are in the log
    have hempty := hput id w rfl
    have hput := r.total_put id w Worker.bufferCount
    rw [RegistryOp.leaving, sum_toList] at hclosed
    simp only [RegistryOp.perform, RegistryOp.tally] at hclosed hreleased ⊢
    omega
  | removeAndClose id =>
    have hremove := r.total_removeAndClose id Worker.bufferCount
    rw [RegistryOp.leaving, sum_toList] at hclosed
    simp only [RegistryOp.perform, RegistryOp.tally] at hclosed hreleased ⊢
    omega
  | closeAll =>
    have hnone : (closeAll r).state.total Worker.bufferCount = 0 := rfl
    have hall : ((RegistryOp.leaving r .closeAll).map Worker.bufferCount).sum =
        r.total Worker.bufferCount := rfl
    rw [hall] at hclosed
    simp only [RegistryOp.perform, RegistryOp.tally] at hclosed hreleased ⊢
    omega
  | openTrack id ssrc trackSid =>
    have hopen := r.total_openTrack id ssrc trackSid
    have hnone : ((RegistryOp.leaving r (.openTrack id ssrc trackSid)).map Worker.bufferCount).sum =
        0 := rfl
    rw [hnone] at hclosed
    simp only [RegistryOp.perform, RegistryOp.tally] at hclosed hreleased ⊢
    omega
  | releaseTrack id ssrc =>
    have hrelease := r.total_releaseTrack id ssrc
    have hnone : ((RegistryOp.leaving r (.releaseTrack id ssrc)).map Worker.bufferCount).sum =
        0 := rfl
    rw [hnone] at hclosed
    simp only [RegistryOp.perform, RegistryOp.tally] at hclosed hreleased ⊢
    omega
  | get id | contains id | bufferCount id => exact Nat.add_comm _ _

/-- Nor does a run. -/
theorem tallied_run (r : Registry) (ops : List RegistryOp)
    (hput : ∀ id w, .put id w ∈ ops → w.bufferCount = 0) :
    r.bufferTotal + (r.tally ops).opened =
      (r.tally ops).replaced + (r.tally ops).released + (r.tally ops).closed +
        (r.after ops).bufferTotal := by
  induction ops generalizing r with
  | nil => exact Nat.add_comm _ _
  | cons op ops ih =>
    have hfirst := r.tallied_step fun id w (he : op = .put id w) =>
      hput id w (he ▸ List.mem_cons_self)
    have hrest := ih (op.perform r).1 fun id w hw => hput id w (List.mem_cons_of_mem _ hw)
    have hafter : r.after (op :: ops) = (op.perform r).1.after ops := rfl
    rw [hafter]
    simp only [tally, BufferTally.plus]
    omega

/-! ## Whose buffers -/

/-- Every registered worker is open. -/
def IsOpen (r : Registry) : Prop := ∀ id w, r.find? id = some w → w.closed = false

/-- **Every operation keeps the registered workers open**, if workers are put open. -/
theorem open_step {r : Registry} (h : r.IsOpen) {op : RegistryOp}
    (hput : ∀ id w, op = .put id w → w.closed = false) : (op.perform r).1.IsOpen := by
  intro other v hv
  cases op with
  | put id w =>
    have hfind := (find?_put r id other w).symm.trans hv
    split at hfind
    · cases hfind
      exact hput id v rfl
    · exact h other v hfind
  | removeAndClose id =>
    have hfind := (find?_removeAndClose r id other).symm.trans hv
    split at hfind
    · cases hfind
    · exact h other v hfind
  | closeAll => cases hv
  | openTrack id ssrc trackSid =>
    have hfind := (find?_openTrack r id other ssrc trackSid).symm.trans hv
    split at hfind
    · obtain ⟨w, hw, rfl⟩ := Option.map_eq_some_iff.1 hfind
      exact (w.closed_addBuffer ssrc trackSid).trans (h id w hw)
    · exact h other v hfind
  | releaseTrack id ssrc =>
    have hfind := (find?_releaseTrack r id other ssrc).symm.trans hv
    split at hfind
    · obtain ⟨w, hw, rfl⟩ := Option.map_eq_some_iff.1 hfind
      exact (w.closed_removeBuffer ssrc).trans (h id w hw)
    · exact h other v hfind
  | get id | contains id | bufferCount id => exact h other v hv

theorem open_run {r : Registry} (h : r.IsOpen)
    (hput : ∀ id w, .put id w ∈ ops → w.closed = false) : (r.after ops).IsOpen := by
  induction ops generalizing r with
  | nil => exact h
  | cons op ops ih =>
    have hfirst := open_step h fun id w he => hput id w (he ▸ List.mem_cons_self)
    exact ih hfirst fun id w hw => hput id w (List.mem_cons_of_mem _ hw)

/-- A track is refused only where nobody is registered. -/
theorem opened_openTrack {r : Registry} (h : r.IsOpen) (id : String) (ssrc : Ssrc)
    (trackSid : String) : (r.openTrack id ssrc trackSid).2 = r.contains id := by
  unfold openTrack contains
  cases hw : r.find? id with
  | none => rfl
  | some w =>
    have hopen := h id w hw
    simp only [w.opened_addBuffer, hopen, Bool.not_false, Option.isSome_some]

end Registry

namespace RegistryOp

/-- An operation after which the worker that was registered under an id is not so any more. -/
def Ends (id : String) : RegistryOp → Prop
  | .put other _ | .removeAndClose other => other = id
  | .closeAll => True
  | .openTrack _ _ _ | .releaseTrack _ _ | .get _ | .contains _ | .bufferCount _ => False

/-- What an operation does to the worker that stays registered under an id. -/
def touch (id : String) : RegistryOp → Worker → Worker
  | .openTrack other ssrc trackSid, w => if other = id then (w.addBuffer ssrc trackSid).1 else w
  | .releaseTrack other ssrc, w => if other = id then (w.removeBuffer ssrc).state else w
  | _, w => w

/-- The track buffer that an id has with an ssrc after an operation, if it had `buffer`. -/
def track? (id : String) (ssrc : Ssrc) (buffer : Option TrackBuffer) :
    RegistryOp → Option TrackBuffer
  | .openTrack other other' trackSid =>
    if other = id ∧ ssrc = other' then some ⟨other', trackSid⟩ else buffer
  | .releaseTrack other other' => if other = id ∧ ssrc = other' then none else buffer
  | _ => buffer

/-- The track buffer that an id has with an ssrc after some operations, the first of which finds
none: the latest operation about the buffer decides. -/
def lastTrack? (id : String) (ssrc : Ssrc) (ops : List RegistryOp) : Option TrackBuffer :=
  ops.foldl (track? id ssrc) none

/-- Whether an operation opens a buffer for an id. -/
def opens (id : String) : RegistryOp → Bool
  | .openTrack other _ _ => other = id
  | _ => false

variable {id : String} {op : RegistryOp} {w : Worker}

/-- **A worker that stays registered changes only by operations on its own buffers.** -/
theorem find?_touch {r : Registry} (hw : r.find? id = some w) (hends : ¬op.Ends id) :
    (op.perform r).1.find? id = some (op.touch id w) := by
  cases op with
  | put other v =>
    refine (Registry.find?_put r other id v).trans ?_
    rw [if_neg fun he => hends he.symm]
    exact hw
  | removeAndClose other =>
    refine (Registry.find?_removeAndClose r other id).trans ?_
    rw [if_neg fun he => hends he.symm]
    exact hw
  | closeAll => exact absurd trivial hends
  | openTrack other ssrc trackSid =>
    refine (Registry.find?_openTrack r other id ssrc trackSid).trans ?_
    simp only [touch]
    by_cases he : other = id
    · subst he
      rw [if_pos rfl, if_pos rfl, hw]
      rfl
    · rw [if_neg fun h => he h.symm, if_neg he]
      exact hw
  | releaseTrack other ssrc =>
    refine (Registry.find?_releaseTrack r other id ssrc).trans ?_
    simp only [touch]
    by_cases he : other = id
    · subst he
      rw [if_pos rfl, if_pos rfl, hw]
      rfl
    · rw [if_neg fun h => he h.symm, if_neg he]
      exact hw
  | get other | contains other | bufferCount other => exact hw

theorem closed_touch : (op.touch id w).closed = w.closed := by
  unfold touch
  split
  · split
    · exact w.closed_addBuffer _ _
    · rfl
  · split
    · exact w.closed_removeBuffer _
    · rfl
  · rfl

theorem identity_touch : (op.touch id w).identity = w.identity := by
  unfold touch
  split
  · split
    · exact w.identity_addBuffer _ _
    · rfl
  · split
    · exact w.identity_removeBuffer _
    · rfl
  · rfl

theorem find?_buffers_touch (hopen : w.closed = false) (ssrc : Ssrc) :
    (op.touch id w).buffers.find? ssrc = track? id ssrc (w.buffers.find? ssrc) op := by
  cases op with
  | openTrack other other' trackSid =>
    simp only [touch, track?]
    by_cases he : other = id
    · simp only [he, if_true, true_and, w.find?_addBuffer hopen]
    · simp only [he, if_false, false_and]
  | releaseTrack other other' =>
    simp only [touch, track?]
    by_cases he : other = id
    · simp only [he, if_true, true_and, w.find?_removeBuffer]
    · simp only [he, if_false, false_and]
  | _ => rfl

/-- A worker has at most one buffer more after an operation, and only one that opens it. -/
theorem bufferCount_touch : (op.touch id w).bufferCount ≤ w.bufferCount + (op.opens id).toNat := by
  cases op with
  | openTrack other ssrc trackSid =>
    simp only [touch, opens]
    by_cases he : other = id
    · have hcount := w.bufferCount_addBuffer ssrc trackSid
      have hone := Bool.toNat_le (w.addBuffer ssrc trackSid).2
      simp only [he, if_true, decide_true, Bool.toNat_true]
      omega
    · simp only [he, if_false, decide_false, Bool.toNat_false, Nat.add_zero, Nat.le_refl]
  | releaseTrack other ssrc =>
    simp only [touch, opens]
    split
    · have hcount := w.bufferCount_removeBuffer ssrc
      omega
    · exact Nat.le_add_right _ _
  | _ => exact Nat.le_add_right _ _

end RegistryOp

namespace Registry

open RegistryOp

/-- What some operations have made of a worker that is registered under an id. -/
structure Stands (id : String) (w : Worker) (ops : List RegistryOp) (v : Worker) : Prop where
  closed : v.closed = false
  identity : v.identity = w.identity
  buffers : ∀ ssrc, v.buffers.find? ssrc = ops.foldl (track? id ssrc) (w.buffers.find? ssrc)
  bufferCount : v.bufferCount ≤ w.bufferCount + ops.countP (·.opens id)

/-- **Who is registered stays so, with its own buffers**, until an operation ends that. -/
theorem stands_run {r : Registry} {id : String} {w : Worker} (hw : r.find? id = some w)
    (hopen : w.closed = false) {later : List RegistryOp} (hlater : ∀ op ∈ later, ¬op.Ends id) :
    ∃ v, (r.after later).find? id = some v ∧ Stands id w later v := by
  induction later generalizing r w with
  | nil => exact ⟨w, hw, hopen, rfl, fun _ => rfl, Nat.le_refl _⟩
  | cons op later ih =>
    obtain ⟨hfirst, hmore⟩ := List.forall_mem_cons.1 hlater
    have htouch := find?_touch hw hfirst
    obtain ⟨v, hv, hstands⟩ := ih htouch (closed_touch.trans hopen) hmore
    refine ⟨v, hv, hstands.closed, hstands.identity.trans identity_touch, ?_, ?_⟩
    · intro ssrc
      rw [hstands.buffers ssrc, find?_buffers_touch hopen]
      rfl
    · have hone : (op.touch id w).bufferCount ≤ w.bufferCount + (op.opens id).toNat :=
        bufferCount_touch
      have hrest := hstands.bufferCount
      have hcount : (op :: later).countP (·.opens id) =
          later.countP (·.opens id) + (op.opens id).toNat := by
        rw [List.countP_cons]
        cases op.opens id <;> rfl
      omega

theorem contains_step (r : Registry) (op : RegistryOp) (id : String) :
    (op.perform r).1.contains id = true ↔
      (∃ w, op = .put id w) ∨ r.contains id = true ∧ ¬op.Ends id := by
  unfold contains
  cases op with
  | put other v =>
    have hfind := r.find?_put other id v
    simp only [RegistryOp.perform, hfind]
    by_cases he : id = other
    · simp [he]
    · have hne : other ≠ id := fun h => he h.symm
      simp [he, hne, RegistryOp.Ends]
  | removeAndClose other =>
    have hfind := r.find?_removeAndClose other id
    simp only [RegistryOp.perform, hfind]
    by_cases he : id = other
    · simp [he, RegistryOp.Ends]
    · have hne : other ≠ id := fun h => he h.symm
      simp [he, hne, RegistryOp.Ends]
  | closeAll => simp [RegistryOp.perform, closeAll, RegistryOp.Ends]
  | openTrack other ssrc trackSid =>
    have hfind := r.find?_openTrack other id ssrc trackSid
    simp only [RegistryOp.perform, hfind]
    by_cases he : id = other <;> simp [he, RegistryOp.Ends]
  | releaseTrack other ssrc =>
    have hfind := r.find?_releaseTrack other id ssrc
    simp only [RegistryOp.perform, hfind]
    by_cases he : id = other <;> simp [he, RegistryOp.Ends]
  | get other | contains other | bufferCount other => simp [RegistryOp.perform, RegistryOp.Ends]

/-- **Who is registered**: somebody who has been put, and since then no operation has ended that. -/
theorem contains_iff (ops : List RegistryOp) (id : String) :
    (after .empty ops).contains id = true ↔
      ∃ before w later, ops = before ++ .put id w :: later ∧ ∀ op ∈ later, ¬op.Ends id := by
  have hlasts : (after .empty ops).contains id = true ↔
      Lasts (fun op => ∃ w, op = .put id w) (fun op => ¬op.Ends id) ops := by
    induction ops using List.reverseRecOn with
    | nil => exact iff_of_false nofun not_lasts_nil
    | append_singleton ops op ih => rw [after_concat, contains_step, ih, lasts_concat, and_comm]
  rw [hlasts]
  constructor
  · rintro ⟨before, op, later, hops, ⟨w, rfl⟩, hlater⟩
    exact ⟨before, w, later, hops, hlater⟩
  · rintro ⟨before, w, later, hops, hlater⟩
    exact ⟨before, .put id w, later, hops, ⟨w, rfl⟩, hlater⟩

/-- What releasing a track may change: the buffer with this ssrc of the worker that is registered
under this id. -/
structure ReleasesOne (r : Registry) (id : String) (ssrc : Ssrc) : Prop where
  others : ∀ other, other ≠ id → (r.releaseTrack id ssrc).state.find? other = r.find? other
  nobody : r.find? id = none → (r.releaseTrack id ssrc).state = r
  own : ∀ w, r.find? id = some w → ∃ v, (r.releaseTrack id ssrc).state.find? id = some v ∧
    v.identity = w.identity ∧ v.closed = w.closed ∧ v.buffers.find? ssrc = none ∧
      ∀ other, other ≠ ssrc → v.buffers.find? other = w.buffers.find? other

theorem releasesOne (r : Registry) (id : String) (ssrc : Ssrc) : r.ReleasesOne id ssrc := by
  refine ⟨fun other hne => ?_, fun hnone => ?_, fun w hw => ?_⟩
  · rw [find?_releaseTrack, if_neg hne]
  · unfold releaseTrack
    rw [hnone]
  · refine ⟨(w.removeBuffer ssrc).state, ?_, w.identity_removeBuffer ssrc,
      w.closed_removeBuffer ssrc, ?_, fun other hne => ?_⟩
    · rw [find?_releaseTrack, if_pos rfl, hw]
      rfl
    · rw [w.find?_removeBuffer, if_pos rfl]
    · rw [w.find?_removeBuffer, if_neg hne]

end Registry

namespace RegistryRun

theorem registry_run (ops : List RegistryOp) : (run ops).registry = Registry.after .empty ops := by
  induction ops using List.reverseRecOn with
  | nil => rfl
  | append_singleton ops op ih =>
    rw [Registry.after_concat, ← ih, run, List.foldl_append]
    rfl

end RegistryRun

/-! ## What the log of a run tells -/

/-- Workers that are put are open. -/
def PutsOpen (ops : List RegistryOp) : Prop := ∀ id w, .put id w ∈ ops → w.closed = false

/-- **A log tells of all workers that operations on a registry tear down**, if all of them have been
put open. -/
def Tells (log : List LogLine) (ops : List RegistryOp) : Prop :=
  PutsOpen ops → closedIn log = (RegistryRun.run ops).torn.map Worker.badge

/-- What does not tell of workers may be added to a log. -/
theorem Tells.append_quiet {log : List LogLine} {ops : List RegistryOp} (h : Tells log ops)
    {k : List LogLine} (hk : closedIn k = []) : Tells (log ++ k) ops := by
  intro hput
  rw [closedIn_append, hk, List.append_nil]
  exact h hput

/-- With each operation its own lines are added. -/
theorem Tells.concat {log : List LogLine} {ops : List RegistryOp} (h : Tells log ops)
    {op : RegistryOp} {k : List LogLine}
    (hk : closedIn k = closedIn (op.log (Registry.after .empty ops))) :
    Tells (log ++ k) (ops ++ [op]) := by
  intro hput
  have hputs : PutsOpen ops := fun id w hw => hput id w (List.mem_append_left _ hw)
  have hopen : (Registry.after .empty ops).IsOpen := Registry.open_run nofun hputs
  have hleaving : ∀ w ∈ op.leaving (Registry.after .empty ops), w.closed = false := by
    intro w hw
    cases op with
    | put id v => exact hopen id w (Option.mem_toList.1 hw)
    | removeAndClose id => exact hopen id w (Option.mem_toList.1 hw)
    | closeAll =>
      obtain ⟨id, hid⟩ := Table.mem_values.1 hw
      exact hopen id w hid
    | get _ | contains _ | bufferCount _ | openTrack _ _ _ | releaseTrack _ _ =>
      exact absurd hw List.not_mem_nil
  rw [closedIn_append, h hputs, hk, RegistryOp.closedIn_log hleaving, RegistryRun.torn_concat,
    RegistryRun.registry_run, List.map_append]

/-- What some operations log. -/
def Registry.logs (r : Registry) : List RegistryOp → List LogLine
  | [] => []
  | op :: ops => op.log r ++ (op.perform r).1.logs ops

theorem Registry.logs_concat (r : Registry) (ops : List RegistryOp) (op : RegistryOp) :
    r.logs (ops ++ [op]) = r.logs ops ++ op.log (r.after ops) := by
  induction ops generalizing r with
  | nil => exact List.append_nil _
  | cons first ops ih => exact (congrArg _ (ih _)).trans (List.append_assoc ..).symm

theorem tells_logs (ops : List RegistryOp) : Tells (Registry.logs .empty ops) ops := by
  induction ops using List.reverseRecOn with
  | nil => exact fun _ => rfl
  | append_singleton ops op ih =>
    rw [Registry.logs_concat]
    exact ih.concat rfl

namespace RegistryRun

/-- **No track buffer leaks**, in the registry to which the given operations lead. -/
structure Kept (ops : List RegistryOp) : Prop where
  /-- The buffers that have been opened are those that have been replaced, those that have been
  released, by themselves or with their worker, and those that are open. -/
  conserved : (Registry.tally .empty ops).opened =
    (Registry.tally .empty ops).replaced + (Registry.tally .empty ops).released +
      (Registry.tally .empty ops).closed + (run ops).registry.bufferTotal
  /-- Workers that have been replaced, removed or cleared away are closed and have no buffers. -/
  torn : ∀ w ∈ (run ops).torn, w.closed = true ∧ w.bufferCount = 0
  /-- The lines about closed workers, by which their buffers are counted, tell of exactly them. -/
  told : closedIn (Registry.logs .empty ops) = (run ops).torn.map Worker.badge
  /-- A track is refused exactly where nobody is registered. -/
  opens : ∀ id ssrc trackSid,
    ((run ops).registry.openTrack id ssrc trackSid).2 = (run ops).registry.contains id
  registered : ∀ id, (run ops).registry.contains id = true ↔
    ∃ before w later, ops = before ++ .put id w :: later ∧ ∀ op ∈ later, ¬op.Ends id
  releases : ∀ id ssrc, (run ops).registry.ReleasesOne id ssrc
  /-- Whoever is registered has the buffers that have been opened since the registration, and no
  others. -/
  since : ∀ before id w later, ops = before ++ .put id w :: later → (∀ op ∈ later, ¬op.Ends id) →
    ∃ v, (run ops).registry.find? id = some v ∧ v.identity = w.identity ∧
      (∀ ssrc, v.buffers.find? ssrc = RegistryOp.lastTrack? id ssrc later) ∧
        v.bufferCount ≤ later.countP (·.opens id)

/-- **No track buffer leaks.** In every run of a registry in which workers are put open and without
buffers, every buffer that has been opened is accounted for once. -/
theorem kept_of_run (ops : List RegistryOp)
    (h : ∀ id w, .put id w ∈ ops → w.closed = false ∧ w.bufferCount = 0) : Kept ops := by
  have hopen : (Registry.after .empty ops).IsOpen :=
    Registry.open_run nofun fun id w hw => (h id w hw).1
  have htally := Registry.tallied_run .empty ops fun id w hw => (h id w hw).2
  have hnone : (Registry.bufferTotal .empty) = 0 := rfl
  refine ⟨?_, ?_, ?_, ?_, ?_, ?_, ?_⟩
  · rw [registry_run]
    omega
  · intro w hw
    have hclosed := closed_of_torn ops w hw
    exact ⟨hclosed, Worker.bufferCount_of_closed hclosed⟩
  · exact tells_logs ops fun id w hw => (h id w hw).1
  · intro id ssrc trackSid
    rw [registry_run]
    exact Registry.opened_openTrack hopen id ssrc trackSid
  · intro id
    rw [registry_run]
    exact Registry.contains_iff ops id
  · exact fun id ssrc => Registry.releasesOne _ id ssrc
  · intro before id w later hops hlater
    have hput : ((Registry.after .empty before).put id w).state.find? id = some w := by
      rw [Registry.find?_put, if_pos rfl]
    have hmem : RegistryOp.put id w ∈ ops := by
      rw [hops]
      exact List.mem_append_right _ List.mem_cons_self
    obtain ⟨hclosed, hempty⟩ := h id w hmem
    obtain ⟨v, hv, hstands⟩ := Registry.stands_run hput hclosed hlater
    refine ⟨v, ?_, hstands.identity, fun ssrc => ?_, ?_⟩
    · rw [registry_run, hops, Registry.after, List.foldl_append]
      exact hv
    · rw [hstands.buffers ssrc, Table.size_eq_zero_iff.1 hempty ssrc]
      rfl
    · have hcount := hstands.bufferCount
      omega

/-- One ssrc is opened twice for the same worker, another one is released, a track of somebody who
is not there is refused, and the worker is replaced. Its successor starts without buffers. -/
def rejoining : List RegistryOp :=
  [.put "p" (.new "a" "" "p"), .openTrack "p" 7 "t", .openTrack "p" 7 "u", .openTrack "p" 8 "v",
    .releaseTrack "p" 8, .openTrack "q" 7 "x", .put "p" (.new "b" "" "p"), .openTrack "p" 9 "y"]

theorem kept_of_rejoining :
    Kept rejoining ∧ Registry.tally .empty rejoining = ⟨4, 1, 1, 1⟩ ∧
      (run rejoining).registry.bufferTotal = 1 := by
  refine ⟨kept_of_run rejoining ?_, rfl, rfl⟩
  intro id w hw
  simp only [rejoining, List.mem_cons, RegistryOp.put.injEq, reduceCtorEq, List.not_mem_nil,
    or_false, false_or] at hw
  rcases hw with ⟨-, rfl⟩ | ⟨-, rfl⟩ <;> exact ⟨rfl, rfl⟩

end RegistryRun

end RoomWatch
