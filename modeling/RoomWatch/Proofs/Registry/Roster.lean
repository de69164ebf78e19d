import RoomWatch.Registry.Basic

/-!
# Operations on a registry, and the workers behind it

A run of a registry is a list of operations (`RegistryRun.run`). The registry forgets a worker
when it lets go of it. A `Roster` does not: it numbers the workers in the order in which they
are put and changes them in place, so that a worker keeps its number whatever happens to it.

* `Roster.OK`: **whoever is not registered any more has been closed, once.** Every operation
  keeps this (`ok_step`).
-/

namespace RoomWatch

/-- An operation on a registry. -/
inductive RegistryOp where
  | put (id : String) (w : Worker)
  | get (id : String)
  | contains (id : String)
  | bufferCount (id : String)
  | removeAndClose (id : String)
  | openTrack (id : String) (ssrc : Ssrc) (trackSid : String)
  | releaseTrack (id : String) (ssrc : Ssrc)
  | closeAll

/-- What the caller of an operation is told. -/
inductive RegistryReply where
  | done
  | room (c : RoomContext)
  | flag (b : Bool)
  | buffers (n : Option Nat)
  | workers (n : Nat)

/-- A registry in the course of a run. -/
structure RegistryRun where
  registry : Registry := .empty
  replies : List RegistryReply := []
  /-- The workers that operations have torn down, as they were after that. -/
  torn : List Worker := []

namespace RegistryOp

/-- What an operation leaves, what it tells its caller and which workers it tears down. -/
def perform (r : Registry) : RegistryOp → Registry × RegistryReply × List Worker
  | .put id w => ((r.put id w).state, .done, (r.put id w).result.toList)
  | .get id => (r, .room (r.get id), [])
  | .contains id => (r, .flag (r.contains id), [])
  | .bufferCount id => (r, .buffers (r.bufferCount? id), [])
  | .removeAndClose id =>
    ((r.removeAndClose id).state, .flag (r.removeAndClose id).result.isSome,
      (r.removeAndClose id).result.toList)
  | .openTrack id ssrc trackSid =>
    ((r.openTrack id ssrc trackSid).1, .flag (r.openTrack id ssrc trackSid).2, [])
  | .releaseTrack id ssrc =>
    ((r.releaseTrack id ssrc).state, .room (r.releaseTrack id ssrc).result, [])
  | .closeAll => (r.closeAll.state, .workers r.closeAll.result.length, r.closeAll.result)

/-- What an operation logs. -/
def log (r : Registry) : RegistryOp → List LogLine
  | .put id w => (r.put id w).log
  | .removeAndClose id => (r.removeAndClose id).log
  | .releaseTrack id ssrc => (r.releaseTrack id ssrc).log
  | .closeAll => r.closeAll.log
  | .openTrack _ _ _ | .get _ | .contains _ | .bufferCount _ => []

/-- The worker that an operation puts, with the id under which it does. -/
def put? : RegistryOp → Option (String × Worker)
  | .put id w => some (id, w)
  | _ => none

end RegistryOp

namespace RegistryRun

def step (a : RegistryRun) (op : RegistryOp) : RegistryRun where
  registry := (op.perform a.registry).1
  replies := a.replies ++ [(op.perform a.registry).2.1]
  torn := a.torn ++ (op.perform a.registry).2.2

/-- A run from the empty registry. -/
def run (ops : List RegistryOp) : RegistryRun := ops.foldl step {}

end RegistryRun

/-- A worker that has been put at some time. -/
structure Member where
  /-- The id under which it was put. -/
  id : String
  /-- The worker as it was put. -/
  arrived : Worker
  /-- The worker as it is now. -/
  now : Worker

/-- A member after something has been done to the worker. -/
def Member.change (m : Member) (f : Worker → Worker) : Member := { m with now := f m.now }

/-- All workers that have ever been put. -/
structure Roster where
  members : List Member := []
  /-- The number of the member that is registered under an id. -/
  posts : Table String Nat := .empty
  /-- The numbers of the members that have been closed, in the order of closing. -/
  closings : List Nat := []

namespace Roster

/-- The worker that is registered under an id. -/
def registered? (s : Roster) (id : String) : Option Worker :=
  (s.posts.find? id).bind fun n => s.members[n]?.map Member.now

/-- Changes the worker that is registered under an id. -/
def alter (s : Roster) (id : String) (f : Worker → Worker) : Roster :=
  match s.posts.find? id with
  | none => s
  | some n => { s with members := s.members.modify n fun m => m.change f }

/-- Closes the workers with the given numbers. -/
def close (s : Roster) (ns : List Nat) : Roster :=
  { s with
    members := s.members.mapIdx fun n m => if n ∈ ns then m.change fun w => w.close.state else m
    closings := s.closings ++ ns }

/-- Registers a new worker. -/
def enlist (s : Roster) (id : String) (w : Worker) : Roster :=
  { s with
    members := s.members ++ [⟨id, w, w⟩]
    posts := s.posts.insert id s.members.length }

/-- Removes and closes the worker that is registered under an id. -/
def dismiss (s : Roster) (id : String) : Roster :=
  { s.close (s.posts.find? id).toList with posts := s.posts.erase id }

/-- Removes and closes every worker that is registered. -/
def dismissAll (s : Roster) : Roster := { s.close s.posts.values with posts := .empty }

/-- What an operation does to the workers. -/
def step (s : Roster) : RegistryOp → Roster
  | .put id w => (s.dismiss id).enlist id w
  | .removeAndClose id => s.dismiss id
  | .closeAll => s.dismissAll
  | .openTrack id ssrc trackSid => s.alter id fun w => (w.addBuffer ssrc trackSid).1
  | .releaseTrack id ssrc => s.alter id fun w => (w.removeBuffer ssrc).state
  | .get _ | .contains _ | .bufferCount _ => s

/-- The workers of a run from the empty registry. -/
def run (ops : List RegistryOp) : Roster := ops.foldl step {}

/-- **The invariant of a roster.** Whoever is registered has not been closed and stands under
the id with which it was put; whoever is not registered any more has been closed once. -/
structure OK (s : Roster) : Prop where
  post : ∀ id n, s.posts.find? id = some n →
    n ∉ s.closings ∧ ∃ m : Member, s.members[n]? = some m ∧ m.id = id
  posted_or_closed : ∀ (n : Nat) (m : Member), s.members[n]? = some m →
    s.posts.find? m.id = some n ∨ n ∈ s.closings
  closings_lt : ∀ n ∈ s.closings, n < s.members.length
  once : s.closings.Nodup
  closed : ∀ (n : Nat) (m : Member), s.members[n]? = some m → n ∈ s.closings → m.now.closed = true
  open_kept : ∀ (n : Nat) (m : Member), s.members[n]? = some m → n ∉ s.closings →
    m.now.closed = m.arrived.closed
  same : ∀ (n : Nat) (m : Member), s.members[n]? = some m → m.now.identity = m.arrived.identity

theorem ok_empty : ({} : Roster).OK := by
  constructor <;> simp

/-- No two ids share a worker. -/
theorem OK.post_inj {s : Roster} (h : s.OK) {id id' : String} {n : Nat}
    (hn : s.posts.find? id = some n) (hn' : s.posts.find? id' = some n) : id = id' := by
  obtain ⟨-, m, hm, rfl⟩ := h.post id n hn
  obtain ⟨-, m', hm', rfl⟩ := h.post id' n hn'
  rw [hm] at hm'
  cases hm'
  rfl

/-! ## What becomes of each member -/

theorem getElem?_alter (s : Roster) (id : String) (f : Worker → Worker) (n : Nat) :
    (s.alter id f).members[n]? =
      s.members[n]?.map fun m => if s.posts.find? id = some n then m.change f else m := by
  unfold alter
  cases hp : s.posts.find? id with
  | none => simp
  | some k => simp [List.getElem?_modify]

theorem getElem?_close (s : Roster) (ns : List Nat) (n : Nat) :
    (s.close ns).members[n]? =
      s.members[n]?.map fun m => if n ∈ ns then m.change fun w => w.close.state else m := by
  simp [close]

@[simp] theorem posts_alter (s : Roster) (id : String) (f : Worker → Worker) :
    (s.alter id f).posts = s.posts := by
  unfold alter; split <;> rfl

@[simp] theorem closings_alter (s : Roster) (id : String) (f : Worker → Worker) :
    (s.alter id f).closings = s.closings := by
  unfold alter; split <;> rfl

@[simp] theorem length_alter (s : Roster) (id : String) (f : Worker → Worker) :
    (s.alter id f).members.length = s.members.length := by
  unfold alter; split <;> simp

/-- Buffers can be opened and released without harm to the invariant. -/
theorem ok_alter {s : Roster} (h : s.OK) (id : String) {f : Worker → Worker}
    (hc : ∀ w, (f w).closed = w.closed) (hi : ∀ w, (f w).identity = w.identity) :
    (s.alter id f).OK := by
  -- whoever has changed is the same worker still, and as open as before
  have hold : ∀ (n : Nat) (m : Member), (s.alter id f).members[n]? = some m →
      ∃ m₀ : Member, s.members[n]? = some m₀ ∧ m.id = m₀.id ∧ m.arrived = m₀.arrived ∧
        m.now.closed = m₀.now.closed ∧ m.now.identity = m₀.now.identity := by
    intro n m hm
    rw [getElem?_alter, Option.map_eq_some_iff] at hm
    obtain ⟨m₀, hm₀, rfl⟩ := hm
    refine ⟨m₀, hm₀, ?_⟩
    split
    · exact ⟨rfl, rfl, hc _, hi _⟩
    · exact ⟨rfl, rfl, rfl, rfl⟩
  refine ⟨?_, ?_, ?_, ?_, ?_, ?_, ?_⟩
  · intro id' n hn
    rw [posts_alter] at hn
    obtain ⟨hopen, m, hm, hid⟩ := h.post id' n hn
    refine ⟨by rwa [closings_alter], _, by rw [getElem?_alter, hm]; rfl, ?_⟩
    split <;> exact hid
  · intro n m hm
    obtain ⟨m₀, hm₀, hid, -⟩ := hold n m hm
    rw [posts_alter, closings_alter, hid]
    exact h.posted_or_closed n m₀ hm₀
  · intro n hn
    rw [closings_alter] at hn
    rw [length_alter]
    exact h.closings_lt n hn
  · rw [closings_alter]; exact h.once
  · intro n m hm hn
    obtain ⟨m₀, hm₀, -, -, hclosed, -⟩ := hold n m hm
    rw [closings_alter] at hn
    rw [hclosed]
    exact h.closed n m₀ hm₀ hn
  · intro n m hm hn
    obtain ⟨m₀, hm₀, -, harr, hclosed, -⟩ := hold n m hm
    rw [closings_alter] at hn
    rw [hclosed, harr]
    exact h.open_kept n m₀ hm₀ hn
  · intro n m hm
    obtain ⟨m₀, hm₀, -, harr, -, hident⟩ := hold n m hm
    rw [hident, harr]
    exact h.same n m₀ hm₀

/-- Registered workers may be closed if they lose their registration with that. -/
theorem ok_close {s : Roster} (h : s.OK) {ns : List Nat} {posts : Table String Nat}
    (hn : ns.Nodup) (hreg : ∀ n ∈ ns, ∃ id, s.posts.find? id = some n)
    (hposts : ∀ id n, posts.find? id = some n ↔ s.posts.find? id = some n ∧ n ∉ ns) :
    ({ s.close ns with posts := posts } : Roster).OK := by
  have hold : ∀ (n : Nat) (m : Member), (s.close ns).members[n]? = some m →
      ∃ m₀ : Member, s.members[n]? = some m₀ ∧
        m = if n ∈ ns then m₀.change fun w => w.close.state else m₀ := by
    intro n m hm
    rw [getElem?_close, Option.map_eq_some_iff] at hm
    obtain ⟨m₀, hm₀, rfl⟩ := hm
    exact ⟨m₀, hm₀, rfl⟩
  refine ⟨?_, ?_, ?_, ?_, ?_, ?_, ?_⟩
  · intro id n hid
    obtain ⟨hid, hns⟩ := (hposts id n).1 hid
    obtain ⟨hopen, m, hm, rfl⟩ := h.post id n hid
    refine ⟨?_, m, ?_, rfl⟩
    · simp only [close, List.mem_append, not_or]
      exact ⟨hopen, hns⟩
    · rw [getElem?_close, hm, Option.map_some, if_neg hns]
  · intro n m hm
    obtain ⟨m₀, hm₀, rfl⟩ := hold n m hm
    by_cases hns : n ∈ ns
    · exact .inr (List.mem_append_right _ hns)
    · rw [if_neg hns]
      rcases h.posted_or_closed n m₀ hm₀ with hp | hcl
      · exact .inl ((hposts _ _).2 ⟨hp, hns⟩)
      · exact .inr (List.mem_append_left _ hcl)
  · intro n hcl
    simp only [close, List.length_mapIdx]
    rcases List.mem_append.1 hcl with hcl | hns
    · exact h.closings_lt n hcl
    · obtain ⟨id, hid⟩ := hreg n hns
      obtain ⟨-, m, hm, -⟩ := h.post id n hid
      exact (List.getElem?_eq_some_iff.1 hm).1
  · -- whoever is closed now was registered, so it had not been closed before
    refine List.nodup_append.2 ⟨h.once, hn, ?_⟩
    rintro n hcl k hns rfl
    obtain ⟨id, hid⟩ := hreg n hns
    exact (h.post id n hid).1 hcl
  · intro n m hm hcl
    obtain ⟨m₀, hm₀, rfl⟩ := hold n m hm
    by_cases hns : n ∈ ns
    · rw [if_pos hns]
      exact Worker.closed_close _
    · rw [if_neg hns]
      exact h.closed n m₀ hm₀ ((List.mem_append.1 hcl).resolve_right hns)
  · intro n m hm hcl
    obtain ⟨m₀, hm₀, rfl⟩ := hold n m hm
    have hns : n ∉ ns := fun hns => hcl (List.mem_append_right _ hns)
    rw [if_neg hns]
    exact h.open_kept n m₀ hm₀ fun hc => hcl (List.mem_append_left _ hc)
  · intro n m hm
    obtain ⟨m₀, hm₀, rfl⟩ := hold n m hm
    split
    · exact (Worker.identity_close _).trans (h.same n m₀ hm₀)
    · exact h.same n m₀ hm₀

theorem getElem?_enlist (s : Roster) (id : String) (w : Worker) (n : Nat) :
    (s.enlist id w).members[n]? =
      if n = s.members.length then some ⟨id, w, w⟩ else s.members[n]? := by
  simp only [enlist, List.getElem?_append]
  by_cases hn : n < s.members.length
  · rw [if_pos hn, if_neg (Nat.ne_of_lt hn)]
  · rw [if_neg hn]
    by_cases he : n = s.members.length
    · simp [he]
    · rw [if_neg he, List.getElem?_eq_none (l := s.members) (Nat.le_of_not_lt hn)]
      exact List.getElem?_eq_none (by simp; omega)

/-- A free id can be given to a new worker. -/
theorem ok_enlist {s : Roster} (h : s.OK) {id : String} (hfree : s.posts.find? id = none)
    (w : Worker) : (s.enlist id w).OK := by
  -- the new worker has the next number; the others keep what they have
  have hold : ∀ (n : Nat) (m : Member), (s.enlist id w).members[n]? = some m →
      (n = s.members.length ∧ m = ⟨id, w, w⟩) ∨ s.members[n]? = some m := by
    intro n m hm
    rw [getElem?_enlist] at hm
    split at hm
    · next he => exact .inl ⟨he, by cases hm; rfl⟩
    · exact .inr hm
  have hnew : s.members.length ∉ s.closings := fun hc => Nat.lt_irrefl _ (h.closings_lt _ hc)
  have hpost : ∀ id' n, (s.enlist id w).posts.find? id' = some n ↔
      (id' = id ∧ n = s.members.length) ∨ s.posts.find? id' = some n := by
    intro id' n
    simp only [enlist, Table.find?_insert]
    by_cases he : id' = id
    · subst he
      rw [if_pos rfl, hfree]
      simp [eq_comm]
    · simp [he]
  refine ⟨?_, ?_, ?_, h.once, ?_, ?_, ?_⟩
  · intro id' n hn
    rcases (hpost id' n).1 hn with ⟨rfl, rfl⟩ | hn
    · exact ⟨hnew, ⟨id', w, w⟩, by rw [getElem?_enlist, if_pos rfl], rfl⟩
    · obtain ⟨hopen, m, hm, hid⟩ := h.post id' n hn
      have hlt := (List.getElem?_eq_some_iff.1 hm).1
      exact ⟨hopen, m, by rw [getElem?_enlist, if_neg (Nat.ne_of_lt hlt), hm], hid⟩
  · intro n m hm
    rcases hold n m hm with ⟨rfl, rfl⟩ | hm
    · exact .inl ((hpost _ _).2 (.inl ⟨rfl, rfl⟩))
    · rcases h.posted_or_closed n m hm with hp | hc
      · exact .inl ((hpost _ _).2 (.inr hp))
      · exact .inr hc
  · intro n hn
    have := h.closings_lt n hn
    simp only [enlist, List.length_append, List.length_singleton]
    omega
  · intro n m hm hc
    rcases hold n m hm with ⟨rfl, -⟩ | hm
    · exact absurd hc hnew
    · exact h.closed n m hm hc
  · intro n m hm hc
    rcases hold n m hm with ⟨-, rfl⟩ | hm
    · rfl
    · exact h.open_kept n m hm hc
  · intro n m hm
    rcases hold n m hm with ⟨-, rfl⟩ | hm
    · rfl
    · exact h.same n m hm

theorem ok_dismiss {s : Roster} (h : s.OK) (id : String) : (s.dismiss id).OK := by
  refine ok_close h ?_ ?_ ?_
  · cases s.posts.find? id <;> simp
  · intro n hn
    exact ⟨id, Option.mem_toList.1 hn⟩
  · intro id' n
    rw [Table.find?_erase, Option.mem_toList]
    by_cases he : id' = id
    · subst he
      simp
    · rw [if_neg he]
      exact ⟨fun hn => ⟨hn, fun hc => he (h.post_inj hn hc)⟩, And.left⟩

theorem ok_dismissAll {s : Roster} (h : s.OK) : s.dismissAll.OK := by
  refine ok_close h ?_ ?_ ?_
  · exact Table.nodup_values fun _ _ _ hn hn' => h.post_inj hn hn'
  · intro n hn
    exact Table.mem_values.1 hn
  · intro id n
    rw [Table.find?_empty]
    refine ⟨nofun, ?_⟩
    rintro ⟨hn, hout⟩
    exact absurd (Table.mem_values.2 ⟨id, hn⟩) hout

/-- **Every operation keeps the invariant.** -/
theorem ok_step {s : Roster} (h : s.OK) (op : RegistryOp) : (s.step op).OK := by
  cases op with
  | put id w =>
    refine ok_enlist (ok_dismiss h id) ?_ w
    exact (Table.find?_erase ..).trans (if_pos rfl)
  | removeAndClose id => exact ok_dismiss h id
  | closeAll => exact ok_dismissAll h
  | openTrack id ssrc trackSid =>
    exact ok_alter h id (fun w => w.closed_addBuffer ssrc trackSid)
      fun w => w.identity_addBuffer ssrc trackSid
  | releaseTrack id ssrc =>
    exact ok_alter h id (fun w => w.closed_removeBuffer ssrc) fun w => w.identity_removeBuffer ssrc
  | get _ | contains _ | bufferCount _ => exact h

end Roster

end RoomWatch
