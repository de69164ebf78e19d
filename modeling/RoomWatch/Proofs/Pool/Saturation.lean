import Mathlib.Data.List.Induction
import RoomWatch.Proofs.Pool.Progress
import RoomWatch.Proofs.Pool.Refusals

/-!
# What tasks that never end fill

How much a pool takes before it refuses, if no task of it ends. The task that the dispatcher has
taken out of the queue and cannot start makes room for one more.

* `exists_next`: what the dispatcher does next is possible, and a dispatcher at rest does nothing.
* `refusal?_of_atRest`: **a pool at rest in which no task ends refuses a task if and only if every
  worker runs one, the dispatcher holds one and the queue is full.**
* `accepted_of_fed`: so tasks that never end fill exactly these places, under every scheduling.
* `accepted_of_submits`: if the pool makes no move in between, they fill only the queue.
-/

namespace RoomWatch

variable {τ : Type}

namespace Pool

/-! ## The next move of the dispatcher -/

variable {p : Pool τ}

/-- What the dispatcher does next is possible, and ends no task. -/
theorem exists_next {m : Move} (hm : p.nextMove? = some m) :
    (∃ q, p.move? m = some q) ∧ ∀ ticket e, m ≠ .finish ticket e := by
  have hcollect : p.dispatcher = .idle ∨ p.dispatcher = .draining → p.uncollected ≠ [] →
      ∃ q, p.move? .collect = some q := by
    intro hd hu
    obtain ⟨e, rest, hu⟩ := List.exists_cons_of_ne_nil hu
    refine ⟨p.collect e rest, ?_⟩
    rcases hd with hd | hd <;> simp only [move?, hd, hu]
  have hinner : ∀ {m : Move}, m = .collect ∨ m = .take → ∀ ticket e, m ≠ .finish ticket e := by
    rintro m (rfl | rfl) ticket e h <;> cases h
  unfold nextMove? at hm
  cases hd : p.dispatcher with
  | idle =>
    simp only [hd] at hm
    split at hm
    · next hu => cases hm; exact ⟨hcollect (.inl hd) hu, hinner (.inl rfl)⟩
    · split at hm
      · next hq =>
        cases hm
        obtain ⟨j, rest, hq⟩ := List.exists_cons_of_ne_nil hq
        exact ⟨⟨p.take j rest, by simp only [move?, hd, hq]⟩, hinner (.inr rfl)⟩
      · next hq =>
        split at hm
        · next hp =>
          cases hm
          simp [move?, hd, not_not.1 hq, hp]
        · cases hm
  | holding j => simp only [hd, reduceCtorEq] at hm
  | granted j =>
    simp only [hd] at hm
    cases hm
    simp [move?, hd]
  | draining =>
    simp only [hd] at hm
    split at hm
    · next hu => cases hm; exact ⟨hcollect (.inr hd) hu, hinner (.inl rfl)⟩
    · next hu =>
      split at hm
      · next hr =>
        cases hm
        simp [move?, hd, hr, not_not.1 hu]
      · cases hm
  | exited => simp only [hd, reduceCtorEq] at hm

theorem nextMove?_of_atRest (hrest : p.AtRest) : p.nextMove? = none := by
  cases hm : p.nextMove? with
  | none => rfl
  | some m =>
    obtain ⟨⟨q, hq⟩, hfinish⟩ := exists_next hm
    obtain ⟨ticket, e, he⟩ := hrest m q hq
    exact absurd he (hfinish ticket e)

/-- A dispatcher without a next move is at rest, as long as its pool accepts tasks. -/
theorem atRest_of_nextMove? (hm : p.nextMove? = none) (ha : p.phase = .accepting)
    (hc : p.Closing) : p.AtRest := by
  intro m q hq
  have hopen : ¬p.Drained := fun hd => hc.closed hd ha
  cases moved_of_move? hq with
  | finish j e _ => exact ⟨_, _, rfl⟩
  | take j rest hd hq =>
    by_cases hu : p.uncollected = [] <;> simp [nextMove?, hd, hu, ‹p.queue = j :: rest›] at hm
  | start j hd => simp [nextMove?, hd] at hm
  | collect e rest hd hu =>
    rcases hd with hd | hd
    · simp [nextMove?, hd, hu] at hm
    · exact absurd (.inl hd) hopen
  | drain hd _ hp => exact absurd ha hp
  | exit hd _ _ => exact absurd (.inl hd) hopen
  | stop hd _ => exact absurd (.inr hd) hopen

/-- An idle dispatcher at rest has nothing to do. -/
theorem load_of_idle (hrest : p.AtRest) (hd : p.dispatcher = .idle) : p.load = 2 := by
  have hnext := nextMove?_of_atRest hrest
  simp only [nextMove?, hd] at hnext
  split at hnext
  · cases hnext
  · next hu =>
    split at hnext
    · cases hnext
    · next hq =>
      simp only [load, hd, not_not.1 hu, not_not.1 hq, List.length_nil, Dispatcher.load]

/-- A task that is submitted gives work only to an idle dispatcher. -/
theorem idle_of_next {t : τ} {m : Move} (hm : (p.submit t).1.nextMove? = some m)
    (hrest : p.AtRest) (ha : p.phase = .accepting) (hc : p.Closing) : p.dispatcher = .idle := by
  have hsame := dispatcher_submit p t
  cases hd : p.dispatcher with
  | idle => rfl
  | holding j =>
    rw [hd] at hsame
    simp [nextMove?, hsame] at hm
  | granted j =>
    have hgranted := granted_of_atRest hrest
    rw [granted, hd] at hgranted
    cases hgranted
  | draining => exact absurd ha (hc.closed (.inl hd))
  | exited => exact absurd ha (hc.closed (.inr hd))

/-- What is unfinished runs, or is still to be dealt with by the dispatcher. -/
theorem length_unfinished_le (p : Pool τ) : p.unfinished.length ≤ p.load + p.running.length := by
  have hheld : p.held.length ≤ Dispatcher.load p.dispatcher := by
    cases hd : p.dispatcher <;> simp [held, hd, Dispatcher.load]
  simp only [unfinished, load, List.length_append]
  omega

end Pool

namespace Observed

variable {o o' : Observed τ} {bounds : PoolConfig}

/-! ## Tasks that never end -/

/-- A pool that is used by tasks that never end, and is not shut down. -/
structure Unending (bounds : PoolConfig) (o : Observed τ) : Prop where
  balanced : o.pool.Balanced o.ledger
  permitted : o.pool.Permitted
  closing : o.pool.Closing
  within : o.pool.queue.length ≤ o.pool.bounds.queueCapacity
  bounds_eq : o.pool.bounds = bounds
  accepting : o.pool.phase = .accepting
  ended : o.ledger.ended = []

theorem unending_start (bounds : PoolConfig) : (start bounds : Observed τ).Unending bounds :=
  ⟨Pool.balanced_start _, Pool.permitted_start _, Pool.closing_start _, Nat.zero_le _, rfl, rfl,
    rfl⟩

theorem unending_submit (h : o.Unending bounds) (t : τ) (he : o.step? (.submit t) = some o') :
    o'.Unending bounds := by
  refine ⟨balanced_step h.balanced he, permitted_step h.balanced h.permitted he, ?_,
    queue_le_step h.within he, (bounds_step he).trans h.bounds_eq,
    (phase_step he).2 ⟨h.accepting, nofun⟩, ?_⟩
  · cases he
    exact Pool.closing_submit h.closing t
  · cases he
    exact h.ended

theorem unending_move (h : o.Unending bounds) {m : Move} (hm : ∀ ticket e, m ≠ .finish ticket e)
    (he : o.step? (.move m) = some o') : o'.Unending bounds := by
  refine ⟨balanced_step h.balanced he, permitted_step h.balanced h.permitted he, ?_,
    queue_le_step h.within he, (bounds_step he).trans h.bounds_eq,
    (phase_step he).2 ⟨h.accepting, nofun⟩, ?_⟩
  · obtain ⟨q, hq, rfl⟩ := Option.map_eq_some_iff.1 he
    exact Pool.closing_move h.closing hq
  · obtain ⟨q, -, rfl⟩ := Option.map_eq_some_iff.1 he
    cases m with
    | finish ticket e => exact absurd rfl (hm ticket e)
    | _ => exact h.ended

/-- **When a pool at rest refuses a task**, if no task ends: the workers, the dispatcher's hand and
the queue are full. -/
theorem refusal?_of_atRest (h : o.Unending bounds) (hrest : o.pool.AtRest)
    (hcap : 0 < bounds.queueCapacity) :
    o.pool.refusal? = none ↔
      o.ledger.accepted.length < bounds.maxWorkers + bounds.queueCapacity + 1 := by
  have hplaces := length_accepted h.balanced
  have hstarted := length_started h.balanced
  have htotal := h.permitted.total
  rw [h.ended, List.length_nil] at hstarted
  rw [h.bounds_eq] at htotal
  rw [Pool.refusal?_eq_none_iff, h.bounds_eq]
  constructor
  · rintro ⟨-, hroom⟩
    have hheld := o.pool.held_length_le
    omega
  · intro hless
    refine ⟨h.accepting, Nat.lt_of_not_le fun hfull => ?_⟩
    -- a full queue is not empty, so the dispatcher holds a task because all permits are in use
    obtain ⟨j, hj⟩ := List.exists_mem_of_length_pos (Nat.lt_of_lt_of_le hcap hfull)
    obtain ⟨i, hi⟩ := Pool.holding_of_atRest h.closing hrest (List.mem_append_right _ hj)
    have hrunning := (Pool.full_of_holding h.permitted hi).2
    have hheld : o.pool.held.length = 1 := by rw [Pool.held, hi]; rfl
    rw [h.bounds_eq] at hrunning
    omega

/-- The pool moves until it is at rest; no task ends. -/
inductive Settles : Observed τ → Observed τ → Prop where
  | rest {o : Observed τ} (atRest : o.pool.AtRest) : Settles o o
  | move {o o₁ o' : Observed τ} (m : Move) (unending : ∀ ticket e, m ≠ .finish ticket e)
      (moves : o.step? (.move m) = some o₁) (settles : Settles o₁ o') : Settles o o'

/-- Tasks that never end are submitted one after the other, and the pool settles after each. -/
inductive Fed (bounds : PoolConfig) : List τ → Observed τ → Prop where
  | start : Fed bounds [] (start bounds)
  | submit {ts : List τ} {o o₁ o' : Observed τ} (t : τ) (fed : Fed bounds ts o)
      (submits : o.step? (.submit t) = some o₁) (settles : Settles o₁ o') :
      Fed bounds (ts ++ [t]) o'

/-- Settling is a matter of the dispatcher and not of the submit calls. -/
theorem unending_settles (h : o.Unending bounds) (hs : Settles o o') :
    o'.Unending bounds ∧ o'.pool.AtRest ∧ o'.ledger.calls = o.ledger.calls := by
  induction hs with
  | rest hrest => exact ⟨h, hrest, rfl⟩
  | move m hm he _ ih =>
    obtain ⟨hunending, hrest, hcalls⟩ := ih (unending_move h hm he)
    refine ⟨hunending, hrest, hcalls.trans ?_⟩
    obtain ⟨q, -, rfl⟩ := Option.map_eq_some_iff.1 he
    exact Ledger.calls_follow ..

/-- **A dispatcher that goes on by itself settles**, if its turn is long enough. -/
theorem settles_advance (h : o.Unending bounds) {n : Nat} (hn : o.pool.load ≤ n) :
    ∃ l, Settles o ⟨o.pool.advance n, l⟩ := by
  induction n generalizing o with
  | zero =>
    -- a dispatcher with nothing left to do has exited
    have hexited : o.pool.dispatcher = .exited := by
      cases hd : o.pool.dispatcher <;> simp [Pool.load, Pool.Dispatcher.load, hd] at hn ⊢
    exact absurd h.accepting (h.closing.closed (.inr hexited))
  | succ n ih =>
    unfold Pool.advance
    cases hm : o.pool.nextMove? with
    | none => exact ⟨o.ledger, .rest (Pool.atRest_of_nextMove? hm h.accepting h.closing)⟩
    | some m =>
      obtain ⟨⟨q, hq⟩, hfinish⟩ := Pool.exists_next hm
      have he : o.step? (.move m) = some ⟨q, o.ledger.follow o.pool m⟩ := by
        simp only [step?, hq, Option.map_some]
      have hless := Pool.load_move hm hq
      obtain ⟨l, hs⟩ := ih (unending_move h hfinish he) (show q.load ≤ n by omega)
      refine ⟨l, .move m hfinish he ?_⟩
      simp only [Option.bind_some, hq, Option.map_some, Option.getD_some]
      exact hs

/-- So a pool that accepts tasks comes to rest. -/
theorem exists_settles (h : o.Unending bounds) : ∃ o', Settles o o' := by
  obtain ⟨l, hs⟩ := settles_advance h (Nat.le_refl _)
  exact ⟨_, hs⟩

theorem atRest_start (bounds : PoolConfig) : (Pool.start bounds : Pool τ).AtRest := by
  intro m q hq
  cases Pool.moved_of_move? hq with
  | finish j e hj => cases hj
  | collect e rest _ hu => cases hu
  | drain _ _ hp => exact absurd rfl hp
  | take j rest _ hq => cases hq
  | start j hd | exit hd _ _ | stop hd _ => cases hd

/-- A list that is filled up to a length, one element at a time. -/
theorem take_concat {α : Type} (xs : List α) (x : α) (n : Nat) :
    (xs ++ [x]).take n = if (xs.take n).length < n then xs.take n ++ [x] else xs.take n := by
  rw [List.take_append, List.length_take]
  by_cases hn : xs.length < n
  · rw [if_pos (by omega), List.take_of_length_le (show [x].length ≤ n - xs.length by simp; omega)]
  · rw [if_neg (by omega), show n - xs.length = 0 by omega, List.take_zero, List.append_nil]

/-- **How many tasks that never end a pool takes**: as many as it may run, one that the dispatcher
holds, and as many as the queue may hold. -/
theorem accepted_of_fed {ts : List τ} (hcap : 0 < bounds.queueCapacity) (h : Fed bounds ts o) :
    o.Unending bounds ∧ o.pool.AtRest ∧
      o.ledger.accepted = ts.take (bounds.maxWorkers + bounds.queueCapacity + 1) := by
  induction h with
  | start => exact ⟨unending_start bounds, atRest_start bounds, List.take_nil.symm⟩
  | submit t _ he hs ih =>
    obtain ⟨hunending, hrest, haccepted⟩ := ih
    obtain ⟨hunending', hrest', hcalls⟩ := unending_settles (unending_submit hunending t he) hs
    refine ⟨hunending', hrest', ?_⟩
    rw [Ledger.accepted, hcalls, ← Ledger.accepted, accepted_submit t he, take_concat,
      ← haccepted, if_congr (refusal?_of_atRest hunending hrest hcap) rfl rfl]

/-- Tasks can be submitted so, however many there are. -/
theorem exists_fed (hcap : 0 < bounds.queueCapacity) (ts : List τ) : ∃ o, Fed bounds ts o := by
  induction ts using List.reverseRecOn with
  | nil => exact ⟨_, .start⟩
  | append_singleton ts t ih =>
    obtain ⟨o, hfed⟩ := ih
    have hunending := unending_submit (accepted_of_fed hcap hfed).1 t rfl
    obtain ⟨o', hs⟩ := exists_settles hunending
    exact ⟨o', .submit t hfed rfl hs⟩

/-- Settling starts tasks and ends none. -/
theorem unfinished_settles (hs : Settles o o') : o'.pool.unfinished.Perm o.pool.unfinished := by
  induction hs with
  | rest _ => exact .refl _
  | move m hm he _ ih =>
    obtain ⟨q, hq, rfl⟩ := Option.map_eq_some_iff.1 he
    exact ih.trans (Pool.unfinished_move hm hq)

/-- A task that is unfinished has been accepted. -/
theorem mem_accepted_of_unfinished (hb : o.pool.Balanced o.ledger) {j : Job τ}
    (hj : j ∈ o.pool.unfinished) : j.task ∈ o.ledger.accepted := by
  have hjobs := (Pool.unfinished_append_ended hb).mem_iff.1 (List.mem_append_left _ hj)
  rw [← o.ledger.tasks_jobs]
  exact List.mem_map_of_mem hjobs

/-! ## Tasks that are only submitted -/

/-- **How many tasks a pool takes that makes no move**: as many as its queue may hold. -/
theorem accepted_of_submits (bounds : PoolConfig) (ts : List τ) :
    ∃ o, (start bounds).run? (ts.map .submit) = some o ∧ o.Unending bounds ∧
      o.pool.dispatcher = .idle ∧ o.ledger.started = [] ∧
      o.ledger.accepted = ts.take bounds.queueCapacity := by
  induction ts using List.reverseRecOn with
  | nil => exact ⟨_, rfl, unending_start bounds, rfl, rfl, List.take_nil.symm⟩
  | append_singleton ts t ih =>
    obtain ⟨o, hr, hunending, hidle, hstarted, haccepted⟩ := ih
    obtain ⟨o', he⟩ : ∃ o', o.step? (.submit t) = some o' := ⟨_, rfl⟩
    refine ⟨o', ?_, unending_submit hunending t he, ?_, ?_, ?_⟩
    · rw [List.map_append, List.map_singleton, run?_concat, hr]
      exact he
    · cases he
      exact (Pool.dispatcher_submit ..).trans hidle
    · cases he
      exact hstarted
    · -- all accepted tasks are still in the queue
      have hplaces := length_accepted hunending.balanced
      rw [hstarted, Pool.held_of_idle hidle, List.length_nil] at hplaces
      have hroom : o.pool.refusal? = none ↔ o.ledger.accepted.length < bounds.queueCapacity := by
        rw [Pool.refusal?_eq_none_iff, hunending.bounds_eq, hplaces]
        simp [hunending.accepting]
      rw [accepted_submit t he, take_concat, ← haccepted, if_congr hroom rfl rfl]

end Observed

end RoomWatch
