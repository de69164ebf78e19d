import Mathlib.Data.List.Perm.Basic
import RoomWatch.Proofs.Pool.Closing
import RoomWatch.Proofs.Pool.Effort

/-!
# Shutdown calls

A shutdown call does nothing when it is made. When it runs it takes two steps, and other calls may
come between them: it begins by closing the queue, and then it goes on to take the dispatcher's
handle. Only one call finds the handle, and it need not be the one that has begun first. It waits
for the dispatcher to exit, writes the counters to the log and returns. Every other call returns as
soon as it goes on.

A submit call takes two steps as well: it offers its task to the queue, and then it counts the
answer. Between them the counters lag behind.

A run (`ShutdownRun.run?`) is any list of the steps of submit calls, of the steps of any number of
shutdown calls, and of moves of the pool.

* `counted_offer`, `counted_count`: once every answer is counted, the two steps are one submit call.
* `stepped_of_step?`: what an event needs and what it does.
* `ShutdownRun.Sound`: how far the pool is closed, which call waits and what the log says fit
  together. Every step keeps this (`sound_step`), and so does every run (`sound_run`).
-/

namespace RoomWatch

variable {τ : Type}

/-- How far a shutdown call has got. -/
inductive ShutdownCall where
  /-- It has been made and has not run yet. -/
  | made
  /-- It has closed the queue. -/
  | begun
  /-- It waits for the dispatcher. -/
  | waiting
  | returned
  deriving DecidableEq

/-- Who waits for the dispatcher returns when it has exited. -/
def ShutdownCall.wake : ShutdownCall → ShutdownCall
  | .waiting => .returned
  | c => c

/-- Something that happens to a pool that may be shut down by several callers. A submit call may
come from a task that runs. -/
inductive ShutdownEvent (τ : Type) where
  /-- A submit call puts its task into the queue, or it is refused. -/
  | offer (task : τ)
  /-- The answer to a submit call is counted: the given one of those that have not been. -/
  | count (k : Nat)
  /-- Another shutdown call is made. -/
  | call
  /-- A shutdown call closes the queue. -/
  | begin (call : Nat)
  /-- A call that has begun goes on to take the dispatcher's handle. -/
  | proceed (call : Nat)
  | move (m : Move)

namespace ShutdownEvent

def task? : ShutdownEvent τ → Option τ
  | .offer t => some t
  | _ => none

def proceeding? : ShutdownEvent τ → Option Nat
  | .proceed i => some i
  | _ => none

end ShutdownEvent

/-- A pool, what has been seen of it, and its shutdown calls in the order in which they were
made. -/
structure ShutdownRun (τ : Type) where
  pool : Pool τ
  ledger : Ledger τ := {}
  /-- The answers to submit calls that have not been counted yet. -/
  uncounted : List (Except SubmitError Unit) := []
  calls : List ShutdownCall := []
  /-- The call that has taken the dispatcher's handle. -/
  taker? : Option Nat := none
  log : List LogLine

/-! ## Counters that lag behind -/

namespace Pool

variable {p q : Pool τ}

/-- The pool with so many accepted and so many refused tasks more in its counters. -/
def credit (p : Pool τ) (accepted refused : Nat) : Pool τ :=
  { p with
    stats := { p.stats with
      submitted := p.stats.submitted + accepted
      rejected := p.stats.rejected + refused } }

/-- No move depends on what has been counted. -/
theorem move?_credit {m : Move} (h : p.move? m = some q) (n k : Nat) :
    (p.credit n k).move? m = some (q.credit n k) := by
  cases moved_of_move? h with
  | take j rest hd hq =>
    simp only [move?, credit, hd, hq, take]
    split <;> rfl
  | start j hd => simp only [move?, credit, hd]
  | finish j ending hj =>
    rw [move_finish (p := p.credit n k) hj]
    cases hd : p.dispatcher <;> cases ending <;> simp [finish, release, credit, hd, countEnding]
  | collect e rest hd hu =>
    rcases hd with hd | hd <;> cases e <;>
      simp [move?, credit, hd, hu, collect, countCollected]
  | drain hd hq hp => simp only [move?, credit, hd, hq, if_neg hp]
  | exit hd hr hu => simp only [move?, credit, hd, hr, hu]
  | stop hd hp => simp only [move?, credit, hd, hp]

theorem follow_credit (l : Ledger τ) (p : Pool τ) (n k : Nat) (m : Move) :
    l.follow (p.credit n k) m = l.follow p m := by
  cases m <;> rfl

theorem shutdown_credit (p : Pool τ) (n k : Nat) :
    (p.credit n k).shutdown = p.shutdown.credit n k := by
  unfold shutdown credit
  split <;> rfl

/-- Counting an answer is a matter of the counters only. -/
theorem count_credit (p : Pool τ) (answer : Except SubmitError Unit) (n k : Nat) :
    (p.count answer).credit n k =
      p.credit (n + if answer.isOk then 1 else 0) (k + if !answer.isOk then 1 else 0) := by
  cases answer <;> simp [count, credit, Except.isOk, Except.toBool] <;> omega

/-- A submit call is an offer whose answer is counted, also where earlier answers are not. -/
theorem submit_credit (p : Pool τ) (n k : Nat) (t : τ) :
    (p.credit n k).submit t =
      (((p.offer n t).1.count (p.offer n t).2).credit n k, (p.offer n t).2) := by
  have hrefusal : (p.credit n k).refusal? = p.refusal? := rfl
  rw [submit_eq, hrefusal, offer]
  cases p.refusal? <;> simp [count, credit] <;> omega

end Pool

namespace ShutdownRun

variable {a b : ShutdownRun τ} {e : ShutdownEvent τ} {es fs : List (ShutdownEvent τ)}

def start (bounds : PoolConfig) : ShutdownRun τ where
  pool := .start bounds
  log := Pool.startLog bounds

/-- How many accepted tasks have not been counted yet. -/
def lag (a : ShutdownRun τ) : Nat := a.uncounted.countP Except.isOk

/-- How many refused tasks have not been counted yet. -/
def refusals (a : ShutdownRun τ) : Nat := a.uncounted.countP fun answer => !answer.isOk

/-- The pool as it is once every answer has been counted. -/
def counted (a : ShutdownRun τ) : Pool τ := a.pool.credit a.lag a.refusals

/-- The pool after something has happened to it; none if that is not possible. -/
def step? (a : ShutdownRun τ) : ShutdownEvent τ → Option (ShutdownRun τ)
  | .offer t =>
    let (q, answer) := a.pool.offer a.lag t
    some { a with
      pool := q
      ledger := a.ledger.enter t answer
      uncounted := a.uncounted ++ [answer] }
  | .count k =>
    (a.uncounted[k]?).map fun answer =>
      { a with pool := a.pool.count answer, uncounted := a.uncounted.eraseIdx k }
  | .call => some { a with calls := a.calls ++ [.made] }
  | .begin i =>
    if a.calls[i]? = some .made then
      some { a with pool := a.pool.shutdown, calls := a.calls.set i .begun }
    else none
  | .proceed i =>
    if a.calls[i]? = some .begun then
      match a.taker? with
      | none => some { a with calls := a.calls.set i .waiting, taker? := some i }
      | some _ => some { a with calls := a.calls.set i .returned }
    else none
  | .move m =>
    -- a shutdown call returns only if there is one that waits for the dispatcher
    if m = .stop ∧ a.taker? = none then none
    else (a.pool.move? m).map fun q =>
      { a with
        pool := q
        ledger := a.ledger.follow a.pool m
        calls := if m = .stop then a.calls.map .wake else a.calls
        log := a.log ++ a.pool.moveLog m }

/-- The pool after a run; none if something in it is not possible. -/
def run? (a : ShutdownRun τ) (es : List (ShutdownEvent τ)) : Option (ShutdownRun τ) :=
  es.foldlM step? a

theorem run?_cons (a : ShutdownRun τ) (e : ShutdownEvent τ) (es : List (ShutdownEvent τ)) :
    a.run? (e :: es) = (a.step? e).bind fun b => b.run? es := rfl

/-- What an event needs and what it does. -/
inductive Stepped (a : ShutdownRun τ) : ShutdownEvent τ → ShutdownRun τ → Prop where
  | offer (t : τ) : Stepped a (.offer t)
      { a with
        pool := (a.pool.offer a.lag t).1
        ledger := a.ledger.enter t (a.pool.offer a.lag t).2
        uncounted := a.uncounted ++ [(a.pool.offer a.lag t).2] }
  | count (k : Nat) (answer : Except SubmitError Unit) (open' : a.uncounted[k]? = some answer) :
      Stepped a (.count k)
        { a with pool := a.pool.count answer, uncounted := a.uncounted.eraseIdx k }
  | call : Stepped a .call { a with calls := a.calls ++ [.made] }
  | begin (i : Nat) (made : a.calls[i]? = some .made) : Stepped a (.begin i)
      { a with pool := a.pool.shutdown, calls := a.calls.set i .begun }
  | claim (i : Nat) (begun : a.calls[i]? = some .begun) (free : a.taker? = none) :
      Stepped a (.proceed i) { a with calls := a.calls.set i .waiting, taker? := some i }
  | further (i k : Nat) (begun : a.calls[i]? = some .begun) (taken : a.taker? = some k) :
      Stepped a (.proceed i) { a with calls := a.calls.set i .returned }
  | stop (i : Nat) (q : Pool τ) (waits : a.taker? = some i) (moves : a.pool.move? .stop = some q) :
      Stepped a (.move .stop)
        { a with
          pool := q
          calls := a.calls.map .wake
          log := a.log ++ [.poolStopped a.pool.stats] }
  | move (m : Move) (q : Pool τ) (own : m ≠ .stop) (moves : a.pool.move? m = some q) :
      Stepped a (.move m) { a with pool := q, ledger := a.ledger.follow a.pool m }

theorem stepped_of_step? (h : a.step? e = some b) : a.Stepped e b := by
  cases e with
  | offer t => cases h; exact .offer t
  | count k =>
    obtain ⟨answer, hk, rfl⟩ := Option.map_eq_some_iff.1 h
    exact .count k answer hk
  | call => cases h; exact .call
  | begin i =>
    simp only [step?] at h
    split at h
    · next hi => cases h; exact .begin i hi
    · cases h
  | proceed i =>
    simp only [step?] at h
    split at h
    · next hi =>
      split at h
      · next htaker => cases h; exact .claim i hi htaker
      · next k htaker => cases h; exact .further i k hi htaker
    · cases h
  | move m =>
    simp only [step?] at h
    split at h
    · cases h
    · next hm =>
      obtain ⟨q, hq, rfl⟩ := Option.map_eq_some_iff.1 h
      by_cases hs : m = .stop
      · subst hs
        obtain ⟨i, hi⟩ := Option.ne_none_iff_exists'.1 fun hnone => hm ⟨rfl, hnone⟩
        exact .stop i q hi hq
      · have hlog : a.pool.moveLog m = [] := by cases m <;> first | rfl | exact absurd rfl hs
        rw [hlog, List.append_nil, if_neg hs]
        exact .move m q hs hq

/-- What every step keeps holds after every run. -/
theorem run_induction {P : ShutdownRun τ → Prop}
    (hstep : ∀ {a b : ShutdownRun τ} {e}, P a → a.step? e = some b → P b) (h : P a)
    (hr : a.run? es = some b) : P b :=
  foldlM_induction hr h fun _ _ _ => hstep

/-! ## The two steps of a submit call -/

/-- **Once every answer is counted, an offer has been a submit call.** -/
theorem counted_offer (a : ShutdownRun τ) (t : τ) :
    a.counted.submit t =
      (({ a with
          pool := (a.pool.offer a.lag t).1
          ledger := a.ledger.enter t (a.pool.offer a.lag t).2
          uncounted := a.uncounted ++ [(a.pool.offer a.lag t).2] } : ShutdownRun τ).counted,
        (a.pool.offer a.lag t).2) := by
  rw [counted, Pool.submit_credit, Pool.count_credit]
  simp only [counted, lag, refusals, List.countP_append, List.countP_singleton]
  rfl

/-- Counting an answer changes nothing once every answer is counted. -/
theorem counted_count {k : Nat} {answer : Except SubmitError Unit}
    (hk : a.uncounted[k]? = some answer) :
    ({ a with pool := a.pool.count answer, uncounted := a.uncounted.eraseIdx k } :
      ShutdownRun τ).counted = a.counted := by
  obtain ⟨hlt, rfl⟩ := List.getElem?_eq_some_iff.1 hk
  have hperm := List.getElem_cons_eraseIdx_perm hlt
  have hlag := hperm.countP_eq Except.isOk
  have hrefusals := hperm.countP_eq fun answer => !answer.isOk
  rw [List.countP_cons] at hlag hrefusals
  rw [counted, counted, Pool.count_credit]
  simp only [lag, refusals]
  rw [hlag, ← hrefusals]

/-! ## What every step keeps -/

/-- Some call has closed the queue. -/
def Begun (a : ShutdownRun τ) : Prop := ∃ c ∈ a.calls, c ≠ .made

/-- What the call that has taken the dispatcher's handle is doing. -/
def takerCall (a : ShutdownRun τ) : ShutdownCall :=
  if a.pool.phase = .stopped then .returned else .waiting

/-- The log of a pool with the given counters. -/
def Logged (a : ShutdownRun τ) : Prop :=
  if a.pool.phase = .stopped then
    ∃ submitted ≤ a.pool.stats.submitted, ∃ rejected ≤ a.pool.stats.rejected, a.log =
      Pool.startLog a.pool.bounds ++
        [.poolStopped ⟨submitted, rejected, a.pool.stats.completed, a.pool.stats.panicked⟩]
  else a.log = Pool.startLog a.pool.bounds

/-- **What every step keeps.** -/
structure Sound (a : ShutdownRun τ) : Prop where
  closing : a.counted.Closing
  balanced : a.counted.Balanced a.ledger
  permitted : a.counted.Permitted
  closed : a.Begun → a.pool.phase ≠ .accepting
  unclaimed : a.taker? = none → a.pool.phase ≠ .stopped ∧ ∀ c ∈ a.calls, c = .made ∨ c = .begun
  claimed : ∀ i, a.taker? = some i → a.calls[i]? = some a.takerCall
  /-- No call but the one that has taken the handle waits. -/
  alone : ∀ i, a.calls[i]? = some .waiting → a.taker? = some i
  logged : a.Logged

theorem sound_start (bounds : PoolConfig) : (start bounds : ShutdownRun τ).Sound where
  closing := Pool.closing_start bounds
  balanced := Pool.balanced_start bounds
  permitted := Pool.permitted_start bounds
  closed := by
    rintro ⟨c, hc, -⟩
    cases hc
  unclaimed := fun _ => ⟨nofun, nofun⟩
  claimed := nofun
  alone := nofun
  logged := rfl

theorem Sound.begun (h : a.Sound) {i : Nat} (hi : a.taker? = some i) : a.Begun := by
  refine ⟨a.takerCall, List.mem_of_getElem? (h.claimed i hi), ?_⟩
  unfold takerCall
  split <;> nofun

/-- What the log says stays right while submit calls are counted. -/
theorem logged_of_le (h : a.Logged) (hphase : b.pool.phase = a.pool.phase)
    (hbounds : b.pool.bounds = a.pool.bounds) (hlog : b.log = a.log)
    (hsubmitted : a.pool.stats.submitted ≤ b.pool.stats.submitted)
    (hrejected : a.pool.stats.rejected ≤ b.pool.stats.rejected)
    (hcompleted : b.pool.stats.completed = a.pool.stats.completed)
    (hpanicked : b.pool.stats.panicked = a.pool.stats.panicked) : b.Logged := by
  unfold Logged at h ⊢
  rw [hphase, hbounds, hlog, hcompleted, hpanicked]
  split
  · next hs =>
    rw [if_pos hs] at h
    obtain ⟨submitted, hsub, rejected, hrej, heq⟩ := h
    exact ⟨submitted, Nat.le_trans hsub hsubmitted, rejected, Nat.le_trans hrej hrejected, heq⟩
  · next hs =>
    rw [if_neg hs] at h
    exact h

/-- What happens to submit calls alone has nothing to do with shutdown calls. -/
theorem Sound.of_submitting (h : a.Sound) (hclosing : b.counted.Closing)
    (hbalanced : b.counted.Balanced b.ledger) (hpermitted : b.counted.Permitted)
    (hphase : b.pool.phase = a.pool.phase) (hcalls : b.calls = a.calls)
    (htaker : b.taker? = a.taker?) (hlogged : b.Logged) : b.Sound where
  closing := hclosing
  balanced := hbalanced
  permitted := hpermitted
  closed := by
    rw [Begun, hcalls, hphase]
    exact h.closed
  unclaimed := by
    rw [hcalls, hphase, htaker]
    exact h.unclaimed
  claimed := by
    rw [hcalls, takerCall, hphase, htaker]
    exact h.claimed
  alone := by
    rw [hcalls, htaker]
    exact h.alone
  logged := hlogged

theorem sound_offer (h : a.Sound) (t : τ) :
    { a with
      pool := (a.pool.offer a.lag t).1
      ledger := a.ledger.enter t (a.pool.offer a.lag t).2
      uncounted := a.uncounted ++ [(a.pool.offer a.lag t).2] : ShutdownRun τ }.Sound := by
  have hclosing := Pool.closing_submit h.closing t
  have hbalanced := Pool.balanced_submit h.balanced t
  have hpermitted := Pool.permitted_submit h.permitted t
  rw [counted_offer] at hclosing hbalanced hpermitted
  have hphase : (a.pool.offer a.lag t).1.phase = a.pool.phase := by
    unfold Pool.offer; split <;> rfl
  refine h.of_submitting hclosing hbalanced hpermitted hphase rfl rfl ?_
  refine logged_of_le h.logged hphase ?_ rfl ?_ ?_ ?_ ?_ <;>
    (unfold Pool.offer; split <;> simp)

theorem sound_count (h : a.Sound) {k : Nat} {answer : Except SubmitError Unit}
    (hk : a.uncounted[k]? = some answer) :
    { a with pool := a.pool.count answer, uncounted := a.uncounted.eraseIdx k :
      ShutdownRun τ }.Sound := by
  have hcounted := counted_count hk
  have hphase : (a.pool.count answer).phase = a.pool.phase := by cases answer <;> rfl
  refine h.of_submitting ?_ ?_ ?_ hphase rfl rfl ?_
  · rw [hcounted]; exact h.closing
  · rw [hcounted]; exact h.balanced
  · rw [hcounted]; exact h.permitted
  · refine logged_of_le h.logged hphase ?_ rfl ?_ ?_ ?_ ?_ <;>
      cases answer <;> simp [Pool.count]

theorem sound_call (h : a.Sound) :
    { a with calls := a.calls ++ [.made] : ShutdownRun τ }.Sound where
  closing := h.closing
  balanced := h.balanced
  permitted := h.permitted
  closed := by
    rintro ⟨c, hc, hmade⟩
    rcases List.mem_append.1 hc with hc | hc
    · exact h.closed ⟨c, hc, hmade⟩
    · exact absurd (List.mem_singleton.1 hc) hmade
  unclaimed := fun htaker => by
    obtain ⟨hphase, hcalls⟩ := h.unclaimed htaker
    refine ⟨hphase, fun c hc => ?_⟩
    rcases List.mem_append.1 hc with hc | hc
    · exact hcalls c hc
    · exact .inl (List.mem_singleton.1 hc)
  claimed := fun i hi => by
    have hcall := h.claimed i hi
    rw [List.getElem?_append_left (List.getElem?_eq_some_iff.1 hcall).1]
    exact hcall
  alone := fun i hi => by
    by_cases hlt : i < a.calls.length
    · rw [List.getElem?_append_left hlt] at hi
      exact h.alone i hi
    · rw [List.getElem?_append_right (Nat.le_of_not_lt hlt)] at hi
      cases List.mem_singleton.1 (List.mem_of_getElem? hi)
  logged := h.logged

theorem sound_begin (h : a.Sound) {i : Nat} (hi : a.calls[i]? = some .made) :
    { a with pool := a.pool.shutdown, calls := a.calls.set i .begun : ShutdownRun τ }.Sound where
  closing := by
    have := Pool.closing_shutdown h.closing
    rwa [counted, Pool.shutdown_credit] at this
  balanced := by
    have := Pool.balanced_shutdown h.balanced
    rwa [counted, Pool.shutdown_credit] at this
  permitted := by
    have := Pool.permitted_shutdown h.permitted
    rwa [counted, Pool.shutdown_credit] at this
  closed := fun _ => Pool.not_accepting_shutdown a.pool
  unclaimed := fun htaker => by
    obtain ⟨hphase, hcalls⟩ := h.unclaimed htaker
    refine ⟨fun hs => hphase ((Pool.stopped_shutdown _).1 hs), fun c hc => ?_⟩
    rcases List.mem_or_eq_of_mem_set hc with hc | rfl
    · exact hcalls c hc
    · exact .inr rfl
  claimed := fun k hk => by
    -- the call that has taken the handle has begun before
    have hcall := h.claimed k hk
    have hik : i ≠ k := by
      rintro rfl
      rw [hi] at hcall
      unfold takerCall at hcall
      split at hcall <;> cases hcall
    rw [List.getElem?_set_ne hik, hcall]
    simp only [takerCall, Pool.stopped_shutdown]
  alone := fun k hk => by
    by_cases hik : i = k
    · subst hik
      rw [List.getElem?_set_self (List.getElem?_eq_some_iff.1 hi).1] at hk
      cases hk
    · rw [List.getElem?_set_ne hik] at hk
      exact h.alone k hk
  logged := by
    have hl := h.logged
    have hstats : a.pool.shutdown.stats = a.pool.stats := by unfold Pool.shutdown; split <;> rfl
    unfold Logged at hl ⊢
    simp only [Pool.stopped_shutdown, hstats, Pool.bounds_shutdown]
    exact hl

/-- A call takes the handle and begins to wait. -/
theorem sound_claim (h : a.Sound) {i : Nat} (hi : a.calls[i]? = some .begun)
    (htaker : a.taker? = none) :
    { a with calls := a.calls.set i .waiting, taker? := some i : ShutdownRun τ }.Sound where
  closing := h.closing
  balanced := h.balanced
  permitted := h.permitted
  closed := fun _ => h.closed ⟨_, List.mem_of_getElem? hi, nofun⟩
  unclaimed := nofun
  claimed := fun k hk => by
    cases hk
    simp only [takerCall, if_neg (h.unclaimed htaker).1]
    exact List.getElem?_set_self (List.getElem?_eq_some_iff.1 hi).1
  alone := fun k hk => by
    by_cases hik : i = k
    · rw [hik]
    · rw [List.getElem?_set_ne hik] at hk
      have := h.alone k hk
      rw [htaker] at this
      cases this
  logged := h.logged

/-- A call that finds no handle returns. -/
theorem sound_further (h : a.Sound) {i k : Nat} (hi : a.calls[i]? = some .begun)
    (hk : a.taker? = some k) :
    { a with calls := a.calls.set i .returned : ShutdownRun τ }.Sound where
  closing := h.closing
  balanced := h.balanced
  permitted := h.permitted
  closed := fun _ => h.closed (h.begun hk)
  unclaimed := fun hnone => by
    rw [hk] at hnone
    cases hnone
  claimed := fun j hj => by
    -- the call that has taken the handle has gone on before
    have hcall := h.claimed j hj
    have hij : i ≠ j := by
      rintro rfl
      rw [hi] at hcall
      unfold takerCall at hcall
      split at hcall <;> cases hcall
    rw [List.getElem?_set_ne hij]
    exact hcall
  alone := fun j hj => by
    by_cases hij : i = j
    · subst hij
      rw [List.getElem?_set_self (List.getElem?_eq_some_iff.1 hi).1] at hj
      cases hj
    · rw [List.getElem?_set_ne hij] at hj
      exact h.alone j hj
  logged := h.logged

/-- What a move keeps of the pool, once every answer is counted. -/
theorem counted_move (h : a.Sound) {m : Move} {q : Pool τ} (hq : a.pool.move? m = some q) :
    (q.credit a.lag a.refusals).Closing ∧
      (q.credit a.lag a.refusals).Balanced (a.ledger.follow a.pool m) ∧
      (q.credit a.lag a.refusals).Permitted := by
  have hcounted : a.counted.move? m = some (q.credit a.lag a.refusals) :=
    Pool.move?_credit hq a.lag a.refusals
  have hbalanced := Pool.balanced_move h.balanced hcounted
  rw [counted, Pool.follow_credit] at hbalanced
  exact ⟨Pool.closing_move h.closing hcounted, hbalanced,
    Pool.permitted_move h.permitted h.balanced hcounted⟩

/-- The call that has taken the handle returns when the dispatcher has exited. -/
theorem sound_stop (h : a.Sound) {i : Nat} (hi : a.taker? = some i) {q : Pool τ}
    (hq : a.pool.move? .stop = some q) :
    { a with
      pool := q
      calls := a.calls.map .wake
      log := a.log ++ [.poolStopped a.pool.stats] : ShutdownRun τ }.Sound := by
  obtain ⟨hclosing, hbalanced, hpermitted⟩ := counted_move h hq
  have hcall := h.claimed i hi
  have hlog := h.logged
  cases Pool.moved_of_move? hq with
  | stop hd hp =>
    have hrun : a.pool.phase ≠ .stopped := by rw [hp]; nofun
    rw [takerCall, if_neg hrun] at hcall
    rw [Logged, if_neg hrun] at hlog
    refine ⟨hclosing, hbalanced, hpermitted, fun _ => nofun, ?_, ?_, ?_, ?_⟩
    · intro hnone
      rw [hi] at hnone
      cases hnone
    · intro k hk
      obtain rfl : i = k := Option.some.inj (hi.symm.trans hk)
      rw [List.getElem?_map, hcall]
      rfl
    · intro k hk
      rw [List.getElem?_map] at hk
      obtain ⟨c, -, hc⟩ := Option.map_eq_some_iff.1 hk
      cases c <;> cases hc
    · rw [hlog]
      exact ⟨_, Nat.le_refl _, _, Nat.le_refl _, rfl⟩

theorem sound_move (h : a.Sound) {m : Move} (hm : m ≠ .stop) {q : Pool τ}
    (hq : a.pool.move? m = some q) :
    { a with pool := q, ledger := a.ledger.follow a.pool m : ShutdownRun τ }.Sound := by
  obtain ⟨hclosing, hbalanced, hpermitted⟩ := counted_move h hq
  have hphase := Pool.phase_move hm hq
  have hrun : a.pool.phase ≠ .stopped := fun hs =>
    Pool.no_move_of_stopped h.closing hs m (Pool.move?_credit hq a.lag a.refusals)
  have hlog := h.logged
  rw [Logged, if_neg hrun] at hlog
  refine h.of_submitting hclosing hbalanced hpermitted hphase rfl rfl ?_
  rw [Logged, hphase, if_neg hrun, Pool.bounds_move hq]
  exact hlog

/-- **Every step keeps a pool and its shutdown calls sound.** -/
theorem sound_step (h : a.Sound) (he : a.step? e = some b) : b.Sound := by
  cases stepped_of_step? he with
  | offer t => exact sound_offer h t
  | count k answer hk => exact sound_count h hk
  | call => exact sound_call h
  | begin i hi => exact sound_begin h hi
  | claim i hi htaker => exact sound_claim h hi htaker
  | further i k hi hk => exact sound_further h hi hk
  | stop i q hi hq => exact sound_stop h hi hq
  | move m q hm hq => exact sound_move h hm hq

theorem sound_run (h : a.Sound) (hr : a.run? es = some b) : b.Sound :=
  run_induction sound_step h hr

end ShutdownRun

end RoomWatch
