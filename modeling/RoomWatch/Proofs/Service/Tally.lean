import Mathlib.Data.List.Perm.Basic
import RoomWatch.Proofs.Service.Crowd

/-!
# What the calls of a crowd add up to

However the steps of calls are interleaved, each call makes all of its steps in its own order, and
only the order in which the calls consult the registry can be noticed afterwards.

* `learn`: what calls learn when they consult the registry one after another.
* `Crowd.Tallied`: the steps so far are those that the calls have behind them, up to order. Every
  step keeps this (`tallied_step`).
* `Crowd.agree_of_finished`: **two crowds of the same calls come to the same if the calls have
  consulted the registry in the same order.**
-/

namespace RoomWatch

/-- One element of a list is replaced: what this means for the list up to order. -/
theorem exists_perm_set {α : Type} {l : List α} {i : Nat} {x : α} (h : l[i]? = some x) :
    ∃ rest, l.Perm (x :: rest) ∧ ∀ y, (l.set i y).Perm (y :: rest) := by
  obtain ⟨hi, rfl⟩ := List.getElem?_eq_some_iff.1 h
  exact ⟨l.eraseIdx i, (List.getElem_cons_eraseIdx_perm hi).symm,
    fun y => List.set_perm_cons_eraseIdx hi y⟩

/-- A record of what the elements of a list have put out, when one of them puts out more. -/
theorem perm_filterMap_set {α β : Type} {g : α → Option β} {record out : List β} {l : List α}
    {i : Nat} {x y : α} (h : record.Perm (l.filterMap g)) (hx : l[i]? = some x)
    (hy : (g y).toList = (g x).toList ++ out) :
    (record ++ out).Perm ((l.set i y).filterMap g) := by
  obtain ⟨rest, hl, hset⟩ := exists_perm_set hx
  have hold := h.trans (hl.filterMap g)
  have hnew := (hset y).filterMap g
  rw [filterMap_cons_toList] at hold hnew
  refine ((hold.append_right out).trans ?_).trans hnew.symm
  rw [hy, List.append_assoc, List.append_assoc]
  exact List.perm_append_comm.append_left _

namespace Call

/-- Whether a call consults the registry. -/
def consults (c : Call) : Bool := decide (Part.consult ∈ c.parts)

/-- The order in which a call makes the steps that are left of it: none of them twice, and the
registry is consulted before the event is sent. -/
def Orderly (c : Call) : List Atom → Prop
  | [] => True
  | .consult :: left =>
    c.consults = true ∧ .consult ∉ left ∧ (.send ∈ left ∨ c.transition? = none) ∧ c.Orderly left
  | .notify :: left => .notify ∉ left ∧ c.Orderly left
  | .send :: left => .send ∉ left ∧ c.Orderly left
  | .add _ :: left | .report :: left => c.Orderly left

theorem orderly_atoms (clock : Int64) (c : Call) : c.Orderly (c.atoms clock) := by
  cases c <;>
    simp [Orderly, atoms, parts, partAtoms, count?, Count.increments, consults, transition?]

theorem Orderly.tail {c : Call} {t : Atom} {left : List Atom} (h : c.Orderly (t :: left)) :
    c.Orderly left := by
  cases t with
  | consult => exact h.2.2.2
  | add d => exact h
  | notify => exact h.2
  | send => exact h.2
  | report => exact h

/-- A call has a step for everything that it does. -/
theorem mem_atoms (clock : Int64) (c : Call) :
    (.send ∈ c.atoms clock ∨ c.transition? = none) ∧
      (.notify ∈ c.atoms clock ∨ c.webhookKind? = none) ∧
      (.consult ∈ c.atoms clock ∨ c.consults = false) := by
  cases c <;>
    simp [atoms, parts, partAtoms, count?, Count.increments, consults, transition?, webhookKind?]

/-- What a call adds to the counters. -/
def deltas (clock : Int64) (c : Call) : List Metrics := (c.atoms clock).filterMap Atom.delta?

end Call

namespace Account

/-- What has been learnt by a call that consults the registry. -/
def told? (x : Account) : Option Account := if x.call.consults then some x else none

theorem handing?_eq_none {x : Account} (h : x.call.transition? = none) :
    x.handing? .send = none := by
  unfold handing? event?
  rw [Call.event?_eq_report?, Call.report?, h]
  rfl

theorem creation?_eq_none {s : Service} {x : Account} (h : x.call.webhookKind? = none) :
    x.creation? s .notify = none := by
  unfold creation? Service.delivery? Call.notice?
  rw [h]
  rfl

end Account

namespace Activity

/-- What comes of one of the steps of a call, if the call has made it. -/
def done? {β : Type} (u : Atom) (f : Account → Option β) (x : Activity) : Option β :=
  if u ∈ x.left then none else f x.toAccount

/-- Of a call that has only begun, nothing has come yet. -/
theorem done?_begun {β : Type} {u : Atom} {f : Account → Option β} {x : Activity}
    (h : u ∈ x.left ∨ f x.toAccount = none) : x.done? u f = none := by
  unfold done?
  split
  · rfl
  · next hu => exact h.resolve_left hu

theorem done?_of_finished {β : Type} {u : Atom} {f : Account → Option β} {x : Activity}
    (h : x.left = []) : x.done? u f = f x.toAccount := by
  unfold done?
  rw [h, if_neg List.not_mem_nil]

/-- What has come of a step changes only when the step is made. -/
theorem toList_done? {β : Type} {u t : Atom} {f : Account → Option β} {x y : Account}
    {left : List Atom} (honce : t = u → u ∉ left) (hsame : t ≠ u → u ∉ left → f y = f x) :
    (done? u f ⟨y, left⟩).toList =
      (done? u f ⟨x, t :: left⟩).toList ++ if t = u then (f y).toList else [] := by
  unfold done?
  by_cases ht : t = u
  · have hin : u ∈ t :: left := ht ▸ List.mem_cons_self
    rw [if_neg (honce ht), if_pos hin, if_pos ht]
    rfl
  · rw [if_neg ht, List.append_nil]
    by_cases hu : u ∈ left
    · rw [if_pos hu, if_pos (List.mem_cons_of_mem t hu)]
    · have hout : u ∉ t :: left := by
        rw [List.mem_cons]
        rintro (rfl | h)
        · exact ht rfl
        · exact hu h
      rw [if_neg hu, if_neg hout, hsame ht hu]

/-- What all steps of a call add to the counters. -/
def total (x : Activity) : List Metrics := x.call.deltas x.moment.clock

/-- What the remaining steps of a call will add to the counters. -/
def owed (x : Activity) : List Metrics := x.left.filterMap Atom.delta?

end Activity

/-- What calls learn when they consult the registry one after another. -/
def learn (r : Registry) : List (Moment × Call) → List Account
  | [] => []
  | (m, c) :: calls => ⟨m, c, (c.consult r).result⟩ :: learn (c.consult r).state calls

theorem learn_append (r : Registry) (calls more : List (Moment × Call)) :
    learn r (calls ++ more) = learn r calls ++ learn (Crowd.consultAll r calls) more := by
  induction calls generalizing r with
  | nil => rfl
  | cons x calls ih => exact congrArg (_ :: ·) (ih _)

/-- Who has learnt something has learnt it from the registry as earlier calls have left it. -/
theorem mem_learn {r : Registry} {calls : List (Moment × Call)} {x : Account}
    (h : x ∈ learn r calls) :
    ∃ earlier later, calls = earlier ++ (x.moment, x.call) :: later ∧
      x.seen = (x.call.consult (Crowd.consultAll r earlier)).result := by
  induction calls generalizing r with
  | nil => cases h
  | cons y calls ih =>
    rcases List.mem_cons.1 h with rfl | h
    · exact ⟨[], calls, rfl, rfl⟩
    · obtain ⟨earlier, later, rfl, hseen⟩ := ih h
      exact ⟨y :: earlier, later, rfl, hseen⟩

namespace Crowd

variable {s : Service} {a b : Crowd} {e : CrowdEvent} {es : List CrowdEvent}

/-- **The steps so far are those that the calls have behind them.** -/
structure Tallied (s : Service) (a : Crowd) : Prop where
  handed : a.handed.Perm (a.activities.filterMap (Activity.done? .send (·.handing? .send)))
  created : (a.steps.filterMap fun y => y.1.creation? s y.2).Perm
    (a.activities.filterMap (Activity.done? .notify (·.creation? s .notify)))
  told : (learn s.registry a.consulted).Perm
    (a.activities.filterMap (Activity.done? .consult Account.told?))
  added : (a.added ++ a.activities.flatMap Activity.owed).Perm
    (a.activities.flatMap Activity.total)
  orderly : ∀ x ∈ a.activities, x.call.Orderly x.left
  /-- Who has not consulted the registry has not learnt anything. -/
  fresh : ∀ x ∈ a.activities, .consult ∈ x.left ∨ x.call.consults = false → x.seen = {}

theorem filterMap_enter {β : Type} {g : Activity → Option β} (m : Moment) (c : Call)
    (h : g { moment := m, call := c, left := c.atoms m.clock } = none) :
    (a.enter m c).activities.filterMap g = a.activities.filterMap g := by
  simp only [enter, List.filterMap_append, List.filterMap_cons, h, List.filterMap_nil,
    List.append_nil]

theorem tallied_enter (h : Tallied s a) (m : Moment) (c : Call) : Tallied s (a.enter m c) := by
  obtain ⟨hsend, hnotify, hconsult⟩ := c.mem_atoms m.clock
  refine ⟨?_, ?_, ?_, ?_, ?_, ?_⟩
  · rw [filterMap_enter]
    · exact h.handed
    · exact Activity.done?_begun (hsend.imp_right Account.handing?_eq_none)
  · rw [filterMap_enter]
    · exact h.created
    · exact Activity.done?_begun (hnotify.imp_right Account.creation?_eq_none)
  · rw [filterMap_enter]
    · exact h.told
    · exact Activity.done?_begun (hconsult.imp_right fun hc => by rw [Account.told?, hc]; rfl)
  · -- a call that begins owes everything
    simp only [enter, List.flatMap_append, List.flatMap_singleton]
    rw [← List.append_assoc]
    exact h.added.append_right _
  · intro x hx
    rcases List.mem_append.1 hx with hx | hx
    · exact h.orderly x hx
    · rw [List.mem_singleton.1 hx]
      exact c.orderly_atoms m.clock
  · intro x hx
    rcases List.mem_append.1 hx with hx | hx
    · exact h.fresh x hx
    · rw [List.mem_singleton.1 hx]
      exact fun _ => rfl

section Make

variable {i : Nat} {x : Account} {t : Atom} {left : List Atom}

theorem handed_make
    (h : a.handed.Perm (a.activities.filterMap (Activity.done? .send (·.handing? .send))))
    (hx : a.activities[i]? = some ⟨x, t :: left⟩) (ho : x.call.Orderly (t :: left)) :
    (a.make i x t left).handed.Perm
      ((a.make i x t left).activities.filterMap (Activity.done? .send (·.handing? .send))) := by
  rw [handed, filterMap_make]
  refine perm_filterMap_set h hx ?_
  refine (Activity.toList_done? (x := x) (t := t) ?_ ?_).trans (congrArg _ ?_)
  · rintro rfl
    exact ho.1
  · -- a call that consults the registry after its event would not know what to send
    intro _ hsend
    by_cases hc : t = .consult
    · subst hc
      have hnone := ho.2.2.1.resolve_left hsend
      exact (Account.handing?_eq_none (x := a.service.account x _) hnone).trans
        (Account.handing?_eq_none hnone).symm
    · rw [Service.account_of_ne _ _ hc]
  · cases t with
    | send =>
      have hsame : a.service.account x .send = x := Service.account_of_ne _ _ (by decide)
      rw [if_pos rfl, hsame]
    | _ => rfl

/-- What a step adds to the deliveries that a call has submitted, whatever it learns in it. -/
theorem toList_done?_creation (s : Service) (ho : x.call.Orderly (t :: left)) (seen : Seen) :
    (Activity.done? .notify (·.creation? s .notify) ⟨{ x with seen }, left⟩).toList =
      (Activity.done? .notify (·.creation? s .notify) ⟨x, t :: left⟩).toList ++
        (x.creation? s t).toList := by
  refine (Activity.toList_done? (x := x) (t := t) ?_ ?_).trans (congrArg _ ?_)
  · rintro rfl
    exact ho.1
  · exact fun _ _ => rfl
  · cases t <;> rfl

theorem created_make
    (h : (a.steps.filterMap fun y => y.1.creation? s y.2).Perm
      (a.activities.filterMap (Activity.done? .notify (·.creation? s .notify))))
    (hx : a.activities[i]? = some ⟨x, t :: left⟩) (ho : x.call.Orderly (t :: left)) :
    ((a.make i x t left).steps.filterMap fun y => y.1.creation? s y.2).Perm
      ((a.make i x t left).activities.filterMap
        (Activity.done? .notify (·.creation? s .notify))) := by
  rw [filterMap_make]
  exact perm_filterMap_set h hx (toList_done?_creation s ho _)

theorem told_make (hk : Kept s a)
    (h : (learn s.registry a.consulted).Perm
      (a.activities.filterMap (Activity.done? .consult Account.told?)))
    (hx : a.activities[i]? = some ⟨x, t :: left⟩) (ho : x.call.Orderly (t :: left)) :
    (learn s.registry (a.make i x t left).consulted).Perm
      ((a.make i x t left).activities.filterMap (Activity.done? .consult Account.told?)) := by
  rw [consulted, filterMap_make, learn_append, ← consulted, ← hk.registry]
  refine perm_filterMap_set h hx ?_
  refine (Activity.toList_done? (x := x) (t := t) ?_ ?_).trans (congrArg _ ?_)
  · rintro rfl
    exact ho.2.1
  · intro hc _
    rw [Service.account_of_ne _ _ hc]
  · by_cases hc : t = .consult
    · subst hc
      rw [if_pos rfl]
      have hconsults : (a.service.account x .consult).call.consults = true := ho.1
      rw [Account.told?, if_pos hconsults]
      rfl
    · rw [if_neg hc]
      cases t with
      | consult => exact absurd rfl hc
      | _ => rfl

theorem added_make
    (h : (a.added ++ a.activities.flatMap Activity.owed).Perm
      (a.activities.flatMap Activity.total))
    (hx : a.activities[i]? = some ⟨x, t :: left⟩) :
    ((a.make i x t left).added ++ (a.make i x t left).activities.flatMap Activity.owed).Perm
      ((a.make i x t left).activities.flatMap Activity.total) := by
  obtain ⟨rest, hl, hset⟩ := exists_perm_set hx
  have hnew := hset ⟨a.service.account x t, left⟩
  -- what the step adds is no longer owed, and the call remains who it is
  have howed : Activity.owed ⟨x, t :: left⟩ =
      t.delta?.toList ++ Activity.owed ⟨a.service.account x t, left⟩ :=
    filterMap_cons_toList ..
  have htotal : ((a.make i x t left).activities.flatMap Activity.total).Perm
      (a.activities.flatMap Activity.total) :=
    (hnew.flatMap_right Activity.total).trans (hl.flatMap_right Activity.total).symm
  refine List.Perm.trans ?_ (h.trans htotal.symm)
  have hbefore := (hl.flatMap_right Activity.owed).append_left a.added
  have hafter := (hnew.flatMap_right Activity.owed).append_left (a.make i x t left).added
  refine (hafter.trans ?_).trans hbefore.symm
  rw [List.flatMap_cons, List.flatMap_cons, howed, added, filterMap_make, List.append_assoc,
    List.append_assoc]
  rfl

end Make

theorem tallied_make (h : Tallied s a) (hk : Kept s a) {i : Nat} {x : Account} {t : Atom}
    {left : List Atom} (hx : a.activities[i]? = some ⟨x, t :: left⟩) :
    Tallied s (a.make i x t left) := by
  have hmem := List.mem_of_getElem? hx
  have ho : x.call.Orderly (t :: left) := h.orderly _ hmem
  refine ⟨handed_make h.handed hx ho, created_make h.created hx ho, told_make hk h.told hx ho,
    added_make h.added hx, ?_, ?_⟩
  · intro y hy
    rcases List.mem_or_eq_of_mem_set hy with hy | rfl
    · exact h.orderly y hy
    · exact ho.tail
  · intro y hy
    rcases List.mem_or_eq_of_mem_set hy with hy | rfl
    · exact h.fresh y hy
    · intro hfresh
      by_cases hc : t = .consult
      · subst hc
        rcases hfresh with hfresh | hfresh
        · exact absurd hfresh ho.2.1
        · exact absurd (ho.1.symm.trans hfresh) nofun
      · have hseen := h.fresh _ hmem (hfresh.imp_left (List.mem_cons_of_mem t))
        rw [Service.account_of_ne _ _ hc]
        exact hseen

/-- **Every step keeps the tally.** -/
theorem tallied_step (h : Tallied s a ∧ Kept s a) (he : a.Stepped e b) :
    Tallied s b ∧ Kept s b := by
  refine ⟨?_, kept_step h.2 he⟩
  cases he with
  | begin m c => exact tallied_enter h.1 m c
  | act i x t left hx => exact tallied_make h.1 h.2 hx
  | aside e p =>
    obtain ⟨ht, -⟩ := h
    exact ⟨ht.handed, ht.created, ht.told, ht.added, ht.orderly, ht.fresh⟩

theorem tallied_start (s : Service) : Tallied s (start s) :=
  ⟨.nil, .nil, .nil, .nil, fun _ hx => absurd hx List.not_mem_nil,
    fun _ hx => absurd hx List.not_mem_nil⟩

theorem tallied_run (hr : (start s).run? es = some a) : Tallied s a ∧ Kept s a :=
  run_induction tallied_step (P := fun a => Tallied s a ∧ Kept s a)
    ⟨tallied_start s, rfl, rfl, rfl, rfl⟩ hr

/-! ## When all calls have finished -/

/-- The calls that have begun, each with what it has learnt. -/
def accounts (a : Crowd) : List Account := a.activities.map Activity.toAccount

/-- When all calls have finished, all has come of their steps. -/
theorem filterMap_done? {β : Type} (hf : a.Finished) (u : Atom) (f : Account → Option β) :
    a.activities.filterMap (Activity.done? u f) = a.accounts.filterMap f := by
  rw [accounts, List.filterMap_map]
  exact List.filterMap_congr fun x hx => Activity.done?_of_finished (hf x hx)

/-- **What the calls have learnt** is what those that consult the registry learn one after another
in the order in which they have done so. -/
theorem accounts_perm (h : Tallied s a) (hf : a.Finished) :
    a.accounts.Perm (learn s.registry a.consulted ++
      (a.begun.filter fun x => !x.2.consults).map fun x => ⟨x.1, x.2, {}⟩) := by
  have hall := (List.filter_append_perm (fun x : Activity => x.call.consults) a.activities).symm
  have hmap := hall.map Activity.toAccount
  rw [List.map_append] at hmap
  have htold := h.told
  rw [filterMap_done? hf, accounts, List.filterMap_map] at htold
  have hconsults : (a.activities.filter fun x => x.call.consults).map Activity.toAccount =
      a.activities.filterMap (Account.told? ∘ Activity.toAccount) := by
    rw [← List.filterMap_eq_map, ← List.filterMap_eq_filter, List.filterMap_filterMap]
    refine List.filterMap_congr fun x _ => ?_
    cases hc : x.call.consults <;> simp [Option.guard, Account.told?, hc]
  have hothers : (a.activities.filter fun x => !x.call.consults).map Activity.toAccount =
      (a.begun.filter fun x => !x.2.consults).map fun x => ⟨x.1, x.2, {}⟩ := by
    rw [begun, List.filter_map, List.map_map]
    refine List.map_congr_left fun x hx => ?_
    obtain ⟨hx, hc⟩ := List.mem_filter.1 hx
    rw [Bool.not_eq_true'] at hc
    have hseen := h.fresh x hx (.inr hc)
    cases x
    exact congrArg (Account.mk _ _) hseen
  rw [hconsults, hothers] at hmap
  exact hmap.trans (htold.symm.append_right _)

/-- What a finished crowd has handed to the client. -/
theorem handed_perm (h : Tallied s a) (hf : a.Finished) :
    a.handed.Perm (a.accounts.filterMap (·.handing? .send)) := by
  rw [← filterMap_done? hf]
  exact h.handed

theorem created_perm (h : Tallied s a) (hk : Kept s a) (hf : a.Finished) :
    a.created.Perm (a.accounts.filterMap (·.creation? s .notify)) := by
  rw [← filterMap_done? hf, created, Account.creation?_congr hk.notifies]
  exact h.created

theorem added_perm (h : Tallied s a) (hf : a.Finished) :
    a.added.Perm (a.accounts.flatMap fun x => x.call.deltas x.moment.clock) := by
  have howed : a.activities.flatMap Activity.owed = [] := by
    rw [List.flatMap_eq_nil_iff]
    intro x hx
    rw [Activity.owed, hf x hx]
    rfl
  have hadded := h.added
  rw [howed, List.append_nil] at hadded
  rw [accounts, List.flatMap_map]
  exact hadded

end Crowd

/-! ## Calls up to the ids of their webhook events -/

def anonymousCall (x : Moment × Call) : Moment × Call := (x.1.anonymous, x.2)

def Delivery.anonymous (d : Delivery) : Delivery := { d with event := { d.event with id := "" } }

theorem learn_anonymous (r : Registry) (calls : List (Moment × Call)) :
    (learn r calls).map Account.anonymous = learn r (calls.map anonymousCall) := by
  induction calls generalizing r with
  | nil => rfl
  | cons x calls ih => exact congrArg (_ :: ·) (ih _)

theorem consultAll_anonymous (r : Registry) (calls : List (Moment × Call)) :
    Crowd.consultAll r (calls.map anonymousCall) = Crowd.consultAll r calls := by
  unfold Crowd.consultAll
  rw [List.foldl_map]
  rfl

theorem creation?_anonymous (s : Service) (x : Account) :
    (x.creation? s .notify).map Delivery.anonymous = x.anonymous.creation? s .notify := by
  unfold Account.creation? Service.delivery? Call.notice? Account.anonymous
  dsimp only
  cases x.call.webhookKind? with
  | none => rfl
  | some kind => cases hn : s.notifies <;> rfl

namespace Crowd

variable {s : Service} {a b : Crowd}

/-- **Two crowds come to the same**, up to the order of events and the ids of webhook events. -/
structure Agree (a b : Crowd) : Prop where
  metrics : a.service.metrics = b.service.metrics
  registry : a.service.registry = b.service.registry
  handed : a.handed.Perm b.handed
  created : (a.created.map Delivery.anonymous).Perm (b.created.map Delivery.anonymous)

theorem accounts_anonymous (h : Tallied s a) (hf : a.Finished) :
    (a.accounts.map Account.anonymous).Perm (learn s.registry (a.consulted.map anonymousCall) ++
      ((a.begun.map anonymousCall).filter fun x => !x.2.consults).map fun x => ⟨x.1, x.2, {}⟩) := by
  have hall := (accounts_perm h hf).map Account.anonymous
  rw [List.map_append, learn_anonymous, List.map_map] at hall
  rw [List.filter_map, List.map_map]
  exact hall

/-- **Only the order in which the registry is consulted matters.** -/
theorem agree_of_finished (ha : Tallied s a ∧ Kept s a) (hb : Tallied s b ∧ Kept s b)
    (hfa : a.Finished) (hfb : b.Finished)
    (hcalls : (a.begun.map anonymousCall).Perm (b.begun.map anonymousCall))
    (horder : a.consulted.map anonymousCall = b.consulted.map anonymousCall) : Agree a b := by
  obtain ⟨hta, hka⟩ := ha
  obtain ⟨htb, hkb⟩ := hb
  have haccounts : (a.accounts.map Account.anonymous).Perm (b.accounts.map Account.anonymous) := by
    refine (accounts_anonymous hta hfa).trans (List.Perm.trans ?_ (accounts_anonymous htb hfb).symm)
    rw [horder]
    exact ((hcalls.filter _).map _).append_left _
  refine ⟨?_, ?_, ?_, ?_⟩
  · have hdeltas := haccounts.flatMap_right fun x => x.call.deltas x.moment.clock
    rw [List.flatMap_map, List.flatMap_map] at hdeltas
    have hadded := ((added_perm hta hfa).trans hdeltas).trans (added_perm htb hfb).symm
    rw [hka.metrics, hkb.metrics, Metrics.foldl_plus_perm hadded]
  · rw [hka.registry, hkb.registry, ← consultAll_anonymous, horder, consultAll_anonymous]
  · have hevents := haccounts.filterMap (·.handing? .send)
    rw [List.filterMap_map, List.filterMap_map] at hevents
    exact ((handed_perm hta hfa).trans hevents).trans (handed_perm htb hfb).symm
  · have hmap : ∀ {c : Crowd}, Tallied s c → Kept s c → c.Finished →
        (c.created.map Delivery.anonymous).Perm
          ((c.accounts.map Account.anonymous).filterMap (·.creation? s .notify)) := by
      intro c ht hk hf
      refine ((created_perm ht hk hf).map _).trans (.of_eq ?_)
      rw [List.map_filterMap, List.filterMap_map]
      exact List.filterMap_congr fun x _ => creation?_anonymous s x
    exact ((hmap hta hka hfa).trans (haccounts.filterMap _)).trans (hmap htb hkb hfb).symm

end Crowd

end RoomWatch
