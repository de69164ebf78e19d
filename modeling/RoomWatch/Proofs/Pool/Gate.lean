import RoomWatch.Pool.Gate

/-!
# What a gate keeps

A unit that a gate is given is kept, or it admits the first waiter, until someone passes with it.

* `stock_give`, `stock_of_free`, `stock_of_shut`: **no unit is lost or doubled**.
* `Fair`: nobody waits while units are kept, and nobody is in line twice. Every operation keeps
  this.
-/

namespace RoomWatch

namespace Gate

variable {ι : Type} {g : Gate ι} {a b : ι}

/-- The units that have been given and with which nobody has passed. -/
def stock (g : Gate ι) : Nat := g.units + g.admitted.length

/-- **Nobody waits in vain**, and nobody is in line twice. -/
structure Fair (g : Gate ι) : Prop where
  distinct : (g.waiting ++ g.admitted).Nodup
  kept : 0 < g.units → g.waiting = []

theorem fair_new : ({} : Gate ι).Fair := ⟨List.nodup_nil, fun _ => rfl⟩

theorem stock_give (g : Gate ι) (n : Nat) : (g.give n).1.stock = g.stock + n := by
  simp only [give, stock, List.length_append, List.length_take]
  omega

theorem perm_give (g : Gate ι) (n : Nat) :
    ((g.give n).1.waiting ++ (g.give n).1.admitted).Perm (g.waiting ++ g.admitted) := by
  have hsplit : (g.waiting.drop n ++ g.waiting.take n).Perm g.waiting := by
    refine List.perm_append_comm.trans (.of_eq ?_)
    exact List.take_append_drop n g.waiting
  have hadmitted : (g.waiting.drop n ++ (g.admitted ++ g.waiting.take n)).Perm
      (g.waiting.drop n ++ g.waiting.take n ++ g.admitted) := by
    rw [List.append_assoc]
    exact List.perm_append_comm.append_left _
  exact hadmitted.trans (hsplit.append_right _)

theorem fair_give (h : g.Fair) (n : Nat) : (g.give n).1.Fair := by
  refine ⟨(g.perm_give n).nodup_iff.2 h.distinct, fun hunits => ?_⟩
  simp only [give] at hunits ⊢
  by_cases hold : 0 < g.units
  · rw [h.kept hold, List.drop_nil]
  · -- only units for which there was no waiter are kept
    exact List.drop_eq_nil_of_le (by omega)

theorem isPresent_give (n : Nat) : (g.give n).1.IsPresent a ↔ g.IsPresent a := by
  unfold IsPresent
  rw [← List.mem_append, ← List.mem_append]
  exact (g.perm_give n).mem_iff

variable [DecidableEq ι]

/-- What happens to someone who comes to the gate and does not wait yet. -/
inductive Entered (g : Gate ι) (a : ι) : Gate ι × Bool → Prop where
  | admitted (ha : a ∈ g.admitted) : Entered g a ({ g with admitted := g.admitted.erase a }, true)
  | unit (ha : a ∉ g.admitted) (kept : 0 < g.units) :
      Entered g a ({ g with units := g.units - 1 }, true)
  | shut (ha : a ∉ g.admitted) (none : g.units = 0) :
      Entered g a ({ g with waiting := g.waiting ++ [a] }, false)

theorem entered_enter (h : a ∉ g.waiting) : g.Entered a (g.enter a) := by
  unfold enter
  by_cases ha : a ∈ g.admitted
  · rw [if_pos ha]
    exact .admitted ha
  · rw [if_neg ha, if_neg h]
    by_cases hu : 0 < g.units
    · rw [if_pos hu]
      exact .unit ha hu
    · rw [if_neg hu]
      exact .shut ha (by omega)

/-- Someone passes with one unit. -/
theorem stock_of_free (h : a ∉ g.waiting) (hfree : (g.enter a).2 = true) :
    (g.enter a).1.stock + 1 = g.stock := by
  have hcase := entered_enter h
  revert hfree hcase
  generalize g.enter a = r
  rintro hfree (ha | ⟨ha, hu⟩ | ⟨ha, hu⟩)
  · have := List.length_pos_of_mem ha
    simp only [stock, List.length_erase_of_mem ha]
    omega
  · simp only [stock]
    omega
  · cases hfree

theorem stock_of_shut (h : a ∉ g.waiting) (hshut : (g.enter a).2 = false) :
    (g.enter a).1.stock = g.stock := by
  have hcase := entered_enter h
  revert hshut hcase
  generalize g.enter a = r
  rintro hshut (ha | ⟨ha, hu⟩ | ⟨ha, hu⟩)
  · cases hshut
  · cases hshut
  · rfl

theorem fair_enter (hg : g.Fair) (h : a ∉ g.waiting) : (g.enter a).1.Fair := by
  have hcase := entered_enter h
  revert hcase
  generalize g.enter a = r
  rintro (ha | ⟨ha, hu⟩ | ⟨ha, hu⟩)
  · exact ⟨hg.distinct.sublist (List.erase_sublist.append_left _), hg.kept⟩
  · exact ⟨hg.distinct, fun _ => hg.kept hu⟩
  · refine ⟨?_, fun hpos => absurd hpos (by rw [hu]; exact Nat.lt_irrefl 0)⟩
    have hnew : a ∉ g.waiting ++ g.admitted := by
      rw [List.mem_append]
      exact fun hmem => hmem.elim h ha
    have hline : (g.waiting ++ [a] ++ g.admitted).Perm (a :: (g.waiting ++ g.admitted)) := by
      rw [List.append_assoc]
      exact List.perm_middle
    exact hline.nodup_iff.2 (List.nodup_cons.2 ⟨hnew, hg.distinct⟩)

/-- Who passes is at the gate no more. -/
theorem isPresent_of_free (hg : g.Fair) (h : a ∉ g.waiting) (hfree : (g.enter a).2 = true) :
    (g.enter a).1.IsPresent b ↔ g.IsPresent b ∧ b ≠ a := by
  have hcase := entered_enter h
  revert hfree hcase
  generalize g.enter a = r
  rintro hfree (ha | ⟨ha, hu⟩ | ⟨ha, hu⟩)
  · have hadmitted : g.admitted.Nodup := (List.nodup_append.1 hg.distinct).2.1
    simp only [IsPresent, hadmitted.mem_erase_iff]
    constructor
    · rintro (hb | hb)
      · exact ⟨.inl hb, fun hba => h (hba ▸ hb)⟩
      · exact ⟨.inr hb.2, hb.1⟩
    · rintro ⟨hb | hb, hne⟩
      · exact .inl hb
      · exact .inr ⟨hne, hb⟩
  · have habsent : ¬g.IsPresent a := fun hp => hp.elim h ha
    exact ⟨fun hb => ⟨hb, fun hba => habsent (hba ▸ hb)⟩, fun hb => hb.1⟩
  · cases hfree

/-- Who does not pass waits from now on. -/
theorem waiting_of_shut (h : a ∉ g.waiting) (hshut : (g.enter a).2 = false) :
    ¬g.IsPresent a ∧ (g.enter a).1.waiting = g.waiting ++ [a] ∧
      (g.enter a).1.admitted = g.admitted := by
  have hcase := entered_enter h
  revert hshut hcase
  generalize g.enter a = r
  rintro hshut (ha | ⟨ha, hu⟩ | ⟨ha, hu⟩)
  · cases hshut
  · cases hshut
  · exact ⟨fun hp => hp.elim h ha, rfl, rfl⟩

theorem isPresent_of_shut (h : a ∉ g.waiting) (hshut : (g.enter a).2 = false) :
    (g.enter a).1.IsPresent b ↔ g.IsPresent b ∨ b = a := by
  obtain ⟨-, hwaiting, hadmitted⟩ := waiting_of_shut h hshut
  unfold IsPresent
  rw [hwaiting, hadmitted, List.mem_append, List.mem_singleton]
  exact or_right_comm

end Gate

end RoomWatch
