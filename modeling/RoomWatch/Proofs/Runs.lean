import Mathlib.Data.List.Induction

/-!
# Runs

Whatever runs in this library runs in the same way: an event is a partial step of a state, and a run
is a list of events each of which is possible where the ones before it have led.

* `foldlM_induction`: **what every step keeps holds after every run.**
* `foldlM_record`: the same for what a run adds to a record.
* `foldlM_view`: if a step can be seen as a step of something else, or as nothing, then a run can be
  seen as a run of that.
* `lasts_concat`: whether something has begun and has not ended since, event by event.
-/

namespace RoomWatch

variable {σ ε σ' ε' : Type} {step : σ → ε → Option σ} {step' : σ' → ε' → Option σ'} {a b : σ}
  {es : List ε}

/-- **What every step keeps holds after every run.** -/
theorem foldlM_induction {P : σ → Prop} (hr : es.foldlM step a = some b) (h : P a)
    (hstep : ∀ (a b : σ) (e : ε), P a → step a e = some b → P b) : P b := by
  induction es generalizing a with
  | nil => cases hr; exact h
  | cons e es ih =>
    obtain ⟨a₁, h₁, hr⟩ := Option.bind_eq_some_iff.1 hr
    have hfirst := hstep a a₁ e h h₁
    exact ih hr hfirst

theorem filterMap_cons_toList {α β : Type} (g : α → Option β) (x : α) (l : List α) :
    (x :: l).filterMap g = (g x).toList ++ l.filterMap g := by
  rw [List.filterMap_cons]
  cases g x <;> rfl

/-- What every step keeps, and adds to a record as its event tells, holds after every run. -/
theorem foldlM_record {P : List ε' → σ → Prop} {seen? : ε → Option ε'} {record : List ε'}
    (hr : es.foldlM step a = some b) (h : P record a)
    (hstep : ∀ (record : List ε') (a b : σ) (e : ε), P record a → step a e = some b →
      P (record ++ (seen? e).toList) b) : P (record ++ es.filterMap seen?) b := by
  induction es generalizing a record with
  | nil =>
    cases hr
    rw [List.filterMap_nil, List.append_nil]
    exact h
  | cons e es ih =>
    obtain ⟨a₁, h₁, hr⟩ := Option.bind_eq_some_iff.1 hr
    have hrest := ih hr (hstep record a a₁ e h h₁)
    rw [List.append_assoc, ← filterMap_cons_toList] at hrest
    exact hrest

/-- What can be seen of a run is a run, if what can be seen of a step is a step or nothing. -/
theorem foldlM_view (view : σ → σ') {seen? : ε → Option ε'} (hr : es.foldlM step a = some b)
    (hstep : ∀ (a b : σ) (e : ε), step a e = some b →
      (seen? e).elim (some (view a)) (step' (view a)) = some (view b)) :
    (es.filterMap seen?).foldlM step' (view a) = some (view b) := by
  induction es generalizing a with
  | nil => cases hr; rfl
  | cons e es ih =>
    obtain ⟨a₁, h₁, hr⟩ := Option.bind_eq_some_iff.1 hr
    have hfirst := hstep a a₁ e h₁
    rw [List.filterMap_cons]
    cases he : seen? e with
    | none =>
      rw [he] at hfirst
      have hsame : view a = view a₁ := Option.some.inj hfirst
      rw [hsame]
      exact ih hr
    | some f =>
      rw [he] at hfirst
      exact (congrArg (Option.bind · _) hfirst).trans (ih hr)

/-! ## What lasts -/

/-- An event of a history is the last one, or the last one is among those after it. -/
theorem split_concat {h earlier later : List ε} {e f : ε}
    (hsplit : h ++ [e] = earlier ++ f :: later) :
    (earlier = h ∧ f = e ∧ later = []) ∨
      ∃ init, later = init ++ [e] ∧ h = earlier ++ f :: init := by
  rcases List.eq_nil_or_concat later with rfl | ⟨init, last, rfl⟩
  · obtain ⟨hinit, hlast⟩ := List.append_inj' hsplit rfl
    exact .inl ⟨hinit.symm, (List.singleton_inj.1 hlast).symm, rfl⟩
  · rw [List.concat_eq_append] at hsplit ⊢
    rw [← List.cons_append, ← List.append_assoc] at hsplit
    obtain ⟨hinit, hlast⟩ := List.append_inj' hsplit rfl
    exact .inr ⟨init, by rw [hlast], hinit⟩

/-- Some event of a history begins something, and every later one keeps it up. -/
def Lasts (begins keeps : ε → Prop) (h : List ε) : Prop :=
  ∃ earlier e later, h = earlier ++ e :: later ∧ begins e ∧ ∀ f ∈ later, keeps f

variable {begins keeps : ε → Prop} {h : List ε} {e : ε}

theorem not_lasts_nil : ¬Lasts begins keeps [] := by
  rintro ⟨earlier, e, later, hsplit, -⟩
  cases earlier <;> cases hsplit

theorem lasts_concat :
    Lasts begins keeps (h ++ [e]) ↔ begins e ∨ keeps e ∧ Lasts begins keeps h := by
  constructor
  · rintro ⟨earlier, f, later, hsplit, hbegins, hkeeps⟩
    rcases split_concat hsplit with ⟨-, rfl, -⟩ | ⟨init, rfl, hinit⟩
    · exact .inl hbegins
    · obtain ⟨hlater, hlast⟩ := List.forall_mem_append.1 hkeeps
      exact .inr ⟨hlast e List.mem_cons_self, earlier, f, init, hinit, hbegins, hlater⟩
  · rintro (hbegins | ⟨hkeeps, earlier, f, later, rfl, hbegins, hlater⟩)
    · exact ⟨h, e, [], rfl, hbegins, nofun⟩
    · refine ⟨earlier, f, later ++ [e], by rw [List.append_assoc]; rfl, hbegins, ?_⟩
      exact List.forall_mem_append.2 ⟨hlater, List.forall_mem_singleton.2 hkeeps⟩

/-- What lasts has begun with some event for the last time. -/
theorem Lasts.latest (hlasts : Lasts begins keeps h) :
    Lasts begins (fun e => keeps e ∧ ¬begins e) h := by
  induction h using List.reverseRecOn with
  | nil => exact absurd hlasts not_lasts_nil
  | append_singleton h e ih =>
    rw [lasts_concat] at hlasts ⊢
    by_cases hbegins : begins e
    · exact .inl hbegins
    · obtain ⟨hkeeps, hbefore⟩ := hlasts.resolve_left hbegins
      exact .inr ⟨⟨hkeeps, hbegins⟩, ih hbefore⟩

end RoomWatch
