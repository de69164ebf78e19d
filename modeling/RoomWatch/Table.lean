/-!
# Tables

A table assigns values to finitely many keys. Its view is `find?`.

* `find?_insert`, `find?_erase`: what an update does to the view.
* `size_insert`, `size_erase`: what it does to the number of keys.
* `size_eq_zero_iff`, `mem_values`, `values_perm`: whether a table is empty, and its values, follow
  from its view.
-/

namespace RoomWatch

/-- A finite assignment of values to keys. -/
structure Table (κ υ : Type) where
  entries : List (κ × υ)
  nodup : (entries.map Prod.fst).Nodup

namespace Table

variable {κ υ : Type}

def empty : Table κ υ := ⟨[], List.nodup_nil⟩

instance : Inhabited (Table κ υ) := ⟨empty⟩

/-- The number of keys. -/
def size (t : Table κ υ) : Nat := t.entries.length

/-- The keys that have a value. -/
def keys (t : Table κ υ) : List κ := t.entries.map Prod.fst

/-- The values, one for each key. -/
def values (t : Table κ υ) : List υ := t.entries.map Prod.snd

variable [DecidableEq κ]

/-- The value of a key. -/
def find? (t : Table κ υ) (k : κ) : Option υ := (t.entries.find? fun e => e.1 = k).map Prod.snd

/-- The table without a key. -/
def erase (t : Table κ υ) (k : κ) : Table κ υ where
  entries := t.entries.filter fun e => e.1 ≠ k
  nodup := t.nodup.sublist (List.filter_sublist.map _)

/-- The table with the value of a key set. -/
def insert (t : Table κ υ) (k : κ) (v : υ) : Table κ υ where
  entries := (t.erase k).entries ++ [(k, v)]
  nodup := by
    rw [List.map_append, List.nodup_append]
    refine ⟨(t.erase k).nodup, by simp, ?_⟩
    intro a ha b hb
    simp only [erase, List.mem_map, List.mem_filter] at ha
    obtain ⟨e, ⟨_, he⟩, rfl⟩ := ha
    simp only [List.map_cons, List.map_nil, List.mem_singleton] at hb
    subst hb
    exact of_decide_eq_true he

@[simp] theorem find?_empty (k : κ) : (empty : Table κ υ).find? k = none := rfl

theorem find?_erase (t : Table κ υ) (k l : κ) :
    (t.erase k).find? l = if l = k then none else t.find? l := by
  simp only [find?, erase]
  induction t.entries with
  | nil => simp
  | cons e es ih =>
    by_cases he : e.1 = k <;> by_cases hl : e.1 = l <;> by_cases hk : l = k <;>
      simp_all

theorem find?_insert (t : Table κ υ) (k l : κ) (v : υ) :
    (t.insert k v).find? l = if l = k then some v else t.find? l := by
  have h := find?_erase t k l
  unfold find? insert at *
  rw [List.find?_append]
  by_cases hk : l = k
  · subst hk
    rw [if_pos rfl] at h ⊢
    rw [Option.map_eq_none_iff.1 h]
    simp
  · rw [if_neg hk] at h ⊢
    have : ¬ k = l := fun hkl => hk hkl.symm
    simp [this, h]

theorem find?_eq_none_iff (t : Table κ υ) (k : κ) : t.find? k = none ↔ k ∉ t.keys := by
  simp only [find?, keys, Option.map_eq_none_iff, List.find?_eq_none, List.mem_map]
  constructor
  · rintro h ⟨e, he, rfl⟩
    simpa using h e he
  · intro h e he
    simpa using fun hek => h ⟨e, he, hek⟩

theorem mem_entries_iff {t : Table κ υ} {k : κ} {v : υ} :
    (k, v) ∈ t.entries ↔ t.find? k = some v := by
  obtain ⟨es, hn⟩ := t
  simp only [find?]
  induction es with
  | nil => simp
  | cons e es ih =>
    rw [List.map_cons, List.nodup_cons] at hn
    by_cases he : e.1 = k
    · have hk : ∀ v, (k, v) ∉ es := fun v hv => hn.1 (he ▸ List.mem_map_of_mem hv)
      rw [List.find?_cons_of_pos (by simp [he])]
      simp only [List.mem_cons, hk, or_false, Option.map_some, Option.some.injEq]
      rw [← he]
      exact ⟨fun h => (congrArg Prod.snd h).symm, fun h => h ▸ rfl⟩
    · have hne : (k, v) ≠ e := fun h => he (h ▸ rfl)
      rw [List.find?_cons_of_neg (by simp [he]), ← ih hn.2, List.mem_cons]
      exact or_iff_right hne

/-- A table is empty if no key has a value. -/
theorem size_eq_zero_iff {t : Table κ υ} : t.size = 0 ↔ ∀ k, t.find? k = none := by
  simp only [find?_eq_none_iff, keys, size, List.length_eq_zero_iff,
    ← List.eq_nil_iff_forall_not_mem, List.map_eq_nil_iff]

/-- The values are those that some key has. -/
theorem mem_values {t : Table κ υ} {v : υ} : v ∈ t.values ↔ ∃ k, t.find? k = some v := by
  simp only [values, List.mem_map, ← mem_entries_iff]
  constructor
  · rintro ⟨e, he, rfl⟩
    exact ⟨e.1, he⟩
  · rintro ⟨k, hk⟩
    exact ⟨(k, v), hk, rfl⟩

/-- No value comes twice if no two keys share one. -/
theorem nodup_values {t : Table κ υ}
    (h : ∀ k k' v, t.find? k = some v → t.find? k' = some v → k = k') : t.values.Nodup := by
  refine List.pairwise_map.2 ((List.pairwise_map.1 t.nodup).imp_of_mem ?_)
  intro e e' he he' hne hv
  refine hne (h e.1 e'.1 e.2 (mem_entries_iff.1 he) ?_)
  rw [hv]
  exact mem_entries_iff.1 he'

/-- If the view of a table is computed from that of another, so are the values. -/
theorem values_perm {ω : Type} {t : Table κ υ} {u : Table κ ω} {g : ω → Option υ}
    (h : ∀ k, t.find? k = (u.find? k).bind g) : t.values.Perm (u.values.filterMap g) := by
  have hentries : t.entries.Perm (u.entries.filterMap fun e => (g e.2).map (e.1, ·)) := by
    -- both sides have each key at most once, so it is enough that they have the same elements
    refine (List.perm_ext_iff_of_nodup ?_ ?_).2 ?_
    · exact (List.pairwise_map.1 t.nodup).imp fun hne he => hne (congrArg Prod.fst he)
    · refine List.pairwise_filterMap.2 ((List.pairwise_map.1 u.nodup).imp ?_)
      intro e e' hne b hb b' hb' hbb
      simp only [Option.map_eq_some_iff] at hb hb'
      obtain ⟨_, -, rfl⟩ := hb
      obtain ⟨_, -, rfl⟩ := hb'
      exact hne (Prod.mk.inj hbb).1
    · rintro ⟨k, v⟩
      rw [mem_entries_iff, h k, Option.bind_eq_some_iff]
      simp only [List.mem_filterMap, Option.map_eq_some_iff, Prod.mk.injEq]
      constructor
      · rintro ⟨w, hw, hv⟩
        exact ⟨(k, w), mem_entries_iff.2 hw, v, hv, rfl, rfl⟩
      · rintro ⟨⟨k', w⟩, hw, v', hv, rfl, rfl⟩
        exact ⟨w, mem_entries_iff.1 hw, hv⟩
  have hvalues := hentries.map Prod.snd
  rw [List.map_filterMap] at hvalues
  unfold values
  rw [List.filterMap_map]
  refine hvalues.trans (List.Perm.of_eq ?_)
  congr 1
  funext e
  cases hg : g e.2 <;> simp [hg]

theorem size_erase (t : Table κ υ) (k : κ) :
    (t.erase k).size + (t.find? k).isSome.toNat = t.size := by
  obtain ⟨es, hn⟩ := t
  simp only [size, erase, find?]
  induction es with
  | nil => simp
  | cons e es ih =>
    rw [List.map_cons, List.nodup_cons] at hn
    by_cases he : e.1 = k
    · have hes : ∀ x ∈ es, ¬ x.1 = k := by
        intro x hx hk
        exact hn.1 (List.mem_map.2 ⟨x, hx, hk.trans he.symm⟩)
      have hf : es.filter (fun x => decide (x.1 ≠ k)) = es :=
        List.filter_eq_self.2 fun x hx => decide_eq_true (hes x hx)
      rw [List.filter_cons_of_neg (by simp [he]), List.find?_cons_of_pos (by simp [he]), hf]
      simp
    · have := ih hn.2
      rw [List.filter_cons_of_pos (by simp [he]), List.find?_cons_of_neg (by simp [he]),
        List.length_cons, List.length_cons, ← this]
      omega

theorem size_insert (t : Table κ υ) (k : κ) (v : υ) :
    (t.insert k v).size + (t.find? k).isSome.toNat = t.size + 1 := by
  have h := size_erase t k
  have : (t.insert k v).size = (t.erase k).size + 1 := by simp [size, insert]
  omega

end Table

end RoomWatch
