import Mathlib.Data.List.Nodup
import RoomWatch.Proofs.Wire.Members

/-!
# What an object decodes to

An object is a list of members, in any order, with keys that may be repeated or unknown. A member
offends if its key is that of a field and has been there before, or if its value is not one of the
field. The first member that offends decides (`Fields.firstOffence?`). If none does, a field that
has to be given and is not decides (`Fields.missing?`). Otherwise each field has the value of its
member or its default (`Fields.Gathers`).

* `put_spec`, `absorb_spec`: slots are filled as the members say, up to the first offence.
* `finish_spec`: what becomes of the slots at the end.
* `firstOffence?_eq_none_iff`: whether any member offends is not a matter of their order.
* `Schema.exact`: **a record is decoded exactly as the members say.**
-/

namespace RoomWatch.Wire

variable {α ρ : Type}

/-- The object with these members. -/
def Json.record (ms : List (String × Json)) : Json := .object (ms.map fun m => (some m.1, m.2))

namespace Field

/-- A field has the value of its member, or its default if it has no member. -/
def Gives (f : Field α) (ms : List (String × Json)) (a : α) : Prop :=
  (∃ v, (f.key, v) ∈ ms ∧ f.codec.value v = .ok a) ∨ (f.key ∉ ms.map Prod.fst ∧ f.absent = some a)

/-- A slot holds the value of the member of its field, if the members have one. -/
def Holds (f : Field α) (ms : List (String × Json)) : Option α → Prop
  | none => f.key ∉ ms.map Prod.fst
  | some a => ∃ v, (f.key, v) ∈ ms ∧ f.codec.value v = .ok a

end Field

namespace Fields

variable {f : Field α} {fs : Fields ρ}

/-- What a value is refused for by the field of a key; none if it is not, or if no field has the
key. -/
def refusal? {ρ : Type} : Fields ρ → String → Json → Option DecodeError
  | .nil, _, _ => none
  | .cons f fs, key, v =>
    if f.key = key then
      match f.codec.value v with
      | .error e => some e
      | .ok _ => none
    else fs.refusal? key v

/-- What is wrong with a member that stands behind members with the given keys. -/
def offence? (fs : Fields ρ) (seen : List String) (m : String × Json) : Option DecodeError :=
  if m.1 ∈ fs.keys ∧ m.1 ∈ seen then some (.fault (.duplicateField m.1)) else fs.refusal? m.1 m.2

/-- What is wrong with the first member that offends. -/
def firstOffence? (fs : Fields ρ) (seen : List String) : List (String × Json) → Option DecodeError
  | [] => none
  | m :: ms => (fs.offence? seen m).or (fs.firstOffence? (m.1 :: seen) ms)

/-- The first field, in the order of the fields, that has to be given and is not. -/
def missing? {ρ : Type} : Fields ρ → List String → Option String
  | .nil, _ => none
  | .cons f fs, given =>
    if f.key ∉ given ∧ f.absent.isNone then some f.key else fs.missing? given

/-- All fields have the values of their members, or their defaults. -/
def Gathers {ρ : Type} : Fields ρ → List (String × Json) → ρ → Prop
  | .nil, _, _ => True
  | .cons f fs, ms, r => f.Gives ms r.1 ∧ fs.Gathers ms r.2

/-- All slots hold the values of the members. -/
def Hold {ρ : Type} : (fs : Fields ρ) → List (String × Json) → fs.Slots → Prop
  | .nil, _, _ => True
  | .cons f fs, ms, slots => f.Holds ms slots.1 ∧ fs.Hold ms slots.2

theorem hold_blank {ρ : Type} (fs : Fields ρ) : fs.Hold [] fs.blank := by
  induction fs with
  | nil => trivial
  | cons f fs ih => exact ⟨List.not_mem_nil, ih⟩

/-! ## One member -/

theorem holds_cons_of_ne {m : String × Json} {ms : List (String × Json)} {slot : Option α}
    (h : f.Holds ms slot) (hkey : f.key ≠ m.1) : f.Holds (m :: ms) slot := by
  cases slot with
  | none => exact List.not_mem_cons_of_ne_of_not_mem hkey h
  | some a =>
    obtain ⟨v, hv, ha⟩ := h
    exact ⟨v, List.mem_cons_of_mem _ hv, ha⟩

theorem hold_cons_of_not_mem {ρ : Type} {fs : Fields ρ} {m : String × Json}
    {ms : List (String × Json)} {slots : fs.Slots} (h : fs.Hold ms slots) (hkey : m.1 ∉ fs.keys) :
    fs.Hold (m :: ms) slots := by
  induction fs with
  | nil => trivial
  | cons f fs ih =>
    obtain ⟨hne, hkey⟩ := not_or.1 (mt List.mem_cons.2 hkey)
    exact ⟨holds_cons_of_ne h.1 (Ne.symm hne), ih h.2 hkey⟩

/-- A member of a further field, or of none, is no matter of the first field. -/
theorem offence?_cons_of_ne {seen : List String} {m : String × Json} (hkey : f.key ≠ m.1) :
    (Fields.cons f fs).offence? seen m = fs.offence? seen m := by
  unfold offence?
  rw [refusal?, if_neg hkey]
  simp only [keys, List.mem_cons, Ne.symm hkey, false_or]

theorem offence?_cons_self {seen : List String} {v : Json} :
    (Fields.cons f fs).offence? seen (f.key, v) =
      if f.key ∈ seen then some (.fault (.duplicateField f.key))
      else match f.codec.value v with
        | .error e => some e
        | .ok _ => none := by
  unfold offence?
  rw [refusal?, if_pos rfl]
  simp only [keys, List.mem_cons, true_or, true_and]

/-- **A member is put into its slot, or it offends.** -/
theorem put_spec {ρ : Type} {fs : Fields ρ} (hk : fs.keys.Nodup) {done : List (String × Json)}
    {slots : fs.Slots} (h : fs.Hold done slots) (m : String × Json) :
    match fs.offence? (done.map Prod.fst) m with
    | some e => fs.put m.1 m.2 slots = .error e
    | none => ∃ after, fs.put m.1 m.2 slots = .ok after ∧ fs.Hold (m :: done) after := by
  obtain ⟨key, v⟩ := m
  induction fs with
  | nil => exact ⟨(), rfl, trivial⟩
  | cons f fs ih =>
    obtain ⟨hnew, hk⟩ := List.nodup_cons.1 hk
    obtain ⟨slot, slots⟩ := slots
    obtain ⟨hslot, hslots⟩ := h
    by_cases hkey : f.key = key
    · subst hkey
      rw [offence?_cons_self]
      cases slot with
      | some a =>
        obtain ⟨w, hw, -⟩ := hslot
        rw [if_pos (List.mem_map_of_mem hw)]
        exact if_pos rfl
      | none =>
        rw [if_neg hslot]
        have hput : (Fields.cons f fs).put f.key v (none, slots) =
            (f.codec.value v).map fun a => (some a, slots) := if_pos rfl
        rw [hput]
        cases hvalue : f.codec.value v with
        | error e => rfl
        | ok a =>
          exact ⟨_, rfl, ⟨v, List.mem_cons_self, hvalue⟩, hold_cons_of_not_mem hslots hnew⟩
    · have hput : (Fields.cons f fs).put key v (slot, slots) =
          (fs.put key v slots).map fun after => (slot, after) := if_neg hkey
      have hmore := ih hk hslots
      rw [offence?_cons_of_ne hkey, hput]
      split at hmore
      · rw [hmore]; rfl
      · obtain ⟨after, hafter, hhold⟩ := hmore
        rw [hafter]
        exact ⟨_, rfl, holds_cons_of_ne hslot hkey, hhold⟩

/-! ## All members -/

/-- **Members are absorbed up to the first offence.** -/
theorem absorb_spec (hk : fs.keys.Nodup) {done : List (String × Json)} {slots : fs.Slots}
    (h : fs.Hold done slots) (ms : List (String × Json)) :
    match fs.firstOffence? (done.map Prod.fst) ms with
    | some e => fs.absorb slots (ms.map fun m => (some m.1, m.2)) = .error e
    | none => ∃ after, fs.absorb slots (ms.map fun m => (some m.1, m.2)) = .ok after ∧
        fs.Hold (ms.reverse ++ done) after := by
  induction ms generalizing done slots with
  | nil => exact ⟨slots, rfl, h⟩
  | cons m ms ih =>
    have hfirst := put_spec hk h m
    rw [firstOffence?, List.map_cons, absorb]
    split at hfirst
    · next e he =>
      rw [he, hfirst]
      rfl
    · next he =>
      obtain ⟨between, hput, hhold⟩ := hfirst
      rw [he, hput, List.reverse_cons, List.append_assoc]
      exact ih hhold

theorem missing?_cons_of_given {given : List String}
    (h : ¬(f.key ∉ given ∧ f.absent.isNone = true)) :
    (Fields.cons f fs).missing? given = fs.missing? given := if_neg h

theorem finish_cons (slots : (Fields.cons f fs).Slots) {a : α}
    (h : Option.or slots.1 f.absent = some a) :
    (Fields.cons f fs).finish slots = (fs.finish slots.2).map fun r => (a, r) := by
  rw [finish]
  simp only [h]

/-- What is left to do for the further fields once the first one has its value. -/
theorem finish_further {ms : List (String × Json)} {slot : Option α} {slots : fs.Slots} {a : α}
    (hslot : slot.or f.absent = some a) (hgives : f.Gives ms a)
    (hgiven : ¬(f.key ∉ ms.map Prod.fst ∧ f.absent.isNone = true))
    (h : match fs.missing? (ms.map Prod.fst) with
      | some key => fs.finish slots = .error (.fault (.missingField key))
      | none => ∃ r, fs.finish slots = .ok r ∧ fs.Gathers ms r) :
    match (Fields.cons f fs).missing? (ms.map Prod.fst) with
    | some key => (Fields.cons f fs).finish (slot, slots) = .error (.fault (.missingField key))
    | none => ∃ r, (Fields.cons f fs).finish (slot, slots) = .ok r ∧
        (Fields.cons f fs).Gathers ms r := by
  have hfinish : (Fields.cons f fs).finish (slot, slots) =
      (fs.finish slots).map fun r => (a, r) := @finish_cons _ _ f fs (slot, slots) a hslot
  rw [missing?_cons_of_given hgiven, hfinish]
  split at h
  · rw [h]
    rfl
  · obtain ⟨r, hr, hgathers⟩ := h
    exact ⟨(a, r), by rw [hr]; rfl, hgives, hgathers⟩

/-- **At the end of an object a field that has to be given and is not decides.** -/
theorem finish_spec {ρ : Type} {fs : Fields ρ} {ms : List (String × Json)} {slots : fs.Slots}
    (h : fs.Hold ms slots) :
    match fs.missing? (ms.map Prod.fst) with
    | some key => fs.finish slots = .error (.fault (.missingField key))
    | none => ∃ r, fs.finish slots = .ok r ∧ fs.Gathers ms r := by
  induction fs with
  | nil => exact ⟨(), rfl, trivial⟩
  | cons f fs ih =>
    obtain ⟨slot, slots⟩ := slots
    obtain ⟨hslot, hslots⟩ := h
    cases slot with
    | some a =>
      have hgiven : f.key ∈ ms.map Prod.fst := by
        obtain ⟨v, hv, -⟩ := hslot
        exact List.mem_map_of_mem hv
      exact finish_further rfl (.inl hslot) (fun h => h.1 hgiven) (ih hslots)
    | none =>
      cases habsent : f.absent with
      | some a =>
        exact finish_further habsent (.inr ⟨hslot, habsent⟩) (by simp [habsent]) (ih hslots)
      | none =>
        have hmissing : (Fields.cons f fs).missing? (ms.map Prod.fst) = some f.key :=
          if_pos ⟨hslot, by rw [habsent]; rfl⟩
        rw [hmissing]
        simp only [finish, habsent, Option.or_none]

/-! ## Order and repetition -/

theorem refusal?_of_not_mem {ρ : Type} {fs : Fields ρ} {key : String} (h : key ∉ fs.keys)
    (v : Json) : fs.refusal? key v = none := by
  induction fs with
  | nil => rfl
  | cons f fs ih =>
    obtain ⟨hne, hkey⟩ := not_or.1 (mt List.mem_cons.2 h)
    rw [refusal?, if_neg (Ne.symm hne), ih hkey]

/-- The members that have a field. -/
def known (fs : Fields ρ) (ms : List (String × Json)) : List (String × Json) :=
  ms.filter fun m => m.1 ∈ fs.keys

/-- **No member offends if and only if all values fit and no field has two members.** -/
theorem firstOffence?_eq_none_iff {seen : List String} {ms : List (String × Json)} :
    fs.firstOffence? seen ms = none ↔
      (∀ m ∈ fs.known ms, fs.refusal? m.1 m.2 = none ∧ m.1 ∉ seen) ∧
        ((fs.known ms).map Prod.fst).Nodup := by
  induction ms generalizing seen with
  | nil => simp [firstOffence?, known]
  | cons m ms ih =>
    rw [firstOffence?, Option.or_eq_none_iff, ih]
    by_cases hm : m.1 ∈ fs.keys
    · have hknown : fs.known (m :: ms) = m :: fs.known ms := List.filter_cons_of_pos (by simpa)
      have hoffence : fs.offence? seen m = none ↔ fs.refusal? m.1 m.2 = none ∧ m.1 ∉ seen := by
        unfold offence?
        split <;> simp_all
      rw [hknown, hoffence, List.map_cons, List.nodup_cons, List.forall_mem_cons]
      simp only [List.mem_cons, not_or, List.mem_map]
      constructor
      · rintro ⟨hfirst, hmore, hnodup⟩
        refine ⟨⟨hfirst, fun n hn => ⟨(hmore n hn).1, (hmore n hn).2.2⟩⟩, ?_, hnodup⟩
        rintro ⟨n, hn, he⟩
        exact (hmore n hn).2.1 he
      · rintro ⟨⟨hfirst, hmore⟩, hnew, hnodup⟩
        exact ⟨hfirst, fun n hn => ⟨(hmore n hn).1, fun he => hnew ⟨n, hn, he⟩, (hmore n hn).2⟩,
          hnodup⟩
    · have hknown : fs.known (m :: ms) = fs.known ms := List.filter_cons_of_neg (by simpa)
      have hoffence : fs.offence? seen m = none := by
        unfold offence?
        rw [if_neg fun h => hm h.1, refusal?_of_not_mem hm]
      have hseen : ∀ n ∈ fs.known ms, n.1 ≠ m.1 := by
        intro n hn he
        have hkey := of_decide_eq_true (List.mem_filter.1 hn).2
        exact hm (he ▸ hkey)
      rw [hknown, hoffence]
      simp only [List.mem_cons, not_or]
      constructor
      · rintro ⟨-, hmore, hnodup⟩
        exact ⟨fun n hn => ⟨(hmore n hn).1, (hmore n hn).2.2⟩, hnodup⟩
      · rintro ⟨hmore, hnodup⟩
        exact ⟨trivial, fun n hn => ⟨(hmore n hn).1, hseen n hn, (hmore n hn).2⟩, hnodup⟩

theorem mem_keys_iff {key : String} {ms : List (String × Json)} :
    key ∈ ms.map Prod.fst ↔ ∃ v, (key, v) ∈ ms := by
  simp only [List.mem_map, Prod.exists, exists_and_right, exists_eq_right]

/-- Two lists of members give each field the same values. -/
def Alike (fs : Fields ρ) (ms ms' : List (String × Json)) : Prop :=
  ∀ key ∈ fs.keys, ∀ v, (key, v) ∈ ms ↔ (key, v) ∈ ms'

theorem alike_reverse (fs : Fields ρ) (ms : List (String × Json)) : fs.Alike ms.reverse ms :=
  fun _ _ _ => List.mem_reverse

theorem alike_of_perm {ms ms' : List (String × Json)} (h : (fs.known ms).Perm (fs.known ms')) :
    fs.Alike ms ms' := by
  have hknown {ms : List (String × Json)} {key : String} {v : Json} (hkey : key ∈ fs.keys) :
      (key, v) ∈ fs.known ms ↔ (key, v) ∈ ms := by
    unfold known
    rw [List.mem_filter]
    exact and_iff_left (decide_eq_true hkey)
  intro key hkey v
  exact (hknown hkey).symm.trans (h.mem_iff.trans (hknown hkey))

theorem Alike.mem_keys {ms ms' : List (String × Json)} (h : fs.Alike ms ms') {key : String}
    (hkey : key ∈ fs.keys) : key ∈ ms.map Prod.fst ↔ key ∈ ms'.map Prod.fst := by
  rw [mem_keys_iff, mem_keys_iff]
  exact exists_congr fun v => h key hkey v

theorem missing?_congr {ρ : Type} {fs : Fields ρ} {ms ms' : List (String × Json)}
    (h : fs.Alike ms ms') : fs.missing? (ms.map Prod.fst) = fs.missing? (ms'.map Prod.fst) := by
  induction fs with
  | nil => rfl
  | cons f fs ih =>
    have hmore := ih fun key hkey => h key (List.mem_cons_of_mem _ hkey)
    simp only [missing?, hmore, h.mem_keys List.mem_cons_self]

theorem gathers_congr {ρ : Type} {fs : Fields ρ} {ms ms' : List (String × Json)} {r : ρ}
    (h : fs.Alike ms ms') (hr : fs.Gathers ms r) : fs.Gathers ms' r := by
  induction fs with
  | nil => trivial
  | cons f fs ih =>
    refine ⟨?_, ih (fun key hkey => h key (List.mem_cons_of_mem _ hkey)) hr.2⟩
    rcases hr.1 with ⟨v, hv, ha⟩ | ⟨hkey, ha⟩
    · exact .inl ⟨v, (h _ List.mem_cons_self v).1 hv, ha⟩
    · exact .inr ⟨mt (h.mem_keys List.mem_cons_self).2 hkey, ha⟩

/-- If no field has two members, there is one way only to give each field its value. -/
theorem gathers_unique {ρ : Type} {fs : Fields ρ} {ms : List (String × Json)} {r r' : ρ}
    (hms : ∀ key ∈ fs.keys, ∀ v v', (key, v) ∈ ms → (key, v') ∈ ms → v = v')
    (h : fs.Gathers ms r) (h' : fs.Gathers ms r') : r = r' := by
  induction fs with
  | nil => rfl
  | cons f fs ih =>
    have hfirst : r.1 = r'.1 := by
      rcases h.1 with ⟨v, hv, ha⟩ | ⟨hkey, ha⟩ <;> rcases h'.1 with ⟨v', hv', ha'⟩ | ⟨hkey', ha'⟩
      · rw [hms _ List.mem_cons_self v v' hv hv', ha'] at ha
        exact (Except.ok.inj ha).symm
      · exact absurd (mem_keys_iff.2 ⟨v, hv⟩) hkey'
      · exact absurd (mem_keys_iff.2 ⟨v', hv'⟩) hkey
      · exact Option.some.inj (ha.symm.trans ha')
    have hmore := ih (fun key hkey => hms key (List.mem_cons_of_mem _ hkey)) h.2 h'.2
    exact Prod.ext hfirst hmore

theorem value_unique {ms : List (String × Json)} (h : fs.firstOffence? [] ms = none) :
    ∀ key ∈ fs.keys, ∀ v v', (key, v) ∈ ms → (key, v') ∈ ms → v = v' := by
  intro key hkey v v' hv hv'
  have hnodup := (firstOffence?_eq_none_iff.1 h).2
  have hmem (w : Json) (hw : (key, w) ∈ ms) : (key, w) ∈ fs.known ms :=
    List.mem_filter.2 ⟨hw, decide_eq_true hkey⟩
  exact congrArg Prod.snd (List.inj_on_of_nodup_map hnodup (hmem v hv) (hmem v' hv') rfl)

/-- Whether any member offends is not a matter of their order, nor of members without a field. -/
theorem firstOffence?_perm {ms ms' : List (String × Json)}
    (h : (fs.known ms).Perm (fs.known ms')) (hms : fs.firstOffence? [] ms = none) :
    fs.firstOffence? [] ms' = none := by
  rw [firstOffence?_eq_none_iff] at hms ⊢
  exact ⟨fun m hm => hms.1 m (h.mem_iff.2 hm), (h.map Prod.fst).nodup_iff.1 hms.2⟩

/-- What a text decodes to for a field is what the field makes of the value that it spells. -/
def Spoken {ρ : Type} : Fields ρ → Prop
  | .nil => True
  | .cons f fs =>
    (∀ (v : Json) (text : String), Spells v.tokens text.toList →
      f.codec.decode text = f.codec.value v) ∧ fs.Spoken

theorem spoken_of_local {ρ : Type} {fs : Fields ρ} (h : fs.Local) : fs.Spoken := by
  induction fs with
  | nil => trivial
  | cons f fs ih => exact ⟨fun _ _ ht => Codec.decode_spells h.1 ht, ih h.2⟩

end Fields

namespace Schema

variable {s : Schema α}

/-- **An object says what its members say**, or it is refused for the first offence, or else for the
first field that it lacks. -/
theorem value_record (hl : s.fields.Local) (hk : s.fields.keys.Nodup)
    (ms : List (String × Json)) :
    match s.fields.firstOffence? [] ms with
    | some e => s.codec.value (.record ms) = .error e
    | none =>
      match s.fields.missing? (ms.map Prod.fst) with
      | some key => s.codec.value (.record ms) = .error (.fault (.missingField key))
      | none => ∃ r, s.codec.value (.record ms) = .ok (s.build r) ∧ s.fields.Gathers ms r := by
  have habsorb := Fields.absorb_spec hk (Fields.hold_blank s.fields) ms
  rw [Json.record, value_object hl]
  split
  · next e he =>
    rw [List.map_nil, he] at habsorb
    rw [habsorb]
    rfl
  · next he =>
    rw [List.map_nil, he] at habsorb
    obtain ⟨after, hafter, hhold⟩ := habsorb
    rw [List.append_nil] at hhold
    have hfinish := Fields.finish_spec hhold
    rw [Fields.missing?_congr (s.fields.alike_reverse ms)] at hfinish
    rw [hafter]
    split
    · next key hkey =>
      rw [hkey] at hfinish
      simp only [Except.bind, hfinish]
      rfl
    · next hkey =>
      rw [hkey] at hfinish
      obtain ⟨r, hr, hgathers⟩ := hfinish
      simp only [Except.bind, hr]
      exact ⟨r, rfl, Fields.gathers_congr (s.fields.alike_reverse ms) hgathers⟩

/-- What it takes for an object to be accepted. -/
theorem value_record_eq_ok_iff (hl : s.fields.Local) (hk : s.fields.keys.Nodup)
    {ms : List (String × Json)} {a : α} :
    s.codec.value (.record ms) = .ok a ↔
      s.fields.firstOffence? [] ms = none ∧ s.fields.missing? (ms.map Prod.fst) = none ∧
        ∃ r, s.fields.Gathers ms r ∧ s.build r = a := by
  have hvalue := value_record hl hk ms
  constructor
  · intro ha
    split at hvalue
    · cases ha.symm.trans hvalue
    · next he =>
      split at hvalue
      · cases ha.symm.trans hvalue
      · next hkey =>
        obtain ⟨r, hr, hgathers⟩ := hvalue
        exact ⟨he, hkey, r, hgathers, Except.ok.inj (hr.symm.trans ha)⟩
  · rintro ⟨he, hkey, r, hgathers, rfl⟩
    simp only [he, hkey] at hvalue
    obtain ⟨r', hr', hgathers'⟩ := hvalue
    rw [hr', Fields.gathers_unique (Fields.value_unique he) hgathers hgathers']

/-- **A record is decoded exactly as the members of an object say**, whatever spells the object. -/
structure Exact (s : Schema α) (nullable : List String) : Prop where
  /-- The first member that offends decides, whatever stands behind it and whatever is missing. -/
  offending : ∀ (ms : List (String × Json)) (text : String) (e : DecodeError),
    Spells (Json.record ms).tokens text.toList → s.fields.firstOffence? [] ms = some e →
    s.codec.decode text = .error e
  /-- If none does, the first field that has to be given and is not. -/
  missing : ∀ (ms : List (String × Json)) (text key : String),
    Spells (Json.record ms).tokens text.toList → s.fields.firstOffence? [] ms = none →
    s.fields.missing? (ms.map Prod.fst) = some key →
    s.codec.decode text = .error (.fault (.missingField key))
  /-- Otherwise the values of the members, and the defaults of the fields without one. -/
  decoded : ∀ (ms : List (String × Json)) (text : String),
    Spells (Json.record ms).tokens text.toList → s.fields.firstOffence? [] ms = none →
    s.fields.missing? (ms.map Prod.fst) = none →
    ∃ r, s.codec.decode text = .ok (s.build r) ∧ ∀ r', s.fields.Gathers ms r' ↔ r' = r
  /-- Neither the order of the members nor unknown ones among them matter where decoding succeeds. -/
  unordered : ∀ (ms ms' : List (String × Json)) (text text' : String) (a : α),
    Spells (Json.record ms).tokens text.toList → Spells (Json.record ms').tokens text'.toList →
    (s.fields.known ms).Perm (s.fields.known ms') → s.codec.decode text = .ok a →
    s.codec.decode text' = .ok a
  /-- The fields that accept `null`. -/
  null : ∀ key ∈ s.fields.keys, s.fields.refusal? key .null = none ↔ key ∈ nullable
  /-- The values of the fields are decoded as texts of their own would be. -/
  spoken : s.fields.Spoken

theorem exact {nullable : List String} (hl : s.fields.Local) (hk : s.fields.keys.Nodup)
    (hnull : ∀ key ∈ s.fields.keys, s.fields.refusal? key .null = none ↔ key ∈ nullable) :
    s.Exact nullable := by
  have hdecode (ms : List (String × Json)) (text : String)
      (ht : Spells (Json.record ms).tokens text.toList) :
      s.codec.decode text = s.codec.value (.record ms) := Codec.decode_spells (local_codec hl) ht
  refine ⟨?_, ?_, ?_, ?_, hnull, Fields.spoken_of_local hl⟩
  · intro ms text e ht he
    have hvalue := value_record hl hk ms
    rw [he] at hvalue
    rw [hdecode ms text ht, hvalue]
  · intro ms text key ht he hkey
    have hvalue := value_record hl hk ms
    simp only [he, hkey] at hvalue
    rw [hdecode ms text ht, hvalue]
  · intro ms text ht he hkey
    have hvalue := value_record hl hk ms
    simp only [he, hkey] at hvalue
    obtain ⟨r, hr, hgathers⟩ := hvalue
    refine ⟨r, (hdecode ms text ht).trans hr, fun r' => ⟨fun hr' => ?_, fun hr' => hr' ▸ hgathers⟩⟩
    exact Fields.gathers_unique (Fields.value_unique he) hr' hgathers
  · intro ms ms' text text' a ht ht' hperm ha
    rw [hdecode ms text ht, value_record_eq_ok_iff hl hk] at ha
    rw [hdecode ms' text' ht', value_record_eq_ok_iff hl hk]
    obtain ⟨he, hkey, r, hgathers, hr⟩ := ha
    have halike := Fields.alike_of_perm hperm
    exact ⟨Fields.firstOffence?_perm hperm he, Fields.missing?_congr halike ▸ hkey, r,
      Fields.gathers_congr halike hgathers, hr⟩

end Schema

end RoomWatch.Wire
