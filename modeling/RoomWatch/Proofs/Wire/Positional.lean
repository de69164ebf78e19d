import RoomWatch.Proofs.Wire.Parts

/-!
# Arrays in the place of objects

A record may be given as the array of its first fields, or as the object that names them. Both forms
say the same (`Schema.Form`), and so do the snapshots inside events, each in a form of its own
(`Schema.Recast`).

* `Fields.firstOffence?_named`: what is wrong with the members of the object is what is wrong with
  the elements of the array.
* `Fields.collect_missing`, `Fields.collect_covered`: what becomes of fields that are not covered.
* `Schema.value_recast`: values that say the same are read alike, but for the name of the error
  where a field is missing.
* `positional_of_wire`: **for every record of the wire format both forms agree.**
-/

namespace RoomWatch

namespace Wire

variable {α β ρ : Type}

namespace Fields

variable {f : Field α} {fs : Fields ρ} {tooShort : Nat → DecodeError}

/-- The members that give the first fields these values. -/
def named (fs : Fields ρ) (vs : List Json) : List (String × Json) := fs.keys.zip vs

theorem named_cons (v : Json) (vs : List Json) :
    (Fields.cons f fs).named (v :: vs) = (f.key, v) :: fs.named vs := rfl

theorem map_fst_named {ρ : Type} (fs : Fields ρ) (vs : List Json) :
    (fs.named vs).map Prod.fst = fs.keys.take vs.length := by
  induction fs generalizing vs with
  | nil => simp [named, keys]
  | cons f fs ih =>
    cases vs with
    | nil => rfl
    | cons v vs => exact congrArg (f.key :: ·) (ih vs)

theorem length_keys {ρ : Type} (fs : Fields ρ) : fs.keys.length = fs.size := by
  induction fs with
  | nil => rfl
  | cons f fs ih => exact congrArg (· + 1) ih

theorem key_of_mem_named {vs : List Json} {m : String × Json} (h : m ∈ fs.named vs) :
    m.1 ∈ fs.keys := (List.of_mem_zip h).1

/-! ## Refused elements -/

theorem collect_refused {ρ : Type} {fs : Fields ρ} {vs : List Json} {e : DecodeError}
    (h : fs.firstRefusal? vs = some e) (index : Nat) :
    fs.collect tooShort index vs = .error e := by
  induction fs generalizing index vs with
  | nil => cases h
  | cons f fs ih =>
    cases vs with
    | nil => cases h
    | cons v vs =>
      rw [firstRefusal?] at h
      rw [collect]
      cases hv : f.codec.value v with
      | error e' =>
        rw [hv] at h
        cases h
        rfl
      | ok a =>
        rw [hv] at h
        simp only [bind, Except.bind, ih h]

/-- Members of further fields are no matter of the first one, nor of its having been there. -/
theorem firstOffence?_cons (seen : List String) {ms : List (String × Json)}
    (h : ∀ m ∈ ms, f.key ≠ m.1) :
    (Fields.cons f fs).firstOffence? (seen ++ [f.key]) ms = fs.firstOffence? seen ms := by
  induction ms generalizing seen with
  | nil => rfl
  | cons m ms ih =>
    obtain ⟨hm, hms⟩ := List.forall_mem_cons.1 h
    have hfirst : fs.offence? (seen ++ [f.key]) m = fs.offence? seen m := by
      unfold offence?
      simp [Ne.symm hm]
    rw [firstOffence?, firstOffence?, offence?_cons_of_ne hm, hfirst]
    exact congrArg _ (ih (m.1 :: seen) hms)

/-- **What is wrong with named members** is what is wrong with the same elements in order. -/
theorem firstOffence?_named {ρ : Type} {fs : Fields ρ} (hk : fs.keys.Nodup) (vs : List Json) :
    fs.firstOffence? [] (fs.named vs) = fs.firstRefusal? vs := by
  induction fs generalizing vs with
  | nil => rfl
  | cons f fs ih =>
    obtain ⟨hnew, hk⟩ := List.nodup_cons.1 hk
    cases vs with
    | nil => rfl
    | cons v vs =>
      have hfurther : ∀ m ∈ fs.named vs, f.key ≠ m.1 := fun m hm heq =>
        hnew (heq ▸ key_of_mem_named hm)
      have hmore : (Fields.cons f fs).firstOffence? [f.key] (fs.named vs) = fs.firstRefusal? vs :=
        (firstOffence?_cons [] hfurther).trans (ih hk vs)
      rw [named_cons, firstOffence?, offence?_cons_self, if_neg List.not_mem_nil, hmore,
        firstRefusal?]
      cases f.codec.value v <;> rfl

/-! ## Fields that are not covered -/

theorem missing?_cons_of_not_mem {ρ : Type} {fs : Fields ρ} {key : String} (h : key ∉ fs.keys)
    (given : List String) : fs.missing? (key :: given) = fs.missing? given := by
  induction fs with
  | nil => rfl
  | cons f fs ih =>
    obtain ⟨hne, hkey⟩ := not_or.1 (mt List.mem_cons.2 h)
    simp only [missing?, List.mem_cons, Ne.symm hne, false_or, ih hkey]

theorem key_mem_of_missing? {ρ : Type} {fs : Fields ρ} {given : List String} {key : String}
    (h : fs.missing? given = some key) : key ∈ fs.keys := by
  induction fs with
  | nil => cases h
  | cons f fs ih =>
    unfold missing? at h
    split at h
    · cases h
      exact List.mem_cons_self
    · exact List.mem_cons_of_mem _ (ih h)

/-- A field that has been given is not missing. -/
theorem missing?_cons_take (hnew : f.key ∉ fs.keys) (n : Nat) :
    (Fields.cons f fs).missing? ((Fields.cons f fs).keys.take (n + 1)) =
      fs.missing? (fs.keys.take n) := by
  rw [keys, List.take_succ_cons, missing?_cons_of_given (by simp), missing?_cons_of_not_mem hnew]

theorem defaults_missing {ρ : Type} {fs : Fields ρ} (hk : fs.keys.Nodup) {key : String}
    (h : fs.missing? [] = some key) (index : Nat) :
    fs.defaults tooShort index = .error (tooShort (index + fs.keys.idxOf key)) := by
  induction fs generalizing index with
  | nil => cases h
  | cons f fs ih =>
    obtain ⟨hnew, hk⟩ := List.nodup_cons.1 hk
    cases habsent : f.absent with
    | none =>
      have hkey : (Fields.cons f fs).missing? [] = some f.key := if_pos (by simp [habsent])
      cases hkey.symm.trans h
      simp only [defaults, habsent, keys, List.idxOf_cons_self, Nat.add_zero]
    | some a =>
      rw [missing?_cons_of_given (by simp [habsent])] at h
      have hne : f.key ≠ key := fun heq => hnew (heq ▸ key_mem_of_missing? h)
      rw [keys, List.idxOf_cons_ne _ hne]
      simp only [defaults, habsent, ih hk h]
      rw [Nat.add_assoc, Nat.add_comm 1]
      rfl

theorem defaults_covered {ρ : Type} {fs : Fields ρ} (h : fs.missing? [] = none) (index : Nat) :
    ∃ r, fs.defaults tooShort index = .ok r ∧ fs.Gathers [] r := by
  induction fs generalizing index with
  | nil => exact ⟨(), rfl, trivial⟩
  | cons f fs ih =>
    cases habsent : f.absent with
    | none =>
      have hkey : (Fields.cons f fs).missing? [] = some f.key := if_pos (by simp [habsent])
      cases hkey.symm.trans h
    | some a =>
      rw [missing?_cons_of_given (by simp [habsent])] at h
      obtain ⟨r, hr, hgathers⟩ := ih h (index + 1)
      refine ⟨(a, r), ?_, .inr ⟨List.not_mem_nil, habsent⟩, hgathers⟩
      simp only [defaults, habsent, hr]
      rfl

/-- **An array that ends before a field that has to be given** is refused for the number of that
field. -/
theorem collect_missing {ρ : Type} {fs : Fields ρ} (hk : fs.keys.Nodup) {vs : List Json}
    {key : String} (h : fs.firstRefusal? vs = none)
    (hmissing : fs.missing? (fs.keys.take vs.length) = some key) (index : Nat) :
    fs.collect tooShort index vs = .error (tooShort (index + fs.keys.idxOf key)) := by
  induction fs generalizing index vs with
  | nil => cases hmissing
  | cons f fs ih =>
    cases vs with
    | nil => exact defaults_missing hk hmissing index
    | cons v vs =>
      obtain ⟨hnew, hk⟩ := List.nodup_cons.1 hk
      obtain ⟨⟨a, hv⟩, h⟩ := accepted_cons h
      rw [List.length_cons, missing?_cons_take hnew] at hmissing
      have hne : f.key ≠ key := fun heq => hnew (heq ▸ key_mem_of_missing? hmissing)
      rw [collect, keys, List.idxOf_cons_ne _ hne, hv]
      simp only [bind, Except.bind, ih hk h hmissing]
      rw [Nat.add_assoc, Nat.add_comm 1]

theorem alike_cons {m : String × Json} (hm : m.1 ∉ fs.keys) (ms : List (String × Json)) :
    fs.Alike ms (m :: ms) := by
  intro key hkey v
  have hne : (key, v) ≠ m := by
    rintro rfl
    exact hm hkey
  simp [hne]

/-- **An array that covers all fields that have to be given** has the values of the object. -/
theorem collect_covered {ρ : Type} {fs : Fields ρ} (hk : fs.keys.Nodup) {vs : List Json}
    (hlength : vs.length ≤ fs.size) (h : fs.firstRefusal? vs = none)
    (hmissing : fs.missing? (fs.keys.take vs.length) = none) (index : Nat) :
    ∃ r, fs.collect tooShort index vs = .ok r ∧ fs.Gathers (fs.named vs) r := by
  induction fs generalizing index vs with
  | nil =>
    cases vs with
    | nil => exact ⟨(), rfl, trivial⟩
    | cons v vs => cases hlength
  | cons f fs ih =>
    cases vs with
    | nil => exact defaults_covered hmissing index
    | cons v vs =>
      obtain ⟨hnew, hk⟩ := List.nodup_cons.1 hk
      obtain ⟨⟨a, hv⟩, h⟩ := accepted_cons h
      rw [List.length_cons, missing?_cons_take hnew] at hmissing
      obtain ⟨r, hr, hgathers⟩ := ih hk (Nat.le_of_succ_le_succ hlength) h hmissing (index + 1)
      refine ⟨(a, r), ?_, .inl ⟨v, List.mem_cons_self, hv⟩,
        gathers_congr (alike_cons hnew _) hgathers⟩
      rw [collect, hv]
      simp only [bind, Except.bind, hr]
      rfl

/-- **An array has no element behind the one of the last field.** -/
theorem collect_long {ρ : Type} {fs : Fields ρ} {vs : List Json} (hlength : fs.size < vs.length)
    (h : fs.firstRefusal? vs = none) (index : Nat) :
    fs.collect tooShort index vs = .error .malformed := by
  induction fs generalizing index vs with
  | nil =>
    cases vs with
    | nil => cases hlength
    | cons v vs => rfl
  | cons f fs ih =>
    cases vs with
    | nil => cases hlength
    | cons v vs =>
      obtain ⟨⟨a, hv⟩, h⟩ := accepted_cons h
      rw [collect, hv]
      simp only [bind, Except.bind, ih (Nat.lt_of_succ_lt_succ hlength) h]

end Fields

/-! ## Two forms of a record -/

/-- The first values of a record, as an array or as an object. -/
inductive Schema.Form (s : Schema α) (vs : List Json) : Json → Prop where
  | positional : Form s vs (.array vs)
  | named : Form s vs (.record (s.fields.named vs))

/-- Elements that say the same, each by the relation of its field. -/
inductive Paired (same : String → Json → Json → Prop) :
    List String → List Json → List Json → Prop where
  | nil (keys : List String) : Paired same keys [] []
  | cons {key : String} {keys : List String} {v w : Json} {vs ws : List Json} (first : same key v w)
    (more : Paired same keys vs ws) : Paired same (key :: keys) (v :: vs) (w :: ws)

/-- **Values that say the same of a record**: the same one, or elements that say the same, each list
of them in a form of its own. -/
def Schema.Recast (s : Schema α) (same : String → Json → Json → Prop) (v w : Json) : Prop :=
  v = w ∨ ∃ vs ws, Paired same s.fields.keys vs ws ∧ s.Form vs v ∧ s.Form ws w

/-- The error of an array and that of an object where the same field has to be given and is not. -/
inductive Schema.Lacks (s : Schema α) : DecodeError → DecodeError → Prop where
  | mk {number : Nat} {key : String} (h : s.fields.keys[number]? = some key) :
    Lacks s (s.tooShort number) (.fault (.missingField key))

/-- **Results that agree**: the same value, the same error, or two errors for the same missing
field. -/
inductive Agree (lacks : DecodeError → DecodeError → Prop) : Decoded α → Decoded α → Prop where
  | same (d : Decoded α) : Agree lacks d d
  | left {e e' : DecodeError} (h : lacks e e') : Agree lacks (.error e) (.error e')
  | right {e e' : DecodeError} (h : lacks e' e) : Agree lacks (.error e) (.error e')

namespace Agree

variable {lacks lacks' : DecodeError → DecodeError → Prop}

theorem map {d d' : Decoded α} (h : Agree lacks d d') (f : α → β) :
    Agree lacks (d.map f) (d'.map f) := by
  cases h with
  | same d => exact .same _
  | left h => exact .left h
  | right h => exact .right h

/-- Errors agree whatever has been tried to read. -/
theorem of_error {e e' : DecodeError} (h : Agree lacks (.error e : Decoded α) (.error e')) :
    Agree lacks (.error e : Decoded β) (.error e') := by
  cases h with
  | same d => exact .same _
  | left h => exact .left h
  | right h => exact .right h

theorem mono {d d' : Decoded α} (h : Agree lacks d d') (hle : ∀ e e', lacks e e' → lacks' e e') :
    Agree lacks' d d' := by
  cases h with
  | same d => exact .same d
  | left h => exact .left (hle _ _ h)
  | right h => exact .right (hle _ _ h)

end Agree

/-! ## Elements that say the same -/

namespace Paired

variable {same : String → Json → Json → Prop} {keys : List String} {vs ws : List Json}

theorem length_eq (h : Paired same keys vs ws) : vs.length = ws.length := by
  induction h with
  | nil keys => rfl
  | cons first more ih => exact congrArg (· + 1) ih

theorem length_le (h : Paired same keys vs ws) : vs.length ≤ keys.length := by
  induction h with
  | nil keys => exact Nat.zero_le _
  | cons first more ih => exact Nat.succ_le_succ ih

end Paired

/-- Each field reads values alike that say the same of it. -/
def Fields.Respects (same : String → Json → Json → Prop) (lacks : DecodeError → DecodeError → Prop)
    {ρ : Type} : Fields ρ → Prop
  | .nil => True
  | .cons f fs => (∀ v w, same f.key v w → Agree lacks (f.codec.value v) (f.codec.value w)) ∧
    fs.Respects same lacks

theorem Fields.respects_eq {ρ : Type} (fs : Fields ρ) (lacks : DecodeError → DecodeError → Prop) :
    fs.Respects (fun _ => Eq) lacks := by
  induction fs with
  | nil => trivial
  | cons f fs ih =>
    refine ⟨?_, ih⟩
    rintro v - rfl
    exact .same _

/-- **Elements that say the same** are all accepted and mean the same, or the first ones that are
refused stand at the same place. -/
theorem Fields.paired_spec {same : String → Json → Json → Prop}
    {lacks : DecodeError → DecodeError → Prop} {ρ : Type} {fs : Fields ρ}
    (h : fs.Respects same lacks) {vs ws : List Json} (hp : Paired same fs.keys vs ws) :
    (fs.firstRefusal? vs = none ∧ fs.firstRefusal? ws = none ∧
      ∀ tooShort index, fs.collect tooShort index vs = fs.collect tooShort index ws) ∨
    ∃ e e', fs.firstRefusal? vs = some e ∧ fs.firstRefusal? ws = some e' ∧
      Agree lacks (.error e : Decoded ρ) (.error e') := by
  induction fs generalizing vs ws with
  | nil =>
    cases hp
    exact .inl ⟨rfl, rfl, fun _ _ => rfl⟩
  | cons f fs ih =>
    cases hp with
    | nil keys => exact .inl ⟨rfl, rfl, fun _ _ => rfl⟩
    | @cons _ _ v w vs ws first more =>
      have hfirst := h.1 v w first
      simp only [firstRefusal?, collect]
      -- values are equal where both are there, so the further elements decide
      cases hv : f.codec.value v <;> cases hw : f.codec.value w <;> rw [hv, hw] at hfirst
      case error.error e e' => exact .inr ⟨e, e', rfl, rfl, hfirst.of_error⟩
      case error.ok => cases hfirst
      case ok.error => cases hfirst
      case ok.ok a b =>
        cases hfirst
        rcases ih h.2 more with ⟨hvs, hws, hcollect⟩ | ⟨e, e', hvs, hws, hagree⟩
        · exact .inl ⟨hvs, hws, fun tooShort index => by rw [hcollect]⟩
        · exact .inr ⟨e, e', hvs, hws, hagree.map fun r => (a, r)⟩

namespace Schema

variable {s : Schema α}

/-! ## One list of elements in two forms -/

theorem value_form_refused (hs : s.Regular) {vs : List Json} {e : DecodeError}
    (h : s.fields.firstRefusal? vs = some e) {v : Json} (hv : s.Form vs v) :
    s.codec.value v = .error e := by
  cases hv with
  | positional =>
    rw [value_array hs.reads, Fields.collect_refused h]
    rfl
  | named =>
    have hvalue := value_record hs.reads hs.distinct (s.fields.named vs)
    rw [Fields.firstOffence?_named hs.distinct, h] at hvalue
    exact hvalue

theorem value_array_missing (hs : s.Regular) {vs : List Json} {key : String}
    (h : s.fields.firstRefusal? vs = none)
    (hmissing : s.fields.missing? (s.fields.keys.take vs.length) = some key) :
    s.codec.value (.array vs) = .error (s.tooShort (s.fields.keys.idxOf key)) := by
  rw [value_array hs.reads, Fields.collect_missing hs.distinct h hmissing, Nat.zero_add]
  rfl

theorem value_named_missing (hs : s.Regular) {vs : List Json} {key : String}
    (h : s.fields.firstRefusal? vs = none)
    (hmissing : s.fields.missing? (s.fields.keys.take vs.length) = some key) :
    s.codec.value (.record (s.fields.named vs)) = .error (.fault (.missingField key)) := by
  have hvalue := value_record hs.reads hs.distinct (s.fields.named vs)
  rw [Fields.firstOffence?_named hs.distinct, h, Fields.map_fst_named] at hvalue
  simp only [hmissing] at hvalue
  exact hvalue

theorem exists_value_form (hs : s.Regular) {vs : List Json} (hlength : vs.length ≤ s.fields.size)
    (h : s.fields.firstRefusal? vs = none)
    (hmissing : s.fields.missing? (s.fields.keys.take vs.length) = none) :
    ∃ r, s.fields.Gathers (s.fields.named vs) r ∧
      ∀ v, s.Form vs v → s.codec.value v = .ok (s.build r) := by
  obtain ⟨r, hr, hgathers⟩ : ∃ r, s.fields.collect s.tooShort 0 vs = .ok r ∧
      s.fields.Gathers (s.fields.named vs) r :=
    Fields.collect_covered hs.distinct hlength h hmissing 0
  refine ⟨r, hgathers, fun v hv => ?_⟩
  cases hv with
  | positional =>
    rw [value_array hs.reads, hr]
    rfl
  | named =>
    refine (value_record_eq_ok_iff hs.reads hs.distinct).2 ⟨?_, ?_, r, hgathers, rfl⟩
    · rw [Fields.firstOffence?_named hs.distinct, h]
    · rw [Fields.map_fst_named, hmissing]

/-! ## Values that say the same -/

/-- The errors of the two forms for the same missing field. -/
theorem lacks_missing {given : List String} {key : String}
    (h : s.fields.missing? given = some key) :
    s.Lacks (s.tooShort (s.fields.keys.idxOf key)) (.fault (.missingField key)) :=
  .mk (List.getElem?_idxOf (Fields.key_mem_of_missing? h))

/-- **Values that say the same of a record are read alike.** -/
theorem value_recast {same : String → Json → Json → Prop}
    {lacks : DecodeError → DecodeError → Prop} (hs : s.Regular)
    (hsame : s.fields.Respects same lacks) {v w : Json} (h : s.Recast same v w) :
    Agree (fun e e' => s.Lacks e e' ∨ lacks e e') (s.codec.value v) (s.codec.value w) := by
  rcases h with rfl | ⟨vs, ws, hp, hv, hw⟩
  · exact .same _
  have hlength : vs.length ≤ s.fields.size := s.fields.length_keys ▸ hp.length_le
  rcases Fields.paired_spec hsame hp with ⟨hvs, hws, hcollect⟩ | ⟨e, e', hvs, hws, hagree⟩
  · cases hmissing : s.fields.missing? (s.fields.keys.take vs.length) with
    | some key =>
      have hmissing' := hp.length_eq ▸ hmissing
      -- the forms differ in how they name the field that is missing
      cases hv <;> cases hw
      case positional.positional =>
        rw [value_array_missing hs hvs hmissing, value_array_missing hs hws hmissing']
        exact .same _
      case positional.named =>
        rw [value_array_missing hs hvs hmissing, value_named_missing hs hws hmissing']
        exact .left (.inl (lacks_missing hmissing))
      case named.positional =>
        rw [value_named_missing hs hvs hmissing, value_array_missing hs hws hmissing']
        exact .right (.inl (lacks_missing hmissing))
      case named.named =>
        rw [value_named_missing hs hvs hmissing, value_named_missing hs hws hmissing']
        exact .same _
    | none =>
      obtain ⟨r, -, hr⟩ := exists_value_form hs hlength hvs hmissing
      obtain ⟨r', -, hr'⟩ := exists_value_form hs (hp.length_eq ▸ hlength) hws
        (hp.length_eq ▸ hmissing)
      -- both are compared with the arrays of the elements, whichever forms they have
      have harrays : s.codec.value (.array vs) = s.codec.value (.array ws) := by
        rw [value_array hs.reads, value_array hs.reads, hcollect]
      rw [hr _ .positional, hr' _ .positional] at harrays
      rw [hr v hv, hr' w hw, harrays]
      exact .same _
  · rw [value_form_refused hs hvs hv, value_form_refused hs hws hw]
    exact (hagree.map s.build).mono fun _ _ => .inr

theorem Form.ne_null {vs : List Json} {v : Json} (h : s.Form vs v) : v ≠ .null := by
  cases h <;> exact nofun

/-- The same where the record may be absent. -/
theorem value_optional_recast {same : String → Json → Json → Prop}
    {lacks : DecodeError → DecodeError → Prop} (hs : s.Regular)
    (hsame : s.fields.Respects same lacks) {v w : Json} (h : s.Recast same v w) :
    Agree (fun e e' => s.Lacks e e' ∨ lacks e e') (s.codec.optional.value v)
      (s.codec.optional.value w) := by
  have hagree := value_recast hs hsame h
  rcases h with rfl | ⟨vs, ws, hp, hv, hw⟩
  · exact .same _
  · have hlocal := local_codec hs.reads
    rw [Codec.value_optional hlocal hv.ne_null, Codec.value_optional hlocal hw.ne_null]
    exact hagree.map some

/-- A text of the array with these elements, and one of the object that names them. -/
structure BothForms (s : Schema α) (vs : List Json) (text text' : String) : Prop where
  array : Spells (Json.array vs).tokens text.toList
  object : Spells (Json.record (s.fields.named vs)).tokens text'.toList

/-- **Both forms of a record agree**, whatever spells them. -/
structure Positional (s : Schema α) (same : String → Json → Json → Prop)
    (lacks : DecodeError → DecodeError → Prop) : Prop where
  /-- If all elements are accepted and all fields that are not covered have a default, both forms
  give the values of the elements and these defaults. -/
  accepted : ∀ (vs : List Json) (text text' : String), s.BothForms vs text text' →
    vs.length ≤ s.fields.size → s.fields.firstRefusal? vs = none →
    s.fields.missing? (s.fields.keys.take vs.length) = none →
    ∃ r, s.fields.Gathers (s.fields.named vs) r ∧ s.codec.decode text = .ok (s.build r) ∧
      s.codec.decode text' = .ok (s.build r)
  /-- Both are refused for the first element that is not accepted. -/
  refused : ∀ (vs : List Json) (text text' : String) (e : DecodeError), s.BothForms vs text text' →
    s.fields.firstRefusal? vs = some e →
    s.codec.decode text = .error e ∧ s.codec.decode text' = .error e
  /-- If all are accepted, both are refused for the first field that has to be given and is not
  covered: the array for its number, the object for its key. -/
  short : ∀ (vs : List Json) (text text' key : String), s.BothForms vs text text' →
    s.fields.firstRefusal? vs = none →
    s.fields.missing? (s.fields.keys.take vs.length) = some key →
    s.codec.decode text = .error
      (.fault (.invalidLength (s.fields.keys.idxOf key) s.name s.fields.size)) ∧
    s.codec.decode text' = .error (.fault (.missingField key))
  /-- An array has no further elements. -/
  long : ∀ (vs : List Json) (text : String), Spells (Json.array vs).tokens text.toList →
    s.fields.size < vs.length → s.fields.firstRefusal? vs = none →
    s.codec.decode text = .error .malformed
  /-- Records inside the record may be given in either form too, each in a form of its own. -/
  nested : ∀ (v w : Json) (text text' : String), s.Recast same v w → Spells v.tokens text.toList →
    Spells w.tokens text'.toList →
    Agree (fun e e' => s.Lacks e e' ∨ lacks e e') (s.codec.decode text) (s.codec.decode text')
  /-- An element is accepted as a text of its own would be. -/
  spoken : s.fields.Spoken

theorem positional {same : String → Json → Json → Prop} {lacks : DecodeError → DecodeError → Prop}
    (hs : s.Regular) (hsame : s.fields.Respects same lacks) : s.Positional same lacks := by
  have hdecode (v : Json) (text : String) (ht : Spells v.tokens text.toList) :
      s.codec.decode text = s.codec.value v := Codec.decode_spells (local_codec hs.reads) ht
  refine ⟨?_, ?_, ?_, ?_, ?_, Fields.spoken_of_local hs.reads⟩
  · intro vs text text' ht hlength hvs hmissing
    obtain ⟨r, hgathers, hr⟩ := exists_value_form hs hlength hvs hmissing
    exact ⟨r, hgathers, (hdecode _ _ ht.array).trans (hr _ .positional),
      (hdecode _ _ ht.object).trans (hr _ .named)⟩
  · intro vs text text' e ht hvs
    exact ⟨(hdecode _ _ ht.array).trans (value_form_refused hs hvs .positional),
      (hdecode _ _ ht.object).trans (value_form_refused hs hvs .named)⟩
  · intro vs text text' key ht hvs hmissing
    exact ⟨(hdecode _ _ ht.array).trans (value_array_missing hs hvs hmissing),
      (hdecode _ _ ht.object).trans (value_named_missing hs hvs hmissing)⟩
  · intro vs text ht hlength hvs
    rw [hdecode _ _ ht, value_array hs.reads, Fields.collect_long hlength hvs]
    rfl
  · intro v w text text' h ht ht'
    rw [hdecode _ _ ht, hdecode _ _ ht']
    exact value_recast hs hsame h

end Schema

end Wire

open Wire

/-! ## The records of the wire format -/

/-- What a key of an event has to say: a snapshot the same in either form, anything else itself. -/
def sameOfEvent : String → Json → Json → Prop
  | "room" => Room.schema.Recast fun _ => Eq
  | "participant" => Participant.schema.Recast fun _ => Eq
  | "track" => Track.schema.Recast fun _ => Eq
  | "recording_info" => Recording.schema.Recast fun _ => Eq
  | _ => Eq

/-- The errors of the two forms of a snapshot in an event. -/
def lacksOfEvent (e e' : DecodeError) : Prop :=
  Room.schema.Lacks e e' ∨ Participant.schema.Lacks e e' ∨ Track.schema.Lacks e e' ∨
    Recording.schema.Lacks e e'

/-- **Both forms of every record agree.** -/
theorem positional_of_wire :
    Room.schema.Positional (fun _ => Eq) (fun _ _ => False) ∧
      Participant.schema.Positional (fun _ => Eq) (fun _ _ => False) ∧
      Client.schema.Positional (fun _ => Eq) (fun _ _ => False) ∧
      Recording.schema.Positional (fun _ => Eq) (fun _ _ => False) ∧
      Track.schema.Positional (fun _ => Eq) (fun _ _ => False) ∧
      AnalyticsEvent.schema.Positional sameOfEvent lacksOfEvent ∧
      WebhookEvent.schema.Positional sameOfEvent lacksOfEvent := by
  -- a snapshot has no snapshots inside
  have hflat {α : Type} {s : Schema α} (hs : s.Regular) :
      s.Positional (fun _ => Eq) (fun _ _ => False) :=
    Schema.positional hs (Fields.respects_eq _ _)
  have hsnapshot {α : Type} {s : Schema α} (hs : s.Regular)
      (hlacks : ∀ e e', s.Lacks e e' → lacksOfEvent e e') (v w : Json)
      (h : s.Recast (fun _ => Eq) v w) :
      Agree lacksOfEvent (s.codec.optional.value v) (s.codec.optional.value w) :=
    (Schema.value_optional_recast hs (Fields.respects_eq _ fun _ _ => False) h).mono
      fun e e' he => he.elim (hlacks e e') False.elim
  have hroom := hsnapshot regular_room fun _ _ => .inl
  have hparticipant := hsnapshot regular_participant fun _ _ h => .inr (.inl h)
  have htrack := hsnapshot regular_track fun _ _ h => .inr (.inr (.inl h))
  have hrecording := hsnapshot regular_recording fun _ _ h => .inr (.inr (.inr h))
  have hsame {α : Type} (c : Codec α) (v w : Json) (h : v = w) :
      Agree lacksOfEvent (c.value v) (c.value w) := h ▸ .same _
  have hanalytics : AnalyticsEvent.schema.fields.Respects sameOfEvent lacksOfEvent :=
    ⟨hsame _, hsame _, hsame _, hsame _, hsame _, hsame _, hroom, hparticipant, htrack, hsame _,
      trivial⟩
  have hwebhook : WebhookEvent.schema.fields.Respects sameOfEvent lacksOfEvent :=
    ⟨hsame _, hroom, hparticipant, hrecording, hsame _, hsame _, trivial⟩
  exact ⟨hflat regular_room, hflat regular_participant, hflat regular_client,
    hflat regular_recording, hflat regular_track,
    Schema.positional regular_analyticsEvent hanalytics,
    Schema.positional regular_webhookEvent hwebhook⟩

/-- The fields of a webhook event that have to be given stand behind three that may be missing. -/
example :
    WebhookEvent.schema.fields.missing? (WebhookEvent.schema.fields.keys.take 1) = some "id" ∧
      WebhookEvent.schema.fields.keys.idxOf "id" = 4 := by decide

end RoomWatch
