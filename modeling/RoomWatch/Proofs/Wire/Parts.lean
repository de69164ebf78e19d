import RoomWatch.Proofs.Wire.Exact

/-!
# Parts of records

A part of a record is one of its fields: what the record holds there can be read off it and replaced
(`Schema.Part`). In a text the value of a part stands behind its key, or at its number in an array.

* `Fields.firstOffence?_replace`, `Fields.gathers_put`, `Fields.collect_put`: another value of one
  field is no matter of the other fields.
* `Schema.value_member`, `Schema.value_element`: a text that says something else of one part says
  the same of all others.
* `Codec.value_replaces`: **the same for parts of parts**, at any depth and in either form.
-/

namespace RoomWatch

namespace Wire

variable {α β γ ρ : Type}

/-- The place of a field among the fields of a record. -/
inductive Fields.Index : {ρ : Type} → Fields ρ → {α : Type} → Field α → Type 1 where
  | here {α ρ : Type} {f : Field α} {fs : Fields ρ} : Index (.cons f fs) f
  | there {α β ρ : Type} {f : Field α} {g : Field β} {fs : Fields ρ} (i : Index fs f) :
    Index (.cons g fs) f

/-- A record whose fields read their values to the end and have different keys. -/
structure Schema.Regular (s : Schema α) : Prop where
  reads : s.fields.Local
  distinct : s.fields.keys.Nodup

namespace Fields

variable {f : Field α} {fs : Fields ρ}

/-- What is wrong with the first element that its field does not accept. -/
def firstRefusal? {ρ : Type} : Fields ρ → List Json → Option DecodeError
  | .nil, _ => none
  | .cons _ _, [] => none
  | .cons f fs, v :: vs =>
    match f.codec.value v with
    | .error e => some e
    | .ok _ => fs.firstRefusal? vs

/-- An element that is accepted has a value, and then the further ones decide. -/
theorem accepted_cons {v : Json} {vs : List Json}
    (h : (Fields.cons f fs).firstRefusal? (v :: vs) = none) :
    (∃ a, f.codec.value v = .ok a) ∧ fs.firstRefusal? vs = none := by
  rw [firstRefusal?] at h
  cases hv : f.codec.value v with
  | error e =>
    rw [hv] at h
    cases h
  | ok a =>
    rw [hv] at h
    exact ⟨⟨a, rfl⟩, h⟩

namespace Index

/-- The number of fields in front. -/
def number {ρ : Type} {fs : Fields ρ} {α : Type} {f : Field α} : fs.Index f → Nat
  | .here => 0
  | .there i => i.number + 1

/-- What a row holds for a field. -/
def get {ρ : Type} {fs : Fields ρ} {α : Type} {f : Field α} : fs.Index f → ρ → α
  | .here, r => r.1
  | .there i, r => i.get r.2

/-- The row that holds something else for a field. -/
def put {ρ : Type} {fs : Fields ρ} {α : Type} {f : Field α} : fs.Index f → ρ → α → ρ
  | .here, r, a => (a, r.2)
  | .there i, r, a => (r.1, i.put r.2 a)

theorem get_put {ρ : Type} {fs : Fields ρ} (i : fs.Index f) (r : ρ) (a : α) :
    i.get (i.put r a) = a := by
  induction i with
  | here => rfl
  | there i ih => exact ih r.2 a

theorem key_mem {ρ : Type} {fs : Fields ρ} (i : fs.Index f) : f.key ∈ fs.keys := by
  induction i with
  | here => exact List.mem_cons_self
  | there i ih => exact List.mem_cons_of_mem _ ih

/-- What a value is refused for by a field is what its codec refuses it for. -/
theorem refusal?_eq {ρ : Type} {fs : Fields ρ} (i : fs.Index f) (hk : fs.keys.Nodup) (v : Json) :
    fs.refusal? f.key v =
      match f.codec.value v with
      | .error e => some e
      | .ok _ => none := by
  induction i with
  | here => exact if_pos rfl
  | @there _ _ _ f g fs i ih =>
    obtain ⟨hnew, hk⟩ := List.nodup_cons.1 hk
    have hne : g.key ≠ f.key := fun heq => hnew (heq ▸ i.key_mem)
    exact (if_neg hne).trans (ih hk)

end Index

/-! ## Another value of one field, in an object -/

theorem firstOffence?_append (seen : List String) (ms ms' : List (String × Json)) :
    fs.firstOffence? seen (ms ++ ms') =
      (fs.firstOffence? seen ms).or (fs.firstOffence? ((ms.map Prod.fst).reverse ++ seen) ms') := by
  induction ms generalizing seen with
  | nil => rfl
  | cons m ms ih =>
    rw [List.cons_append, firstOffence?, ih, firstOffence?, Option.or_assoc, List.map_cons,
      List.reverse_cons, List.append_assoc]
    rfl

/-- **Among members that do not offend, another value of one of them** offends if its field refuses
it. -/
theorem firstOffence?_replace {before after : List (String × Json)} {key : String} {v : Json}
    (h : fs.firstOffence? [] (before ++ (key, v) :: after) = none) (w : Json) :
    fs.firstOffence? [] (before ++ (key, w) :: after) = fs.refusal? key w := by
  rw [firstOffence?_append, firstOffence?] at h ⊢
  obtain ⟨hbefore, hmore⟩ := Option.or_eq_none_iff.1 h
  obtain ⟨hmember, hafter⟩ := Option.or_eq_none_iff.1 hmore
  have hunseen : ¬(key ∈ fs.keys ∧ key ∈ (before.map Prod.fst).reverse ++ []) := by
    intro hseen
    unfold offence? at hmember
    rw [if_pos hseen] at hmember
    cases hmember
  have hoffence : fs.offence? ((before.map Prod.fst).reverse ++ []) (key, w) = fs.refusal? key w :=
    if_neg hunseen
  rw [hbefore, hoffence, hafter, Option.none_or, Option.or_none]

theorem alike_replace {before after : List (String × Json)} {key : String} (hkey : key ∉ fs.keys)
    (v w : Json) : fs.Alike (before ++ (key, v) :: after) (before ++ (key, w) :: after) := by
  intro key' hkey' x
  have hne : key' ≠ key := fun heq => hkey (heq ▸ hkey')
  simp [hne]

/-- **The other fields have the values that they had.** -/
theorem gathers_put {ρ : Type} {fs : Fields ρ} (i : fs.Index f) (hk : fs.keys.Nodup)
    {before after : List (String × Json)} {v w : Json} {r : ρ} {b : α}
    (h : fs.Gathers (before ++ (f.key, v) :: after) r) (hw : f.codec.value w = .ok b) :
    fs.Gathers (before ++ (f.key, w) :: after) (i.put r b) := by
  induction i with
  | here =>
    obtain ⟨hnew, -⟩ := List.nodup_cons.1 hk
    exact ⟨.inl ⟨w, by simp, hw⟩, gathers_congr (alike_replace hnew v w) h.2⟩
  | @there _ _ _ f g fs i ih =>
    obtain ⟨hnew, hk⟩ := List.nodup_cons.1 hk
    have hne : f.key ∉ (Fields.cons g .nil).keys := by
      intro hmem
      exact hnew (List.mem_singleton.1 hmem ▸ i.key_mem)
    have hfirst : (Fields.cons g .nil).Gathers (before ++ (f.key, v) :: after) (r.1, ()) :=
      ⟨h.1, trivial⟩
    exact ⟨(gathers_congr (alike_replace hne v w) hfirst).1, ih hk h.2 hw⟩

/-! ## Another value of one field, in an array -/

/-- **Another element in the place of a field.** -/
theorem collect_put {ρ : Type} {fs : Fields ρ} (i : fs.Index f) {tooShort : Nat → DecodeError}
    {index : Nat} {before after : List Json} {v : Json} {r : ρ} (hlength : before.length = i.number)
    (h : fs.collect tooShort index (before ++ v :: after) = .ok r) (w : Json) :
    fs.collect tooShort index (before ++ w :: after) = (f.codec.value w).map (i.put r) := by
  induction i generalizing index before with
  | here =>
    rw [List.length_eq_zero_iff.1 hlength, List.nil_append] at h ⊢
    obtain ⟨a, -, h⟩ := Decoded.exists_of_bind h
    obtain ⟨r', hr', h⟩ := Decoded.exists_of_bind h
    cases h
    rw [collect, hr']
    cases (f.codec.value w) <;> rfl
  | @there _ _ _ f g fs i ih =>
    cases before with
    | nil => cases hlength
    | cons u before =>
      obtain ⟨a, ha, h⟩ := Decoded.exists_of_bind h
      obtain ⟨r', hr', h⟩ := Decoded.exists_of_bind h
      cases h
      rw [List.cons_append, collect, ha, ih (Nat.succ.inj hlength) hr']
      cases (f.codec.value w) <;> rfl

end Fields

/-- A part of a record: one of its fields. -/
structure Schema.Part (s : Schema α) (γ : Type) where
  field : Field γ
  index : s.fields.Index field

namespace Schema

variable {s : Schema α}

namespace Part

/-- What a record holds in a part. -/
def get (p : s.Part γ) (a : α) : γ := p.index.get (s.parts a)

/-- The record that holds something else in a part. -/
def put (p : s.Part γ) (a : α) (b : γ) : α := s.build (p.index.put (s.parts a) b)

theorem get_put (p : s.Part γ) (a : α) (b : γ) : p.get (p.put a b) = b := by
  unfold get put
  rw [s.parts_build, Fields.Index.get_put]

end Part

/-- What an array says: the values of its elements, with further fields at their default. -/
theorem value_array (h : s.fields.Local) (vs : List Json) :
    s.codec.value (.array vs) = (s.fields.collect s.tooShort 0 vs).map s.build := by
  have hread := read_array h vs []
  rw [List.append_nil] at hread
  rw [Codec.value, hread]
  cases s.fields.collect s.tooShort 0 vs <;> rfl

/-- **Another value of one part, in an object.** -/
theorem value_member (hs : s.Regular) (p : s.Part γ) {before after : List (String × Json)}
    {v : Json} {a : α} (h : s.codec.value (.record (before ++ (p.field.key, v) :: after)) = .ok a)
    (w : Json) :
    s.codec.value (.record (before ++ (p.field.key, w) :: after)) =
      (p.field.codec.value w).map (p.put a) := by
  obtain ⟨hoffence, hmissing, r, hgathers, rfl⟩ := (value_record_eq_ok_iff hs.reads hs.distinct).1 h
  have hoffence' := Fields.firstOffence?_replace hoffence w
  rw [p.index.refusal?_eq hs.distinct] at hoffence'
  cases hw : p.field.codec.value w with
  | error e =>
    have hvalue := value_record hs.reads hs.distinct (before ++ (p.field.key, w) :: after)
    rw [hw] at hoffence'
    rw [hoffence'] at hvalue
    exact hvalue
  | ok b =>
    have hmissing' : s.fields.missing? ((before ++ (p.field.key, w) :: after).map Prod.fst) =
        none := by
      simpa using hmissing
    have hput := Fields.gathers_put p.index hs.distinct hgathers hw
    rw [hw] at hoffence'
    refine (value_record_eq_ok_iff hs.reads hs.distinct).2 ⟨hoffence', hmissing', _, hput, ?_⟩
    rw [Part.put, s.parts_build]

/-- **Another value of one part, in an array.** -/
theorem value_element (hs : s.Regular) (p : s.Part γ) {before after : List Json} {v : Json} {a : α}
    (hlength : before.length = p.index.number)
    (h : s.codec.value (.array (before ++ v :: after)) = .ok a) (w : Json) :
    s.codec.value (.array (before ++ w :: after)) = (p.field.codec.value w).map (p.put a) := by
  rw [value_array hs.reads] at h ⊢
  obtain ⟨r, hr, rfl⟩ := Decoded.exists_of_map h
  rw [Fields.collect_put p.index hlength hr]
  cases hw : p.field.codec.value w with
  | error e => rfl
  | ok b =>
    unfold Part.put
    rw [s.parts_build]
    rfl

end Schema

/-! ## Parts of parts -/

/-- **The value `w` in the place of another one**, somewhere in what a codec reads, where the codec
`d` reads it. What is in that place otherwise is replaced in the same way (`put`). -/
inductive Codec.Replaces (d : Codec β) (w : Json) :
    {α : Type} → Codec α → (put : α → β → α) → Json → Json → Prop where
  | here (v : Json) : Replaces d w d (fun _ b => b) v w
  | optional {α : Type} {c : Codec α} {put : α → β → α} {v v' : Json}
    (h : Replaces d w c put v v') (hv : v ≠ .null) (hv' : v' ≠ .null) :
    Replaces d w c.optional (fun a b => a.map (put · b)) v v'
  | member {α γ : Type} {s : Schema α} (hs : s.Regular) (p : s.Part γ) {put : γ → β → γ}
    {v v' : Json} (h : Replaces d w p.field.codec put v v') (before after : List (String × Json)) :
    Replaces d w s.codec (fun a b => p.put a (put (p.get a) b))
      (.record (before ++ (p.field.key, v) :: after))
      (.record (before ++ (p.field.key, v') :: after))
  | element {α γ : Type} {s : Schema α} (hs : s.Regular) (p : s.Part γ) {put : γ → β → γ}
    {v v' : Json} (h : Replaces d w p.field.codec put v v') {before : List Json}
    (hlength : before.length = p.index.number) (after : List Json) :
    Replaces d w s.codec (fun a b => p.put a (put (p.get a) b))
      (.array (before ++ v :: after)) (.array (before ++ v' :: after))

namespace Codec

variable {c : Codec α}

theorem value_optional (h : c.Local) {v : Json} (hv : v ≠ .null) :
    c.optional.value v = (c.value v).map some := by
  have hread := read_optional_tokens h hv []
  rw [List.append_nil] at hread
  rw [value, hread]
  cases c.value v <;> rfl

/-- A part that is read as something is what the record holds. -/
theorem get_of_put {s : Schema α} {p : s.Part γ} {d : Decoded γ} {a : α}
    (h : d.map (p.put a) = .ok a) : d = .ok (p.get a) := by
  obtain ⟨b, rfl, hput⟩ := Decoded.exists_of_map h
  have hget := congrArg p.get hput
  rw [p.get_put] at hget
  rw [hget]

theorem Replaces.local {d : Codec β} {w v v' : Json} {put : α → β → α}
    (h : Replaces d w c put v v') (hd : d.Local) : c.Local := by
  induction h with
  | here v => exact hd
  | optional h hv hv' ih => exact local_optional ih
  | member hs p h before after ih => exact Schema.local_codec hs.reads
  | element hs p h hlength after ih => exact Schema.local_codec hs.reads

/-- **Another value of a part of a part**, at any depth and in either form, is read by the codec of
that part, and everything else is what it was. -/
theorem value_replaces {d : Codec β} {w v v' : Json} {put : α → β → α}
    (h : Replaces d w c put v v') (hd : d.Local) {a : α} (ha : c.value v = .ok a) :
    c.value v' = (d.value w).map (put a) := by
  induction h with
  | here v => cases d.value w <;> rfl
  | optional h hv hv' ih =>
    have hc := h.local hd
    rw [value_optional hc hv] at ha
    obtain ⟨b, hb, rfl⟩ := Decoded.exists_of_map ha
    rw [value_optional hc hv', ih hb]
    cases d.value w <;> rfl
  | member hs p h before after ih =>
    have hpart := get_of_put ((Schema.value_member hs p ha _).symm.trans ha)
    rw [Schema.value_member hs p ha, ih hpart]
    cases d.value w <;> rfl
  | element hs p h hlength after ih =>
    have hpart := get_of_put ((Schema.value_element hs p hlength ha _).symm.trans ha)
    rw [Schema.value_element hs p hlength ha, ih hpart]
    cases d.value w <;> rfl

end Codec

end Wire

/-! ## The records of the wire format -/

theorem regular_room : Room.schema.Regular := ⟨local_room, by decide⟩

theorem regular_participant : Participant.schema.Regular := ⟨local_participant, by decide⟩

theorem regular_client : Client.schema.Regular := ⟨local_client, by decide⟩

theorem regular_track : Track.schema.Regular := ⟨local_track, by decide⟩

theorem regular_recording : Recording.schema.Regular := ⟨local_recording, by decide⟩

theorem regular_analyticsEvent : AnalyticsEvent.schema.Regular := ⟨local_analyticsEvent, by decide⟩

theorem regular_webhookEvent : WebhookEvent.schema.Regular := ⟨local_webhookEvent, by decide⟩

end RoomWatch
