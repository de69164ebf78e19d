import RoomWatch.Proofs.Wire.Reading
import RoomWatch.Proofs.Wire.Records

/-!
# Reading records value by value

A record is read from the members of an object or from the elements of an array. Member by member,
values are put into slots (`Fields.absorb`); element by element, they are collected in the order of
the fields (`Fields.collect`). The first value that does not fit is what the record is refused for.

* `readObject_members`: an object is read as its members say, one after another.
* `readElements_elements`: so is an array.
* `Schema.local_codec`: **a record whose fields are local is local.**
-/

namespace RoomWatch.Wire

variable {α ρ : Type}

namespace Fields

variable {f : Field α} {fs : Fields ρ}

/-- The codecs of all fields are local. -/
def Local {ρ : Type} : Fields ρ → Prop
  | .nil => True
  | .cons f fs => f.codec.Local ∧ fs.Local

/-! ## The members of an object -/

/-- Puts a value into the slot of a key. A key without a field is passed over. -/
def put {ρ : Type} : (fs : Fields ρ) → String → Json → fs.Slots → Decoded fs.Slots
  | .nil, _, _, _ => .ok ()
  | .cons f fs, key, v, slots =>
    if f.key = key then
      match slots.1 with
      | some _ => .error (.fault (.duplicateField key))
      | none => (f.codec.value v).map fun a => (some a, slots.2)
    else (fs.put key v slots.2).map fun after => (slots.1, after)

/-- Puts the values of members into their slots, one after another. -/
def absorb (fs : Fields ρ) (slots : fs.Slots) : List (Option String × Json) → Decoded fs.Slots
  | [] => .ok slots
  | (none, _) :: _ => .error .malformed
  | (some key, v) :: ms => do fs.absorb (← fs.put key v slots) ms

theorem member_put {ρ : Type} {fs : Fields ρ} (h : fs.Local) (key : String) (v : Json)
    (slots : fs.Slots) (rest : List Token) :
    fs.member key slots (.colon :: (v.tokens ++ rest)) =
      (fs.put key v slots).map fun after => (after, rest) := by
  induction fs with
  | nil => simp only [member, store?, readColon, bind, Except.bind, skipValue_tokens]; rfl
  | cons f fs ih =>
    by_cases hkey : f.key = key
    · subst hkey
      rw [put, if_pos rfl]
      cases hslot : slots.1 with
      | some a =>
        rw [member_duplicate hslot]
        rfl
      | none =>
        rw [member_self hslot, readColon, Except.bind, h.1 v rest]
        cases f.codec.value v <;> rfl
    · rw [member_cons_of_ne hkey, ih h.2, put, if_neg hkey]
      cases fs.put key v slots.2 <;> rfl

/-- A key that denotes no text is not a key. -/
theorem readMembers_unpaired (slots : fs.Slots) (ts : List Token) :
    fs.readMembers slots (.defect .unpaired :: ts) = .error .malformed := by
  rw [readMembers]
  · rfl
  · intro key ts h
    cases h

/-- Members are read as their values say, one after another. -/
theorem readMembers_members (h : fs.Local) (slots : fs.Slots) (m : Option String × Json)
    (ms : List (Option String × Json)) (rest : List Token) :
    fs.readMembers slots
        (separated ((m :: ms).map Json.memberTokens) ++ .closeObject :: rest) =
      ((fs.absorb slots (m :: ms)).bind fs.finish).map fun r => (r, rest) := by
  induction ms generalizing slots m with
  | nil =>
    obtain ⟨_ | key, v⟩ := m
    · exact readMembers_unpaired slots _
    · have hmember := member_put h key v slots (.closeObject :: rest)
      change fs.readMembers slots (.text key :: .colon :: (v.tokens ++ .closeObject :: rest)) = _
      rw [absorb]
      cases hput : fs.put key v slots with
      | error e =>
        rw [hput] at hmember
        exact readMembers_error hmember
      | ok after =>
        rw [hput] at hmember
        exact readMembers_last hmember
  | cons n ms ih =>
    rw [List.map_cons, List.map_cons, separated_cons_cons]
    obtain ⟨_ | key, v⟩ := m
    · exact readMembers_unpaired slots _
    · have hmember := member_put h key v slots
        (.comma :: (separated ((n :: ms).map Json.memberTokens) ++ .closeObject :: rest))
      rw [Json.memberTokens, List.cons_append, List.cons_append, quoted, absorb]
      cases hput : fs.put key v slots with
      | error e =>
        rw [hput] at hmember
        exact readMembers_error hmember
      | ok after =>
        rw [hput] at hmember
        exact (readMembers_comma hmember).trans (ih after n)

/-- **An object is read as its members say**, one after another. -/
theorem readObject_members (h : fs.Local) (ms : List (Option String × Json)) (rest : List Token) :
    fs.readObject (separated (ms.map Json.memberTokens) ++ .closeObject :: rest) =
      ((fs.absorb fs.blank ms).bind fs.finish).map fun r => (r, rest) := by
  cases ms with
  | nil => rfl
  | cons m ms =>
    refine Eq.trans ?_ (readMembers_members h fs.blank m ms rest)
    obtain ⟨_ | key, v⟩ := m <;> cases ms <;> rfl

/-! ## The elements of an array -/

/-- What the elements of an array say from field number `index` on. -/
def collect {ρ : Type} (tooShort : Nat → DecodeError) :
    (fs : Fields ρ) → (index : Nat) → List Json → Decoded ρ
  | .nil, _, [] => .ok ()
  | .nil, _, _ :: _ => .error .malformed
  | .cons f fs, index, [] => (Fields.cons f fs).defaults tooShort index
  | .cons f fs, index, v :: vs => do
    let a ← f.codec.value v
    let r ← fs.collect tooShort (index + 1) vs
    return (a, r)

theorem readElements_end (tooShort : Nat → DecodeError) (index : Nat) (rest : List Token) :
    (Fields.cons f fs).readElements tooShort index (.closeArray :: rest) =
      ((Fields.cons f fs).defaults tooShort index).map fun r => (r, rest) := by
  simp only [readElements, nextElement, bind, Except.bind]
  cases (Fields.cons f fs).defaults tooShort index <;> rfl

theorem readElements_value (h : f.codec.Local) (tooShort : Nat → DecodeError) {index : Nat}
    {v : Json} {ts rest : List Token}
    (hnext : nextElement (index == 0) ts = .ok (some (v.tokens ++ rest))) :
    (Fields.cons f fs).readElements tooShort index ts =
      (f.codec.value v).bind fun a =>
        (fs.readElements tooShort (index + 1) rest).map fun r => ((a, r.1), r.2) := by
  simp only [readElements, hnext, bind, Except.bind, h v rest]
  cases f.codec.value v with
  | error e => rfl
  | ok a =>
    simp only [Except.map]
    cases fs.readElements tooShort (index + 1) rest <;> rfl

theorem collect_cons (tooShort : Nat → DecodeError) (index : Nat) (v : Json) (vs : List Json)
    (rest : List Token) :
    ((f.codec.value v).bind fun a =>
        ((fs.collect tooShort (index + 1) vs).map fun r => (r, rest)).map fun r =>
          ((a, r.1), r.2)) =
      ((Fields.cons f fs).collect tooShort index (v :: vs)).map fun r => (r, rest) := by
  rw [collect]
  cases f.codec.value v with
  | error e => rfl
  | ok a =>
    simp only [bind, Except.bind]
    cases fs.collect tooShort (index + 1) vs <;> rfl

/-- Elements behind another one, each with a comma in front of it. -/
theorem readElements_behind {ρ : Type} {fs : Fields ρ} (h : fs.Local)
    (tooShort : Nat → DecodeError) (index : Nat) (vs : List Json) (rest : List Token) :
    fs.readElements tooShort (index + 1) (behind (vs.map Json.tokens) ++ .closeArray :: rest) =
      (fs.collect tooShort (index + 1) vs).map fun r => (r, rest) := by
  induction fs generalizing index vs with
  | nil => cases vs <;> rfl
  | cons f fs ih =>
    cases vs with
    | nil => exact readElements_end tooShort (index + 1) rest
    | cons v vs =>
      have hnext : nextElement (index + 1 == 0)
          (behind ((v :: vs).map Json.tokens) ++ .closeArray :: rest) =
            .ok (some (v.tokens ++ (behind (vs.map Json.tokens) ++ .closeArray :: rest))) := by
        simp [nextElement, behind]
      rw [readElements_value h.1 tooShort hnext, ih h.2]
      exact collect_cons tooShort (index + 1) v vs rest

/-- **An array is read as its elements say**, one after another. -/
theorem readElements_elements {ρ : Type} {fs : Fields ρ} (h : fs.Local)
    (tooShort : Nat → DecodeError) (vs : List Json) (rest : List Token) :
    fs.readElements tooShort 0 (separated (vs.map Json.tokens) ++ .closeArray :: rest) =
      (fs.collect tooShort 0 vs).map fun r => (r, rest) := by
  cases vs with
  | nil =>
    cases fs with
    | nil => rfl
    | cons f fs => exact readElements_end tooShort 0 rest
  | cons v vs =>
    rw [List.map_cons, separated_cons, List.append_assoc]
    obtain ⟨t, ts, htokens, hstarts, -⟩ := v.exists_tokens
    have hnext (us : List Token) : nextElement (0 == 0) (v.tokens ++ us) =
        .ok (some (v.tokens ++ us)) := by
      rw [htokens]
      cases t <;> first | rfl | exact hstarts.elim
    cases fs with
    | nil =>
      rw [htokens]
      cases t <;> first | rfl | exact hstarts.elim
    | cons f fs =>
      rw [readElements_value h.1 tooShort (hnext _), readElements_behind h.2]
      exact collect_cons tooShort 0 v vs rest

end Fields

namespace Schema

variable {s : Schema α}

theorem read_object (h : s.fields.Local) (ms : List (Option String × Json)) (rest : List Token) :
    s.codec.read ((Json.object ms).tokens ++ rest) =
      ((s.fields.absorb s.fields.blank ms).bind s.fields.finish).map fun r => (s.build r, rest) := by
  have hread := Fields.readObject_members h ms rest
  rw [Json.tokens, Json.members_eq, List.cons_append, List.append_assoc]
  refine (congrArg (Except.map fun r => (s.build r.1, r.2)) hread).trans ?_
  cases (s.fields.absorb s.fields.blank ms).bind s.fields.finish <;> rfl

theorem read_array (h : s.fields.Local) (vs : List Json) (rest : List Token) :
    s.codec.read ((Json.array vs).tokens ++ rest) =
      (s.fields.collect s.tooShort 0 vs).map fun r => (s.build r, rest) := by
  have hread := Fields.readElements_elements h s.tooShort vs rest
  rw [Json.tokens, Json.elements_eq, List.cons_append, List.append_assoc]
  refine (congrArg (Except.map fun r => (s.build r.1, r.2)) hread).trans ?_
  cases s.fields.collect s.tooShort 0 vs <;> rfl

/-- **A record whose fields are local is local.** -/
theorem local_codec (h : s.fields.Local) : s.codec.Local := by
  refine Codec.local_of_exists fun v => ?_
  cases v with
  | object ms =>
    refine ⟨((s.fields.absorb s.fields.blank ms).bind s.fields.finish).map s.build, fun rest => ?_⟩
    rw [read_object h]
    cases (s.fields.absorb s.fields.blank ms).bind s.fields.finish <;> rfl
  | array vs =>
    refine ⟨(s.fields.collect s.tooShort 0 vs).map s.build, fun rest => ?_⟩
    rw [read_array h]
    cases s.fields.collect s.tooShort 0 vs <;> rfl
  | text t => cases t <;> exact ⟨.error _, fun _ => rfl⟩
  | _ => exact ⟨.error _, fun _ => rfl⟩

/-- What an object says: the values of its members, with absent ones at their default. -/
theorem value_object (h : s.fields.Local) (ms : List (Option String × Json)) :
    s.codec.value (.object ms) =
      ((s.fields.absorb s.fields.blank ms).bind s.fields.finish).map s.build := by
  have hread := read_object h ms []
  rw [List.append_nil] at hread
  rw [Codec.value, hread]
  cases (s.fields.absorb s.fields.blank ms).bind s.fields.finish <;> rfl

end Schema

end RoomWatch.Wire
