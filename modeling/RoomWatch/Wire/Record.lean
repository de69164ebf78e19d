import RoomWatch.Wire.Skip

/-!
# Records

A record type is a list of fields. One list serves all three forms: the object that is
written (`Fields.write`), the object that is read, with its members in any order and unknown
ones among them (`Fields.readMembers`), and the array of the values in the order of the
fields (`Fields.readElements`).

While an object is read, each field has a slot for its value. The first fault in text order
wins; which fields are missing is seen at the end of the object (`Fields.finish`).

* `Fields.member_lt`, `Fields.readMembers_lt`, `Fields.readElements_lt`: reading consumes tokens.
-/

namespace RoomWatch.Wire

/-- One field of a record: its key, the codec of its value, the value of an absent member
(none if it has to be given), and which values are left out of the written form. -/
structure Field (α : Type) where
  key : String
  codec : Codec α
  absent : Option α
  omits : α → Bool
  absent_of_omits : ∀ {a}, omits a = true → absent = some a

namespace Field

variable {α : Type}

/-- A field that has to be given. -/
def required (key : String) (codec : Codec α) : Field α := ⟨key, codec, none, fun _ => false, nofun⟩

/-- A field that may be missing and is always written. -/
def defaulted (key : String) (codec : Codec α) (a : α) : Field α :=
  ⟨key, codec, some a, fun _ => false, nofun⟩

/-- A text that is left out when it is empty. -/
def textOrEmpty (key : String) : Field String where
  key := key
  codec := .text
  absent := some ""
  omits s := s = ""
  absent_of_omits h := by rw [of_decide_eq_true h]

/-- A value that is left out when there is none. -/
def optional (key : String) (codec : Codec α) : Field (Option α) where
  key := key
  codec := codec.optional
  absent := some none
  omits a := a.isNone
  absent_of_omits h := by rw [Option.isNone_iff_eq_none.1 h]

end Field

/-- The fields of a record in their order, with the values they hold as a product. -/
inductive Fields : Type → Type 1
  | nil : Fields Unit
  | cons {α ρ : Type} (f : Field α) (fs : Fields ρ) : Fields (α × ρ)

/-- Separates lists of tokens by commas. -/
def separated : List (List Token) → List Token
  | [] => []
  | [ts] => ts
  | ts :: us :: rest => ts ++ .comma :: separated (us :: rest)

/-- The colon behind a key. -/
def readColon : List Token → Decoded (List Token)
  | .colon :: ts => .ok ts
  | ts => .error (broken ts)

namespace Fields

variable {ρ : Type}

/-- The number of fields. -/
def size {ρ : Type} : Fields ρ → Nat
  | .nil => 0
  | .cons _ fs => fs.size + 1

/-- The keys in order. -/
def keys {ρ : Type} : Fields ρ → List String
  | .nil => []
  | .cons f fs => f.key :: fs.keys

/-- A slot for each field: the value that has been read for it, if any. -/
def Slots {ρ : Type} : Fields ρ → Type
  | .nil => Unit
  | .cons (α := α) _ fs => Option α × fs.Slots

/-- All slots empty. -/
def blank {ρ : Type} : (fs : Fields ρ) → fs.Slots
  | .nil => ()
  | .cons _ fs => (none, fs.blank)

/-- Reads the value behind a key, colon included, into its slot; none if no field has the key. -/
def store? {ρ : Type} : (fs : Fields ρ) → String → fs.Slots → List Token →
    Option (Decoded (fs.Slots × List Token))
  | .nil, _, _, _ => none
  | .cons f fs, key, slots, ts =>
    if f.key = key then
      match slots.1 with
      | some _ => some (.error (.fault (.duplicateField key)))
      | none => some do
        let (a, rest) ← f.codec.read (← readColon ts)
        return ((some a, slots.2), rest)
    else
      (fs.store? key slots.2 ts).map fun r => r.map fun r => ((slots.1, r.1), r.2)

/-- Reads what stands behind a key: a field's value into its slot, or any value at all. -/
def member (fs : Fields ρ) (key : String) (slots : fs.Slots) (ts : List Token) :
    Decoded (fs.Slots × List Token) :=
  match fs.store? key slots ts with
  | some r => r
  | none => do
    let rest ← skipValue (← readColon ts)
    return (slots, rest)

/-- The values in the slots, with absent ones at their default. -/
def finish {ρ : Type} : (fs : Fields ρ) → fs.Slots → Decoded ρ
  | .nil, _ => .ok ()
  | .cons f fs, slots =>
    match slots.1.or f.absent with
    | none => .error (.fault (.missingField f.key))
    | some a => (fs.finish slots.2).map fun r => (a, r)

theorem readColon_lt {ts rest : List Token} (h : readColon ts = .ok rest) :
    rest.length < ts.length := by
  unfold readColon at h
  split at h
  · cases h; simp
  · cases h

theorem store?_lt {ρ : Type} {fs : Fields ρ} {key : String} {slots slots' : fs.Slots}
    {ts rest : List Token} (h : fs.store? key slots ts = some (.ok (slots', rest))) :
    rest.length < ts.length := by
  induction fs with
  | nil => cases h
  | cons f fs ih =>
    unfold store? at h
    split at h
    · split at h
      · cases h
      · obtain ⟨us, hc, h⟩ := Decoded.exists_of_bind (Option.some.inj h)
        obtain ⟨r, hr, h⟩ := Decoded.exists_of_bind h
        cases h
        exact Nat.lt_trans (f.codec.read_lt hr) (readColon_lt hc)
    · obtain ⟨r, hs, hm⟩ := Option.map_eq_some_iff.1 h
      obtain ⟨q, hq, he⟩ := Decoded.exists_of_map hm
      cases he
      exact ih (hq ▸ hs)

theorem member_lt {fs : Fields ρ} {key : String} {slots slots' : fs.Slots}
    {ts rest : List Token} (h : fs.member key slots ts = .ok (slots', rest)) :
    rest.length < ts.length := by
  unfold member at h
  split at h
  · next hs => exact store?_lt (h ▸ hs)
  · obtain ⟨us, hc, h⟩ := Decoded.exists_of_bind h
    obtain ⟨r, hr, h⟩ := Decoded.exists_of_bind h
    cases h
    exact Nat.lt_trans (skip_lt hr) (readColon_lt hc)

/-- Reads the members of an object from a key on, up to its closing brace. -/
def readMembers (fs : Fields ρ) (slots : fs.Slots) (ts : List Token) : Decoded (ρ × List Token) :=
  match ts with
  | .text key :: ts =>
    match _ : fs.member key slots ts with
    | .error e => .error e
    | .ok (slots, .comma :: rest) => fs.readMembers slots rest
    | .ok (slots, .closeObject :: rest) => (fs.finish slots).map fun r => (r, rest)
    | .ok (_, rest) => .error (broken rest)
  | ts => .error (keyRefusal ts)
termination_by ts.length
decreasing_by
  next h => have := member_lt h; simp only [List.length_cons] at *; omega

/-- Reads an object from behind its opening brace. -/
def readObject (fs : Fields ρ) : List Token → Decoded (ρ × List Token)
  | .closeObject :: rest => (fs.finish fs.blank).map fun r => (r, rest)
  | ts => fs.readMembers fs.blank ts

/-- What the elements of an array say from field number `index` on, when it ends there. -/
def defaults {ρ : Type} (tooShort : Nat → DecodeError) : (fs : Fields ρ) → (index : Nat) → Decoded ρ
  | .nil, _ => .ok ()
  | .cons f fs, index =>
    match f.absent with
    | none => .error (tooShort index)
    | some a => (fs.defaults tooShort (index + 1)).map fun r => (a, r)

/-- The start of the next element: none where the array ends. -/
def nextElement (first : Bool) : List Token → Decoded (Option (List Token))
  | .closeArray :: _ => .ok none
  | ts =>
    if first then .ok (some ts)
    else match ts with
      | .comma :: rest => .ok (some rest)
      | ts => .error (broken ts)

/-- The end of an array whose elements have all been read. -/
def closeArray : List Token → Decoded (List Token)
  | .closeArray :: rest => .ok rest
  | ts => .error (broken ts)

/-- Reads an array from field number `index` on, up to its closing bracket. -/
def readElements {ρ : Type} (tooShort : Nat → DecodeError) :
    (fs : Fields ρ) → (index : Nat) → List Token → Decoded (ρ × List Token)
  | .nil, _, ts => (closeArray ts).map fun rest => ((), rest)
  | .cons f fs, index, ts => do
    match ← nextElement (index == 0) ts with
    -- The array ends here, and the closing bracket is the first token.
    | none =>
      let r ← (Fields.cons f fs).defaults tooShort index
      return (r, ts.tail)
    | some ts =>
      let (a, ts) ← f.codec.read ts
      let (r, ts) ← fs.readElements tooShort (index + 1) ts
      return ((a, r), ts)

/-- The members that are written. -/
def write {ρ : Type} : Fields ρ → ρ → List (List Token)
  | .nil, _ => []
  | .cons f fs, (a, r) =>
    if f.omits a then fs.write r
    else (.text f.key :: .colon :: f.codec.write a) :: fs.write r

theorem readMembers_lt {fs : Fields ρ} {slots : fs.Slots} {ts rest : List Token} {r : ρ}
    (h : fs.readMembers slots ts = .ok (r, rest)) : rest.length < ts.length := by
  fun_induction fs.readMembers slots ts with
  | case1 => cases h
  | case2 slots key ts slots' rest' hm ih =>
    have h1 := member_lt hm
    have h2 := ih h
    simp only [List.length_cons] at *; omega
  | case3 slots key ts slots' rest' hm =>
    have h1 := member_lt hm
    obtain ⟨a, _, he⟩ := Decoded.exists_of_map h
    cases he
    simp only [List.length_cons] at *; omega
  | case4 => cases h
  | case5 => cases h

theorem readObject_lt {fs : Fields ρ} {ts rest : List Token} {r : ρ}
    (h : fs.readObject ts = .ok (r, rest)) : rest.length < ts.length := by
  unfold readObject at h
  split at h
  · obtain ⟨a, _, he⟩ := Decoded.exists_of_map h
    cases he
    simp
  · exact readMembers_lt h

theorem closeArray_lt {ts rest : List Token} (h : closeArray ts = .ok rest) :
    rest.length < ts.length := by
  unfold closeArray at h
  split at h
  · cases h; simp
  · cases h

theorem nextElement_le {first : Bool} {ts rest : List Token}
    (h : nextElement first ts = .ok (some rest)) : rest.length ≤ ts.length := by
  unfold nextElement at h
  split at h
  · cases h
  · split at h
    · cases h; exact Nat.le_refl _
    · split at h
      · cases h; simp
      · cases h

theorem nextElement_none {first : Bool} {ts : List Token} (h : nextElement first ts = .ok none) :
    ts.tail.length < ts.length := by
  unfold nextElement at h
  split at h
  · simp
  · split at h
    · cases h
    · split at h <;> cases h

theorem readElements_lt {ρ : Type} {tooShort : Nat → DecodeError} {fs : Fields ρ} {index : Nat}
    {ts rest : List Token} {r : ρ} (h : fs.readElements tooShort index ts = .ok (r, rest)) :
    rest.length < ts.length := by
  induction fs generalizing index ts rest with
  | nil =>
    obtain ⟨us, hc, he⟩ := Decoded.exists_of_map h
    cases he
    exact closeArray_lt hc
  | cons f fs ih =>
    rw [readElements] at h
    obtain ⟨o, hn, h⟩ := Decoded.exists_of_bind h
    cases o with
    | none =>
      obtain ⟨d, _, h⟩ := Decoded.exists_of_bind h
      cases h
      exact nextElement_none hn
    | some us =>
      have h0 := nextElement_le hn
      obtain ⟨a, hr, h⟩ := Decoded.exists_of_bind h
      have h1 := f.codec.read_lt hr
      obtain ⟨r', he, h⟩ := Decoded.exists_of_bind h
      have h2 := ih he
      cases h
      omega

end Fields

/-- A type whose values are read and written as records. -/
structure Schema (α : Type) where
  name : String
  Row : Type
  fields : Fields Row
  build : Row → α
  parts : α → Row
  build_parts : ∀ a, build (parts a) = a
  parts_build : ∀ r, parts (build r) = r

namespace Schema

variable {α : Type}

/-- The error of an array that ends before field number `index`, which has to be given. -/
def tooShort (s : Schema α) (index : Nat) : DecodeError :=
  .fault (.invalidLength index s.name s.fields.size)

def read (s : Schema α) : List Token → Decoded (α × List Token)
  | .openObject :: ts => (s.fields.readObject ts).map fun r => (s.build r.1, r.2)
  | .openArray :: ts => (s.fields.readElements s.tooShort 0 ts).map fun r => (s.build r.1, r.2)
  | ts => .error (refusal (.record s.name) ts)

def write (s : Schema α) (a : α) : List Token :=
  .openObject :: separated (s.fields.write (s.parts a)) ++ [.closeObject]

theorem read_lt {s : Schema α} {ts rest : List Token} {a : α} (h : s.read ts = .ok (a, rest)) :
    rest.length < ts.length := by
  unfold read at h
  split at h
  · obtain ⟨r, hr, he⟩ := Decoded.exists_of_map h
    cases he
    exact Nat.lt_succ_of_lt (Fields.readObject_lt hr)
  · obtain ⟨r, hr, he⟩ := Decoded.exists_of_map h
    cases he
    exact Nat.lt_succ_of_lt (Fields.readElements_lt hr)
  · cases h

def codec (s : Schema α) : Codec α := ⟨s.read, s.write, s.read_lt⟩

end Schema

end RoomWatch.Wire
