import RoomWatch.Wire.Codec

/-!
# Named choices

A choice is a value of a type with finitely many values, each with a label. Its text is the
label in quotes; an object with the label as its only key and `null` behind it is read too.
-/

namespace RoomWatch.Wire

/-- A type whose values are known by their labels. -/
class Labelled (α : Type) where
  /-- All values, in the order in which messages list them. -/
  all : List α
  label : α → String
  mem_all : ∀ a, a ∈ all
  label_injective : ∀ {a b}, label a = label b → a = b

namespace Labelled

variable {α : Type} [Labelled α]

/-- The value with the given label. -/
def ofLabel? (name : String) : Option α := (all (α := α)).find? fun a => label a = name

theorem ofLabel?_label (a : α) : ofLabel? (label a) = some a := by
  unfold ofLabel?
  cases h : (all (α := α)).find? fun b => label b = label a with
  | none =>
    have := List.find?_eq_none.1 h a (mem_all a)
    simp at this
  | some b =>
    have := List.find?_some h
    rw [label_injective (of_decide_eq_true this)]

/-- The value with the given label, or the fault of there being none. -/
def named (α : Type) [Labelled α] (name : String) : Decoded α :=
  match ofLabel? name with
  | some a => .ok a
  | none => .error (.fault (.unknownVariant name ((all (α := α)).map label)))

/-- What stands in an object behind the label. -/
def readUnit : List Token → Decoded (List Token)
  | .null :: rest => .ok rest
  | ts => .error (refusal .unit ts)

/-- The label as the only key of an object, from behind the opening brace. -/
def readKeyed (α : Type) [Labelled α] : List Token → Decoded (α × List Token)
  | .text name :: rest => do
    let a ← named α name
    match rest with
    | .colon :: rest =>
      match ← readUnit rest with
      | .closeObject :: rest => .ok (a, rest)
      | rest => .error (broken rest)
    | rest => .error (broken rest)
  | ts => .error (keyRefusal ts)

def read (α : Type) [Labelled α] : List Token → Decoded (α × List Token)
  | .text name :: rest => (named α name).map fun a => (a, rest)
  | .openObject :: rest => readKeyed α rest
  | .defect .cutText :: _ => .error .endOfText
  | ts => .error (broken ts)

theorem readUnit_lt {ts rest : List Token} (h : readUnit ts = .ok rest) :
    rest.length < ts.length := by
  unfold readUnit at h
  split at h
  · cases h; simp
  · cases h

theorem readKeyed_lt {ts rest : List Token} {a : α} (h : readKeyed α ts = .ok (a, rest)) :
    rest.length < ts.length := by
  unfold readKeyed at h
  split at h
  · obtain ⟨b, _, h⟩ := Decoded.exists_of_bind h
    split at h
    · obtain ⟨us, hu, h⟩ := Decoded.exists_of_bind h
      have := readUnit_lt hu
      split at h
      · cases h
        simp only [List.length_cons] at *; omega
      · cases h
    · cases h
  · cases h

theorem read_lt {ts rest : List Token} {a : α} (h : read α ts = .ok (a, rest)) :
    rest.length < ts.length := by
  unfold read at h
  split at h
  · obtain ⟨b, _, he⟩ := Decoded.exists_of_map h
    cases he
    simp
  · exact Nat.lt_succ_of_lt (readKeyed_lt h)
  · cases h
  · cases h

end Labelled

/-- The codec of a type with labelled values. -/
def Codec.choice (α : Type) [Labelled α] : Codec α where
  read := Labelled.read α
  write a := [.text (Labelled.label a)]
  read_lt := Labelled.read_lt

end RoomWatch.Wire
