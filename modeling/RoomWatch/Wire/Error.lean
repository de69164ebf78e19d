import RoomWatch.Text.Shown
import RoomWatch.Number.Numeral
import RoomWatch.Number.Shortest

/-!
# Why a text is refused

A text that ends too early, or is not JSON, is refused without further detail. A text that
is JSON but does not say what it should is refused with a fault, whose wording is
`Fault.message`.
-/

namespace RoomWatch.Wire

open Text Number

/-- A value that stands where another kind of value is expected. -/
inductive Found where
  | null
  | boolean (b : Bool)
  | integer (n : Int)
  | floating (x : Float)
  | text (s : String)
  | sequence
  | map

/-- The kind of value that is expected. -/
inductive Expected where
  | text
  | boolean
  | int64
  | uint32
  | unit
  | record (name : String)
  deriving DecidableEq

inductive Fault where
  | missingField (key : String)
  | duplicateField (key : String)
  | unknownVariant (name : String) (known : List String)
  | invalidType (found : Found) (expected : Expected)
  | invalidValue (n : Int) (expected : Expected)
  /-- An array with this many elements ends before a field that has to be given. -/
  | invalidLength (length : Nat) (record : String) (fields : Nat)

inductive DecodeError where
  | endOfText
  | malformed
  | fault (f : Fault)

/-- A result, or the reason why there is none. -/
abbrev Decoded (α : Type) := Except DecodeError α

theorem Decoded.exists_of_bind {α β : Type} {x : Decoded α} {f : α → Decoded β} {b : β}
    (h : x >>= f = .ok b) : ∃ a, x = .ok a ∧ f a = .ok b := by
  cases x with
  | error e => cases h
  | ok a => exact ⟨a, rfl, h⟩

theorem Decoded.exists_of_map {α β : Type} {x : Decoded α} {f : α → β} {b : β}
    (h : x.map f = .ok b) : ∃ a, x = .ok a ∧ f a = b := by
  cases x with
  | error e => cases h
  | ok a => cases h; exact ⟨a, rfl, rfl⟩

def Found.describe : Found → String
  | .null => "null"
  | .boolean true => "boolean `true`"
  | .boolean false => "boolean `false`"
  | .integer n => "integer `" ++ String.ofList (intChars n) ++ "`"
  | .floating x => "floating point `" ++ String.ofList (floatText x) ++ "`"
  | .text s => "string " ++ shown s
  | .sequence => "sequence"
  | .map => "map"

def Expected.describe : Expected → String
  | .text => "a string"
  | .boolean => "a boolean"
  | .int64 => "i64"
  | .uint32 => "u32"
  | .unit => "unit"
  | .record name => "struct " ++ name

/-- The wording of a fault. -/
def Fault.message : Fault → String
  | .missingField key => "missing field `" ++ key ++ "`"
  | .duplicateField key => "duplicate field `" ++ key ++ "`"
  | .unknownVariant name known =>
    "unknown variant `" ++ name ++ "`, expected one of " ++
      ", ".intercalate (known.map fun k => "`" ++ k ++ "`")
  | .invalidType found expected =>
    "invalid type: " ++ found.describe ++ ", expected " ++ expected.describe
  | .invalidValue n expected =>
    "invalid value: integer `" ++ String.ofList (intChars n) ++ "`, expected " ++ expected.describe
  | .invalidLength length record fields =>
    "invalid length " ++ decimal length ++ ", expected struct " ++ record ++
      " with " ++ decimal fields ++ " elements"

end RoomWatch.Wire
