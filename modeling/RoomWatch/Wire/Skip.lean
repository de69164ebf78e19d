import RoomWatch.Wire.Codec

/-!
# Passing over a value

A member with an unknown key is passed over: its value may be anything that is JSON, of any
depth (`skipValue`). The brackets that are still open form a stack. What may stand next
depends on what has just been read (`Place`).

Nothing is asked of the numbers and texts that are passed over but that they are well
formed: a number may be of any size, and a surrogate needs no partner.
-/

namespace RoomWatch.Wire

/-- A bracket that is still open. -/
inductive Bracket where
  | array
  | object
  deriving DecidableEq

/-- What may stand next inside a value that is passed over. -/
inductive Place where
  | value
  /-- A value, or the end of an empty array. -/
  | element
  /-- A key, after a comma. -/
  | key
  /-- A key, or the end of an empty object. -/
  | member
  | colon
  /-- A comma or the closing bracket. -/
  | tail
  deriving DecidableEq

/-- The error of a defect in text that is passed over. -/
def skippedDefect : Defect → DecodeError
  | .cutText => .endOfText
  | .cutUnpaired => .endOfText
  | .cutNull => .endOfText
  | .cutBool => .endOfText
  | .unpaired => .malformed
  | .cutNumber => .malformed
  | .bad => .malformed

/-- What one token does to a value that is passed over. -/
inductive Progress where
  | refused (e : DecodeError)
  | inside (opened : List Bracket) (place : Place)
  | finished

/-- A value has ended inside the given brackets. -/
def valueEnds : List Bracket → Progress
  | [] => .finished
  | b :: opened => .inside (b :: opened) .tail

/-- A value starts with this token. -/
def valueStarts (opened : List Bracket) : Token → Progress
  | .null => valueEnds opened
  | .bool _ => valueEnds opened
  | .number _ => valueEnds opened
  | .text _ => valueEnds opened
  | .defect .unpaired => valueEnds opened
  | .openArray => .inside (.array :: opened) .element
  | .openObject => .inside (.object :: opened) .member
  | .defect d => .refused (skippedDefect d)
  | _ => .refused .malformed

/-- A key starts with this token. -/
def keyStarts (opened : List Bracket) : Token → Progress
  | .text _ => .inside opened .colon
  | .defect .unpaired => .inside opened .colon
  | .defect .cutText => .refused .endOfText
  | .defect .cutUnpaired => .refused .endOfText
  | _ => .refused .malformed

/-- The effect of the next token. -/
def progress : List Bracket → Place → Token → Progress
  | opened, .value, t => valueStarts opened t
  | .array :: opened, .element, .closeArray => valueEnds opened
  | opened, .element, t => valueStarts opened t
  | .object :: opened, .member, .closeObject => valueEnds opened
  | opened, .member, t => keyStarts opened t
  | opened, .key, t => keyStarts opened t
  | opened, .colon, .colon => .inside opened .value
  | .array :: opened, .tail, .comma => .inside (.array :: opened) .value
  | .array :: opened, .tail, .closeArray => valueEnds opened
  | .object :: opened, .tail, .comma => .inside (.object :: opened) .key
  | .object :: opened, .tail, .closeObject => valueEnds opened
  | _, _, _ => .refused .malformed

/-- Passes over the rest of a value. -/
def skip (opened : List Bracket) (place : Place) : List Token → Decoded (List Token)
  | [] => .error .endOfText
  | t :: ts =>
    match progress opened place t with
    | .refused e => .error e
    | .inside opened place => skip opened place ts
    | .finished => .ok ts

/-- Passes over one value. -/
def skipValue (ts : List Token) : Decoded (List Token) := skip [] .value ts

theorem skip_lt {opened : List Bracket} {place : Place} {ts rest : List Token}
    (h : skip opened place ts = .ok rest) : rest.length < ts.length := by
  induction ts generalizing opened place with
  | nil => cases h
  | cons t ts ih =>
    rw [skip] at h
    split at h
    · cases h
    · have := ih h
      simp only [List.length_cons]; omega
    · cases h; simp

end RoomWatch.Wire
