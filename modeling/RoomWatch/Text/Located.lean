import RoomWatch.Number.Numeral

/-!
# Faults with their place

The text of a fault may end with its place, as in `key expected at line 3 column 5`. The place
is taken off the text and kept as two numbers (`Located.ofText`). When the fault is shown it is
put behind the text again, its numbers without leading zeros (`Located.message`). Lines count
from 1, so a fault on line 0 has no place, and none is shown.
-/

namespace RoomWatch.Text

open Number

/-- A fault and its place, with line 0 where it has none. -/
structure Located where
  fault : String
  line : Nat
  column : Nat
  deriving DecidableEq

namespace Located

/-- Takes a number of 64 bits off a reversed text. -/
def takeNumber? (cs : List Char) : Option (Nat × List Char) :=
  let ds := cs.takeWhile Char.isDigit
  let n := Nat.ofDigitChars 10 ds.reverse 0
  if ds ≠ [] ∧ n < UInt64.size then some (n, cs.dropWhile Char.isDigit) else none

/-- Takes words off a reversed text. -/
def takeWords? (words : String) (cs : List Char) : Option (List Char) :=
  words.toList.reverse.isPrefixOf? cs

/-- A fault whose reversed text ends with its place. -/
def ofReversed? (cs : List Char) : Option Located := do
  let (column, cs) ← takeNumber? cs
  let cs ← takeWords? " column " cs
  let (line, cs) ← takeNumber? cs
  let cs ← takeWords? " at line " cs
  return ⟨String.ofList cs.reverse, line, column⟩

/-- Takes the last place off the text of a fault. -/
def ofText (s : String) : Located := (ofReversed? s.toList.reverse).getD ⟨s, 0, 0⟩

/-- A fault as it is shown. -/
def message (l : Located) : String :=
  if l.line = 0 then l.fault
  else l.fault ++ " at line " ++ decimal l.line ++ " column " ++ decimal l.column

end Located

end RoomWatch.Text
