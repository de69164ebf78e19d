import RoomWatch.Text.Hidden

/-!
# Text shown inside a message

A message shows a text in double quotes. Quote and backslash stand behind a backslash, NUL,
tab and line ends have short escapes, and every other character without a glyph of its own
is given by its code point in hexadecimal (`showChar`).
-/

namespace RoomWatch.Text

/-- The form of one character in a shown text. -/
def showChar (c : Char) : List Char :=
  if c = '"' then ['\\', '"']
  else if c = '\\' then ['\\', '\\']
  else if c = '\x00' then ['\\', '0']
  else if c = '\t' then ['\\', 't']
  else if c = '\n' then ['\\', 'n']
  else if c = '\x0d' then ['\\', 'r']
  else if isHidden c then ['\\', 'u', '\x7b'] ++ Nat.toDigits 16 c.toNat ++ ['\x7d']
  else [c]

/-- A text in quotes, as messages show it. -/
def shown (s : String) : String := String.ofList ('"' :: s.toList.flatMap showChar ++ ['"'])

end RoomWatch.Text
