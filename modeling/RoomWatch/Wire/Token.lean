import RoomWatch.Text.Quoted
import RoomWatch.Number.Numeral

/-!
# Tokens of the wire format

A wire text is a JSON text. It is read in two steps: `lex` cuts it into tokens and drops the
blanks between them, and typed readers consume the tokens. `Token.chars` is the written form
of a token, and `written` that of a token list, without blanks.

A text that stops being JSON at some point gives the tokens before that point and one
`Defect` at the end. Only an unpaired surrogate lets the tokens go on behind it.
-/

namespace RoomWatch.Wire

open Text Number

/-- What can be wrong with a piece of text that should be a token. -/
inductive Defect where
  /-- A quoted text with a surrogate that denotes no character. -/
  | unpaired
  /-- The text ends inside a quoted text. -/
  | cutText
  /-- The text ends inside a quoted text, after a surrogate that denotes no character. -/
  | cutUnpaired
  /-- The text ends inside `null`. -/
  | cutNull
  /-- The text ends inside `true` or `false`. -/
  | cutBool
  /-- The text ends inside a number, where a digit has to follow. -/
  | cutNumber
  /-- No token starts like this. -/
  | bad
  deriving DecidableEq

inductive Token where
  | openObject
  | closeObject
  | openArray
  | closeArray
  | comma
  | colon
  | null
  | bool (b : Bool)
  | number (x : Numeral)
  | text (s : String)
  | defect (d : Defect)
  deriving DecidableEq

namespace Token

/-- The written form of a token. A defect has none. -/
def chars : Token → List Char
  | .openObject => ['{']
  | .closeObject => ['}']
  | .openArray => ['[']
  | .closeArray => [']']
  | .comma => [',']
  | .colon => [':']
  | .null => ['n', 'u', 'l', 'l']
  | .bool true => ['t', 'r', 'u', 'e']
  | .bool false => ['f', 'a', 'l', 's', 'e']
  | .number x => x.chars
  | .text s => '"' :: Quoted.encode s.toList ++ ['"']
  | .defect _ => []

end Token

/-- The written form of a token list, without blanks. -/
def written (ts : List Token) : List Char := ts.flatMap Token.chars

/-- The characters that may stand between tokens. -/
def isBlank (c : Char) : Bool := c = ' ' || c = '\n' || c = '\t' || c = '\x0d'

/-- What is left of a text behind an expected word. -/
inductive Word where
  | closed (rest : List Char)
  | cut
  | bad

/-- Reads the expected characters of a word. -/
def readWord : (expected text : List Char) → Word
  | [], text => .closed text
  | _ :: _, [] => .cut
  | e :: es, c :: cs => if e = c then readWord es cs else .bad

/-- The token that starts a text without leading blanks, and the text behind it. A defect
behind which nothing can be read has no text behind it. -/
def firstToken : List Char → Token × List Char
  | '{' :: rest => (.openObject, rest)
  | '}' :: rest => (.closeObject, rest)
  | '[' :: rest => (.openArray, rest)
  | ']' :: rest => (.closeArray, rest)
  | ',' :: rest => (.comma, rest)
  | ':' :: rest => (.colon, rest)
  | '"' :: rest =>
    match Quoted.scan rest with
    | .closed s rest => (.text (String.ofList s), rest)
    | .unpaired rest => (.defect .unpaired, rest)
    | .cut => (.defect .cutText, [])
    | .cutUnpaired => (.defect .cutUnpaired, [])
    | .bad => (.defect .bad, [])
  | 'n' :: rest => word .null .cutNull (readWord ['u', 'l', 'l'] rest)
  | 't' :: rest => word (.bool true) .cutBool (readWord ['r', 'u', 'e'] rest)
  | 'f' :: rest => word (.bool false) .cutBool (readWord ['a', 'l', 's', 'e'] rest)
  | c :: rest =>
    if c = '-' || c.isDigit then
      match Number.scan (c :: rest) with
      | .closed x rest => (.number x, rest)
      | .cut => (.defect .cutNumber, [])
      | .bad => (.defect .bad, [])
    else (.defect .bad, [])
  | [] => (.defect .bad, [])
where
  /-- The token of a word that has been read, with the defect of its absence. -/
  word (t : Token) (cut : Defect) : Word → Token × List Char
    | .closed rest => (t, rest)
    | .cut => (.defect cut, [])
    | .bad => (.defect .bad, [])

theorem readWord_le {expected text rest : List Char} (h : readWord expected text = .closed rest) :
    rest.length ≤ text.length := by
  fun_induction readWord expected text with
  | case1 => cases h; exact Nat.le_refl _
  | case2 => cases h
  | case3 _ _ _ ih => have := ih h; simp only [List.length_cons]; omega
  | case4 => cases h

theorem firstToken_lt (c : Char) (cs : List Char) :
    (firstToken (c :: cs)).2.length < (c :: cs).length := by
  have hword (t : Token) (d : Defect) (e : List Char) :
      (firstToken.word t d (readWord e cs)).2.length < (c :: cs).length := by
    cases h : readWord e cs with
    | closed rest =>
      have := readWord_le h
      simp only [firstToken.word, List.length_cons]; omega
    | cut => simp [firstToken.word]
    | bad => simp [firstToken.word]
  unfold firstToken
  split
  case h_7 r hc =>
    cases hc
    split
    · next hs => exact Nat.lt_succ_of_lt (Quoted.scan_lt (by rw [hs]; rfl))
    · next hs => exact Nat.lt_succ_of_lt (Quoted.scan_lt (by rw [hs]; rfl))
    all_goals simp
  case h_8 hc => cases hc; exact hword _ _ _
  case h_9 hc => cases hc; exact hword _ _ _
  case h_10 hc => cases hc; exact hword _ _ _
  case h_11 hc =>
    cases hc
    split
    · split
      · next hs => exact Number.scan_lt hs
      all_goals simp
    · simp
  case h_12 hc => cases hc
  all_goals next hc => cases hc; simp

/-- Cuts a text into tokens. -/
def lex : List Char → List Token
  | [] => []
  | c :: cs =>
    if isBlank c then lex cs
    else (firstToken (c :: cs)).1 :: lex (firstToken (c :: cs)).2
termination_by cs => cs.length
decreasing_by
  · simp
  · exact firstToken_lt c cs

end RoomWatch.Wire
