/-!
# Quoted text

A quoted text stands between double quotes. The written form escapes the quote, the
backslash and the characters below U+0020, and nothing else (`escape`, `encode`). The
reader (`scan`) also accepts every other spelling of a character: any short escape, and
`\u` with four hexadecimal digits of either case, in surrogate pairs above U+FFFF.

A surrogate without its partner denotes no character. The reader goes on past it to the
closing quote, so that text which is only passed over can still be delimited.

* `next_escape`: reading inverts writing, character by character.
* `next_lt`: every piece read is shorter than the text it is read from.
-/

namespace RoomWatch.Text.Quoted

/-- The lowercase hexadecimal digit of a number below sixteen. -/
def hexDigit (n : Nat) : Char := Nat.digitChar (n % 16)

/-- The value of a hexadecimal digit of either case. -/
def hexValue? (c : Char) : Option Nat :=
  if '0' ≤ c ∧ c ≤ '9' then some (c.toNat - 48)
  else if 'a' ≤ c ∧ c ≤ 'f' then some (c.toNat - 87)
  else if 'A' ≤ c ∧ c ≤ 'F' then some (c.toNat - 55)
  else none

/-- The written form of one character inside quotes. -/
def escape (c : Char) : List Char :=
  if c = '"' then ['\\', '"']
  else if c = '\\' then ['\\', '\\']
  else if c = '\x08' then ['\\', 'b']
  else if c = '\x0c' then ['\\', 'f']
  else if c = '\n' then ['\\', 'n']
  else if c = '\x0d' then ['\\', 'r']
  else if c = '\t' then ['\\', 't']
  else if c.toNat < 32 then
    ['\\', 'u', '0', '0', hexDigit (c.toNat / 16), hexDigit c.toNat]
  else [c]

/-- The written form of a text, without its quotes. -/
def encode (s : List Char) : List Char := s.flatMap escape

/-- The character that a short escape stands for. -/
def shortEscape? : Char → Option Char
  | '"' => some '"'
  | '\\' => some '\\'
  | '/' => some '/'
  | 'b' => some '\x08'
  | 'f' => some '\x0c'
  | 'n' => some '\n'
  | 'r' => some '\x0d'
  | 't' => some '\t'
  | _ => none

/-- A 16-bit unit read from four hexadecimal digits. -/
inductive HexUnit where
  | unit (n : Nat) (rest : List Char)
  /-- Fewer than four bytes of text are left. -/
  | cut
  | bad

/-- How many bytes a text takes. -/
def byteCount : List Char → Nat
  | [] => 0
  | c :: cs => c.utf8Size + byteCount cs

def hexUnit : List Char → HexUnit
  | a :: b :: c :: d :: rest =>
    match hexValue? a, hexValue? b, hexValue? c, hexValue? d with
    | some a, some b, some c, some d => .unit (((a * 16 + b) * 16 + c) * 16 + d) rest
    | _, _, _, _ => .bad
  | cs => if byteCount cs < 4 then .cut else .bad

/-- What stands next inside quotes. -/
inductive Piece where
  | char (c : Char) (rest : List Char)
  /-- A surrogate escape without its partner. -/
  | unpaired (rest : List Char)
  | close (rest : List Char)
  /-- The text ends here. -/
  | cut
  | bad

/-- Whether a 16-bit unit is the first half of a surrogate pair. -/
def isLeading (n : Nat) : Bool := 0xD800 ≤ n && n < 0xDC00

/-- Whether a 16-bit unit is the second half of a surrogate pair. -/
def isTrailing (n : Nat) : Bool := 0xDC00 ≤ n && n < 0xE000

/-- The code point of a surrogate pair. -/
def pairValue (lead trail : Nat) : Nat := 0x10000 + (lead - 0xD800) * 0x400 + (trail - 0xDC00)

/-- The partner of a leading surrogate, which has to follow it at once. -/
def afterLeading (lead : Nat) : List Char → Piece
  | [] => .cut
  | ['\\'] => .cut
  | '\\' :: 'u' :: rest =>
    match hexUnit rest with
    | .cut => .cut
    | .bad => .bad
    | .unit trail after =>
      if isTrailing trail then .char (Char.ofNat (pairValue lead trail)) after
      -- The second escape stands for itself, so it is read again.
      else .unpaired ('\\' :: 'u' :: rest)
  | rest => .unpaired rest

def afterBackslash : List Char → Piece
  | [] => .cut
  | 'u' :: rest =>
    match hexUnit rest with
    | .cut => .cut
    | .bad => .bad
    | .unit n after =>
      if isLeading n then afterLeading n after
      else if isTrailing n then .unpaired after
      else .char (Char.ofNat n) after
  | c :: rest =>
    match shortEscape? c with
    | some d => .char d rest
    | none => .bad

/-- The next piece inside quotes. Characters below U+0020 may not stand there raw. -/
def next : List Char → Piece
  | [] => .cut
  | '"' :: rest => .close rest
  | '\\' :: rest => afterBackslash rest
  | c :: rest => if c.toNat < 32 then .bad else .char c rest

/-- The text that a piece leaves to be read. -/
def Piece.rest? : Piece → Option (List Char)
  | .char _ rest => some rest
  | .unpaired rest => some rest
  | .close rest => some rest
  | .cut => none
  | .bad => none

theorem hexUnit_lt {cs rest : List Char} {n : Nat} (h : hexUnit cs = .unit n rest) :
    rest.length < cs.length := by
  unfold hexUnit at h
  split at h
  · split at h
    · cases h; simp only [List.length_cons]; omega
    · cases h
  · split at h <;> cases h

theorem afterLeading_le {lead : Nat} {cs rest : List Char}
    (h : (afterLeading lead cs).rest? = some rest) : rest.length ≤ cs.length := by
  unfold afterLeading at h
  split at h
  · cases h
  · cases h
  · split at h
    · cases h
    · cases h
    · next hu =>
      have := hexUnit_lt hu
      split at h <;> (cases h; simp only [List.length_cons] at *; omega)
  · cases h; exact Nat.le_refl _

theorem afterBackslash_le {cs rest : List Char}
    (h : (afterBackslash cs).rest? = some rest) : rest.length ≤ cs.length := by
  unfold afterBackslash at h
  split at h
  · cases h
  · split at h
    · cases h
    · cases h
    · next hu =>
      have hlt := hexUnit_lt hu
      split at h
      · have := afterLeading_le h
        simp only [List.length_cons]; omega
      · split at h <;> (cases h; simp only [List.length_cons]; omega)
  · split at h
    · cases h; simp
    · cases h

theorem next_lt {cs rest : List Char} (h : (next cs).rest? = some rest) :
    rest.length < cs.length := by
  unfold next at h
  split at h
  · cases h
  · cases h; simp
  · have := afterBackslash_le h
    simp only [List.length_cons]; omega
  · split at h
    · cases h
    · cases h; simp

/-- A quoted text as far as it can be read, from after its opening quote. -/
inductive Literal where
  | closed (text : List Char) (rest : List Char)
  /-- Delimited, but with a surrogate that denotes no character. -/
  | unpaired (rest : List Char)
  | cut
  /-- Not closed, with a surrogate that denotes no character. -/
  | cutUnpaired
  | bad

/-- Puts a character in front. -/
def Literal.push (c : Char) : Literal → Literal
  | .closed text rest => .closed (c :: text) rest
  | l => l

/-- Puts an unpaired surrogate in front. -/
def Literal.pushUnpaired : Literal → Literal
  | .closed _ rest => .unpaired rest
  | .cut => .cutUnpaired
  | l => l

/-- Reads a quoted text up to its closing quote. -/
def scan (cs : List Char) : Literal :=
  match _ : next cs with
  | .char c rest => (scan rest).push c
  | .unpaired rest => (scan rest).pushUnpaired
  | .close rest => .closed [] rest
  | .cut => .cut
  | .bad => .bad
termination_by cs.length
decreasing_by all_goals (apply next_lt; simp_all [Piece.rest?])

/-- The text that a quoted text leaves to be read. -/
def Literal.rest? : Literal → Option (List Char)
  | .closed _ rest => some rest
  | .unpaired rest => some rest
  | _ => none

theorem Literal.rest?_push (c : Char) (l : Literal) : (l.push c).rest? = l.rest? := by
  cases l <;> rfl

theorem Literal.rest?_pushUnpaired (l : Literal) : l.pushUnpaired.rest? = l.rest? := by
  cases l <;> rfl

theorem scan_lt {cs rest : List Char} (h : (scan cs).rest? = some rest) :
    rest.length < cs.length := by
  fun_induction scan cs with
  | case1 cs c r hn ih =>
    have : r.length < cs.length := next_lt (by rw [hn]; rfl)
    rw [Literal.rest?_push] at h
    have := ih h
    omega
  | case2 cs r hn ih =>
    have : r.length < cs.length := next_lt (by rw [hn]; rfl)
    rw [Literal.rest?_pushUnpaired] at h
    have := ih h
    omega
  | case3 cs r hn =>
    cases h
    exact next_lt (by rw [hn]; rfl)
  | case4 => cases h
  | case5 => cases h

theorem hexValue?_hexDigit (n : Nat) : hexValue? (hexDigit n) = some (n % 16) := by
  have key : ∀ m, m < 16 → hexValue? (Nat.digitChar m) = some m := by decide
  exact key _ (Nat.mod_lt _ (by decide))

theorem next_escape (c : Char) (rest : List Char) :
    next (escape c ++ rest) = .char c rest := by
  unfold escape
  split
  · next h => subst h; rfl
  split
  · next h => subst h; rfl
  split
  · next h => subst h; rfl
  split
  · next h => subst h; rfl
  split
  · next h => subst h; rfl
  split
  · next h => subst h; rfl
  split
  · next h => subst h; rfl
  split
  · next h =>
    have h0 : hexValue? '0' = some 0 := by decide
    have hv : (c.toNat / 16 % 16) * 16 + c.toNat % 16 = c.toNat := by omega
    simp [next, afterBackslash, hexUnit, hexValue?_hexDigit, h0, hv, isLeading, isTrailing,
      show ¬ 0xD800 ≤ c.toNat by omega, show ¬ 0xDC00 ≤ c.toNat by omega]
  · next h1 h2 _ _ _ _ _ h8 =>
    simp only [List.cons_append, List.nil_append]
    unfold next
    split
    · next h => cases h
    · next h => cases h; exact absurd rfl h1
    · next h => cases h; exact absurd rfl h2
    · next h =>
      cases h
      rw [if_neg h8]

end RoomWatch.Text.Quoted
