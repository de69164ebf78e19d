/-!
# Number literals

A numeral is a number literal taken apart: an optional minus, decimal digits without
leading zeros, an optional fraction and an optional exponent (`scan`).

A numeral without fraction and exponent, other than `-0`, denotes an integer as long as it
fits 64 bits, signed or unsigned (`Numeral.quantity?`). Everything else denotes a
floating-point number, read with a 64-bit significand: digits are taken into the
significand while they fit, and the rest only count for the exponent (`toFloat?`).
-/

namespace RoomWatch.Number

/-- A number literal. An empty fraction is an absent one. -/
structure Numeral where
  negative : Bool
  whole : List Char
  fraction : List Char
  exponent : Option Int
  deriving DecidableEq

/-- What a numeral denotes. -/
inductive Quantity where
  | integer (n : Int)
  | floating (x : Float)

/-- The decimal digits of a number. -/
def decimal (n : Nat) : String := String.ofList (Nat.toDigits 10 n)

/-- The decimal digits of an integer behind its sign. -/
def intChars (n : Int) : List Char :=
  (if n < 0 then ['-'] else []) ++ Nat.toDigits 10 n.natAbs

namespace Numeral

/-- The numeral of an integer. -/
def ofInt (n : Int) : Numeral := ⟨n < 0, Nat.toDigits 10 n.natAbs, [], none⟩

/-- The number that the digits before the point denote. -/
def magnitude (x : Numeral) : Nat := Nat.ofDigitChars 10 x.whole 0

/-- The integer that the sign and the digits before the point denote. -/
def wholeValue (x : Numeral) : Int := if x.negative then -x.magnitude else x.magnitude

/-- A numeral that can denote an integer: no fraction, no exponent, not minus zero. -/
def IsIntegral (x : Numeral) : Prop :=
  x.fraction = [] ∧ x.exponent = none ∧ ¬ (x.negative = true ∧ x.magnitude = 0)

instance (x : Numeral) : Decidable x.IsIntegral :=
  inferInstanceAs (Decidable (_ ∧ _ ∧ ¬ (_ ∧ _)))

/-- Takes digits into a significand while it fits 64 bits; returns the digits left. -/
def absorb (m : Nat) : List Char → Nat × List Char
  | [] => (m, [])
  | c :: cs =>
    let next := 10 * m + (c.toNat - 48)
    if next < UInt64.size then absorb next cs else (m, c :: cs)

/-- `10 ^ n` as a double. -/
def tenTo (n : Nat) : Float := Float.ofScientific 1 false n

/-- `f * 10 ^ e`; `none` when it is too large. -/
def scaleFloat (f : Float) (e : Int) : Option Float :=
  if 308 < e then if f == 0 then some f else none
  else if 0 ≤ e then
    let g := f * tenTo e.toNat
    if g.isInf then none else some g
  else if -308 ≤ e then some (f / tenTo (-e).toNat)
  -- `10 ^ 308` is the largest power of ten that is a double; beyond it, divide in steps.
  else if f == 0 then some f
  else scaleFloat (f / tenTo 308) (e + 308)
termination_by e.natAbs

/-- The floating-point reading of a numeral; `none` when it is too large. -/
def toFloat? (x : Numeral) : Option Float :=
  let (m, wholeLeft) := absorb 0 x.whole
  let (m, fractionLeft) := absorb m x.fraction
  let places : Int := wholeLeft.length - (x.fraction.length - fractionLeft.length : Nat)
  (scaleFloat m.toUInt64.toFloat (places + x.exponent.getD 0)).map fun f =>
    if x.negative then -f else f

/-- What a numeral denotes; `none` when it is too large for a double. -/
def quantity? (x : Numeral) : Option Quantity :=
  if x.IsIntegral ∧ Int64.minValue.toInt ≤ x.wholeValue ∧ x.wholeValue < UInt64.size then
    some (.integer x.wholeValue)
  else x.toFloat?.map .floating

/-- The written form of a numeral. -/
def chars (x : Numeral) : List Char :=
  (if x.negative then ['-'] else []) ++ x.whole ++
    (if x.fraction = [] then [] else '.' :: x.fraction) ++
    match x.exponent with
    | none => []
    | some e => 'e' :: intChars e

end Numeral

/-- A number literal as far as it can be read. -/
inductive Scan where
  | closed (x : Numeral) (rest : List Char)
  /-- The text ends where a digit has to stand. -/
  | cut
  | bad

/-- The outcome where a digit has to stand and none does. -/
def Scan.noDigit : List Char → Scan
  | [] => .cut
  | _ :: _ => .bad

/-- Whether a minus stands in front, and the text behind it. -/
def splitMinus : List Char → Bool × List Char
  | '-' :: rest => (true, rest)
  | cs => (false, cs)

/-- As `splitMinus`, where a plus may stand too. -/
def splitSign : List Char → Bool × List Char
  | '+' :: rest => (false, rest)
  | cs => splitMinus cs

/-- The exponent behind its mark. -/
def scanExponentDigits (x : Numeral) (cs : List Char) : Scan :=
  let (negative, digits) := splitSign cs
  let ds := digits.takeWhile Char.isDigit
  if ds = [] then .noDigit digits
  else
    let e : Int := Nat.ofDigitChars 10 ds 0
    .closed { x with exponent := some (if negative then -e else e) }
      (digits.dropWhile Char.isDigit)

/-- The exponent, if there is one, behind the other parts. -/
def scanExponent (x : Numeral) : List Char → Scan
  | 'e' :: rest => scanExponentDigits x rest
  | 'E' :: rest => scanExponentDigits x rest
  | cs => .closed x cs

/-- The fraction, if there is one, and the exponent. -/
def scanFraction (x : Numeral) : List Char → Scan
  | '.' :: digits =>
    let ds := digits.takeWhile Char.isDigit
    if ds = [] then .noDigit digits
    else scanExponent { x with fraction := ds } (digits.dropWhile Char.isDigit)
  | cs => scanExponent x cs

/-- Reads a number literal from its sign or first digit on. -/
def scan (cs : List Char) : Scan :=
  let (negative, digits) := splitMinus cs
  match digits.takeWhile Char.isDigit with
  | [] => .noDigit digits
  | '0' :: _ :: _ => .bad
  | ds => scanFraction ⟨negative, ds, [], none⟩ (digits.dropWhile Char.isDigit)

theorem length_dropWhile_le (p : Char → Bool) (cs : List Char) :
    (cs.dropWhile p).length ≤ cs.length :=
  (List.dropWhile_sublist p).length_le

theorem length_dropWhile_lt {p : Char → Bool} {cs : List Char} (h : cs.takeWhile p ≠ []) :
    (cs.dropWhile p).length < cs.length := by
  have h1 : (cs.takeWhile p ++ cs.dropWhile p).length = cs.length := by
    rw [List.takeWhile_append_dropWhile]
  have h2 := List.length_pos_iff.2 h
  rw [List.length_append] at h1
  omega

theorem noDigit_ne_closed {cs rest : List Char} {x : Numeral} :
    Scan.noDigit cs ≠ .closed x rest := by
  cases cs <;> nofun

theorem splitMinus_le (cs : List Char) : (splitMinus cs).2.length ≤ cs.length := by
  unfold splitMinus
  split <;> simp

theorem splitSign_le (cs : List Char) : (splitSign cs).2.length ≤ cs.length := by
  unfold splitSign
  split
  · simp
  · exact splitMinus_le cs

theorem scanExponentDigits_le {x y : Numeral} {cs rest : List Char}
    (h : scanExponentDigits x cs = .closed y rest) : rest.length ≤ cs.length := by
  unfold scanExponentDigits at h
  dsimp only at h
  split at h
  · exact absurd h noDigit_ne_closed
  · cases h
    exact Nat.le_trans (length_dropWhile_le _ _) (splitSign_le cs)

theorem scanExponent_le {x y : Numeral} {cs rest : List Char}
    (h : scanExponent x cs = .closed y rest) : rest.length ≤ cs.length := by
  unfold scanExponent at h
  split at h
  · exact Nat.le_succ_of_le (scanExponentDigits_le h)
  · exact Nat.le_succ_of_le (scanExponentDigits_le h)
  · cases h; exact Nat.le_refl _

theorem scanFraction_le {x y : Numeral} {cs rest : List Char}
    (h : scanFraction x cs = .closed y rest) : rest.length ≤ cs.length := by
  unfold scanFraction at h
  split at h
  · next digits =>
    dsimp only at h
    split at h
    · exact absurd h noDigit_ne_closed
    · exact Nat.le_succ_of_le (Nat.le_trans (scanExponent_le h) (length_dropWhile_le _ _))
  · exact scanExponent_le h

/-- A number literal is not empty. -/
theorem scan_lt {x : Numeral} {cs rest : List Char} (h : scan cs = .closed x rest) :
    rest.length < cs.length := by
  unfold scan at h
  dsimp only at h
  split at h
  · exact absurd h noDigit_ne_closed
  · cases h
  · next hne _ =>
    exact Nat.lt_of_le_of_lt (scanFraction_le h)
      (Nat.lt_of_lt_of_le (length_dropWhile_lt hne) (splitMinus_le cs))

end RoomWatch.Number
