/-!
# Shortest decimal text

The text of a double-precision number is the shortest decimal that reads back as that
number; of two decimals of that length the nearer one is taken, and of two equally near
ones the even one (`Dyadic.shortest`). Leading exponents from -5 to 15 are written with a
point and at least one digit on either side of it, all others as one digit, the remaining
ones after a point, and an exponent with its sign (`layout`).
-/

namespace RoomWatch.Number

/-- A finite non-negative double, `m * 2 ^ q`. -/
structure Dyadic where
  m : Nat
  q : Int
  /-- The neighbour below is only half as far away as the one above. -/
  narrow : Bool

namespace Dyadic

/-- The magnitude of the finite double with the given bits. -/
def ofBits (bits : UInt64) : Dyadic :=
  let hidden := Nat.pow 2 52
  let e : Nat := bits.toNat / hidden % 2048
  let f : Nat := bits.toNat % hidden
  if e = 0 then ⟨f, -1074, false⟩ else ⟨hidden + f, (e : Int) - 1075, f = 0 && 1 < e⟩

/-- Compares `a * 10 ^ i` with `b * 2 ^ j`. -/
def compareScaled (a : Nat) (i : Int) (b : Nat) (j : Int) : Ordering :=
  compare (a * Nat.pow 10 i.toNat * Nat.pow 2 (-j).toNat)
    (b * Nat.pow 2 j.toNat * Nat.pow 10 (-i).toNat)

/-- Whether `d * 10 ^ e` is one of the reals that round to this number. The interval ends
half-way to either neighbour; its ends belong to it when `m` is even. -/
def ReadsBack (x : Dyadic) (d : Nat) (e : Int) : Bool :=
  -- In units of a quarter of the gap above, `m` is `4 * m` and half a gap is 2; the gap
  -- below a power of two is half as wide.
  let low := compareScaled d e (if x.narrow then 4 * x.m - 1 else 4 * x.m - 2) (x.q - 2)
  let high := compareScaled d e (4 * x.m + 2) (x.q - 2)
  let closed := x.m % 2 == 0
  (low == .gt || (closed && low == .eq)) && (high == .lt || (closed && high == .eq))

/-- The number divided by `10 ^ e`, rounded down. -/
def floorAt (x : Dyadic) (e : Int) : Nat :=
  x.m * Nat.pow 2 x.q.toNat * Nat.pow 10 (-e).toNat /
    (Nat.pow 2 (-x.q).toNat * Nat.pow 10 e.toNat)

/-- The least `k` from `low` on, within `fuel` steps, with the number below `10 ^ k`. -/
def scaleFrom (x : Dyadic) (low : Int) : Nat → Int
  | 0 => low
  | fuel + 1 => if x.floorAt low = 0 then low else scaleFrom x (low + 1) fuel

/-- The number of digits before the point; zero or negative below one tenth. -/
def scale (x : Dyadic) : Int := x.scaleFrom (-330) 650

/-- The better of the two neighbours on the grid `10 ^ e` that read back. -/
def onGrid? (x : Dyadic) (e : Int) : Option Nat :=
  let below := x.floorAt e
  match x.ReadsBack below e, x.ReadsBack (below + 1) e with
  | false, false => none
  | true, false => some below
  | false, true => some (below + 1)
  | true, true =>
    match compareScaled (2 * below + 1) e (2 * x.m) x.q with
    | .gt => some below
    | .lt => some (below + 1)
    | .eq => some (if below % 2 = 0 then below else below + 1)

/-- The digits, and the place of the last one, of the shortest decimal that reads back. -/
def shortest (x : Dyadic) : Nat × Int :=
  let k := x.scale
  let grids := (List.range 17).map fun (n : Nat) => k - (n + 1)
  match grids.findSome? fun e => (x.onGrid? e).map fun d => (d, e) with
  | some hit => hit
  -- Seventeen digits read back, so this is only needed to have an answer: the exact value.
  | none => (x.m * Nat.pow 2 x.q.toNat * Nat.pow 5 (-x.q).toNat, -(-x.q).toNat)

end Dyadic

/-- The digits without the zeros at their end, and how many zeros there were. -/
def stripZeros (digits : List Char) : List Char × Nat :=
  let kept := (digits.reverse.dropWhile (· = '0')).reverse
  (kept, digits.length - kept.length)

/-- An exponent behind its sign. -/
def exponentText (e : Int) : List Char := (if e < 0 then '-' else '+') :: Nat.toDigits 10 e.natAbs

/-- Writes the decimal with these digits whose first digit has place `lead`. -/
def layout (digits : List Char) (lead : Int) : List Char :=
  if lead < -5 ∨ 15 < lead then
    match digits with
    | [] => []
    | [d] => d :: 'e' :: exponentText lead
    | d :: ds => d :: '.' :: ds ++ 'e' :: exponentText lead
  else if lead < 0 then
    '0' :: '.' :: List.replicate (-lead - 1).toNat '0' ++ digits
  else
    let whole := lead.toNat + 1
    if digits.length ≤ whole then
      digits ++ List.replicate (whole - digits.length) '0' ++ ['.', '0']
    else
      digits.take whole ++ '.' :: digits.drop whole

/-- The text of a finite double. -/
def floatText (x : Float) : List Char :=
  let bits := x.toBits
  let sign := if bits.toNat < Nat.pow 2 63 then [] else ['-']
  let magnitude := Dyadic.ofBits bits
  if magnitude.m = 0 then sign ++ ['0', '.', '0']
  else
    let (d, e) := magnitude.shortest
    let all := Nat.toDigits 10 d
    sign ++ layout (stripZeros all).1 (e + all.length - 1)

end RoomWatch.Number
