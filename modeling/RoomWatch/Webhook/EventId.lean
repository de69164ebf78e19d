/-!
# Ids of webhook events

An event id is a fixed mark followed by a random UUID of version 4 in lowercase hexadecimal:
the thirteenth digit is the version, and the seventeenth is one of `8`, `9`, `a` and `b`.
-/

namespace RoomWatch.EventId

/-- What every event id starts with. -/
def mark : String := "EV_"

/-- The digits of a 128-bit number, the most significant one first. -/
def hexDigits (bits : Nat) : List Char :=
  (List.range 32).map fun i => Nat.digitChar ((bits >>> (4 * (31 - i))) % 16)

/-- The id made of 128 random bits, of which six are overwritten. -/
def ofBits (bits : Nat) : String :=
  let digits := hexDigits bits
  -- The two highest bits of the variant digit are `10`.
  let variant := Nat.digitChar (8 + (bits >>> 60) % 4)
  mark ++ String.ofList ((digits.set 12 '4').set 16 variant)

/-- Whether a character is a lowercase hexadecimal digit. -/
def isHex (c : Char) : Bool := c.isDigit || ('a' ≤ c && c ≤ 'f')

/-- Whether a text has the form of a generated id. -/
def wellFormed (id : String) : Bool :=
  let digits := id.toList.drop mark.length
  id.toList.take mark.length == mark.toList && digits.length == 32 && digits.all isHex &&
    digits[12]? == some '4' && (digits[16]?.any fun c => c ∈ ['8', '9', 'a', 'b'])

end RoomWatch.EventId
