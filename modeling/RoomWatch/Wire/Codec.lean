import RoomWatch.Wire.Token
import RoomWatch.Wire.Error

/-!
# Codecs

A codec reads a value of one type from the front of a token list and writes it as tokens. A
reader that succeeds consumes at least one token (`Codec.read_lt`), which is what lets
records be read member by member.

Readers report the first thing that is wrong in text order. `refusal` is the error of a
reader that finds another kind of value than it expects, `broken` that of a reader that
needs a certain token and finds another, and `keyRefusal` that of a reader that needs a key.
-/

namespace RoomWatch.Wire

open Number

structure Codec (α : Type) where
  read : List Token → Decoded (α × List Token)
  write : α → List Token
  read_lt : ∀ {ts a rest}, read ts = .ok (a, rest) → rest.length < ts.length

/-- The error where a token of the structure is missing. -/
def broken : List Token → DecodeError
  | [] => .endOfText
  | _ :: _ => .malformed

/-- The error where a key is expected. -/
def keyRefusal : List Token → DecodeError
  | [] => .endOfText
  | .defect .cutText :: _ => .endOfText
  | _ :: _ => .malformed

/-- The error of a number where something else is expected. -/
def numberRefusal (x : Numeral) (expected : Expected) : DecodeError :=
  match x.quantity? with
  | none => .malformed
  | some (.integer n) => .fault (.invalidType (.integer n) expected)
  | some (.floating f) => .fault (.invalidType (.floating f) expected)

/-- The error of a defect where a value is expected. -/
def defectRefusal : Defect → DecodeError
  | .cutText => .endOfText
  | .cutNull => .endOfText
  | .cutBool => .endOfText
  | .cutNumber => .endOfText
  | .unpaired => .malformed
  | .cutUnpaired => .malformed
  | .bad => .malformed

/-- The error where a value of another kind is expected. -/
def refusal (expected : Expected) : List Token → DecodeError
  | [] => .endOfText
  | .null :: _ => .fault (.invalidType .null expected)
  | .bool b :: _ => .fault (.invalidType (.boolean b) expected)
  | .number x :: _ => numberRefusal x expected
  | .text s :: _ => .fault (.invalidType (.text s) expected)
  | .openArray :: _ => .fault (.invalidType .sequence expected)
  | .openObject :: _ => .fault (.invalidType .map expected)
  | .defect d :: _ => defectRefusal d
  | .closeArray :: _ => .malformed
  | .closeObject :: _ => .malformed
  | .comma :: _ => .malformed
  | .colon :: _ => .malformed

namespace Codec

/-- Reads what a whole text says. -/
def decode {α : Type} (c : Codec α) (text : String) : Decoded α :=
  match c.read (lex text.toList) with
  | .error e => .error e
  | .ok (a, []) => .ok a
  | .ok (_, _ :: _) => .error .malformed

/-- The compact text of a value. -/
def encode {α : Type} (c : Codec α) (a : α) : String := String.ofList (written (c.write a))

def text : Codec String where
  read
    | .text s :: rest => .ok (s, rest)
    | ts => .error (refusal .text ts)
  write s := [.text s]
  read_lt h := by
    split at h
    · cases h; simp
    · cases h

def boolean : Codec Bool where
  read
    | .bool b :: rest => .ok (b, rest)
    | ts => .error (refusal .boolean ts)
  write b := [.bool b]
  read_lt h := by
    split at h
    · cases h; simp
    · cases h

/-- Reads a number literal of the integers between two bounds. -/
def readInteger (low high : Int) (expected : Expected) : List Token → Decoded (Int × List Token)
  | .number x :: rest =>
    match x.quantity? with
    | some (.integer n) =>
      if low ≤ n ∧ n ≤ high then .ok (n, rest) else .error (.fault (.invalidValue n expected))
    | _ => .error (numberRefusal x expected)
  | ts => .error (refusal expected ts)

theorem readInteger_lt {low high n : Int} {expected : Expected} {ts rest : List Token}
    (h : readInteger low high expected ts = .ok (n, rest)) : rest.length < ts.length := by
  unfold readInteger at h
  split at h
  · split at h
    · split at h
      · cases h; simp
      · cases h
    · cases h
  · cases h

def int64 : Codec Int64 where
  read ts := (readInteger Int64.minValue.toInt Int64.maxValue.toInt .int64 ts).map fun r =>
    (Int64.ofInt r.1, r.2)
  write n := [.number (.ofInt n.toInt)]
  read_lt h := by
    obtain ⟨r, hr, he⟩ := Decoded.exists_of_map h
    cases he
    exact readInteger_lt hr

def uint32 : Codec UInt32 where
  read ts := (readInteger 0 (UInt32.size - 1) .uint32 ts).map fun r =>
    (UInt32.ofNat r.1.toNat, r.2)
  write n := [.number (.ofInt n.toNat)]
  read_lt h := by
    obtain ⟨r, hr, he⟩ := Decoded.exists_of_map h
    cases he
    exact readInteger_lt hr

/-- `null` stands for an absent value. -/
def optional {α : Type} (c : Codec α) : Codec (Option α) where
  read
    | .null :: rest => .ok (none, rest)
    | .defect .cutNull :: _ => .error .endOfText
    | ts => (c.read ts).map fun r => (some r.1, r.2)
  write
    | none => [.null]
    | some a => c.write a
  read_lt h := by
    split at h
    · cases h; simp
    · cases h
    · obtain ⟨r, hr, he⟩ := Decoded.exists_of_map h
      cases he
      exact c.read_lt hr

end Codec

end RoomWatch.Wire
