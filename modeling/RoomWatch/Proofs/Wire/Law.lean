import RoomWatch.Proofs.Wire.Lexing
import RoomWatch.Wire.Choice

/-!
# Codecs that read back what they write

* `Codec.Lawful`: a codec writes readable tokens, and reads back the value it has written and
  nothing of what follows. The codecs of texts, truth values, integers and choices are lawful.
* `Codec.decode_encode`: **a lawful codec decodes what it has encoded.**
-/

namespace RoomWatch.Wire

open Number

variable {α : Type}

/-- **A codec reads back what it writes**, whatever follows. -/
structure Codec.Lawful (c : Codec α) : Prop where
  readable : ∀ a, Readable (c.write a)
  read_write : ∀ a rest, c.read (c.write a ++ rest) = .ok (a, rest)

/-- What a codec writes is never a `null`. -/
def Codec.Present (c : Codec α) : Prop := ∀ a, .null ∉ (c.write a).head?

namespace Codec

variable {c : Codec α}

/-- **Decoding undoes encoding.** -/
theorem decode_encode (h : c.Lawful) (a : α) : c.decode (c.encode a) = .ok a := by
  have hlex : lex (c.encode a).toList = c.write a := by
    have hwritten := lex_written (h.readable a) (.inr delimited_nil)
    rw [List.append_nil] at hwritten
    rw [encode, String.toList_ofList, hwritten, lex, List.append_nil]
  have hread := h.read_write a []
  rw [List.append_nil] at hread
  unfold decode
  rw [hlex, hread]

theorem Lawful.ne_nil (h : c.Lawful) (a : α) : c.write a ≠ [] := by
  intro hnil
  have hread := c.read_lt (h.read_write a [])
  rw [hnil] at hread
  exact absurd hread (Nat.lt_irrefl _)

/-! ## Single tokens -/

theorem lawful_text : text.Lawful :=
  ⟨fun _ => readable_singleton trivial, fun _ _ => rfl⟩

theorem lawful_boolean : boolean.Lawful :=
  ⟨fun _ => readable_singleton trivial, fun _ _ => rfl⟩

theorem readInteger_ofInt {low high n : Int} (expected : Expected) (rest : List Token)
    (hlow : Int64.minValue.toInt ≤ low) (hhigh : high < UInt64.size) (hn : low ≤ n ∧ n ≤ high) :
    readInteger low high expected (.number (.ofInt n) :: rest) = .ok (n, rest) := by
  have hquantity : (Numeral.ofInt n).quantity? = some (.integer n) :=
    quantity?_ofInt (Int.le_trans hlow hn.1) (Int.lt_of_le_of_lt hn.2 hhigh)
  simp only [readInteger, hquantity, if_pos hn]

theorem lawful_int64 : int64.Lawful := by
  refine ⟨fun n => readable_singleton ⟨n.toInt, rfl⟩, fun n rest => ?_⟩
  have hread := readInteger_ofInt .int64 rest (Int.le_refl _) (by decide)
    ⟨n.minValue_le_toInt, n.toInt_le⟩
  simp only [int64, List.cons_append, List.nil_append, hread, Except.map, Int64.ofInt_toInt]

theorem lawful_uint32 : uint32.Lawful := by
  refine ⟨fun n => readable_singleton ⟨n.toNat, rfl⟩, fun n rest => ?_⟩
  have hlt : (n.toNat : Int) < UInt32.size := Int.ofNat_lt.2 n.toNat_lt_size
  have hread : readInteger 0 (UInt32.size - 1) .uint32 (.number (.ofInt n.toNat) :: rest) =
      .ok ((n.toNat : Int), rest) :=
    readInteger_ofInt .uint32 rest (by decide) (by decide)
      ⟨Int.natCast_nonneg _, Int.le_sub_one_of_lt hlt⟩
  unfold uint32
  dsimp only [List.cons_append, List.nil_append]
  rw [hread]
  simp only [Except.map, Int.toNat_natCast, UInt32.ofNat_toNat]

theorem lawful_choice [Labelled α] : (choice α).Lawful := by
  refine ⟨fun _ => readable_singleton trivial, fun a rest => ?_⟩
  have hnamed : Labelled.named α (Labelled.label a) = .ok a := by
    unfold Labelled.named
    rw [Labelled.ofLabel?_label]
  exact congrArg (Except.map fun a => (a, rest)) hnamed

theorem present_choice [Labelled α] : (choice α).Present := by
  intro a h
  cases h

/-! ## Values that may be absent -/

/-- A value that is there is read as if it had to be there. -/
theorem read_optional (h : c.Lawful) (hp : c.Present) (a : α) (rest : List Token) :
    c.optional.read (c.write a ++ rest) = .ok (some a, rest) := by
  have hread := h.read_write a rest
  have hlegible := (h.readable a).legible
  cases hw : c.write a with
  | nil => exact absurd hw (h.ne_nil a)
  | cons t ts =>
    rw [hw] at hread hlegible
    have hnull : t ≠ .null := fun ht => hp a (by rw [hw, ht]; rfl)
    have hdefect := hlegible t List.mem_cons_self
    simp only [optional, List.cons_append] at hread ⊢
    split
    · next heq => cases heq; exact absurd rfl hnull
    · next heq => cases heq; exact hdefect.elim
    · rw [hread]
      rfl

end Codec

end RoomWatch.Wire
