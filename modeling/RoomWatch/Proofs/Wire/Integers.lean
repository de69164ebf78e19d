import RoomWatch.Proofs.Number.Overflow
import RoomWatch.Proofs.Wire.Reach

/-!
# Numbers in integer fields

A number literal of any length is judged by the number that it denotes (`Numeral.Judged`): an
integer of the range is accepted as that integer, another integer of 64 bits is named in the
refusal, and everything else is a floating-point number or too large for one.

* `Number.toDigits_ofDigitChars`, `Numeral.Spelled.of_isInteger`: an integer has one literal only.
* `Codec.value_int64`, `Codec.value_uint32`: what a codec makes of a literal is what it is judged.
* `Codec.bounded`: so it is alone, in the place of another value in an accepted text, and behind
  what is accepted, whatever follows it.
* `bounded_of_wire`: **both integer codecs accept exactly their range**, in all their fields.
* `limit_missed`: too large is not the same as being out of the range of the doubles.
-/

namespace RoomWatch

namespace Number

/-! ## Literals of integers -/

theorem digitChar_of_isDigit {d : Char} (h : d.isDigit = true) :
    d.toNat - 48 < 10 ∧ Nat.digitChar (d.toNat - 48) = d := by
  simp only [Char.isDigit, Bool.and_eq_true, decide_eq_true_eq, ge_iff_le,
    UInt32.le_iff_toNat_le] at h
  obtain ⟨hlow, hhigh⟩ := h
  have hlow : 48 ≤ d.toNat := hlow
  have hhigh : d.toNat ≤ 57 := hhigh
  have hlt : d.toNat - 48 < 10 := by omega
  refine ⟨hlt, Char.toNat_inj.1 ?_⟩
  rw [Nat.toNat_digitChar_of_lt_ten hlt]
  omega

/-- **Digits without leading zeros are those of the number that they denote.** -/
theorem toDigits_ofDigitChars {ds : List Char} (hds : Digits ds)
    (hzero : ∀ d es, ds ≠ '0' :: d :: es) : Nat.toDigits 10 (Nat.ofDigitChars 10 ds 0) = ds := by
  -- the last digit goes first, as in the digits of a number
  induction ds using List.reverseRecOn with
  | nil => exact absurd rfl hds.ne_nil
  | append_singleton front d ih =>
    obtain ⟨hlt, hchar⟩ := digitChar_of_isDigit (hds.isDigit d (by simp))
    have hvalue : Nat.ofDigitChars 10 (front ++ [d]) 0 =
        10 * Nat.ofDigitChars 10 front 0 + (d.toNat - 48) := by
      rw [Nat.ofDigitChars_append, Nat.ofDigitChars_cons, Nat.ofDigitChars_nil]
      rfl
    rw [hvalue]
    by_cases hfront : front = []
    · subst hfront
      have hsingle : 10 * Nat.ofDigitChars 10 [] 0 + (d.toNat - 48) = d.toNat - 48 :=
        Nat.zero_add _
      rw [hsingle, Nat.toDigits_of_lt_base hlt, hchar]
      rfl
    · have hmore := ih ⟨hfront, fun c hc => hds.isDigit c (List.mem_append_left _ hc)⟩
        fun c es heq => hzero c (es ++ [d]) (by rw [heq]; rfl)
      have hpos : 0 < Nat.ofDigitChars 10 front 0 := by
        refine Nat.pos_of_ne_zero fun hnone => ?_
        rw [hnone] at hmore
        exact hzero d [] (by rw [← hmore]; rfl)
      rw [Nat.toDigits_of_base_le (by decide) (by omega)]
      have hquotient : (10 * Nat.ofDigitChars 10 front 0 + (d.toNat - 48)) / 10 =
          Nat.ofDigitChars 10 front 0 := by omega
      have hremainder : (10 * Nat.ofDigitChars 10 front 0 + (d.toNat - 48)) % 10 =
          d.toNat - 48 := by omega
      rw [hquotient, hremainder, hmore, hchar]

/-- A literal of an integer: no fraction, no exponent, and not minus zero. -/
inductive Numeral.IsInteger : Numeral → Int → Prop where
  | plain (whole : List Char) : IsInteger ⟨false, whole, [], none⟩ (Nat.ofDigitChars 10 whole 0)
  | minus (whole : List Char) (ne : Nat.ofDigitChars 10 whole 0 ≠ 0) :
      IsInteger ⟨true, whole, [], none⟩ (-Nat.ofDigitChars 10 whole 0)

theorem Numeral.isInteger_iff {x : Numeral} {n : Int} :
    x.IsInteger n ↔ x.IsIntegral ∧ x.wholeValue = n := by
  constructor
  · rintro (whole | ⟨whole, hne⟩)
    · exact ⟨⟨rfl, rfl, nofun⟩, rfl⟩
    · exact ⟨⟨rfl, rfl, fun h => hne h.2⟩, rfl⟩
  · obtain ⟨negative, whole, fraction, exponent⟩ := x
    rintro ⟨⟨rfl, rfl, hzero⟩, rfl⟩
    cases negative with
    | false => exact .plain whole
    | true => exact .minus whole fun h => hzero ⟨rfl, h⟩

/-- **An integer has one literal only**. -/
theorem Numeral.Spelled.of_isInteger {x : Numeral} {cs : List Char} {n : Int} (h : x.Spelled cs)
    (hx : x.IsInteger n) : cs = (Numeral.ofInt n).chars := by
  cases h with
  | mk hwhole hleading hfraction hexponent =>
    have hdigits := toDigits_ofDigitChars hwhole hleading
    cases hx with
    | plain whole =>
      cases hfraction with
      | digits h => exact absurd rfl h.ne_nil
      | absent =>
        cases hexponent
        simp [ofInt, hdigits, chars]
    | minus whole hne =>
      cases hfraction with
      | digits h => exact absurd rfl h.ne_nil
      | absent =>
        cases hexponent
        have hpos := Nat.pos_of_ne_zero hne
        simp [ofInt, hdigits, chars, hpos]

theorem Numeral.Spelled.of_exponent (ds es : List Char) (hds : Digits ds)
    (hzero : ∀ d cs, ds ≠ '0' :: d :: cs) (hes : Digits es) :
    Numeral.Spelled ⟨false, ds, [], some (Nat.ofDigitChars 10 es 0)⟩ (ds ++ 'e' :: es) := by
  have hspelled := Numeral.Spelled.mk (x := ⟨false, ds, [], some (Nat.ofDigitChars 10 es 0)⟩) hds
    hzero .absent (.digits (.inl rfl) .absent hes rfl)
  simpa using hspelled

/-- **What an integer field of the range from `low` to `high` makes of a numeral.** -/
inductive Numeral.Judged (low high : Int) (expected : Wire.Expected) (x : Numeral) :
    Wire.Decoded Int → Prop where
  | accepted {n : Int} (integer : x.IsInteger n) (le : low ≤ n) (ge : n ≤ high) :
      Judged low high expected x (.ok n)
  /-- An integer of 64 bits, with or without a sign, that is not in the range. -/
  | outside {n : Int} (integer : x.IsInteger n) (range : ¬(low ≤ n ∧ n ≤ high))
      (le : -2 ^ 63 ≤ n) (lt : n < 2 ^ 64) :
      Judged low high expected x (.error (.fault (.invalidValue n expected)))
  | floating (f : Float) (bits : ∀ n, x.IsInteger n → n < -2 ^ 63 ∨ 2 ^ 64 ≤ n)
      (fits : ¬x.TooLarge) :
      Judged low high expected x (.error (.fault (.invalidType (.floating f) expected)))
  | malformed (bits : ∀ n, x.IsInteger n → n < -2 ^ 63 ∨ 2 ^ 64 ≤ n) (large : x.TooLarge) :
      Judged low high expected x (.error .malformed)

end Number

namespace Wire

open Number

variable {α β : Type}

theorem spells_singleton {t : Token} {cs : List Char} (h : t.Spelled cs) : Spells [t] cs := by
  have hspells : Spells [t] ([] ++ (cs ++ [])) :=
    .cons (List.forall_mem_nil _) h (.nil (List.forall_mem_nil _))
  rwa [List.append_nil, List.nil_append] at hspells

namespace Codec

/-- **A literal is read as it is judged**, whatever follows it. -/
theorem readInteger_judged (low high : Int) (expected : Expected) (x : Numeral)
    (rest : List Token) :
    ∃ r, x.Judged low high expected r ∧
      readInteger low high expected (.number x :: rest) = r.map fun n => (n, rest) := by
  have hquantity : x.quantity? =
      if x.IsIntegral ∧ -2 ^ 63 ≤ x.wholeValue ∧ x.wholeValue < 2 ^ 64 then
        some (.integer x.wholeValue)
      else x.toFloat?.map .floating := rfl
  -- an integer that fits 64 bits is never taken for a floating-point number
  by_cases hbits : x.IsIntegral ∧ -2 ^ 63 ≤ x.wholeValue ∧ x.wholeValue < 2 ^ 64
  · have hinteger : x.IsInteger x.wholeValue := Numeral.isInteger_iff.2 ⟨hbits.1, rfl⟩
    rw [if_pos hbits] at hquantity
    simp only [readInteger, hquantity]
    by_cases hrange : low ≤ x.wholeValue ∧ x.wholeValue ≤ high
    · rw [if_pos hrange]
      exact ⟨_, .accepted hinteger hrange.1 hrange.2, rfl⟩
    · rw [if_neg hrange]
      exact ⟨_, .outside hinteger hrange hbits.2.1 hbits.2.2, rfl⟩
  · have hnone (n : Int) (hn : x.IsInteger n) : n < -2 ^ 63 ∨ 2 ^ 64 ≤ n := by
      obtain ⟨hintegral, rfl⟩ := Numeral.isInteger_iff.1 hn
      rcases not_and_or.1 fun h => hbits ⟨hintegral, h⟩ with h | h
      · exact .inl (Int.not_le.1 h)
      · exact .inr (Int.not_lt.1 h)
    rw [if_neg hbits] at hquantity
    cases hfloat : x.toFloat? with
    | none =>
      refine ⟨_, .malformed hnone ((toFloat?_eq_none_iff x).1 hfloat), ?_⟩
      simp only [readInteger, numberRefusal, hquantity, hfloat, Option.map]
      rfl
    | some f =>
      have hfits : ¬x.TooLarge := fun h => by
        rw [(toFloat?_eq_none_iff x).2 h] at hfloat
        cases hfloat
      refine ⟨_, .floating f hnone hfits, ?_⟩
      simp only [readInteger, numberRefusal, hquantity, hfloat, Option.map]
      rfl

/-- The first integer above the range does not wrap around. -/
example : readInteger Int64.minValue.toInt Int64.maxValue.toInt .int64
    [.number ⟨false, "9223372036854775808".toList, [], none⟩] =
      .error (.fault (.invalidValue 9223372036854775808 .int64)) := by cbv

/-- **What a codec makes of a literal is what it is judged**, if numbers of the range keep their
value in the type of the field. -/
theorem value_judged {d : Codec β} {toInt : β → Int} (ofInt : Int → β) {low high : Int}
    {expected : Expected}
    (hread : ∀ ts, d.read ts = (readInteger low high expected ts).map fun r => (ofInt r.1, r.2))
    (hkeeps : ∀ n, low ≤ n → n ≤ high → toInt (ofInt n) = n) (x : Numeral) :
    x.Judged low high expected ((d.value (.number x)).map toInt) := by
  have htokens : (Json.number x).tokens = [.number x] := rfl
  obtain ⟨r, hjudged, hr⟩ := readInteger_judged low high expected x []
  have hvalue : (d.value (.number x)).map toInt = r := by
    rw [value, htokens, hread, hr]
    cases hjudged with
    | accepted _ hmin hmax => exact congrArg Except.ok (hkeeps _ hmin hmax)
    | outside _ _ _ _ | floating _ _ _ | malformed _ _ => rfl
  rw [hvalue]
  exact hjudged

theorem value_int64 (x : Numeral) :
    x.Judged (-2 ^ 63) (2 ^ 63 - 1) .int64 ((int64.value (.number x)).map Int64.toInt) := by
  refine value_judged .ofInt (fun _ => rfl) (fun n hmin hmax => ?_) x
  exact Int64.toInt_ofInt_of_le hmin (Int.lt_of_le_of_lt hmax (by decide))

theorem value_uint32 (x : Numeral) :
    x.Judged 0 (2 ^ 32 - 1) .uint32 ((uint32.value (.number x)).map fun n => (n.toNat : Int)) := by
  refine value_judged (fun n => .ofNat n.toNat) (fun _ => rfl) (fun n hmin hmax => ?_) x
  have hlt : n.toNat < UInt32.size := (Int.toNat_lt hmin).2 (Int.lt_of_le_sub_one hmax)
  rw [UInt32.toNat_ofNat_of_lt' hlt, Int.toNat_of_nonneg hmin]

/-- **A codec of integers accepts exactly the literals of its range**, each as its number. -/
structure Bounded (d : Codec β) (toInt : β → Int) (low high : Int) (expected : Expected) :
    Prop where
  alone : ∀ (x : Numeral) (text : String), Spells [.number x] text.toList →
    x.Judged low high expected ((d.decode text).map toInt)
  /-- No literal but the one that is written for a number is accepted as that number. -/
  canonical : ∀ (x : Numeral) (text : String) (n : β), x.Spelled text.toList →
    (d.decode text = .ok n ↔ text = d.encode n)
  /-- In the place of another value in a text that is accepted, the number is there instead, or it
  is what the text is refused for. -/
  inside : ∀ (α : Type) (c : Codec α) (put : α → β → α) (v v' : Json) (text text' : String) (a : α)
    (x : Numeral), Replaces d (.number x) c put v v' → Spells v.tokens text.toList →
    Spells v'.tokens text'.toList → c.decode text = .ok a →
    ∃ b : Decoded β, x.Judged low high expected (b.map toInt) ∧
      c.decode text' = b.map fun n => put a n
  /-- Behind what is accepted, a literal that is refused is refused whatever follows it. -/
  ahead : ∀ (α : Type) (c : Codec α) (ts : List Token) (x : Numeral) (front back : List Char),
    Reaches d c ts → Spells (ts ++ [.number x]) front → Delimited back →
    (∀ n, x.IsInteger n → ¬(low ≤ n ∧ n ≤ high)) →
    ∃ e, x.Judged low high expected (.error e) ∧
      c.decode (String.ofList (front ++ back)) = .error e

theorem bounded {d : Codec β} {toInt : β → Int} {low high : Int} {expected : Expected}
    (hl : d.Lawful) (hwrite : ∀ n, d.write n = [.number (.ofInt (toInt n))]) (hd : d.Local)
    (hvalue : ∀ x : Numeral, x.Judged low high expected ((d.value (.number x)).map toInt)) :
    d.Bounded toInt low high expected := by
  have halone (x : Numeral) (text : String) (ht : Spells [.number x] text.toList) :
      x.Judged low high expected ((d.decode text).map toInt) := by
    have htokens : (Json.number x).tokens = [.number x] := rfl
    rw [decode_spells hd (htokens ▸ ht)]
    exact hvalue x
  refine ⟨halone, ?_, ?_, ?_⟩
  · intro x text n hx
    constructor
    · -- the literal is that of an integer, which has no other one
      intro hn
      have hjudged := halone x text (spells_singleton (.number hx))
      rw [hn] at hjudged
      cases hjudged with
      | accepted hinteger _ _ =>
        rw [encode, hwrite, ← String.ofList_toList (s := text), hx.of_isInteger hinteger]
        simp [written, Token.chars]
    · rintro rfl
      exact decode_encode hl n
  · intro α c put v v' text text' a x h ht ht' ha
    have hc := h.local hd
    rw [decode_spells hc ht] at ha
    exact ⟨_, hvalue x, (decode_spells hc ht').trans (value_replaces h hd ha)⟩
  · intro α c ts x front back h hfront hback hrange
    have hjudged := hvalue x
    cases hx : d.value (.number x) with
    | ok b =>
      rw [hx] at hjudged
      cases hjudged with
      | accepted hinteger hmin hmax => exact absurd ⟨hmin, hmax⟩ (hrange _ hinteger)
    | error e =>
      rw [hx] at hjudged
      refine ⟨e, hjudged, ?_⟩
      have hread : d.read (.number x :: lex back) = .error e := by
        refine (hd (.number x) (lex back)).trans ?_
        rw [hx]
        rfl
      have hlex := lex_spells_append hfront (h.apart_append (.singleton _)) hback
      have hfirm : (Token.number x).Firm := trivial
      rw [List.append_assoc] at hlex
      simp only [decode, String.toList_ofList, hlex]
      rw [List.singleton_append, h.read_error hfirm hread]

/-- What becomes of a literal with an exponent. -/
theorem decode_int64_of_exponent {ds : List Char} {e : Nat} {text : String}
    (hx : Numeral.Spelled ⟨false, ds, [], some e⟩ text.toList) :
    (Numeral.TooLarge ⟨false, ds, [], some e⟩ → int64.decode text = .error .malformed) ∧
      (¬Numeral.TooLarge ⟨false, ds, [], some e⟩ →
        ∃ f, int64.decode text = .error (.fault (.invalidType (.floating f) .int64))) := by
  have hjudged := (bounded lawful_int64 (fun _ => rfl) local_int64 value_int64).alone _ text
    (spells_singleton (.number hx))
  cases hr : int64.decode text with
  | ok n =>
    rw [hr] at hjudged
    cases hjudged with
    | accepted hinteger => cases hinteger
  | error e =>
    rw [hr] at hjudged
    cases hjudged with
    | outside hinteger => cases hinteger
    | floating f _ hfits => exact ⟨fun hlarge => absurd hlarge hfits, fun _ => ⟨f, rfl⟩⟩
    | malformed _ hlarge => exact ⟨fun _ => rfl, fun hfits => absurd hlarge hfits⟩

end Codec

end Wire

open Wire

/-- **Both integer codecs accept exactly their range**, and these are their fields. -/
theorem bounded_of_wire :
    Codec.int64.Bounded Int64.toInt (-2 ^ 63) (2 ^ 63 - 1) .int64 ∧
      Codec.uint32.Bounded (fun n => n.toNat) 0 (2 ^ 32 - 1) .uint32 ∧
      (∃ p : Room.schema.Part Int64, p.field.key = "creation_time" ∧ p.field.codec = .int64 ∧
        ∀ r n, p.put r n = { r with creationTime := n }) ∧
      (∃ p : Room.schema.Part UInt32, p.field.key = "num_participants" ∧ p.field.codec = .uint32 ∧
        ∀ r n, p.put r n = { r with numParticipants := n }) ∧
      (∃ p : Participant.schema.Part Int64, p.field.key = "joined_at" ∧ p.field.codec = .int64 ∧
        ∀ r n, p.put r n = { r with joinedAt := n }) ∧
      (∃ p : AnalyticsEvent.schema.Part Int64, p.field.key = "timestamp" ∧
        p.field.codec = .int64 ∧ ∀ e n, p.put e n = { e with timestamp := n }) ∧
      (∃ p : WebhookEvent.schema.Part Int64, p.field.key = "created_at" ∧ p.field.codec = .int64 ∧
        ∀ e n, p.put e n = { e with createdAt := n }) := by
  have hint64 := Codec.bounded Codec.lawful_int64 (fun _ => rfl) Codec.local_int64 Codec.value_int64
  have huint32 := Codec.bounded Codec.lawful_uint32 (fun _ => rfl) Codec.local_uint32
    Codec.value_uint32
  refine ⟨hint64, huint32, ?_, ?_, ?_, ?_, ?_⟩
  · exact ⟨⟨_, .there (.there .here)⟩, rfl, rfl, fun _ _ => rfl⟩
  · exact ⟨⟨_, .there (.there (.there (.there .here)))⟩, rfl, rfl, fun _ _ => rfl⟩
  · exact ⟨⟨_, .there (.there (.there (.there .here)))⟩, rfl, rfl, fun _ _ => rfl⟩
  · exact ⟨⟨_, .there .here⟩, rfl, rfl, fun _ _ => rfl⟩
  · exact ⟨⟨_, .there (.there (.there (.there (.there .here))))⟩, rfl, rfl, fun _ _ => rfl⟩

open Number in
/-- **The edge of the doubles is not where the number of a literal is**, since both factors are
rounded first. A literal below half way between the largest double and `2 ^ 1024` may be too large,
and one above may not. -/
theorem limit_missed :
    17976931348623158 * 10 ^ 292 < limit ∧
      Codec.int64.decode "17976931348623158e292" = .error .malformed ∧
      limit ≤ 179769313486231596 * 10 ^ 291 ∧
      ∃ f, Codec.int64.decode "179769313486231596e291" =
        .error (.fault (.invalidType (.floating f) .int64)) := by
  have hbelow : Numeral.Spelled ⟨false, "17976931348623158".toList, [], some (292 : Nat)⟩
      "17976931348623158e292".toList :=
    .of_exponent _ "292".toList ⟨by decide, by simp⟩ (fun _ _ => by simp) ⟨by decide, by simp⟩
  have habove : Numeral.Spelled ⟨false, "179769313486231596".toList, [], some (291 : Nat)⟩
      "179769313486231596e291".toList :=
    .of_exponent _ "291".toList ⟨by decide, by simp⟩ (fun _ _ => by simp) ⟨by decide, by simp⟩
  -- all digits fit the significand
  have hscaled : Numeral.Scaled ⟨false, "17976931348623158".toList, [], some (292 : Nat)⟩
      17976931348623158 292 :=
    ⟨17, 0, ⟨by decide, by decide, by decide⟩, ⟨by decide, by decide, nofun⟩, by decide, rfl⟩
  have hscaled' : Numeral.Scaled ⟨false, "179769313486231596".toList, [], some (291 : Nat)⟩
      179769313486231596 291 :=
    ⟨18, 0, ⟨by decide, by decide, by decide⟩, ⟨by decide, by decide, nofun⟩, by decide, rfl⟩
  refine ⟨by decide +kernel, (Codec.decode_int64_of_exponent hbelow).1 ?_, by decide +kernel,
    (Codec.decode_int64_of_exponent habove).2 ?_⟩
  · rw [hscaled.tooLarge_iff]
    exact ⟨by decide, .inr ⟨by decide, by decide +kernel⟩⟩
  · rw [hscaled'.tooLarge_iff]
    decide +kernel

end RoomWatch
