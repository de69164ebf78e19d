import RoomWatch.Proofs.Wire.Json
import RoomWatch.Wire.Choice

/-!
# Reading values

A codec that finds a JSON value in front of it reads that value to its end, or refuses it for what
is in the value. What follows the value does not matter (`Codec.Local`). So what a text decodes to
is a matter of the value that it spells (`Codec.value`).

* `Codec.decode_spells`: **all spellings of a value decode alike.**
* `Codec.local_text`, `Codec.local_int64`, `Codec.local_choice`, `Codec.local_optional`: the codecs
  of the values in a record are local.
-/

namespace RoomWatch.Wire

open Number

variable {α ρ : Type}

namespace Json

/-- A token that starts a value. -/
def Starts : Token → Prop
  | .closeObject | .closeArray | .comma | .colon => False
  | .defect d => d = .unpaired
  | _ => True

/-- The tokens of a value: one, or a bracket with what stands in it. -/
theorem exists_tokens (v : Json) : ∃ t ts, v.tokens = t :: ts ∧ Starts t ∧
    (ts = [] ∨ t = .openArray ∨ t = .openObject) := by
  cases v with
  | text s => cases s <;> exact ⟨_, _, rfl, by trivial, .inl rfl⟩
  | array vs => exact ⟨_, _, rfl, trivial, .inr (.inl rfl)⟩
  | object ms => exact ⟨_, _, rfl, trivial, .inr (.inr rfl)⟩
  | _ => exact ⟨_, _, rfl, trivial, .inl rfl⟩

theorem eq_null_of_tokens {v : Json} {ts : List Token} (h : v.tokens = .null :: ts) :
    v = .null := by
  cases v with
  | null => rfl
  | text s => cases s <;> cases h
  | _ => cases h

end Json

/-- What stands behind the first of several lists that are separated by commas. -/
def behind (tss : List (List Token)) : List Token := tss.flatMap fun ts => .comma :: ts

theorem separated_cons (ts : List Token) (tss : List (List Token)) :
    separated (ts :: tss) = ts ++ behind tss := by
  induction tss generalizing ts with
  | nil => exact (List.append_nil ts).symm
  | cons us tss ih =>
    rw [separated, ih us]
    rfl

/-! ## Errors that come from the first token -/

theorem refusal_append (expected : Expected) (v : Json) (rest : List Token) :
    refusal expected (v.tokens ++ rest) = refusal expected v.tokens := by
  obtain ⟨t, ts, htokens, -⟩ := v.exists_tokens
  rw [htokens]
  cases t <;> rfl

namespace Codec

variable {c : Codec α}

/-- What a codec makes of a value. -/
def value (c : Codec α) (v : Json) : Decoded α := (c.read v.tokens).map Prod.fst

/-- **A codec reads a value to its end and nothing of what follows it.** -/
def Local (c : Codec α) : Prop :=
  ∀ (v : Json) (rest : List Token), c.read (v.tokens ++ rest) = (c.value v).map fun a => (a, rest)

theorem local_of_exists
    (h : ∀ v : Json, ∃ d : Decoded α, ∀ rest,
      c.read (v.tokens ++ rest) = d.map fun a => (a, rest)) : c.Local := by
  intro v rest
  obtain ⟨d, hd⟩ := h v
  have hvalue : c.value v = d := by
    have hnil := hd []
    rw [List.append_nil] at hnil
    rw [value, hnil]
    cases d <;> rfl
  rw [hd, hvalue]

/-- **All spellings of a value decode alike**, to what the codec makes of the value. -/
theorem decode_spells (h : c.Local) {v : Json} {text : String} (ht : Spells v.tokens text.toList) :
    c.decode text = c.value v := by
  have hread := h v []
  rw [List.append_nil] at hread
  rw [decode, lex_spells ht (apart_tokens v), hread]
  cases c.value v <;> rfl

/-! ## Single values -/

/-- A codec that decides by the first token, and does not read brackets. -/
theorem local_of_token (hread : ∀ t ts, c.read (t :: ts) =
      ((c.read [t]).map Prod.fst).map fun a => (a, ts))
    (hbracket : ∀ t, t = .openArray ∨ t = .openObject → ∃ e, c.read [t] = .error e) : c.Local := by
  refine local_of_exists fun v => ?_
  obtain ⟨t, ts, htokens, -, hts⟩ := v.exists_tokens
  refine ⟨(c.read [t]).map Prod.fst, fun rest => ?_⟩
  rw [htokens, List.cons_append, hread]
  rcases hts with rfl | hts
  · rfl
  · obtain ⟨e, he⟩ := hbracket t hts
    rw [he]
    rfl

theorem local_text : text.Local :=
  local_of_token (fun t _ => by cases t <;> rfl) (by rintro _ (rfl | rfl) <;> exact ⟨_, rfl⟩)

theorem local_boolean : boolean.Local :=
  local_of_token (fun t _ => by cases t <;> rfl) (by rintro _ (rfl | rfl) <;> exact ⟨_, rfl⟩)

theorem readInteger_cons (low high : Int) (expected : Expected) (t : Token) (ts : List Token) :
    readInteger low high expected (t :: ts) =
      ((readInteger low high expected [t]).map Prod.fst).map fun n => (n, ts) := by
  cases t with
  | number x =>
    simp only [readInteger]
    split
    · split <;> rfl
    · rfl
  | _ => rfl

theorem local_int64 : int64.Local := by
  refine local_of_token (fun t ts => ?_) (by rintro _ (rfl | rfl) <;> exact ⟨_, rfl⟩)
  simp only [int64]
  rw [readInteger_cons]
  cases readInteger _ _ _ [t] <;> rfl

theorem local_uint32 : uint32.Local := by
  refine local_of_token (fun t ts => ?_) (by rintro _ (rfl | rfl) <;> exact ⟨_, rfl⟩)
  simp only [uint32]
  rw [readInteger_cons]
  cases readInteger _ _ _ [t] <;> rfl

theorem readUnit_of_ne_null {v : Json} (hv : v ≠ .null) (rest : List Token) :
    Labelled.readUnit (v.tokens ++ rest) = .error (refusal .unit v.tokens) := by
  rw [← refusal_append .unit v rest]
  obtain ⟨t, ts, htokens, -⟩ := v.exists_tokens
  unfold Labelled.readUnit
  split
  · next heq =>
    rw [htokens, List.cons_append] at heq
    cases heq
    exact absurd (Json.eq_null_of_tokens htokens) hv
  · rfl

/-- The label as the key of an object: it has to be the only one, with `null` behind it. -/
theorem exists_readKeyed [Labelled α] (name : String) (v : Json) (tss : List (List Token)) :
    ∃ d : Decoded α, ∀ rest,
      Labelled.readKeyed α
          (.text name :: .colon :: (v.tokens ++ (behind tss ++ .closeObject :: rest))) =
        d.map fun a => (a, rest) := by
  cases hname : Labelled.named α name with
  | error e => exact ⟨.error e, fun _ => by simp only [Labelled.readKeyed, hname]; rfl⟩
  | ok a =>
    by_cases hv : v = .null
    · subst hv
      cases tss with
      | nil => exact ⟨.ok a, fun _ => by simp only [Labelled.readKeyed, hname]; rfl⟩
      | cons ts tss =>
        exact ⟨.error .malformed, fun _ => by simp only [Labelled.readKeyed, hname]; rfl⟩
    · refine ⟨.error (refusal .unit v.tokens), fun _ => ?_⟩
      simp only [Labelled.readKeyed, hname, readUnit_of_ne_null hv]
      rfl

theorem local_choice [Labelled α] : (choice α).Local := by
  refine local_of_exists fun v => ?_
  cases v with
  | text s =>
    cases s with
    | none => exact ⟨.error .malformed, fun _ => rfl⟩
    | some name => exact ⟨Labelled.named α name, fun _ => rfl⟩
  | object ms =>
    rw [Json.tokens, Json.members_eq]
    rcases ms with _ | ⟨⟨_ | name, v⟩, ms⟩
    · exact ⟨.error .malformed, fun _ => rfl⟩
    · exact ⟨.error .malformed, fun _ => by rw [List.map_cons, separated_cons]; rfl⟩
    · obtain ⟨d, hd⟩ := exists_readKeyed (α := α) name v (ms.map Json.memberTokens)
      refine ⟨d, fun rest => Eq.trans ?_ (hd rest)⟩
      rw [List.map_cons, separated_cons, Json.memberTokens]
      simp only [List.cons_append, List.append_assoc, List.nil_append]
      rfl
  | _ => exact ⟨.error .malformed, fun _ => rfl⟩

/-! ## Values that may be absent -/

theorem read_optional_tokens (h : c.Local) {v : Json} (hv : v ≠ .null) (rest : List Token) :
    c.optional.read (v.tokens ++ rest) = (c.value v).map fun a => (some a, rest) := by
  have hread := h v rest
  obtain ⟨t, ts, htokens, hstarts, -⟩ := v.exists_tokens
  rw [htokens, List.cons_append] at hread ⊢
  simp only [optional]
  split
  · next heq =>
    cases heq
    exact absurd (Json.eq_null_of_tokens htokens) hv
  · next heq =>
    cases heq
    cases hstarts
  · rw [hread]
    cases c.value v <;> rfl

theorem local_optional (h : c.Local) : c.optional.Local := by
  refine local_of_exists fun v => ?_
  by_cases hv : v = .null
  · subst hv
    exact ⟨.ok none, fun _ => rfl⟩
  · refine ⟨(c.value v).map some, fun rest => ?_⟩
    rw [read_optional_tokens h hv]
    cases c.value v <;> rfl

end Codec

end RoomWatch.Wire
