import RoomWatch.Proofs.Wire.Spelling
import RoomWatch.Wire.Record

/-!
# JSON values

A `Json` is what a text of the wire format says, of any depth, and `Json.tokens` are the tokens of
its texts. Keys may be repeated. Quoted texts that denote no text, because a surrogate in them lacks
its partner, are values and keys too.

* `apart_tokens`: no number stands in front of another one, so that blanks are never needed.
* `skipValue_tokens`: **any value can be passed over**, whatever follows it.
-/

namespace RoomWatch.Wire

open Number

/-- A JSON value. A text is none if it denotes nothing. -/
inductive Json where
  | null
  | bool (b : Bool)
  | number (x : Numeral)
  | text (s : Option String)
  | array (elements : List Json)
  | object (members : List (Option String × Json))

/-- The token of a quoted text. -/
def quoted : Option String → Token
  | some s => .text s
  | none => .defect .unpaired

namespace Json

mutual

/-- The tokens of a value. -/
def tokens : Json → List Token
  | .null => [.null]
  | .bool b => [.bool b]
  | .number x => [.number x]
  | .text s => [quoted s]
  | .array vs => .openArray :: (separated (elements vs) ++ [.closeArray])
  | .object ms => .openObject :: (separated (members ms) ++ [.closeObject])

/-- The tokens of each element of an array. -/
def elements : List Json → List (List Token)
  | [] => []
  | v :: vs => v.tokens :: elements vs

/-- The tokens of each member of an object. -/
def members : List (Option String × Json) → List (List Token)
  | [] => []
  | (key, v) :: ms => (quoted key :: .colon :: v.tokens) :: members ms

end

theorem elements_eq (vs : List Json) : elements vs = vs.map tokens := by
  induction vs with
  | nil => rfl
  | cons v vs ih => rw [elements, ih, List.map_cons]

/-- The tokens of one member. -/
def memberTokens (m : Option String × Json) : List Token := quoted m.1 :: .colon :: m.2.tokens

theorem members_eq (ms : List (Option String × Json)) : members ms = ms.map memberTokens := by
  induction ms with
  | nil => rfl
  | cons m ms ih => rw [members, ih, List.map_cons, memberTokens]

/-- What holds of a value if it holds of what is inside it holds of every value. -/
@[elab_as_elim, induction_eliminator]
theorem induction {motive : Json → Prop} (null : motive .null) (bool : ∀ b, motive (.bool b))
    (number : ∀ x, motive (.number x)) (text : ∀ s, motive (.text s))
    (array : ∀ vs, (∀ v ∈ vs, motive v) → motive (.array vs))
    (object : ∀ ms, (∀ m ∈ ms, motive m.2) → motive (.object ms)) : ∀ v, motive v
  | .null => null
  | .bool b => bool b
  | .number x => number x
  | .text s => text s
  | .array vs => array vs fun v _ => induction null bool number text array object v
  | .object ms => object ms fun m _ => induction null bool number text array object m.2
decreasing_by
  · next hv =>
    have hlt := List.sizeOf_lt_of_mem hv
    simp only [Json.array.sizeOf_spec]
    omega
  · next hm =>
    have hlt := List.sizeOf_lt_of_mem hm
    obtain ⟨key, v⟩ := m
    simp only [Json.object.sizeOf_spec, Prod.mk.sizeOf_spec] at hlt ⊢
    omega

end Json

/-! ## Numbers among the tokens -/

theorem apart_single {t u : Token} {us : List Token} (hu : ¬u.IsNumber) (h : Apart (u :: us)) :
    Apart ([t] ++ u :: us) :=
  List.isChain_cons_cons.2 ⟨fun _ => hu, h⟩

theorem not_isNumber_quoted (s : Option String) : ¬(quoted s).IsNumber := by
  cases s <;> exact id

theorem separated_cons_cons (ts us : List Token) (tss : List (List Token)) (rest : List Token) :
    separated (ts :: us :: tss) ++ rest = ts ++ .comma :: (separated (us :: tss) ++ rest) := by
  simp [separated]

theorem apart_separated {tss : List (List Token)} {u : Token} {us : List Token}
    (htss : ∀ ts ∈ tss, ∀ u us, ¬u.IsNumber → Apart (u :: us) → Apart (ts ++ u :: us))
    (hu : ¬u.IsNumber) (h : Apart (u :: us)) : Apart (separated tss ++ u :: us) := by
  induction tss with
  | nil => exact h
  | cons ts tss ih =>
    obtain ⟨hts, htss⟩ := List.forall_mem_cons.1 htss
    cases tss with
    | nil => exact hts u us hu h
    | cons vs tss =>
      rw [separated_cons_cons]
      exact hts .comma _ id (apart_cons id (ih htss))

/-- No number stands in front of another one, neither inside a value nor at its end. -/
theorem apart_append (v : Json) {u : Token} {us : List Token} (hu : ¬u.IsNumber)
    (h : Apart (u :: us)) : Apart (v.tokens ++ u :: us) := by
  induction v generalizing u us with
  | null => exact apart_single hu h
  | bool b => exact apart_single hu h
  | number x => exact apart_single hu h
  | text s => exact apart_single hu h
  | array vs ih =>
    rw [Json.tokens, Json.elements_eq, List.cons_append, List.append_assoc]
    refine apart_cons id (apart_separated ?_ id (apart_cons id h))
    intro ts hts u us hu h
    obtain ⟨v, hv, rfl⟩ := List.mem_map.1 hts
    exact ih v hv hu h
  | object ms ih =>
    rw [Json.tokens, Json.members_eq, List.cons_append, List.append_assoc]
    refine apart_cons id (apart_separated ?_ id (apart_cons id h))
    intro ts hts u us hu h
    obtain ⟨m, hm, rfl⟩ := List.mem_map.1 hts
    exact apart_cons (not_isNumber_quoted m.1) (apart_cons id (ih m hm hu h))

theorem apart_tokens (v : Json) : Apart v.tokens :=
  (apart_append v id (List.isChain_singleton Token.comma)).left_of_append

/-! ## Values that are passed over -/

/-- Goes on from what a token has done. -/
def Progress.resume : Progress → List Token → Decoded (List Token)
  | .refused e, _ => .error e
  | .inside opened place, ts => skip opened place ts
  | .finished, ts => .ok ts

theorem skip_cons (opened : List Bracket) (place : Place) (t : Token) (ts : List Token) :
    skip opened place (t :: ts) = (progress opened place t).resume ts := by
  rw [skip]
  cases progress opened place t <;> rfl

/-- Inside a value the next token decides how to go on. -/
theorem Progress.resume_inside (opened : List Bracket) (place : Place) (t : Token)
    (ts : List Token) :
    (Progress.inside opened place).resume (t :: ts) = (progress opened place t).resume ts :=
  skip_cons ..

/-- A value may start at these places. -/
def Place.Open (place : Place) : Prop := place = .value ∨ place = .element

theorem progress_value {opened : List Bracket} {place : Place} (h : place.Open) {t : Token}
    (ht : t ≠ .closeArray) : progress opened place t = valueStarts opened t := by
  obtain rfl | rfl := h
  · rfl
  · unfold progress
    split <;> simp_all

/-- In an object a key may start at these places. -/
def Place.OpenKey (place : Place) : Prop := place = .key ∨ place = .member

theorem progress_key {opened : List Bracket} {place : Place} (h : place.OpenKey)
    (s : Option String) :
    progress (.object :: opened) place (quoted s) = .inside (.object :: opened) .colon := by
  obtain rfl | rfl := h <;> cases s <;> rfl

/-- A value is passed over wherever it may start, and the reader goes on behind it. -/
def Json.Passed (v : Json) : Prop :=
  ∀ (opened : List Bracket) (place : Place) (rest : List Token), place.Open →
    skip opened place (v.tokens ++ rest) = (valueEnds opened).resume rest

theorem skip_elements {opened : List Bracket} {place : Place} {v : Json} {vs : List Json}
    (hv : v.Passed) (hvs : ∀ v ∈ vs, v.Passed) (hplace : place.Open) (rest : List Token) :
    skip (.array :: opened) place
        (separated ((v :: vs).map Json.tokens) ++ .closeArray :: rest) =
      (valueEnds opened).resume rest := by
  induction vs generalizing v place with
  | nil =>
    refine (hv _ place _ hplace).trans ?_
    exact skip_cons ..
  | cons w vs ih =>
    obtain ⟨hw, hvs⟩ := List.forall_mem_cons.1 hvs
    rw [List.map_cons, List.map_cons, separated_cons_cons, hv _ place _ hplace]
    refine (Progress.resume_inside ..).trans ?_
    exact ih hw hvs (.inl rfl)

/-- The key of a member, its colon and the start of its value. -/
theorem skip_member {opened : List Bracket} {place : Place} (hplace : place.OpenKey)
    (m : Option String × Json) (rest : List Token) :
    skip (.object :: opened) place (Json.memberTokens m ++ rest) =
      skip (.object :: opened) .value (m.2.tokens ++ rest) := by
  rw [Json.memberTokens, List.cons_append, List.cons_append, skip_cons, progress_key hplace]
  exact Progress.resume_inside ..

theorem skip_members {opened : List Bracket} {place : Place} {m : Option String × Json}
    {ms : List (Option String × Json)} (hm : m.2.Passed) (hms : ∀ m ∈ ms, m.2.Passed)
    (hplace : place.OpenKey) (rest : List Token) :
    skip (.object :: opened) place
        (separated ((m :: ms).map Json.memberTokens) ++ .closeObject :: rest) =
      (valueEnds opened).resume rest := by
  induction ms generalizing m place with
  | nil =>
    refine (skip_member hplace m _).trans ((hm _ .value _ (.inl rfl)).trans ?_)
    exact skip_cons ..
  | cons n ms ih =>
    obtain ⟨hn, hms⟩ := List.forall_mem_cons.1 hms
    rw [List.map_cons, List.map_cons, separated_cons_cons, skip_member hplace,
      hm _ .value _ (.inl rfl)]
    refine (Progress.resume_inside ..).trans ?_
    exact ih hn hms (.inl rfl)

/-- A value that is one token. -/
theorem skip_single {opened : List Bracket} {place : Place} (hplace : place.Open) {t : Token}
    (hends : valueStarts opened t = valueEnds opened) (rest : List Token) :
    skip opened place (t :: rest) = (valueEnds opened).resume rest := by
  have ht : t ≠ .closeArray := by
    rintro rfl
    cases opened <;> cases hends
  rw [skip_cons, progress_value hplace ht, hends]

theorem Json.passed (v : Json) : v.Passed := by
  intro opened place rest hplace
  induction v generalizing opened place rest with
  | null => exact skip_single hplace (by rfl) rest
  | bool b => exact skip_single hplace (by rfl) rest
  | number x => exact skip_single hplace (by rfl) rest
  | text s => cases s <;> exact skip_single hplace (by rfl) rest
  | array vs ih =>
    rw [Json.tokens, Json.elements_eq, List.cons_append, List.append_assoc, skip_cons,
      progress_value hplace (by simp)]
    cases vs with
    | nil => exact skip_cons ..
    | cons v vs =>
      obtain ⟨hv, hvs⟩ := List.forall_mem_cons.1 ih
      exact skip_elements hv hvs (.inr rfl) rest
  | object ms ih =>
    rw [Json.tokens, Json.members_eq, List.cons_append, List.append_assoc, skip_cons,
      progress_value hplace (by simp)]
    cases ms with
    | nil => exact skip_cons ..
    | cons m ms =>
      obtain ⟨hm, hms⟩ := List.forall_mem_cons.1 ih
      exact skip_members hm hms (.inr rfl) rest

/-- **Any value can be passed over**, of any depth and whatever follows it. -/
theorem skipValue_tokens (v : Json) (rest : List Token) : skipValue (v.tokens ++ rest) = .ok rest :=
  v.passed [] .value rest (.inl rfl)

end RoomWatch.Wire
