import RoomWatch.Proofs.Wire.Cut
import RoomWatch.Proofs.Wire.Records

/-!
# Reading cut texts

A reader that is given cut tokens of a value of its own comes to the end of the text before it finds
anything wrong. Most of them then ask for more. An integer is the exception, since its first digits
are an integer too; in a record a comma or a brace is missing behind it, so that the record asks for
more all the same.

* `Codec.Patient`: a codec that comes to the end of the text. Integers are patient.
* `Codec.Closed`: a codec that asks for more. Texts, truth values and choices are closed.
* `Fields.member_cut`, `Fields.readMembers_step`: one member.
* `Fields.readMembers_cut`: the members of an object.
* `Schema.closed`: **a record with patient fields and different keys is closed.**
-/

namespace RoomWatch.Wire

open Number

variable {α β : Type}

/-- A reader that comes to the end of the text: it asks for more, or nothing is left behind what it
has read. -/
def AtEnd (d : Decoded (α × List Token)) : Prop :=
  d = .error .endOfText ∨ ∃ a, d = .ok (a, [])

theorem AtEnd.map {d : Decoded (α × List Token)} (h : AtEnd d) (f : α → β) :
    AtEnd (d.map fun r => (f r.1, r.2)) := by
  rcases h with rfl | ⟨a, rfl⟩
  · exact .inl rfl
  · exact .inr ⟨f a, rfl⟩

/-- **A codec that does not miss what it has not got yet**: on cut tokens of a value it comes to the
end of the text. -/
structure Codec.Patient (c : Codec α) : Prop extends c.Lawful where
  read_cut : ∀ {a us}, Cut (c.write a) us → AtEnd (c.read us)

/-- **A codec whose values say themselves where they end**: on cut tokens of a value it asks for
more. -/
structure Codec.Closed (c : Codec α) : Prop extends c.Lawful where
  read_cut : ∀ {a us}, Cut (c.write a) us → c.read us = .error .endOfText
  last : ∀ a, ∀ t ∈ (c.write a).getLast?, ¬t.IsNumber

/-! ## Single tokens -/

theorem Cut.of_singleton {t : Token} {us : List Token} (h : Cut [t] us) : t.Cut us := by
  cases h with
  | here h => exact h
  | later _ h => cases h

namespace Codec

theorem Closed.patient {c : Codec α} (h : c.Closed) : c.Patient :=
  ⟨h.toLawful, fun hcut => .inl (h.read_cut hcut)⟩

theorem closed_text : text.Closed := by
  refine ⟨lawful_text, fun hcut => ?_, ?_⟩
  · cases hcut.of_singleton <;> rfl
  · rintro s t ⟨⟩
    exact id

theorem closed_boolean : boolean.Closed := by
  refine ⟨lawful_boolean, fun hcut => ?_, ?_⟩
  · cases hcut.of_singleton <;> rfl
  · rintro b t ⟨⟩
    exact id

theorem closed_choice [Labelled α] : (choice α).Closed := by
  refine ⟨lawful_choice, fun hcut => ?_, ?_⟩
  · cases hcut.of_singleton <;> rfl
  · rintro a t ⟨⟩
    exact id

/-- What is left of an integer. -/
theorem cut_integer {n : Int} {us : List Token} (h : Cut [.number (.ofInt n)] us) :
    us = [] ∨ us = [.defect .cutNumber] ∨
      ∃ m, min 0 n ≤ m ∧ m ≤ max 0 n ∧ us = [.number (.ofInt m)] := by
  have hcut := h.of_singleton
  generalize ht : Token.number (.ofInt n) = t at hcut
  cases hcut with
  | nothing t => exact .inl rfl
  | sign k => exact .inr (.inl rfl)
  | @digits k m hlow hhigh =>
    have hk : n = k := by
      have hvalue := congrArg Numeral.wholeValue (Token.number.inj ht)
      rwa [wholeValue_ofInt, wholeValue_ofInt] at hvalue
    subst hk
    exact .inr (.inr ⟨m, hlow, hhigh, rfl⟩)
  | _ => cases ht

/-- An integer between zero and one within the bounds is within the bounds. -/
theorem readInteger_cut {low high n : Int} {us : List Token} (expected : Expected)
    (hlow : Int64.minValue.toInt ≤ low) (hhigh : high < UInt64.size) (hzero : low ≤ 0 ∧ 0 ≤ high)
    (hn : low ≤ n ∧ n ≤ high) (h : Cut [.number (.ofInt n)] us) :
    AtEnd (readInteger low high expected us) := by
  rcases cut_integer h with rfl | rfl | ⟨m, hle, hge, rfl⟩
  · exact .inl rfl
  · exact .inl rfl
  · have hm : low ≤ m ∧ m ≤ high := by omega
    exact .inr ⟨m, readInteger_ofInt expected [] hlow hhigh hm⟩

theorem patient_int64 : int64.Patient := by
  refine ⟨lawful_int64, fun {n us} hcut => ?_⟩
  have hread := readInteger_cut .int64 (Int.le_refl _) (by decide) (by decide)
    ⟨n.minValue_le_toInt, n.toInt_le⟩ hcut
  exact hread.map Int64.ofInt

theorem patient_uint32 : uint32.Patient := by
  refine ⟨lawful_uint32, fun {n us} hcut => ?_⟩
  have hlt : (n.toNat : Int) < UInt32.size := Int.ofNat_lt.2 n.toNat_lt_size
  have hn : 0 ≤ (n.toNat : Int) ∧ (n.toNat : Int) ≤ UInt32.size - 1 := by omega
  have hread := readInteger_cut .uint32 (by decide) (by decide) (by decide) hn hcut
  exact hread.map fun k => UInt32.ofNat k.toNat

/-! ## Values that may be absent -/

theorem null_of_cut {ts us : List Token} (h : Cut ts us) (hts : .null ∉ ts.head?) :
    .null ∉ us.head? := by
  cases h with
  | here h => cases h <;> exact nofun
  | later t h => exact hts

/-- What is left of a value that is there is read as if it had to be there. -/
theorem read_optional_cut {c : Codec α} (h : c.Patient) (hp : c.Present) {a : α} {us : List Token}
    (hcut : Cut (c.write a) us) : AtEnd (c.optional.read us) := by
  have hnull := null_of_cut hcut (hp a)
  simp only [optional]
  split
  · -- no value that is there begins with a `null`, and neither does what is left of it
    exact absurd rfl hnull
  · exact .inl rfl
  · exact (h.read_cut hcut).map some

end Codec

/-! ## Fields -/

/-- A field whose codec is patient with the values that are written. -/
structure Field.Patient (f : Field α) : Prop extends f.Lawful where
  read_cut : ∀ {a us}, f.omits a = false → Cut (f.codec.write a) us → AtEnd (f.codec.read us)

namespace Field

variable {c : Codec α} {key : String}

theorem patient_required (h : c.Patient) : (required key c).Patient :=
  ⟨lawful_required h.toLawful, fun _ => h.read_cut⟩

theorem patient_defaulted (h : c.Patient) (a : α) : (defaulted key c a).Patient :=
  ⟨lawful_defaulted h.toLawful a, fun _ => h.read_cut⟩

theorem patient_textOrEmpty : (textOrEmpty key).Patient :=
  ⟨lawful_textOrEmpty, fun _ => Codec.closed_text.patient.read_cut⟩

theorem patient_optional (h : c.Patient) (hp : c.Present) : (optional key c).Patient := by
  refine ⟨lawful_optional h.toLawful hp, fun {a us} ha hcut => ?_⟩
  cases a with
  | none => cases ha
  | some a => exact Codec.read_optional_cut h hp hcut

end Field

namespace Fields

variable {ρ : Type} {f : Field α} {fs : Fields ρ}

/-- All fields are patient. -/
def Patient {ρ : Type} : Fields ρ → Prop
  | .nil => True
  | .cons f fs => f.Patient ∧ fs.Patient

theorem Patient.lawful {ρ : Type} {fs : Fields ρ} (h : fs.Patient) : fs.Lawful := by
  induction fs with
  | nil => trivial
  | cons f fs ih => exact ⟨h.1.toLawful, ih h.2⟩

/-! ## One member -/

theorem readColon_cut {ts us : List Token} (h : Cut (.colon :: ts) us) :
    readColon us = .error .endOfText ∨ ∃ vs, readColon us = .ok vs ∧ Cut ts vs := by
  cases h with
  | here h =>
    cases h
    exact .inl rfl
  | later _ h => exact .inr ⟨_, rfl, h⟩

/-- **A member that is cut**, at a place where it is read if it is not cut. -/
theorem member_cut {ρ : Type} {fs : Fields ρ} (hf : fs.Patient) (hk : fs.keys.Nodup) {r : ρ}
    {m : String × List Token} (hm : m ∈ fs.members r) {slots : fs.Slots} {ts : List Token}
    {x : fs.Slots × List Token} (hread : fs.member m.1 slots ts = .ok x) {us : List Token}
    (hcut : Cut (.colon :: m.2) us) : AtEnd (fs.member m.1 slots us) := by
  induction fs with
  | nil => cases hm
  | cons f fs ih =>
    obtain ⟨a, r⟩ := r
    obtain ⟨hfirst, hrest⟩ := hf
    obtain ⟨hnew, hdistinct⟩ := List.nodup_cons.1 hk
    -- a member of one of the further fields
    have hfurther : m ∈ fs.members r → AtEnd ((Fields.cons f fs).member m.1 slots us) := by
      intro hm
      have hne : f.key ≠ m.1 := fun heq => hnew (heq ▸ key_members hm)
      rw [member_cons_of_ne hne] at hread ⊢
      obtain ⟨y, hy, -⟩ := Decoded.exists_of_map hread
      exact (ih hrest hdistinct hm hy).map fun s => (slots.1, s)
    unfold members at hm
    split at hm
    · exact hfurther hm
    · next ha =>
      rcases List.mem_cons.1 hm with rfl | hm
      · -- a member of the first field, whose slot is empty since the member can be read
        have hslot : slots.1 = none := by
          cases hslot : slots.1 with
          | none => rfl
          | some b =>
            rw [member_duplicate hslot] at hread
            cases hread
        rw [member_self hslot]
        rcases readColon_cut hcut with hcolon | ⟨vs, hcolon, hvs⟩
        · rw [hcolon]
          exact .inl rfl
        · have hvalue := hfirst.read_cut (Bool.not_eq_true _ ▸ ha) hvs
          rw [hcolon]
          exact hvalue.map fun a => (some a, slots.2)
      · exact hfurther hm

/-! ## One member after another -/

/-- An object does not end where a key has to stand. -/
theorem readMembers_key {key : String} {slots : fs.Slots} {us : List Token}
    (h : (Token.text key).Cut us) : fs.readMembers slots us = .error .endOfText := by
  cases h with
  | nothing =>
    rw [readMembers]
    · rfl
    · intro key ts heq
      cases heq
  | text =>
    rw [readMembers]
    · rfl
    · intro key ts heq
      cases heq

/-- Nor does it end inside a member or behind it. -/
theorem readMembers_of_atEnd {key : String} {slots : fs.Slots} {ts : List Token}
    (h : AtEnd (fs.member key slots ts)) :
    fs.readMembers slots (.text key :: ts) = .error .endOfText := by
  rcases h with h | ⟨slots', h⟩
  · exact readMembers_error h
  · rw [readMembers]
    split
    · next heq => cases h.symm.trans heq
    · next heq => cases h.symm.trans heq
    · next heq => cases h.symm.trans heq
    · next heq => cases h.symm.trans heq; rfl

/-- **One member** is cut, or what stands behind it. -/
theorem readMembers_step {m : String × List Token} {slots : fs.Slots} {ts us : List Token}
    (hmember : ∀ {vs}, Cut (.colon :: m.2) vs → AtEnd (fs.member m.1 slots vs))
    (hcut : Cut (memberTokens m ++ ts) us) :
    fs.readMembers slots us = .error .endOfText ∨
      ∃ vs, us = .text m.1 :: .colon :: (m.2 ++ vs) ∧ Cut ts vs := by
  have htokens : memberTokens m ++ ts = .text m.1 :: ((.colon :: m.2) ++ ts) := rfl
  rw [htokens] at hcut
  cases hcut with
  | here h => exact .inl (readMembers_key h)
  | later _ h =>
    rcases h.append_cases with hinside | ⟨vs, rfl, hbehind⟩
    · exact .inl (readMembers_of_atEnd (hmember hinside))
    · exact .inr ⟨vs, rfl, hbehind⟩

/-- **The members of an object that is cut**, wherever the cut is. -/
theorem readMembers_cut (hf : fs.Patient) (hk : fs.keys.Nodup) {r : ρ} {before after : fs.Slots}
    {m : String × List Token} {ms : List (String × List Token)}
    (h : Fills fs before (m :: ms) after) (hms : ∀ p ∈ m :: ms, p ∈ fs.members r)
    {us : List Token} (hcut : Cut (separated ((m :: ms).map memberTokens) ++ [.closeObject]) us) :
    fs.readMembers before us = .error .endOfText := by
  induction ms generalizing before m us with
  | nil =>
    cases h with
    | @cons _ between _ _ _ first more =>
      have hmember : ∀ {vs}, Cut (.colon :: m.2) vs → AtEnd (fs.member m.1 before vs) :=
        member_cut hf hk (hms m List.mem_cons_self) (first [])
      rcases readMembers_step hmember hcut with hend | ⟨vs, rfl, hvs⟩
      · exact hend
      · -- only the closing brace is missing
        have hnil : vs = [] := by cases hvs.of_singleton; rfl
        subst hnil
        exact readMembers_of_atEnd (.inr ⟨between, first []⟩)
  | cons m' ms ih =>
    cases h with
    | @cons _ between _ _ _ first more =>
      have hmember : ∀ {vs}, Cut (.colon :: m.2) vs → AtEnd (fs.member m.1 before vs) :=
        member_cut hf hk (hms m List.mem_cons_self) (first [])
      have htokens : separated ((m :: m' :: ms).map memberTokens) ++ [.closeObject] =
          memberTokens m ++ (.comma ::
            (separated ((m' :: ms).map memberTokens) ++ [.closeObject])) := by
        simp [separated]
      rw [htokens] at hcut
      rcases readMembers_step hmember hcut with hend | ⟨vs, rfl, hvs⟩
      · exact hend
      · cases hvs with
        | here hcomma =>
          cases hcomma
          exact readMembers_of_atEnd (.inr ⟨between, first []⟩)
        | later _ hrest =>
          -- the member and the comma behind it are read, and the cut is in a later member
          rw [readMembers_comma (first _)]
          exact ih more (fun p hp => hms p (List.mem_cons_of_mem _ hp)) hrest

/-- A key or the end of the text stands behind the opening brace. -/
theorem readObject_cut {key : String} {ts us : List Token} (h : Cut (.text key :: ts) us) :
    fs.readObject us = fs.readMembers fs.blank us := by
  cases h with
  | here h => cases h <;> rfl
  | later _ h => rfl

end Fields

/-! ## Whole records -/

namespace Schema

variable {s : Schema α}

/-- **A record with patient fields and different keys is closed.** -/
theorem closed (hf : s.fields.Patient) (hk : s.fields.keys.Nodup) : s.codec.Closed := by
  refine ⟨lawful hf.lawful hk, fun {a us} hcut => ?_, fun a t ht => ?_⟩
  · have hfills := Fields.fills_members hf.lawful hk (s.parts a)
    have htokens : s.codec.write a =
        .openObject :: (separated ((s.fields.members (s.parts a)).map memberTokens) ++
          [.closeObject]) := by
      simp [codec, write, Fields.write_eq]
    rw [htokens] at hcut
    cases hcut with
    | here h =>
      cases h
      rfl
    | @later _ vs _ h =>
      have hobject : s.fields.readObject vs = .error .endOfText := by
        generalize hms : s.fields.members (s.parts a) = ms at h hfills
        cases ms with
        | nil =>
          -- behind the opening brace there is nothing but the closing one
          have hnil : vs = [] := by cases h.of_singleton; rfl
          subst hnil
          exact Fields.readMembers_key (.nothing (.text ""))
        | cons m ms =>
          obtain ⟨ts, hts⟩ : ∃ ts, separated ((m :: ms).map memberTokens) = .text m.1 :: ts := by
            cases ms <;> exact ⟨_, rfl⟩
          have hhead := h
          rw [hts, List.cons_append] at hhead
          rw [Fields.readObject_cut hhead]
          exact Fields.readMembers_cut hf hk hfills (fun p hp => hms ▸ hp) h
      exact congrArg (Except.map fun r => (s.build r.1, r.2)) hobject
  · have hlast : (s.codec.write a).getLast? = some .closeObject := List.getLast?_concat
    rw [hlast] at ht
    cases ht
    exact id

end Schema

end RoomWatch.Wire
