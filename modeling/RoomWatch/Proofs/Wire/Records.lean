import RoomWatch.Proofs.Wire.Law
import RoomWatch.Wire.Record

/-!
# Records that read back what they write

A record is written as the members of its fields, but for those that are left out. Reading these
members one after another fills the slots of exactly those fields, and at the end of the object the
empty slots get the values that were left out.

* `Fields.Fills`: reading members takes slots from one state to another, member by member.
* `Fields.fills_members`: the members that are written fill the slots of what is written.
* `Fields.finish_filled`: what has been left out comes back as the default.
* `Schema.lawful`: **a record with lawful fields and different keys is lawful.**
-/

namespace RoomWatch.Wire

/-- **A field reads back what it writes.** -/
structure Field.Lawful {α : Type} (f : Field α) : Prop where
  readable : ∀ a, f.omits a = false → Readable (f.codec.write a)
  read_write : ∀ a rest, f.omits a = false →
    f.codec.read (f.codec.write a ++ rest) = .ok (a, rest)

namespace Field

variable {α : Type} {c : Codec α} {key : String}

theorem lawful_required (h : c.Lawful) : (required key c).Lawful :=
  ⟨fun a _ => h.readable a, fun a rest _ => h.read_write a rest⟩

theorem lawful_defaulted (h : c.Lawful) (a : α) : (defaulted key c a).Lawful :=
  ⟨fun a _ => h.readable a, fun a rest _ => h.read_write a rest⟩

theorem lawful_textOrEmpty : (textOrEmpty key).Lawful :=
  ⟨fun a _ => Codec.lawful_text.readable a, fun a rest _ => Codec.lawful_text.read_write a rest⟩

/-- A value that is written is there. -/
theorem lawful_optional (h : c.Lawful) (hp : c.Present) : (optional key c).Lawful := by
  refine ⟨fun a ha => ?_, fun a rest ha => ?_⟩
  · cases a with
    | none => cases ha
    | some a => exact h.readable a
  · cases a with
    | none => cases ha
    | some a => exact Codec.read_optional h hp a rest

end Field

/-- The tokens of a member: its key, a colon and its value. -/
def memberTokens (m : String × List Token) : List Token := .text m.1 :: .colon :: m.2

namespace Fields

variable {α ρ : Type} {f : Field α} {fs : Fields ρ}

/-- All fields read back what they write. -/
def Lawful {ρ : Type} : Fields ρ → Prop
  | .nil => True
  | .cons f fs => f.Lawful ∧ fs.Lawful

/-- The members that are written: keys with the tokens of their values. -/
def members {ρ : Type} : Fields ρ → ρ → List (String × List Token)
  | .nil, _ => []
  | .cons f fs, (a, r) =>
    if f.omits a then fs.members r else (f.key, f.codec.write a) :: fs.members r

/-- The slots of what is written. -/
def filled {ρ : Type} : (fs : Fields ρ) → ρ → fs.Slots
  | .nil, _ => ()
  | .cons f fs, (a, r) => (if f.omits a then none else some a, fs.filled r)

theorem write_eq {ρ : Type} (fs : Fields ρ) (r : ρ) :
    fs.write r = (fs.members r).map memberTokens := by
  induction fs with
  | nil => rfl
  | cons f fs ih =>
    obtain ⟨a, r⟩ := r
    simp only [write, members, ih]
    split <;> rfl

theorem key_members {ρ : Type} {fs : Fields ρ} {r : ρ} {m : String × List Token}
    (h : m ∈ fs.members r) : m.1 ∈ fs.keys := by
  induction fs with
  | nil => cases h
  | cons f fs ih =>
    obtain ⟨a, r⟩ := r
    unfold members at h
    split at h
    · exact List.mem_cons_of_mem _ (ih h)
    · rcases List.mem_cons.1 h with rfl | h
      · exact List.mem_cons_self
      · exact List.mem_cons_of_mem _ (ih h)

theorem readable_members {ρ : Type} {fs : Fields ρ} (hf : fs.Lawful) {r : ρ}
    {m : String × List Token} (h : m ∈ fs.members r) : Readable m.2 := by
  induction fs with
  | nil => cases h
  | cons f fs ih =>
    obtain ⟨a, r⟩ := r
    obtain ⟨hfirst, hrest⟩ := hf
    unfold members at h
    split at h
    · exact ih hrest h
    · next ha =>
      rcases List.mem_cons.1 h with rfl | h
      · exact hfirst.readable a (Bool.not_eq_true _ ▸ ha)
      · exact ih hrest h

/-! ## One member -/

theorem store?_cons_of_ne {key : String} (h : f.key ≠ key) (slots : (Fields.cons f fs).Slots)
    (ts : List Token) :
    (Fields.cons f fs).store? key slots ts =
      (fs.store? key slots.2 ts).map fun r => r.map fun r => ((slots.1, r.1), r.2) :=
  if_neg h

/-- A member of one of the further fields, or of none, does not touch the first slot. -/
theorem member_cons_of_ne {key : String} (h : f.key ≠ key) (slots : (Fields.cons f fs).Slots)
    (ts : List Token) :
    (Fields.cons f fs).member key slots ts =
      (fs.member key slots.2 ts).map fun r => ((slots.1, r.1), r.2) := by
  unfold member
  rw [store?_cons_of_ne h]
  cases fs.store? key slots.2 ts with
  | some r => rfl
  | none =>
    simp only [Option.map_none]
    cases readColon ts with
    | error e => rfl
    | ok us =>
      simp only [bind, Except.bind]
      cases skipValue us <;> rfl

/-- The value of the first field is read by its codec, into an empty slot. -/
theorem member_self {slots : (Fields.cons f fs).Slots} (hslot : slots.1 = none)
    (ts : List Token) :
    (Fields.cons f fs).member f.key slots ts =
      ((readColon ts).bind f.codec.read).map fun r => ((some r.1, slots.2), r.2) := by
  unfold member store?
  rw [if_pos rfl, hslot]
  cases readColon ts with
  | error e => rfl
  | ok us =>
    simp only [bind, Except.bind]
    cases f.codec.read us <;> rfl

/-- A slot that is not empty is not filled again. -/
theorem member_duplicate {slots : (Fields.cons f fs).Slots} {a : α} (hslot : slots.1 = some a)
    (ts : List Token) :
    (Fields.cons f fs).member f.key slots ts = .error (.fault (.duplicateField f.key)) := by
  unfold member store?
  rw [if_pos rfl, hslot]

/-- A member of the first field fills its slot. -/
theorem member_cons_self (hf : f.Lawful) {a : α} (ha : f.omits a = false)
    {slots : (Fields.cons f fs).Slots} (hslot : slots.1 = none) (rest : List Token) :
    (Fields.cons f fs).member f.key slots (.colon :: (f.codec.write a ++ rest)) =
      .ok ((some a, slots.2), rest) := by
  have hread := hf.read_write a rest ha
  rw [member_self hslot, readColon, Except.bind, hread]
  rfl

/-! ## One member after another -/

/-- **Reading members fills slots**, whatever follows each of the members. -/
inductive Fills (fs : Fields ρ) : fs.Slots → List (String × List Token) → fs.Slots → Prop where
  | nil (slots : fs.Slots) : Fills fs slots [] slots
  | cons {before between after : fs.Slots} {m : String × List Token}
      {ms : List (String × List Token)}
      (first : ∀ rest, fs.member m.1 before (.colon :: (m.2 ++ rest)) = .ok (between, rest))
      (more : Fills fs between ms after) : Fills fs before (m :: ms) after

theorem Fills.lift {before after : fs.Slots} {ms : List (String × List Token)}
    (h : Fills fs before ms after) (hkeys : ∀ m ∈ ms, f.key ≠ m.1) (slot : Option α) :
    Fills (.cons f fs) (slot, before) ms (slot, after) := by
  induction h with
  | nil slots => exact .nil _
  | @cons before between after m ms first more ih =>
    obtain ⟨hfirst, hmore⟩ := List.forall_mem_cons.1 hkeys
    refine .cons (fun rest => ?_) (ih hmore)
    refine (member_cons_of_ne hfirst _ _).trans ?_
    exact congrArg (Except.map fun r => ((slot, r.1), r.2)) (first rest)

/-- **The members that are written fill the slots of what is written.** -/
theorem fills_members {ρ : Type} {fs : Fields ρ} (hf : fs.Lawful) (hk : fs.keys.Nodup) (r : ρ) :
    Fills fs fs.blank (fs.members r) (fs.filled r) := by
  induction fs with
  | nil => exact .nil _
  | cons f fs ih =>
    obtain ⟨a, r⟩ := r
    obtain ⟨hfirst, hrest⟩ := hf
    obtain ⟨hnew, hdistinct⟩ := List.nodup_cons.1 hk
    -- the further members have other keys
    have hkeys : ∀ m ∈ fs.members r, f.key ≠ m.1 := fun m hm he => hnew (he ▸ key_members hm)
    have hmore := ih hrest hdistinct r
    unfold members filled
    cases ha : f.omits a with
    | true => exact hmore.lift hkeys none
    | false =>
      have hblank : (Fields.cons f fs).blank.1 = none := rfl
      exact .cons (member_cons_self hfirst ha hblank) (hmore.lift hkeys (some a))

/-- **What has been left out comes back as the default.** -/
theorem finish_filled {ρ : Type} (fs : Fields ρ) (r : ρ) : fs.finish (fs.filled r) = .ok r := by
  induction fs with
  | nil => rfl
  | cons f fs ih =>
    obtain ⟨a, r⟩ := r
    have hslot : Option.or (if f.omits a then none else some a) f.absent = some a := by
      split
      · next ha => exact f.absent_of_omits ha
      · rfl
    unfold finish filled
    simp only [hslot, ih]
    rfl

/-- The first member that cannot be read decides. -/
theorem readMembers_error {key : String} {slots : fs.Slots} {ts : List Token} {e : DecodeError}
    (h : fs.member key slots ts = .error e) :
    fs.readMembers slots (.text key :: ts) = .error e := by
  rw [readMembers]
  split
  · next heq => cases h.symm.trans heq; rfl
  · next heq => cases h.symm.trans heq
  · next heq => cases h.symm.trans heq
  · next heq => cases h.symm.trans heq

/-- A member that is the last one. -/
theorem readMembers_last {key : String} {slots slots' : fs.Slots} {ts rest : List Token}
    (h : fs.member key slots ts = .ok (slots', .closeObject :: rest)) :
    fs.readMembers slots (.text key :: ts) = (fs.finish slots').map fun r => (r, rest) := by
  rw [readMembers]
  split
  · next heq => cases h.symm.trans heq
  · next heq => cases h.symm.trans heq
  · next heq => cases h.symm.trans heq; rfl
  · next hclose heq => cases h.symm.trans heq; exact absurd rfl (hclose _)

/-- A member that is followed by another one. -/
theorem readMembers_comma {key : String} {slots slots' : fs.Slots} {ts rest : List Token}
    (h : fs.member key slots ts = .ok (slots', .comma :: rest)) :
    fs.readMembers slots (.text key :: ts) = fs.readMembers slots' rest := by
  rw [readMembers]
  split
  · next heq => cases h.symm.trans heq
  · next heq => cases h.symm.trans heq; rfl
  · next heq => cases h.symm.trans heq
  · next hcomma _ heq => cases h.symm.trans heq; exact absurd rfl (hcomma _)

/-- **An object whose members fill the slots** is read as what is in the slots. -/
theorem readMembers_fills {before after : fs.Slots} {m : String × List Token}
    {ms : List (String × List Token)} (h : Fills fs before (m :: ms) after) (rest : List Token) :
    fs.readMembers before (separated ((m :: ms).map memberTokens) ++ .closeObject :: rest) =
      (fs.finish after).map fun r => (r, rest) := by
  induction ms generalizing before m with
  | nil =>
    cases h with
    | cons first more =>
      cases more
      exact readMembers_last (first (.closeObject :: rest))
  | cons m' ms ih =>
    cases h with
    | cons first more =>
      have htokens : separated ((m :: m' :: ms).map memberTokens) ++ .closeObject :: rest =
          .text m.1 :: .colon :: (m.2 ++ .comma ::
            (separated ((m' :: ms).map memberTokens) ++ .closeObject :: rest)) := by
        simp [separated, memberTokens]
      rw [htokens, readMembers_comma (first _)]
      exact ih more

theorem readObject_fills {after : fs.Slots} {ms : List (String × List Token)}
    (h : Fills fs fs.blank ms after) (rest : List Token) :
    fs.readObject (separated (ms.map memberTokens) ++ .closeObject :: rest) =
      (fs.finish after).map fun r => (r, rest) := by
  cases ms with
  | nil => cases h; rfl
  | cons m ms =>
    refine Eq.trans ?_ (readMembers_fills h rest)
    cases ms <;> rfl

end Fields

/-! ## Whole records -/

/-- Members that are separated by commas and followed by something that is no number. -/
theorem readable_separated {ms : List (List Token)} (h : ∀ ts ∈ ms, Readable ts) {t : Token}
    (ht : ¬t.IsNumber) {us : List Token} (hus : Readable (t :: us)) :
    Readable (separated ms ++ t :: us) := by
  induction ms with
  | nil => exact hus
  | cons ts ms ih =>
    obtain ⟨hfirst, hrest⟩ := List.forall_mem_cons.1 h
    cases ms with
    | nil => exact readable_append_cons hfirst ht hus
    | cons vs ms =>
      have hmore : Readable (.comma :: (separated (vs :: ms) ++ t :: us)) :=
        readable_cons trivial id (ih hrest)
      have htokens : separated (ts :: vs :: ms) ++ t :: us =
          ts ++ .comma :: (separated (vs :: ms) ++ t :: us) := by
        simp [separated]
      rw [htokens]
      exact readable_append_cons hfirst id hmore

namespace Schema

variable {α : Type} {s : Schema α}

/-- **A record with lawful fields and different keys is lawful.** -/
theorem lawful (hf : s.fields.Lawful) (hk : s.fields.keys.Nodup) : s.codec.Lawful := by
  refine ⟨fun a => ?_, fun a rest => ?_⟩
  · refine readable_cons trivial id ?_
    refine readable_separated (fun ts hts => ?_) id (readable_singleton trivial)
    rw [Fields.write_eq] at hts
    obtain ⟨m, hm, rfl⟩ := List.mem_map.1 hts
    exact readable_cons trivial id (readable_cons trivial id (Fields.readable_members hf hm))
  · have hobject := Fields.readObject_fills (Fields.fills_members hf hk (s.parts a)) rest
    rw [Fields.finish_filled, ← Fields.write_eq] at hobject
    have htokens : s.codec.write a ++ rest =
        .openObject :: (separated (s.fields.write (s.parts a)) ++ .closeObject :: rest) := by
      simp [codec, write]
    rw [htokens]
    refine (congrArg (Except.map fun r => (s.build r.1, r.2)) hobject).trans ?_
    simp only [Except.map, s.build_parts]

theorem present : s.codec.Present := by
  intro a h
  cases h

end Schema

end RoomWatch.Wire
