import RoomWatch.Proofs.Wire.Parts

/-!
# Where a reader comes to

A reader comes to a part of a record behind the members or the elements in front of it, if it has
nothing against these (`Codec.Reaches`). What it finds wrong there is what the text is refused for,
whatever follows.

* `Fields.readMembers_ahead`, `Fields.readElements_error`: the reader of a record goes on behind
  what it accepts.
* `Reaches.read_error`: **the reader of a part decides**, at any depth and in either form.
* `Reaches.apart_append`: what stands ahead does not end with a number.
-/

namespace RoomWatch.Wire

variable {α β γ ρ : Type}

/-- What stands ahead of the last one of several lists that are separated by commas. -/
def ahead (tss : List (List Token)) : List Token := tss.flatMap fun ts => ts ++ [.comma]

theorem ahead_cons (ts : List Token) (tss : List (List Token)) (us : List Token) :
    ahead (ts :: tss) ++ us = ts ++ .comma :: (ahead tss ++ us) := by
  simp [ahead]

/-- The tokens of members in front of another one. -/
def aheadMembers (ms : List (String × Json)) : List Token :=
  ahead (ms.map fun m => Json.memberTokens (some m.1, m.2))

/-- The tokens of elements in front of another one. -/
def aheadElements (vs : List Json) : List Token := ahead (vs.map Json.tokens)

/-- A token that no reader takes for the absence of a value: neither a `null`, nor the beginning of
one, nor the end of an array. -/
def Token.Firm : Token → Prop
  | .null | .closeArray | .defect .cutNull => False
  | _ => True

/-- **Behind these tokens a codec reads with the codec `d`**: there is nothing ahead, or members or
elements that are accepted. -/
inductive Codec.Reaches (d : Codec β) : {α : Type} → Codec α → List Token → Prop where
  | here : Reaches d d []
  | optional {α : Type} {c : Codec α} {ts : List Token} (h : Reaches d c ts) :
    Reaches d c.optional ts
  | member {α γ : Type} {s : Schema α} (hs : s.Regular) (p : s.Part γ) {ts : List Token}
    (h : Reaches d p.field.codec ts) {ms : List (String × Json)}
    (hms : s.fields.firstOffence? [] ms = none) (hkey : p.field.key ∉ ms.map Prod.fst) :
    Reaches d s.codec
      (.openObject :: (aheadMembers ms ++ .text p.field.key :: .colon :: ts))
  | element {α γ : Type} {s : Schema α} (hs : s.Regular) (p : s.Part γ) {ts : List Token}
    (h : Reaches d p.field.codec ts) {vs : List Json} (hlength : vs.length = p.index.number)
    (hvs : s.fields.firstRefusal? vs = none) :
    Reaches d s.codec (.openArray :: (aheadElements vs ++ ts))

/-! ## One record -/

namespace Fields

variable {f : Field α} {fs : Fields ρ}

/-- **Members that can be absorbed** are behind the reader. -/
theorem readMembers_ahead (h : fs.Local) {slots after : fs.Slots} {ms : List (String × Json)}
    (hms : fs.absorb slots (ms.map fun m => (some m.1, m.2)) = .ok after) (ts : List Token) :
    fs.readMembers slots (aheadMembers ms ++ ts) = fs.readMembers after ts := by
  induction ms generalizing slots with
  | nil =>
    cases hms
    rfl
  | cons m ms ih =>
    obtain ⟨between, hput, hmore⟩ := Decoded.exists_of_bind hms
    have hmember := member_put h m.1 m.2 slots (.comma :: (aheadMembers ms ++ ts))
    rw [hput] at hmember
    rw [aheadMembers, List.map_cons, ahead_cons]
    exact (readMembers_comma hmember).trans (ih hmore)

/-- A field that no member has had yet reads its value by its codec. -/
theorem member_error {ρ : Type} {fs : Fields ρ} (i : fs.Index f) (hk : fs.keys.Nodup)
    {ms : List (String × Json)} {slots : fs.Slots} (hslots : fs.Hold ms slots)
    (hkey : f.key ∉ ms.map Prod.fst) {ts : List Token} {e : DecodeError}
    (h : f.codec.read ts = .error e) : fs.member f.key slots (.colon :: ts) = .error e := by
  induction i with
  | here =>
    obtain ⟨hslot, -⟩ := hslots
    have hempty : slots.1 = none := by
      refine Option.eq_none_iff_forall_ne_some.2 fun a ha => hkey ?_
      rw [ha] at hslot
      obtain ⟨v, hv, -⟩ := hslot
      exact List.mem_map_of_mem hv
    rw [member_self hempty, readColon, Except.bind, h]
    rfl
  | @there _ _ _ f g fs i ih =>
    obtain ⟨hnew, hk⟩ := List.nodup_cons.1 hk
    have hne : g.key ≠ f.key := fun heq => hnew (heq ▸ i.key_mem)
    rw [member_cons_of_ne hne, ih hk hslots.2 hkey h]
    rfl

/-- **Behind elements that are accepted** the next field reads its value by its codec. -/
theorem readElements_error {ρ : Type} {fs : Fields ρ} (i : fs.Index f) (hl : fs.Local)
    (tooShort : Nat → DecodeError) {vs : List Json} (hlength : vs.length = i.number)
    (hvs : fs.firstRefusal? vs = none) {us : List Token} {e : DecodeError}
    (h : f.codec.read us = .error e) {index : Nat} {ts : List Token}
    (hnext : nextElement (index == 0) ts = .ok (some (aheadElements vs ++ us))) :
    fs.readElements tooShort index ts = .error e := by
  induction i generalizing vs index ts with
  | here =>
    rw [List.length_eq_zero_iff.1 hlength] at hnext
    simp only [aheadElements, ahead, List.map_nil, List.flatMap_nil, List.nil_append] at hnext
    simp only [readElements, hnext, bind, Except.bind, h]
  | @there _ _ _ f g fs i ih =>
    cases vs with
    | nil => cases hlength
    | cons v vs =>
      obtain ⟨⟨a, hv⟩, hvs⟩ := accepted_cons hvs
      rw [aheadElements, List.map_cons, ahead_cons] at hnext
      rw [readElements_value hl.1 tooShort hnext, hv, Except.bind,
        ih hl.2 (Nat.succ.inj hlength) hvs h (by rfl)]
      rfl

end Fields

namespace Schema

variable {s : Schema α}

theorem read_openObject {t : Token} (ht : t ≠ .closeObject) (ts : List Token) :
    s.codec.read (.openObject :: t :: ts) =
      (s.fields.readMembers s.fields.blank (t :: ts)).map fun r => (s.build r.1, r.2) := by
  have hobject : s.fields.readObject (t :: ts) =
      s.fields.readMembers s.fields.blank (t :: ts) := by
    unfold Fields.readObject
    split
    · next heq => cases heq; exact absurd rfl ht
    · rfl
  exact congrArg (Except.map fun r => (s.build r.1, r.2)) hobject

/-- **The reader of an object behind members that do not offend.** -/
theorem exists_read_ahead (hs : s.Regular) {ms : List (String × Json)}
    (hms : s.fields.firstOffence? [] ms = none) :
    ∃ after, s.fields.Hold ms.reverse after ∧ ∀ t ts, t ≠ .closeObject →
      s.codec.read (.openObject :: (aheadMembers ms ++ t :: ts)) =
        (s.fields.readMembers after (t :: ts)).map fun r => (s.build r.1, r.2) := by
  have habsorb := Fields.absorb_spec hs.distinct (Fields.hold_blank s.fields) ms
  rw [List.map_nil, hms, List.append_nil] at habsorb
  obtain ⟨after, hafter, hhold⟩ := habsorb
  refine ⟨after, hhold, fun t ts ht => ?_⟩
  have hahead := Fields.readMembers_ahead hs.reads hafter (t :: ts)
  rw [← hahead]
  cases ms with
  | nil => exact read_openObject ht ts
  | cons m ms => exact read_openObject (by simp [quoted]) _

end Schema

namespace Codec

variable {d : Codec β} {c : Codec α} {ts : List Token}

/-- What is absent or not is decided by the first token. -/
theorem read_optional_firm {t : Token} (ht : t.Firm) (us : List Token) :
    c.optional.read (t :: us) = (c.read (t :: us)).map fun r => (some r.1, r.2) := by
  simp only [optional]
  split
  · next heq => cases heq; exact ht.elim
  · next heq => cases heq; exact ht.elim
  · rfl

namespace Reaches

/-- What stands ahead starts with a bracket. -/
theorem exists_firm (h : Reaches d c ts) {t : Token} (ht : t.Firm) (us : List Token) :
    ∃ t' us', ts ++ t :: us = t' :: us' ∧ t'.Firm := by
  induction h with
  | here => exact ⟨t, us, rfl, ht⟩
  | optional h ih => exact ih
  | member => exact ⟨_, _, rfl, trivial⟩
  | element => exact ⟨_, _, rfl, trivial⟩

/-- **What the reader of a part finds wrong** is what the text is refused for. -/
theorem read_error (h : Reaches d c ts) {t : Token} (ht : t.Firm) {us : List Token}
    {e : DecodeError} (hd : d.read (t :: us) = .error e) : c.read (ts ++ t :: us) = .error e := by
  induction h with
  | here => exact hd
  | optional h ih =>
    obtain ⟨t', us', htokens, ht'⟩ := h.exists_firm ht us
    rw [htokens] at ih ⊢
    rw [read_optional_firm ht', ih]
    rfl
  | @member _ _ s hs p ts h ms hms hkey ih =>
    obtain ⟨after, hhold, hread⟩ := Schema.exists_read_ahead hs hms
    have hnew : p.field.key ∉ ms.reverse.map Prod.fst := by simpa using hkey
    have hmember := Fields.member_error p.index hs.distinct hhold hnew ih
    rw [List.cons_append, List.append_assoc]
    refine (hread (.text p.field.key) _ (by simp)).trans ?_
    exact congrArg _ (Fields.readMembers_error hmember)
  | @element _ _ s hs p ts h vs hlength hvs ih =>
    obtain ⟨t', us', htokens, ht'⟩ := h.exists_firm ht us
    -- the array does not end before the part: a value stands there, or what is reached in it
    have hnext : Fields.nextElement (0 == 0) (aheadElements vs ++ (ts ++ t :: us)) =
        .ok (some (aheadElements vs ++ (ts ++ t :: us))) := by
      cases vs with
      | nil =>
        rw [aheadElements, List.map_nil, ahead, List.flatMap_nil, List.nil_append, htokens]
        cases t' <;> first | rfl | exact ht'.elim
      | cons v vs =>
        obtain ⟨t'', us'', htokens'', hstarts, -⟩ := v.exists_tokens
        rw [aheadElements, List.map_cons, ahead_cons, htokens'']
        cases t'' <;> first | rfl | exact hstarts.elim
    have helements := Fields.readElements_error p.index hs.reads s.tooShort hlength hvs ih hnext
    rw [List.cons_append, List.append_assoc]
    exact congrArg (Except.map fun r => (s.build r.1, r.2)) helements

end Reaches

end Codec

/-! ## The tokens ahead -/

theorem apart_ahead {tss : List (List Token)} {us : List Token}
    (htss : ∀ ts ∈ tss, ∀ u us, ¬u.IsNumber → Apart (u :: us) → Apart (ts ++ u :: us))
    (h : Apart us) : Apart (ahead tss ++ us) := by
  induction tss with
  | nil => exact h
  | cons ts tss ih =>
    obtain ⟨hts, htss⟩ := List.forall_mem_cons.1 htss
    rw [ahead_cons]
    exact hts .comma _ id (apart_cons id (ih htss))

theorem apart_aheadMembers {us : List Token} (ms : List (String × Json)) (h : Apart us) :
    Apart (aheadMembers ms ++ us) := by
  refine apart_ahead (fun ts hts u us hu h => ?_) h
  obtain ⟨m, -, rfl⟩ := List.mem_map.1 hts
  exact apart_cons id (apart_cons id (apart_append m.2 hu h))

theorem apart_aheadElements {us : List Token} (vs : List Json) (h : Apart us) :
    Apart (aheadElements vs ++ us) := by
  refine apart_ahead (fun ts hts u us hu h => ?_) h
  obtain ⟨v, -, rfl⟩ := List.mem_map.1 hts
  exact apart_append v hu h

/-- **What stands ahead of a part does not end with a number.** -/
theorem Codec.Reaches.apart_append {d : Codec β} {c : Codec α} {ts us : List Token}
    (h : Reaches d c ts) (hus : Apart us) : Apart (ts ++ us) := by
  induction h with
  | here => exact hus
  | optional h ih => exact ih
  | member hs p h hms hkey ih =>
    rw [List.cons_append, List.append_assoc]
    exact apart_cons id (apart_aheadMembers _ (apart_cons id (apart_cons id ih)))
  | element hs p h hlength hvs ih =>
    rw [List.cons_append, List.append_assoc]
    exact apart_cons id (apart_aheadElements _ ih)

end RoomWatch.Wire
