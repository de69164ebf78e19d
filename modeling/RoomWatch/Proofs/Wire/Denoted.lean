import RoomWatch.Proofs.Text.Faults
import RoomWatch.Proofs.Wire.Reach

/-!
# Texts by what they denote

Quoted texts are read in many places: as the value of a text field, as the name of a choice and as a
key (`Codec.Awaits`). In all of them only the text that a literal denotes matters, and a literal
that denotes none is no JSON.

* `lex_literal`, `lex_faulty`: what becomes of a literal, of a text or of none.
* `Codec.Awaits.read_defect`: where a text is awaited, something else is refused at once.
* `Codec.denotational`: both, whatever stands around the literal, and what is written.
* `denotational_of_wire`: **the same for every record of the wire format, in all its text fields,
  choices and keys.**
-/

namespace RoomWatch

namespace Wire

open Text

variable {α β γ ρ : Type}

/-- **A text is awaited behind these tokens**: as a value, as the name of a choice, alone or as the
key of an object, or as a key of a record, behind members that do not offend. -/
inductive Codec.Awaits (c : Codec α) : List Token → Prop where
  | text {ts : List Token} (h : Reaches Codec.text c ts) : Awaits c ts
  | name {β : Type} [Labelled β] {ts : List Token} (h : Reaches (choice β) c ts) : Awaits c ts
  | label {β : Type} [Labelled β] {ts : List Token} (h : Reaches (choice β) c ts) :
    Awaits c (ts ++ [.openObject])
  | key {β : Type} {s : Schema β} (hs : s.Regular) {ts : List Token} (h : Reaches s.codec c ts)
    {ms : List (String × Json)} (hms : s.fields.firstOffence? [] ms = none) :
    Awaits c (ts ++ .openObject :: aheadMembers ms)

/-! ## One literal -/

theorem delimited_quote (cs : List Char) : Number.Delimited ('"' :: cs) := by
  rintro c ⟨⟩
  decide

/-- **Of a literal only the text that it denotes is left.** -/
theorem lex_literal {ts : List Token} {front lit : List Char} {s : String}
    (hfront : Spells ts front) (hapart : Apart ts) (hlit : (Token.text s).Spelled lit)
    (back : List Char) : lex (front ++ (lit ++ back)) = ts ++ .text s :: lex back := by
  have hback : Number.Delimited (lit ++ back) := by
    cases hlit with
    | fixed h => exact h.elim
    | text => exact delimited_quote _
  rw [lex_spells_append hfront hapart hback, lex_token hlit fun hn => hn.elim]

/-- A literal that denotes no text. -/
theorem lex_faulty {body : List Char} (h : Quoted.Faulty body) (back : List Char) :
    ∃ d us, lex ('"' :: (body ++ back)) = .defect d :: us ∧ (d = .bad ∨ d = .unpaired) := by
  cases h with
  | @fault gs cs ds h hds =>
    have hscan := Quoted.scan_fault h hds back
    refine ⟨.bad, [], lex_of_defect rfl ?_, .inl rfl⟩
    rw [List.append_assoc]
    simp only [firstToken, hscan]
  | @unpaired gs cs h hs =>
    have hlex : lex ('"' :: (cs ++ ['"']) ++ back) = .defect .unpaired :: lex back :=
      lex_token (.unpaired h hs) fun hn => hn.elim
    exact ⟨.unpaired, lex back, hlex, .inr rfl⟩

/-! ## Where texts are awaited -/

theorem Fields.readMembers_defect {fs : Fields ρ} (slots : fs.Slots) (d : Defect)
    (us : List Token) :
    fs.readMembers slots (.defect d :: us) = .error (keyRefusal (.defect d :: us)) := by
  rw [readMembers]
  intro key ts h
  cases h

namespace Codec.Awaits

variable {c : Codec α} {ts : List Token}

/-- **Where a text is awaited, something that is none is refused**, whatever follows it. -/
theorem read_defect (h : c.Awaits ts) {d : Defect} (hd : d = .bad ∨ d = .unpaired)
    (us : List Token) : c.read (ts ++ .defect d :: us) = .error .malformed := by
  have hfirm : (Token.defect d).Firm := by rcases hd with rfl | rfl <;> trivial
  have hopen : Token.openObject.Firm := trivial
  cases h with
  | text h => exact h.read_error hfirm (by rcases hd with rfl | rfl <;> rfl)
  | name h => exact h.read_error hfirm (by rcases hd with rfl | rfl <;> rfl)
  | label h =>
    rw [List.append_assoc]
    exact h.read_error hopen (by rcases hd with rfl | rfl <;> rfl)
  | @key _ s hs ts h ms hms =>
    obtain ⟨after, -, hread⟩ := Schema.exists_read_ahead hs hms
    have hkey : keyRefusal (.defect d :: us) = .malformed := by rcases hd with rfl | rfl <;> rfl
    rw [List.append_assoc]
    refine h.read_error hopen ((hread (.defect d) us (by simp)).trans ?_)
    rw [Fields.readMembers_defect, hkey]
    rfl

theorem apart (h : c.Awaits ts) : Apart ts := by
  cases h with
  | text h => exact List.append_nil ts ▸ h.apart_append .nil
  | name h => exact List.append_nil ts ▸ h.apart_append .nil
  | label h => exact h.apart_append (.singleton _)
  | @key _ s hs ts h ms hms =>
    have hmembers := apart_aheadMembers ms .nil
    rw [List.append_nil] at hmembers
    exact h.apart_append (apart_cons id hmembers)

/-- What is reached behind further tokens is awaited behind them. -/
theorem lift {c' : Codec β} {front : List Token}
    (hlift : ∀ {γ : Type} {d : Codec γ} {us : List Token}, Reaches d c us →
      Reaches d c' (front ++ us)) (h : c.Awaits ts) : c'.Awaits (front ++ ts) := by
  cases h with
  | text h => exact .text (hlift h)
  | name h => exact .name (hlift h)
  | label h =>
    rw [← List.append_assoc]
    exact .label (hlift h)
  | key hs h hms =>
    rw [← List.append_assoc]
    exact .key hs (hlift h) hms

theorem optional (h : c.Awaits ts) : c.optional.Awaits ts :=
  List.nil_append ts ▸ h.lift fun h => h.optional

end Codec.Awaits

/-- **A text is awaited in a part of a record**, behind further tokens, in either form. -/
structure Schema.AwaitsAt (s : Schema α) (p : s.Part γ) (ts : List Token) : Prop where
  member : ∀ ms : List (String × Json), s.fields.firstOffence? [] ms = none →
    p.field.key ∉ ms.map Prod.fst →
    s.codec.Awaits (.openObject :: (aheadMembers ms ++ .text p.field.key :: .colon :: ts))
  element : ∀ vs : List Json, vs.length = p.index.number → s.fields.firstRefusal? vs = none →
    s.codec.Awaits (.openArray :: (aheadElements vs ++ ts))

theorem Schema.awaitsAt {s : Schema α} (hs : s.Regular) (p : s.Part γ) {ts : List Token}
    (h : p.field.codec.Awaits ts) : s.AwaitsAt p ts := by
  constructor
  · intro ms hms hkey
    have htokens (us : List Token) :
        .openObject :: (aheadMembers ms ++ .text p.field.key :: .colon :: us) =
          .openObject :: (aheadMembers ms ++ [.text p.field.key, .colon]) ++ us := by simp
    rw [htokens]
    refine h.lift fun h => ?_
    rw [← htokens]
    exact .member hs p h hms hkey
  · intro vs hlength hvs
    rw [← List.cons_append]
    exact h.lift fun h => .element hs p h hlength hvs

/-! ## All codecs -/

/-- **A codec sees of a literal only what it denotes.** -/
structure Codec.Denotational (c : Codec α) : Prop where
  /-- Any spelling of a text is read as its compact one, wherever it stands and whatever follows. -/
  spelled : ∀ (ts : List Token) (s : String) (front lit back : List Char), Spells ts front →
    Apart ts → (Token.text s).Spelled lit →
    c.decode (String.ofList (front ++ (lit ++ back))) =
      c.decode (String.ofList (front ++ ((Token.text s).chars ++ back)))
  /-- A literal that denotes no text is no JSON where a text is awaited. -/
  faulty : ∀ (ts : List Token) (front body back : List Char), Spells ts front → c.Awaits ts →
    Quoted.Faulty body →
    c.decode (String.ofList (front ++ '"' :: (body ++ back))) = .error .malformed
  /-- Texts are written in their compact spelling. -/
  compact : ∀ (a : α) (ts us : List Token) (s : String), c.write a = ts ++ .text s :: us →
    ∃ cs, Quoted.Compact s.toList cs ∧
      (c.encode a).toList = written ts ++ '"' :: (cs ++ '"' :: written us)

theorem Codec.denotational (c : Codec α) : c.Denotational := by
  refine ⟨?_, ?_, ?_⟩
  · intro ts s front lit back hfront hapart hlit
    have hchars : (Token.text s).Spelled (Token.text s).chars := spelled_chars trivial
    simp only [decode, String.toList_ofList, lex_literal hfront hapart hlit,
      lex_literal hfront hapart hchars]
  · intro ts front body back hfront hts hbody
    obtain ⟨d, us, hlex, hd⟩ := lex_faulty hbody back
    have hfront := lex_spells_append hfront hts.apart (delimited_quote (body ++ back))
    simp only [decode, String.toList_ofList, hfront, hlex, hts.read_defect hd]
  · intro a ts us s hwrite
    refine ⟨_, Quoted.compact_encode s.toList, ?_⟩
    rw [encode, String.toList_ofList, hwrite]
    simp [written, Token.chars]

/-- **A record sees of a literal only what it denotes**, in its text fields and in its keys. -/
structure Schema.Denotational (s : Schema α) (texts : List String) : Prop where
  codec : s.codec.Denotational
  /-- The fields that are a text or a choice, or whose value may be absent and is a choice. -/
  texts : ∀ key ∈ texts, ∃ (γ : Type) (p : s.Part γ), p.field.key = key ∧ p.field.codec.Awaits []
  /-- What is awaited in a part of a record is awaited in the record. -/
  parts : ∀ (γ : Type) (p : s.Part γ) (ts : List Token), p.field.codec.Awaits ts → s.AwaitsAt p ts
  keys : ∀ ms : List (String × Json), s.fields.firstOffence? [] ms = none →
    s.codec.Awaits (.openObject :: aheadMembers ms)

/-- Fields with these keys, in their order, await a text. -/
inductive Fields.Awaiting : {ρ : Type} → Fields ρ → List String → Prop where
  | nil : Awaiting .nil []
  | here {α ρ : Type} {f : Field α} {fs : Fields ρ} {keys : List String} (h : f.codec.Awaits [])
    (more : Awaiting fs keys) : Awaiting (.cons f fs) (f.key :: keys)
  | there {α ρ : Type} {f : Field α} {fs : Fields ρ} {keys : List String}
    (more : Awaiting fs keys) : Awaiting (.cons f fs) keys

theorem Fields.Awaiting.exists_index {ρ : Type} {fs : Fields ρ} {keys : List String}
    (h : fs.Awaiting keys) : ∀ key ∈ keys, ∃ (γ : Type) (f : Field γ) (_ : fs.Index f),
      f.key = key ∧ f.codec.Awaits [] := by
  induction h with
  | nil => exact List.forall_mem_nil _
  | @here _ _ f fs keys h more ih =>
    refine List.forall_mem_cons.2 ⟨⟨_, f, .here, rfl, h⟩, fun key hkey => ?_⟩
    obtain ⟨γ, g, i, hg⟩ := ih key hkey
    exact ⟨γ, g, i.there, hg⟩
  | there more ih =>
    intro key hkey
    obtain ⟨γ, g, i, hg⟩ := ih key hkey
    exact ⟨γ, g, i.there, hg⟩

theorem Schema.denotational {s : Schema α} (hs : s.Regular) {texts : List String}
    (htexts : s.fields.Awaiting texts) : s.Denotational texts := by
  refine ⟨Codec.denotational _, fun key hkey => ?_, fun _ p _ h => awaitsAt hs p h,
    fun _ hms => .key hs .here hms⟩
  obtain ⟨γ, f, i, hf⟩ := htexts.exists_index key hkey
  exact ⟨γ, ⟨f, i⟩, hf⟩

end Wire

open Wire

/-- **Only the text that a literal denotes matters**, in every text field, in every choice and in
every key of every record. -/
theorem denotational_of_wire :
    Room.schema.Denotational ["sid", "name", "metadata"] ∧
      Participant.schema.Denotational ["sid", "identity", "name", "metadata"] ∧
      Client.schema.Denotational ["sdk", "version", "os"] ∧
      Recording.schema.Denotational ["id", "room_name", "request", "error"] ∧
      Track.schema.Denotational ["sid", "type", "name"] ∧
      AnalyticsEvent.schema.Denotational
        ["type", "room_sid", "participant_id", "track_id", "recording_id", "sdk_type"] ∧
      WebhookEvent.schema.Denotational ["event", "id"] ∧
      (Sdk.codec.Denotational ∧ Sdk.codec.Awaits []) ∧
      (Media.codec.Denotational ∧ Media.codec.Awaits []) ∧
      (Transition.codec.Denotational ∧ Transition.codec.Awaits []) ∧
      (WebhookKind.codec.Denotational ∧ WebhookKind.codec.Awaits []) := by
  have htext : Codec.text.Awaits [] := .text .here
  have hchoice {β : Type} [Labelled β] : (Codec.choice β).Awaits [] := .name .here
  have hroom : Room.schema.fields.Awaiting ["sid", "name", "metadata"] :=
    .here htext (.here htext (.there (.here htext (.there .nil))))
  have hparticipant : Participant.schema.fields.Awaiting ["sid", "identity", "name", "metadata"] :=
    .here htext (.here htext (.here htext (.here htext (.there .nil))))
  have hclient : Client.schema.fields.Awaiting ["sdk", "version", "os"] :=
    .here hchoice (.here htext (.here htext .nil))
  have hrecording : Recording.schema.fields.Awaiting ["id", "room_name", "request", "error"] :=
    .here htext (.here htext (.here htext (.here htext .nil)))
  have htrack : Track.schema.fields.Awaiting ["sid", "type", "name"] :=
    .here htext (.here hchoice (.here htext (.there .nil)))
  have hanalytics : AnalyticsEvent.schema.fields.Awaiting
      ["type", "room_sid", "participant_id", "track_id", "recording_id", "sdk_type"] :=
    .here hchoice (.there (.here htext (.here htext (.here htext (.here htext
      (.there (.there (.there (.here hchoice.optional .nil)))))))))
  have hwebhook : WebhookEvent.schema.fields.Awaiting ["event", "id"] :=
    .here hchoice (.there (.there (.there (.here htext (.there .nil)))))
  exact ⟨Schema.denotational regular_room hroom,
    Schema.denotational regular_participant hparticipant,
    Schema.denotational regular_client hclient, Schema.denotational regular_recording hrecording,
    Schema.denotational regular_track htrack, Schema.denotational regular_analyticsEvent hanalytics,
    Schema.denotational regular_webhookEvent hwebhook, ⟨Codec.denotational _, hchoice⟩,
    ⟨Codec.denotational _, hchoice⟩, ⟨Codec.denotational _, hchoice⟩,
    ⟨Codec.denotational _, hchoice⟩⟩

end RoomWatch
