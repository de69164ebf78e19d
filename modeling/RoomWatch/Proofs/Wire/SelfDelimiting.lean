import RoomWatch.Analytics.Event
import RoomWatch.Proofs.Wire.Incomplete
import RoomWatch.Webhook.Event

/-!
# Encodings say themselves where they end

The texts, truth values, choices and records of the wire format are closed: what is missing from one
of their encodings is missed, and what stands behind one of them is not taken for a part of it.

* `Codec.Closed.selfDelimiting`: what this means for the decoding of whole texts.
* `closed_room`, `closed_participant`, `closed_client`, `closed_track`, `closed_recording`,
  `closed_analyticsEvent`, `closed_webhookEvent`: one fact for each record.
* `selfDelimiting_of_wire`: **every encoding of the wire format is self-delimiting.**
-/

namespace RoomWatch

namespace Wire

variable {α : Type}

/-- **Encodings are self-delimiting**: the end of a text that is cut is missed, blanks behind an
encoding do not matter, and everything else behind it does. -/
structure Codec.SelfDelimiting (c : Codec α) : Prop where
  /-- A text that is cut somewhere, or is empty. -/
  cut : ∀ (a : α) (text rest : String), text ++ rest = c.encode a → rest ≠ "" →
    c.decode text = .error .endOfText
  /-- Nothing but blanks behind an encoding. -/
  blanks : ∀ (a : α) (rest : String), (∀ ch ∈ rest.toList, isBlank ch = true) →
    c.decode (c.encode a ++ rest) = .ok a
  /-- Something else behind an encoding, with blanks around it or without. -/
  trailing : ∀ (a : α) (rest : String), (∃ ch ∈ rest.toList, isBlank ch = false) →
    c.decode (c.encode a ++ rest) = .error .malformed

/-! ## Whole texts -/

/-- Whatever is no blank is a token, or a defect. -/
theorem lex_ne_nil {cs : List Char} (h : ∃ c ∈ cs, isBlank c = false) : lex cs ≠ [] := by
  induction cs with
  | nil => exact absurd h (by simp)
  | cons c cs ih =>
    rw [lex]
    by_cases hc : isBlank c = true
    · rw [if_pos hc]
      obtain ⟨d, hd, hblank⟩ := h
      rcases List.mem_cons.1 hd with rfl | hd
      · exact absurd hc (by simp [hblank])
      · exact ih ⟨d, hd, hblank⟩
    · rw [if_neg hc]
      exact List.cons_ne_nil _ _

namespace Codec

variable {c : Codec α}

/-- The value at the front of a text is read, with the tokens behind it left over. -/
theorem Closed.read_append (h : c.Closed) (a : α) (rest : String) :
    c.read (lex (c.encode a ++ rest).toList) = .ok (a, lex rest.toList) := by
  have hlex : lex (c.encode a ++ rest).toList = c.write a ++ lex rest.toList := by
    rw [String.toList_append, encode, String.toList_ofList]
    exact lex_written (h.readable a) (.inl (h.last a))
  rw [hlex]
  exact h.read_write a (lex rest.toList)

theorem Closed.decode_cut (h : c.Closed) {a : α} {text rest : String}
    (htext : text ++ rest = c.encode a) (hne : rest ≠ "") :
    c.decode text = .error .endOfText := by
  have hchars : text.toList ++ rest.toList = written (c.write a) := by
    rw [← String.toList_append, htext, encode, String.toList_ofList]
  have hrest : rest.toList ≠ [] := fun hnil => hne (String.toList_eq_nil_iff.1 hnil)
  have hread := h.read_cut (cut_written (h.readable a) hchars hrest)
  unfold decode
  rw [hread]

/-- **The encodings of a closed codec are self-delimiting.** -/
theorem Closed.selfDelimiting (h : c.Closed) : c.SelfDelimiting := by
  refine ⟨fun a text rest => h.decode_cut, fun a rest hrest => ?_, fun a rest hrest => ?_⟩
  · have hread := h.read_append a rest
    rw [lex_eq_nil hrest] at hread
    unfold decode
    rw [hread]
  · have hread := h.read_append a rest
    obtain ⟨t, ts, hts⟩ := List.exists_cons_of_ne_nil (lex_ne_nil hrest)
    rw [hts] at hread
    unfold decode
    rw [hread]

end Codec

/-! ## Snapshots -/

theorem closed_room : Room.codec.Closed :=
  Schema.closed
    ⟨Field.patient_required Codec.closed_text.patient,
      Field.patient_required Codec.closed_text.patient,
      Field.patient_required Codec.patient_int64, Field.patient_textOrEmpty,
      Field.patient_defaulted Codec.patient_uint32 0, trivial⟩ (by decide)

theorem closed_participant : Participant.codec.Closed :=
  Schema.closed
    ⟨Field.patient_required Codec.closed_text.patient,
      Field.patient_required Codec.closed_text.patient, Field.patient_textOrEmpty,
      Field.patient_textOrEmpty, Field.patient_defaulted Codec.patient_int64 0, trivial⟩
    (by decide)

theorem closed_client : Client.codec.Closed :=
  Schema.closed
    ⟨Field.patient_required Codec.closed_choice.patient,
      Field.patient_defaulted Codec.closed_text.patient "",
      Field.patient_defaulted Codec.closed_text.patient "", trivial⟩ (by decide)

theorem closed_track : Track.codec.Closed :=
  Schema.closed
    ⟨Field.patient_required Codec.closed_text.patient,
      Field.patient_required Codec.closed_choice.patient, Field.patient_textOrEmpty,
      Field.patient_defaulted Codec.closed_boolean.patient false, trivial⟩ (by decide)

theorem closed_recording : Recording.codec.Closed :=
  Schema.closed
    ⟨Field.patient_required Codec.closed_text.patient,
      Field.patient_required Codec.closed_text.patient, Field.patient_textOrEmpty,
      Field.patient_textOrEmpty, trivial⟩ (by decide)

/-! ## Events -/

theorem closed_analyticsEvent : AnalyticsEvent.codec.Closed :=
  Schema.closed
    ⟨Field.patient_required Codec.closed_choice.patient,
      Field.patient_required Codec.patient_int64,
      Field.patient_defaulted Codec.closed_text.patient "",
      Field.patient_defaulted Codec.closed_text.patient "",
      Field.patient_defaulted Codec.closed_text.patient "",
      Field.patient_defaulted Codec.closed_text.patient "",
      Field.patient_optional closed_room.patient Schema.present,
      Field.patient_optional closed_participant.patient Schema.present,
      Field.patient_optional closed_track.patient Schema.present,
      Field.patient_optional Codec.closed_choice.patient Codec.present_choice, trivial⟩
    (by decide)

theorem closed_webhookEvent : WebhookEvent.codec.Closed :=
  Schema.closed
    ⟨Field.patient_required Codec.closed_choice.patient,
      Field.patient_optional closed_room.patient Schema.present,
      Field.patient_optional closed_participant.patient Schema.present,
      Field.patient_optional closed_recording.patient Schema.present,
      Field.patient_required Codec.closed_text.patient,
      Field.patient_required Codec.patient_int64, trivial⟩ (by decide)

end Wire

open Wire

/-- **Every encoding of the wire format is self-delimiting.** Wherever the encoding of a value is
cut, inside an escape, a number, a word, a key or a snapshot or between two members, decoding it
reports the end of the text; the whole encoding takes blanks behind it, and nothing else. -/
theorem selfDelimiting_of_wire :
    Room.codec.SelfDelimiting ∧ Participant.codec.SelfDelimiting ∧ Client.codec.SelfDelimiting ∧
      Recording.codec.SelfDelimiting ∧ Track.codec.SelfDelimiting ∧
      AnalyticsEvent.codec.SelfDelimiting ∧ WebhookEvent.codec.SelfDelimiting ∧
      Sdk.codec.SelfDelimiting ∧ Media.codec.SelfDelimiting ∧ Transition.codec.SelfDelimiting ∧
      WebhookKind.codec.SelfDelimiting := by
  -- the choices are codecs of their labels
  have hchoice (α : Type) [Labelled α] : (Codec.choice α).SelfDelimiting :=
    Codec.closed_choice.selfDelimiting
  exact ⟨closed_room.selfDelimiting, closed_participant.selfDelimiting,
    closed_client.selfDelimiting, closed_recording.selfDelimiting, closed_track.selfDelimiting,
    closed_analyticsEvent.selfDelimiting, closed_webhookEvent.selfDelimiting, hchoice Sdk,
    hchoice Media, hchoice Transition, hchoice WebhookKind⟩

/-- The first digits of an integer are an integer, but what is behind it in a room is missed. -/
example : Room.codec.decode "\x7b\"sid\":\"a\",\"name\":\"\",\"creation_time\":1" =
    .error .endOfText := by
  cbv

end RoomWatch
