import RoomWatch.Analytics.Event
import RoomWatch.Proofs.Wire.Records
import RoomWatch.Webhook.Event

/-!
# Snapshots and events read back

The codecs of the snapshots and of both kinds of events are lawful, so each of them decodes what it
has encoded.

* `lawful_room`, `lawful_participant`, `lawful_client`, `lawful_track`, `lawful_recording`: one fact
  for each snapshot, and `Codec.lawful_choice` for the choices among them.
* `lawful_analyticsEvent`, `lawful_webhookEvent`: the same for events, with the snapshots in them.
* `roundTrips_of_wire`: **decoding undoes encoding**, for every type of the wire format.
-/

namespace RoomWatch

namespace Wire

/-- Decoding gives back exactly the value that has been encoded. -/
def Codec.RoundTrips {α : Type} (c : Codec α) : Prop := ∀ a, c.decode (c.encode a) = .ok a

/-! ## Snapshots -/

theorem lawful_room : Room.codec.Lawful :=
  Schema.lawful
    ⟨Field.lawful_required Codec.lawful_text, Field.lawful_required Codec.lawful_text,
      Field.lawful_required Codec.lawful_int64, Field.lawful_textOrEmpty,
      Field.lawful_defaulted Codec.lawful_uint32 0, trivial⟩ (by decide)

theorem lawful_participant : Participant.codec.Lawful :=
  Schema.lawful
    ⟨Field.lawful_required Codec.lawful_text, Field.lawful_required Codec.lawful_text,
      Field.lawful_textOrEmpty, Field.lawful_textOrEmpty,
      Field.lawful_defaulted Codec.lawful_int64 0, trivial⟩ (by decide)

theorem lawful_client : Client.codec.Lawful :=
  Schema.lawful
    ⟨Field.lawful_required Codec.lawful_choice, Field.lawful_defaulted Codec.lawful_text "",
      Field.lawful_defaulted Codec.lawful_text "", trivial⟩ (by decide)

theorem lawful_track : Track.codec.Lawful :=
  Schema.lawful
    ⟨Field.lawful_required Codec.lawful_text, Field.lawful_required Codec.lawful_choice,
      Field.lawful_textOrEmpty, Field.lawful_defaulted Codec.lawful_boolean false, trivial⟩
    (by decide)

theorem lawful_recording : Recording.codec.Lawful :=
  Schema.lawful
    ⟨Field.lawful_required Codec.lawful_text, Field.lawful_required Codec.lawful_text,
      Field.lawful_textOrEmpty, Field.lawful_textOrEmpty, trivial⟩ (by decide)

/-! ## Events -/

theorem lawful_analyticsEvent : AnalyticsEvent.codec.Lawful :=
  Schema.lawful
    ⟨Field.lawful_required Codec.lawful_choice, Field.lawful_required Codec.lawful_int64,
      Field.lawful_defaulted Codec.lawful_text "", Field.lawful_defaulted Codec.lawful_text "",
      Field.lawful_defaulted Codec.lawful_text "", Field.lawful_defaulted Codec.lawful_text "",
      Field.lawful_optional lawful_room Schema.present,
      Field.lawful_optional lawful_participant Schema.present,
      Field.lawful_optional lawful_track Schema.present,
      Field.lawful_optional Codec.lawful_choice Codec.present_choice, trivial⟩ (by decide)

theorem lawful_webhookEvent : WebhookEvent.codec.Lawful :=
  Schema.lawful
    ⟨Field.lawful_required Codec.lawful_choice,
      Field.lawful_optional lawful_room Schema.present,
      Field.lawful_optional lawful_participant Schema.present,
      Field.lawful_optional lawful_recording Schema.present,
      Field.lawful_required Codec.lawful_text, Field.lawful_required Codec.lawful_int64, trivial⟩
    (by decide)

end Wire

open Wire

/-- **Decoding undoes encoding.** Whatever the texts and the integers in a snapshot or an event are,
whichever of its texts are empty and whichever of its snapshots are there, its encoding decodes to
the very same value. -/
theorem roundTrips_of_wire :
    Room.codec.RoundTrips ∧ Participant.codec.RoundTrips ∧ Client.codec.RoundTrips ∧
      Recording.codec.RoundTrips ∧ Track.codec.RoundTrips ∧ AnalyticsEvent.codec.RoundTrips ∧
      WebhookEvent.codec.RoundTrips ∧ Sdk.codec.RoundTrips ∧ Media.codec.RoundTrips ∧
      Transition.codec.RoundTrips ∧ WebhookKind.codec.RoundTrips := by
  -- the choices are codecs of their labels
  have hchoice (α : Type) [Labelled α] : (Codec.choice α).RoundTrips :=
    Codec.decode_encode Codec.lawful_choice
  exact ⟨Codec.decode_encode lawful_room, Codec.decode_encode lawful_participant,
    Codec.decode_encode lawful_client, Codec.decode_encode lawful_recording,
    Codec.decode_encode lawful_track, Codec.decode_encode lawful_analyticsEvent,
    Codec.decode_encode lawful_webhookEvent, hchoice Sdk, hchoice Media, hchoice Transition,
    hchoice WebhookKind⟩

end RoomWatch
