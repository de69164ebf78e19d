import RoomWatch.Analytics.Event
import RoomWatch.Proofs.Wire.Objects
import RoomWatch.Webhook.Event

/-!
# Snapshots and events decoded from objects

The fields of the snapshots and of both kinds of events read their values to the end, so each of
these records is decoded exactly as the members of an object say.

* `local_room`, `local_participant`, `local_client`, `local_track`, `local_recording`: the fields of
  the snapshots.
* `local_analyticsEvent`, `local_webhookEvent`: those of events, with the snapshots in them.
* `exact_of_wire`: **every record is decoded exactly**, and `null` stands only for a snapshot or an
  SDK that is not there.
-/

namespace RoomWatch

open Wire

/-! ## Snapshots -/

theorem local_room : Room.schema.fields.Local :=
  ⟨Codec.local_text, Codec.local_text, Codec.local_int64, Codec.local_text, Codec.local_uint32,
    trivial⟩

theorem local_participant : Participant.schema.fields.Local :=
  ⟨Codec.local_text, Codec.local_text, Codec.local_text, Codec.local_text, Codec.local_int64,
    trivial⟩

theorem local_client : Client.schema.fields.Local :=
  ⟨Codec.local_choice, Codec.local_text, Codec.local_text, trivial⟩

theorem local_track : Track.schema.fields.Local :=
  ⟨Codec.local_text, Codec.local_choice, Codec.local_text, Codec.local_boolean, trivial⟩

theorem local_recording : Recording.schema.fields.Local :=
  ⟨Codec.local_text, Codec.local_text, Codec.local_text, Codec.local_text, trivial⟩

/-! ## Events -/

theorem local_analyticsEvent : AnalyticsEvent.schema.fields.Local :=
  ⟨Codec.local_choice, Codec.local_int64, Codec.local_text, Codec.local_text, Codec.local_text,
    Codec.local_text, Codec.local_optional (Schema.local_codec local_room),
    Codec.local_optional (Schema.local_codec local_participant),
    Codec.local_optional (Schema.local_codec local_track), Codec.local_optional Codec.local_choice,
    trivial⟩

theorem local_webhookEvent : WebhookEvent.schema.fields.Local :=
  ⟨Codec.local_choice, Codec.local_optional (Schema.local_codec local_room),
    Codec.local_optional (Schema.local_codec local_participant),
    Codec.local_optional (Schema.local_codec local_recording), Codec.local_text, Codec.local_int64,
    trivial⟩

/-- **Every record is decoded exactly as the members of an object say.** The order of the members,
unknown ones among them and the blanks between the tokens make no difference where decoding
succeeds, and where it fails the first offence in the text decides. -/
theorem exact_of_wire :
    Room.schema.Exact [] ∧ Participant.schema.Exact [] ∧ Client.schema.Exact [] ∧
      Recording.schema.Exact [] ∧ Track.schema.Exact [] ∧
      AnalyticsEvent.schema.Exact ["room", "participant", "track", "sdk_type"] ∧
      WebhookEvent.schema.Exact ["room", "participant", "recording_info"] :=
  ⟨Schema.exact local_room (by decide) (by decide),
    Schema.exact local_participant (by decide) (by decide),
    Schema.exact local_client (by decide) (by decide),
    Schema.exact local_recording (by decide) (by decide),
    Schema.exact local_track (by decide) (by decide),
    Schema.exact local_analyticsEvent (by decide) (by decide),
    Schema.exact local_webhookEvent (by decide) (by decide)⟩

/-- An unknown key may hold anything. The repeated key offends before the value that does not fit
and before the field that is missing. -/
example : Room.schema.fields.firstOffence? []
    [("sid", .text (some "RM_1")), ("other", .array [.object [(none, .null)]]),
      ("sid", .bool true), ("name", .null)] = some (.fault (.duplicateField "sid")) := rfl

end RoomWatch
