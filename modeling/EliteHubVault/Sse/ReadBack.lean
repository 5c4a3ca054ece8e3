import EliteHubVault.Platform.JsonText
import EliteHubVault.Relay.Rows
import EliteHubVault.Sse.EventRegistry

/-!
# What the relay publishes is read back

The relay and the API define payloads and channels independently. Every target that is built
is addressed to the channel of its payload, and the schema of the API accepts the text of
every payload and returns the payload.
-/

set_option autoImplicit false

namespace EliteHubVault

open Library

variable {K : Type}

/-! ## Addresses of payloads -/

namespace RealtimePayload

def eventType : RealtimePayload K → RealtimeEventType
  | .systemPowerplayUpdated _ => .systemPowerplayUpdated
  | .factionPresenceChanged _ => .factionPresenceChanged
  | .factionStateChanged _ => .factionStateChanged
  | .factionControlThreatChanged _ => .factionControlThreatChanged

/-- The `powerId` or `factionId` of the payload. -/
def routingKey : RealtimePayload K → String
  | .systemPowerplayUpdated payload => payload.powerId
  | .factionPresenceChanged payload => payload.factionId
  | .factionStateChanged payload => payload.factionId
  | .factionControlThreatChanged payload => payload.factionId

end RealtimePayload

/-- The channel is the one of the payload. -/
def PublishTarget.IsAddressed (target : PublishTarget K) : Prop :=
  target.channel = target.payload.eventType.getChannel target.payload.routingKey

/-! ## Schemas accept what is printed -/

section Printing

theorem systemPowerplayChangedFieldSchema_label (field : SystemPowerplayChangedField) :
    systemPowerplayChangedFieldSchema field.label = some field := by
  cases field <;> decide

theorem factionPresenceChangeSchema_label (change : FactionPresenceChange) :
    factionPresenceChangeSchema change.label = some change := by
  cases change <;> decide

theorem factionStateKindSchema_label (stateKind : FactionStateKind) :
    factionStateKindSchema stateKind.label = some stateKind := by
  cases stateKind <;> decide

theorem factionStateLifecycleSchema_label (lifecycle : FactionStateLifecycle) :
    factionStateLifecycleSchema lifecycle.label = some lifecycle := by
  cases lifecycle <;> decide

theorem factionControlThreatStatusSchema_label (status : FactionControlThreatStatus) :
    factionControlThreatStatusSchema status.label = some status := by
  cases status <;> decide

/-- A list of labels is read back. -/
theorem asEnums?_labels {α : Type} {schema : String → Option α} {label : α → String}
    (readsBack : ∀ value, schema (label value) = some value) (values : List α) :
    Json.asEnums? (K := K) schema (.array (values.map fun value => .string (label value))) =
      some values := by
  rw [Json.asEnums?, List.mapM_map]
  induction values with
  | nil => rfl
  | cons value rest ih =>
      rw [List.mapM_cons, ih]
      simp [Json.asString?, readsBack]

theorem systemPowerplayUpdated_toJson (payload : SystemPowerplayUpdatedPayload K) :
    systemPowerplayUpdatedPayloadSchema (RealtimePayload.systemPowerplayUpdated payload).toJson =
      some payload := by
  have fields := asEnums?_labels (K := K) systemPowerplayChangedFieldSchema_label
    payload.changedFields
  simp [systemPowerplayUpdatedPayloadSchema, RealtimePayload.toJson, Json.requiredLiteral,
    Json.required, Json.field?_cons, Json.asString?, Json.asRecord?, fields]

theorem factionPresenceChanged_toJson (payload : FactionPresenceChangedPayload) :
    factionPresenceChangedPayloadSchema
      (RealtimePayload.factionPresenceChanged (K := K) payload).toJson = some payload := by
  simp [factionPresenceChangedPayloadSchema, RealtimePayload.toJson, Json.requiredLiteral,
    Json.requiredEnum, Json.required, Json.field?_cons, Json.asString?,
    factionPresenceChangeSchema_label]

theorem factionStateChanged_toJson (payload : FactionStateChangedPayload) :
    factionStateChangedPayloadSchema
      (RealtimePayload.factionStateChanged (K := K) payload).toJson = some payload := by
  obtain ⟨factionId, systemId, stateKind, state, lifecycle, opponentFactionId, timestamp⟩ := payload
  cases opponentFactionId <;>
    simp [factionStateChangedPayloadSchema, RealtimePayload.toJson, Json.requiredLiteral,
      Json.requiredEnum, Json.required, Json.optional, Json.field?_cons, Json.asString?,
      factionStateKindSchema_label, factionStateLifecycleSchema_label]

theorem factionControlThreatChanged_toJson (payload : FactionControlThreatChangedPayload K) :
    factionControlThreatChangedPayloadSchema
      (RealtimePayload.factionControlThreatChanged payload).toJson = some payload := by
  simp [factionControlThreatChangedPayloadSchema, RealtimePayload.toJson, Json.requiredLiteral,
    Json.requiredEnum, Json.required, Json.field?_cons, Json.asString?, Json.asNumber?,
    factionControlThreatStatusSchema_label]

/-- **Every payload is read back from its text by the schema of its event type.** -/
theorem parsePayload_stringify (codec : JsonCodec K) (payload : RealtimePayload K) :
    (realtimeEventSpecs codec payload.eventType).parsePayload
      (codec.stringify payload.toJson) = some payload := by
  cases payload with
  | systemPowerplayUpdated payload =>
      simp only [RealtimePayload.eventType, realtimeEventSpecs, parsePayload,
        codec.parse_stringify, Option.bind_some, systemPowerplayUpdated_toJson, Option.map_some]
  | factionPresenceChanged payload =>
      simp only [RealtimePayload.eventType, realtimeEventSpecs, parsePayload,
        codec.parse_stringify, Option.bind_some, factionPresenceChanged_toJson, Option.map_some]
  | factionStateChanged payload =>
      simp only [RealtimePayload.eventType, realtimeEventSpecs, parsePayload,
        codec.parse_stringify, Option.bind_some, factionStateChanged_toJson, Option.map_some]
  | factionControlThreatChanged payload =>
      simp only [RealtimePayload.eventType, realtimeEventSpecs, parsePayload,
        codec.parse_stringify, Option.bind_some, factionControlThreatChanged_toJson,
        Option.map_some]

end Printing

/-! ## Targets are addressed to their payloads -/

section Building

variable {outboxPayload : Json K} {createdAt : Timestamp} {target : PublishTarget K}

theorem factionPresenceTarget_addressed
    (built : buildFactionPresenceChangedPublishTarget outboxPayload createdAt =
      .ok (some target)) :
    target.IsAddressed ∧ target.payload.eventType = .factionPresenceChanged := by
  unfold buildFactionPresenceChangedPublishTarget at built
  split at built
  · cases built
  · obtain ⟨timestamp, -, made⟩ := bind_eq_ok.mp built
    cases made
    exact ⟨rfl, rfl⟩

theorem factionStateTarget_addressed
    (built : buildFactionStateChangedPublishTarget outboxPayload createdAt = .ok (some target)) :
    target.IsAddressed ∧ target.payload.eventType = .factionStateChanged := by
  unfold buildFactionStateChangedPublishTarget at built
  split at built
  · cases built
  · obtain ⟨timestamp, -, made⟩ := bind_eq_ok.mp built
    cases made
    exact ⟨rfl, rfl⟩

theorem factionControlThreatTarget_addressed
    (built : buildFactionControlThreatChangedPublishTarget outboxPayload createdAt =
      .ok (some target)) :
    target.IsAddressed ∧ target.payload.eventType = .factionControlThreatChanged := by
  unfold buildFactionControlThreatChangedPublishTarget at built
  split at built
  · cases built
  · obtain ⟨timestamp, -, made⟩ := bind_eq_ok.mp built
    cases made
    exact ⟨rfl, rfl⟩

/-- The loop over the powers keeps what holds of the targets so far. -/
theorem systemPowerplayTargets_addressed {powerIds : List String}
    {targets all : List (PublishTarget K)}
    (built : pushSystemPowerplayPublishTargets outboxPayload createdAt targets powerIds = .ok all)
    (before : ∀ target ∈ targets,
      target.IsAddressed ∧ target.payload.eventType = .systemPowerplayUpdated) :
    ∀ target ∈ all, target.IsAddressed ∧ target.payload.eventType = .systemPowerplayUpdated := by
  induction powerIds generalizing targets with
  | nil =>
      cases built
      exact before
  | cons powerId rest ih =>
      obtain ⟨payload, made, built⟩ := bind_eq_ok.mp built
      cases payload with
      | none =>
          cases built
          intro target member
          cases member
      | some payload =>
          refine ih built fun target member => ?_
          rcases List.mem_append.mp member with old | new
          · exact before target old
          · obtain rfl := List.mem_singleton.mp new
            unfold buildSystemPowerplayUpdatedPowerScopedPayload at made
            split at made
            · cases made
            · obtain ⟨timestamp, -, same⟩ := bind_eq_ok.mp made
              cases same
              exact ⟨rfl, rfl⟩

/-- **Every target of a row is addressed to its payload, which is of the row's event type.** -/
theorem publishTargets_addressed {eventType : String} {powerIds : Option (List String)}
    {targets : List (PublishTarget K)}
    (built : buildPublishTargetsForOutboxRow eventType outboxPayload createdAt powerIds =
      .ok (some targets)) (member : target ∈ targets) :
    target.IsAddressed ∧ target.payload.eventType.text = eventType := by
  unfold buildPublishTargetsForOutboxRow at built
  split at built
  · rename_i same
    obtain ⟨all, pushed, made⟩ := bind_eq_ok.mp built
    cases made
    obtain ⟨addressed, payload⟩ := systemPowerplayTargets_addressed pushed
      (fun _ impossible => nomatch impossible) target member
    exact ⟨addressed, by rw [payload, same]; rfl⟩
  split at built
  · rename_i same
    obtain ⟨made, one, listed⟩ := bind_eq_ok.mp built
    cases listed
    obtain ⟨addressed, payload⟩ := factionPresenceTarget_addressed
      (one.trans (congrArg Except.ok (Option.mem_toList.mp member)))
    exact ⟨addressed, by rw [payload, same]; rfl⟩
  split at built
  · rename_i same
    obtain ⟨made, one, listed⟩ := bind_eq_ok.mp built
    cases listed
    obtain ⟨addressed, payload⟩ := factionStateTarget_addressed
      (one.trans (congrArg Except.ok (Option.mem_toList.mp member)))
    exact ⟨addressed, by rw [payload, same]; rfl⟩
  split at built
  · rename_i same
    obtain ⟨made, one, listed⟩ := bind_eq_ok.mp built
    cases listed
    obtain ⟨addressed, payload⟩ := factionControlThreatTarget_addressed
      (one.trans (congrArg Except.ok (Option.mem_toList.mp member)))
    exact ⟨addressed, by rw [payload, same]; rfl⟩
  · cases built

end Building

/-- **Whatever the relay publishes, the API reads back**: the channel of a target is decoded
to the event type of the row and to the power or faction of the payload, and the text of the
payload is parsed to the payload. -/
theorem published_is_read_back (codec : JsonCodec K) {eventType : String}
    {outboxPayload : Json K} {createdAt : Timestamp} {powerIds : Option (List String)}
    {targets : List (PublishTarget K)} {target : PublishTarget K}
    (built : buildPublishTargetsForOutboxRow eventType outboxPayload createdAt powerIds =
      .ok (some targets))
    (member : target ∈ targets) (named : target.payload.routingKey ≠ "") :
    ∃ found, findRealtimeEventByChannel codec target.channel = some found ∧
      found.eventType.text = eventType ∧ found.routingKey = target.payload.routingKey ∧
      found.spec.parsePayload (codec.stringify target.payload.toJson) = some target.payload := by
  obtain ⟨addressed, sameType⟩ := publishTargets_addressed built member
  refine ⟨⟨target.payload.eventType, realtimeEventSpecs codec target.payload.eventType,
    target.payload.routingKey⟩, ?_, sameType, rfl, ?_⟩
  · exact (findRealtimeEventByChannel_eq_some_iff codec).mpr ⟨addressed, named, rfl⟩
  · exact parsePayload_stringify codec target.payload

/-- Faction `f1` has entered system `s1`. -/
def sampleTarget : PublishTarget Empty where
  channel := "events:factionPresenceChanged:faction:f1"
  payload := .factionPresenceChanged
    { factionId := "f1", systemId := "s1", change := .entered
      timestamp := "1970-01-01T00:00:00.000Z" }

theorem published_is_read_back_sample :
    ∃ found, findRealtimeEventByChannel plainJsonCodec sampleTarget.channel = some found ∧
      found.eventType.text = "factionPresenceChanged" ∧ found.routingKey = "f1" ∧
      found.spec.parsePayload (plainJsonCodec.stringify sampleTarget.payload.toJson) =
        some sampleTarget.payload := by
  have time : timestampFromCreatedAt 0 = .ok "1970-01-01T00:00:00.000Z" := by decide +kernel
  have target : buildFactionPresenceChangedPublishTarget (K := Empty)
      (.object [("factionId", .string "f1"), ("systemId", .string "s1"),
        ("change", .string "entered")]) 0 = .ok (some sampleTarget) := by
    show (timestampFromCreatedAt 0 >>= fun timestamp => _) = _
    rw [time]
    rfl
  have built : buildPublishTargetsForOutboxRow "factionPresenceChanged"
      (.object [("factionId", .string "f1"), ("systemId", .string "s1"),
        ("change", .string "entered")]) 0 none = .ok (some [sampleTarget]) := by
    show (buildFactionPresenceChangedPublishTarget _ _ >>= fun target => _) = _
    rw [target]
    rfl
  exact published_is_read_back plainJsonCodec built List.mem_cons_self (by decide)

end EliteHubVault
