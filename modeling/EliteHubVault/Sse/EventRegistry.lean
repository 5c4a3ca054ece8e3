import EliteHubVault.Relay.Realtime

/-!
# The registry of realtime events

The API reads what the relay has published with schemas and channel prefixes of its own.
`findRealtimeEventByChannel` tries the event types in turn. No prefix is the beginning of a
channel of another type, so a channel is decoded to the one event type and routing key it
was built from.
-/

set_option autoImplicit false

namespace EliteHubVault

open Library

/-! ## Event types -/

inductive RealtimeEventType where
  | systemPowerplayUpdated
  | factionPresenceChanged
  | factionStateChanged
  | factionControlThreatChanged
deriving DecidableEq

namespace RealtimeEventType

/-- The event type as the code writes it. -/
def text : RealtimeEventType → String
  | .systemPowerplayUpdated => systemPowerplayUpdatedEvent
  | .factionPresenceChanged => factionPresenceChangedEvent
  | .factionStateChanged => factionStateChangedEvent
  | .factionControlThreatChanged => factionControlThreatChangedEvent

/-- The keys of `RealtimeEventSpecs`, in order. -/
def all : List RealtimeEventType :=
  [.systemPowerplayUpdated, .factionPresenceChanged, .factionStateChanged,
    .factionControlThreatChanged]

theorem mem_all (eventType : RealtimeEventType) : eventType ∈ all := by
  cases eventType <;> decide

/-- The key of `RealtimeEventSpecs` with this text. -/
def ofText? (text : String) : Option RealtimeEventType :=
  all.find? fun eventType => eventType.text = text

@[simp] theorem ofText?_text (eventType : RealtimeEventType) :
    ofText? eventType.text = some eventType := by
  cases eventType <;> decide

/-- The channel function under a key of `RealtimeEventSpecs`. -/
def getChannel : RealtimeEventType → String → String
  | .systemPowerplayUpdated => getSystemPowerplayUpdatedPowerChannel
  | .factionPresenceChanged => getFactionPresenceChangedFactionChannel
  | .factionStateChanged => getFactionStateChangedFactionChannel
  | .factionControlThreatChanged => getFactionControlThreatChangedFactionChannel

end RealtimeEventType

/-! ## Payload schemas -/

section Schemas

variable {K : Type}

/-- `z.literal`. -/
def Json.requiredLiteral (text : String) (name : String) (value : Json K) : Option Unit :=
  (value.required Json.asString? name).bind fun found => if found = text then some () else none

/-- `z.array` of labels. -/
def Json.asEnums? {α : Type} (schema : String → Option α) : Json K → Option (List α)
  | .array items => items.mapM fun item => item.asString?.bind schema
  | _ => none

def systemPowerplayUpdatedPayloadSchema (value : Json K) :
    Option (SystemPowerplayUpdatedPayload K) := do
  value.requiredLiteral systemPowerplayUpdatedEvent "event"
  let systemId ← value.required Json.asString? "systemId"
  let powerId ← value.required Json.asString? "powerId"
  let changedFields ←
    value.required (Json.asEnums? systemPowerplayChangedFieldSchema) "changedFields"
  let timestamp ← value.required Json.asString? "timestamp"
  let metadata ← value.required Json.asRecord? "metadata"
  pure { systemId, powerId, changedFields, timestamp, metadata }

def factionPresenceChangedPayloadSchema (value : Json K) :
    Option FactionPresenceChangedPayload := do
  value.requiredLiteral factionPresenceChangedEvent "event"
  let factionId ← value.required Json.asString? "factionId"
  let systemId ← value.required Json.asString? "systemId"
  let change ← value.requiredEnum factionPresenceChangeSchema "change"
  let timestamp ← value.required Json.asString? "timestamp"
  pure { factionId, systemId, change, timestamp }

def factionStateChangedPayloadSchema (value : Json K) : Option FactionStateChangedPayload := do
  value.requiredLiteral factionStateChangedEvent "event"
  let factionId ← value.required Json.asString? "factionId"
  let systemId ← value.required Json.asString? "systemId"
  let stateKind ← value.requiredEnum factionStateKindSchema "stateKind"
  let state ← value.required Json.asString? "state"
  let lifecycle ← value.requiredEnum factionStateLifecycleSchema "lifecycle"
  let opponentFactionId ← value.optional Json.asString? "opponentFactionId"
  let timestamp ← value.required Json.asString? "timestamp"
  pure { factionId, systemId, stateKind, state, lifecycle, opponentFactionId, timestamp }

def factionControlThreatChangedPayloadSchema (value : Json K) :
    Option (FactionControlThreatChangedPayload K) := do
  value.requiredLiteral factionControlThreatChangedEvent "event"
  let factionId ← value.required Json.asString? "factionId"
  let systemId ← value.required Json.asString? "systemId"
  let status ← value.requiredEnum factionControlThreatStatusSchema "status"
  let challengerFactionId ← value.required Json.asString? "challengerFactionId"
  let gap ← value.required Json.asNumber? "gap"
  let threshold ← value.required Json.asNumber? "threshold"
  let timestamp ← value.required Json.asString? "timestamp"
  pure { factionId, systemId, status, challengerFactionId, gap, threshold, timestamp }

end Schemas

/-! ## Specs -/

/-- The text after a prefix, unless it is empty. -/
def parseRoutingKeyFromChannel (start channel : String) : Option String :=
  if start.toList <+: channel.toList then
    let routingKey := String.ofList (channel.toList.drop start.toList.length)
    if routingKey ≠ "" then some routingKey else none
  else none

structure SseConnectionFilter where
  systemIdAllowlist : Option (List String)

section Specs

variable {K : Type}

def RealtimePayload.systemId : RealtimePayload K → String
  | .systemPowerplayUpdated payload => payload.systemId
  | .factionPresenceChanged payload => payload.systemId
  | .factionStateChanged payload => payload.systemId
  | .factionControlThreatChanged payload => payload.systemId

def matchesSystemIdFilter (connection : SseConnectionFilter) (payload : RealtimePayload K) : Bool :=
  match connection.systemIdAllowlist with
  | none => true
  | some systemIds => payload.systemId ∈ systemIds

/-- A message that is no JSON, or that the schema does not accept, has no payload. -/
def parsePayload {α : Type} (codec : JsonCodec K) (schema : Json K → Option α) (message : String) :
    Option α :=
  (codec.parse message).bind schema

structure RealtimeEventSpec (K : Type) where
  eventType : RealtimeEventType
  getChannel : String → String
  parseRoutingKeyFromChannel : String → Option String
  parsePayload : String → Option (RealtimePayload K)
  matchesConnectionFilters : SseConnectionFilter → RealtimePayload K → Bool
  toSseData : RealtimePayload K → String

/-- `RealtimeEventSpecs`. -/
def realtimeEventSpecs (codec : JsonCodec K) : RealtimeEventType → RealtimeEventSpec K
  | .systemPowerplayUpdated =>
      { eventType := .systemPowerplayUpdated
        getChannel := getSystemPowerplayUpdatedPowerChannel
        parseRoutingKeyFromChannel :=
          parseRoutingKeyFromChannel "events:systemPowerplayUpdated:power:"
        parsePayload := fun message =>
          (parsePayload codec systemPowerplayUpdatedPayloadSchema message).map
            .systemPowerplayUpdated
        matchesConnectionFilters := matchesSystemIdFilter
        toSseData := fun payload => codec.stringify payload.toJson }
  | .factionPresenceChanged =>
      { eventType := .factionPresenceChanged
        getChannel := getFactionPresenceChangedFactionChannel
        parseRoutingKeyFromChannel :=
          parseRoutingKeyFromChannel "events:factionPresenceChanged:faction:"
        parsePayload := fun message =>
          (parsePayload codec factionPresenceChangedPayloadSchema message).map
            .factionPresenceChanged
        matchesConnectionFilters := matchesSystemIdFilter
        toSseData := fun payload => codec.stringify payload.toJson }
  | .factionStateChanged =>
      { eventType := .factionStateChanged
        getChannel := getFactionStateChangedFactionChannel
        parseRoutingKeyFromChannel :=
          parseRoutingKeyFromChannel "events:factionStateChanged:faction:"
        parsePayload := fun message =>
          (parsePayload codec factionStateChangedPayloadSchema message).map .factionStateChanged
        matchesConnectionFilters := matchesSystemIdFilter
        toSseData := fun payload => codec.stringify payload.toJson }
  | .factionControlThreatChanged =>
      { eventType := .factionControlThreatChanged
        getChannel := getFactionControlThreatChangedFactionChannel
        parseRoutingKeyFromChannel :=
          parseRoutingKeyFromChannel "events:factionControlThreatChanged:faction:"
        parsePayload := fun message =>
          (parsePayload codec factionControlThreatChangedPayloadSchema message).map
            .factionControlThreatChanged
        matchesConnectionFilters := matchesSystemIdFilter
        toSseData := fun payload => codec.stringify payload.toJson }

/-- The spec under a key of the object `RealtimeEventSpecs`. -/
def getRealtimeEventSpec (codec : JsonCodec K) (eventType : String) :
    Option (RealtimeEventSpec K) :=
  (RealtimeEventType.ofText? eventType).map (realtimeEventSpecs codec)

/-- What `findRealtimeEventByChannel` finds. -/
structure RealtimeEventMatch (K : Type) where
  eventType : RealtimeEventType
  spec : RealtimeEventSpec K
  routingKey : String

def findRealtimeEventByChannel (codec : JsonCodec K) (channel : String) :
    Option (RealtimeEventMatch K) :=
  RealtimeEventType.all.findSome? fun eventType =>
    let spec := realtimeEventSpecs codec eventType
    (spec.parseRoutingKeyFromChannel channel).map fun routingKey =>
      { eventType, spec, routingKey }

end Specs

/-! ## Channels are decoded to what they were built from -/

/-- A routing key comes from a channel that is the prefix and the key. -/
theorem parseRoutingKeyFromChannel_eq_some_iff {start channel routingKey : String} :
    parseRoutingKeyFromChannel start channel = some routingKey ↔
      channel = start ++ routingKey ∧ routingKey ≠ "" := by
  unfold parseRoutingKeyFromChannel
  constructor
  · intro parsed
    obtain ⟨⟨rest, begins⟩, parsed⟩ := Option.ite_none_right_eq_some.mp parsed
    have cut : String.ofList (channel.toList.drop start.toList.length) = String.ofList rest := by
      rw [← begins, List.drop_left]
    simp only [cut] at parsed
    obtain ⟨nonempty, same⟩ := Option.ite_none_right_eq_some.mp parsed
    cases same
    refine ⟨?_, nonempty⟩
    apply String.toList_inj.mp
    rw [String.toList_append, String.toList_ofList, begins]
  · rintro ⟨rfl, nonempty⟩
    have cut : String.ofList ((start ++ routingKey).toList.drop start.toList.length) =
        routingKey := by
      rw [String.toList_append, List.drop_left, String.ofList_toList]
    rw [if_pos (by rw [String.toList_append]; exact List.prefix_append _ _)]
    simp only [cut]
    exact if_pos nonempty

namespace RealtimeEventType

/-- What the channels of an event type begin with. -/
def channelStart : RealtimeEventType → String
  | .systemPowerplayUpdated => "events:systemPowerplayUpdated:power:"
  | .factionPresenceChanged => "events:factionPresenceChanged:faction:"
  | .factionStateChanged => "events:factionStateChanged:faction:"
  | .factionControlThreatChanged => "events:factionControlThreatChanged:faction:"

theorem getChannel_eq_append (eventType : RealtimeEventType) (routingKey : String) :
    eventType.getChannel routingKey = eventType.channelStart ++ routingKey := by
  cases eventType <;> rfl

/-- The first 15 characters of a channel tell the event type. -/
theorem channelStart_take (eventType : RealtimeEventType) (routingKey : String) :
    (eventType.getChannel routingKey).toList.take 15 = eventType.channelStart.toList.take 15 := by
  rw [getChannel_eq_append, String.toList_append]
  apply List.take_append_of_le_length
  cases eventType <;> decide

/-- **Different event types and routing keys never share a channel.** -/
theorem getChannel_inj {eventType other : RealtimeEventType} {routingKey otherKey : String} :
    eventType.getChannel routingKey = other.getChannel otherKey ↔
      eventType = other ∧ routingKey = otherKey := by
  constructor
  · intro same
    have begins : eventType.channelStart.toList.take 15 = other.channelStart.toList.take 15 := by
      rw [← channelStart_take eventType routingKey, same, channelStart_take]
    obtain rfl : eventType = other := by
      revert begins
      cases eventType <;> cases other <;> decide
    refine ⟨rfl, ?_⟩
    rw [getChannel_eq_append, getChannel_eq_append] at same
    apply String.toList_inj.mp
    have texts := congrArg String.toList same
    rw [String.toList_append, String.toList_append] at texts
    exact List.append_cancel_left texts
  · rintro ⟨rfl, rfl⟩
    rfl

end RealtimeEventType

section Decoding

variable {K : Type} (codec : JsonCodec K)

@[simp] theorem eventType_realtimeEventSpecs (eventType : RealtimeEventType) :
    (realtimeEventSpecs codec eventType).eventType = eventType := by
  cases eventType <;> rfl

/-- The channel functions of the two packages agree. -/
@[simp] theorem getChannel_realtimeEventSpecs (eventType : RealtimeEventType)
    (routingKey : String) :
    (realtimeEventSpecs codec eventType).getChannel routingKey =
      eventType.getChannel routingKey := by
  cases eventType <;> rfl

theorem parseRoutingKey_eq_some_iff {eventType : RealtimeEventType} {channel routingKey : String} :
    (realtimeEventSpecs codec eventType).parseRoutingKeyFromChannel channel = some routingKey ↔
      channel = eventType.getChannel routingKey ∧ routingKey ≠ "" := by
  cases eventType <;> exact parseRoutingKeyFromChannel_eq_some_iff

@[simp] theorem matchesConnectionFilters_realtimeEventSpecs (eventType : RealtimeEventType) :
    (realtimeEventSpecs codec eventType).matchesConnectionFilters =
      (matchesSystemIdFilter : SseConnectionFilter → RealtimePayload K → Bool) := by
  cases eventType <;> rfl

@[simp] theorem toSseData_realtimeEventSpecs (eventType : RealtimeEventType)
    (payload : RealtimePayload K) :
    (realtimeEventSpecs codec eventType).toSseData payload = codec.stringify payload.toJson := by
  cases eventType <;> rfl

@[simp] theorem getRealtimeEventSpec_text (eventType : RealtimeEventType) :
    getRealtimeEventSpec codec eventType.text = some (realtimeEventSpecs codec eventType) := by
  rw [getRealtimeEventSpec, RealtimeEventType.ofText?_text, Option.map_some]

/-- **A channel is decoded exactly to the event type and routing key it is built from.** -/
theorem findRealtimeEventByChannel_eq_some_iff {channel : String}
    {found : RealtimeEventMatch K} :
    findRealtimeEventByChannel codec channel = some found ↔
      channel = found.eventType.getChannel found.routingKey ∧ found.routingKey ≠ "" ∧
        found.spec = realtimeEventSpecs codec found.eventType := by
  constructor
  · intro decoded
    obtain ⟨eventType, -, decoded⟩ := List.exists_of_findSome?_eq_some decoded
    obtain ⟨routingKey, parsed, rfl⟩ := Option.map_eq_some_iff.mp decoded
    obtain ⟨built, nonempty⟩ := (parseRoutingKey_eq_some_iff codec).mp parsed
    exact ⟨built, nonempty, rfl⟩
  · obtain ⟨eventType, spec, routingKey⟩ := found
    rintro ⟨built, nonempty, same⟩
    obtain rfl : spec = realtimeEventSpecs codec eventType := same
    have here : (realtimeEventSpecs codec eventType).parseRoutingKeyFromChannel channel =
        some routingKey := (parseRoutingKey_eq_some_iff codec).mpr ⟨built, nonempty⟩
    have others : ∀ other, other ≠ eventType →
        (realtimeEventSpecs codec other).parseRoutingKeyFromChannel channel = none := by
      intro other different
      cases parsed : (realtimeEventSpecs codec other).parseRoutingKeyFromChannel channel with
      | none => rfl
      | some otherKey =>
          obtain ⟨otherBuilt, -⟩ := (parseRoutingKey_eq_some_iff codec).mp parsed
          exact absurd (RealtimeEventType.getChannel_inj.mp (otherBuilt.symm.trans built)).1
            different
    cases found : findRealtimeEventByChannel codec channel with
    | none =>
        have missed := List.findSome?_eq_none_iff.mp found eventType (RealtimeEventType.mem_all _)
        cases here.symm.trans (Option.map_eq_none_iff.mp missed)
    | some other =>
        obtain ⟨otherType, -, decoded⟩ := List.exists_of_findSome?_eq_some found
        obtain ⟨otherKey, parsed, rfl⟩ := Option.map_eq_some_iff.mp decoded
        by_cases same : otherType = eventType
        · subst same
          cases here.symm.trans parsed
          rfl
        · rw [others otherType same] at parsed
          cases parsed

end Decoding

end EliteHubVault
