import EliteHubVault.Library.Result
import EliteHubVault.Platform.Json

/-!
# The realtime contracts

The payloads that triggers write into the outbox, the payloads that subscribers read and
the channels on which they are published. A schema drops the properties it does not know;
a payload that it does not accept is `none`.
-/

set_option autoImplicit false

namespace EliteHubVault

open Library

/-! ## Event types and channels -/

def systemPowerplayUpdatedEvent : String := "systemPowerplayUpdated"

def factionPresenceChangedEvent : String := "factionPresenceChanged"

def factionStateChangedEvent : String := "factionStateChanged"

def factionControlThreatChangedEvent : String := "factionControlThreatChanged"

def getFactionScopedChannel (eventType factionId : String) : String :=
  "events:" ++ eventType ++ ":faction:" ++ factionId

def getSystemPowerplayUpdatedPowerChannel (powerId : String) : String :=
  "events:systemPowerplayUpdated:power:" ++ powerId

def getFactionPresenceChangedFactionChannel (factionId : String) : String :=
  getFactionScopedChannel factionPresenceChangedEvent factionId

def getFactionStateChangedFactionChannel (factionId : String) : String :=
  getFactionScopedChannel factionStateChangedEvent factionId

def getFactionControlThreatChangedFactionChannel (factionId : String) : String :=
  getFactionScopedChannel factionControlThreatChangedEvent factionId

/-! ## Enumerations of the payloads -/

/-- `z.enum` of labels. -/
def zodEnum {α : Type} (values : List α) (label : α → String) (text : String) : Option α :=
  values.find? fun value => label value = text

/-- `SYSTEM_POWERPLAY_TRACKED_FIELDS`. -/
inductive SystemPowerplayChangedField where
  | powerplayState
  | powerplayStateControlProgress
  | powerplayStateReinforcement
  | powerplayStateUndermining
deriving DecidableEq

def SystemPowerplayChangedField.label : SystemPowerplayChangedField → String
  | .powerplayState => "powerplayState"
  | .powerplayStateControlProgress => "powerplayStateControlProgress"
  | .powerplayStateReinforcement => "powerplayStateReinforcement"
  | .powerplayStateUndermining => "powerplayStateUndermining"

def systemPowerplayTrackedFields : List SystemPowerplayChangedField :=
  [.powerplayState, .powerplayStateControlProgress, .powerplayStateReinforcement,
    .powerplayStateUndermining]

def systemPowerplayChangedFieldSchema : String → Option SystemPowerplayChangedField :=
  zodEnum systemPowerplayTrackedFields SystemPowerplayChangedField.label

inductive FactionPresenceChange where
  | entered | left
deriving DecidableEq

def FactionPresenceChange.label : FactionPresenceChange → String
  | .entered => "entered"
  | .left => "left"

def factionPresenceChangeSchema : String → Option FactionPresenceChange :=
  zodEnum [.entered, .left] FactionPresenceChange.label

inductive FactionStateKind where
  | state | conflict
deriving DecidableEq

def FactionStateKind.label : FactionStateKind → String
  | .state => "state"
  | .conflict => "conflict"

def factionStateKindSchema : String → Option FactionStateKind :=
  zodEnum [.state, .conflict] FactionStateKind.label

inductive FactionStateLifecycle where
  | pending | active | ended
deriving DecidableEq

def FactionStateLifecycle.label : FactionStateLifecycle → String
  | .pending => "pending"
  | .active => "active"
  | .ended => "ended"

def factionStateLifecycleSchema : String → Option FactionStateLifecycle :=
  zodEnum [.pending, .active, .ended] FactionStateLifecycle.label

inductive FactionControlThreatStatus where
  | entered | cleared
deriving DecidableEq

def FactionControlThreatStatus.label : FactionControlThreatStatus → String
  | .entered => "entered"
  | .cleared => "cleared"

def factionControlThreatStatusSchema : String → Option FactionControlThreatStatus :=
  zodEnum [.entered, .cleared] FactionControlThreatStatus.label

/-! ## Outbox payloads -/

section OutboxPayloads

variable (K : Type)

structure SystemPowerplayUpdatedOutboxPayload where
  systemId : String
  changedFields : List String
  source : Option String
  metadata : Option (List (String × Json K))

structure FactionPresenceChangedOutboxPayload where
  factionId : String
  systemId : String
  change : FactionPresenceChange

structure FactionStateChangedOutboxPayload where
  factionId : String
  systemId : String
  stateKind : FactionStateKind
  state : String
  lifecycle : FactionStateLifecycle
  opponentFactionId : Option String

structure FactionControlThreatChangedOutboxPayload where
  factionId : String
  systemId : String
  status : FactionControlThreatStatus
  challengerFactionId : String
  gap : K
  threshold : K

end OutboxPayloads

section Parsers

variable {K : Type}

/-- A required property that is one of the labels of an enumeration. -/
def Json.requiredEnum {α : Type} (schema : String → Option α) (name : String) (value : Json K) :
    Option α :=
  (value.required Json.asString? name).bind schema

def parseSystemPowerplayUpdatedOutboxPayload (payload : Json K) :
    Option (SystemPowerplayUpdatedOutboxPayload K) := do
  let systemId ← payload.required Json.asString? "systemId"
  let changedFields ← payload.required Json.asStrings? "changedFields"
  let source ← payload.optional Json.asString? "source"
  let metadata ← payload.optional Json.asRecord? "metadata"
  pure { systemId, changedFields, source, metadata }

def parseFactionPresenceChangedOutboxPayload (payload : Json K) :
    Option FactionPresenceChangedOutboxPayload := do
  let factionId ← payload.required Json.asString? "factionId"
  let systemId ← payload.required Json.asString? "systemId"
  let change ← payload.requiredEnum factionPresenceChangeSchema "change"
  pure { factionId, systemId, change }

def parseFactionStateChangedOutboxPayload (payload : Json K) :
    Option FactionStateChangedOutboxPayload := do
  let factionId ← payload.required Json.asString? "factionId"
  let systemId ← payload.required Json.asString? "systemId"
  let stateKind ← payload.requiredEnum factionStateKindSchema "stateKind"
  let state ← payload.required Json.asString? "state"
  let lifecycle ← payload.requiredEnum factionStateLifecycleSchema "lifecycle"
  let opponentFactionId ← payload.optional Json.asString? "opponentFactionId"
  pure { factionId, systemId, stateKind, state, lifecycle, opponentFactionId }

def parseFactionControlThreatChangedOutboxPayload (payload : Json K) :
    Option (FactionControlThreatChangedOutboxPayload K) := do
  let factionId ← payload.required Json.asString? "factionId"
  let systemId ← payload.required Json.asString? "systemId"
  let status ← payload.requiredEnum factionControlThreatStatusSchema "status"
  let challengerFactionId ← payload.required Json.asString? "challengerFactionId"
  let gap ← payload.required Json.asNumber? "gap"
  let threshold ← payload.required Json.asNumber? "threshold"
  pure { factionId, systemId, status, challengerFactionId, gap, threshold }

end Parsers

/-! ## Payloads for subscribers -/

section Payloads

variable (K : Type)

structure SystemPowerplayUpdatedPayload where
  systemId : String
  powerId : String
  changedFields : List SystemPowerplayChangedField
  timestamp : String
  metadata : List (String × Json K)

structure FactionPresenceChangedPayload where
  factionId : String
  systemId : String
  change : FactionPresenceChange
  timestamp : String

structure FactionStateChangedPayload where
  factionId : String
  systemId : String
  stateKind : FactionStateKind
  state : String
  lifecycle : FactionStateLifecycle
  opponentFactionId : Option String
  timestamp : String

structure FactionControlThreatChangedPayload where
  factionId : String
  systemId : String
  status : FactionControlThreatStatus
  challengerFactionId : String
  gap : K
  threshold : K
  timestamp : String

inductive RealtimePayload where
  | systemPowerplayUpdated (payload : SystemPowerplayUpdatedPayload K)
  | factionPresenceChanged (payload : FactionPresenceChangedPayload)
  | factionStateChanged (payload : FactionStateChangedPayload)
  | factionControlThreatChanged (payload : FactionControlThreatChangedPayload K)

end Payloads

/-- The object that `JSON.stringify` prints. -/
def RealtimePayload.toJson {K : Type} : RealtimePayload K → Json K
  | .systemPowerplayUpdated payload =>
      .object [("event", .string systemPowerplayUpdatedEvent),
        ("systemId", .string payload.systemId), ("powerId", .string payload.powerId),
        ("changedFields", .array (payload.changedFields.map fun field => .string field.label)),
        ("timestamp", .string payload.timestamp), ("metadata", .object payload.metadata)]
  | .factionPresenceChanged payload =>
      .object [("event", .string factionPresenceChangedEvent),
        ("factionId", .string payload.factionId), ("systemId", .string payload.systemId),
        ("change", .string payload.change.label), ("timestamp", .string payload.timestamp)]
  | .factionStateChanged payload =>
      .object ([("event", .string factionStateChangedEvent),
        ("factionId", .string payload.factionId), ("systemId", .string payload.systemId),
        ("stateKind", .string payload.stateKind.label), ("state", .string payload.state),
        ("lifecycle", .string payload.lifecycle.label)] ++
        (payload.opponentFactionId.toList.map fun id => ("opponentFactionId", .string id)) ++
        [("timestamp", .string payload.timestamp)])
  | .factionControlThreatChanged payload =>
      .object [("event", .string factionControlThreatChangedEvent),
        ("factionId", .string payload.factionId), ("systemId", .string payload.systemId),
        ("status", .string payload.status.label),
        ("challengerFactionId", .string payload.challengerFactionId),
        ("gap", .number payload.gap), ("threshold", .number payload.threshold),
        ("timestamp", .string payload.timestamp)]

/-! ## Publish targets -/

/-- A channel and the payload that is published on it. -/
structure PublishTarget (K : Type) where
  channel : String
  payload : RealtimePayload K

/-- What the handling of an outbox row can raise. -/
inductive RelayError where
  | invalidTime
  | invalidUuid
deriving DecidableEq

section Builders

variable {K : Type}

/-- `new Date(createdAt).toISOString()`. -/
def timestampFromCreatedAt (createdAt : Timestamp) : Except RelayError String :=
  orFail .invalidTime (toISOString (createdAt / 1000))

def filterSystemPowerplayChangedFields (fields : List String) :
    List SystemPowerplayChangedField :=
  fields.filterMap systemPowerplayChangedFieldSchema

def buildFactionPresenceChangedPublishTarget (outboxPayload : Json K) (createdAt : Timestamp) :
    Except RelayError (Option (PublishTarget K)) :=
  match parseFactionPresenceChangedOutboxPayload outboxPayload with
  | none => pure none
  | some parsed => do
      let timestamp ← timestampFromCreatedAt createdAt
      pure (some
        { channel := getFactionPresenceChangedFactionChannel parsed.factionId
          payload := .factionPresenceChanged
            { factionId := parsed.factionId, systemId := parsed.systemId, change := parsed.change
              timestamp } })

def buildFactionStateChangedPublishTarget (outboxPayload : Json K) (createdAt : Timestamp) :
    Except RelayError (Option (PublishTarget K)) :=
  match parseFactionStateChangedOutboxPayload outboxPayload with
  | none => pure none
  | some parsed => do
      let timestamp ← timestampFromCreatedAt createdAt
      pure (some
        { channel := getFactionStateChangedFactionChannel parsed.factionId
          payload := .factionStateChanged
            { factionId := parsed.factionId, systemId := parsed.systemId
              stateKind := parsed.stateKind, state := parsed.state, lifecycle := parsed.lifecycle
              -- An empty id is falsy and left out.
              opponentFactionId := parsed.opponentFactionId.filter fun id => id ≠ ""
              timestamp } })

def buildFactionControlThreatChangedPublishTarget (outboxPayload : Json K)
    (createdAt : Timestamp) : Except RelayError (Option (PublishTarget K)) :=
  match parseFactionControlThreatChangedOutboxPayload outboxPayload with
  | none => pure none
  | some parsed => do
      let timestamp ← timestampFromCreatedAt createdAt
      pure (some
        { channel := getFactionControlThreatChangedFactionChannel parsed.factionId
          payload := .factionControlThreatChanged
            { factionId := parsed.factionId, systemId := parsed.systemId, status := parsed.status
              challengerFactionId := parsed.challengerFactionId, gap := parsed.gap
              threshold := parsed.threshold, timestamp } })

def buildSystemPowerplayUpdatedPowerScopedPayload (outboxPayload : Json K)
    (createdAt : Timestamp) (powerId : String) :
    Except RelayError (Option (SystemPowerplayUpdatedPayload K)) :=
  match parseSystemPowerplayUpdatedOutboxPayload outboxPayload with
  | none => pure none
  | some parsed => do
      let timestamp ← timestampFromCreatedAt createdAt
      pure (some
        { systemId := parsed.systemId, powerId
          changedFields := filterSystemPowerplayChangedFields parsed.changedFields
          timestamp, metadata := parsed.metadata.getD [] })

/-- The loop over the powers, with the targets so far. -/
def pushSystemPowerplayPublishTargets (outboxPayload : Json K) (createdAt : Timestamp)
    (targets : List (PublishTarget K)) :
    List String → Except RelayError (List (PublishTarget K))
  | [] => pure targets
  | powerId :: rest => do
      let payload ← buildSystemPowerplayUpdatedPowerScopedPayload outboxPayload createdAt powerId
      match payload with
      | none => pure []
      | some payload =>
          pushSystemPowerplayPublishTargets outboxPayload createdAt
            (targets ++ [{ channel := getSystemPowerplayUpdatedPowerChannel powerId
                           payload := .systemPowerplayUpdated payload }]) rest

def buildSystemPowerplayPublishTargets (outboxPayload : Json K) (createdAt : Timestamp)
    (powerIds : List String) : Except RelayError (List (PublishTarget K)) :=
  pushSystemPowerplayPublishTargets outboxPayload createdAt [] powerIds

end Builders

end EliteHubVault
