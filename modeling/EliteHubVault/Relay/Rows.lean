import EliteHubVault.Database.Schema
import EliteHubVault.Relay.Realtime

/-!
# How the relay handles a row

A row is published to its targets or discarded. The powers of a system are looked up in the
database, where the system id of the payload, any string, is compared with a `uuid` column:
a text that is no uuid raises an error there, which the relay does not catch for the row but
for the whole batch.
-/

set_option autoImplicit false

namespace EliteHubVault

open Library

variable {K : Type}

/-! ## Targets -/

def buildPublishTargetsForOutboxRow (eventType : String) (outboxPayload : Json K)
    (createdAt : Timestamp) (powerIds : Option (List String)) :
    Except RelayError (Option (List (PublishTarget K))) :=
  if eventType = systemPowerplayUpdatedEvent then do
    let targets ←
      buildSystemPowerplayPublishTargets outboxPayload createdAt (powerIds.getD [])
    pure (some targets)
  else if eventType = factionPresenceChangedEvent then do
    let target ← buildFactionPresenceChangedPublishTarget outboxPayload createdAt
    pure (some target.toList)
  else if eventType = factionStateChangedEvent then do
    let target ← buildFactionStateChangedPublishTarget outboxPayload createdAt
    pure (some target.toList)
  else if eventType = factionControlThreatChangedEvent then do
    let target ← buildFactionControlThreatChangedPublishTarget outboxPayload createdAt
    pure (some target.toList)
  else
    pure none

/-! ## Handling a row -/

structure DiscardRowResult where
  reason : String
  shouldLog : Option Bool

inductive RowHandlingResult (K : Type) where
  | publish (targets : List (PublishTarget K))
  | discard (result : DiscardRowResult)

/-- The targets that a result asks to publish. -/
def RowHandlingResult.targets : RowHandlingResult K → List (PublishTarget K)
  | .publish targets => targets
  | .discard _ => []

inductive PowerIdsResult where
  | ok (powerIds : Option (List String))
  | discard (result : DiscardRowResult)

/-- `resolvePowerIds`, with the rows of `systemPowerplayPowers` that the query sees. -/
def resolvePowerIds (powers : List SystemPowerplayPowerRow) (row : OutboxRow K) :
    Except RelayError PowerIdsResult :=
  if row.eventType ≠ systemPowerplayUpdatedEvent then
    pure (.ok none)
  else
    match parseSystemPowerplayUpdatedOutboxPayload row.payload with
    | none =>
        pure (.discard { reason := "[EventOutboxRelay] Invalid powerplay payload", shouldLog := none })
    | some powerplayPayload => do
        let systemId ← orFail .invalidUuid (Uuid.uuidIn powerplayPayload.systemId)
        let powerRows := powers.filter fun power => power.systemId = systemId
        if powerRows.length = 0 then
          pure (.discard
            { reason :=
                "[EventOutboxRelay] Skipping powerplay outbox row with no mapped powers"
              shouldLog := some false })
        else
          pure (.ok (some (powerRows.map fun power => power.powerId.toText)))

def prepareRowForPublishing (powers : List SystemPowerplayPowerRow) (row : OutboxRow K) :
    Except RelayError (RowHandlingResult K) := do
  let powerIdsResult ← resolvePowerIds powers row
  match powerIdsResult with
  | .discard result => pure (.discard result)
  | .ok powerIds =>
      let targets ←
        buildPublishTargetsForOutboxRow row.eventType row.payload row.createdAt powerIds
      match targets with
      | none =>
          pure (.discard
            { reason := "[EventOutboxRelay] Unknown event type in outbox", shouldLog := none })
      | some [] =>
          pure (.discard
            { reason := "[EventOutboxRelay] Invalid payload or no publish targets built"
              shouldLog := none })
      | some targets => pure (.publish targets)

/-! ## Which rows can be handled -/

/-- `new Date(createdAt)` is a valid date. -/
def ValidCreatedAt (createdAt : Timestamp) : Prop := (toISOString (createdAt / 1000)).isSome

/-- The payload has the shape of a powerplay update, with a system id that is no uuid. -/
def Wedges (row : OutboxRow K) : Prop :=
  row.eventType = systemPowerplayUpdatedEvent ∧
    ∃ parsed, parseSystemPowerplayUpdatedOutboxPayload row.payload = some parsed ∧
      Uuid.uuidIn parsed.systemId = none

section Handling

variable {createdAt : Timestamp} (outboxPayload : Json K)

theorem exists_timestampFromCreatedAt (valid : ValidCreatedAt createdAt) :
    ∃ timestamp, timestampFromCreatedAt createdAt = .ok timestamp := by
  obtain ⟨timestamp, found⟩ := Option.isSome_iff_exists.mp valid
  exact ⟨timestamp, orFail_eq_ok.mpr found⟩

/-- Building a target from a parsed payload succeeds when the date is valid. -/
theorem exists_bind_timestamp {α : Type} (valid : ValidCreatedAt createdAt) (build : String → α) :
    ∃ result, (timestampFromCreatedAt createdAt >>= fun timestamp =>
      (pure (build timestamp) : Except RelayError α)) = .ok result := by
  obtain ⟨timestamp, found⟩ := exists_timestampFromCreatedAt valid
  exact ⟨build timestamp, bind_eq_ok.mpr ⟨timestamp, found, rfl⟩⟩

theorem exists_factionPresenceTarget (valid : ValidCreatedAt createdAt) :
    ∃ target, buildFactionPresenceChangedPublishTarget outboxPayload createdAt = .ok target := by
  unfold buildFactionPresenceChangedPublishTarget
  split
  · exact ⟨none, rfl⟩
  · exact exists_bind_timestamp valid _

theorem exists_factionStateTarget (valid : ValidCreatedAt createdAt) :
    ∃ target, buildFactionStateChangedPublishTarget outboxPayload createdAt = .ok target := by
  unfold buildFactionStateChangedPublishTarget
  split
  · exact ⟨none, rfl⟩
  · exact exists_bind_timestamp valid _

theorem exists_factionControlThreatTarget (valid : ValidCreatedAt createdAt) :
    ∃ target,
      buildFactionControlThreatChangedPublishTarget outboxPayload createdAt = .ok target := by
  unfold buildFactionControlThreatChangedPublishTarget
  split
  · exact ⟨none, rfl⟩
  · exact exists_bind_timestamp valid _

theorem exists_systemPowerplayTargets (valid : ValidCreatedAt createdAt) (powerIds : List String)
    (targets : List (PublishTarget K)) :
    ∃ all, pushSystemPowerplayPublishTargets outboxPayload createdAt targets powerIds =
      .ok all := by
  induction powerIds generalizing targets with
  | nil => exact ⟨targets, rfl⟩
  | cons powerId rest ih =>
      have payload : ∃ payload, buildSystemPowerplayUpdatedPowerScopedPayload outboxPayload
          createdAt powerId = .ok payload := by
        unfold buildSystemPowerplayUpdatedPowerScopedPayload
        split
        · exact ⟨none, rfl⟩
        · exact exists_bind_timestamp valid _
      obtain ⟨payload, built⟩ := payload
      cases payload with
      | none => exact ⟨[], bind_eq_ok.mpr ⟨none, built, rfl⟩⟩
      | some payload =>
          obtain ⟨all, later⟩ := ih (targets ++
            [{ channel := getSystemPowerplayUpdatedPowerChannel powerId
               payload := .systemPowerplayUpdated payload }])
          exact ⟨all, bind_eq_ok.mpr ⟨some payload, built, later⟩⟩

theorem exists_publishTargets (valid : ValidCreatedAt createdAt) (eventType : String)
    (powerIds : Option (List String)) : ∃ targets,
      buildPublishTargetsForOutboxRow eventType outboxPayload createdAt powerIds = .ok targets := by
  unfold buildPublishTargetsForOutboxRow
  split
  · obtain ⟨targets, built⟩ := exists_systemPowerplayTargets outboxPayload valid
      (powerIds.getD []) []
    exact ⟨some targets, bind_eq_ok.mpr ⟨targets, built, rfl⟩⟩
  · split
    · obtain ⟨target, built⟩ := exists_factionPresenceTarget outboxPayload valid
      exact ⟨some target.toList, bind_eq_ok.mpr ⟨target, built, rfl⟩⟩
    · split
      · obtain ⟨target, built⟩ := exists_factionStateTarget outboxPayload valid
        exact ⟨some target.toList, bind_eq_ok.mpr ⟨target, built, rfl⟩⟩
      · split
        · obtain ⟨target, built⟩ := exists_factionControlThreatTarget outboxPayload valid
          exact ⟨some target.toList, bind_eq_ok.mpr ⟨target, built, rfl⟩⟩
        · exact ⟨none, rfl⟩

end Handling

/-- The look-up of the powers raises an error exactly on rows that wedge. -/
theorem resolvePowerIds_ends_iff (powers : List SystemPowerplayPowerRow) (row : OutboxRow K) :
    (∃ result, resolvePowerIds powers row = .ok result) ↔ ¬ Wedges row := by
  unfold resolvePowerIds
  by_cases powerplay : row.eventType = systemPowerplayUpdatedEvent
  · rw [if_neg (not_not.mpr powerplay)]
    cases parsed : parseSystemPowerplayUpdatedOutboxPayload row.payload with
    | none =>
        refine iff_of_true ⟨_, rfl⟩ ?_
        rintro ⟨-, payload, found, -⟩
        rw [parsed] at found
        cases found
    | some payload =>
        cases systemId : Uuid.uuidIn payload.systemId with
        | none =>
            refine iff_of_false ?_ (not_not.mpr ⟨powerplay, payload, parsed, systemId⟩)
            rintro ⟨result, ended⟩
            obtain ⟨id, impossible, -⟩ := bind_eq_ok.mp ended
            rw [systemId] at impossible
            cases impossible
        | some id =>
            refine iff_of_true ?_ ?_
            · simp only [systemId, orFail, bind, Except.bind]
              split
              · exact ⟨_, rfl⟩
              · exact ⟨_, rfl⟩
            · rintro ⟨-, other, found, invalid⟩
              rw [parsed, Option.some.injEq] at found
              rw [← found, systemId] at invalid
              cases invalid
  · rw [if_pos powerplay]
    exact iff_of_true ⟨_, rfl⟩ fun wedges => powerplay wedges.1

/-- A row that is handled does not wedge. -/
theorem not_wedges_of_prepared {powers : List SystemPowerplayPowerRow} {row : OutboxRow K}
    {result : RowHandlingResult K} (prepared : prepareRowForPublishing powers row = .ok result) :
    ¬ Wedges row := by
  obtain ⟨powerIdsResult, resolved, -⟩ := bind_eq_ok.mp prepared
  exact (resolvePowerIds_ends_iff powers row).mp ⟨powerIdsResult, resolved⟩

/-- **Handling a row ends exactly when the row does not wedge**, whatever its payload is. -/
theorem prepareRowForPublishing_ends_iff (powers : List SystemPowerplayPowerRow)
    {row : OutboxRow K} (valid : ValidCreatedAt row.createdAt) :
    (∃ result, prepareRowForPublishing powers row = .ok result) ↔ ¬ Wedges row := by
  constructor
  · rintro ⟨result, prepared⟩
    exact not_wedges_of_prepared prepared
  · intro handled
    obtain ⟨powerIdsResult, resolved⟩ := (resolvePowerIds_ends_iff powers row).mpr handled
    cases powerIdsResult with
    | discard result => exact ⟨.discard result, bind_eq_ok.mpr ⟨_, resolved, rfl⟩⟩
    | ok powerIds =>
        obtain ⟨targets, built⟩ := exists_publishTargets row.payload valid row.eventType powerIds
        have result : ∃ result, (match targets with
            | none => (pure (.discard
                { reason := "[EventOutboxRelay] Unknown event type in outbox"
                  shouldLog := none }) : Except RelayError (RowHandlingResult K))
            | some [] => pure (.discard
                { reason := "[EventOutboxRelay] Invalid payload or no publish targets built"
                  shouldLog := none })
            | some targets => pure (.publish targets)) = .ok result := by
          cases targets with
          | none => exact ⟨_, rfl⟩
          | some targets => cases targets <;> exact ⟨_, rfl⟩
        obtain ⟨result, ended⟩ := result
        exact ⟨result, bind_eq_ok.mpr ⟨_, resolved, bind_eq_ok.mpr ⟨targets, built, ended⟩⟩⟩

end EliteHubVault
