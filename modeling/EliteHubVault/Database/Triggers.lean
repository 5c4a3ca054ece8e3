import EliteHubVault.Database.Schema

/-!
# The triggers

Row triggers see one change at a time, statement triggers see the transition tables
of the whole statement. After a statement the row triggers of all its changes fire
first, then its statement triggers. An `INSERT ... ON CONFLICT DO UPDATE` fires the
`UPDATE` statement trigger and then the `INSERT` one, whatever it did.

Lists of systems that SQL produces with `DISTINCT` or `UNION` are visited in order of
first occurrence; the order is not specified by SQL and no result depends on it.
-/

set_option autoImplicit false

namespace EliteHubVault

open Library

variable {K : Type}

/-! ## Presence of factions -/

/-- `enqueue_faction_presence_changed_event`; there is no trigger on updates. -/
def enqueueFactionPresenceChangedEvent : Change SystemFactionRow → List (OutboxInsert K)
  | .insert new =>
      [{ eventType := "factionPresenceChanged"
         aggregateId := some new.systemId
         payload := .object [("factionId", .ofUuid new.factionId),
          ("systemId", .ofUuid new.systemId), ("change", .string "entered")] }]
  | .delete old =>
      [{ eventType := "factionPresenceChanged"
         aggregateId := some old.systemId
         payload := .object [("factionId", .ofUuid old.factionId),
          ("systemId", .ofUuid old.systemId), ("change", .string "left")] }]
  | .update _ _ => []

/-! ## States of factions -/

/-- `EXCEPT`: the rows of the first query that the second does not have, each once. -/
def sqlExcept {α : Type} [DecidableEq α] (values excluded : List α) : List α :=
  distinct (values.filter fun value => value ∉ excluded)

/-- `UNION`: the rows of both queries, each once. -/
def sqlUnion {α : Type} [DecidableEq α] (values others : List α) : List α :=
  distinct (values ++ others)

@[simp] theorem mem_sqlExcept {α : Type} [DecidableEq α] {value : α} {values excluded : List α} :
    value ∈ sqlExcept values excluded ↔ value ∈ values ∧ value ∉ excluded := by
  simp [sqlExcept]

@[simp] theorem mem_sqlUnion {α : Type} [DecidableEq α] {value : α} {values others : List α} :
    value ∈ sqlUnion values others ↔ value ∈ values ∨ value ∈ others := by
  simp [sqlUnion]

theorem sqlExcept_eq_nil {α : Type} [DecidableEq α] {values excluded : List α}
    (covered : ∀ value ∈ values, value ∈ excluded) : sqlExcept values excluded = [] := by
  refine List.eq_nil_iff_forall_not_mem.mpr fun value member => ?_
  obtain ⟨inside, outside⟩ := mem_sqlExcept.mp member
  exact outside (covered value inside)

/-- One event of `emit_faction_state_lifecycle_events`. -/
def factionStateEvent (systemId factionId : Uuid) (lifecycle : String) (state : FactionState) :
    OutboxInsert K where
  eventType := "factionStateChanged"
  aggregateId := some systemId
  payload := .object [("factionId", .ofUuid factionId), ("systemId", .ofUuid systemId),
    ("stateKind", .string "state"), ("state", .string state.label),
    ("lifecycle", .string lifecycle)]

/-- `emit_faction_state_lifecycle_events`. -/
def emitFactionStateLifecycleEvents (systemId factionId : Uuid)
    (oldPending oldActive newPending newActive : List FactionState) : List (OutboxInsert K) :=
  (sqlExcept newPending oldPending).map (factionStateEvent systemId factionId "pending") ++
  (sqlExcept newActive oldActive).map (factionStateEvent systemId factionId "active") ++
  (sqlExcept (sqlUnion oldPending oldActive) (sqlUnion newPending newActive)).map
    (factionStateEvent systemId factionId "ended")

/-- `enqueue_faction_state_changed_events`. -/
def enqueueFactionStateChangedEvents : Change (FactionStateRow K) → List (OutboxInsert K)
  | .insert new =>
      emitFactionStateLifecycleEvents new.systemId new.factionId [] []
        new.pendingStates new.activeStates
  | .update old new =>
      emitFactionStateLifecycleEvents new.systemId new.factionId old.pendingStates
        old.activeStates new.pendingStates new.activeStates
  | .delete old =>
      emitFactionStateLifecycleEvents old.systemId old.factionId old.pendingStates
        old.activeStates [] []

/-- Unchanged state lists emit nothing. -/
@[simp] theorem emitFactionStateLifecycleEvents_self (systemId factionId : Uuid)
    (pending active : List FactionState) :
    emitFactionStateLifecycleEvents (K := K) systemId factionId pending active pending active =
      [] := by
  simp [emitFactionStateLifecycleEvents, sqlExcept_eq_nil]

/-! ## Conflicts of factions -/

/-- `jsonb_strip_nulls` of an object whose values are scalars. -/
def jsonbStripNulls (fields : List (String × Json K)) : Json K :=
  .object (fields.filter fun field => match field.2 with
    | .null => false
    | _ => true)

/-- `emit_faction_conflict_lifecycle_event`. -/
def emitFactionConflictLifecycleEvent (row : FactionConflictRow K) (lifecycle : String) :
    OutboxInsert K where
  eventType := "factionStateChanged"
  aggregateId := some row.systemId
  payload := jsonbStripNulls [("factionId", .ofUuid row.factionId),
    ("systemId", .ofUuid row.systemId), ("stateKind", .string "conflict"),
    ("state", .string row.type.label), ("lifecycle", .string lifecycle),
    ("opponentFactionId", .ofNullable .ofUuid row.opponentFactionId)]

/-- The lifecycle of a conflict; a concluded one has none. -/
def FactionConflictStatus.lifecycle : FactionConflictStatus → Option String
  | .pending => some "pending"
  | .active => some "active"
  | .concluded => none

/-- `enqueue_faction_conflict_changed_events`. -/
def enqueueFactionConflictChangedEvents (change : Change (FactionConflictRow K)) :
    List (OutboxInsert K) :=
  let old : Option (FactionConflictRow K) := match change with
    | .insert _ => none
    | .update old _ => some old
    | .delete old => some old
  let new := change.new?
  let oldLifecycle := old.bind fun row => row.status.lifecycle
  let newLifecycle := new.bind fun row => row.status.lifecycle
  let signatureChanged : Bool := match change with
    | .update old new =>
        old.type ≠ new.type ∨ old.opponentFactionId ≠ new.opponentFactionId
    | _ => false
  let ended := match old with
    | none => []
    | some row =>
        if oldLifecycle.isSome ∧
            (newLifecycle = none ∨ signatureChanged ∨ oldLifecycle ≠ newLifecycle) then
          [emitFactionConflictLifecycleEvent row "ended"]
        else []
  let begun := match new, newLifecycle with
    | some row, some lifecycle =>
        if oldLifecycle = none ∨ signatureChanged ∨ oldLifecycle ≠ newLifecycle then
          [emitFactionConflictLifecycleEvent row lifecycle]
        else []
    | _, _ => []
  ended ++ begun

/-- An update that keeps type, opponent and status emits nothing. -/
theorem enqueueFactionConflictChangedEvents_of_same {old new : FactionConflictRow K}
    (type : old.type = new.type) (opponent : old.opponentFactionId = new.opponentFactionId)
    (status : old.status = new.status) :
    enqueueFactionConflictChangedEvents (.update old new) = [] := by
  cases known : new.status.lifecycle <;>
    simp [enqueueFactionConflictChangedEvents, Change.new?, type, opponent, status, known]

/-! ## Powerplay of systems -/

/-- `enqueue_system_powerplay_updated_event`. -/
def enqueueSystemPowerplayUpdatedEvent [DecidableEq K] (old new : SystemRow K) :
    List (OutboxInsert K) :=
  let changedFields :=
    (if new.powerplayState ≠ old.powerplayState then ["powerplayState"] else []) ++
    (if new.powerplayStateControlProgress ≠ old.powerplayStateControlProgress then
      ["powerplayStateControlProgress"] else []) ++
    (if new.powerplayStateReinforcement ≠ old.powerplayStateReinforcement then
      ["powerplayStateReinforcement"] else []) ++
    (if new.powerplayStateUndermining ≠ old.powerplayStateUndermining then
      ["powerplayStateUndermining"] else [])
  if changedFields = [] then []
  else
    [{ eventType := "systemPowerplayUpdated"
       aggregateId := some new.id
       payload := .object [("event", .string "systemPowerplayUpdated"),
        ("systemId", .ofUuid new.id),
        ("changedFields", .array (changedFields.map .string)),
        ("source", .string "eddn-worker"), ("metadata", .object [])] }]

/-! ## Threats to the controlling faction -/

section ControlThreat

variable [Field K] [LinearOrder K]

/-- `ORDER BY influence DESC, "updatedAt" DESC, "createdAt" DESC, "factionId" ASC`: the
first row may stand before the second. -/
def RankedBefore (row row' : FactionStateRow K) : Prop :=
  row'.influence < row.influence ∨ row.influence = row'.influence ∧
    (row'.updatedAt < row.updatedAt ∨ row.updatedAt = row'.updatedAt ∧
      (row'.createdAt < row.createdAt ∨ row.createdAt = row'.createdAt ∧
        row.factionId.bits ≤ row'.factionId.bits))

instance : DecidableRel (RankedBefore (K := K)) := fun _ _ => inferInstanceAs (Decidable (_ ∨ _))

/-- The literal of the threshold, in any field. -/
instance atLeastTwo_ten : Nat.AtLeastTwo 10 := ⟨by decide⟩

/-- `v_threshold`. -/
def controlThreatThreshold : K := 1 / 10

/-- The row that `refresh_system_faction_control_threat` computes for a system with this
controlling faction and these faction states. -/
def controlThreatOf (now : Timestamp) (controllingFactionId : Option Uuid)
    (states : List (FactionStateRow K)) : ControlThreatRow K :=
  let controllerInfluence : Option K := controllingFactionId.bind fun controller =>
    (states.find? fun row => row.factionId = controller).map fun row => row.influence
  let challenger : Option (FactionStateRow K) := match controllingFactionId, controllerInfluence with
    | some controller, some _ =>
        ((states.filter fun row => row.factionId ≠ controller).insertionSort RankedBefore).head?
    | _, _ => none
  let gap : Option K := match controllerInfluence, challenger with
    | some influence, some row => some (influence - row.influence)
    | _, _ => none
  { factionId := controllingFactionId
    challengerFactionId := challenger.map fun row => row.factionId
    gap := gap
    isThreatened := gap.any fun gap => gap ≤ controlThreatThreshold
    updatedAt := now }

/-- The payload of a control threat event. -/
def controlThreatEvent (systemId : Uuid) (factionId : Option Uuid) (status : String)
    (challengerFactionId : Option Uuid) (gap : Option K) : OutboxInsert K where
  eventType := "factionControlThreatChanged"
  aggregateId := some systemId
  payload := .object [("factionId", .ofNullable .ofUuid factionId),
    ("systemId", .ofUuid systemId), ("status", .string status),
    ("challengerFactionId", .ofNullable .ofUuid challengerFactionId),
    ("gap", .ofNullable .number gap), ("threshold", .number controlThreatThreshold)]

/-- The events of a refresh, from the previous row of the system and the computed one. -/
def controlThreatEvents (systemId : Uuid) (previous : Option (ControlThreatRow K))
    (row : ControlThreatRow K) : List (OutboxInsert K) :=
  let entered := controlThreatEvent systemId row.factionId "entered" row.challengerFactionId row.gap
  match previous with
  | none => if row.isThreatened then [entered] else []
  | some previousState =>
      if previousState.isThreatened ≠ row.isThreatened then
        if row.isThreatened then [entered]
        else
          [controlThreatEvent systemId (previousState.factionId <|> row.factionId) "cleared"
            (previousState.challengerFactionId <|> row.challengerFactionId)
            (previousState.gap <|> row.gap <|> some controlThreatThreshold)]
      else []

namespace Db

variable {P : Platform K}

/-- The controlling faction of a system; a system that does not exist has none. -/
def controllingFactionOf (db : Db P) (systemId : Uuid) : Option Uuid :=
  (db.systems.rows.find? fun row => row.id = systemId).bind fun row => row.controllingFactionId

/-- The faction states of a system. -/
def statesOf (db : Db P) (systemId : Uuid) : List (FactionStateRow K) :=
  db.factionStates.rows.filter fun row => row.systemId = systemId

/-- The row that a refresh of a system computes. -/
def currentControlThreat (now : Timestamp) (systemId : Uuid) (db : Db P) : ControlThreatRow K :=
  controlThreatOf now (db.controllingFactionOf systemId) (db.statesOf systemId)

/-- `refresh_system_faction_control_threat`. -/
def refreshSystemFactionControlThreat (now : Timestamp) (db : Db P) (systemId : Uuid) : Db P :=
  let row := db.currentControlThreat now systemId
  let previous := db.systemFactionControlThreats.get systemId
  { db.enqueue now (controlThreatEvents systemId previous row) with
    systemFactionControlThreats := db.systemFactionControlThreats.set systemId row }

end Db

/-! ## Which triggers a statement fires -/

/-- The systems that `refresh_system_faction_control_threats_from_faction_states` visits
after an update. -/
def updatedSystemIds (changes : List (Change (FactionStateRow K))) : List Uuid :=
  sqlUnion ((changes.filterMap Change.updated?).map fun versions => versions.2.systemId)
    ((changes.filterMap Change.updated?).map fun versions => versions.1.systemId)

/-- The systems visited after an insert. -/
def insertedSystemIds (changes : List (Change (FactionStateRow K))) : List Uuid :=
  distinct ((changes.filterMap Change.inserted?).map fun row => row.systemId)

/-- The systems visited after a delete. -/
def deletedSystemIds (changes : List (Change (FactionStateRow K))) : List Uuid :=
  distinct ((changes.filterMap Change.deleted?).map fun row => row.systemId)

namespace Db

variable {P : Platform K}

/-- The triggers on `factionStates`. A statement trigger whose transition table is empty
refreshes nothing, so the triggers that a statement does not fire can be run too. -/
def afterFactionStates (now : Timestamp) (changes : List (Change (FactionStateRow K)))
    (db : Db P) : Db P :=
  let lifecycle := db.enqueue now (changes.flatMap enqueueFactionStateChangedEvents)
  let updated := (updatedSystemIds changes).foldl (refreshSystemFactionControlThreat now) lifecycle
  let inserted := (insertedSystemIds changes).foldl (refreshSystemFactionControlThreat now) updated
  (deletedSystemIds changes).foldl (refreshSystemFactionControlThreat now) inserted

/-- The triggers on one change of `systems`, by name:
`systems_controlling_faction_threat_refresh_trigger`, then
`systems_powerplay_updated_outbox_trigger`. Both fire on updates only. -/
def afterSystemChange (now : Timestamp) (db : Db P) : Change (SystemRow K) → Db P
  | .update old new =>
      let refreshed := if new.controllingFactionId ≠ old.controllingFactionId then
        db.refreshSystemFactionControlThreat now new.id else db
      refreshed.enqueue now (enqueueSystemPowerplayUpdatedEvent old new)
  | _ => db

/-- The triggers on `systems`. -/
def afterSystems (now : Timestamp) (changes : List (Change (SystemRow K))) (db : Db P) : Db P :=
  changes.foldl (afterSystemChange now) db

/-- The triggers on `systemFactions`. -/
def afterSystemFactions (now : Timestamp) (changes : List (Change SystemFactionRow)) (db : Db P) :
    Db P :=
  db.enqueue now (changes.flatMap enqueueFactionPresenceChangedEvent)

/-- The trigger on `factionConflicts`. -/
def afterFactionConflicts (now : Timestamp) (changes : List (Change (FactionConflictRow K)))
    (db : Db P) : Db P :=
  db.enqueue now (changes.flatMap enqueueFactionConflictChangedEvents)

/-! ## Statements with their triggers -/

/-- A statement on `factionStates`: what it leaves and its changes, then the triggers.
It fails when it breaks a unique constraint. -/
def writeFactionStates (now : Timestamp)
    (outcome : List (FactionStateRow K) × List (Change (FactionStateRow K))) (db : Db P) :
    Option (Db P) :=
  (Table.write outcome).map fun written =>
    { db with factionStates := written.1 }.afterFactionStates now written.2

/-- A statement on `systems`. -/
def writeSystems (now : Timestamp)
    (outcome : List (SystemRow K) × List (Change (SystemRow K))) (db : Db P) : Option (Db P) :=
  (Table.write outcome).map fun written =>
    { db with systems := written.1 }.afterSystems now written.2

/-- A statement on `systemFactions`. -/
def writeSystemFactions (now : Timestamp)
    (outcome : List SystemFactionRow × List (Change SystemFactionRow)) (db : Db P) :
    Option (Db P) :=
  (Table.write outcome).map fun written =>
    { db with systemFactions := written.1 }.afterSystemFactions now written.2

/-- A statement on `factionConflicts`. -/
def writeFactionConflicts (now : Timestamp)
    (outcome : List (FactionConflictRow K) × List (Change (FactionConflictRow K))) (db : Db P) :
    Option (Db P) :=
  (Table.write outcome).map fun written =>
    { db with factionConflicts := written.1 }.afterFactionConflicts now written.2

/-- `DELETE FROM stations`. The foreign keys of `factionConflicts` are `ON DELETE SET NULL`,
one update for each of them, with its trigger. -/
def deleteStations (now : Timestamp) (where_ : StationRow K → Bool) (db : Db P) :
    Option (Db P) :=
  let deleted : List Uuid := (db.stations.rows.filter where_).map fun row => row.id
  let db := { db with stations := (db.stations.delete where_).1 }
  (db.writeFactionConflicts now (updateRows
      (fun row => row.factionStakeStationId.any fun id => id ∈ deleted)
      (fun row => { row with factionStakeStationId := none }) db.factionConflicts.rows)).bind
    fun db => db.writeFactionConflicts now (updateRows
      (fun row => row.opponentStakeStationId.any fun id => id ∈ deleted)
      (fun row => { row with opponentStakeStationId := none }) db.factionConflicts.rows)

/-! ## What a refresh leaves alone -/

@[simp] theorem systems_refresh (now : Timestamp) (db : Db P) (systemId : Uuid) :
    (db.refreshSystemFactionControlThreat now systemId).systems = db.systems := rfl

@[simp] theorem factionStates_refresh (now : Timestamp) (db : Db P) (systemId : Uuid) :
    (db.refreshSystemFactionControlThreat now systemId).factionStates = db.factionStates := rfl

@[simp] theorem threats_refresh (now : Timestamp) (db : Db P) (systemId : Uuid) :
    (db.refreshSystemFactionControlThreat now systemId).systemFactionControlThreats =
      db.systemFactionControlThreats.set systemId (db.currentControlThreat now systemId) := rfl

@[simp] theorem eventOutbox_refresh (now : Timestamp) (db : Db P) (systemId : Uuid) :
    (db.refreshSystemFactionControlThreat now systemId).eventOutbox = db.eventOutbox ++
      (controlThreatEvents systemId (db.systemFactionControlThreats.get systemId)
        (db.currentControlThreat now systemId)).map fun insert => ⟨insert, now⟩ := rfl

/-- What a refresh computes depends on the states and the controller of the system only. -/
theorem currentControlThreat_congr {db db' : Db P} (systems : db.systems = db'.systems)
    (states : db.factionStates = db'.factionStates) (now : Timestamp) (systemId : Uuid) :
    db.currentControlThreat now systemId = db'.currentControlThreat now systemId := by
  simp [currentControlThreat, controllingFactionOf, statesOf, systems, states]

@[simp] theorem currentControlThreat_enqueue (now at_ : Timestamp) (systemId : Uuid) (db : Db P)
    (inserts : List (OutboxInsert K)) :
    (db.enqueue at_ inserts).currentControlThreat now systemId =
      db.currentControlThreat now systemId :=
  currentControlThreat_congr rfl rfl now systemId

@[simp] theorem currentControlThreat_refresh (now at_ : Timestamp) (systemId other : Uuid)
    (db : Db P) :
    (db.refreshSystemFactionControlThreat at_ other).currentControlThreat now systemId =
      db.currentControlThreat now systemId :=
  currentControlThreat_congr rfl rfl now systemId

end Db

end ControlThreat

end EliteHubVault
