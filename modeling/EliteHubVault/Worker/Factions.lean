import EliteHubVault.Worker.Systems

/-!
# Factions

The factions of a system with their presence, states and conflicts. The ids of the
message's factions are looked up by the names under which they are stored, in an object
literal, so a name in another case is not found and a name that every object has fails.
-/

set_option autoImplicit false

namespace EliteHubVault

open Library

variable {K : Type}

/-! ## Factions and their ids -/

/-- A faction as `upsertFactions` takes it. -/
structure MessageFaction where
  name : String
  government : String
  allegiance : String

/-- `FactionsInsertSchema.parse`, and the row that the statement proposes. -/
def parseFactionInsert (P : Platform K) (now : Timestamp) (id : Uuid) (faction : MessageFaction) :
    Option FactionRow := do
  let government ← (mapGovernment P (some faction.government)).required
  let allegiance ← (mapAllegiance P (some faction.allegiance)).required
  pure { id, name := faction.name, government, allegiance, createdAt := now, updatedAt := now }

/-- The proposed rows; each draws its id. -/
def proposedFactions (P : Platform K) (env : TxEnv) (statement : Statement)
    (messageFactions : List MessageFaction) : Option (List FactionRow) :=
  (messageFactions.mapIdx fun index faction =>
    parseFactionInsert P env.now (env.randomUuid statement index) faction).mapM id

/-- `ON CONFLICT (name) DO UPDATE SET`. -/
def FactionRow.setExcluded (updatedAt : Timestamp) (row excluded : FactionRow) : FactionRow :=
  { row with government := excluded.government, allegiance := excluded.allegiance, updatedAt }

/-- The inserted and updated factions, in the order of the message. -/
def upsertFactions {P : Platform K} (env : TxEnv) (statement : Statement)
    (messageFactions : List MessageFaction) (db : Db P) :
    Except TxError (Db P × List FactionRow) :=
  if messageFactions = [] then
    pure (db, [])
  else do
    let proposed ← orFail .schema (proposedFactions P env statement messageFactions)
    let outcome ← orFail .affectsRowTwice (upsertRows (fun row => P.citext row.name)
      (FactionRow.setExcluded (env.newDate statement)) (fun _ _ => true) proposed
      db.factions.rows)
    let written ← orFail .uniqueViolation (Table.write outcome)
    pure ({ db with factions := written.1 }, outcome.2.filterMap Change.new?)

/-- `createFactionIdMap`. Assigning a string to `__proto__` sets nothing. -/
def createFactionIdMap (factions : List FactionRow) : OrderedMap String Uuid :=
  factions.foldl
    (fun acc faction =>
      if faction.name = "__proto__" then acc else acc.set faction.name faction.id)
    .empty

/-- `factionIdMap[name]`. -/
def lookupFactionId (factionIdMap : OrderedMap String Uuid) (name : String) : JsLookup Uuid :=
  match factionIdMap.get name with
  | some id => .value id
  | none => if name ∈ objectPrototypeKeys then .inherited else .undefined

variable [Field K] [LinearOrder K] {P : Platform K}

/-! ## Presence -/

def upsertSystemFactions (env : TxEnv) (systemId : Uuid) (factionIds : List Uuid) (db : Db P) :
    Except TxError (Db P) := do
  let proposed : List SystemFactionRow := factionIds.map fun factionId =>
    { systemId, factionId, createdAt := env.now, updatedAt := env.now }
  let db ← orFail .uniqueViolation
    (db.writeSystemFactions env.now
      (insertOrSkip SystemFactionRow.key proposed db.systemFactions.rows))
  orFail .uniqueViolation
    (db.writeSystemFactions env.now (deleteRows
      (fun row => row.systemId = systemId ∧ row.factionId ∉ factionIds) db.systemFactions.rows))

/-! ## States and control -/

def cleanupFactionStates (env : TxEnv) (systemId : Uuid) (factionIds : List Uuid) (db : Db P) :
    Except TxError (Db P) :=
  orFail .uniqueViolation
    (db.writeFactionStates env.now (deleteRows
      (fun row => row.systemId = systemId ∧ row.factionId ∉ factionIds) db.factionStates.rows))

/-- `SET "controllingFactionId", "updatedAt"`. -/
def SystemRow.setControl (factionId : Uuid) (updatedAt : Timestamp) (row : SystemRow K) :
    SystemRow K :=
  { row with controllingFactionId := some factionId, updatedAt }

/-- A value that is no uuid fails in the database. -/
def syncSystemControllingFaction (env : TxEnv) (systemId : Uuid)
    (controllingFactionId : JsLookup Uuid) (db : Db P) : Except TxError (Db P) :=
  match controllingFactionId with
  | .value factionId =>
      orFail .uniqueViolation (db.writeSystems env.now (updateRows
        (fun row => row.id = systemId)
        (SystemRow.setControl factionId (env.newDate .syncSystemControllingFaction))
        db.systems.rows))
  | .inherited => throw .schema
  | _ => pure db

/-- `mapFactionStates`, accepted by the schema of an array of states. -/
def mapFactionStates (P : Platform K) (states : Option (List (StateEntry K))) :
    Option (List FactionState) :=
  (((states.getD []).map fun state => mapFactionState P (some state.state)).filter fun state =>
    state ≠ .null ∧ state ≠ .undefined).mapM JsLookup.required

/-- The validated row of one faction. -/
def parseFactionStateInsert (P : Platform K) (env : TxEnv) (systemId : Uuid)
    (factionIdMap : OrderedMap String Uuid) (index : ℕ) (faction : FactionElement K) :
    Option (FactionStateRow K) := do
  let factionId ← (lookupFactionId factionIdMap faction.name).required
  let happiness ← (mapHappiness P (some faction.happiness)).nullable
  guard (P.isDouble faction.influence)
  let activeStates ← mapFactionStates P faction.activeStates
  let recoveringStates ← mapFactionStates P faction.recoveringStates
  let pendingStates ← mapFactionStates P faction.pendingStates
  pure
    { id := env.randomUuid .upsertFactionStates index
      factionId, systemId, happiness
      influence := faction.influence
      activeStates, recoveringStates, pendingStates
      activeStatesRaw := faction.activeStates.getD []
      recoveringStatesRaw := faction.recoveringStates.getD []
      pendingStatesRaw := faction.pendingStates.getD []
      createdAt := env.now
      updatedAt := env.now }

def FactionStateRow.setExcluded (updatedAt : Timestamp) (row excluded : FactionStateRow K) :
    FactionStateRow K :=
  { row with
    happiness := excluded.happiness
    influence := excluded.influence
    activeStates := excluded.activeStates
    recoveringStates := excluded.recoveringStates
    pendingStates := excluded.pendingStates
    activeStatesRaw := excluded.activeStatesRaw
    recoveringStatesRaw := excluded.recoveringStatesRaw
    pendingStatesRaw := excluded.pendingStatesRaw
    updatedAt }

/-- `setWhere`: some column of the message differs. -/
def FactionStateRow.differs (row excluded : FactionStateRow K) : Bool :=
  row.happiness ≠ excluded.happiness ∨ row.influence ≠ excluded.influence ∨
    row.activeStates ≠ excluded.activeStates ∨ row.recoveringStates ≠ excluded.recoveringStates ∨
    row.pendingStates ≠ excluded.pendingStates ∨ row.activeStatesRaw ≠ excluded.activeStatesRaw ∨
    row.recoveringStatesRaw ≠ excluded.recoveringStatesRaw ∨
    row.pendingStatesRaw ≠ excluded.pendingStatesRaw

def upsertFactionStates (env : TxEnv) (systemId : Uuid) (factions : List (FactionElement K))
    (factionIdMap : OrderedMap String Uuid) (db : Db P) : Except TxError (Db P) := do
  let proposed ← orFail .schema
    ((factions.mapIdx (parseFactionStateInsert P env systemId factionIdMap)).mapM id)
  let outcome ← orFail .affectsRowTwice (upsertRows FactionStateRow.key
    (FactionStateRow.setExcluded (env.newDate .upsertFactionStates)) FactionStateRow.differs
    proposed db.factionStates.rows)
  orFail .uniqueViolation (db.writeFactionStates env.now outcome)

/-! ## Conflicts -/

namespace Db

/-- `WHERE name = $1` on a `citext` column. -/
def findFactionId (name : String) (db : Db P) : Option Uuid :=
  (db.factions.rows.find? fun row => P.citext row.name = P.citext name).map fun row => row.id

def findStationId (name : String) (systemId : Uuid) (db : Db P) : Option Uuid :=
  if name = "" then none
  else (db.stations.rows.find? fun row =>
    P.citext row.name = P.citext name ∧ row.systemId = systemId).map fun row => row.id

end Db

/-- The ids of the two factions of a conflict; one with an unknown faction is skipped. -/
def resolveConflict (db : Db P) (conflict : Conflict K) : Option (Conflict K × Uuid × Uuid) := do
  let faction1Id ← db.findFactionId conflict.faction1.name
  let faction2Id ← db.findFactionId conflict.faction2.name
  pure (conflict, faction1Id, faction2Id)

/-- The validated row of one conflict. -/
def parseFactionConflictInsert (env : TxEnv) (systemId : Uuid) (db : Db P) (index : ℕ)
    (resolved : Conflict K × Uuid × Uuid) : Option (FactionConflictRow K) := do
  let conflict := resolved.1
  let type ← (mapFactionConflictType P (some conflict.warType)).required
  let status ← (mapFactionConflictStatus P (some conflict.status)).required
  guard (P.isSmallint conflict.faction1.wonDays)
  guard (P.isSmallint conflict.faction2.wonDays)
  pure
    { id := env.randomUuid .upsertFactionConflicts index
      systemId
      factionId := resolved.2.1
      opponentFactionId := some resolved.2.2
      type, status
      factionWonDays := conflict.faction1.wonDays
      opponentWonDays := conflict.faction2.wonDays
      factionStake := some conflict.faction1.stake
      factionStakeStationId := db.findStationId conflict.faction1.stake systemId
      opponentStake := some conflict.faction2.stake
      opponentStakeStationId := db.findStationId conflict.faction2.stake systemId
      createdAt := env.now
      updatedAt := env.now }

/-- `conflictsData`; `none` is a schema error. -/
def conflictsData (env : TxEnv) (systemId : Uuid) (db : Db P) (conflicts : List (Conflict K)) :
    List (Option (FactionConflictRow K)) :=
  (conflicts.filterMap (resolveConflict db)).mapIdx (parseFactionConflictInsert env systemId db)

def FactionConflictRow.setExcluded (updatedAt : Timestamp) (row excluded : FactionConflictRow K) :
    FactionConflictRow K :=
  { row with
    type := excluded.type
    status := excluded.status
    factionWonDays := excluded.factionWonDays
    opponentWonDays := excluded.opponentWonDays
    factionStake := excluded.factionStake
    factionStakeStationId := excluded.factionStakeStationId
    opponentStake := excluded.opponentStake
    opponentStakeStationId := excluded.opponentStakeStationId
    updatedAt }

def upsertFactionConflicts (env : TxEnv) (systemId : Uuid) (conflicts : List (Conflict K))
    (db : Db P) : Except TxError (Db P) :=
  let data := conflictsData env systemId db conflicts
  if data = [] then
    orFail .uniqueViolation (db.writeFactionConflicts env.now (deleteRows
      (fun row => row.systemId = systemId) db.factionConflicts.rows))
  else do
    let proposed ← orFail .schema (data.mapM id)
    let outcome ← orFail .affectsRowTwice (upsertRows FactionConflictRow.key
      (FactionConflictRow.setExcluded (env.newDate .upsertFactionConflicts)) (fun _ _ => true)
      proposed db.factionConflicts.rows)
    let insertedConflicts := (outcome.2.filterMap Change.new?).map fun row => row.id
    let db ← orFail .uniqueViolation (db.writeFactionConflicts env.now outcome)
    orFail .uniqueViolation (db.writeFactionConflicts env.now (deleteRows
      (fun row => row.systemId = systemId ∧ row.id ∉ insertedConflicts) db.factionConflicts.rows))

/-! ## All of it -/

/-- The faction that the message names as controlling the system. -/
def controllingFactionIdOf (message : SystemMessage K) (factionIdMap : OrderedMap String Uuid) :
    JsLookup Uuid :=
  match message.systemFaction with
  | none => .null
  | some name => if name = "" then .null else lookupFactionId factionIdMap name

/-- The factions of the message as `upsertFactions` takes them. -/
def FactionElement.messageFaction (faction : FactionElement K) : MessageFaction :=
  { name := faction.name, government := faction.government, allegiance := faction.allegiance }

def processFactionsData (env : TxEnv) (message : SystemMessage K) (systemId : Uuid) (db : Db P) :
    Except TxError (Db P) :=
  let messageFactions := message.factions.getD []
  if messageFactions = [] then
    pure db
  else do
    let (db, factions) ← upsertFactions env .upsertFactions
      (messageFactions.map FactionElement.messageFaction) db
    let factionIdMap := createFactionIdMap factions
    let factionIds := factions.map fun faction => faction.id
    let controllingFactionId := controllingFactionIdOf message factionIdMap
    let db ← upsertSystemFactions env systemId factionIds db
    let db ← cleanupFactionStates env systemId factionIds db
    let db ← syncSystemControllingFaction env systemId controllingFactionId db
    let db ← upsertFactionStates env systemId messageFactions factionIdMap db
    upsertFactionConflicts env systemId (message.conflicts.getD []) db

end EliteHubVault
