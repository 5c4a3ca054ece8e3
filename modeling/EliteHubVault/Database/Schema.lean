import EliteHubVault.Platform.Json

/-!
# The tables

The enumerations and rows of the schema and the database as the worker and the
triggers see it. A table carries its unique constraints: `Clash` says when two rows
of it break one. `systemFactionControlThreats` has one row per system, so it is a
map from systems.

`eventOutbox` is the log of all rows that triggers have inserted, in insertion
order. The deletions that the relay makes are part of the relay's own state.

A transaction takes from its environment its start time, the value of each
`new Date()` and the values of `gen_random_uuid()`, statement by statement
(`TxEnv`). A statement that draws an id which the table already holds fails.
-/

set_option autoImplicit false

namespace EliteHubVault

open Library

/-! ## Enumerations -/

inductive SystemSecurity where
  | anarchy | low | medium | high
deriving DecidableEq

inductive StationType where
  | coriolis | orbis | ocellus | dodec | outpost | planetaryPort | planetaryOutpost
  | asteroidBase | megaShip | onFootSettlement
deriving DecidableEq

inductive FactionHappiness where
  | elated | happy | discontented | unhappy | despondent
deriving DecidableEq

inductive FactionConflictType where
  | civilWar | election | war
deriving DecidableEq

/-- The label of the enumeration in the database. -/
def FactionConflictType.label : FactionConflictType → String
  | .civilWar => "CivilWar"
  | .election => "Election"
  | .war => "War"

inductive FactionConflictStatus where
  | pending | active | concluded
deriving DecidableEq

inductive FactionGovernment where
  | anarchy | communism | confederacy | cooperative | corporate | democracy | dictatorship
  | feudal | imperial | patronage | prison | prisonColony | theocracy | workshop
deriving DecidableEq

inductive Economy where
  | agriculture | colony | damaged | engineer | extraction | highTech | industrial | military
  | prison | privateEnterprise | refinery | repair | rescue | service | terraforming | tourism
deriving DecidableEq

inductive Allegiance where
  | alliance | empire | federation | independent | pirate | pilotsFederation | thargoids
  | guardians
deriving DecidableEq

inductive FactionState where
  | blight | boom | bust | civilLiberty | civilUnrest | civilWar | coldWar | colonisation
  | drought | election | expansion | famine | historicEvent | incursion | infested
  | infrastructureFailure | investment | lockdown | naturalDisaster | outbreak | pirateAttack
  | publicHoliday | revolution | retreat | technologicalLeap | terroristAttack | tradeWar | war
deriving DecidableEq

/-- The label of the enumeration in the database. -/
def FactionState.label : FactionState → String
  | .blight => "Blight"
  | .boom => "Boom"
  | .bust => "Bust"
  | .civilLiberty => "CivilLiberty"
  | .civilUnrest => "CivilUnrest"
  | .civilWar => "CivilWar"
  | .coldWar => "ColdWar"
  | .colonisation => "Colonisation"
  | .drought => "Drought"
  | .election => "Election"
  | .expansion => "Expansion"
  | .famine => "Famine"
  | .historicEvent => "HistoricEvent"
  | .incursion => "Incursion"
  | .infested => "Infested"
  | .infrastructureFailure => "InfrastructureFailure"
  | .investment => "Investment"
  | .lockdown => "Lockdown"
  | .naturalDisaster => "NaturalDisaster"
  | .outbreak => "Outbreak"
  | .pirateAttack => "PirateAttack"
  | .publicHoliday => "PublicHoliday"
  | .revolution => "Revolution"
  | .retreat => "Retreat"
  | .technologicalLeap => "TechnologicalLeap"
  | .terroristAttack => "TerroristAttack"
  | .tradeWar => "TradeWar"
  | .war => "War"

inductive PowerplayState where
  | unoccupied | stronghold | exploited | fortified
deriving DecidableEq

/-- The services a station can list in `servicesV2`. -/
def stationServiceValues : List String :=
  ["apexinterstellar", "autodock", "bartender", "blackmarket", "carriermanagement",
    "carriervendor", "colonisationcontribution", "commodities", "contacts", "crewlounge",
    "dock", "engineer", "exploration", "facilitator", "flightcontroller",
    "frontlinesolutions", "livery", "materialtrader", "missions", "missionsgenerated",
    "modulepacks", "ondockmission", "outfitting", "pioneersupplies", "powerplay", "rearm",
    "refinery", "refuel", "registeringcolonisation", "repair", "searchrescue", "shipyard",
    "shop", "socialspace", "stationmenu", "stationoperations", "techbroker", "tuning",
    "vistagenomics"]

/-- A supported service. -/
abbrev StationService := { name : String // name ∈ stationServiceValues }

/-! ## Rows -/

section Rows

variable (K : Type)

structure SystemRow where
  id : Uuid
  name : String
  systemAddress : K
  x : K
  y : K
  z : K
  population : K
  government : Option FactionGovernment
  allegiance : Option Allegiance
  economy : Option Economy
  secondEconomy : Option Economy
  security : Option SystemSecurity
  controllingFactionId : Option Uuid
  powerplayState : Option PowerplayState
  powerplayStateControlProgress : Option K
  powerplayStateReinforcement : Option K
  powerplayStateUndermining : Option K
  createdAt : Timestamp
  updatedAt : Timestamp

structure FactionRow where
  id : Uuid
  name : String
  government : FactionGovernment
  allegiance : Allegiance
  createdAt : Timestamp
  updatedAt : Timestamp

structure SystemFactionRow where
  systemId : Uuid
  factionId : Uuid
  createdAt : Timestamp
  updatedAt : Timestamp

/-- A state as the message lists it; only pending and recovering states carry a trend. -/
structure StateEntry where
  state : String
  trend : Option K
deriving DecidableEq

structure FactionStateRow where
  id : Uuid
  factionId : Uuid
  systemId : Uuid
  happiness : Option FactionHappiness
  influence : K
  activeStates : List FactionState
  recoveringStates : List FactionState
  pendingStates : List FactionState
  activeStatesRaw : List (StateEntry K)
  recoveringStatesRaw : List (StateEntry K)
  pendingStatesRaw : List (StateEntry K)
  createdAt : Timestamp
  updatedAt : Timestamp

structure FactionConflictRow where
  id : Uuid
  systemId : Uuid
  factionId : Uuid
  opponentFactionId : Option Uuid
  type : FactionConflictType
  status : FactionConflictStatus
  factionWonDays : K
  opponentWonDays : K
  factionStake : Option String
  factionStakeStationId : Option Uuid
  opponentStake : Option String
  opponentStakeStationId : Option Uuid
  createdAt : Timestamp
  updatedAt : Timestamp

/-- An element of the `economies` column; a name that maps to nothing is dropped. -/
structure StationEconomyShare where
  name : Option (Option Economy)
  proportion : K

structure StationRow where
  id : Uuid
  name : String
  marketId : Option K
  stationType : Option StationType
  systemId : Uuid
  controllingFactionId : Uuid
  distanceFromStar : K
  allegiance : Option Allegiance
  government : Option FactionGovernment
  economy : Option Economy
  economies : List (StationEconomyShare K)
  services : List (Json K)
  servicesV2 : List StationService
  landingPadsSmall : K
  landingPadsMedium : K
  landingPadsLarge : K
  createdAt : Timestamp
  updatedAt : Timestamp

structure PowerplayPowerRow where
  id : Uuid
  name : String

structure SystemPowerplayPowerRow where
  systemId : Uuid
  powerId : Uuid
deriving DecidableEq

structure PowerplayConflictRow where
  id : Uuid
  systemId : Uuid
  powerId : Uuid
  conflictProgress : K
  createdAt : Timestamp
  updatedAt : Timestamp

/-- A row of `systemFactionControlThreats`, without its key. -/
structure ControlThreatRow where
  factionId : Option Uuid
  challengerFactionId : Option Uuid
  gap : Option K
  isThreatened : Bool
  updatedAt : Timestamp

/-- The columns of `eventOutbox` that a trigger gives. -/
structure OutboxInsert where
  eventType : String
  aggregateId : Option Uuid
  payload : Json K

structure OutboxRow extends OutboxInsert K where
  createdAt : Timestamp

end Rows

/-! ## Unique constraints -/

section Constraints

variable {K : Type} [DecidableEq K]

/-- The primary key and the unique system address. -/
def SystemRow.Clash (row row' : SystemRow K) : Prop :=
  row.id = row'.id ∨ row.systemAddress = row'.systemAddress

/-- The primary key and the unique `citext` name. -/
def FactionRow.Clash (P : Platform K) (row row' : FactionRow) : Prop :=
  row.id = row'.id ∨ P.citext row.name = P.citext row'.name

/-- The primary key of `systemFactions`. -/
def SystemFactionRow.key (row : SystemFactionRow) : Uuid × Uuid := (row.systemId, row.factionId)

def SystemFactionRow.Clash (row row' : SystemFactionRow) : Prop := row.key = row'.key

/-- The conflict target of `factionStates`. -/
def FactionStateRow.key (row : FactionStateRow K) : Uuid × Uuid := (row.factionId, row.systemId)

def FactionStateRow.Clash (row row' : FactionStateRow K) : Prop :=
  row.id = row'.id ∨ row.key = row'.key

/-- The conflict target of `factionConflicts`. -/
def FactionConflictRow.key (row : FactionConflictRow K) : Uuid × Uuid × Option Uuid :=
  (row.systemId, row.factionId, row.opponentFactionId)

/-- Two null opponents are distinct for the constraint. -/
def FactionConflictRow.Clash (row row' : FactionConflictRow K) : Prop :=
  row.id = row'.id ∨ (row.opponentFactionId.isSome ∧ row.key = row'.key)

/-- The primary key, the unique market id and the unique name within a system. -/
def StationRow.Clash (P : Platform K) (row row' : StationRow K) : Prop :=
  row.id = row'.id ∨ (row.marketId.isSome ∧ row.marketId = row'.marketId) ∨
    (row.systemId = row'.systemId ∧ P.citext row.name = P.citext row'.name)

def PowerplayPowerRow.Clash (P : Platform K) (row row' : PowerplayPowerRow) : Prop :=
  row.id = row'.id ∨ P.citext row.name = P.citext row'.name

def SystemPowerplayPowerRow.Clash (row row' : SystemPowerplayPowerRow) : Prop := row = row'

def PowerplayConflictRow.key (row : PowerplayConflictRow K) : Uuid × Uuid :=
  (row.systemId, row.powerId)

def PowerplayConflictRow.Clash (row row' : PowerplayConflictRow K) : Prop :=
  row.id = row'.id ∨ row.key = row'.key

instance : DecidableRel (SystemRow.Clash (K := K)) := fun _ _ =>
  inferInstanceAs (Decidable (_ ∨ _))

instance (P : Platform K) : DecidableRel (FactionRow.Clash P) := fun _ _ =>
  inferInstanceAs (Decidable (_ ∨ _))

instance : DecidableRel SystemFactionRow.Clash := fun _ _ =>
  inferInstanceAs (Decidable (_ = _))

instance : DecidableRel (FactionStateRow.Clash (K := K)) := fun _ _ =>
  inferInstanceAs (Decidable (_ ∨ _))

instance : DecidableRel (FactionConflictRow.Clash (K := K)) := fun _ _ =>
  inferInstanceAs (Decidable (_ ∨ _))

instance (P : Platform K) : DecidableRel (StationRow.Clash P) := fun _ _ =>
  inferInstanceAs (Decidable (_ ∨ _))

instance (P : Platform K) : DecidableRel (PowerplayPowerRow.Clash P) := fun _ _ =>
  inferInstanceAs (Decidable (_ ∨ _))

instance : DecidableRel SystemPowerplayPowerRow.Clash := fun _ _ =>
  inferInstanceAs (Decidable (_ = _))

instance : DecidableRel (PowerplayConflictRow.Clash (K := K)) := fun _ _ =>
  inferInstanceAs (Decidable (_ ∨ _))

end Constraints

/-! ## The database -/

/-- The tables that worker transactions and their triggers read and write. -/
structure Db {K : Type} (P : Platform K) where
  systems : Table (SystemRow K) SystemRow.Clash
  factions : Table FactionRow (FactionRow.Clash P)
  systemFactions : Table SystemFactionRow SystemFactionRow.Clash
  factionStates : Table (FactionStateRow K) FactionStateRow.Clash
  factionConflicts : Table (FactionConflictRow K) FactionConflictRow.Clash
  stations : Table (StationRow K) (StationRow.Clash P)
  powerplayPowers : Table PowerplayPowerRow (PowerplayPowerRow.Clash P)
  systemPowerplayPowers : Table SystemPowerplayPowerRow SystemPowerplayPowerRow.Clash
  powerplayConflicts : Table (PowerplayConflictRow K) PowerplayConflictRow.Clash
  systemFactionControlThreats : OrderedMap Uuid (ControlThreatRow K)
  eventOutbox : List (OutboxRow K)

namespace Db

variable {K : Type} {P : Platform K}

/-- Empty tables. -/
def empty : Db P where
  systems := .empty
  factions := .empty
  systemFactions := .empty
  factionStates := .empty
  factionConflicts := .empty
  stations := .empty
  powerplayPowers := .empty
  systemPowerplayPowers := .empty
  powerplayConflicts := .empty
  systemFactionControlThreats := .empty
  eventOutbox := []

/-- `INSERT INTO "eventOutbox"`; `createdAt` defaults to the start of the transaction. -/
def enqueue (now : Timestamp) (inserts : List (OutboxInsert K)) (db : Db P) : Db P :=
  { db with eventOutbox := db.eventOutbox ++ inserts.map fun insert => ⟨insert, now⟩ }

@[simp] theorem enqueue_nil (now : Timestamp) (db : Db P) : db.enqueue now [] = db := by
  simp [enqueue]

@[simp] theorem systems_enqueue (now : Timestamp) (inserts : List (OutboxInsert K)) (db : Db P) :
    (db.enqueue now inserts).systems = db.systems := rfl

@[simp] theorem factionStates_enqueue (now : Timestamp) (inserts : List (OutboxInsert K))
    (db : Db P) : (db.enqueue now inserts).factionStates = db.factionStates := rfl

@[simp] theorem systemFactionControlThreats_enqueue (now : Timestamp)
    (inserts : List (OutboxInsert K)) (db : Db P) :
    (db.enqueue now inserts).systemFactionControlThreats = db.systemFactionControlThreats := rfl

@[simp] theorem eventOutbox_enqueue (now : Timestamp) (inserts : List (OutboxInsert K))
    (db : Db P) : (db.enqueue now inserts).eventOutbox =
      db.eventOutbox ++ inserts.map fun insert => ⟨insert, now⟩ := rfl

end Db

/-- A faction has at most one row of states in a system. -/
theorem distinctFactionStates {K : Type} {P : Platform K} (db : Db P) :
    (db.factionStates.rows.map FactionStateRow.key).Nodup :=
  List.pairwise_map.mpr (db.factionStates.unique.imp fun apart same => apart (.inr same))

/-! ## The environment of a transaction -/

/-- The statements of a worker transaction that read the clock or draw ids. -/
inductive Statement where
  | upsertSystem
  | upsertFactions
  | syncSystemControllingFaction
  | upsertSystemFactions
  | upsertFactionStates
  | upsertFactionConflicts
  | upsertPowerplayPowers
  | upsertPowerplayConflicts
  | upsertStationFaction
  | upsertStation
deriving DecidableEq

/-- What a transaction takes from its environment. -/
structure TxEnv where
  now : Timestamp
  newDate : Statement → Timestamp
  randomUuid : Statement → ℕ → Uuid

/-- Why a transaction was rolled back. -/
inductive TxError where
  | schema
  | uniqueViolation
  | affectsRowTwice
  | notNullViolation
  | invalidPowerplayPowers
  | missingRow
deriving DecidableEq

end EliteHubVault
