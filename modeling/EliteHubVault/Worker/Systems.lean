import EliteHubVault.Library.Result
import EliteHubVault.Database.Triggers
import EliteHubVault.Worker.Constants
import EliteHubVault.Worker.Messages

/-!
# Systems

What the worker writes into `systems`. The data of a message is what the code hands to
the insert schema: a property can be missing, null or, after a lookup, something no
schema accepts. The validated data leaves out what was missing, and an update keeps the
column then.
-/

set_option autoImplicit false

namespace EliteHubVault

open Library

variable {K : Type}

/-! ## The data of a message -/

/-- What `buildFullSystemData` and `buildPartialSystemData` build. -/
structure SystemData (K : Type) where
  name : String
  systemAddress : K
  x : Option K
  y : Option K
  z : Option K
  population : Option K
  government : JsLookup FactionGovernment
  allegiance : JsLookup Allegiance
  economy : JsLookup Economy
  secondEconomy : JsLookup Economy
  security : JsLookup SystemSecurity
  powerplayState : JsLookup PowerplayState
  powerplayStateControlProgress : Option K
  powerplayStateReinforcement : Option K
  powerplayStateUndermining : Option K

def buildFullSystemData (P : Platform K) (message : SystemMessage K) : SystemData K where
  name := message.starSystem
  systemAddress := message.systemAddress
  x := message.starPos[0]?
  y := message.starPos[1]?
  z := message.starPos[2]?
  population := some message.population
  government := mapGovernment P (some message.systemGovernment)
  allegiance := mapAllegiance P (some message.systemAllegiance)
  economy := mapEconomy P (some message.systemEconomy)
  secondEconomy := mapEconomy P (some message.systemSecondEconomy)
  security := mapSecurity P (some message.systemSecurity)
  powerplayState := mapPowerplayState P message.powerplayState
  powerplayStateControlProgress := message.powerplayStateControlProgress
  powerplayStateReinforcement := message.powerplayStateReinforcement
  powerplayStateUndermining := message.powerplayStateUndermining

def buildPartialSystemData (message : DockedMessage K) : SystemData K where
  name := message.starSystem
  systemAddress := message.systemAddress
  x := message.starPos[0]?
  y := message.starPos[1]?
  z := message.starPos[2]?
  population := none
  government := .undefined
  allegiance := .undefined
  economy := .undefined
  secondEconomy := .undefined
  security := .undefined
  powerplayState := .undefined
  powerplayStateControlProgress := none
  powerplayStateReinforcement := none
  powerplayStateUndermining := none

/-! ## The insert schema -/

/-- What `SystemsInsertSchema` returns; `none` is a property that was left out. -/
structure SystemInsert (K : Type) where
  name : String
  systemAddress : K
  x : K
  y : K
  z : K
  population : Option K
  government : Option (Option FactionGovernment)
  allegiance : Option (Option Allegiance)
  economy : Option (Option Economy)
  secondEconomy : Option (Option Economy)
  security : Option (Option SystemSecurity)
  powerplayState : Option (Option PowerplayState)
  powerplayStateControlProgress : Option K
  powerplayStateReinforcement : Option K
  powerplayStateUndermining : Option K

/-- `SystemsInsertSchema.parse`. -/
def parseSystemInsert (P : Platform K) (data : SystemData K) : Option (SystemInsert K) := do
  guard (P.isBigint data.systemAddress)
  let x ← data.x.filter P.isDouble
  let y ← data.y.filter P.isDouble
  let z ← data.z.filter P.isDouble
  guard (data.population.all P.isBigint)
  let government ← data.government.nullish
  let allegiance ← data.allegiance.nullish
  let economy ← data.economy.nullish
  let secondEconomy ← data.secondEconomy.nullish
  let security ← data.security.nullish
  let powerplayState ← data.powerplayState.nullish
  guard (data.powerplayStateControlProgress.all P.isDouble)
  guard (data.powerplayStateReinforcement.all P.isDouble)
  guard (data.powerplayStateUndermining.all P.isDouble)
  pure
    { name := data.name, systemAddress := data.systemAddress, x, y, z
      population := data.population, government, allegiance, economy, secondEconomy, security
      powerplayState
      powerplayStateControlProgress := data.powerplayStateControlProgress
      powerplayStateReinforcement := data.powerplayStateReinforcement
      powerplayStateUndermining := data.powerplayStateUndermining }

/-! ## The upsert -/

/-- The row that `INSERT INTO systems` proposes; columns left out get their defaults. -/
def SystemInsert.row (insert : SystemInsert K) [Zero K] (env : TxEnv) : SystemRow K where
  id := env.randomUuid .upsertSystem 0
  name := insert.name
  systemAddress := insert.systemAddress
  x := insert.x
  y := insert.y
  z := insert.z
  population := insert.population.getD 0
  government := insert.government.getD none
  allegiance := insert.allegiance.getD none
  economy := insert.economy.getD none
  secondEconomy := insert.secondEconomy.getD none
  security := insert.security.getD none
  controllingFactionId := none
  powerplayState := insert.powerplayState.getD none
  powerplayStateControlProgress := insert.powerplayStateControlProgress
  powerplayStateReinforcement := insert.powerplayStateReinforcement
  powerplayStateUndermining := insert.powerplayStateUndermining
  createdAt := env.now
  updatedAt := env.now

/-- `SET ...validatedSystemData, "updatedAt"`; what was left out keeps its value. -/
def SystemInsert.set (insert : SystemInsert K) (updatedAt : Timestamp) (row : SystemRow K) :
    SystemRow K :=
  { row with
    name := insert.name
    systemAddress := insert.systemAddress
    x := insert.x
    y := insert.y
    z := insert.z
    population := insert.population.getD row.population
    government := insert.government.getD row.government
    allegiance := insert.allegiance.getD row.allegiance
    economy := insert.economy.getD row.economy
    secondEconomy := insert.secondEconomy.getD row.secondEconomy
    security := insert.security.getD row.security
    powerplayState := insert.powerplayState.getD row.powerplayState
    powerplayStateControlProgress :=
      insert.powerplayStateControlProgress <|> row.powerplayStateControlProgress
    powerplayStateReinforcement :=
      insert.powerplayStateReinforcement <|> row.powerplayStateReinforcement
    powerplayStateUndermining :=
      insert.powerplayStateUndermining <|> row.powerplayStateUndermining
    updatedAt := updatedAt }

variable [Field K] [LinearOrder K] {P : Platform K}

def upsertSystem (env : TxEnv) (data : SystemData K) (db : Db P) :
    Except TxError (Db P × SystemRow K) := do
  let validated ← orFail .schema (parseSystemInsert P data)
  let outcome ← orFail .affectsRowTwice (upsertRows (fun row => row.systemAddress)
    (fun row _ => validated.set (env.newDate .upsertSystem) row) (fun _ _ => true)
    [validated.row env] db.systems.rows)
  let db ← orFail .uniqueViolation (db.writeSystems env.now outcome)
  let system ← orFail .missingRow (outcome.2.filterMap Change.new?).head?
  pure (db, system)

/-! ## Which messages are kept -/

/-- `shouldUpsertSystem`. -/
def shouldUpsertSystem (P : Platform K) (message : FullSystemMessage K) (data : SystemData K) :
    Bool :=
  let hasPopulation : Bool := data.population.any fun population => 0 < population
  let hasGovernment : Bool := data.government ≠ .null ∧ data.government ≠ .undefined
  let hasFactions : Bool := 0 < (message.system.factions.getD []).length
  let hasStation : Bool := match message with
    | .fsdJump _ => false
    | .location message =>
        !hasExcludedStationGovernment P message.stationGovernment &&
          (message.docked || truthy message.stationName ||
            (message.marketId.any fun marketId => marketId ≠ 0) || truthy message.stationType)
  hasPopulation || hasGovernment || hasFactions || hasStation

def shouldUpsertSystemFromDocked (P : Platform K) (message : DockedMessage K) : Bool :=
  !hasExcludedStationGovernment P (some message.stationGovernment)

end EliteHubVault
