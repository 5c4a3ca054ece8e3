import EliteHubVault.Worker.Systems

/-!
# Stronghold carriers and powerplay

The powers of a system, their conflicts and the stronghold carriers that disappear when a
system is no stronghold any more. The names of powers are `citext`; the progress of a
conflict is recorded under the power that has exactly the name in the message.
-/

set_option autoImplicit false

namespace EliteHubVault

open Library

variable {K : Type}

/-! ## Stronghold carriers -/

def strongholdCarrierName : String := "Stronghold Carrier"

/-- `STRONGHOLD_CARRIER_NAMES`. -/
def strongholdCarrierNames : List String :=
  [strongholdCarrierName, "Hochburg-Carrier", "Portanaves bastión",
    "Porte-vaisseaux de forteresse", "Transportadora da potência", "Носитель-база"]

section Carriers

variable [Field K] [LinearOrder K]

def strongholdCarrierSmallPads : K := 4

def strongholdCarrierMediumPads : K := 4

def strongholdCarrierLargePads : K := 2

/-- `getStrongholdCarrierPredicate`. -/
def strongholdCarrierPredicate (P : Platform K) (systemId : Uuid) (row : StationRow K) : Bool :=
  row.systemId = systemId ∧ P.citext row.name = P.citext strongholdCarrierName ∧
    row.stationType = some .planetaryOutpost ∧ row.economy = some .highTech ∧
    row.landingPadsSmall = strongholdCarrierSmallPads ∧
    row.landingPadsMedium = strongholdCarrierMediumPads ∧
    row.landingPadsLarge = strongholdCarrierLargePads

namespace Db

variable {P : Platform K}

/-- `ORDER BY "updatedAt" DESC, "createdAt" DESC`. -/
def findStrongholdCarriersInSystem (systemId : Uuid) (db : Db P) : List (StationRow K) :=
  (db.stations.rows.filter (strongholdCarrierPredicate P systemId)).insertionSort fun row row' =>
    row'.updatedAt < row.updatedAt ∨
      row.updatedAt = row'.updatedAt ∧ row'.createdAt ≤ row.createdAt

def deleteStrongholdCarriersInSystem (now : Timestamp) (systemId : Uuid) (db : Db P) :
    Except TxError (Db P) :=
  orFail .uniqueViolation (db.deleteStations now (strongholdCarrierPredicate P systemId))

def isSystemCurrentlyStronghold (systemId : Uuid) (db : Db P) : Bool :=
  (db.systems.rows.find? fun row => row.id = systemId).any fun row =>
    row.powerplayState = some .stronghold

end Db

end Carriers

/-! ## Powers -/

/-- The powers that a message names, lowered; empty names are dropped. -/
def incomingPowersLowercased (P : Platform K) (message : SystemMessage K) : List String :=
  ((message.powers.getD [] ++ message.controllingPower.toList).map P.toLowerCase).filter
    fun power => power ≠ ""

variable [Field K] [LinearOrder K] {P : Platform K}

/-- The stored powers that the message names. -/
def upsertPowerplayPowers (env : TxEnv) (message : SystemMessage K) (db : Db P) :
    Except TxError (Db P × List PowerplayPowerRow) := do
  let incoming := incomingPowersLowercased P message
  if incoming = [] then
    pure (db, [])
  else
    let valid := incoming.filter fun power =>
      power ∈ validPowerplayPowersLowercased P.toLowerCase
    if incoming.length ≠ valid.length then
      throw .invalidPowerplayPowers
    else
      let names ← orFail .notNullViolation
        (valid.mapM fun power => powerplayPowersFromLowercaseMap.lookup power)
      let proposed : List PowerplayPowerRow := names.mapIdx fun index name =>
        { id := env.randomUuid .upsertPowerplayPowers index, name }
      let written ← orFail .uniqueViolation
        (Table.write (insertOrSkip (fun row => P.citext row.name) proposed
          db.powerplayPowers.rows))
      let db := { db with powerplayPowers := written.1 }
      pure (db, db.powerplayPowers.rows.filter fun row =>
        P.citext row.name ∈ names.map P.citext)

def upsertSystemPowerplayPowers (systemId : Uuid) (powerplayPowers : List PowerplayPowerRow)
    (db : Db P) : Except TxError (Db P) :=
  if powerplayPowers = [] then
    pure { db with
      systemPowerplayPowers :=
        (db.systemPowerplayPowers.delete fun row => row.systemId = systemId).1 }
  else do
    let ids := powerplayPowers.map fun power => power.id
    let written ← orFail .uniqueViolation
      (Table.write (insertOrSkip id (ids.map fun powerId => ⟨systemId, powerId⟩)
        db.systemPowerplayPowers.rows))
    pure { db with
      systemPowerplayPowers := (written.1.delete fun row =>
        row.systemId = systemId ∧ row.powerId ∉ ids).1 }

/-- `powerplayConflictsByPowerId`: the last progress that the message gives for each of the
stored powers. -/
def powerplayConflictsByPowerId (message : SystemMessage K)
    (powerplayPowers : List PowerplayPowerRow) : OrderedMap Uuid K :=
  (message.powerplayConflictProgress.getD []).foldl
    (fun conflicts conflict =>
      match powerplayPowers.find? fun power => power.name = conflict.power with
      | none => conflicts
      | some power => conflicts.set power.id conflict.conflictProgress)
    .empty

def upsertPowerplayConflicts (env : TxEnv) (systemId : Uuid) (message : SystemMessage K)
    (powerplayPowers : List PowerplayPowerRow) (db : Db P) : Except TxError (Db P) :=
  let data := (powerplayConflictsByPowerId message powerplayPowers).entries
  if data = [] then
    pure { db with
      powerplayConflicts := (db.powerplayConflicts.delete fun row => row.systemId = systemId).1 }
  else do
    let validated ← orFail .schema
      (if data.all fun conflict => P.isDouble conflict.2 then some data else none)
    let proposed : List (PowerplayConflictRow K) := validated.mapIdx fun index conflict =>
      { id := env.randomUuid .upsertPowerplayConflicts index
        systemId
        powerId := conflict.1
        conflictProgress := conflict.2
        createdAt := env.now
        updatedAt := env.now }
    let outcome ← orFail .affectsRowTwice (upsertRows PowerplayConflictRow.key
      (fun row excluded =>
        { row with
          conflictProgress := excluded.conflictProgress
          updatedAt := env.newDate .upsertPowerplayConflicts })
      (fun _ _ => true) proposed db.powerplayConflicts.rows)
    let written ← orFail .uniqueViolation (Table.write outcome)
    pure { db with
      powerplayConflicts := (written.1.delete fun row =>
        row.systemId = systemId ∧ row.powerId ∉ validated.map Prod.fst).1 }

def processPowerplayData (env : TxEnv) (message : SystemMessage K) (systemId : Uuid) (db : Db P) :
    Except TxError (Db P) := do
  let (db, powerplayPowers) ← upsertPowerplayPowers env message db
  let db ← upsertSystemPowerplayPowers systemId powerplayPowers db
  let db ← upsertPowerplayConflicts env systemId message powerplayPowers db
  if truthy message.powerplayState ∧
      mapPowerplayState P message.powerplayState ≠ .value .stronghold then
    db.deleteStrongholdCarriersInSystem env.now systemId
  else
    pure db

end EliteHubVault
