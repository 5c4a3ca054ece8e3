import EliteHubVault.Worker.Factions
import EliteHubVault.Worker.Powerplay

/-!
# Stations

The services of a station and the station that a message describes. A regular station is
found by its market id and by its name within the system, a stronghold carrier is the one
carrier of its system; rows that the survivor makes obsolete are deleted.
-/

set_option autoImplicit false

namespace EliteHubVault

open Library

variable {K : Type}

/-! ## Services -/

def normalizeServiceValues (P : Platform K) (services : List (Json K)) : List String :=
  services.flatMap fun service =>
    match service with
    | .string text => [P.toLowerCase (P.trim text)].filter fun text => text ≠ ""
    | _ => []

/-- The supported services of `partitionStationServices`. -/
def supportedServices (services : List String) : List StationService :=
  services.filterMap fun service =>
    if supported : service ∈ stationServiceValues then some ⟨service, supported⟩ else none

/-- The two columns that a station write sets; `none` leaves a column out. -/
structure StationWritePayload where
  services : Option (List String)
  servicesV2 : Option (List StationService)

def normalizeStationServices (P : Platform K) (rawServices : Option (List String)) :
    StationWritePayload :=
  match rawServices with
  | none => ⟨none, none⟩
  | some services =>
      let legacyServices := normalizeServiceValues P (services.map .string)
      ⟨some legacyServices, some (supportedServices legacyServices)⟩

def deriveServicesV2FromLegacyServices (P : Platform K) (legacyServices : List (Json K)) :
    List StationService :=
  supportedServices (normalizeServiceValues P legacyServices)

def buildStationWritePayload (P : Platform K) (incoming : StationWritePayload)
    (persistedServices : List (Json K)) (persistedServicesV2 : List StationService) :
    StationWritePayload :=
  match incoming.services with
  | some services => ⟨some services, some (incoming.servicesV2.getD [])⟩
  | none =>
      if persistedServicesV2.length = 0 ∧ 0 < persistedServices.length then
        ⟨none, some (deriveServicesV2FromLegacyServices P persistedServices)⟩
      else ⟨none, none⟩

def prepareStationWritePayload (P : Platform K) (incomingServices : Option (List String))
    (persistedServices : List (Json K)) (persistedServicesV2 : List StationService) :
    StationWritePayload :=
  buildStationWritePayload P (normalizeStationServices P incomingServices) persistedServices
    persistedServicesV2

/-! ## The data of a message -/

/-- What `buildStationDataFromLocation` and `buildStationDataFromDocked` build. -/
structure StationData (K : Type) where
  name : String
  marketId : K
  stationType : JsLookup StationType
  systemId : Uuid
  controllingFactionId : Uuid
  distanceFromStar : K
  allegiance : JsLookup Allegiance
  government : JsLookup FactionGovernment
  economy : JsLookup Economy
  economies : Option (List (StationEconomyShare K))
  services : Option (List String)
  landingPadsSmall : Option K
  landingPadsMedium : Option K
  landingPadsLarge : Option K

/-- An element of `economies`; JSON drops a name that is no value. -/
def stationEconomyShare (P : Platform K) (economy : StationEconomy K) : StationEconomyShare K where
  name := match mapEconomy P (some economy.name) with
    | .value found => some (some found)
    | .null => some none
    | _ => none
  proportion := economy.proportion

def buildStationDataFromDocked (P : Platform K) (message : DockedMessage K) (systemId : Uuid)
    (controllingFactionId : Uuid) : StationData K where
  name := message.stationName
  marketId := message.marketId
  stationType := mapStationType P (some message.stationType)
  systemId := systemId
  controllingFactionId := controllingFactionId
  distanceFromStar := message.distFromStarLS
  allegiance := mapAllegiance P message.stationAllegiance
  government := mapGovernment P (some message.stationGovernment)
  economy := mapEconomy P (some message.stationEconomy)
  economies := some (message.stationEconomies.map (stationEconomyShare P))
  services := some (message.stationServices.map P.toLowerCase)
  landingPadsSmall := some message.landingPads.small
  landingPadsMedium := some message.landingPads.medium
  landingPadsLarge := some message.landingPads.large

/-- What `hasRequiredStationData` has checked to be present. -/
structure RequiredStationData (K : Type) where
  stationName : String
  stationGovernment : String
  marketId : K
  stationFaction : String
  distFromStarLS : K

def requiredStationData [Zero K] [DecidableEq K] (message : LocationMessage K) :
    Option (RequiredStationData K) := do
  guard message.docked
  let stationName ← message.stationName.filter fun text => text ≠ ""
  let stationGovernment ← message.stationGovernment.filter fun text => text ≠ ""
  let marketId ← message.marketId.filter fun marketId => marketId ≠ 0
  let stationFaction ← message.stationFaction
  let distFromStarLS ← message.distFromStarLS
  pure { stationName, stationGovernment, marketId, stationFaction, distFromStarLS }

def buildStationDataFromLocation (P : Platform K) (message : LocationMessage K)
    (required : RequiredStationData K) (systemId : Uuid) (controllingFactionId : Uuid) :
    StationData K where
  name := required.stationName
  marketId := required.marketId
  stationType := mapStationType P message.stationType
  systemId := systemId
  controllingFactionId := controllingFactionId
  distanceFromStar := required.distFromStarLS
  allegiance := mapAllegiance P message.stationAllegiance
  government := mapGovernment P (some required.stationGovernment)
  economy := mapEconomy P message.stationEconomy
  economies := message.stationEconomies.map fun economies => economies.map (stationEconomyShare P)
  services := message.stationServices.map fun services => services.map P.toLowerCase
  landingPadsSmall := none
  landingPadsMedium := none
  landingPadsLarge := none

/-! ## The insert schema -/

/-- What `StationsInsertSchema` returns; `none` is a property that was left out. -/
structure StationInsert (K : Type) where
  name : String
  marketId : K
  stationType : Option (Option StationType)
  systemId : Uuid
  controllingFactionId : Uuid
  distanceFromStar : K
  allegiance : Option (Option Allegiance)
  government : Option (Option FactionGovernment)
  economy : Option (Option Economy)
  economies : Option (List (StationEconomyShare K))
  services : Option (List String)
  servicesV2 : Option (List StationService)
  landingPadsSmall : Option K
  landingPadsMedium : Option K
  landingPadsLarge : Option K

/-- `StationsInsertSchema.parse` of the data with the write payload. -/
def parseStationInsert (P : Platform K) (data : StationData K) (payload : StationWritePayload) :
    Option (StationInsert K) := do
  guard (P.isBigint data.marketId)
  let stationType ← data.stationType.nullish
  guard (P.isDouble data.distanceFromStar)
  let allegiance ← data.allegiance.nullish
  let government ← data.government.nullish
  let economy ← data.economy.nullish
  guard (data.landingPadsSmall.all P.isSmallint)
  guard (data.landingPadsMedium.all P.isSmallint)
  guard (data.landingPadsLarge.all P.isSmallint)
  pure
    { name := data.name, marketId := data.marketId, stationType, systemId := data.systemId
      controllingFactionId := data.controllingFactionId
      distanceFromStar := data.distanceFromStar, allegiance, government, economy
      economies := data.economies, services := payload.services, servicesV2 := payload.servicesV2
      landingPadsSmall := data.landingPadsSmall, landingPadsMedium := data.landingPadsMedium
      landingPadsLarge := data.landingPadsLarge }

/-- The row of `INSERT INTO stations`; columns left out get their defaults. -/
def StationInsert.row [Zero K] (insert : StationInsert K) (env : TxEnv) : StationRow K where
  id := env.randomUuid .upsertStation 0
  name := insert.name
  marketId := some insert.marketId
  stationType := insert.stationType.getD none
  systemId := insert.systemId
  controllingFactionId := insert.controllingFactionId
  distanceFromStar := insert.distanceFromStar
  allegiance := insert.allegiance.getD none
  government := insert.government.getD none
  economy := insert.economy.getD none
  economies := insert.economies.getD []
  services := (insert.services.getD []).map .string
  servicesV2 := insert.servicesV2.getD []
  landingPadsSmall := insert.landingPadsSmall.getD 0
  landingPadsMedium := insert.landingPadsMedium.getD 0
  landingPadsLarge := insert.landingPadsLarge.getD 0
  createdAt := env.now
  updatedAt := env.now

/-- `SET ...data, "updatedAt"`; what was left out keeps its value. -/
def StationInsert.set (insert : StationInsert K) (updatedAt : Timestamp) (row : StationRow K) :
    StationRow K :=
  { row with
    name := insert.name
    marketId := some insert.marketId
    stationType := insert.stationType.getD row.stationType
    systemId := insert.systemId
    controllingFactionId := insert.controllingFactionId
    distanceFromStar := insert.distanceFromStar
    allegiance := insert.allegiance.getD row.allegiance
    government := insert.government.getD row.government
    economy := insert.economy.getD row.economy
    economies := insert.economies.getD row.economies
    services := (insert.services.map fun services => services.map .string).getD row.services
    servicesV2 := insert.servicesV2.getD row.servicesV2
    landingPadsSmall := insert.landingPadsSmall.getD row.landingPadsSmall
    landingPadsMedium := insert.landingPadsMedium.getD row.landingPadsMedium
    landingPadsLarge := insert.landingPadsLarge.getD row.landingPadsLarge
    updatedAt := updatedAt }

/-- `{ ...data, ...writePayload }` for a station that is in the table. -/
def StationInsert.onto (P : Platform K) (data : StationInsert K) (persisted : StationRow K) :
    StationInsert K :=
  let payload := prepareStationWritePayload P data.services persisted.services persisted.servicesV2
  { data with services := payload.services, servicesV2 := payload.servicesV2 }

/-! ## The upserts -/

variable [Field K] [LinearOrder K]

def hasStrongholdCarrierCharacteristics (station : StationInsert K) : Bool :=
  station.stationType = some (some .planetaryOutpost) ∧ station.economy = some (some .highTech) ∧
    station.landingPadsSmall = some strongholdCarrierSmallPads ∧
    station.landingPadsMedium = some strongholdCarrierMediumPads ∧
    station.landingPadsLarge = some strongholdCarrierLargePads

def isStrongholdCarrier (station : StationInsert K) : Bool :=
  station.name = strongholdCarrierName ∧ hasStrongholdCarrierCharacteristics station

def normalizeStrongholdCarrierName (station : StationInsert K) : StationInsert K :=
  if station.name ∉ strongholdCarrierNames ∨ ¬ hasStrongholdCarrierCharacteristics station ∨
      station.name = strongholdCarrierName then station
  else { station with name := strongholdCarrierName }

variable {P : Platform K}

namespace Db

def findStationByMarketId (marketId : K) (db : Db P) : Option (StationRow K) :=
  db.stations.rows.find? fun row => row.marketId = some marketId

def findStationBySystemAndName (systemId : Uuid) (name : String) (db : Db P) :
    Option (StationRow K) :=
  db.stations.rows.find? fun row => row.systemId = systemId ∧ P.citext row.name = P.citext name

def updateStationById (stationId : Uuid) (data : StationInsert K) (updatedAt : Timestamp)
    (db : Db P) : Except TxError (Db P) := do
  let written ← orFail .uniqueViolation (Table.write (updateRows (fun row => row.id = stationId)
    (data.set updatedAt) db.stations.rows))
  pure { db with stations := written.1 }

def insertStation (env : TxEnv) (data : StationInsert K) (db : Db P) : Except TxError (Db P) := do
  let written ← orFail .uniqueViolation (Table.write (insertRows [data.row env] db.stations.rows))
  pure { db with stations := written.1 }

def deleteStationById (now : Timestamp) (stationId : Uuid) (db : Db P) : Except TxError (Db P) :=
  orFail .uniqueViolation (db.deleteStations now fun row => row.id = stationId)

end Db

def upsertRegularStation (env : TxEnv) (data : StationInsert K) (updatedAt : Timestamp)
    (db : Db P) : Except TxError (Db P) :=
  match db.findStationByMarketId data.marketId,
      db.findStationBySystemAndName data.systemId data.name with
  | none, none => db.insertStation env data
  | some stationByMarketId, some stationBySystemAndName => do
      if stationByMarketId.id ≠ stationBySystemAndName.id then
        let db ← db.deleteStationById env.now stationByMarketId.id
        db.updateStationById stationBySystemAndName.id (data.onto P stationBySystemAndName)
          updatedAt
      else
        db.updateStationById stationByMarketId.id (data.onto P stationByMarketId) updatedAt
  | some survivor, none | none, some survivor =>
      db.updateStationById survivor.id (data.onto P survivor) updatedAt

/-- A station whose market id was reused is deleted unless it is the surviving carrier. -/
def deleteReusedMarketId (env : TxEnv) (marketIdStation survivor : Option (StationRow K))
    (db : Db P) : Except TxError (Db P) :=
  match marketIdStation with
  | some station =>
      if some station.id ≠ survivor.map fun row => row.id then
        db.deleteStationById env.now station.id
      else pure db
  | none => pure db

def upsertStrongholdCarrier (env : TxEnv) (data : StationInsert K) (updatedAt : Timestamp)
    (db : Db P) : Except TxError (Db P) :=
  if db.isSystemCurrentlyStronghold data.systemId then do
    let carrierRows := db.findStrongholdCarriersInSystem data.systemId
    let marketIdStation := db.findStationByMarketId data.marketId
    let survivor := carrierRows.head?
    let db ← carrierRows.tail.foldlM
      (fun db duplicate => db.deleteStationById env.now duplicate.id) db
    let db ← deleteReusedMarketId env marketIdStation survivor db
    match survivor with
    | none => db.insertStation env data
    | some survivor => db.updateStationById survivor.id (data.onto P survivor) updatedAt
  else
    pure db

def upsertStation (env : TxEnv) (data : StationData K) (db : Db P) : Except TxError (Db P) := do
  let writePayload := prepareStationWritePayload P data.services [] []
  let validated ← orFail .schema (parseStationInsert P data writePayload)
  let station := normalizeStrongholdCarrierName validated
  let now := env.newDate .upsertStation
  if isStrongholdCarrier station then
    upsertStrongholdCarrier env station now db
  else
    upsertRegularStation env station now db

def upsertStationFromLocation (env : TxEnv) (message : LocationMessage K) (systemId : Uuid)
    (db : Db P) : Except TxError (Db P) :=
  match requiredStationData message with
  | none => pure db
  | some required =>
      if hasExcludedStationGovernment P message.stationGovernment then pure db
      else do
        let (db, factions) ← upsertFactions env .upsertStationFaction
          [{ name := required.stationFaction
             government := message.stationGovernment.getD "Unknown"
             allegiance := message.stationAllegiance.getD "Independent" }] db
        let controllingFaction ← orFail .missingRow factions.head?
        upsertStation env
          (buildStationDataFromLocation P message required systemId controllingFaction.id) db

def upsertStationFromDocked (env : TxEnv) (message : DockedMessage K) (systemId : Uuid)
    (db : Db P) : Except TxError (Db P) :=
  if hasExcludedStationGovernment P (some message.stationGovernment) then pure db
  else do
    let (db, factions) ← upsertFactions env .upsertStationFaction
      [{ name := message.stationFaction
         government := message.stationGovernment
         allegiance := message.stationAllegiance.getD "Independent" }] db
    let controllingFaction ← orFail .missingRow factions.head?
    upsertStation env (buildStationDataFromDocked P message systemId controllingFaction.id) db

end EliteHubVault
