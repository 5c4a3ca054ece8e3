import EliteHubVault.Worker.LastMessage
import EliteHubVault.Worker.StationIdentity

/-!
# Where stronghold carriers are

A carrier that is recognised is only written into a stronghold, and a message that says that
a system is no stronghold deletes the carriers there. A station that is not recognised can
still become one: its columns are completed by those of the row it is merged onto, and its
name is compared up to case. `WritesStrayCarrier` says when this happens outside of
strongholds; it is the only way (`carriersInStrongholds_processMessage_iff`).
-/

set_option autoImplicit false
set_option linter.unusedSectionVars false

namespace EliteHubVault

open Library

variable {K : Type}

/-! ## The station of a message -/

/-- A column after an update: what was left out keeps its value. -/
def JsLookup.completed {α : Type} (stored : Option α) : JsLookup α → Option α
  | .undefined => stored
  | .value a => some a
  | _ => none

theorem JsLookup.completed_of_nullish {α : Type} {value : JsLookup α} {given : Option (Option α)}
    (read : value.nullish = some given) (stored : Option α) :
    given.getD stored = value.completed stored := by
  cases value <;> cases read <;> rfl

section Carriers

variable [Field K] [LinearOrder K] {P : Platform K}

/-- The type, economy and landing pads of a carrier. -/
def StationData.HasCarrierShape (data : StationData K) : Prop :=
  data.stationType = .value .planetaryOutpost ∧ data.economy = .value .highTech ∧
    data.landingPadsSmall = some strongholdCarrierSmallPads ∧
    data.landingPadsMedium = some strongholdCarrierMediumPads ∧
    data.landingPadsLarge = some strongholdCarrierLargePads

/-- The station is a carrier by itself. -/
def StationData.IsCarrier (data : StationData K) : Prop :=
  data.name ∈ strongholdCarrierNames ∧ data.HasCarrierShape

/-- The station is a carrier when its columns are completed by those of the row it is merged
onto, or by the defaults of a new row. -/
@[mk_iff]
structure StationData.CompletesCarrier (P : Platform K) (data : StationData K)
    (found : Option (StationRow K)) : Prop where
  name : P.citext data.name = P.citext strongholdCarrierName
  stationType : data.stationType.completed (found.bind StationRow.stationType) =
    some .planetaryOutpost
  economy : data.economy.completed (found.bind StationRow.economy) = some .highTech
  landingPadsSmall : data.landingPadsSmall.getD ((found.map StationRow.landingPadsSmall).getD 0) =
    strongholdCarrierSmallPads
  landingPadsMedium :
    data.landingPadsMedium.getD ((found.map StationRow.landingPadsMedium).getD 0) =
      strongholdCarrierMediumPads
  landingPadsLarge : data.landingPadsLarge.getD ((found.map StationRow.landingPadsLarge).getD 0) =
    strongholdCarrierLargePads

/-- What a message says about a station. -/
def stationDataOf (P : Platform K) (systemId controllingFactionId : Uuid) :
    JournalMessage K → Option (StationData K)
  | .fsdJump _ => none
  | .location message =>
      if hasExcludedStationGovernment P message.stationGovernment then none
      else (requiredStationData message).map fun required =>
        buildStationDataFromLocation P message required systemId controllingFactionId
  | .docked message =>
      if hasExcludedStationGovernment P (some message.stationGovernment) then none
      else some (buildStationDataFromDocked P message systemId controllingFactionId)

/-- The address of the system of a message. -/
def JournalMessage.systemAddress : JournalMessage K → K
  | .fsdJump message => message.systemAddress
  | .location message => message.systemAddress
  | .docked message => message.systemAddress

/-- The powerplay state that a message gives its system. -/
def givenPowerplayState (P : Platform K) : JournalMessage K → JsLookup PowerplayState
  | .fsdJump message => mapPowerplayState P message.powerplayState
  | .location message => mapPowerplayState P message.powerplayState
  | .docked _ => .undefined

/-- The system of a message is a stronghold after it. -/
def StrongholdAfter (message : JournalMessage K) (db : Db P) : Prop :=
  givenPowerplayState P message = .value .stronghold ∨
    givenPowerplayState P message = .undefined ∧
      db.columnAt message.systemAddress SystemRow.powerplayState = some .stronghold

/-- The row that a station is merged onto, carriers of its own system apart. -/
def Db.mergeCandidate (data : StationData K) (db : Db P) : Option (StationRow K) :=
  let rows := db.stations.rows.filter fun row => !strongholdCarrierPredicate P data.systemId row
  (rows.find? fun row => row.systemId = data.systemId ∧ P.citext row.name = P.citext data.name).or
    (rows.find? fun row => row.marketId = some data.marketId)

/-- A message makes a row a carrier outside of a stronghold: its station is no carrier by
itself, but is one when it is merged. -/
def WritesStrayCarrier (env : TxEnv) (message : JournalMessage K) (db : Db P) : Prop :=
  ¬ StrongholdAfter message db ∧ ∃ controllingFactionId data,
    stationDataOf P (systemIdAt env message.systemAddress db) controllingFactionId message =
        some data ∧ ¬ data.IsCarrier ∧ data.CompletesCarrier P (db.mergeCandidate data)

/-- A system with this id is a stronghold. -/
def Db.StrongholdAt (db : Db P) (systemId : Uuid) : Prop :=
  ∃ system ∈ db.systems.rows, system.id = systemId ∧ system.powerplayState = some .stronghold

/-- **Stronghold carriers are in strongholds.** -/
def Db.CarriersInStrongholds (db : Db P) : Prop :=
  ∀ row ∈ db.stations.rows, strongholdCarrierPredicate P row.systemId row = true →
    db.StrongholdAt row.systemId

/-! ## The system -/

variable {env : TxEnv} {db db' : Db P}

theorem isSystemCurrentlyStronghold_iff {systemId : Uuid} :
    db.isSystemCurrentlyStronghold systemId = true ↔ db.StrongholdAt systemId := by
  rw [Db.isSystemCurrentlyStronghold, Option.any_eq_true]
  constructor
  · rintro ⟨row, found, state⟩
    exact ⟨row, List.mem_of_find?_eq_some found, by simpa using List.find?_some found,
      of_decide_eq_true state⟩
  · rintro ⟨row, member, rfl, state⟩
    have distinct : (db.systems.rows.map SystemRow.id).Nodup :=
      List.pairwise_map.mpr (db.systems.unique.imp fun apart same => apart (.inl same))
    exact ⟨row, find?_key distinct member, decide_eq_true state⟩

/-- The system that is upserted is a stronghold as its row says. -/
theorem strongholdAt_upserted {data : SystemData K} {system : SystemRow K}
    (done : upsertSystem env data db = .ok (db', system)) :
    db'.StrongholdAt system.id ↔ system.powerplayState = some .stronghold := by
  have present := List.mem_of_find?_eq_some (systemAt_upsertSystem done)
  constructor
  · rintro ⟨row, member, same, state⟩
    rwa [eq_of_systemId present member same.symm]
  · exact fun state => ⟨system, present, rfl, state⟩

/-- Another system is a stronghold after an upsert when it was before. -/
theorem strongholdAt_other {data : SystemData K} {system : SystemRow K} {systemId : Uuid}
    (done : upsertSystem env data db = .ok (db', system)) (other : systemId ≠ system.id) :
    db'.StrongholdAt systemId ↔ db.StrongholdAt systemId := by
  constructor
  · rintro ⟨row, member, rfl, state⟩
    obtain rfl | ⟨old, -⟩ := (mem_upsertSystem done row).mp member
    · exact absurd rfl other
    · exact ⟨row, old, rfl, state⟩
  · rintro ⟨row, member, rfl, state⟩
    refine ⟨row, (mem_upsertSystem done row).mpr (.inr ⟨member, fun same => other ?_⟩), rfl, state⟩
    rw [id_upsertSystem done, systemIdAt, ← same, mem_systems_iff.mp member]
    rfl

/-- The system that is upserted was a stronghold only by its column. -/
theorem columnAt_of_strongholdAt {data : SystemData K} {system : SystemRow K}
    (done : upsertSystem env data db = .ok (db', system)) (before : db.StrongholdAt system.id) :
    db.columnAt data.systemAddress SystemRow.powerplayState = some .stronghold := by
  obtain ⟨row, member, same, state⟩ := before
  by_cases here : row.systemAddress = data.systemAddress
  · rw [Db.columnAt, ← here, mem_systems_iff.mp member]
    exact state
  · -- A row with the drawn id would still be there, next to the new one.
    have kept := (mem_upsertSystem done row).mpr (.inr ⟨member, here⟩)
    have present := List.mem_of_find?_eq_some (systemAt_upsertSystem done)
    have address : system.systemAddress = data.systemAddress := by
      simpa using List.find?_some (systemAt_upsertSystem done)
    rw [eq_of_systemId kept present same] at here
    exact absurd address here

/-! ## The database in which the station is written -/

/-- A database of a transaction, after the system and its powers and factions have been
written: carriers are in strongholds again. -/
structure Entered (env : TxEnv) (message : JournalMessage K) (db entered : Db P) : Prop where
  carriers : entered.CarriersInStrongholds
  stronghold : entered.StrongholdAt (systemIdAt env message.systemAddress db) ↔
    StrongholdAfter message db
  regular : (entered.stations.rows.filter fun row =>
      !strongholdCarrierPredicate P (systemIdAt env message.systemAddress db) row) =
    db.stations.rows.filter fun row =>
      !strongholdCarrierPredicate P (systemIdAt env message.systemAddress db) row

/-- A later database with the same stations and strongholds. -/
theorem Entered.later {message : JournalMessage K} {entered later : Db P}
    (settled : Entered env message db entered) (stations : later.stations = entered.stations)
    (strongholds : ∀ systemId, later.StrongholdAt systemId ↔ entered.StrongholdAt systemId) :
    Entered env message db later :=
  ⟨fun row member carrier => (strongholds _).mpr (settled.carriers row (stations ▸ member) carrier),
    (strongholds _).trans settled.stronghold, by rw [stations, settled.regular]⟩

theorem strongholdAt_congr (same : db'.systems = db.systems) (systemId : Uuid) :
    db'.StrongholdAt systemId ↔ db.StrongholdAt systemId := by
  rw [Db.StrongholdAt, same]
  rfl

theorem strongholdAt_processFactionsData {message : SystemMessage K} {systemId : Uuid}
    (done : processFactionsData env message systemId db = .ok db') (id : Uuid) :
    db'.StrongholdAt id ↔ db.StrongholdAt id := by
  obtain ⟨controlled, factionId, updatedAt, rows⟩ := systems_processFactionsData done
  have kept : ∀ row : SystemRow K, (if controlled row = true then
      row.setControl factionId updatedAt else row).id = row.id ∧ (if controlled row = true then
        row.setControl factionId updatedAt else row).powerplayState = row.powerplayState :=
    fun row => by split <;> exact ⟨rfl, rfl⟩
  rw [Db.StrongholdAt, rows]
  constructor
  · rintro ⟨_, member, same, state⟩
    obtain ⟨row, old, rfl⟩ := List.mem_map.mp member
    exact ⟨row, old, (kept row).1 ▸ same, (kept row).2 ▸ state⟩
  · rintro ⟨row, member, same, state⟩
    exact ⟨_, List.mem_map_of_mem member, (kept row).1.trans same, (kept row).2.trans state⟩

/-- The upsert of the system gives it the state of the message. -/
theorem strongholdAt_upsertSystem {message : JournalMessage K} {data : SystemData K}
    {system : SystemRow K} (done : upsertSystem env data db = .ok (db', system))
    (address : data.systemAddress = message.systemAddress)
    (state : data.powerplayState = givenPowerplayState P message) :
    db'.StrongholdAt system.id ↔ StrongholdAfter message db := by
  obtain ⟨⟨given, read, column⟩, -, -, -⟩ := powerplayWritten_upsertSystem done
  rw [strongholdAt_upserted done, StrongholdAfter, ← state, ← address]
  rw [Db.columnAt, systemAt_upsertSystem done, Option.bind_some] at column
  rw [column, JsLookup.completed_of_nullish read]
  cases data.powerplayState <;> simp [JsLookup.completed]

/-- Carriers stay in strongholds, but for those of the system that is upserted. -/
theorem carriers_upsertSystem {data : SystemData K} {system : SystemRow K}
    (before : db.CarriersInStrongholds) (done : upsertSystem env data db = .ok (db', system))
    {row : StationRow K} (member : row ∈ db'.stations.rows)
    (carrier : strongholdCarrierPredicate P row.systemId row = true) :
    db'.StrongholdAt row.systemId ∨ row.systemId = system.id ∧
      db.columnAt data.systemAddress SystemRow.powerplayState = some .stronghold := by
  rw [frame_upsertSystem done] at member
  have old := before row member carrier
  by_cases here : row.systemId = system.id
  · exact .inr ⟨here, columnAt_of_strongholdAt done (here ▸ old)⟩
  · exact .inl ((strongholdAt_other done here).mpr old)

theorem entered_docked {message : DockedMessage K} {system : SystemRow K}
    (before : db.CarriersInStrongholds)
    (done : upsertSystem env (buildPartialSystemData message) db = .ok (db', system)) :
    Entered env (.docked message) db db' := by
  have after : db'.StrongholdAt system.id ↔ StrongholdAfter (.docked message) db :=
    strongholdAt_upsertSystem done rfl rfl
  have sameId : system.id = systemIdAt env message.systemAddress db := id_upsertSystem done
  refine ⟨fun row member carrier => ?_, sameId ▸ after, by rw [frame_upsertSystem done]⟩
  obtain here | ⟨here, column⟩ := carriers_upsertSystem before done member carrier
  · exact here
  · exact here ▸ after.mpr (.inr ⟨rfl, column⟩)

/-- The carriers that a message deletes. -/
theorem stations_processPowerplayData {message : SystemMessage K} {systemId : Uuid}
    (done : processPowerplayData env message systemId db = .ok db') :
    (¬ (truthy message.powerplayState = true ∧
        mapPowerplayState P message.powerplayState ≠ .value .stronghold) ∧
      db'.stations = db.stations) ∨
    db'.stations.rows = db.stations.rows.filter fun row =>
      !strongholdCarrierPredicate P systemId row := by
  obtain ⟨⟨first, powers⟩, upserted, done⟩ := bind_eq_ok.mp done
  obtain ⟨second, associated, done⟩ := bind_eq_ok.mp done
  obtain ⟨third, conflicts, done⟩ := bind_eq_ok.mp done
  have same : third.stations = db.stations := by
    rw [frame_upsertPowerplayConflicts conflicts, frame_upsertSystemPowerplayPowers associated,
      frame_upsertPowerplayPowers upserted]
  split at done
  · exact .inr (by rw [stations_deleteStations (orFail_eq_ok.mp done), same])
  · rename_i kept
    obtain rfl := pure_eq_ok.mp done
    exact .inl ⟨kept, same⟩

/-- A message without a state says nothing about strongholds. -/
theorem undefined_of_not_truthy (lowers : P.toLowerCase "" = "") {powerplayState : Option String}
    (missing : ¬ truthy powerplayState = true) :
    mapPowerplayState P powerplayState = .undefined := by
  cases powerplayState with
  | none => rfl
  | some text =>
      have empty : text = "" := by simpa [truthy] using missing
      rw [empty, mapPowerplayState, mapValue, lowers]
      rfl

theorem entered_described (lowers : P.toLowerCase "" = "") {message : FullSystemMessage K}
    {afterSystem afterPowers : Db P} {system : SystemRow K} (before : db.CarriersInStrongholds)
    (upserted : upsertSystem env (buildFullSystemData P message.system) db =
      .ok (afterSystem, system))
    (powers : processPowerplayData env message.system system.id afterSystem = .ok afterPowers) :
    Entered env message.toJournal db afterPowers := by
  have given : givenPowerplayState P message.toJournal =
      mapPowerplayState P message.system.powerplayState := by
    cases message <;> rfl
  have address : message.system.systemAddress = message.toJournal.systemAddress := by
    cases message <;> rfl
  have sameSystems : afterPowers.systems = afterSystem.systems := by
    rw [frame_processPowerplayData powers]
  have strongholds := strongholdAt_congr sameSystems
  have after : afterPowers.StrongholdAt system.id ↔ StrongholdAfter message.toJournal db :=
    (strongholds _).trans (strongholdAt_upsertSystem upserted address given.symm)
  have sameId : system.id = systemIdAt env message.toJournal.systemAddress db :=
    address ▸ id_upsertSystem upserted
  have sameStations : afterSystem.stations = db.stations := by rw [frame_upsertSystem upserted]
  refine ⟨?_, sameId ▸ after, ?_⟩
  · obtain ⟨kept, same⟩ | cleared := stations_processPowerplayData powers
    · intro row member carrier
      rw [same] at member
      obtain here | ⟨here, column⟩ := carriers_upsertSystem before upserted member carrier
      · exact (strongholds _).mpr here
      · rw [here, after, StrongholdAfter, given, ← address]
        by_cases said : truthy message.system.powerplayState = true
        · exact .inl (by_contra fun other => kept ⟨said, other⟩)
        · exact .inr ⟨undefined_of_not_truthy lowers said, column⟩
    · intro row member carrier
      rw [cleared] at member
      obtain ⟨old, spared⟩ := List.mem_filter.mp member
      obtain here | ⟨here, -⟩ := carriers_upsertSystem before upserted old carrier
      · exact (strongholds _).mpr here
      · rw [← here, carrier] at spared
        cases spared
  · rw [← sameId, ← sameStations]
    obtain ⟨-, same⟩ | cleared := stations_processPowerplayData powers
    · rw [same]
    · rw [cleared, List.filter_filter]
      simp

/-! ## The station -/

theorem of_parseStationInsert {data : StationData K} {payload : StationWritePayload}
    {validated : StationInsert K} (parsed : parseStationInsert P data payload = some validated) :
    validated.name = data.name ∧ validated.marketId = data.marketId ∧
      validated.systemId = data.systemId ∧
      data.stationType.nullish = some validated.stationType ∧
      data.economy.nullish = some validated.economy ∧
      validated.landingPadsSmall = data.landingPadsSmall ∧
      validated.landingPadsMedium = data.landingPadsMedium ∧
      validated.landingPadsLarge = data.landingPadsLarge := by
  simp only [parseStationInsert, Option.bind_eq_bind, Option.bind_eq_some_iff, Option.pure_def,
    Option.some.injEq] at parsed
  obtain ⟨_, -, type, typed, _, -, _, -, _, -, economy, traded, _, -, _, -, _, -, rfl⟩ := parsed
  exact ⟨rfl, rfl, rfl, typed, traded, rfl, rfl, rfl⟩

theorem nullish_eq_value {α : Type} {value : JsLookup α} {given : Option (Option α)} {a : α}
    (read : value.nullish = some given) : given = some (some a) ↔ value = .value a := by
  cases value <;> cases read <;> simp

/-- The code recognises the carriers among the stations. -/
theorem isStrongholdCarrier_iff {data : StationData K} {payload : StationWritePayload}
    {validated : StationInsert K} (parsed : parseStationInsert P data payload = some validated) :
    isStrongholdCarrier (normalizeStrongholdCarrierName validated) = true ↔ data.IsCarrier := by
  obtain ⟨name, -, -, typed, traded, small, medium, large⟩ := of_parseStationInsert parsed
  have shape : hasStrongholdCarrierCharacteristics validated = true ↔ data.HasCarrierShape := by
    simp only [hasStrongholdCarrierCharacteristics, decide_eq_true_eq, nullish_eq_value typed,
      nullish_eq_value traded, small, medium, large, StationData.HasCarrierShape]
  rw [StationData.IsCarrier, ← shape, ← name]
  unfold normalizeStrongholdCarrierName isStrongholdCarrier
  split
  · rename_i kept
    rw [decide_eq_true_iff]
    constructor
    · rintro ⟨canonical, shaped⟩
      exact ⟨canonical ▸ List.mem_cons_self, shaped⟩
    · rintro ⟨listed, shaped⟩
      obtain unlisted | shapeless | canonical := kept
      · exact absurd listed unlisted
      · exact absurd shaped shapeless
      · exact ⟨canonical, shaped⟩
  · rename_i renamed
    simp only [not_or, not_not] at renamed
    exact iff_of_true (decide_eq_true ⟨rfl, renamed.2.1⟩) ⟨renamed.1, renamed.2.1⟩

/-- A station that is not recognised keeps its name. -/
theorem normalize_of_regular {validated : StationInsert K}
    (regular : ¬ isStrongholdCarrier (normalizeStrongholdCarrierName validated) = true) :
    normalizeStrongholdCarrierName validated = validated := by
  unfold normalizeStrongholdCarrierName at regular ⊢
  split
  · rfl
  · rename_i renamed
    rw [if_neg renamed] at regular
    simp only [not_or, not_not] at renamed
    exact absurd (decide_eq_true ⟨rfl, renamed.2.1⟩) regular

/-- The merged row is a carrier when the station completes one. -/
theorem carrier_merged_iff {data : StationData K} {payload : StationWritePayload}
    {validated : StationInsert K} (parsed : parseStationInsert P data payload = some validated)
    (updatedAt : Timestamp) (found : Option (StationRow K)) :
    strongholdCarrierPredicate P data.systemId (validated.merged P env updatedAt found) = true ↔
      data.CompletesCarrier P found := by
  obtain ⟨name, -, system, typed, traded, small, medium, large⟩ := of_parseStationInsert parsed
  rw [strongholdCarrierPredicate, decide_eq_true_iff, StationData.completesCarrier_iff]
  cases found with
  | none =>
      simp only [StationInsert.merged, StationInsert.row, name, system, small, medium, large,
        JsLookup.completed_of_nullish typed, JsLookup.completed_of_nullish traded, true_and]
      rfl
  | some row =>
      simp only [StationInsert.merged, StationInsert.set, StationInsert.onto, name, system, small,
        medium, large, JsLookup.completed_of_nullish typed, JsLookup.completed_of_nullish traded,
        true_and]
      rfl

/-- The rows of a step are the ones from before, or stations of one system. -/
def Db.StoresIn (systemId : Uuid) (db db' : Db P) : Prop :=
  ∀ row ∈ db'.stations.rows, row ∈ db.stations.rows ∨ row.systemId = systemId

/-- A step leaves the merged station in place of the row it was merged onto, and no other new
row. -/
structure Db.WritesStation (data : StationInsert K) (env : TxEnv) (updatedAt : Timestamp)
    (found : Option (StationRow K)) (db db' : Db P) : Prop where
  old : ∀ row ∈ found, row ∈ db.stations.rows
  member : data.merged P env updatedAt found ∈ db'.stations.rows
  others : ∀ row ∈ db'.stations.rows,
    row ∈ db.stations.rows ∨ row = data.merged P env updatedAt found

theorem StationInsert.systemId_merged (data : StationInsert K) (updatedAt : Timestamp)
    (found : Option (StationRow K)) :
    (data.merged P env updatedAt found).systemId = data.systemId := by
  cases found <;> rfl

theorem Db.WritesStation.storesIn {data : StationInsert K} {updatedAt : Timestamp}
    {found : Option (StationRow K)} (writes : Db.WritesStation data env updatedAt found db db') :
    Db.StoresIn data.systemId db db' := by
  intro row member
  obtain old | rfl := writes.others row member
  · exact .inl old
  · exact .inr (data.systemId_merged updatedAt found)

/-- Deleting rows before the write changes nothing of it. -/
theorem Db.WritesStation.after_deletion {data : StationInsert K} {updatedAt : Timestamp}
    {found : Option (StationRow K)} {middle : Db P}
    (writes : Db.WritesStation data env updatedAt found middle db')
    (kept : ∀ row ∈ middle.stations.rows, row ∈ db.stations.rows) :
    Db.WritesStation data env updatedAt found db db' where
  old row named := kept row (writes.old row named)
  member := writes.member
  others row member := (writes.others row member).imp_left (kept row)

theorem writesStation_updateStationById {data : StationInsert K} {survivor : StationRow K}
    {updatedAt : Timestamp} (member : survivor ∈ db.stations.rows)
    (done : db.updateStationById survivor.id (data.onto P survivor) updatedAt = .ok db') :
    Db.WritesStation data env updatedAt (some survivor) db db' := by
  simp only [Db.updateStationById, bind_eq_ok, orFail_eq_ok, pure_eq_ok] at done
  obtain ⟨⟨table, changes⟩, write, rfl⟩ := done
  have rows : _ = table.rows := congrArg Prod.fst (Table.write_eq_some write)
  refine ⟨fun row named => Option.mem_some.mp named ▸ member, ?_, fun row inRows => ?_⟩
  · rw [← rows]
    exact List.mem_map.mpr ⟨survivor, member, if_pos (decide_eq_true rfl)⟩
  · rw [← rows] at inRows
    obtain ⟨before, old, rfl⟩ := List.mem_map.mp inRows
    split
    · rename_i here
      obtain rfl := db.stations.eq_of_clash StationRow.clash_symm old member
        (.inl (of_decide_eq_true here))
      exact .inr rfl
    · exact .inl old

theorem writesStation_insertStation {data : StationInsert K} (updatedAt : Timestamp)
    (done : db.insertStation env data = .ok db') :
    Db.WritesStation data env updatedAt none db db' := by
  simp only [Db.insertStation, bind_eq_ok, orFail_eq_ok, pure_eq_ok] at done
  obtain ⟨⟨table, changes⟩, write, rfl⟩ := done
  have rows : _ = table.rows := congrArg Prod.fst (Table.write_eq_some write)
  refine ⟨fun row named => ?_, ?_, fun row inRows => ?_⟩
  · cases named
  · rw [← rows]
    exact List.mem_append_right _ (List.mem_singleton_self _)
  · rw [← rows] at inRows
    exact (List.mem_append.mp inRows).imp_right List.mem_singleton.mp

/-- A recognised carrier is only written into a stronghold, in place of its carrier. -/
theorem of_upsertStrongholdCarrier {data : StationInsert K} {updatedAt : Timestamp}
    (done : upsertStrongholdCarrier env data updatedAt db = .ok db') :
    db' = db ∧ ¬ db.StrongholdAt data.systemId ∨ db.StrongholdAt data.systemId ∧
      Db.WritesStation data env updatedAt
        (db.findStrongholdCarriersInSystem data.systemId).head? db db' := by
  unfold upsertStrongholdCarrier at done
  split at done
  · rename_i stronghold
    refine .inr ⟨isSystemCurrentlyStronghold_iff.mp stronghold, ?_⟩
    obtain ⟨first, duplicates, done⟩ := bind_eq_ok.mp done
    obtain ⟨second, reused, done⟩ := bind_eq_ok.mp done
    have sameFirst : first = db := by
      obtain ⟨none, -⟩ | ⟨survivor, -, -, one⟩ := findStrongholdCarriersInSystem_eq data.systemId db
      · rw [none] at duplicates
        exact (Except.ok.inj duplicates).symm
      · rw [one] at duplicates
        exact (Except.ok.inj duplicates).symm
    subst sameFirst
    obtain ⟨after, deleted, -, kept⟩ := exists_deleteReusedMarketId env data.marketId
      (first.findStrongholdCarriersInSystem data.systemId).head? first
    obtain rfl := Except.ok.inj (reused.symm.trans deleted)
    have older : ∀ row ∈ second.stations.rows, row ∈ first.stations.rows :=
      fun row member => ((kept row).mp member).1
    split at done
    · rename_i none
      rw [none]
      exact (writesStation_insertStation updatedAt done).after_deletion older
    · rename_i survivor found
      have carrier : survivor ∈ first.stations.rows.filter
          (strongholdCarrierPredicate P data.systemId) :=
        (List.mem_insertionSort _).mp (List.mem_of_mem_head? found)
      have member : survivor ∈ second.stations.rows :=
        (kept survivor).mpr ⟨(List.mem_filter.mp carrier).1, fun _ => by rw [found]; rfl⟩
      rw [found]
      exact (writesStation_updateStationById member done).after_deletion older
  · rename_i outside
    exact .inl ⟨(pure_eq_ok.mp done).symm, mt isSystemCurrentlyStronghold_iff.mpr outside⟩

/-- A successful upsert of a regular station merges its identity. -/
theorem of_upsertRegularStation {data : StationInsert K} {updatedAt : Timestamp}
    (done : upsertRegularStation env data updatedAt db = .ok db') :
    OnlyStations db db' ∧ MergesIdentity P data (data.merged P env updatedAt (db.mergedOnto data))
      db.stations.rows db'.stations.rows := by
  have fresh : db.mergedOnto data = none →
      env.randomUuid .upsertStation 0 ∉ db.stations.rows.map StationRow.id := by
    intro unknown drawn
    obtain ⟨byName, byMarket⟩ := Option.or_eq_none_iff.mp unknown
    rw [upsertRegularStation, byMarket, byName] at done
    simp only [Db.insertStation, bind_eq_ok, orFail_eq_ok, pure_eq_ok] at done
    obtain ⟨⟨table, changes⟩, write, -⟩ := done
    have left : db.stations.rows ++ [data.row env] = table.rows :=
      congrArg Prod.fst (Table.write_eq_some write)
    have distinct := table.unique
    rw [← left] at distinct
    obtain ⟨row, member, same⟩ := List.mem_map.mp drawn
    exact (List.pairwise_append.mp distinct).2.2 row member _ (List.mem_singleton_self _) (.inl same)
  obtain ⟨after, done', only, merges⟩ := upsertRegularStation_stores updatedAt fresh
  obtain rfl := Except.ok.inj (done.symm.trans done')
  exact ⟨only, merges⟩

/-- The row that the station of a message is merged onto. -/
def Db.mergedRow (data : StationData K) (db : Db P) : Option (StationRow K) :=
  (db.findStationBySystemAndName data.systemId data.name).or
    (db.findStationByMarketId data.marketId)

/-- **Writing a station keeps carriers in strongholds** unless it makes one outside. -/
theorem carriers_upsertStation_iff {data : StationData K} (before : db.CarriersInStrongholds)
    (done : upsertStation env data db = .ok db') :
    db'.CarriersInStrongholds ↔ ¬ (¬ db.StrongholdAt data.systemId ∧ ¬ data.IsCarrier ∧
      data.CompletesCarrier P (db.mergedRow data)) := by
  have strongholds := strongholdAt_congr (P := P)
    (show db'.systems = db.systems by rw [(stationSteps_upsertStation done).onlyStations.frame])
  obtain ⟨validated, parsed, done⟩ := bind_eq_ok.mp done
  have parsed := orFail_eq_ok.mp parsed
  obtain ⟨name, market, system, -⟩ := of_parseStationInsert parsed
  simp only at done
  split at done
  · rename_i carrier
    have isCarrier := (isStrongholdCarrier_iff parsed).mp carrier
    refine iff_of_true ?_ fun stray => stray.2.1 isCarrier
    have sameSystem : (normalizeStrongholdCarrierName validated).systemId = data.systemId := by
      unfold normalizeStrongholdCarrierName
      split <;> exact system
    obtain ⟨rfl, -⟩ | ⟨stronghold, writes⟩ := of_upsertStrongholdCarrier done
    · exact before
    · intro row member carries
      obtain old | here := writes.storesIn row member
      · exact (strongholds _).mpr (before row old carries)
      · rw [strongholds, here]
        exact stronghold
  · rename_i regular
    have notCarrier := mt (isStrongholdCarrier_iff parsed).mpr regular
    rw [normalize_of_regular regular] at done
    obtain ⟨-, merges⟩ := of_upsertRegularStation done
    have found : db.mergedOnto validated = db.mergedRow data := by
      rw [Db.mergedOnto, Db.mergedRow, name, market, system]
    rw [found] at merges
    have carrier_iff : strongholdCarrierPredicate P data.systemId
        (validated.merged P env (env.newDate .upsertStation) (db.mergedRow data)) = true ↔
          data.CompletesCarrier P (db.mergedRow data) := carrier_merged_iff parsed _ _
    generalize validated.merged P env (env.newDate .upsertStation) (db.mergedRow data) = station
      at merges carrier_iff
    have own : station.systemId = data.systemId := merges.systemId.trans system
    constructor
    · rintro after ⟨outside, -, completes⟩
      have here := after station merges.member (own ▸ carrier_iff.mpr completes)
      rw [strongholds, own] at here
      exact outside here
    · intro noStray row member carries
      rw [strongholds]
      by_cases same : row.id = station.id
      · obtain rfl := db'.stations.eq_of_clash StationRow.clash_symm member merges.member (.inl same)
        rw [own] at carries ⊢
        exact by_contra fun outside => noStray ⟨outside, notCarrier, carrier_iff.mp carries⟩
      · have listed : row ∈ db'.stations.rows.filter fun row => row.id ≠ station.id :=
          List.mem_filter.mpr ⟨member, decide_eq_true same⟩
        rw [merges.others] at listed
        exact before row (List.mem_filter.mp listed).1 carries

/-! ## Runs -/

/-- A station is merged onto the candidate when its system is no stronghold. -/
theorem mergedRow_of_entered {message : JournalMessage K} {entered : Db P} {data : StationData K}
    (settled : Entered env message db entered)
    (system : data.systemId = systemIdAt env message.systemAddress db)
    (outside : ¬ entered.StrongholdAt data.systemId) :
    entered.mergedRow data = db.mergeCandidate data := by
  have spared : (entered.stations.rows.filter fun row =>
      !strongholdCarrierPredicate P data.systemId row) = entered.stations.rows := by
    refine List.filter_eq_self.mpr fun row member => ?_
    rw [Bool.not_eq_true', Bool.eq_false_iff]
    intro carrier
    have here := (StationRow.place_of_carrier carrier).1
    exact outside (here ▸ settled.carriers row member (here.symm ▸ carrier))
  have rows := settled.regular
  rw [← system, spared] at rows
  rw [Db.mergeCandidate, ← rows]
  rfl

/-- The station of a message does not depend on who controls it, as far as carriers go. -/
theorem stray_congr {message : JournalMessage K} {systemId factionId factionId' : Uuid}
    {data data' : StationData K} (given : stationDataOf P systemId factionId message = some data)
    (given' : stationDataOf P systemId factionId' message = some data') :
    ¬ data'.IsCarrier ∧ data'.CompletesCarrier P (db.mergeCandidate data') →
      ¬ data.IsCarrier ∧ data.CompletesCarrier P (db.mergeCandidate data) := by
  cases message with
  | fsdJump message => cases given
  | location message =>
      simp only [stationDataOf] at given given'
      split at given
      · cases given
      · rename_i accepted
        rw [if_neg accepted] at given'
        obtain ⟨required, found, rfl⟩ := Option.map_eq_some_iff.mp given
        rw [found] at given'
        obtain rfl := Option.some.inj given'
        simp only [StationData.completesCarrier_iff]
        exact id
  | docked message =>
      simp only [stationDataOf] at given given'
      split at given
      · cases given
      · rename_i accepted
        rw [if_neg accepted] at given'
        obtain rfl := Option.some.inj given
        obtain rfl := Option.some.inj given'
        simp only [StationData.completesCarrier_iff]
        exact id

theorem systemId_stationDataOf {message : JournalMessage K} {systemId factionId : Uuid}
    {data : StationData K} (given : stationDataOf P systemId factionId message = some data) :
    data.systemId = systemId := by
  cases message with
  | fsdJump message => cases given
  | location message =>
      simp only [stationDataOf] at given
      split at given
      · cases given
      · obtain ⟨required, -, rfl⟩ := Option.map_eq_some_iff.mp given
        rfl
  | docked message =>
      simp only [stationDataOf] at given
      split at given
      · cases given
      · obtain rfl := Option.some.inj given
        rfl

/-- A message without a station. -/
theorem keeps_of_no_station {message : JournalMessage K} {systemId : Uuid}
    (carriers : db'.CarriersInStrongholds)
    (none : ∀ factionId, stationDataOf P systemId factionId message = none)
    (sameId : systemId = systemIdAt env message.systemAddress db) :
    db'.CarriersInStrongholds ↔ ¬ WritesStrayCarrier env message db := by
  refine iff_of_true carriers ?_
  rintro ⟨-, factionId, data, given, -⟩
  rw [← sameId, none factionId] at given
  cases given

/-- A message with a station. -/
theorem keeps_of_station {message : JournalMessage K} {entered : Db P} {factionId : Uuid}
    {data : StationData K} (settled : Entered env message db entered)
    (given : stationDataOf P (systemIdAt env message.systemAddress db) factionId message = some data)
    (done : upsertStation env data entered = .ok db') :
    db'.CarriersInStrongholds ↔ ¬ WritesStrayCarrier env message db := by
  have system := systemId_stationDataOf given
  rw [carriers_upsertStation_iff settled.carriers done, not_iff_not, WritesStrayCarrier,
    ← settled.stronghold, ← system]
  refine and_congr_right fun outside => ?_
  rw [mergedRow_of_entered settled system outside]
  constructor
  · exact fun stray => ⟨factionId, data, system ▸ given, stray⟩
  · rintro ⟨factionId', data', given', stray⟩
    exact stray_congr given (system ▸ given') stray

theorem keeps_of_location {message : LocationMessage K} {entered : Db P}
    (settled : Entered env (.location message) db entered)
    (done : upsertStationFromLocation env message (systemIdAt env message.systemAddress db)
      entered = .ok db') :
    db'.CarriersInStrongholds ↔ ¬ WritesStrayCarrier env (.location message) db := by
  unfold upsertStationFromLocation at done
  split at done
  · rename_i missing
    obtain rfl := pure_eq_ok.mp done
    exact keeps_of_no_station settled.carriers (fun factionId => by simp [stationDataOf, missing]) rfl
  · rename_i required found
    split at done
    · rename_i excluded
      obtain rfl := pure_eq_ok.mp done
      exact keeps_of_no_station settled.carriers
        (fun factionId => by simp [stationDataOf, excluded]) rfl
    · rename_i accepted
      obtain ⟨⟨middle, factions⟩, upserted, done⟩ := bind_eq_ok.mp done
      obtain ⟨controllingFaction, -, station⟩ := bind_eq_ok.mp done
      have frame := frame_upsertFactions upserted
      have given : stationDataOf P (systemIdAt env message.systemAddress db) controllingFaction.id
          (.location message) = some (buildStationDataFromLocation P message required
            (systemIdAt env message.systemAddress db) controllingFaction.id) := by
        simp [stationDataOf, accepted, found]
      exact keeps_of_station (settled.later (by rw [frame]) (strongholdAt_congr (by rw [frame])))
        given station

theorem keeps_of_docked {message : DockedMessage K} {entered : Db P}
    (settled : Entered env (.docked message) db entered)
    (done : upsertStationFromDocked env message (systemIdAt env message.systemAddress db)
      entered = .ok db') :
    db'.CarriersInStrongholds ↔ ¬ WritesStrayCarrier env (.docked message) db := by
  unfold upsertStationFromDocked at done
  split at done
  · rename_i excluded
    obtain rfl := pure_eq_ok.mp done
    exact keeps_of_no_station settled.carriers
      (fun factionId => by simp [stationDataOf, excluded]) rfl
  · rename_i accepted
    obtain ⟨⟨middle, factions⟩, upserted, done⟩ := bind_eq_ok.mp done
    obtain ⟨controllingFaction, -, station⟩ := bind_eq_ok.mp done
    have frame := frame_upsertFactions upserted
    have given : stationDataOf P (systemIdAt env message.systemAddress db) controllingFaction.id
        (.docked message) = some (buildStationDataFromDocked P message
          (systemIdAt env message.systemAddress db) controllingFaction.id) := by
      simp [stationDataOf, accepted]
    exact keeps_of_station (settled.later (by rw [frame]) (strongholdAt_congr (by rw [frame])))
      given station

/-- A `Location` message with a station is kept. -/
theorem no_station_of_dropped {message : LocationMessage K}
    (dropped : shouldUpsertSystem P (.location message)
      (buildFullSystemData P message.toSystemMessage) = false) (systemId factionId : Uuid) :
    stationDataOf P systemId factionId (.location message) = none := by
  simp only [shouldUpsertSystem, Bool.or_eq_false_iff, Bool.and_eq_false_iff] at dropped
  obtain ⟨-, excluded | undocked⟩ := dropped
  · have excluded : hasExcludedStationGovernment P message.stationGovernment = true := by
      simpa using excluded
    simp [stationDataOf, excluded]
  · have undocked : message.docked = false := undocked.1.1.1
    have missing : requiredStationData message = none := by
      simp [requiredStationData, undocked]
    simp [stationDataOf, missing]

/-- **A transaction keeps stronghold carriers in strongholds exactly when it writes no stray
one.** -/
theorem carriersInStrongholds_processMessage_iff (lowers : P.toLowerCase "" = "")
    {message : JournalMessage K} (before : db.CarriersInStrongholds)
    (done : processMessage env message db = .ok db') :
    db'.CarriersInStrongholds ↔ ¬ WritesStrayCarrier env message db := by
  cases processed_of_processMessage done with
  | full message done =>
      obtain ⟨dropped, rfl⟩ | ⟨-, afterSystem, system, afterPowers, afterFactions, upserted, powers,
        factions, station⟩ := of_processMessage done
      · cases message with
        | fsdJump message => exact keeps_of_no_station before (fun _ => rfl) rfl
        | location message =>
            exact keeps_of_no_station before (no_station_of_dropped dropped _) rfl
      · have settled : Entered env message.toJournal db afterFactions :=
          (entered_described lowers before upserted powers).later
            (by rw [frame_processFactionsData factions]) (strongholdAt_processFactionsData factions)
        have sameId := id_upsertSystem upserted
        cases message with
        | fsdJump message =>
            obtain rfl := pure_eq_ok.mp station
            exact keeps_of_no_station settled.carriers (fun _ => rfl) rfl
        | location message => exact keeps_of_location settled (sameId ▸ station)
  | docked message afterSystem system upserted station =>
      exact keeps_of_docked (entered_docked before upserted) (id_upsertSystem upserted ▸ station)
  | unused message dropped same =>
      refine keeps_of_no_station (same ▸ before) (fun factionId => ?_) rfl
      have excluded : hasExcludedStationGovernment P (some message.stationGovernment) = true := by
        simpa [shouldUpsertSystemFromDocked] using dropped
      simp [stationDataOf, excluded]

/-- The transaction fails or writes no stray carrier. -/
def NoStrayCarrier (db : Db P) (job : TxEnv × JournalMessage K) : Prop :=
  ∀ db', processMessage job.1 job.2 db = .ok db' → ¬ WritesStrayCarrier job.1 job.2 db

/-- **Stronghold carriers are in strongholds in every run that writes no stray carrier**, and
a transaction after such a run breaks this exactly when it writes one. -/
theorem carriers_in_strongholds (lowers : P.toLowerCase "" = "")
    (run : Reaches workerStep NoStrayCarrier Db.empty db) :
    db.CarriersInStrongholds ∧ ∀ env message db', processMessage env message db = .ok db' →
      (db'.CarriersInStrongholds ↔ ¬ WritesStrayCarrier env message db) := by
  have carriers : db.CarriersInStrongholds := by
    refine invariant_of_processed run (fun row member => nomatch member) ?_
    intro env message before after carriers admitted processed
    exact (carriersInStrongholds_processMessage_iff lowers carriers processed).mpr
      (admitted after processed)
  exact ⟨carriers, fun env message db' done =>
    carriersInStrongholds_processMessage_iff lowers carriers done⟩

theorem carriers_in_strongholds_sample : ∃ db : Db asciiPlatform,
    Reaches workerStep NoStrayCarrier Db.empty db ∧
      (db.stations.rows.any fun row =>
        strongholdCarrierPredicate asciiPlatform row.systemId row) = true ∧
      db.CarriersInStrongholds := by
  have observed : (processMessage (P := asciiPlatform) (sampleEnv 1) (.fsdJump sampleStronghold)
      Db.empty).toOption.map (fun db => (db.columnAt 10477373803 SystemRow.powerplayState,
        (processMessage (sampleEnv 2)
          (.docked (sampleDockedCarrier 10477373803 strongholdCarrierName 1)) db).toOption.any
            fun db => db.stations.rows.any fun row =>
              strongholdCarrierPredicate asciiPlatform row.systemId row)) =
                some (some .stronghold, true) := by decide +kernel
  obtain ⟨first, jumped, seen⟩ := exists_ok_of_toOption_map observed
  obtain ⟨stronghold, seen⟩ := Prod.mk.inj seen
  obtain ⟨db, docked, carrier⟩ := (Option.any_eq_true _ _).mp seen
  rw [toOption_eq_some] at docked
  have run : Reaches workerStep NoStrayCarrier (Db.empty : Db asciiPlatform) db := by
    refine .step (.step .start (a := (sampleEnv 1, .fsdJump sampleStronghold))
      (fun _ _ stray => ?_) (congrArg (some ∘ committed Db.empty) jumped))
      (a := (sampleEnv 2, .docked (sampleDockedCarrier 10477373803 strongholdCarrierName 1)))
      (fun _ _ stray => stray.1 (.inr ⟨rfl, stronghold⟩)) (congrArg (some ∘ committed first) docked)
    obtain ⟨-, factionId, data, given, -⟩ := stray
    cases given
  exact ⟨db, run, carrier, (carriers_in_strongholds (by decide +kernel) run).1⟩

/-- The player is located at a carrier that has left its stronghold. -/
def sampleMovedCarrier : LocationMessage ℚ :=
  { sampleLocatedCarrier 1 with systemAddress := 1, powerplayState := none }

/-- A carrier that is found by its market id keeps its landing pads and moves to a system that
is no stronghold. -/
theorem sampleMovedCarrier_is_stray : ∃ db : Db asciiPlatform,
    WorkerReachable db ∧ ¬ db.CarriersInStrongholds := by
  obtain ⟨db, run, observed⟩ := exists_reachable_of_execute workerStep
    (Db.empty : Db asciiPlatform)
    [(sampleEnv 1, .fsdJump sampleStronghold),
      (sampleEnv 2, .docked (sampleDockedCarrier 10477373803 strongholdCarrierName 1)),
      (sampleEnv 3, .location sampleMovedCarrier)]
    (fun db => db.stations.rows.any fun row =>
      strongholdCarrierPredicate asciiPlatform row.systemId row &&
        !db.isSystemCurrentlyStronghold row.systemId) (by decide +kernel)
  obtain ⟨row, member, stray⟩ := List.any_eq_true.mp observed
  obtain ⟨carrier, outside⟩ := Bool.and_eq_true_iff.mp stray
  refine ⟨db, run, fun carriers => ?_⟩
  rw [isSystemCurrentlyStronghold_iff.mpr (carriers row member carrier)] at outside
  cases outside

end Carriers

end EliteHubVault
