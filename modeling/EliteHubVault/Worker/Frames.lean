import EliteHubVault.ControlThreat.Maintenance
import EliteHubVault.Worker.Events

/-!
# Which tables a step of the worker touches

One equation for each helper: the database it leaves is the one it found, up to the tables
that it writes. Deleting stations also clears references from `factionConflicts`, which no
subscriber can see: `OnlyStations` says that the conflicts are the same apart from their
stakes, and that no event was inserted.
-/

set_option autoImplicit false
set_option linter.unusedSectionVars false

namespace EliteHubVault

open Library

variable {K : Type}

/-! ## Rows without the columns that a replay may change -/

def SystemRow.withoutUpdatedAt (row : SystemRow K) : SystemRow K := { row with updatedAt := 0 }

def PowerplayConflictRow.withoutUpdatedAt (row : PowerplayConflictRow K) :
    PowerplayConflictRow K := { row with updatedAt := 0 }

/-- A conflict without its stakes and `updatedAt`. -/
def FactionConflictRow.core (row : FactionConflictRow K) : FactionConflictRow K :=
  { row with
    factionStake := none
    factionStakeStationId := none
    opponentStake := none
    opponentStakeStationId := none
    updatedAt := 0 }

theorem FactionConflictRow.core_eq_iff {row row' : FactionConflictRow K} :
    row.core = row'.core ↔ row.id = row'.id ∧ row.key = row'.key ∧ row.type = row'.type ∧
      row.status = row'.status ∧ row.factionWonDays = row'.factionWonDays ∧
      row.opponentWonDays = row'.opponentWonDays ∧ row.createdAt = row'.createdAt := by
  cases row
  cases row'
  simp only [core, key, FactionConflictRow.mk.injEq, Prod.mk.injEq, true_and, and_true]
  tauto

/-- An update that keeps the core of a conflict emits nothing. -/
theorem enqueueFactionConflictChangedEvents_of_core {old new : FactionConflictRow K}
    (same : new.core = old.core) : enqueueFactionConflictChangedEvents (.update old new) = [] := by
  obtain ⟨-, key, type, status, -⟩ := FactionConflictRow.core_eq_iff.mp same
  exact enqueueFactionConflictChangedEvents_of_same type.symm (congrArg (·.2.2) key).symm
    status.symm

/-! ## Statements -/

section Statements

variable {P : Platform K}

namespace Db

theorem of_writeFactionConflicts {now : Timestamp} {db db' : Db P}
    {outcome : List (FactionConflictRow K) × List (Change (FactionConflictRow K))}
    (written : db.writeFactionConflicts now outcome = some db') :
    db'.factionConflicts.rows = outcome.1 ∧
      db' = { db with factionConflicts := db'.factionConflicts }.enqueue now
        (outcome.2.flatMap enqueueFactionConflictChangedEvents) := by
  obtain ⟨⟨table, changes⟩, write, rfl⟩ := Option.map_eq_some_iff.mp written
  obtain rfl := Table.write_eq_some write
  exact ⟨rfl, rfl⟩

theorem of_writeSystemFactions {now : Timestamp} {db db' : Db P}
    {outcome : List SystemFactionRow × List (Change SystemFactionRow)}
    (written : db.writeSystemFactions now outcome = some db') :
    db'.systemFactions.rows = outcome.1 ∧
      db' = { db with systemFactions := db'.systemFactions }.enqueue now
        (outcome.2.flatMap enqueueFactionPresenceChangedEvent) := by
  obtain ⟨⟨table, changes⟩, write, rfl⟩ := Option.map_eq_some_iff.mp written
  obtain rfl := Table.write_eq_some write
  exact ⟨rfl, rfl⟩

variable [Field K] [LinearOrder K]

theorem of_writeFactionStates {now : Timestamp} {db db' : Db P}
    {outcome : List (FactionStateRow K) × List (Change (FactionStateRow K))}
    (written : db.writeFactionStates now outcome = some db') :
    db'.factionStates.rows = outcome.1 ∧
      db' = { db with factionStates := db'.factionStates }.afterFactionStates now outcome.2 := by
  obtain ⟨⟨table, changes⟩, write, rfl⟩ := Option.map_eq_some_iff.mp written
  obtain rfl := Table.write_eq_some write
  have same := (refreshed_afterFactionStates now changes
    { db with factionStates := table }).factionStates
  exact ⟨by rw [same], by rw [same]⟩

theorem of_writeSystems {now : Timestamp} {db db' : Db P}
    {outcome : List (SystemRow K) × List (Change (SystemRow K))}
    (written : db.writeSystems now outcome = some db') :
    db'.systems.rows = outcome.1 ∧
      db' = { db with systems := db'.systems }.afterSystems now outcome.2 := by
  obtain ⟨⟨table, changes⟩, write, rfl⟩ := Option.map_eq_some_iff.mp written
  obtain rfl := Table.write_eq_some write
  have same := (refreshed_afterSystems now changes { db with systems := table }).systems
  exact ⟨by rw [same], by rw [same]⟩

/-- A statement on `systems` touches the threats and the outbox besides. -/
theorem frame_writeSystems {now : Timestamp} {db db' : Db P}
    {outcome : List (SystemRow K) × List (Change (SystemRow K))}
    (written : db.writeSystems now outcome = some db') :
    db' = { db with
      systems := db'.systems
      systemFactionControlThreats := db'.systemFactionControlThreats
      eventOutbox := db'.eventOutbox } := by
  obtain ⟨-, same⟩ := of_writeSystems written
  have frame := (refreshed_afterSystems now outcome.2 { db with systems := db'.systems }).frame
  rw [← same] at frame
  exact frame

theorem frame_writeFactionStates {now : Timestamp} {db db' : Db P}
    {outcome : List (FactionStateRow K) × List (Change (FactionStateRow K))}
    (written : db.writeFactionStates now outcome = some db') :
    db' = { db with
      factionStates := db'.factionStates
      systemFactionControlThreats := db'.systemFactionControlThreats
      eventOutbox := db'.eventOutbox } := by
  obtain ⟨-, same⟩ := of_writeFactionStates written
  have frame := (refreshed_afterFactionStates now outcome.2
    { db with factionStates := db'.factionStates }).frame
  rw [← same] at frame
  exact frame

end Db

end Statements

/-! ## Stations -/

section Stations

variable {P : Platform K}

/-- The step wrote stations and cleared stakes of conflicts, and nothing that can be seen. -/
structure OnlyStations (db db' : Db P) : Prop where
  frame : db' = { db with
    stations := db'.stations
    factionConflicts := db'.factionConflicts }
  conflicts : db'.factionConflicts.rows.map FactionConflictRow.core =
    db.factionConflicts.rows.map FactionConflictRow.core

namespace OnlyStations

variable {db middle db' : Db P}

theorem refl (db : Db P) : OnlyStations db db := ⟨rfl, rfl⟩

theorem trans (first : OnlyStations db middle) (second : OnlyStations middle db') :
    OnlyStations db db' :=
  ⟨by rw [second.frame, first.frame], second.conflicts.trans first.conflicts⟩

theorem stations (table : Table (StationRow K) (StationRow.Clash P)) (db : Db P) :
    OnlyStations db { db with stations := table } := ⟨rfl, rfl⟩

end OnlyStations

/-- An update of `factionConflicts` that keeps the core of every row emits nothing. -/
theorem onlyStations_of_updateConflicts {now : Timestamp} {db db' : Db P}
    {where_ : FactionConflictRow K → Bool} {set : FactionConflictRow K → FactionConflictRow K}
    (written : db.writeFactionConflicts now (updateRows where_ set db.factionConflicts.rows) =
      some db') (coreKept : ∀ row, (set row).core = row.core) : OnlyStations db db' := by
  obtain ⟨rows, same⟩ := Db.of_writeFactionConflicts written
  have silent : (updateRows where_ set db.factionConflicts.rows).2.flatMap
      enqueueFactionConflictChangedEvents = [] := by
    refine List.flatMap_eq_nil_iff.mpr fun change member => ?_
    obtain ⟨row, -, rfl⟩ := List.mem_map.mp member
    exact enqueueFactionConflictChangedEvents_of_core (coreKept row)
  rw [silent, Db.enqueue_nil] at same
  refine ⟨by rw [same], ?_⟩
  rw [rows, updateRows, List.map_map]
  refine List.map_congr_left fun row _ => ?_
  simp only [Function.comp_apply]
  split
  · exact coreKept row
  · rfl

theorem onlyStations_deleteStations {now : Timestamp} {where_ : StationRow K → Bool}
    {db db' : Db P} (done : db.deleteStations now where_ = some db') : OnlyStations db db' := by
  obtain ⟨middle, first, second⟩ := Option.bind_eq_some_iff.mp done
  have deleted := OnlyStations.stations (db.stations.delete where_).1 db
  exact (deleted.trans (onlyStations_of_updateConflicts first fun _ => rfl)).trans
    (onlyStations_of_updateConflicts second fun _ => rfl)

/-- A statement on stations: a deletion, or one that adds at most the drawn id. -/
inductive StationStep (env : TxEnv) (db : Db P) : Db P → Prop where
  | deleted {where_ : StationRow K → Bool} {db' : Db P}
      (done : db.deleteStations env.now where_ = some db') : StationStep env db db'
  | written (table : Table (StationRow K) (StationRow.Clash P))
      (ids : ∀ station ∈ table.rows, station.id ∈ db.stations.rows.map StationRow.id ∨
        station.id = env.randomUuid .upsertStation 0) :
      StationStep env db { db with stations := table }

/-- A series of statements on stations. -/
abbrev StationSteps (env : TxEnv) : Db P → Db P → Prop := Relation.ReflTransGen (StationStep env)

theorem StationStep.onlyStations {env : TxEnv} {db db' : Db P} (step : StationStep env db db') :
    OnlyStations db db' := by
  cases step with
  | deleted done => exact onlyStations_deleteStations done
  | written table _ => exact .stations table db

theorem StationSteps.onlyStations {env : TxEnv} {db db' : Db P} (steps : StationSteps env db db') :
    OnlyStations db db' := by
  induction steps with
  | refl => exact .refl db
  | tail _ step ih => exact ih.trans step.onlyStations

variable {env : TxEnv} {db db' : Db P}

theorem stationSteps_deleteStationById {stationId : Uuid}
    (done : db.deleteStationById env.now stationId = .ok db') : StationSteps env db db' :=
  .single (.deleted (orFail_eq_ok.mp done))

variable [LinearOrder K]

theorem stationSteps_updateStationById {stationId : Uuid} {data : StationInsert K}
    {updatedAt : Timestamp} (done : db.updateStationById stationId data updatedAt = .ok db') :
    StationSteps env db db' := by
  simp only [Db.updateStationById, bind_eq_ok, orFail_eq_ok, pure_eq_ok] at done
  obtain ⟨⟨table, changes⟩, write, rfl⟩ := done
  have rows : _ = table.rows := congrArg Prod.fst (Table.write_eq_some write)
  refine .single (.written table fun station member => .inl ?_)
  rw [← rows] at member
  obtain ⟨row, inRows, rfl⟩ := List.mem_map.mp member
  refine List.mem_map.mpr ⟨row, inRows, ?_⟩
  split <;> rfl

variable [Field K]

theorem stationSteps_insertStation {data : StationInsert K}
    (done : db.insertStation env data = .ok db') : StationSteps env db db' := by
  simp only [Db.insertStation, bind_eq_ok, orFail_eq_ok, pure_eq_ok] at done
  obtain ⟨⟨table, changes⟩, write, rfl⟩ := done
  have rows : _ = table.rows := congrArg Prod.fst (Table.write_eq_some write)
  refine .single (.written table fun station member => ?_)
  rw [← rows] at member
  rcases List.mem_append.mp member with old | new
  · exact .inl (List.mem_map_of_mem old)
  · exact .inr (congrArg StationRow.id (List.mem_singleton.mp new))

theorem stationSteps_upsertRegularStation {data : StationInsert K} {updatedAt : Timestamp}
    (done : upsertRegularStation env data updatedAt db = .ok db') : StationSteps env db db' := by
  unfold upsertRegularStation at done
  split at done
  · exact stationSteps_insertStation done
  · split at done
    · obtain ⟨middle, deleted, updated⟩ := bind_eq_ok.mp done
      exact (stationSteps_deleteStationById deleted).trans (stationSteps_updateStationById updated)
    · exact stationSteps_updateStationById done
  · exact stationSteps_updateStationById done
  · exact stationSteps_updateStationById done

theorem stationSteps_deleteDuplicates (duplicates : List (StationRow K))
    (done : duplicates.foldlM
      (fun db duplicate => db.deleteStationById env.now duplicate.id) db = .ok db') :
    StationSteps env db db' := by
  induction duplicates generalizing db with
  | nil =>
      obtain rfl : db = db' := by simpa using done
      exact .refl
  | cons duplicate rest ih =>
      rw [List.foldlM_cons] at done
      obtain ⟨middle, deleted, later⟩ := bind_eq_ok.mp done
      exact (stationSteps_deleteStationById deleted).trans (ih later)

theorem stationSteps_deleteReusedMarketId {marketIdStation survivor : Option (StationRow K)}
    (done : deleteReusedMarketId env marketIdStation survivor db = .ok db') :
    StationSteps env db db' := by
  unfold deleteReusedMarketId at done
  split at done
  · split at done
    · exact stationSteps_deleteStationById done
    · obtain rfl := pure_eq_ok.mp done
      exact .refl
  · obtain rfl := pure_eq_ok.mp done
    exact .refl

theorem stationSteps_upsertStrongholdCarrier {data : StationInsert K} {updatedAt : Timestamp}
    (done : upsertStrongholdCarrier env data updatedAt db = .ok db') : StationSteps env db db' := by
  unfold upsertStrongholdCarrier at done
  split at done
  · obtain ⟨first, duplicates, done⟩ := bind_eq_ok.mp done
    obtain ⟨second, reused, done⟩ := bind_eq_ok.mp done
    refine ((stationSteps_deleteDuplicates _ duplicates).trans
      (stationSteps_deleteReusedMarketId reused)).trans ?_
    split at done
    · exact stationSteps_insertStation done
    · exact stationSteps_updateStationById done
  · obtain rfl := pure_eq_ok.mp done
    exact .refl

theorem stationSteps_upsertStation {data : StationData K}
    (done : upsertStation env data db = .ok db') : StationSteps env db db' := by
  obtain ⟨validated, -, done⟩ := bind_eq_ok.mp done
  simp only at done
  split at done
  · exact stationSteps_upsertStrongholdCarrier done
  · exact stationSteps_upsertRegularStation done

end Stations

/-! ## The helpers -/

section Helpers

variable [Field K] [LinearOrder K] {P : Platform K} {env : TxEnv} {db db' : Db P}

theorem frame_upsertSystem {data : SystemData K} {system : SystemRow K}
    (done : upsertSystem env data db = .ok (db', system)) :
    db' = { db with
      systems := db'.systems
      systemFactionControlThreats := db'.systemFactionControlThreats
      eventOutbox := db'.eventOutbox } := by
  simp only [upsertSystem, bind_eq_ok, orFail_eq_ok, pure_eq_ok] at done
  obtain ⟨validated, -, outcome, -, after, written, _, -, same⟩ := done
  cases same
  exact Db.frame_writeSystems written

theorem frame_upsertPowerplayPowers {message : SystemMessage K}
    {powers : List PowerplayPowerRow}
    (done : upsertPowerplayPowers env message db = .ok (db', powers)) :
    db' = { db with powerplayPowers := db'.powerplayPowers } := by
  unfold upsertPowerplayPowers at done
  simp only at done
  split at done
  · cases pure_eq_ok.mp done
    rfl
  · split at done
    · cases done
    · simp only [bind_eq_ok, orFail_eq_ok, pure_eq_ok] at done
      obtain ⟨names, -, written, -, same⟩ := done
      cases same
      rfl

theorem frame_upsertSystemPowerplayPowers {systemId : Uuid} {powers : List PowerplayPowerRow}
    (done : upsertSystemPowerplayPowers systemId powers db = .ok db') :
    db' = { db with systemPowerplayPowers := db'.systemPowerplayPowers } := by
  unfold upsertSystemPowerplayPowers at done
  split at done
  · cases pure_eq_ok.mp done
    rfl
  · simp only [bind_eq_ok, orFail_eq_ok, pure_eq_ok] at done
    obtain ⟨written, -, rfl⟩ := done
    rfl

theorem frame_upsertPowerplayConflicts {systemId : Uuid} {message : SystemMessage K}
    {powers : List PowerplayPowerRow}
    (done : upsertPowerplayConflicts env systemId message powers db = .ok db') :
    db' = { db with powerplayConflicts := db'.powerplayConflicts } := by
  unfold upsertPowerplayConflicts at done
  simp only at done
  split at done
  · cases pure_eq_ok.mp done
    rfl
  · simp only [bind_eq_ok, orFail_eq_ok, pure_eq_ok] at done
    obtain ⟨validated, -, outcome, -, written, -, rfl⟩ := done
    rfl

/-- What the carriers' deletion does in `processPowerplayData`. -/
theorem stationSteps_deleteStrongholdCarriers {message : SystemMessage K} {systemId : Uuid}
    (done : (if truthy message.powerplayState ∧
        mapPowerplayState P message.powerplayState ≠ .value .stronghold then
      db.deleteStrongholdCarriersInSystem env.now systemId else pure db) = .ok db') :
    StationSteps env db db' := by
  split at done
  · exact .single (.deleted (orFail_eq_ok.mp done))
  · obtain rfl := pure_eq_ok.mp done
    exact .refl

theorem frame_processPowerplayData {message : SystemMessage K} {systemId : Uuid}
    (done : processPowerplayData env message systemId db = .ok db') :
    db' = { db with
      powerplayPowers := db'.powerplayPowers
      systemPowerplayPowers := db'.systemPowerplayPowers
      powerplayConflicts := db'.powerplayConflicts
      stations := db'.stations
      factionConflicts := db'.factionConflicts } := by
  obtain ⟨⟨first, powers⟩, upserted, done⟩ := bind_eq_ok.mp done
  obtain ⟨second, associated, done⟩ := bind_eq_ok.mp done
  obtain ⟨third, conflicts, done⟩ := bind_eq_ok.mp done
  rw [(stationSteps_deleteStrongholdCarriers done).onlyStations.frame,
    frame_upsertPowerplayConflicts conflicts, frame_upsertSystemPowerplayPowers associated,
    frame_upsertPowerplayPowers upserted]

theorem frame_upsertFactions {statement : Statement} {messageFactions : List MessageFaction}
    {factions : List FactionRow}
    (done : upsertFactions env statement messageFactions db = .ok (db', factions)) :
    db' = { db with factions := db'.factions } := by
  unfold upsertFactions at done
  split at done
  · cases pure_eq_ok.mp done
    rfl
  · simp only [bind_eq_ok, orFail_eq_ok, pure_eq_ok] at done
    obtain ⟨proposed, -, outcome, -, written, -, same⟩ := done
    cases same
    rfl

theorem frame_upsertSystemFactions {systemId : Uuid} {factionIds : List Uuid}
    (done : upsertSystemFactions env systemId factionIds db = .ok db') :
    db' = { db with
      systemFactions := db'.systemFactions
      eventOutbox := db'.eventOutbox } := by
  obtain ⟨middle, inserted, deleted⟩ := bind_eq_ok.mp done
  obtain ⟨-, first⟩ := Db.of_writeSystemFactions (orFail_eq_ok.mp inserted)
  obtain ⟨-, second⟩ := Db.of_writeSystemFactions (orFail_eq_ok.mp deleted)
  rw [second, first]
  rfl

theorem frame_cleanupFactionStates {systemId : Uuid} {factionIds : List Uuid}
    (done : cleanupFactionStates env systemId factionIds db = .ok db') :
    db' = { db with
      factionStates := db'.factionStates
      systemFactionControlThreats := db'.systemFactionControlThreats
      eventOutbox := db'.eventOutbox } :=
  Db.frame_writeFactionStates (orFail_eq_ok.mp done)

theorem frame_syncSystemControllingFaction {systemId : Uuid} {factionId : JsLookup Uuid}
    (done : syncSystemControllingFaction env systemId factionId db = .ok db') :
    db' = { db with
      systems := db'.systems
      systemFactionControlThreats := db'.systemFactionControlThreats
      eventOutbox := db'.eventOutbox } := by
  cases factionId with
  | value id => exact Db.frame_writeSystems (orFail_eq_ok.mp done)
  | inherited => exact absurd done throw_ne_ok
  | null =>
      obtain rfl := pure_eq_ok.mp done
      rfl
  | undefined =>
      obtain rfl := pure_eq_ok.mp done
      rfl

theorem frame_upsertFactionStates {systemId : Uuid} {factions : List (FactionElement K)}
    {factionIdMap : OrderedMap String Uuid}
    (done : upsertFactionStates env systemId factions factionIdMap db = .ok db') :
    db' = { db with
      factionStates := db'.factionStates
      systemFactionControlThreats := db'.systemFactionControlThreats
      eventOutbox := db'.eventOutbox } := by
  simp only [upsertFactionStates, bind_eq_ok, orFail_eq_ok] at done
  obtain ⟨proposed, -, outcome, -, written⟩ := done
  exact Db.frame_writeFactionStates written

theorem frame_upsertFactionConflicts {systemId : Uuid} {conflicts : List (Conflict K)}
    (done : upsertFactionConflicts env systemId conflicts db = .ok db') :
    db' = { db with
      factionConflicts := db'.factionConflicts
      eventOutbox := db'.eventOutbox } := by
  unfold upsertFactionConflicts at done
  simp only at done
  split at done
  · obtain ⟨-, same⟩ := Db.of_writeFactionConflicts (orFail_eq_ok.mp done)
    rw [same]
    rfl
  · simp only [bind_eq_ok, orFail_eq_ok] at done
    obtain ⟨proposed, -, outcome, -, middle, inserted, deleted⟩ := done
    obtain ⟨-, first⟩ := Db.of_writeFactionConflicts inserted
    obtain ⟨-, second⟩ := Db.of_writeFactionConflicts deleted
    rw [second, first]
    rfl

/-- **The stages of the factions of a message.** -/
theorem of_processFactionsData {message : SystemMessage K} {systemId : Uuid}
    (done : processFactionsData env message systemId db = .ok db') :
    (message.factions.getD [] = [] ∧ db' = db) ∨
      (message.factions.getD [] ≠ [] ∧
        ∃ (stored : Db P) (factions : List FactionRow) (present cleaned synced states : Db P),
          upsertFactions env .upsertFactions
            ((message.factions.getD []).map FactionElement.messageFaction) db =
              .ok (stored, factions) ∧
          upsertSystemFactions env systemId (factions.map FactionRow.id) stored = .ok present ∧
          cleanupFactionStates env systemId (factions.map FactionRow.id) present = .ok cleaned ∧
          syncSystemControllingFaction env systemId
            (controllingFactionIdOf message (createFactionIdMap factions)) cleaned = .ok synced ∧
          upsertFactionStates env systemId (message.factions.getD [])
            (createFactionIdMap factions) synced = .ok states ∧
          upsertFactionConflicts env systemId (message.conflicts.getD []) states = .ok db') := by
  unfold processFactionsData at done
  simp only at done
  split at done
  · rename_i nobody
    exact .inl ⟨nobody, (pure_eq_ok.mp done).symm⟩
  · rename_i somebody
    obtain ⟨⟨stored, factions⟩, upserted, done⟩ := bind_eq_ok.mp done
    obtain ⟨present, presence, done⟩ := bind_eq_ok.mp done
    obtain ⟨cleaned, cleanup, done⟩ := bind_eq_ok.mp done
    obtain ⟨synced, sync, done⟩ := bind_eq_ok.mp done
    obtain ⟨states, state, done⟩ := bind_eq_ok.mp done
    exact .inr ⟨somebody, stored, factions, present, cleaned, synced, states, upserted, presence,
      cleanup, sync, state, done⟩

theorem frame_processFactionsData {message : SystemMessage K} {systemId : Uuid}
    (done : processFactionsData env message systemId db = .ok db') :
    db' = { db with
      systems := db'.systems
      factions := db'.factions
      systemFactions := db'.systemFactions
      factionStates := db'.factionStates
      factionConflicts := db'.factionConflicts
      systemFactionControlThreats := db'.systemFactionControlThreats
      eventOutbox := db'.eventOutbox } := by
  obtain ⟨-, rfl⟩ | ⟨-, stored, factions, present, cleaned, synced, states, upserted, presence,
    cleanup, sync, state, conflicts⟩ := of_processFactionsData done
  · rfl
  · rw [frame_upsertFactionConflicts conflicts, frame_upsertFactionStates state,
      frame_syncSystemControllingFaction sync, frame_cleanupFactionStates cleanup,
      frame_upsertSystemFactions presence, frame_upsertFactions upserted]

/-- The station of a message: its faction, the station and the stakes it was. -/
structure OnlyStationAndFaction (db db' : Db P) : Prop where
  frame : db' = { db with
    factions := db'.factions
    stations := db'.stations
    factionConflicts := db'.factionConflicts }
  conflicts : db'.factionConflicts.rows.map FactionConflictRow.core =
    db.factionConflicts.rows.map FactionConflictRow.core

theorem OnlyStationAndFaction.refl (db : Db P) : OnlyStationAndFaction db db := ⟨rfl, rfl⟩

/-- Statements on stations, after a statement on factions. -/
theorem StationSteps.onlyStationAndFaction {middle : Db P} (steps : StationSteps env middle db')
    (frame : middle = { db with factions := middle.factions }) : OnlyStationAndFaction db db' := by
  have stations := steps.onlyStations
  exact ⟨by rw [stations.frame, frame], by rw [stations.conflicts, frame]⟩

theorem stationSteps_upsertStationFromLocation {message : LocationMessage K}
    {systemId : Uuid} (done : upsertStationFromLocation env message systemId db = .ok db') :
    ∃ middle : Db P, middle = { db with factions := middle.factions } ∧
      StationSteps env middle db' := by
  unfold upsertStationFromLocation at done
  split at done
  · obtain rfl := pure_eq_ok.mp done
    exact ⟨db, rfl, .refl⟩
  · split at done
    · obtain rfl := pure_eq_ok.mp done
      exact ⟨db, rfl, .refl⟩
    · obtain ⟨⟨middle, factions⟩, upserted, done⟩ := bind_eq_ok.mp done
      obtain ⟨controllingFaction, -, station⟩ := bind_eq_ok.mp done
      exact ⟨middle, frame_upsertFactions upserted, stationSteps_upsertStation station⟩

theorem onlyStationAndFaction_upsertStationFromDocked {message : DockedMessage K}
    {systemId : Uuid} (done : upsertStationFromDocked env message systemId db = .ok db') :
    OnlyStationAndFaction db db' := by
  unfold upsertStationFromDocked at done
  split at done
  · obtain rfl := pure_eq_ok.mp done
    exact .refl db
  · obtain ⟨⟨middle, factions⟩, upserted, done⟩ := bind_eq_ok.mp done
    obtain ⟨controllingFaction, -, station⟩ := bind_eq_ok.mp done
    exact (stationSteps_upsertStation station).onlyStationAndFaction
      (frame_upsertFactions upserted)

/-- What a message that describes a whole system says about a station. -/
def upsertStationOf (env : TxEnv) (systemId : Uuid) (db : Db P) :
    FullSystemMessage K → Except TxError (Db P)
  | .fsdJump _ => pure db
  | .location message => upsertStationFromLocation env message systemId db

theorem stationSteps_upsertStationOf {message : FullSystemMessage K} {systemId : Uuid}
    (done : upsertStationOf env systemId db message = .ok db') :
    ∃ middle : Db P, middle = { db with factions := middle.factions } ∧
      StationSteps env middle db' := by
  cases message with
  | fsdJump message =>
      obtain rfl := pure_eq_ok.mp done
      exact ⟨db, rfl, .refl⟩
  | location message => exact stationSteps_upsertStationFromLocation done

theorem onlyStationAndFaction_upsertStationOf {message : FullSystemMessage K} {systemId : Uuid}
    (done : upsertStationOf env systemId db message = .ok db') : OnlyStationAndFaction db db' := by
  obtain ⟨middle, frame, steps⟩ := stationSteps_upsertStationOf done
  exact steps.onlyStationAndFaction frame

/-- **The stages of a message that describes a whole system.** -/
theorem of_processMessage {message : FullSystemMessage K}
    (done : processMessage env message.toJournal db = .ok db') :
    (shouldUpsertSystem P message (buildFullSystemData P message.system) = false ∧ db' = db) ∨
      (shouldUpsertSystem P message (buildFullSystemData P message.system) = true ∧
        ∃ (afterSystem : Db P) (system : SystemRow K) (afterPowers afterFactions : Db P),
          upsertSystem env (buildFullSystemData P message.system) db = .ok (afterSystem, system) ∧
          processPowerplayData env message.system system.id afterSystem = .ok afterPowers ∧
          processFactionsData env message.system system.id afterPowers = .ok afterFactions ∧
          upsertStationOf env system.id afterFactions message = .ok db') := by
  cases message with
  | fsdJump message =>
      simp only [FullSystemMessage.toJournal, processMessage, processFSDJumpEvent] at done
      split at done
      · rename_i kept
        obtain ⟨⟨afterSystem, system⟩, upserted, done⟩ := bind_eq_ok.mp done
        obtain ⟨afterPowers, powers, done⟩ := bind_eq_ok.mp done
        exact .inr ⟨kept, afterSystem, system, afterPowers, db', upserted, powers, done, rfl⟩
      · rename_i dropped
        exact .inl ⟨Bool.eq_false_iff.mpr dropped, (pure_eq_ok.mp done).symm⟩
  | location message =>
      simp only [FullSystemMessage.toJournal, processMessage, processLocationEvent] at done
      split at done
      · rename_i kept
        obtain ⟨⟨afterSystem, system⟩, upserted, done⟩ := bind_eq_ok.mp done
        obtain ⟨afterPowers, powers, done⟩ := bind_eq_ok.mp done
        obtain ⟨afterFactions, factions, done⟩ := bind_eq_ok.mp done
        exact .inr ⟨kept, afterSystem, system, afterPowers, afterFactions, upserted, powers,
          factions, done⟩
      · rename_i dropped
        exact .inl ⟨Bool.eq_false_iff.mpr dropped, (pure_eq_ok.mp done).symm⟩

/-- What a successful transaction does with a message: `of_processMessage` has the rest of the
first case. -/
inductive Processed (env : TxEnv) (db db' : Db P) : JournalMessage K → Prop where
  | full (message : FullSystemMessage K)
      (done : processMessage env message.toJournal db = .ok db') :
      Processed env db db' message.toJournal
  | docked (message : DockedMessage K) (afterSystem : Db P) (system : SystemRow K)
      (upserted : upsertSystem env (buildPartialSystemData message) db =
        .ok (afterSystem, system))
      (station : upsertStationFromDocked env message system.id afterSystem = .ok db') :
      Processed env db db' (.docked message)
  | unused (message : DockedMessage K)
      (dropped : shouldUpsertSystemFromDocked P message = false) (same : db' = db) :
      Processed env db db' (.docked message)

theorem processed_of_processMessage {message : JournalMessage K}
    (done : processMessage env message db = .ok db') : Processed env db db' message := by
  cases message with
  | fsdJump message => exact .full (.fsdJump message) done
  | location message => exact .full (.location message) done
  | docked message =>
      simp only [processMessage, processDockedEvent] at done
      split at done
      · obtain ⟨⟨afterSystem, system⟩, upserted, station⟩ := bind_eq_ok.mp done
        exact .docked message afterSystem system upserted station
      · rename_i dropped
        exact .unused message (Bool.eq_false_iff.mpr dropped) (pure_eq_ok.mp done).symm

/-! ## Stages -/

/-- A helper that a transaction calls. -/
inductive Stage (env : TxEnv) (db db' : Db P) : Prop where
  | system {data : SystemData K} {system : SystemRow K}
      (done : upsertSystem env data db = .ok (db', system))
  | powerplay {message : SystemMessage K} {systemId : Uuid}
      (done : processPowerplayData env message systemId db = .ok db')
  | factions {message : SystemMessage K} {systemId : Uuid}
      (done : processFactionsData env message systemId db = .ok db')
  | stationFaction {messageFactions : List MessageFaction} {factions : List FactionRow}
      (done : upsertFactions env .upsertStationFaction messageFactions db = .ok (db', factions))
  | station {data : StationData K} (done : upsertStation env data db = .ok db')

/-- A series of helpers. -/
abbrev Stages (env : TxEnv) : Db P → Db P → Prop := Relation.ReflTransGen (Stage env)

theorem stages_upsertStationFromLocation {message : LocationMessage K} {systemId : Uuid}
    (done : upsertStationFromLocation env message systemId db = .ok db') : Stages env db db' := by
  unfold upsertStationFromLocation at done
  split at done
  · obtain rfl := pure_eq_ok.mp done
    exact .refl
  · split at done
    · obtain rfl := pure_eq_ok.mp done
      exact .refl
    · obtain ⟨⟨middle, factions⟩, upserted, done⟩ := bind_eq_ok.mp done
      obtain ⟨controllingFaction, -, station⟩ := bind_eq_ok.mp done
      exact .tail (.single (.stationFaction upserted)) (.station station)

theorem stages_upsertStationFromDocked {message : DockedMessage K} {systemId : Uuid}
    (done : upsertStationFromDocked env message systemId db = .ok db') : Stages env db db' := by
  unfold upsertStationFromDocked at done
  split at done
  · obtain rfl := pure_eq_ok.mp done
    exact .refl
  · obtain ⟨⟨middle, factions⟩, upserted, done⟩ := bind_eq_ok.mp done
    obtain ⟨controllingFaction, -, station⟩ := bind_eq_ok.mp done
    exact .tail (.single (.stationFaction upserted)) (.station station)

/-- **A transaction of the worker is a series of helpers.** -/
theorem stages_processMessage {message : JournalMessage K}
    (done : processMessage env message db = .ok db') : Stages env db db' := by
  cases processed_of_processMessage done with
  | full message done =>
      obtain ⟨-, rfl⟩ | ⟨-, afterSystem, system, afterPowers, afterFactions, upserted, powers,
        factions, station⟩ := of_processMessage done
      · exact .refl
      · have described : Stages env db afterFactions :=
          .tail (.tail (.single (.system upserted)) (.powerplay powers)) (.factions factions)
        cases message with
        | fsdJump message =>
            obtain rfl := pure_eq_ok.mp station
            exact described
        | location message => exact described.trans (stages_upsertStationFromLocation station)
  | docked message afterSystem system upserted station =>
      exact (Relation.ReflTransGen.single (.system upserted)).trans
        (stages_upsertStationFromDocked station)
  | unused message dropped same =>
      obtain rfl := same
      exact .refl

/-- What every helper keeps is kept by a series of them. -/
theorem Stages.invariant {inv : Db P → Prop} (stages : Stages env db db') (base : inv db)
    (kept : ∀ before after, inv before → Stage env before after → inv after) : inv db' := by
  induction stages with
  | refl => exact base
  | tail _ stage ih => exact kept _ _ ih stage

/-- What the successful transactions of a run keep holds after it. A failed one leaves the
database as it was. -/
theorem invariant_of_processed {guard : Db P → TxEnv × JournalMessage K → Prop}
    {inv : Db P → Prop} (run : Reaches workerStep guard Db.empty db) (base : inv Db.empty)
    (kept : ∀ env message before after, inv before → guard before (env, message) →
      processMessage env message before = .ok after → inv after) : inv db := by
  refine run.invariant base fun before job after holds admitted taken => ?_
  obtain rfl := Option.some.inj taken
  obtain same | ⟨later, processed, same⟩ := committed_eq before (processMessage job.1 job.2 before)
  · rwa [same]
  · rw [same]
    exact kept job.1 job.2 before later holds admitted processed

/-- What every successful transaction keeps holds of the databases that the worker can leave. -/
theorem WorkerReachable.of_processed {inv : Db P → Prop} (reachable : WorkerReachable db)
    (base : inv Db.empty)
    (kept : ∀ env message before after, inv before →
      processMessage env message before = .ok after → inv after) : inv db :=
  invariant_of_processed reachable base fun env message before after holds _ processed =>
    kept env message before after holds processed

/-- What every helper keeps holds of the databases that the worker can leave. -/
theorem WorkerReachable.of_stages {inv : Db P → Prop} (reachable : WorkerReachable db)
    (base : inv Db.empty)
    (kept : ∀ env before after, inv before → Stage env before after → inv after) : inv db :=
  reachable.of_processed base fun env _ _ _ before processed =>
    (stages_processMessage processed).invariant before (kept env)

end Helpers

end EliteHubVault
