import EliteHubVault.Worker.CheckedSteps
import EliteHubVault.Worker.FactionNames
import EliteHubVault.Worker.StrongholdCarriers

/-!
# The worker never breaks a foreign key

A transaction is a series of single statements, and the references of the schema are stored
after every one of them: each helper writes ids that it was given, ids that it found and ids
that it has inserted. So no database that the worker has committed has a dangling reference
(`foreign_keys_hold`), and no event that leaves the outbox names a row that does not exist
(`events_resolve`).
-/

set_option autoImplicit false
set_option linter.unusedSectionVars false

namespace EliteHubVault

open Library

section ForeignKeys

variable {K : Type} [Field K] [LinearOrder K] {P : Platform K} {env : TxEnv} {db db' : Db P}

/-! ## Systems and factions -/

theorem checked_upsertSystem (sound : db.Sound) {data : SystemData K} {system : SystemRow K}
    (done : upsertSystem env data db = .ok (db', system)) :
    CheckedSteps db db' ∧ db'.StoresSystem system.id := by
  obtain ⟨-, -, -, present, -, -⟩ := of_upsertSystem done
  refine ⟨?_, system, present, rfl⟩
  simp only [upsertSystem, bind_eq_ok, orFail_eq_ok, pure_eq_ok] at done
  obtain ⟨validated, -, outcome, upserted, after, written, _, -, same⟩ := done
  cases same
  refine .single (checked_writeSystems sound (.upserted upserted)
    (fun row member => exists_of_upsertRows upserted (fun _ _ => rfl) member)
    (fun row member => ?_) written)
  rcases mem_of_upsertRows upserted member with old | new | ⟨old, inRows, wanted, -, rfl⟩
  · exact sound.keys.systems row old
  · rw [List.mem_singleton.mp new]
    exact refersTo_none _
  · exact sound.keys.systems old inRows

theorem checked_upsertFactions (sound : db.Sound) {statement : Statement}
    {messageFactions : List MessageFaction} {factions : List FactionRow}
    (done : upsertFactions env statement messageFactions db = .ok (db', factions)) :
    CheckedSteps db db' ∧ ∀ faction ∈ factions, db'.StoresFaction faction.id := by
  unfold upsertFactions at done
  split at done
  · cases pure_eq_ok.mp done
    exact ⟨.refl, fun _ listed => by cases listed⟩
  · simp only [bind_eq_ok, orFail_eq_ok, pure_eq_ok] at done
    obtain ⟨proposed, -, outcome, upserted, ⟨table, changes⟩, write, same⟩ := done
    cases same
    have kept : ∀ row ∈ db.factions.rows, ∃ row' ∈ outcome.1, row'.id = row.id :=
      fun row member => exists_of_upsertRows upserted (fun _ _ => rfl) member
    have rows : outcome.1 = table.rows := congrArg Prod.fst (Table.write_eq_some write)
    refine ⟨.single (checked_factions sound kept write), fun faction listed => ?_⟩
    obtain ⟨change, made, new⟩ := List.mem_filterMap.mp listed
    have left : ∃ row' ∈ outcome.1, row'.id = faction.id := by
      rcases (Executes.upserted upserted).mem_of_mentioned made (Change.mem_versions.mpr (.inr new))
        with before | after
      · exact kept faction before
      · exact ⟨faction, after, rfl⟩
    obtain ⟨row', inRows, same⟩ := left
    exact ⟨row', rows ▸ inRows, same⟩

/-! ## The factions of a system -/

theorem checked_upsertSystemFactions (sound : db.Sound) {systemId : Uuid} {factionIds : List Uuid}
    (system : db.StoresSystem systemId) (factions : ∀ id ∈ factionIds, db.StoresFaction id)
    (done : upsertSystemFactions env systemId factionIds db = .ok db') :
    CheckedSteps db db' := by
  obtain ⟨middle, inserted, deleted⟩ := bind_eq_ok.mp done
  have first : CheckedStep db middle := by
    refine checked_writeSystemFactions sound (.insertedOrSkipped _ _) (fun row member => ?_)
      (orFail_eq_ok.mp inserted)
    rcases (mem_insertOrSkip _ _ _).2 row member with old | new
    · exact sound.keys.systemFactions row old
    · obtain ⟨factionId, listed, rfl⟩ := List.mem_map.mp new
      exact ⟨system, factions factionId listed⟩
  have second : CheckedStep middle db' :=
    checked_writeSystemFactions first.sound (.deleted _)
      (fun row member => first.sound.keys.systemFactions row (List.mem_filter.mp member).1)
      (orFail_eq_ok.mp deleted)
  exact .tail (.single first) second

theorem checked_cleanupFactionStates (sound : db.Sound) {systemId : Uuid} {factionIds : List Uuid}
    (done : cleanupFactionStates env systemId factionIds db = .ok db') :
    CheckedSteps db db' :=
  .single (checked_writeFactionStates sound (.deleted _)
    (fun row member => sound.keys.factionStates row (List.mem_filter.mp member).1)
    (orFail_eq_ok.mp done))

theorem checked_syncSystemControllingFaction (sound : db.Sound) {systemId : Uuid}
    {controllingFactionId : JsLookup Uuid}
    (faction : ∀ id, controllingFactionId = .value id → db.StoresFaction id)
    (done : syncSystemControllingFaction env systemId controllingFactionId db = .ok db') :
    CheckedSteps db db' := by
  cases controllingFactionId with
  | value id =>
      refine .single (checked_writeSystems sound (.updated _ _) (fun row member => ?_)
        (fun row member => ?_) (orFail_eq_ok.mp done))
      · refine ⟨_, List.mem_map_of_mem member, ?_⟩
        split <;> rfl
      · obtain ⟨old, inRows, rfl⟩ := List.mem_map.mp member
        split
        · intro other given
          obtain rfl := Option.some.inj given
          exact faction id rfl
        · exact sound.keys.systems old inRows
  | inherited => exact absurd done throw_ne_ok
  | null =>
      obtain rfl := pure_eq_ok.mp done
      exact .refl
  | undefined =>
      obtain rfl := pure_eq_ok.mp done
      exact .refl

theorem checked_upsertFactionStates (sound : db.Sound) {systemId : Uuid}
    {factions : List (FactionElement K)} {factionIdMap : OrderedMap String Uuid}
    (system : db.StoresSystem systemId)
    (known : ∀ name id, lookupFactionId factionIdMap name = .value id → db.StoresFaction id)
    (done : upsertFactionStates env systemId factions factionIdMap db = .ok db') :
    CheckedSteps db db' := by
  simp only [upsertFactionStates, bind_eq_ok, orFail_eq_ok] at done
  obtain ⟨proposed, parsed, outcome, upserted, written⟩ := done
  refine .single (checked_writeFactionStates sound (.upserted upserted) (fun row member => ?_) written)
  rcases mem_of_upsertRows upserted member with old | new | ⟨old, inRows, wanted, -, rfl⟩
  · exact sound.keys.factionStates row old
  · obtain ⟨faction, -, index, read⟩ := (proposedStates_iff parsed).1 row new
    obtain ⟨found, here, -⟩ := key_parseFactionStateInsert read
    exact ⟨known _ _ found, here ▸ system⟩
  · exact ⟨(sound.keys.factionStates old inRows).factionId, (sound.keys.factionStates old inRows).systemId⟩

theorem storesFaction_of_findFactionId {name : String} {id : Uuid}
    (found : db.findFactionId name = some id) : db.StoresFaction id := by
  obtain ⟨row, known, same⟩ := Option.map_eq_some_iff.mp found
  exact ⟨row, List.mem_of_find?_eq_some known, same⟩

/-- The stakes of a conflict are stations that were found. -/
theorem refersTo_findStationId (name : String) (systemId : Uuid) :
    RefersTo db.StoresStation (db.findStationId name systemId) := by
  intro id found
  unfold Db.findStationId at found
  split at found
  · cases found
  · obtain ⟨row, known, same⟩ := Option.map_eq_some_iff.mp found
    exact ⟨row, List.mem_of_find?_eq_some known, same⟩

theorem refers_conflictsData {systemId : Uuid} {conflicts : List (Conflict K)}
    (system : db.StoresSystem systemId) {row : FactionConflictRow K}
    (member : some row ∈ conflictsData env systemId db conflicts) : row.Refers db := by
  obtain ⟨index, small, parsed⟩ := List.mem_mapIdx.mp member
  obtain ⟨conflict, -, resolved⟩ := List.mem_filterMap.mp (List.getElem_mem small)
  simp only [resolveConflict, Option.bind_eq_bind, Option.bind_eq_some_iff, Option.pure_def,
    Option.some.injEq] at resolved
  obtain ⟨faction1Id, found1, faction2Id, found2, same⟩ := resolved
  rw [← same] at parsed
  simp only [parseFactionConflictInsert, Option.bind_eq_bind, Option.bind_eq_some_iff,
    Option.pure_def, Option.some.injEq] at parsed
  obtain ⟨type, -, status, -, -, -, -, -, rfl⟩ := parsed
  refine ⟨system, storesFaction_of_findFactionId found1, fun id given => ?_,
    refersTo_findStationId _ _, refersTo_findStationId _ _⟩
  obtain rfl := Option.some.inj given
  exact storesFaction_of_findFactionId found2

theorem checked_upsertFactionConflicts (sound : db.Sound) {systemId : Uuid}
    {conflicts : List (Conflict K)} (system : db.StoresSystem systemId)
    (done : upsertFactionConflicts env systemId conflicts db = .ok db') :
    CheckedSteps db db' := by
  unfold upsertFactionConflicts at done
  simp only at done
  split at done
  · exact .single (checked_writeFactionConflicts sound (.deleted _)
      (fun row member => sound.keys.factionConflicts row (List.mem_filter.mp member).1)
      (orFail_eq_ok.mp done))
  · simp only [bind_eq_ok, orFail_eq_ok] at done
    obtain ⟨proposed, parsed, outcome, upserted, middle, inserted, deleted⟩ := done
    have proposes : ∀ row ∈ proposed, row.Refers db := fun row listed => by
      have member : some row ∈ conflictsData env systemId db conflicts := by
        rw [mapM_id_eq_some.mp parsed]
        exact List.mem_map_of_mem listed
      exact refers_conflictsData system member
    have first : CheckedStep db middle := by
      refine checked_writeFactionConflicts sound (.upserted upserted) (fun row member => ?_) inserted
      rcases mem_of_upsertRows upserted member with old | new | ⟨old, inRows, wanted, listed, rfl⟩
      · exact sound.keys.factionConflicts row old
      · exact proposes row new
      · have before := sound.keys.factionConflicts old inRows
        have after := proposes wanted listed
        exact ⟨before.systemId, before.factionId, before.opponentFactionId,
          after.factionStakeStationId, after.opponentStakeStationId⟩
    have second : CheckedStep middle db' :=
      checked_writeFactionConflicts first.sound (.deleted _)
        (fun row member => first.sound.keys.factionConflicts row (List.mem_filter.mp member).1) deleted
    exact .tail (.single first) second

/-- The ids of a lookup are ids of the factions it was built from. -/
theorem storesFaction_of_lookup {factions : List FactionRow}
    (stored : ∀ faction ∈ factions, db.StoresFaction faction.id) {name : String} {id : Uuid}
    (found : lookupFactionId (createFactionIdMap factions) name = .value id) :
    db.StoresFaction id := by
  obtain ⟨faction, listed, same⟩ := List.mem_map.mp (mem_of_lookupFactionId found)
  obtain ⟨rfl, -⟩ := Prod.mk.inj same
  exact stored faction listed

theorem lookup_of_value_controllingFactionIdOf {message : SystemMessage K} {id : Uuid}
    {factionIdMap : OrderedMap String Uuid}
    (found : controllingFactionIdOf message factionIdMap = .value id) :
    ∃ name, lookupFactionId factionIdMap name = .value id := by
  unfold controllingFactionIdOf at found
  split at found
  · cases found
  · split at found
    · cases found
    · exact ⟨_, found⟩

theorem checked_processFactionsData (sound : db.Sound) {message : SystemMessage K} {systemId : Uuid}
    (system : db.StoresSystem systemId)
    (done : processFactionsData env message systemId db = .ok db') :
    CheckedSteps db db' := by
  obtain ⟨-, rfl⟩ | ⟨-, stored, factions, present, cleaned, synced, states, upserted, presence,
    cleanup, sync, state, conflicts⟩ := of_processFactionsData done
  · exact .refl
  obtain ⟨first, known⟩ := checked_upsertFactions sound upserted
  have lookups : ∀ name id, lookupFactionId (createFactionIdMap factions) name = .value id →
      stored.StoresFaction id := fun name id found => storesFaction_of_lookup known found
  have second : CheckedSteps stored present :=
    checked_upsertSystemFactions (first.sound sound) (first.grows.systems _ system)
      (fun id listed => by
        obtain ⟨faction, inFactions, rfl⟩ := List.mem_map.mp listed
        exact known faction inFactions) presence
  have third : CheckedSteps stored cleaned :=
    second.trans (checked_cleanupFactionStates (second.sound (first.sound sound)) cleanup)
  have fourth : CheckedSteps stored synced :=
    third.trans (checked_syncSystemControllingFaction (third.sound (first.sound sound))
      (fun id given => by
        obtain ⟨name, found⟩ := lookup_of_value_controllingFactionIdOf given
        exact third.grows.factions id (lookups name id found)) sync)
  have toSynced : CheckedSteps db synced := first.trans fourth
  have toStates : CheckedSteps db states :=
    toSynced.trans (checked_upsertFactionStates (toSynced.sound sound)
      (toSynced.grows.systems _ system)
      (fun name id found => fourth.grows.factions id (lookups name id found)) state)
  exact toStates.trans (checked_upsertFactionConflicts (toStates.sound sound)
    (toStates.grows.systems _ system) conflicts)

/-! ## Powers -/

theorem checked_upsertPowerplayPowers (sound : db.Sound) {message : SystemMessage K}
    {powers : List PowerplayPowerRow}
    (done : upsertPowerplayPowers env message db = .ok (db', powers)) :
    CheckedSteps db db' ∧ ∀ power ∈ powers, db'.StoresPower power.id := by
  unfold upsertPowerplayPowers at done
  simp only at done
  split at done
  · cases pure_eq_ok.mp done
    exact ⟨.refl, fun _ listed => by cases listed⟩
  · split at done
    · exact absurd done throw_ne_ok
    · simp only [bind_eq_ok, orFail_eq_ok, pure_eq_ok] at done
      obtain ⟨names, -, ⟨table, changes⟩, write, same⟩ := done
      cases same
      exact ⟨.single (checked_powerplayPowers sound
        (mem_insertOrSkip _ _ _).1 write),
        fun power listed => ⟨power, (List.mem_filter.mp listed).1, rfl⟩⟩

theorem checked_upsertSystemPowerplayPowers (sound : db.Sound) {systemId : Uuid}
    {powers : List PowerplayPowerRow} (system : db.StoresSystem systemId)
    (known : ∀ power ∈ powers, db.StoresPower power.id)
    (done : upsertSystemPowerplayPowers systemId powers db = .ok db') :
    CheckedSteps db db' := by
  unfold upsertSystemPowerplayPowers at done
  split at done
  · obtain rfl := pure_eq_ok.mp done
    exact .single (checked_systemPowerplayPowers sound
      (fun row member => sound.keys.systemPowerplayPowers row (List.mem_filter.mp member).1)
      (Table.write_deleteRows _ _))
  · simp only [bind_eq_ok, orFail_eq_ok, pure_eq_ok] at done
    obtain ⟨⟨table, changes⟩, write, rfl⟩ := done
    have first : CheckedStep db { db with systemPowerplayPowers := table } := by
      refine checked_systemPowerplayPowers sound (fun row member => ?_) write
      rcases (mem_insertOrSkip _ _ _).2 row member with old | new
      · exact sound.keys.systemPowerplayPowers row old
      · obtain ⟨powerId, listed, rfl⟩ := List.mem_map.mp new
        obtain ⟨power, inPowers, rfl⟩ := List.mem_map.mp listed
        exact ⟨system, known power inPowers⟩
    exact .tail (.single first) (checked_systemPowerplayPowers first.sound
      (fun row member => first.sound.keys.systemPowerplayPowers row (List.mem_filter.mp member).1)
      (Table.write_deleteRows _ _))

/-- Progress is recorded under the id of a power that was given. -/
theorem exists_of_get_powerplayConflictsByPowerId {message : SystemMessage K}
    {powers : List PowerplayPowerRow} {powerId : Uuid} {progress : K}
    (found : (powerplayConflictsByPowerId message powers).get powerId = some progress) :
    ∃ power ∈ powers, power.id = powerId := by
  revert found
  unfold powerplayConflictsByPowerId
  induction message.powerplayConflictProgress.getD [] using List.reverseRecOn with
  | nil =>
      intro found
      cases found
  | append_singleton earlier conflict ih =>
      intro found
      rw [List.foldl_append, List.foldl_cons, List.foldl_nil] at found
      split at found
      · exact ih found
      · rename_i power listed
        rw [OrderedMap.get_set] at found
        split at found
        · rename_i same
          exact ⟨power, List.mem_of_find?_eq_some listed, same.symm⟩
        · exact ih found

theorem checked_upsertPowerplayConflicts (sound : db.Sound) {systemId : Uuid}
    {message : SystemMessage K} {powers : List PowerplayPowerRow} (system : db.StoresSystem systemId)
    (known : ∀ power ∈ powers, db.StoresPower power.id)
    (done : upsertPowerplayConflicts env systemId message powers db = .ok db') :
    CheckedSteps db db' := by
  unfold upsertPowerplayConflicts at done
  simp only at done
  split at done
  · obtain rfl := pure_eq_ok.mp done
    exact .single (checked_powerplayConflicts sound
      (fun row member => sound.keys.powerplayConflicts row (List.mem_filter.mp member).1)
      (Table.write_deleteRows _ _))
  · simp only [bind_eq_ok, orFail_eq_ok, pure_eq_ok] at done
    obtain ⟨validated, valid, outcome, upserted, ⟨table, changes⟩, write, rfl⟩ := done
    obtain rfl : (powerplayConflictsByPowerId message powers).entries = validated := by
      split at valid
      · exact Option.some.inj valid
      · cases valid
    have first : CheckedStep db { db with powerplayConflicts := table } := by
      refine checked_powerplayConflicts sound (fun row member => ?_) write
      rcases mem_of_upsertRows upserted member with old | new | ⟨old, inRows, wanted, -, rfl⟩
      · exact sound.keys.powerplayConflicts row old
      · obtain ⟨index, small, rfl⟩ := List.mem_mapIdx.mp new
        obtain ⟨power, listed, same⟩ := exists_of_get_powerplayConflictsByPowerId
          (OrderedMap.get_eq_some_iff.mpr (List.getElem_mem small))
        exact ⟨system, same ▸ known power listed⟩
      · exact ⟨(sound.keys.powerplayConflicts old inRows).systemId,
          (sound.keys.powerplayConflicts old inRows).powerId⟩
    exact .tail (.single first) (checked_powerplayConflicts first.sound
      (fun row member => first.sound.keys.powerplayConflicts row (List.mem_filter.mp member).1)
      (Table.write_deleteRows _ _))

theorem checked_processPowerplayData (sound : db.Sound) {message : SystemMessage K}
    {systemId : Uuid} (system : db.StoresSystem systemId)
    (done : processPowerplayData env message systemId db = .ok db') :
    CheckedSteps db db' := by
  obtain ⟨⟨first, powers⟩, upserted, done⟩ := bind_eq_ok.mp done
  obtain ⟨second, associated, done⟩ := bind_eq_ok.mp done
  obtain ⟨third, conflicts, done⟩ := bind_eq_ok.mp done
  obtain ⟨toFirst, known⟩ := checked_upsertPowerplayPowers sound upserted
  have associates : CheckedSteps first second :=
    checked_upsertSystemPowerplayPowers (toFirst.sound sound) (toFirst.grows.systems _ system) known
      associated
  have toSecond : CheckedSteps db second := toFirst.trans associates
  have toThird : CheckedSteps db third :=
    toSecond.trans (checked_upsertPowerplayConflicts (toSecond.sound sound)
      (toSecond.grows.systems _ system)
      (fun power listed => associates.grows.powers _ (known power listed)) conflicts)
  split at done
  · exact toThird.tail (checked_deleteStations (toThird.sound sound) (orFail_eq_ok.mp done))
  · obtain rfl := pure_eq_ok.mp done
    exact toThird

/-! ## Stations -/

theorem checked_updateStationById (sound : db.Sound) {stationId : Uuid} {data : StationInsert K}
    {updatedAt : Timestamp} (done : db.updateStationById stationId data updatedAt = .ok db')
    (system : db.StoresSystem data.systemId) (faction : db.StoresFaction data.controllingFactionId) :
    CheckedSteps db db' := by
  simp only [Db.updateStationById, bind_eq_ok, orFail_eq_ok, pure_eq_ok] at done
  obtain ⟨⟨table, changes⟩, write, rfl⟩ := done
  refine .single (checked_stations sound (fun row member => ?_)
    (fun row member => ?_) write)
  · refine ⟨_, List.mem_map_of_mem member, ?_⟩
    split <;> rfl
  · obtain ⟨old, inRows, rfl⟩ := List.mem_map.mp member
    split
    · exact ⟨system, faction⟩
    · exact sound.keys.stations old inRows

theorem checked_insertStation (sound : db.Sound) {data : StationInsert K}
    (system : db.StoresSystem data.systemId)
    (faction : db.StoresFaction data.controllingFactionId)
    (done : db.insertStation env data = .ok db') : CheckedSteps db db' := by
  simp only [Db.insertStation, bind_eq_ok, orFail_eq_ok, pure_eq_ok] at done
  obtain ⟨⟨table, changes⟩, write, rfl⟩ := done
  refine .single (checked_stations sound
    (fun row member => ⟨row, List.mem_append_left _ member, rfl⟩) (fun row member => ?_) write)
  rcases List.mem_append.mp member with old | new
  · exact sound.keys.stations row old
  · rw [List.mem_singleton.mp new]
    exact ⟨system, faction⟩

theorem checked_deleteStationById (sound : db.Sound) {stationId : Uuid}
    (done : db.deleteStationById env.now stationId = .ok db') : CheckedSteps db db' :=
  .single (checked_deleteStations sound (orFail_eq_ok.mp done))

theorem checked_upsertRegularStation (sound : db.Sound) {data : StationInsert K}
    {updatedAt : Timestamp} (system : db.StoresSystem data.systemId)
    (faction : db.StoresFaction data.controllingFactionId)
    (done : upsertRegularStation env data updatedAt db = .ok db') : CheckedSteps db db' := by
  unfold upsertRegularStation at done
  split at done
  · exact checked_insertStation sound system faction done
  · split at done
    · obtain ⟨middle, deleted, updated⟩ := bind_eq_ok.mp done
      have first : CheckedSteps db middle := checked_deleteStationById sound deleted
      exact first.trans (checked_updateStationById (first.sound sound) updated
        (first.grows.systems _ system) (first.grows.factions _ faction))
    · exact checked_updateStationById sound done system faction
  · exact checked_updateStationById sound done system faction
  · exact checked_updateStationById sound done system faction

theorem checked_deleteDuplicates (sound : db.Sound) (duplicates : List (StationRow K))
    (done : duplicates.foldlM
      (fun db duplicate => db.deleteStationById env.now duplicate.id) db = .ok db') :
    CheckedSteps db db' := by
  induction duplicates generalizing db with
  | nil =>
      obtain rfl : db = db' := by simpa using done
      exact .refl
  | cons duplicate rest ih =>
      rw [List.foldlM_cons] at done
      obtain ⟨middle, deleted, later⟩ := bind_eq_ok.mp done
      have first : CheckedSteps db middle := checked_deleteStationById sound deleted
      exact first.trans (ih (first.sound sound) later)

theorem checked_deleteReusedMarketId (sound : db.Sound)
    {marketIdStation survivor : Option (StationRow K)}
    (done : deleteReusedMarketId env marketIdStation survivor db = .ok db') :
    CheckedSteps db db' := by
  unfold deleteReusedMarketId at done
  split at done
  · split at done
    · exact checked_deleteStationById sound done
    · obtain rfl := pure_eq_ok.mp done
      exact .refl
  · obtain rfl := pure_eq_ok.mp done
    exact .refl

theorem checked_upsertStrongholdCarrier (sound : db.Sound) {data : StationInsert K}
    {updatedAt : Timestamp} (system : db.StoresSystem data.systemId)
    (faction : db.StoresFaction data.controllingFactionId)
    (done : upsertStrongholdCarrier env data updatedAt db = .ok db') :
    CheckedSteps db db' := by
  unfold upsertStrongholdCarrier at done
  split at done
  · obtain ⟨first, duplicates, done⟩ := bind_eq_ok.mp done
    obtain ⟨second, reused, done⟩ := bind_eq_ok.mp done
    have toFirst : CheckedSteps db first := checked_deleteDuplicates sound _ duplicates
    have toSecond : CheckedSteps db second :=
      toFirst.trans (checked_deleteReusedMarketId (toFirst.sound sound) reused)
    have system' := toSecond.grows.systems _ system
    have faction' := toSecond.grows.factions _ faction
    split at done
    · exact toSecond.trans (checked_insertStation (toSecond.sound sound) system' faction' done)
    · exact toSecond.trans (checked_updateStationById (toSecond.sound sound) done system' faction')
  · obtain rfl := pure_eq_ok.mp done
    exact .refl

theorem controllingFactionId_of_parseStationInsert {data : StationData K}
    {payload : StationWritePayload} {validated : StationInsert K}
    (parsed : parseStationInsert P data payload = some validated) :
    validated.controllingFactionId = data.controllingFactionId := by
  simp only [parseStationInsert, Option.bind_eq_bind, Option.bind_eq_some_iff, Option.pure_def,
    Option.some.injEq] at parsed
  obtain ⟨_, -, _, -, _, -, _, -, _, -, _, -, _, -, _, -, _, -, rfl⟩ := parsed
  rfl

theorem checked_upsertStation (sound : db.Sound) {data : StationData K}
    (system : db.StoresSystem data.systemId)
    (faction : db.StoresFaction data.controllingFactionId)
    (done : upsertStation env data db = .ok db') : CheckedSteps db db' := by
  obtain ⟨validated, parsed, done⟩ := bind_eq_ok.mp done
  simp only at done
  have same : (normalizeStrongholdCarrierName validated).systemId = data.systemId ∧
      (normalizeStrongholdCarrierName validated).controllingFactionId =
        data.controllingFactionId := by
    obtain ⟨-, -, here, -⟩ := of_parseStationInsert (orFail_eq_ok.mp parsed)
    have controls := controllingFactionId_of_parseStationInsert (orFail_eq_ok.mp parsed)
    unfold normalizeStrongholdCarrierName
    split
    · exact ⟨here, controls⟩
    · exact ⟨here, controls⟩
  rw [← same.1] at system
  rw [← same.2] at faction
  split at done
  · exact checked_upsertStrongholdCarrier sound system faction done
  · exact checked_upsertRegularStation sound system faction done

/-- The controlling faction of a station is inserted or found before the station. -/
theorem checked_upsertStationFromLocation (sound : db.Sound) {message : LocationMessage K}
    {systemId : Uuid} (system : db.StoresSystem systemId)
    (done : upsertStationFromLocation env message systemId db = .ok db') :
    CheckedSteps db db' := by
  unfold upsertStationFromLocation at done
  split at done
  · obtain rfl := pure_eq_ok.mp done
    exact .refl
  · split at done
    · obtain rfl := pure_eq_ok.mp done
      exact .refl
    · obtain ⟨⟨middle, factions⟩, upserted, done⟩ := bind_eq_ok.mp done
      obtain ⟨controllingFaction, head, station⟩ := bind_eq_ok.mp done
      obtain ⟨first, known⟩ := checked_upsertFactions sound upserted
      exact first.trans (checked_upsertStation (first.sound sound) (first.grows.systems _ system)
        (known _ (List.mem_of_head? (orFail_eq_ok.mp head))) station)

theorem checked_upsertStationFromDocked (sound : db.Sound) {message : DockedMessage K}
    {systemId : Uuid} (system : db.StoresSystem systemId)
    (done : upsertStationFromDocked env message systemId db = .ok db') :
    CheckedSteps db db' := by
  unfold upsertStationFromDocked at done
  split at done
  · obtain rfl := pure_eq_ok.mp done
    exact .refl
  · obtain ⟨⟨middle, factions⟩, upserted, done⟩ := bind_eq_ok.mp done
    obtain ⟨controllingFaction, head, station⟩ := bind_eq_ok.mp done
    obtain ⟨first, known⟩ := checked_upsertFactions sound upserted
    exact first.trans (checked_upsertStation (first.sound sound) (first.grows.systems _ system)
      (known _ (List.mem_of_head? (orFail_eq_ok.mp head))) station)

/-! ## Transactions -/

/-- **Every transaction is a series of statements that leave all references stored.** -/
theorem checked_processMessage (sound : db.Sound) {message : JournalMessage K}
    (done : processMessage env message db = .ok db') : CheckedSteps db db' := by
  cases processed_of_processMessage done with
  | full message done =>
      obtain ⟨-, rfl⟩ | ⟨-, afterSystem, system, afterPowers, afterFactions, upserted, powers,
        factions, station⟩ := of_processMessage done
      · exact .refl
      obtain ⟨first, present⟩ := checked_upsertSystem sound upserted
      have toPowers : CheckedSteps db afterPowers :=
        first.trans (checked_processPowerplayData (first.sound sound) present powers)
      have second : CheckedSteps afterSystem afterPowers :=
        checked_processPowerplayData (first.sound sound) present powers
      have third : CheckedSteps afterPowers afterFactions :=
        checked_processFactionsData (toPowers.sound sound) (second.grows.systems _ present) factions
      have toFactions : CheckedSteps db afterFactions := toPowers.trans third
      cases message with
      | fsdJump message =>
          obtain rfl := pure_eq_ok.mp station
          exact toFactions
      | location message =>
          exact toFactions.trans (checked_upsertStationFromLocation (toFactions.sound sound)
            (third.grows.systems _ (second.grows.systems _ present)) station)
  | docked message afterSystem system upserted station =>
      obtain ⟨first, present⟩ := checked_upsertSystem sound upserted
      exact first.trans (checked_upsertStationFromDocked (first.sound sound) present station)
  | unused message dropped same =>
      obtain rfl := same
      exact .refl

theorem WorkerReachable.sound (reachable : WorkerReachable db) : db.Sound :=
  reachable.of_processed Db.sound_empty fun _ _ _ _ sound processed =>
    (checked_processMessage sound processed).sound sound

/-- **The worker leaves no dangling reference.** After any messages, the failed ones rolled
back, every foreign key of the schema names a stored row. -/
theorem foreign_keys_hold (reachable : WorkerReachable db) : db.ForeignKeys := reachable.sound.keys

/-- **Every id in an event is the id of a stored row**, when the event is inserted and after
all messages that follow. -/
theorem events_resolve (reachable : WorkerReachable db) {row : OutboxRow K}
    (inserted : row ∈ db.eventOutbox) (later : Db P) (run : Reachable workerStep db later) :
    row.toOutboxInsert.Resolves later := by
  have kept : ∀ before (job : TxEnv × JournalMessage K) after, before.Sound ∧ db.Grows before →
      True → workerStep before job = some after → after.Sound ∧ db.Grows after := by
    intro before job after holds _ taken
    obtain rfl := Option.some.inj taken
    obtain same | ⟨left, processed, same⟩ := committed_eq before (processMessage job.1 job.2 before)
    · rwa [same]
    · rw [same]
      have steps : CheckedSteps before left := checked_processMessage holds.1 processed
      exact ⟨steps.sound holds.1, holds.2.trans steps.grows⟩
  have grown := (run.invariant ⟨reachable.sound, .refl db⟩ kept).2
  exact (reachable.sound.events row inserted).mono grown

end ForeignKeys

/-! ## Sample runs -/

/-- `sampleLocation` deletes the station that is the stake of a war in another system. -/
theorem foreign_keys_hold_sample : ∃ before after : Db asciiPlatform,
    (before.ForeignKeys ∧ before.factionConflicts.rows.any (fun row =>
      row.factionStakeStationId.isSome) = true) ∧
    after.ForeignKeys ∧ after.factionConflicts.rows.any (fun row =>
      row.factionStakeStationId.isNone && row.factionStake.isSome) = true := by
  obtain ⟨before, run, observed⟩ := exists_reachable_of_execute workerStep
    (Db.empty : Db asciiPlatform) sampleStakes
    (fun before => before.factionConflicts.rows.any (fun row => row.factionStakeStationId.isSome) &&
      (committed before (processMessage (sampleEnv 4)
        (FullSystemMessage.location sampleLocation).toJournal before)).factionConflicts.rows.any
          fun row => row.factionStakeStationId.isNone && row.factionStake.isSome)
    (by decide +kernel)
  obtain ⟨stake, lost⟩ := Bool.and_eq_true_iff.mp observed
  have taken : workerStep before (sampleEnv 4, (FullSystemMessage.location sampleLocation).toJournal) =
    some (committed before (processMessage (sampleEnv 4)
      (FullSystemMessage.location sampleLocation).toJournal before)) := rfl
  exact ⟨before, _, ⟨foreign_keys_hold run, stake⟩, foreign_keys_hold (run.step trivial taken), lost⟩

/-- The system of an event of the first message is stored after the second. -/
theorem events_resolve_sample : ∃ (db later : Db asciiPlatform) (row : OutboxRow ℚ),
    row ∈ db.eventOutbox ∧ row.toOutboxInsert.Resolves later := by
  obtain ⟨db, run, observed⟩ := exists_reachable_of_execute workerStep
    (Db.empty : Db asciiPlatform) sampleStakes (fun db => db.eventOutbox.length ≠ 0)
    (by decide +kernel)
  obtain ⟨row, member⟩ := List.exists_mem_of_length_pos
    (Nat.pos_of_ne_zero (of_decide_eq_true observed))
  have taken : workerStep db (sampleEnv 4, .location sampleLocation) =
    some (committed db (processMessage (sampleEnv 4) (.location sampleLocation) db)) := rfl
  have further : Reachable workerStep db _ := .step .start trivial taken
  exact ⟨db, _, row, member, events_resolve run member _ further⟩

end EliteHubVault
