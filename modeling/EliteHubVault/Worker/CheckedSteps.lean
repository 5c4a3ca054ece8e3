import EliteHubVault.ControlThreat.Payloads
import EliteHubVault.Database.ForeignKeys
import EliteHubVault.Library.Statements
import EliteHubVault.Lifecycle.Subscriber
import EliteHubVault.Worker.Mirror

/-!
# Statements after which all references are stored

A statement leaves all references stored (`CheckedStep`) when the rows it writes refer to
stored rows: its triggers write ids of rows that the statement mentions, or ids that were
stored in a reference.
-/

set_option autoImplicit false
set_option linter.unusedSectionVars false

namespace EliteHubVault

open Library

section CheckedSteps

variable {K : Type} [Field K] [LinearOrder K] {P : Platform K} {db db' : Db P} {now : Timestamp}

/-! ## Events of the triggers -/

/-- An event with the id of its system resolves when each of its three factions does. -/
theorem resolves_of_properties {event : OutboxInsert K} {systemId : Uuid}
    (stored : db.StoresSystem systemId) (aggregate : event.aggregateId = some systemId)
    (named : event.payload.field? "systemId" = some (.ofUuid systemId))
    (faction : NamesFaction db (event.payload.field? "factionId"))
    (opponent : NamesFaction db (event.payload.field? "opponentFactionId"))
    (challenger : NamesFaction db (event.payload.field? "challengerFactionId")) :
    event.Resolves db := by
  refine ⟨⟨systemId, stored, aggregate, named⟩, fun name listed => ?_⟩
  simp only [factionProperties, List.mem_cons, List.not_mem_nil, or_false] at listed
  rcases listed with rfl | rfl | rfl
  · exact faction
  · exact opponent
  · exact challenger

/-- The presence events of a change. -/
theorem resolves_factionPresenceChanged {change : Change SystemFactionRow}
    (refers : ∀ row ∈ change.versions, row.Refers db) :
    ∀ event ∈ enqueueFactionPresenceChangedEvent (K := K) change, event.Resolves db := by
  intro event member
  cases change with
  | insert new =>
      obtain rfl := List.mem_singleton.mp member
      obtain ⟨system, faction⟩ := refers new List.mem_cons_self
      exact resolves_of_properties system rfl rfl (namesFaction_ofUuid faction) namesFaction_none
        namesFaction_none
  | update old new => cases member
  | delete old =>
      obtain rfl := List.mem_singleton.mp member
      obtain ⟨system, faction⟩ := refers old List.mem_cons_self
      exact resolves_of_properties system rfl rfl (namesFaction_ofUuid faction) namesFaction_none
        namesFaction_none

theorem resolves_factionStateEvent {systemId factionId : Uuid} (system : db.StoresSystem systemId)
    (faction : db.StoresFaction factionId) (lifecycle : String) (state : FactionState) :
    (factionStateEvent (K := K) systemId factionId lifecycle state).Resolves db :=
  resolves_of_properties system rfl rfl (namesFaction_ofUuid faction) namesFaction_none
    namesFaction_none

theorem resolves_emitFactionStateLifecycleEvents {systemId factionId : Uuid}
    (system : db.StoresSystem systemId) (faction : db.StoresFaction factionId)
    (oldPending oldActive newPending newActive : List FactionState) :
    ∀ event ∈ emitFactionStateLifecycleEvents (K := K) systemId factionId oldPending oldActive
      newPending newActive, event.Resolves db := by
  intro event member
  simp only [emitFactionStateLifecycleEvents, List.mem_append, List.mem_map] at member
  rcases member with (⟨state, -, rfl⟩ | ⟨state, -, rfl⟩) | ⟨state, -, rfl⟩ <;>
    exact resolves_factionStateEvent system faction _ state

/-- The state events of a change. -/
theorem resolves_factionStateChanged {change : Change (FactionStateRow K)}
    (refers : ∀ row ∈ change.versions, row.Refers db) :
    ∀ event ∈ enqueueFactionStateChangedEvents change, event.Resolves db := by
  cases change with
  | insert new =>
      obtain ⟨faction, system⟩ := refers new List.mem_cons_self
      exact resolves_emitFactionStateLifecycleEvents system faction _ _ _ _
  | update old new =>
      obtain ⟨faction, system⟩ := refers new (List.mem_cons_of_mem _ List.mem_cons_self)
      exact resolves_emitFactionStateLifecycleEvents system faction _ _ _ _
  | delete old =>
      obtain ⟨faction, system⟩ := refers old List.mem_cons_self
      exact resolves_emitFactionStateLifecycleEvents system faction _ _ _ _

theorem resolves_emitFactionConflictLifecycleEvent {row : FactionConflictRow K}
    (refers : row.Refers db) (lifecycle : String) :
    (emitFactionConflictLifecycleEvent row lifecycle).Resolves db := by
  refine resolves_of_properties refers.systemId rfl rfl (namesFaction_ofUuid refers.factionId) ?_ ?_
  · have known := refers.opponentFactionId
    cases given : row.opponentFactionId with
    | none =>
        rw [emitFactionConflictLifecycleEvent, given]
        exact namesFaction_none
    | some opponent =>
        rw [emitFactionConflictLifecycleEvent, given]
        exact namesFaction_ofUuid (known opponent given)
  · cases given : row.opponentFactionId <;>
      · rw [emitFactionConflictLifecycleEvent, given]
        exact namesFaction_none

/-- The conflict events of a change. -/
theorem resolves_factionConflictChanged {change : Change (FactionConflictRow K)}
    (refers : ∀ row ∈ change.versions, row.Refers db) :
    ∀ event ∈ enqueueFactionConflictChangedEvents change, event.Resolves db := by
  intro event member
  obtain ⟨row, mentioned, lifecycle, rfl⟩ := of_mem_enqueueFactionConflictChangedEvents member
  exact resolves_emitFactionConflictLifecycleEvent (refers row mentioned) lifecycle.label

theorem resolves_systemPowerplayUpdated {old new : SystemRow K} (system : db.StoresSystem new.id) :
    ∀ event ∈ enqueueSystemPowerplayUpdatedEvent old new, event.Resolves db := by
  intro event member
  unfold enqueueSystemPowerplayUpdatedEvent at member
  extract_lets changedFields at member
  split at member
  · cases member
  · obtain rfl := List.mem_singleton.mp member
    exact resolves_of_properties system rfl rfl namesFaction_none namesFaction_none namesFaction_none

/-- The threat events of a refresh report what is stored in the two rows. -/
theorem resolves_controlThreatEvents {systemId : Uuid} (system : db.StoresSystem systemId)
    {previous : Option (ControlThreatRow K)} {row : ControlThreatRow K}
    (before : ∀ old, previous = some old → old.Refers db) (after : row.Refers db) :
    ∀ event ∈ controlThreatEvents systemId previous row, event.Resolves db := by
  have resolves : ∀ (factionId challenger : Option Uuid) (status : String) (gap : Option K),
      RefersTo db.StoresFaction factionId → RefersTo db.StoresFaction challenger →
        (controlThreatEvent systemId factionId status challenger gap).Resolves db :=
    fun _ _ _ _ faction challenger => resolves_of_properties system rfl rfl
      (namesFaction_ofNullable faction) namesFaction_none (namesFaction_ofNullable challenger)
  refine forall_mem_controlThreatEvents.mpr ⟨fun _ _ => resolves _ _ _ _ after.factionId
    after.challengerFactionId, fun known was _ _ => ?_⟩
  obtain ⟨faction, challenger⟩ := before known was
  refine resolves _ _ _ _ (fun id given => ?_) fun id given => ?_
  · exact (orElse_eq_some_iff.mp given).elim (faction id) fun later => after.factionId id later.2
  · exact (orElse_eq_some_iff.mp given).elim (challenger id)
      fun later => after.challengerFactionId id later.2

/-! ## Refreshes of the threat table -/

namespace Db

/-- What a refresh computes are ids of the system's controller and of a faction with a state. -/
theorem refers_currentControlThreat (keys : db.ForeignKeys) (systemId : Uuid) :
    (db.currentControlThreat now systemId).Refers db := by
  refine ⟨fun id given => ?_, fun id given => ?_⟩
  · obtain ⟨row, found, controls⟩ := Option.bind_eq_some_iff.mp given
    exact keys.systems row (List.mem_of_find?_eq_some found) id controls
  · obtain ⟨row, ranked, rfl⟩ := Option.map_eq_some_iff.mp given
    split at ranked
    · have member := (List.mem_filter.mp ((List.mem_insertionSort _).mp
        (List.mem_of_head? ranked))).1
      exact (keys.factionStates row (List.mem_filter.mp member).1).factionId
    · cases ranked

theorem grows_refresh (now : Timestamp) (systemId : Uuid) (db : Db P) :
    db.Grows (db.refreshSystemFactionControlThreat now systemId) :=
  ⟨fun _ has => has, fun _ has => has, fun _ has => has⟩

theorem Sound.refresh (sound : db.Sound) {systemId : Uuid} (system : db.StoresSystem systemId) :
    (db.refreshSystemFactionControlThreat now systemId).Sound := by
  have current : (db.currentControlThreat now systemId).Refers db :=
    refers_currentControlThreat sound.keys systemId
  have told := sound.enqueue now (resolves_controlThreatEvents system
    (fun old found => (sound.keys.systemFactionControlThreats systemId old found).2) current)
  refine told.of_rows {} { threats := fun other row found => ?_ } rfl
  rw [threats_refresh, OrderedMap.get_set] at found
  split at found
  · rename_i same
    obtain rfl := Option.some.inj found
    exact .inr ⟨same ▸ system, current.mono (grows_refresh now systemId db)⟩
  · exact .inl found

theorem Sound.foldl_refresh (sound : db.Sound) {systemIds : List Uuid}
    (systems : ∀ systemId ∈ systemIds, db.StoresSystem systemId) :
    (systemIds.foldl (refreshSystemFactionControlThreat now) db).Sound := by
  induction systemIds generalizing db with
  | nil => exact sound
  | cons systemId rest ih =>
      exact ih (sound.refresh (systems systemId List.mem_cons_self))
        fun other listed => systems other (List.mem_cons_of_mem _ listed)

/-! ## Statements with their triggers -/

theorem Sound.afterFactionStates (sound : db.Sound) {changes : List (Change (FactionStateRow K))}
    (refers : ∀ change ∈ changes, ∀ row ∈ change.versions, row.Refers db) :
    (db.afterFactionStates now changes).Sound := by
  have told : (db.enqueue now (changes.flatMap enqueueFactionStateChangedEvents)).Sound :=
    sound.enqueue now fun event member => by
      obtain ⟨change, listed, emitted⟩ := List.mem_flatMap.mp member
      exact resolves_factionStateChanged (refers change listed) event emitted
  have visited : ((visitedByStates changes).foldl (refreshSystemFactionControlThreat now)
      (db.enqueue now (changes.flatMap enqueueFactionStateChangedEvents))).Sound :=
    told.foldl_refresh fun systemId member => by
      obtain ⟨change, listed, row, mentioned, rfl⟩ := exists_of_mem_visitedByStates member
      exact (refers change listed row mentioned).systemId
  rw [visitedByStates, List.foldl_append, List.foldl_append] at visited
  exact visited

theorem Sound.afterSystemFactions (sound : db.Sound) {changes : List (Change SystemFactionRow)}
    (refers : ∀ change ∈ changes, ∀ row ∈ change.versions, row.Refers db) :
    (db.afterSystemFactions now changes).Sound :=
  sound.enqueue now fun event member => by
    obtain ⟨change, listed, emitted⟩ := List.mem_flatMap.mp member
    exact resolves_factionPresenceChanged (refers change listed) event emitted

theorem Sound.afterFactionConflicts (sound : db.Sound)
    {changes : List (Change (FactionConflictRow K))}
    (refers : ∀ change ∈ changes, ∀ row ∈ change.versions, row.Refers db) :
    (db.afterFactionConflicts now changes).Sound :=
  sound.enqueue now fun event member => by
    obtain ⟨change, listed, emitted⟩ := List.mem_flatMap.mp member
    exact resolves_factionConflictChanged (refers change listed) event emitted

theorem Sound.afterSystemChange (sound : db.Sound) {change : Change (SystemRow K)}
    (systems : ∀ row ∈ change.versions, db.StoresSystem row.id) :
    (db.afterSystemChange now change).Sound := by
  cases change with
  | insert new => exact sound
  | delete old => exact sound
  | update old new =>
      have system : db.StoresSystem new.id := systems new (List.mem_cons_of_mem _ List.mem_cons_self)
      simp only [Db.afterSystemChange]
      split
      · exact (sound.refresh system).enqueue now (resolves_systemPowerplayUpdated system)
      · exact sound.enqueue now (resolves_systemPowerplayUpdated system)

theorem systems_afterSystemChange (now : Timestamp) (change : Change (SystemRow K)) (db : Db P) :
    (db.afterSystemChange now change).systems = db.systems := by
  cases change with
  | insert new => rfl
  | delete old => rfl
  | update old new =>
      simp only [Db.afterSystemChange]
      split <;> rfl

theorem Sound.afterSystems (sound : db.Sound) {changes : List (Change (SystemRow K))}
    (systems : ∀ change ∈ changes, ∀ row ∈ change.versions, db.StoresSystem row.id) :
    (db.afterSystems now changes).Sound := by
  induction changes generalizing db with
  | nil => exact sound
  | cons change rest ih =>
      refine ih (sound.afterSystemChange (systems change List.mem_cons_self))
        fun other listed row mentioned => ?_
      rw [StoresSystem, systems_afterSystemChange]
      exact systems other (List.mem_cons_of_mem _ listed) row mentioned

end Db

/-- **A statement after which all references are stored.** It removes no system, faction or
power. -/
structure CheckedStep (db db' : Db P) : Prop where
  sound : db'.Sound
  grows : db.Grows db'

/-- A series of such statements. -/
abbrev CheckedSteps : Db P → Db P → Prop := Relation.ReflTransGen CheckedStep

theorem CheckedSteps.sound (steps : CheckedSteps db db') (sound : db.Sound) : db'.Sound := by
  induction steps with
  | refl => exact sound
  | tail _ step _ => exact step.sound

theorem CheckedSteps.grows (steps : CheckedSteps db db') : db.Grows db' := by
  induction steps with
  | refl => exact .refl db
  | tail _ step ih => exact ih.trans step.grows

/-! ## Statements that pass -/

section Statements

variable (sound : db.Sound)

include sound

theorem checked_writeSystems {outcome : List (SystemRow K) × List (Change (SystemRow K))}
    (statement : Executes db.systems.rows outcome)
    (kept : ∀ row ∈ db.systems.rows, ∃ row' ∈ outcome.1, row'.id = row.id)
    (refers : ∀ row ∈ outcome.1, row.Refers db)
    (written : db.writeSystems now outcome = some db') : CheckedStep db db' := by
  obtain ⟨rows, after⟩ := Db.of_writeSystems written
  rw [← rows] at kept refers
  have still : db.KeepsReferenced { db with systems := db'.systems } :=
    { systems := fun id ⟨row, member, same⟩ => by
        obtain ⟨row', left, sameId⟩ := kept row member
        exact ⟨row', left, sameId.trans same⟩ }
  have stored : Db.Sound { db with systems := db'.systems } :=
    sound.of_rows still { systems := fun row member => .inr ((refers row member).mono still.grows) }
      rfl
  refine ⟨?_, ?_⟩
  · rw [after]
    refine stored.afterSystems fun change listed row mentioned => ?_
    rcases statement.mem_of_mentioned listed mentioned with before | left
    · exact kept row before
    · exact ⟨row, rows ▸ left, rfl⟩
  · rw [Db.frame_writeSystems written]
    exact ⟨still.systems, fun _ has => has, fun _ has => has⟩

theorem checked_writeSystemFactions
    {outcome : List SystemFactionRow × List (Change SystemFactionRow)}
    (statement : Executes db.systemFactions.rows outcome)
    (refers : ∀ row ∈ outcome.1, row.Refers db)
    (written : db.writeSystemFactions now outcome = some db') : CheckedStep db db' := by
  obtain ⟨rows, after⟩ := Db.of_writeSystemFactions written
  have still : db.KeepsReferenced { db with systemFactions := db'.systemFactions } := {}
  have stored : Db.Sound { db with systemFactions := db'.systemFactions } :=
    sound.of_rows still
      { systemFactions := fun row member => .inr ((refers row (rows ▸ member)).mono still.grows) } rfl
  refine ⟨?_, ?_⟩
  · rw [after]
    refine stored.afterSystemFactions fun change listed row mentioned => ?_
    rcases statement.mem_of_mentioned listed mentioned with before | left
    · exact (sound.keys.systemFactions row before).mono still.grows
    · exact (refers row left).mono still.grows
  · rw [after]
    exact still.grows.trans (Db.grows_enqueue _ _ _)

theorem checked_writeFactionStates
    {outcome : List (FactionStateRow K) × List (Change (FactionStateRow K))}
    (statement : Executes db.factionStates.rows outcome)
    (refers : ∀ row ∈ outcome.1, row.Refers db)
    (written : db.writeFactionStates now outcome = some db') : CheckedStep db db' := by
  obtain ⟨rows, after⟩ := Db.of_writeFactionStates written
  have still : db.KeepsReferenced { db with factionStates := db'.factionStates } := {}
  have stored : Db.Sound { db with factionStates := db'.factionStates } :=
    sound.of_rows still
      { factionStates := fun row member => .inr ((refers row (rows ▸ member)).mono still.grows) } rfl
  refine ⟨?_, ?_⟩
  · rw [after]
    refine stored.afterFactionStates fun change listed row mentioned => ?_
    rcases statement.mem_of_mentioned listed mentioned with before | left
    · exact (sound.keys.factionStates row before).mono still.grows
    · exact (refers row left).mono still.grows
  · rw [Db.frame_writeFactionStates written]
    exact ⟨fun _ has => has, fun _ has => has, fun _ has => has⟩

theorem checked_writeFactionConflicts
    {outcome : List (FactionConflictRow K) × List (Change (FactionConflictRow K))}
    (statement : Executes db.factionConflicts.rows outcome)
    (refers : ∀ row ∈ outcome.1, row.Refers db)
    (written : db.writeFactionConflicts now outcome = some db') : CheckedStep db db' := by
  obtain ⟨rows, after⟩ := Db.of_writeFactionConflicts written
  have still : db.KeepsReferenced { db with factionConflicts := db'.factionConflicts } := {}
  have stored : Db.Sound { db with factionConflicts := db'.factionConflicts } :=
    sound.of_rows still
      { factionConflicts := fun row member => .inr ((refers row (rows ▸ member)).mono still) } rfl
  refine ⟨?_, ?_⟩
  · rw [after]
    refine stored.afterFactionConflicts fun change listed row mentioned => ?_
    rcases statement.mem_of_mentioned listed mentioned with before | left
    · exact (sound.keys.factionConflicts row before).mono still
    · exact (refers row left).mono still
  · rw [after]
    exact still.grows.trans (Db.grows_enqueue _ _ _)

theorem checked_factions {outcome : List FactionRow × List (Change FactionRow)}
    {table : Table FactionRow (FactionRow.Clash P)} {changes : List (Change FactionRow)}
    (kept : ∀ row ∈ db.factions.rows, ∃ row' ∈ outcome.1, row'.id = row.id)
    (written : Table.write outcome = some (table, changes)) :
    CheckedStep db { db with factions := table } := by
  have rows : outcome.1 = table.rows := congrArg Prod.fst (Table.write_eq_some written)
  have still : db.KeepsReferenced { db with factions := table } :=
    { factions := fun id ⟨row, member, same⟩ => by
        obtain ⟨row', left, sameId⟩ := kept row member
        exact ⟨row', rows ▸ left, sameId.trans same⟩ }
  exact ⟨sound.of_rows still {} rfl, still.grows⟩

theorem checked_powerplayPowers {outcome : List PowerplayPowerRow × List (Change PowerplayPowerRow)}
    {table : Table PowerplayPowerRow (PowerplayPowerRow.Clash P)}
    {changes : List (Change PowerplayPowerRow)}
    (kept : ∀ row ∈ db.powerplayPowers.rows, row ∈ outcome.1)
    (written : Table.write outcome = some (table, changes)) :
    CheckedStep db { db with powerplayPowers := table } := by
  have rows : outcome.1 = table.rows := congrArg Prod.fst (Table.write_eq_some written)
  have still : db.KeepsReferenced { db with powerplayPowers := table } :=
    { powers := fun id ⟨row, member, same⟩ => ⟨row, rows ▸ kept row member, same⟩ }
  exact ⟨sound.of_rows still {} rfl, still.grows⟩

theorem checked_systemPowerplayPowers
    {outcome : List SystemPowerplayPowerRow × List (Change SystemPowerplayPowerRow)}
    {table : Table SystemPowerplayPowerRow SystemPowerplayPowerRow.Clash}
    {changes : List (Change SystemPowerplayPowerRow)}
    (refers : ∀ row ∈ outcome.1, row.Refers db)
    (written : Table.write outcome = some (table, changes)) :
    CheckedStep db { db with systemPowerplayPowers := table } := by
  have rows : outcome.1 = table.rows := congrArg Prod.fst (Table.write_eq_some written)
  have still : db.KeepsReferenced { db with systemPowerplayPowers := table } := {}
  exact ⟨sound.of_rows still
    { systemPowerplayPowers := fun row member =>
        .inr ((refers row (rows ▸ member)).mono still.grows) } rfl, still.grows⟩

theorem checked_powerplayConflicts
    {outcome : List (PowerplayConflictRow K) × List (Change (PowerplayConflictRow K))}
    {table : Table (PowerplayConflictRow K) PowerplayConflictRow.Clash}
    {changes : List (Change (PowerplayConflictRow K))}
    (refers : ∀ row ∈ outcome.1, row.Refers db)
    (written : Table.write outcome = some (table, changes)) :
    CheckedStep db { db with powerplayConflicts := table } := by
  have rows : outcome.1 = table.rows := congrArg Prod.fst (Table.write_eq_some written)
  have still : db.KeepsReferenced { db with powerplayConflicts := table } := {}
  exact ⟨sound.of_rows still
    { powerplayConflicts := fun row member =>
        .inr ((refers row (rows ▸ member)).mono still.grows) } rfl, still.grows⟩

theorem checked_stations {outcome : List (StationRow K) × List (Change (StationRow K))}
    {table : Table (StationRow K) (StationRow.Clash P)} {changes : List (Change (StationRow K))}
    (kept : ∀ row ∈ db.stations.rows, ∃ row' ∈ outcome.1, row'.id = row.id)
    (refers : ∀ row ∈ outcome.1, row.Refers db)
    (written : Table.write outcome = some (table, changes)) :
    CheckedStep db { db with stations := table } := by
  have rows : outcome.1 = table.rows := congrArg Prod.fst (Table.write_eq_some written)
  have still : db.KeepsReferenced { db with stations := table } :=
    { stations := fun id ⟨row, member, same⟩ => by
        obtain ⟨row', left, sameId⟩ := kept row member
        exact ⟨row', rows ▸ left, sameId.trans same⟩ }
  exact ⟨sound.of_rows still
    { stations := fun row member => .inr ((refers row (rows ▸ member)).mono still.grows) } rfl,
    still.grows⟩

/-- The references to deleted stations are set to null with them. -/
theorem checked_deleteStations {env : TxEnv} {where_ : StationRow K → Bool}
    (done : db.deleteStations env.now where_ = some db') : CheckedStep db db' := by
  have conflicts := (clearsStakes_deleteStations done).conflicts
  have stations : db'.stations.rows = db.stations.rows.filter fun row => !where_ row := by
    obtain ⟨middle, first, second⟩ := Option.bind_eq_some_iff.mp done
    rw [(Db.of_writeFactionConflicts second).2, (Db.of_writeFactionConflicts first).2]
    rfl
  have frame := (onlyStations_deleteStations done).frame
  have grows : db.Grows db' := by
    rw [frame]
    exact ⟨fun _ has => has, fun _ has => has, fun _ has => has⟩
  have left : ∀ id, id ∉ (db.stations.rows.filter where_).map StationRow.id → db.StoresStation id →
      db'.StoresStation id := by
    rintro id away ⟨row, member, rfl⟩
    refine ⟨row, stations ▸ List.mem_filter.mpr ⟨member, ?_⟩, rfl⟩
    cases matched : where_ row with
    | false => rfl
    | true => exact absurd (List.mem_map_of_mem (List.mem_filter.mpr ⟨member, matched⟩)) away
  have cleared : ∀ reference : Option Uuid, RefersTo db.StoresStation reference →
      RefersTo db'.StoresStation (reference.filter fun id =>
        id ∉ (db.stations.rows.filter where_).map StationRow.id) := by
    intro reference refers id kept
    obtain ⟨given, away⟩ := Option.filter_eq_some_iff.mp kept
    exact left id (of_decide_eq_true away) (refers id given)
  have keys : db'.ForeignKeys := by
    have still := grows
    rw [frame] at still ⊢
    refine ⟨fun row member => (sound.keys.systems row member).mono still,
      fun row member => (sound.keys.systemFactions row member).mono still,
      fun row member => (sound.keys.factionStates row member).mono still, fun row member => ?_,
      fun row member => ?_, fun row member => (sound.keys.systemPowerplayPowers row member).mono still,
      fun row member => (sound.keys.powerplayConflicts row member).mono still,
      fun systemId row found => ?_⟩
    · rw [conflicts] at member
      obtain ⟨old, inRows, rfl⟩ := List.mem_map.mp member
      have refers := sound.keys.factionConflicts old inRows
      exact ⟨refers.systemId, refers.factionId, refers.opponentFactionId,
        cleared _ refers.factionStakeStationId, cleared _ refers.opponentStakeStationId⟩
    · rw [stations] at member
      exact (sound.keys.stations row (List.mem_filter.mp member).1).mono still
    · obtain ⟨system, refers⟩ := sound.keys.systemFactionControlThreats systemId row found
      exact ⟨system, refers.mono still⟩
  refine ⟨⟨keys, ?_⟩, grows⟩
  intro row member
  rw [frame] at member
  exact (sound.events row member).mono grows

end Statements

end CheckedSteps

end EliteHubVault
