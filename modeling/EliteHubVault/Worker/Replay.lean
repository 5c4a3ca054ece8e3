import EliteHubVault.Platform.Ascii
import EliteHubVault.Worker.SettledFactions

/-!
# A message that is processed a second time

The first processing leaves a database that the second one does not change, apart from
`updatedAt` columns and stations. There is one exception. The conflicts of a `Location`
message are resolved before the faction of its station is stored, so a conflict that
names this faction is skipped the first time and can be written the second time.
-/

set_option autoImplicit false
set_option linter.unusedSectionVars false

namespace EliteHubVault

open Library

variable {K : Type} [Field K] [LinearOrder K] {P : Platform K} {env : TxEnv} {db db' : Db P}

/-! ## The names of the factions -/

/-- Known names stay as they are, and only the added names can be new. -/
structure NamesKept (P : Platform K) (added : List String) (rows rows' : List FactionRow) :
    Prop where
  known : ∀ name identity, storedAs P rows name = some identity →
    storedAs P rows' name = some identity
  others : ∀ name, (∀ new ∈ added, P.citext new ≠ P.citext name) →
    storedAs P rows' name = storedAs P rows name

theorem NamesKept.refl (added : List String) (rows : List FactionRow) :
    NamesKept P added rows rows := ⟨fun _ _ same => same, fun _ _ => rfl⟩

theorem namesKept_upsertFactions {statement : Statement} {messageFactions : List MessageFaction}
    {factions : List FactionRow}
    (done : upsertFactions env statement messageFactions db = .ok (db', factions)) :
    NamesKept P (messageFactions.map MessageFaction.name) db.factions.rows db'.factions.rows := by
  obtain ⟨-, known, others⟩ := of_upsertFactions done
  exact ⟨known, fun name unlisted => others name fun faction member =>
    unlisted _ (List.mem_map_of_mem member)⟩

/-- The faction that the station of a message introduces. -/
def stationFactionOf (P : Platform K) : FullSystemMessage K → Option String
  | .fsdJump _ => none
  | .location message =>
      if hasExcludedStationGovernment P message.stationGovernment then none
      else (requiredStationData message).map fun required => required.stationFaction

theorem namesKept_upsertStationOf {message : FullSystemMessage K} {systemId : Uuid}
    (done : upsertStationOf env systemId db message = .ok db') :
    NamesKept P (stationFactionOf P message).toList db.factions.rows db'.factions.rows := by
  cases message with
  | fsdJump message =>
      obtain rfl := pure_eq_ok.mp done
      exact .refl _ _
  | location message =>
      simp only [upsertStationOf, upsertStationFromLocation] at done
      split at done
      · obtain rfl := pure_eq_ok.mp done
        exact .refl _ _
      · rename_i required found
        split at done
        · obtain rfl := pure_eq_ok.mp done
          exact .refl _ _
        · rename_i accepted
          obtain ⟨⟨middle, factions⟩, upserted, done⟩ := bind_eq_ok.mp done
          obtain ⟨controllingFaction, -, station⟩ := bind_eq_ok.mp done
          have kept := namesKept_upsertFactions upserted
          simp only [stationFactionOf, if_neg accepted, found]
          rw [(stationSteps_upsertStation station).onlyStations.frame]
          exact kept

/-! ## What the factions of a message leave -/

/-- The contents of the conflicts of a message, as far as its factions are known. -/
def conflictContents (env : TxEnv) (systemId : Uuid) (db : Db P) (message : SystemMessage K) :
    List (Option (FactionConflictRow K)) :=
  (conflictsData env systemId db (message.conflicts.getD [])).map
    (Option.map FactionConflictRow.content)

/-- What the factions of a message leave, its conflicts aside. -/
structure FactionsSettled (message : SystemMessage K) (systemId : Uuid)
    (factions : List FactionRow) (db : Db P) : Prop where
  stored : (factions.map fun row => some row.identity) =
    ((message.factions.getD []).map FactionElement.messageFaction).map
      fun faction => storedAs P db.factions.rows faction.name
  presence : PresenceSettled systemId (factions.map FactionRow.id) db.systemFactions.rows
  control : ControlSettled systemId
    (controllingFactionIdOf message (createFactionIdMap factions)) db.systems.rows
  states : StatesSettled P systemId (factions.map FactionRow.id) (message.factions.getD [])
    (createFactionIdMap factions) db.factionStates.rows

/-- The factions of a message are settled once they were processed. -/
theorem factionsSettled_processFactionsData {message : SystemMessage K} {systemId : Uuid}
    (somebody : message.factions.getD [] ≠ [])
    (done : processFactionsData env message systemId db = .ok db') :
    ∃ factions, FactionsSettled message systemId factions db' ∧
      ConflictsSettled systemId (conflictContents env systemId db' message)
        db'.factionConflicts.rows ∧
      NamesKept P ((message.factions.getD []).map FactionElement.name) db.factions.rows
        db'.factions.rows := by
  obtain ⟨nobody, -⟩ | ⟨-, stored, factions, present, cleaned, synced, states, upserted, presence,
    cleanup, sync, state, conflicts⟩ := of_processFactionsData done
  · exact absurd nobody somebody
  have presentFrame := frame_upsertSystemFactions presence
  have cleanedFrame := frame_cleanupFactionStates cleanup
  have syncedFrame := frame_syncSystemControllingFaction sync
  have statesFrame := frame_upsertFactionStates state
  have conflictsFrame := frame_upsertFactionConflicts conflicts
  have sameFactions : db'.factions = stored.factions := by
    rw [conflictsFrame, statesFrame, syncedFrame, cleanedFrame, presentFrame]
  obtain ⟨distinctNames, distinctIds⟩ := distinct_of_upsertFactions upserted
  have controlled := controlSettled_sync sync
  have present' := presenceSettled_upsertSystemFactions presence
  have left := states_cleanup cleanup
  have sameStates : synced.factionStates = cleaned.factionStates := by rw [syncedFrame]
  rw [← sameStates] at left
  rw [List.map_map] at distinctNames
  have settledStates := statesSettled_upsert distinctNames distinctIds left state
  refine ⟨factions, ⟨?_, ?_, ?_, ?_⟩, ?_, ?_⟩
  · rw [sameFactions]
    exact (of_upsertFactions upserted).1
  · rw [conflictsFrame, statesFrame, syncedFrame, cleanedFrame]
    exact present'
  · rw [conflictsFrame, statesFrame]
    exact controlled
  · rw [conflictsFrame]
    exact settledStates
  · have contents : conflictContents env systemId db' message =
        conflictContents env systemId states message :=
      content_conflictsData fun conflict _ => by
        rw [conflictsFrame]
        exact ⟨rfl, rfl⟩
    rw [contents]
    exact conflictsSettled_upsert conflicts
  · have kept := namesKept_upsertFactions upserted
    rw [List.map_map] at kept
    rw [sameFactions]
    exact kept

/-- **Settled factions, a second time**: until the conflicts, only `updatedAt` of the
system and columns of the factions change. -/
theorem processFactionsData_of_settled {message : SystemMessage K} {systemId : Uuid}
    {factions : List FactionRow} (somebody : message.factions.getD [] ≠ [])
    (settled : FactionsSettled message systemId factions db)
    (done : processFactionsData env message systemId db = .ok db') :
    ∃ middle : Db P,
      upsertFactionConflicts env systemId (message.conflicts.getD []) middle = .ok db' ∧
      middle = { db with factions := middle.factions, systems := middle.systems } ∧
      middle.systems.rows.map SystemRow.withoutUpdatedAt =
        db.systems.rows.map SystemRow.withoutUpdatedAt ∧
      NamesKept P ((message.factions.getD []).map FactionElement.name) db.factions.rows
        middle.factions.rows := by
  obtain ⟨nobody, -⟩ | ⟨-, stored, factions', present, cleaned, synced, states, upserted,
    presence, cleanup, sync, state, conflicts⟩ := of_processFactionsData done
  · exact absurd nobody somebody
  have identities := upsertFactions_of_stored settled.stored upserted
  have sameMap := createFactionIdMap_congr identities
  have sameIds : factions'.map FactionRow.id = factions.map FactionRow.id := by
    have firsts := congrArg (List.map Prod.fst) identities
    rw [List.map_map, List.map_map] at firsts
    exact firsts
  rw [sameIds] at presence cleanup
  rw [sameMap] at sync state
  have storedFrame := frame_upsertFactions upserted
  have presence' := settled.presence
  have control' := settled.control
  have states' := settled.states
  have inStored : stored.systemFactions = db.systemFactions ∧ stored.systems = db.systems ∧
      stored.factionStates = db.factionStates := by
    rw [storedFrame]
    exact ⟨rfl, rfl, rfl⟩
  obtain ⟨sameSystemFactions, sameSystems, sameStates⟩ := inStored
  rw [← sameSystemFactions] at presence'
  rw [← sameSystems] at control'
  rw [← sameStates] at states'
  obtain rfl := upsertSystemFactions_of_settled presence' presence
  obtain rfl := cleanup_of_settled states'.only cleanup
  obtain ⟨syncedFrame, sameRows⟩ := sync_of_settled control' sync
  have syncedStates : synced.factionStates = cleaned.factionStates := by rw [syncedFrame]
  rw [← syncedStates] at states'
  obtain rfl := upsertFactionStates_of_settled states' state
  have kept := namesKept_upsertFactions upserted
  rw [List.map_map] at kept
  refine ⟨states, conflicts, ?_, ?_, ?_⟩
  · rw [syncedFrame, storedFrame]
  · rw [sameRows, sameSystems]
  · rw [syncedFrame]
    exact kept

/-- Whether factions are settled depends on the names, the presence, the control and the
states of factions only. -/
theorem FactionsSettled.congr {message : SystemMessage K} {systemId : Uuid}
    {factions : List FactionRow} {added : List String}
    (settled : FactionsSettled message systemId factions db)
    (names : NamesKept P added db.factions.rows db'.factions.rows)
    (systemFactions : db'.systemFactions = db.systemFactions)
    (systems : db'.systems.rows.map SystemRow.withoutUpdatedAt =
      db.systems.rows.map SystemRow.withoutUpdatedAt)
    (factionStates : db'.factionStates = db.factionStates) :
    FactionsSettled message systemId factions db' where
  stored := by
    refine settled.stored.trans (List.map_congr_left fun faction member => ?_)
    have inStored : storedAs P db.factions.rows faction.name ∈
        factions.map fun row => some row.identity :=
      settled.stored ▸ List.mem_map_of_mem member
    obtain ⟨row, -, known⟩ := List.mem_map.mp inStored
    rw [names.known _ _ known.symm, known]
  presence := systemFactions ▸ settled.presence
  control := controlSettled_congr systems settled.control
  states := factionStates ▸ settled.states

/-- The system stays settled while the factions are processed. -/
theorem systemSettled_processFactionsData {validated : SystemInsert K}
    {message : SystemMessage K} {systemId : Uuid}
    (settled : SystemSettled validated systemId db.systems.rows)
    (done : processFactionsData env message systemId db = .ok db') :
    SystemSettled validated systemId db'.systems.rows := by
  obtain ⟨-, rfl⟩ | ⟨-, stored, factions, present, cleaned, synced, states, upserted, presence,
    cleanup, sync, state, conflicts⟩ := of_processFactionsData done
  · exact settled
  have before : cleaned.systems = db.systems := by
    rw [frame_cleanupFactionStates cleanup, frame_upsertSystemFactions presence,
      frame_upsertFactions upserted]
  rw [← before] at settled
  have kept := systemSettled_sync settled sync
  rw [frame_upsertFactionConflicts conflicts, frame_upsertFactionStates state]
  exact kept

/-! ## Nothing that can be seen -/

/-- The tables of a system are as they were, `updatedAt` and its conflicts aside. -/
structure SameTables (db db' : Db P) : Prop where
  systems : db'.systems.rows.map SystemRow.withoutUpdatedAt =
    db.systems.rows.map SystemRow.withoutUpdatedAt
  systemFactions : db'.systemFactions = db.systemFactions
  factionStates : db'.factionStates = db.factionStates
  systemPowerplayPowers : db'.systemPowerplayPowers = db.systemPowerplayPowers
  powerplayConflicts : db'.powerplayConflicts.rows.map PowerplayConflictRow.withoutUpdatedAt =
    db.powerplayConflicts.rows.map PowerplayConflictRow.withoutUpdatedAt
  controlThreats : db'.systemFactionControlThreats = db.systemFactionControlThreats

/-- No event was inserted, and the conflicts are as they were, their stakes aside. -/
structure SilentConflicts (db db' : Db P) : Prop where
  eventOutbox : db'.eventOutbox = db.eventOutbox
  factionConflicts : db'.factionConflicts.rows.map FactionConflictRow.core =
    db.factionConflicts.rows.map FactionConflictRow.core

/-- The events that were inserted are those of changes of conflicts. -/
def OnlyConflictEvents (now : Timestamp) (db db' : Db P) : Prop :=
  ∃ changes : List (Change (FactionConflictRow K)), db'.eventOutbox =
    (db.enqueue now (changes.flatMap enqueueFactionConflictChangedEvents)).eventOutbox

section Composition

variable {middle : Db P}

theorem SameTables.refl (db : Db P) : SameTables db db := ⟨rfl, rfl, rfl, rfl, rfl, rfl⟩

theorem SameTables.trans (first : SameTables db middle) (second : SameTables middle db') :
    SameTables db db' :=
  ⟨second.systems.trans first.systems, second.systemFactions.trans first.systemFactions,
    second.factionStates.trans first.factionStates,
    second.systemPowerplayPowers.trans first.systemPowerplayPowers,
    second.powerplayConflicts.trans first.powerplayConflicts,
    second.controlThreats.trans first.controlThreats⟩

theorem SilentConflicts.refl (db : Db P) : SilentConflicts db db := ⟨rfl, rfl⟩

theorem SilentConflicts.trans (first : SilentConflicts db middle)
    (second : SilentConflicts middle db') : SilentConflicts db db' :=
  ⟨second.eventOutbox.trans first.eventOutbox,
    second.factionConflicts.trans first.factionConflicts⟩

theorem OnlyConflictEvents.trans {now : Timestamp} (first : OnlyConflictEvents now db middle)
    (second : OnlyConflictEvents now middle db') : OnlyConflictEvents now db db' := by
  obtain ⟨changes, before⟩ := first
  obtain ⟨changes', after⟩ := second
  refine ⟨changes ++ changes', ?_⟩
  rw [after, Db.eventOutbox_enqueue, before, Db.eventOutbox_enqueue, Db.eventOutbox_enqueue,
    List.flatMap_append, List.map_append, List.append_assoc]

theorem SilentConflicts.onlyConflictEvents (silent : SilentConflicts db db') (now : Timestamp) :
    OnlyConflictEvents now db db' := ⟨[], by simp [silent.eventOutbox]⟩

end Composition

theorem OnlyStationAndFaction.same (only : OnlyStationAndFaction db db') :
    SameTables db db' ∧ SilentConflicts db db' := by
  have conflicts := only.conflicts
  rw [only.frame] at conflicts ⊢
  exact ⟨⟨rfl, rfl, rfl, rfl, rfl, rfl⟩, ⟨rfl, conflicts⟩⟩

theorem onlyConflictEvents_writeFactionConflicts {now : Timestamp}
    {outcome : List (FactionConflictRow K) × List (Change (FactionConflictRow K))}
    (written : db.writeFactionConflicts now outcome = some db') :
    OnlyConflictEvents now db db' := by
  obtain ⟨-, triggers⟩ := Db.of_writeFactionConflicts written
  exact ⟨outcome.2, (congrArg Db.eventOutbox triggers).trans rfl⟩

/-- The upsert of conflicts touches nothing else and inserts its own events only. -/
theorem onlyConflictEvents_upsertFactionConflicts {systemId : Uuid}
    {conflicts : List (Conflict K)}
    (done : upsertFactionConflicts env systemId conflicts db = .ok db') :
    SameTables db db' ∧ OnlyConflictEvents env.now db db' := by
  refine ⟨?_, ?_⟩
  · rw [frame_upsertFactionConflicts done]
    exact ⟨rfl, rfl, rfl, rfl, rfl, rfl⟩
  · unfold upsertFactionConflicts at done
    simp only at done
    split at done
    · exact onlyConflictEvents_writeFactionConflicts (orFail_eq_ok.mp done)
    · simp only [bind_eq_ok, orFail_eq_ok] at done
      obtain ⟨proposed, -, outcome, -, middle, inserted, deleted⟩ := done
      exact (onlyConflictEvents_writeFactionConflicts inserted).trans
        (onlyConflictEvents_writeFactionConflicts deleted)

/-! ## The second processing -/

/-- A conflict of the message names a faction that is neither stored nor listed and that
only its station introduces. -/
def IntroducesConflictFaction (P : Platform K) (rows : List FactionRow)
    (message : FullSystemMessage K) : Prop :=
  message.system.factions.getD [] ≠ [] ∧
    ∃ name, stationFactionOf P message = some name ∧ storedAs P rows name = none ∧
      (∀ faction ∈ message.system.factions.getD [], P.citext faction.name ≠ P.citext name) ∧
      ∃ conflict ∈ message.system.conflicts.getD [],
        P.citext conflict.faction1.name = P.citext name ∨
          P.citext conflict.faction2.name = P.citext name

theorem storedAs_congr {rows : List FactionRow} {name name' : String}
    (same : P.citext name = P.citext name') : storedAs P rows name = storedAs P rows name' := by
  simp only [storedAs, same]

/-- The factions of the conflicts are known the second time exactly when they were the
first time. -/
theorem sameConflictFactions {message : FullSystemMessage K} {afterFactions after middle : Db P}
    (introduces : ¬ IntroducesConflictFaction P db.factions.rows message)
    (somebody : message.system.factions.getD [] ≠ [])
    (listed : ∀ faction ∈ message.system.factions.getD [],
      storedAs P afterFactions.factions.rows faction.name ≠ none)
    (first : NamesKept P ((message.system.factions.getD []).map FactionElement.name)
      db.factions.rows afterFactions.factions.rows)
    (station : NamesKept P (stationFactionOf P message).toList afterFactions.factions.rows
      after.factions.rows)
    (second : NamesKept P ((message.system.factions.getD []).map FactionElement.name)
      after.factions.rows middle.factions.rows)
    {name : String} {conflict : Conflict K}
    (member : conflict ∈ message.system.conflicts.getD [])
    (named : P.citext conflict.faction1.name = P.citext name ∨
      P.citext conflict.faction2.name = P.citext name) :
    middle.findFactionId name = afterFactions.findFactionId name := by
  rw [findFactionId_eq, findFactionId_eq]
  refine congrArg _ ?_
  cases known : storedAs P afterFactions.factions.rows name with
  | some identity => exact second.known _ _ (station.known _ _ known)
  | none =>
      have unlisted : ∀ faction ∈ message.system.factions.getD [],
          P.citext faction.name ≠ P.citext name := fun faction inFactions same =>
        listed faction inFactions ((storedAs_congr same).trans known)
      rw [second.others, station.others, known]
      · intro stationFaction found same
        rw [Option.mem_toList] at found
        refine introduces ⟨somebody, stationFaction, found, ?_, ?_, conflict, member, ?_⟩
        · cases before : storedAs P db.factions.rows stationFaction with
          | none => rfl
          | some identity =>
              have later := first.known _ _ before
              rw [storedAs_congr same, known] at later
              cases later
        · exact fun faction inFactions => same ▸ unlisted faction inFactions
        · exact same ▸ named
      · intro new inNames
        obtain ⟨faction, inFactions, rfl⟩ := List.mem_map.mp inNames
        exact unlisted faction inFactions

/-- The factions of the message, after its system and powers were processed again. -/
theorem processFactionsData_replay {env' : TxEnv} {message : FullSystemMessage K}
    {systemId : Uuid} {afterFactions after later later' : Db P}
    (first : processFactionsData env message.system systemId db = .ok afterFactions)
    (station : upsertStationOf env systemId afterFactions message = .ok after)
    (same : SameTables after later) (silent : SilentConflicts after later)
    (sameFactions : later.factions = after.factions)
    (second : processFactionsData env' message.system systemId later = .ok later') :
    SameTables later later' ∧ OnlyConflictEvents env'.now later later' ∧
      (¬ IntroducesConflictFaction P db.factions.rows message → SilentConflicts later later') := by
  by_cases somebody : message.system.factions.getD [] = []
  · obtain ⟨-, rfl⟩ | ⟨listed, -⟩ := of_processFactionsData second
    · exact ⟨.refl _, (SilentConflicts.refl _).onlyConflictEvents _, fun _ => .refl _⟩
    · exact absurd somebody listed
  obtain ⟨factions, settled, conflicts, names⟩ :=
    factionsSettled_processFactionsData somebody first
  obtain ⟨stationTables, stationConflicts⟩ := (onlyStationAndFaction_upsertStationOf station).same
  have stationNames := namesKept_upsertStationOf station
  have tables := stationTables.trans same
  have settledLater := settled.congr (sameFactions ▸ stationNames) tables.systemFactions
    tables.systems tables.factionStates
  obtain ⟨middle, written, middleFrame, middleSystems, middleNames⟩ :=
    processFactionsData_of_settled somebody settledLater second
  have middleTables : SameTables later middle := by
    refine ⟨middleSystems, ?_, ?_, ?_, ?_, ?_⟩ <;> rw [middleFrame]
  have middleSilent : SilentConflicts later middle := by
    refine ⟨?_, ?_⟩ <;> rw [middleFrame]
  obtain ⟨writtenTables, events⟩ := onlyConflictEvents_upsertFactionConflicts written
  refine ⟨middleTables.trans writtenTables, (middleSilent.onlyConflictEvents _).trans events,
    fun introduces => ?_⟩
  · have listed : ∀ faction ∈ message.system.factions.getD [],
        storedAs P afterFactions.factions.rows faction.name ≠ none := by
      intro faction member unknown
      have inStored : storedAs P afterFactions.factions.rows faction.name ∈
          factions.map fun row => some row.identity := by
        rw [settled.stored, List.map_map]
        exact List.mem_map_of_mem (f := fun faction : FactionElement K =>
          storedAs P afterFactions.factions.rows faction.name) member
      rw [unknown] at inStored
      simp at inStored
    have known := @sameConflictFactions _ _ _ _ _ _ afterFactions after middle introduces somebody
      listed names stationNames (sameFactions ▸ middleNames)
    have contents : conflictContents env' systemId middle message.system =
        conflictContents env systemId afterFactions message.system :=
      content_conflictsData fun conflict member =>
        ⟨known member (.inl rfl), known member (.inr rfl)⟩
    have cores := (stationConflicts.trans silent).trans middleSilent
    have settledConflicts := conflictsSettled_congr cores.factionConflicts conflicts
    rw [← contents] at settledConflicts
    obtain ⟨writtenFrame, writtenCores⟩ :=
      upsertFactionConflicts_of_settled settledConflicts written
    refine middleSilent.trans ⟨?_, writtenCores⟩
    rw [writtenFrame]

/-- **A replay is silent and idempotent.** Processing a message that describes a whole
system again leaves every table as the first processing did, `updatedAt` aside, and
inserts no event. Only where a conflict names a faction that the station of the message
introduces, the conflicts can differ and events on them can be inserted. -/
theorem processMessage_replay {env' : TxEnv} {message : FullSystemMessage K}
    (first : processMessage env message.toJournal db = .ok db') :
    SameTables db' (committed db' (processMessage env' message.toJournal db')) ∧
      OnlyConflictEvents env'.now db' (committed db' (processMessage env' message.toJournal db')) ∧
      (¬ IntroducesConflictFaction P db.factions.rows message →
        SilentConflicts db' (committed db' (processMessage env' message.toJournal db'))) := by
  have unchanged : SameTables db' db' ∧ OnlyConflictEvents env'.now db' db' ∧
      (¬ IntroducesConflictFaction P db.factions.rows message → SilentConflicts db' db') :=
    ⟨.refl _, (SilentConflicts.refl _).onlyConflictEvents _, fun _ => .refl _⟩
  rcases committed_eq db' (processMessage env' message.toJournal db') with failed |
    ⟨again, second, succeeded⟩
  · rwa [failed]
  rw [succeeded]
  obtain ⟨-, rfl⟩ | ⟨kept, afterSystem', system', afterPowers', afterFactions', upserted',
    powers', factions', station'⟩ := of_processMessage second
  · exact unchanged
  obtain ⟨dropped, -⟩ | ⟨-, afterSystem, system, afterPowers, afterFactions, upserted, powers,
    factions, station⟩ := of_processMessage first
  · rw [kept] at dropped
    cases dropped
  -- The system.
  obtain ⟨validated, parsed, settled⟩ := systemSettled_upsertSystem upserted
  have stationFrame := (onlyStationAndFaction_upsertStationOf station).frame
  have systemNow : SystemSettled validated system.id db'.systems.rows := by
    have afterPowersRows : afterPowers.systems = afterSystem.systems := by
      rw [frame_processPowerplayData powers]
    rw [← afterPowersRows] at settled
    have kept := systemSettled_processFactionsData settled factions
    rw [stationFrame]
    exact kept
  obtain ⟨sameId, systemFrame, systemRows⟩ := upsertSystem_of_settled parsed systemNow upserted'
  rw [sameId] at powers' factions' station'
  have systemTables : SameTables db' afterSystem' := by
    refine ⟨systemRows, ?_, ?_, ?_, ?_, ?_⟩ <;> rw [systemFrame]
  have systemSilent : SilentConflicts db' afterSystem' := by
    refine ⟨?_, ?_⟩ <;> rw [systemFrame]
  -- Its powers.
  have factionsFrame := frame_processFactionsData factions
  obtain ⟨powersFrame, powersConflicts, powersCores⟩ := processPowerplayData_of_settled powers
    (by rw [systemFrame, stationFrame, factionsFrame])
    (by rw [systemFrame, stationFrame, factionsFrame])
    (by rw [systemFrame, stationFrame, factionsFrame]) powers'
  have powersTables : SameTables afterSystem' afterPowers' := by
    refine ⟨?_, ?_, ?_, ?_, powersConflicts, ?_⟩ <;> rw [powersFrame]
  have powersSilent : SilentConflicts afterSystem' afterPowers' :=
    ⟨by rw [powersFrame], powersCores⟩
  have tables := systemTables.trans powersTables
  have silent := systemSilent.trans powersSilent
  -- Its factions and the station.
  obtain ⟨factionTables, factionEvents, factionSilent⟩ := processFactionsData_replay factions
    station tables silent (by rw [powersFrame, systemFrame]) factions'
  obtain ⟨stationTables, stationSilent⟩ := (onlyStationAndFaction_upsertStationOf station').same
  have sameFactions : afterPowers.factions = db.factions := by
    rw [frame_processPowerplayData powers, frame_upsertSystem upserted]
  rw [sameFactions] at factionSilent
  exact ⟨(tables.trans factionTables).trans stationTables,
    ((silent.onlyConflictEvents _).trans factionEvents).trans (stationSilent.onlyConflictEvents _),
    fun introduces => (silent.trans (factionSilent introduces)).trans stationSilent⟩

/-! ## Sample messages -/

def sampleFaction (name : String) (influence : ℚ) : FactionElement ℚ where
  name := name
  government := "$government_Democracy;"
  allegiance := "Federation"
  happiness := "$Faction_HappinessBand2;"
  influence := influence
  activeStates := none
  pendingStates := none
  recoveringStates := none

/-- A jump into the system with this address. -/
def sampleMessage (systemFaction : Option String) (factions : List (FactionElement ℚ)) :
    SystemMessage ℚ where
  starSystem := "Sol"
  systemAddress := 10477373803
  starPos := [0, 0, 0]
  population := 1000
  systemGovernment := "$government_Democracy;"
  systemAllegiance := "Federation"
  systemEconomy := "$economy_Refinery;"
  systemSecondEconomy := "$economy_None;"
  systemSecurity := "$SYSTEM_SECURITY_high;"
  systemFaction := systemFaction
  factions := some factions
  conflicts := none
  powers := none
  controllingPower := none
  powerplayState := none
  powerplayStateControlProgress := none
  powerplayStateReinforcement := none
  powerplayStateUndermining := none
  powerplayConflictProgress := none

/-- The player is docked at a station of a faction that is at war in the system, and that
the message does not list. -/
def sampleLocation : LocationMessage ℚ :=
  { sampleMessage (some "A") [sampleFaction "A" (1 / 2), sampleFaction "B" (1 / 4)] with
    conflicts := some [{
      faction1 := { name := "A", stake := "", wonDays := 1 }
      faction2 := { name := "C", stake := "", wonDays := 0 }
      status := "active"
      warType := "war" }]
    docked := true
    distFromStarLS := some 500
    marketId := some 128016640
    stationName := some "Galileo"
    stationType := some "Coriolis"
    stationFaction := some "C"
    stationGovernment := some "$government_Democracy;"
    stationAllegiance := none
    stationEconomy := none
    stationEconomies := none
    stationServices := none }

/-- An environment with a clock and fresh ids. -/
def sampleEnv (number : ℕ) : TxEnv where
  now := number
  newDate _ := number
  randomUuid statement index := .ofNat (1000 * number + 100 * statement.ctorIdx + index)

theorem processMessage_replay_sample :
    ∃ db' : Db asciiPlatform,
      processMessage (sampleEnv 1) (FullSystemMessage.fsdJump (sampleMessage (some "A")
        [sampleFaction "A" (1 / 2), sampleFaction "B" (1 / 4)])).toJournal Db.empty = .ok db' ∧
      SilentConflicts db' (committed db' (processMessage (sampleEnv 2)
        (FullSystemMessage.fsdJump (sampleMessage (some "A")
          [sampleFaction "A" (1 / 2), sampleFaction "B" (1 / 4)])).toJournal db')) := by
  have observed : (processMessage (P := asciiPlatform) (sampleEnv 1)
      (FullSystemMessage.fsdJump (sampleMessage (some "A")
        [sampleFaction "A" (1 / 2), sampleFaction "B" (1 / 4)])).toJournal Db.empty).toOption.map
          (fun db' => db'.eventOutbox.length) = some 2 := by decide +kernel
  obtain ⟨db', first, -⟩ := exists_ok_of_toOption_map observed
  refine ⟨db', first, (processMessage_replay first).2.2 ?_⟩
  rintro ⟨-, name, introduced, -⟩
  cases introduced

/-- The second processing of `sampleLocation` inserts an event: it finds the faction that
the first one stored for the station, and writes the conflict. -/
theorem replay_of_sampleLocation_inserts_event :
    ∃ db' : Db asciiPlatform, WorkerReachable (Db.empty (P := asciiPlatform)) ∧
      processMessage (sampleEnv 1) (FullSystemMessage.location sampleLocation).toJournal
        Db.empty = .ok db' ∧
      db'.eventOutbox.length = 2 ∧
      (committed db' (processMessage (sampleEnv 2)
        (FullSystemMessage.location sampleLocation).toJournal db')).eventOutbox.length = 3 := by
  have observed : (processMessage (P := asciiPlatform) (sampleEnv 1)
      (FullSystemMessage.location sampleLocation).toJournal Db.empty).toOption.map
        (fun db' => (db'.eventOutbox.length, (committed db' (processMessage (sampleEnv 2)
          (FullSystemMessage.location sampleLocation).toJournal db')).eventOutbox.length)) =
            some (2, 3) := by decide +kernel
  obtain ⟨db', first, events⟩ := exists_ok_of_toOption_map observed
  exact ⟨db', .start, first, congrArg Prod.fst events, congrArg Prod.snd events⟩

end EliteHubVault
