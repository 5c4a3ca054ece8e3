import EliteHubVault.Worker.FactionNames
import EliteHubVault.Worker.NetThreat

/-!
# The controlling faction and its presence

A message replaces the factions of its system, but it changes who controls the system only
when it lists the faction that it names as controlling. A message that does not list the
stored controller and names no listed faction leaves a controller that is not present
(`LosesController`); it is the only way (`controllersPresent_processMessage_iff`).
-/

set_option autoImplicit false
set_option linter.unusedSectionVars false

namespace EliteHubVault

open Library

section ControlPresence

variable {K : Type} [Field K] [LinearOrder K] {P : Platform K} {env : TxEnv} {db db' : Db P}

/-! ## Presence -/

/-- The faction is stored, and present in the system with a row of states. -/
structure Db.PresentIn (db : Db P) (systemId factionId : Uuid) : Prop where
  faction : ∃ row ∈ db.factions.rows, row.id = factionId
  systemFaction : ∃ row ∈ db.systemFactions.rows, row.systemId = systemId ∧ row.factionId = factionId
  factionState : ∃ row ∈ db.factionStates.rows, row.systemId = systemId ∧ row.factionId = factionId

/-- **Controlling factions are present in their systems.** -/
def Db.ControllersPresent (db : Db P) : Prop :=
  ∀ system ∈ db.systems.rows, ∀ factionId, system.controllingFactionId = some factionId →
    db.PresentIn system.id factionId

/-- The message names one of its factions as controlling the system. -/
def SystemMessage.NamesController (message : SystemMessage K) : Prop :=
  ∃ faction ∈ message.factions.getD [],
    message.systemFaction = some faction.name ∧ faction.name ≠ ""

/-- The message replaces the factions of its system by others than the one that controls it. -/
def SystemMessage.ReplacesController (message : SystemMessage K) (db : Db P) : Prop :=
  message.factions.getD [] ≠ [] ∧ ¬ message.NamesController ∧
    ∃ factionId, db.columnAt message.systemAddress SystemRow.controllingFactionId = some factionId ∧
      ∀ faction ∈ message.factions.getD [], db.findFactionId faction.name ≠ some factionId

/-- A message that is kept replaces the controller of its system. -/
def LosesController (message : JournalMessage K) (db : Db P) : Prop :=
  ∃ full : FullSystemMessage K, message = full.toJournal ∧
    shouldUpsertSystem P full (buildFullSystemData P full.system) = true ∧
      full.system.ReplacesController db

theorem findFactionId_of_mem {row : FactionRow} (member : row ∈ db.factions.rows) :
    db.findFactionId row.name = some row.id := by
  rw [findFactionId_eq, storedAs_of_mem member]
  rfl

/-- A faction that was stored before is found under the names that found it. -/
theorem findFactionId_iff_of_known (kept : KeepsIds db db') {row : FactionRow}
    (member : row ∈ db.factions.rows) (name : String) :
    db'.findFactionId name = some row.id ↔ db.findFactionId name = some row.id := by
  refine ⟨fun found => ?_, kept name row.id⟩
  have own := findFactionId_of_mem member
  have citext := citext_of_findFactionId (kept _ _ own) found
  rw [← own, findFactionId_eq, findFactionId_eq, storedAs_congr citext]

/-- The rows of other systems, and the ids of the factions, are still there. -/
theorem Db.PresentIn.later {systemId factionId : Uuid} (present : db.PresentIn systemId factionId)
    (kept : KeepsIds db db')
    (systemFactions : ∀ row ∈ db.systemFactions.rows, row.systemId = systemId →
      row ∈ db'.systemFactions.rows)
    (factionStates : ∀ row ∈ db.factionStates.rows, row.systemId = systemId →
      row ∈ db'.factionStates.rows) : db'.PresentIn systemId factionId := by
  obtain ⟨⟨faction, stored, rfl⟩, ⟨row, member, here, same⟩, state, inStates, here', same'⟩ := present
  refine ⟨?_, ⟨row, systemFactions row member here, here, same⟩,
    ⟨state, factionStates state inStates here', here', same'⟩⟩
  obtain ⟨row', found, sameId⟩ :=
    Option.map_eq_some_iff.mp (kept _ _ (findFactionId_of_mem stored))
  exact ⟨row', List.mem_of_find?_eq_some found, sameId⟩

theorem controllersPresent_of_eq (kept : KeepsIds db db') (systems : db'.systems = db.systems)
    (systemFactions : db'.systemFactions = db.systemFactions)
    (factionStates : db'.factionStates = db.factionStates) (present : db.ControllersPresent) :
    db'.ControllersPresent := by
  intro system member factionId controls
  rw [systems] at member
  refine (present system member factionId controls).later kept (fun row stays _ => ?_)
    fun row stays _ => ?_
  · rwa [systemFactions]
  · rwa [factionStates]

/-! ## The system -/

/-- An upsert of a system leaves the controller that it had. -/
theorem controller_upsertSystem {data : SystemData K} {system : SystemRow K}
    (done : upsertSystem env data db = .ok (db', system)) {factionId : Uuid} :
    system.controllingFactionId = some factionId ↔ ∃ before ∈ db.systems.rows,
      before.systemAddress = data.systemAddress ∧ before.id = system.id ∧
        before.controllingFactionId = some factionId := by
  obtain ⟨validated, parsed, found, -, -, -⟩ := of_upsertSystem done
  have address : validated.systemAddress = data.systemAddress := (of_parseSystemInsert parsed).1
  have search : (validated.row env).systemAddress = data.systemAddress := address
  rw [SystemInsert.upserted, rowFor, search] at found
  cases stored : db.systems.rows.find? fun row => row.systemAddress = data.systemAddress with
  | none =>
      rw [stored] at found
      subst found
      constructor
      · intro controls
        cases controls
      · rintro ⟨before, member, here, -⟩
        exact absurd here (by simpa using List.find?_eq_none.mp stored before member)
  | some row =>
      rw [stored] at found
      subst found
      have member := List.mem_of_find?_eq_some stored
      have here : row.systemAddress = data.systemAddress := by
        simpa using List.find?_some stored
      refine ⟨fun controls => ⟨row, member, here, rfl, controls⟩, ?_⟩
      rintro ⟨before, inRows, there, -, controls⟩
      have same : before = row :=
        db.systems.eq_of_clash (fun _ _ => Or.imp Eq.symm Eq.symm) inRows member
          (.inr (there.trans here.symm))
      rw [same] at controls
      exact controls

theorem controllersPresent_upsertSystem {data : SystemData K} {system : SystemRow K}
    (before : db.ControllersPresent) (done : upsertSystem env data db = .ok (db', system)) :
    db'.ControllersPresent := by
  have frame := frame_upsertSystem done
  have kept : ∀ systemId factionId, db.PresentIn systemId factionId →
      db'.PresentIn systemId factionId := fun systemId factionId present =>
    present.later (.of_eq (by rw [frame])) (fun row member _ => by rwa [frame])
      fun row member _ => by rwa [frame]
  intro row member factionId controls
  obtain rfl | ⟨old, -⟩ := (mem_upsertSystem done row).mp member
  · obtain ⟨stored, inRows, -, sameId, controlled⟩ := (controller_upsertSystem done).mp controls
    rw [← sameId]
    exact kept _ _ (before stored inRows factionId controlled)
  · exact kept _ _ (before row old factionId controls)

/-! ## The factions -/

/-- Rows that mirror the factions of a message are those of the factions. -/
theorem exists_mirrors_iff {ρ : Type} {relates : ρ → FactionElement K → Prop} {rows : List ρ}
    {factions : List (FactionElement K)} (factionId : ρ → Uuid)
    (named : ∀ row faction, relates row faction → db.findFactionId faction.name = some (factionId row))
    (mirrors : OneForEach relates rows factions) (id : Uuid) :
    (∃ row ∈ rows, factionId row = id) ↔
      ∃ faction ∈ factions, db.findFactionId faction.name = some id := by
  obtain ⟨ordered, perm, all⟩ := mirrors
  obtain ⟨described, present⟩ := exists_of_forall₂ all
  constructor
  · rintro ⟨row, member, rfl⟩
    obtain ⟨faction, listed, related⟩ := described row (perm.mem_iff.mpr member)
    exact ⟨faction, listed, named row faction related⟩
  · rintro ⟨faction, listed, found⟩
    obtain ⟨row, member, related⟩ := present faction listed
    refine ⟨row, perm.mem_iff.mp member, ?_⟩
    exact Option.some.inj ((named row faction related).symm.trans found)

/-- **Who is present after the factions of a message**: those that it lists. -/
theorem presentIn_iff_listed {message : SystemMessage K} {systemId : Uuid}
    (somebody : message.factions.getD [] ≠ [])
    (done : processFactionsData env message systemId db = .ok db') (factionId : Uuid) :
    (db'.PresentIn systemId factionId ↔
        ∃ faction ∈ message.factions.getD [], db'.findFactionId faction.name = some factionId) ∧
      ((∃ row ∈ db'.systemFactions.rows, row.systemId = systemId ∧ row.factionId = factionId) →
        ∃ faction ∈ message.factions.getD [], db'.findFactionId faction.name = some factionId) := by
  obtain ⟨mirrors, -⟩ := mirrors_processFactionsData somebody done
  have presence := exists_mirrors_iff SystemFactionRow.factionId (fun _ _ named => named)
    mirrors.systemFactions factionId
  have states := exists_mirrors_iff FactionStateRow.factionId (fun _ _ related => related.factionId)
    mirrors.factionStates factionId
  have only : (∃ row ∈ db'.systemFactions.rows, row.systemId = systemId ∧
      row.factionId = factionId) →
        ∃ faction ∈ message.factions.getD [], db'.findFactionId faction.name = some factionId := by
    rintro ⟨row, member, here, same⟩
    exact presence.mp ⟨row, List.mem_filter.mpr ⟨member, decide_eq_true here⟩, same⟩
  refine ⟨⟨fun present => only present.systemFaction, fun listed => ⟨?_, ?_, ?_⟩⟩, only⟩
  · obtain ⟨faction, -, found⟩ := listed
    obtain ⟨row, stored, same⟩ := Option.map_eq_some_iff.mp found
    exact ⟨row, List.mem_of_find?_eq_some stored, same⟩
  · obtain ⟨row, member, same⟩ := presence.mpr listed
    obtain ⟨inRows, here⟩ := List.mem_filter.mp member
    exact ⟨row, inRows, of_decide_eq_true here, same⟩
  · obtain ⟨row, member, same⟩ := states.mpr listed
    obtain ⟨inRows, here⟩ := List.mem_filter.mp member
    exact ⟨row, inRows, of_decide_eq_true here, same⟩

/-- **Who controls the system after the factions of a message**: the listed faction that it
names, and otherwise who did before. -/
theorem controller_processFactionsData {message : SystemMessage K} {systemId : Uuid}
    (somebody : message.factions.getD [] ≠ [])
    (done : processFactionsData env message systemId db = .ok db') :
    (message.NamesController ∧ ∀ row ∈ db'.systems.rows,
        row.id ≠ systemId ∧ row ∈ db.systems.rows ∨ row.id = systemId ∧
          ∃ faction ∈ message.factions.getD [], ∃ factionId,
            db'.findFactionId faction.name = some factionId ∧
              row.controllingFactionId = some factionId) ∨
      ¬ message.NamesController ∧ db'.systems = db.systems := by
  have spelled : ∀ faction ∈ message.factions.getD [],
      db.storedName faction.name = faction.name ∧ faction.name ≠ "__proto__" :=
    fun faction listed => spelled_of_processFactionsData done listed
  obtain ⟨nobody, -⟩ | ⟨-, stored, factions, present, cleaned, synced, states, upserted, presence,
    cleanup, sync, state, conflicts⟩ := of_processFactionsData done
  · exact absurd nobody somebody
  have returns := returns_upsertFactions upserted
  have syncedFrame := frame_syncSystemControllingFaction sync
  have late : db'.systems = synced.systems := by
    rw [frame_upsertFactionConflicts conflicts, frame_upsertFactionStates state]
  have early : cleaned.systems = db.systems := by
    rw [frame_cleanupFactionStates cleanup, frame_upsertSystemFactions presence,
      frame_upsertFactions upserted]
  have sameFactions : db'.factions = stored.factions := by
    rw [frame_upsertFactionConflicts conflicts, frame_upsertFactionStates state, syncedFrame,
      frame_cleanupFactionStates cleanup, frame_upsertSystemFactions presence]
  by_cases names : message.NamesController
  · refine .inl ⟨names, fun row member => ?_⟩
    obtain ⟨faction, listed, given, named⟩ := names
    obtain ⟨spelling, ordinary⟩ := spelled faction listed
    obtain ⟨row', -, -, found⟩ := returns.lookup_iff.mpr ⟨⟨faction, listed, spelling⟩, ordinary⟩
    have controls : controllingFactionIdOf message (createFactionIdMap factions) = .value row'.id :=
      (controllingFactionIdOf_eq given named _).trans found
    rw [controls] at sync
    obtain ⟨rows, -⟩ := Db.of_writeSystems (orFail_eq_ok.mp sync)
    rw [late, rows] at member
    obtain ⟨old, inRows, rfl⟩ := List.mem_map.mp member
    by_cases here : old.id = systemId
    · rw [if_pos (decide_eq_true here)]
      exact .inr ⟨here, faction, listed, row'.id, KeepsIds.of_eq sameFactions _ _
        (findFactionId_of_lookup returns.rows found), rfl⟩
    · rw [if_neg (by simpa using here)]
      exact .inl ⟨here, early ▸ inRows⟩
  · refine .inr ⟨names, ?_⟩
    have unchanged : synced = cleaned := by
      cases controller : controllingFactionIdOf message (createFactionIdMap factions) with
      | value factionId =>
          refine absurd ?_ names
          cases given : message.systemFaction with
          | none =>
              simp only [controllingFactionIdOf, given] at controller
              cases controller
          | some name =>
              obtain ⟨named, found⟩ := lookup_of_controllingFactionIdOf given controller
              obtain ⟨⟨faction, listed, spelling⟩, -⟩ := returns.lookup_iff.mp
                (exists_row_of_lookup found)
              rw [(spelled faction listed).1] at spelling
              subst spelling
              exact ⟨faction, listed, given, named⟩
      | inherited =>
          rw [controller] at sync
          exact absurd sync throw_ne_ok
      | null =>
          rw [controller] at sync
          exact (pure_eq_ok.mp sync).symm
      | undefined =>
          rw [controller] at sync
          exact (pure_eq_ok.mp sync).symm
    rw [late, unchanged, early]

/-! ## One transaction -/

/-- No helper forgets a faction. -/
theorem Stage.keepsIds (stage : Stage env db db') : KeepsIds db db' := by
  cases stage with
  | system done => exact .of_eq (by rw [frame_upsertSystem done])
  | powerplay done => exact .of_eq (by rw [frame_processPowerplayData done])
  | factions done =>
      obtain ⟨-, rfl⟩ | ⟨-, stored, factions, present, cleaned, synced, states, upserted, presence,
        cleanup, sync, state, conflicts⟩ := of_processFactionsData done
      · exact .of_eq rfl
      · have same : db'.factions = stored.factions := by
          rw [frame_upsertFactionConflicts conflicts, frame_upsertFactionStates state,
            frame_syncSystemControllingFaction sync, frame_cleanupFactionStates cleanup,
            frame_upsertSystemFactions presence]
        have names := namesKept_upsertFactions upserted
        rw [← same] at names
        exact .of_names names
  | stationFaction done => exact .of_names (namesKept_upsertFactions done)
  | station done => exact .of_eq (by rw [(stationSteps_upsertStation done).onlyStations.frame])

theorem Stages.keepsIds (stages : Stages env db db') : KeepsIds db db' := by
  induction stages with
  | refl => exact .of_eq rfl
  | tail _ stage ih => exact fun name id found => stage.keepsIds name id (ih name id found)

/-- The factions of a message, when its system has been written. -/
theorem controllersPresent_processFactionsData {message : SystemMessage K} {system : SystemRow K}
    (before : db.ControllersPresent) (present : system ∈ db.systems.rows)
    (done : processFactionsData env message system.id db = .ok db')
    (listed : message.factions.getD [] ≠ [] → ¬ message.NamesController →
      ∀ factionId, system.controllingFactionId = some factionId →
        ∃ faction ∈ message.factions.getD [], db.findFactionId faction.name = some factionId) :
    db'.ControllersPresent := by
  by_cases somebody : message.factions.getD [] = []
  · obtain ⟨-, rfl⟩ | ⟨others, -⟩ := of_processFactionsData done
    · exact before
    · exact absurd somebody others
  have kept : KeepsIds db db' := (Stage.factions done).keepsIds
  obtain ⟨-, -, systemFactions, factionStates, -⟩ := mirrors_processFactionsData somebody done
  have elsewhere : ∀ row ∈ db.systems.rows, row.id ≠ system.id → ∀ factionId,
      row.controllingFactionId = some factionId → db'.PresentIn row.id factionId := by
    intro row member away factionId controls
    refine (before row member factionId controls).later kept (fun other inRows here => ?_)
      fun other inRows here => ?_
    · have stays : other ∈ db.systemFactions.rows.filter fun row => row.systemId ≠ system.id :=
        List.mem_filter.mpr ⟨inRows, by simpa [here] using away⟩
      rw [← systemFactions] at stays
      exact (List.mem_filter.mp stays).1
    · have stays : other ∈ db.factionStates.rows.filter fun row => row.systemId ≠ system.id :=
        List.mem_filter.mpr ⟨inRows, by simpa [here] using away⟩
      rw [← factionStates] at stays
      exact (List.mem_filter.mp stays).1
  have here : ∀ factionId, (∃ faction ∈ message.factions.getD [],
      db'.findFactionId faction.name = some factionId) → db'.PresentIn system.id factionId :=
    fun factionId => (presentIn_iff_listed somebody done factionId).1.mpr
  intro row member factionId controls
  obtain ⟨-, rows⟩ | ⟨unnamed, same⟩ := controller_processFactionsData somebody done
  · obtain ⟨away, old⟩ | ⟨own, faction, inMessage, named, found, controller⟩ := rows row member
    · exact elsewhere row old away factionId controls
    · obtain rfl := Option.some.inj (controller.symm.trans controls)
      rw [own]
      exact here _ ⟨faction, inMessage, found⟩
  · rw [same] at member
    by_cases own : row.id = system.id
    · obtain rfl := eq_of_systemId member present own
      obtain ⟨faction, inMessage, found⟩ := listed somebody unnamed factionId controls
      exact here _ ⟨faction, inMessage, kept _ _ found⟩
    · exact elsewhere row member own factionId controls

/-- A message that replaces the controller leaves it in the system without its presence. -/
theorem absent_of_replaces {message : SystemMessage K} {system : SystemRow K} {afterFactions : Db P}
    {factionId : Uuid} (present : system ∈ db.systems.rows)
    (controls : system.controllingFactionId = some factionId)
    (stored : ∃ row ∈ db.factions.rows, row.id = factionId)
    (somebody : message.factions.getD [] ≠ []) (unnamed : ¬ message.NamesController)
    (unlisted : ∀ faction ∈ message.factions.getD [],
      db.findFactionId faction.name ≠ some factionId)
    (done : processFactionsData env message system.id db = .ok afterFactions)
    (systems : db'.systems = afterFactions.systems)
    (systemFactions : db'.systemFactions = afterFactions.systemFactions) :
    ¬ db'.ControllersPresent := by
  intro controllers
  obtain ⟨names, -⟩ | ⟨-, same⟩ := controller_processFactionsData somebody done
  · exact unnamed names
  · have stays : system ∈ db'.systems.rows := by rwa [systems, same]
    have row := (controllers system stays factionId controls).systemFaction
    rw [systemFactions] at row
    obtain ⟨faction, listed, found⟩ := (presentIn_iff_listed somebody done factionId).2 row
    obtain ⟨known, member, rfl⟩ := stored
    exact unlisted faction listed
      ((findFactionId_iff_of_known (Stage.factions done).keepsIds member _).mp found)

theorem FullSystemMessage.toJournal_injective :
    Function.Injective (FullSystemMessage.toJournal (K := K)) := by
  rintro (message | message) (message' | message') same <;> cases same <;> rfl

theorem not_losesController_docked (message : DockedMessage K) :
    ¬ LosesController (.docked message) db := by
  rintro ⟨_ | _, same, -⟩ <;> cases same

/-- **A transaction keeps controlling factions present exactly when it loses none.** -/
theorem controllersPresent_processMessage_iff {message : JournalMessage K}
    (before : db.ControllersPresent) (done : processMessage env message db = .ok db') :
    db'.ControllersPresent ↔ ¬ LosesController message db := by
  have full : ∀ message : FullSystemMessage K, processMessage env message.toJournal db = .ok db' →
      (db'.ControllersPresent ↔
        ¬ (shouldUpsertSystem P message (buildFullSystemData P message.system) = true ∧
          message.system.ReplacesController db)) := by
    intro message done
    obtain ⟨dropped, rfl⟩ | ⟨isKept, afterSystem, system, afterPowers, afterFactions, upserted,
      powers, factions, station⟩ := of_processMessage done
    · exact iff_of_true before fun loses => absurd loses.1 (by simp [dropped])
    have powersFrame := frame_processPowerplayData powers
    have stationFrame := (onlyStationAndFaction_upsertStationOf station).frame
    have sameSystems : afterPowers.systems = afterSystem.systems := by rw [powersFrame]
    have samePowers : afterPowers.factions = db.factions := by
      rw [powersFrame, frame_upsertSystem upserted]
    have present : system ∈ afterPowers.systems.rows := by
      rw [sameSystems]
      exact List.mem_of_find?_eq_some (systemAt_upsertSystem upserted)
    have controllers : afterPowers.ControllersPresent :=
      controllersPresent_of_eq (.of_eq (by rw [powersFrame])) sameSystems (by rw [powersFrame])
        (by rw [powersFrame]) (controllersPresent_upsertSystem before upserted)
    have lookup : ∀ name, afterPowers.findFactionId name = db.findFactionId name := fun name => by
      rw [Db.findFactionId, Db.findFactionId, samePowers]
    have controlled : ∀ factionId, system.controllingFactionId = some factionId ↔
        db.columnAt message.system.systemAddress SystemRow.controllingFactionId =
          some factionId := by
      intro factionId
      rw [controller_upsertSystem upserted, Db.columnAt, Option.bind_eq_some_iff]
      constructor
      · rintro ⟨row, member, here, -, controls⟩
        have address : row.systemAddress = message.system.systemAddress := here
        exact ⟨row, address ▸ mem_systems_iff.mp member, controls⟩
      · rintro ⟨row, found, controls⟩
        have address : row.systemAddress = message.system.systemAddress := by
          simpa using List.find?_some found
        refine ⟨row, List.mem_of_find?_eq_some found, address, ?_, controls⟩
        rw [id_upsertSystem upserted, systemIdAt]
        exact (congrArg (fun found => (Option.map SystemRow.id found).getD _) found).symm
    constructor
    · rintro after ⟨-, somebody, unnamed, factionId, column, unlisted⟩
      have controls := (controlled factionId).mpr column
      refine absent_of_replaces present controls
        (controllers system present factionId controls).faction somebody unnamed
        (fun faction listed => ?_) factions (by rw [stationFrame]) (by rw [stationFrame]) after
      rw [lookup]
      exact unlisted faction listed
    · intro keeps
      have stationKept : KeepsIds afterFactions db' :=
        .of_names (namesKept_upsertStationOf station)
      refine controllersPresent_of_eq stationKept (by rw [stationFrame]) (by rw [stationFrame])
        (by rw [stationFrame]) (controllersPresent_processFactionsData controllers present factions
          fun somebody unnamed factionId controls => ?_)
      by_contra unlisted
      refine keeps ⟨isKept, somebody, unnamed, factionId, (controlled factionId).mp controls,
        fun faction listed found => unlisted ⟨faction, listed, ?_⟩⟩
      rw [lookup, found]
  cases processed_of_processMessage done with
  | full message done =>
      rw [full message done]
      refine not_congr ⟨fun loses => ⟨message, rfl, loses⟩, ?_⟩
      rintro ⟨other, same, loses⟩
      obtain rfl := FullSystemMessage.toJournal_injective same
      exact loses
  | docked message afterSystem system upserted station =>
      have stationFrame := (onlyStationAndFaction_upsertStationFromDocked station).frame
      exact iff_of_true (controllersPresent_of_eq (stages_upsertStationFromDocked station).keepsIds
        (by rw [stationFrame]) (by rw [stationFrame]) (by rw [stationFrame])
        (controllersPresent_upsertSystem before upserted)) (not_losesController_docked message)
  | unused message dropped same =>
      exact iff_of_true (same ▸ before) (not_losesController_docked message)

/-! ## Whole runs -/

/-- The transaction fails or loses no controller. -/
def KeepsController (db : Db P) (job : TxEnv × JournalMessage K) : Prop :=
  ∀ db', processMessage job.1 job.2 db = .ok db' → ¬ LosesController job.2 db

/-- **Controlling factions are present in every run that loses none**, and a transaction after
such a run breaks this exactly when it loses one. -/
theorem controllers_present (run : Reaches workerStep KeepsController Db.empty db) :
    db.ControllersPresent ∧ ∀ env message db', processMessage env message db = .ok db' →
      (db'.ControllersPresent ↔ ¬ LosesController message db) := by
  have present : db.ControllersPresent := by
    refine invariant_of_processed run (fun row member => nomatch member) ?_
    intro env message before after present admitted processed
    exact (controllersPresent_processMessage_iff present processed).mpr (admitted after processed)
  exact ⟨present, fun env message db' done => controllersPresent_processMessage_iff present done⟩

theorem controllers_present_sample : ∃ db : Db asciiPlatform,
    Reaches workerStep KeepsController Db.empty db ∧
      db.columnAt 10477373803 SystemRow.controllingFactionId =
        some ((sampleEnv 1).randomUuid .upsertFactions 0) ∧
      db.ControllersPresent := by
  have observed : (processMessage (P := asciiPlatform) (sampleEnv 1) (.fsdJump
      (sampleMessage (some "A") [sampleFaction "A" (1 / 2), sampleFaction "B" (1 / 4)]))
      Db.empty).toOption.map (fun db => (db.findFactionId "A",
        db.columnAt 10477373803 SystemRow.controllingFactionId,
        (processMessage (sampleEnv 2) (.fsdJump (sampleMessage none [sampleFaction "A" (1 / 2)]))
          db).toOption.any fun db =>
            db.columnAt 10477373803 SystemRow.controllingFactionId =
              some ((sampleEnv 1).randomUuid .upsertFactions 0))) =
      some (some ((sampleEnv 1).randomUuid .upsertFactions 0),
        some ((sampleEnv 1).randomUuid .upsertFactions 0), true) := by decide +kernel
  obtain ⟨first, named, seen⟩ := exists_ok_of_toOption_map observed
  obtain ⟨found, seen⟩ := Prod.mk.inj seen
  obtain ⟨controls, seen⟩ := Prod.mk.inj seen
  obtain ⟨db, unnamed, kept⟩ := (Option.any_eq_true _ _).mp seen
  rw [toOption_eq_some] at unnamed
  have run : Reaches workerStep KeepsController (Db.empty : Db asciiPlatform) db := by
    refine .step (.step .start (a := (sampleEnv 1, .fsdJump
        (sampleMessage (some "A") [sampleFaction "A" (1 / 2), sampleFaction "B" (1 / 4)])))
      (fun _ _ loses => ?_) (congrArg (some ∘ committed Db.empty) named))
      (a := (sampleEnv 2, .fsdJump (sampleMessage none [sampleFaction "A" (1 / 2)])))
      (fun _ _ loses => ?_) (congrArg (some ∘ committed first) unnamed)
    · obtain ⟨full, -, -, -, -, factionId, column, -⟩ := loses
      cases column
    · obtain ⟨_ | _, same, -, -, -, factionId, column, unlisted⟩ := loses <;> cases same
      have kept : first.columnAt 10477373803 SystemRow.controllingFactionId = some factionId := column
      rw [controls] at kept
      exact unlisted _ List.mem_cons_self (found.trans kept)
  exact ⟨db, run, of_decide_eq_true kept, (controllers_present run).1⟩

/-- The system loses its controller to a message that names none. -/
theorem sampleMessage_without_controller_leaves_it_absent : ∃ db : Db asciiPlatform,
    WorkerReachable db ∧ ¬ db.ControllersPresent := by
  obtain ⟨db, run, observed⟩ := exists_reachable_of_execute workerStep
    (Db.empty : Db asciiPlatform)
    [(sampleEnv 1, .fsdJump
        (sampleMessage (some "A") [sampleFaction "A" (1 / 2), sampleFaction "B" (1 / 4)])),
      (sampleEnv 2, .fsdJump (sampleMessage none [sampleFaction "B" (1 / 4)]))]
    (fun db => db.systems.rows.any fun system => system.controllingFactionId.any fun factionId =>
      db.systemFactions.rows.all fun row => row.factionId ≠ factionId) (by decide +kernel)
  obtain ⟨system, member, lost⟩ := List.any_eq_true.mp observed
  obtain ⟨factionId, controls, absent⟩ := (Option.any_eq_true _ _).mp lost
  refine ⟨db, run, fun present => ?_⟩
  obtain ⟨row, inRows, -, same⟩ := (present system member factionId controls).systemFaction
  exact of_decide_eq_true (List.all_eq_true.mp absent row inRows) same

end ControlPresence

end EliteHubVault
