import EliteHubVault.Worker.SettledFactions

/-!
# The threat to a system while a message is processed

A transaction reaches its final state in steps. A `Silent` step cannot be seen by the
triggers on threats. A `Phase` can change the flag of one system: it inserts a threat event
exactly when it changes the flag, and an `entered` event exactly when it raises it.

The three phases of a message are the deletion of stale states, the change of control and
the upsert of states; every other step is silent.
-/

set_option autoImplicit false
set_option linter.unusedSectionVars false

namespace EliteHubVault

open Library

variable {K : Type} [Field K] [LinearOrder K] {P : Platform K} {env : TxEnv} {db db' : Db P}

/-! ## The flag of a system -/

/-- The controlling faction of the system leads its first challenger by at most the threshold. -/
def Db.IsThreatened (db : Db P) (systemId : Uuid) : Prop :=
  Threatened (db.controllingFactionOf systemId) (db.statesOf systemId)

/-- The threat flag of a system; a missing row counts as false. -/
def Db.threatFlag (db : Db P) (systemId : Uuid) : Bool :=
  (db.systemFactionControlThreats.get systemId).any fun row => row.isThreatened

/-- The event reports that a threat began. -/
def OutboxInsert.reportsEntered (event : OutboxInsert K) : Bool :=
  event.eventType = "factionControlThreatChanged" ∧
    (event.payload.field? "status").bind Json.asString? = some "entered"

theorem Db.ThreatsCurrent.threatFlag_iff (current : db.ThreatsCurrent) (systemId : Uuid) :
    db.threatFlag systemId = true ↔ db.IsThreatened systemId := by
  have truth := current systemId
  unfold Db.threatFlag
  cases known : db.systemFactionControlThreats.get systemId with
  | none =>
      rw [known] at truth
      simp only [Option.any_none, Bool.false_eq_true, false_iff]
      exact truth
  | some row =>
      simp only [known] at truth
      exact truth.isThreatened

theorem reportsEntered_controlThreatEvent (systemId : Uuid) (factionId : Option Uuid)
    (status : String) (challenger : Option Uuid) (gap : Option K) :
    (controlThreatEvent systemId factionId status challenger gap).reportsEntered =
      decide (status = "entered") := by
  simp [OutboxInsert.reportsEntered, controlThreatEvent, Json.field?, Json.asString?, List.lookup]

/-- A refresh inserts an event exactly when it changes the flag. -/
theorem controlThreatEvents_eq_nil_iff (systemId : Uuid) (previous : Option (ControlThreatRow K))
    (row : ControlThreatRow K) : controlThreatEvents systemId previous row = [] ↔
      (previous.any fun known => known.isThreatened) = row.isThreatened := by
  unfold controlThreatEvents
  cases previous with
  | none => cases flag : row.isThreatened <;> simp
  | some known => cases was : known.isThreatened <;> cases flag : row.isThreatened <;> simp [was]

/-- A refresh inserts an `entered` event exactly when it raises the flag. -/
theorem reportsEntered_controlThreatEvents (systemId : Uuid)
    (previous : Option (ControlThreatRow K)) (row : ControlThreatRow K) :
    (∀ event ∈ controlThreatEvents systemId previous row, ¬ event.reportsEntered) ↔
      (row.isThreatened = true → (previous.any fun known => known.isThreatened) = true) := by
  unfold controlThreatEvents
  cases previous with
  | none =>
      cases flag : row.isThreatened <;> simp [reportsEntered_controlThreatEvent]
  | some known =>
      cases was : known.isThreatened <;> cases flag : row.isThreatened <;>
        simp [was, reportsEntered_controlThreatEvent]

/-! ## Silent steps -/

/-- The step leaves what threats depend on and inserts no threat event. -/
structure Silent (before after : Db P) : Prop where
  threats : ∀ systemId, after.systemFactionControlThreats.get systemId =
    before.systemFactionControlThreats.get systemId
  factionStates : after.factionStates = before.factionStates
  controller : ∀ systemId,
    after.controllingFactionOf systemId = before.controllingFactionOf systemId
  inserted : Db.InsertsThreatsOf [] before after

namespace Silent

variable {before middle after : Db P}

theorem refl (db : Db P) : Silent db db :=
  ⟨fun _ => rfl, rfl, fun _ => rfl, [], by simp, by simp⟩

theorem trans (first : Silent before middle) (second : Silent middle after) :
    Silent before after where
  threats systemId := (second.threats systemId).trans (first.threats systemId)
  factionStates := second.factionStates.trans first.factionStates
  controller systemId := (second.controller systemId).trans (first.controller systemId)
  inserted := first.inserted.trans second.inserted

/-- Tables that threats do not depend on. -/
theorem of_frame (systems : after.systems = before.systems)
    (factionStates : after.factionStates = before.factionStates)
    (threats : after.systemFactionControlThreats = before.systemFactionControlThreats)
    (eventOutbox : after.eventOutbox = before.eventOutbox) : Silent before after where
  threats systemId := by rw [threats]
  factionStates := factionStates
  controller systemId := by simp only [Db.controllingFactionOf, systems]
  inserted := ⟨[], by simp [eventOutbox], by simp⟩

/-- Events of another type. -/
theorem enqueue {now : Timestamp} {inserts : List (OutboxInsert K)}
    (other : ∀ event ∈ inserts, event.eventType ≠ "factionControlThreatChanged") (db : Db P) :
    Silent db (db.enqueue now inserts) := by
  have refreshed : Db.Refreshed now [] db (db.enqueue now inserts) := .enqueue other db
  exact ⟨fun _ => rfl, rfl, fun _ => rfl, refreshed.inserted⟩

theorem statesOf (silent : Silent before after) (systemId : Uuid) :
    after.statesOf systemId = before.statesOf systemId := by
  simp only [Db.statesOf, silent.factionStates]

theorem isThreatened_iff (silent : Silent before after) (systemId : Uuid) :
    after.IsThreatened systemId ↔ before.IsThreatened systemId := by
  rw [Db.IsThreatened, Db.IsThreatened, silent.controller, silent.statesOf]

theorem threatsCurrent (silent : Silent before after) (current : before.ThreatsCurrent) :
    after.ThreatsCurrent := by
  intro systemId
  rw [silent.threats, silent.controller, silent.statesOf]
  exact current systemId

end Silent

/-- A silent step is a statement that visits no system. -/
theorem Silent.maintains {before after : Db P} (silent : Silent before after) (now : Timestamp) :
    Db.Maintains now [] before after where
  row systemId := by simp [silent.threats]
  events systemId := by
    obtain ⟨inserted, grown, other⟩ := silent.inserted
    have nothing : (inserted.map OutboxRow.toOutboxInsert).filter
        (OutboxInsert.isThreatEventOf systemId) = [] := by
      refine List.filter_eq_nil_iff.mpr fun event member about => ?_
      obtain ⟨row, inInserted, rfl⟩ := List.mem_map.mp member
      have type : row.eventType = "factionControlThreatChanged" := by
        simp only [OutboxInsert.isThreatEventOf, decide_eq_true_eq] at about
        exact about.1
      obtain ⟨id, impossible, -⟩ := other row inInserted type
      cases impossible
    rw [Db.threatEventsOf, grown, List.map_append, List.filter_append, nothing]
    simp [Db.threatEventsOf]
  controller systemId _ := silent.controller systemId
  states systemId _ := silent.statesOf systemId
  inserted := silent.inserted

/-! ## Phases -/

/-- The step can change the flag of one system, and reports this. -/
structure Phase (systemId : Uuid) (before after : Db P) : Prop where
  current : after.ThreatsCurrent
  inserted : ∃ inserted : List (OutboxRow K),
    after.eventOutbox = before.eventOutbox ++ inserted ∧
    ((∀ row ∈ inserted, ¬ row.isThreatEventOf systemId) ↔
      (before.IsThreatened systemId ↔ after.IsThreatened systemId)) ∧
    ((∀ row ∈ inserted, ¬ row.reportsEntered) ↔
      (after.IsThreatened systemId → before.IsThreatened systemId))

/-- Events that are about no threat neither report one. -/
theorem not_reportsEntered_of_silent {inserted : List (OutboxRow K)} (systemId : Uuid)
    (other : ∀ row ∈ inserted, row.eventType = "factionControlThreatChanged" →
      ∃ id ∈ ([] : List Uuid), row.isThreatEventOf id = true) :
    (∀ row ∈ inserted, ¬ row.isThreatEventOf systemId) ∧
      ∀ row ∈ inserted, ¬ row.reportsEntered := by
  have type : ∀ row ∈ inserted, row.eventType ≠ "factionControlThreatChanged" := by
    intro row member same
    obtain ⟨id, impossible, -⟩ := other row member same
    cases impossible
  constructor
  · intro row member about
    simp only [OutboxInsert.isThreatEventOf, decide_eq_true_eq] at about
    exact type row member about.1
  · intro row member reports
    simp only [OutboxInsert.reportsEntered, decide_eq_true_eq] at reports
    exact type row member reports.1

namespace Phase

variable {systemId : Uuid} {before middle after : Db P}

theorem then_silent (phase : Phase systemId before middle) (silent : Silent middle after) :
    Phase systemId before after := by
  obtain ⟨inserted, grown, events, entered⟩ := phase.inserted
  obtain ⟨inserted', grown', other⟩ := silent.inserted
  obtain ⟨noEvents, noEntered⟩ := not_reportsEntered_of_silent systemId other
  refine ⟨silent.threatsCurrent phase.current, inserted ++ inserted', ?_, ?_, ?_⟩
  · rw [grown', grown, List.append_assoc]
  · rw [silent.isThreatened_iff, ← events, List.forall_mem_append]
    exact and_iff_left noEvents
  · rw [silent.isThreatened_iff, ← entered, List.forall_mem_append]
    exact and_iff_left noEntered

theorem after_silent (silent : Silent before middle) (phase : Phase systemId middle after) :
    Phase systemId before after := by
  obtain ⟨inserted, grown, other⟩ := silent.inserted
  obtain ⟨inserted', grown', events, entered⟩ := phase.inserted
  obtain ⟨noEvents, noEntered⟩ := not_reportsEntered_of_silent systemId other
  refine ⟨phase.current, inserted ++ inserted', ?_, ?_, ?_⟩
  · rw [grown', grown, List.append_assoc]
  · rw [← silent.isThreatened_iff, ← events, List.forall_mem_append]
    exact and_iff_right noEvents
  · rw [← silent.isThreatened_iff, ← entered, List.forall_mem_append]
    exact and_iff_right noEntered

/-- **A statement that visits no other system is a phase.** -/
theorem of_maintains {now : Timestamp} {ids : List Uuid} (current : before.ThreatsCurrent)
    (step : Db.Maintains now ids before after) (only : ∀ id ∈ ids, id = systemId) :
    Phase systemId before after := by
  have current' := step.threatsCurrent current
  obtain ⟨inserted, grown, about⟩ := step.inserted
  have events : (inserted.map OutboxRow.toOutboxInsert).filter
      (OutboxInsert.isThreatEventOf systemId) = if systemId ∈ ids then
        controlThreatEvents systemId (before.systemFactionControlThreats.get systemId)
          (after.currentControlThreat now systemId) else [] := by
    have appended := step.events systemId
    rw [Db.threatEventsOf, grown, List.map_append, List.filter_append] at appended
    exact List.append_cancel_left appended
  have noEvents : (∀ row ∈ inserted, ¬ row.isThreatEventOf systemId) ↔
      (inserted.map OutboxRow.toOutboxInsert).filter (OutboxInsert.isThreatEventOf systemId) = [] := by
    simp [List.filter_eq_nil_iff]
  have noEntered : (∀ row ∈ inserted, ¬ row.reportsEntered) ↔
      ∀ event ∈ (inserted.map OutboxRow.toOutboxInsert).filter
        (OutboxInsert.isThreatEventOf systemId), ¬ event.reportsEntered := by
    constructor
    · intro none_ event member
      obtain ⟨inInserted, -⟩ := List.mem_filter.mp member
      obtain ⟨row, inRows, rfl⟩ := List.mem_map.mp inInserted
      exact none_ row inRows
    · intro none_ row member reports
      have type : row.eventType = "factionControlThreatChanged" := by
        simp only [OutboxInsert.reportsEntered, decide_eq_true_eq] at reports
        exact reports.1
      obtain ⟨id, listed, event⟩ := about row member type
      rw [only id listed] at event
      exact none_ _ (List.mem_filter.mpr ⟨List.mem_map_of_mem member, event⟩) reports
  refine ⟨current', inserted, grown, ?_, ?_⟩
  · rw [noEvents, events]
    by_cases visited : systemId ∈ ids
    · rw [if_pos visited, controlThreatEvents_eq_nil_iff, ← current.threatFlag_iff,
        Db.IsThreatened, ← (after.assesses_current now systemId).isThreatened]
      exact Bool.eq_iff_iff
    · rw [if_neg visited, Db.IsThreatened, Db.IsThreatened, step.controller systemId visited,
        step.states systemId visited]
      simp
  · rw [noEntered, events]
    by_cases visited : systemId ∈ ids
    · rw [if_pos visited, reportsEntered_controlThreatEvents, ← current.threatFlag_iff,
        Db.IsThreatened, ← (after.assesses_current now systemId).isThreatened]
      rfl
    · rw [if_neg visited, Db.IsThreatened, Db.IsThreatened, step.controller systemId visited,
        step.states systemId visited]
      simp

end Phase

/-! ## The silent helpers -/

theorem eventType_of_mem_factionPresenceChanged {change : Change SystemFactionRow}
    {event : OutboxInsert K} (member : event ∈ enqueueFactionPresenceChangedEvent change) :
    event.eventType = "factionPresenceChanged" := by
  cases change with
  | insert new => rw [List.mem_singleton.mp member]
  | update old new => cases member
  | delete old => rw [List.mem_singleton.mp member]

theorem eventType_of_mem_factionConflictChanged {change : Change (FactionConflictRow K)}
    {event : OutboxInsert K} (member : event ∈ enqueueFactionConflictChangedEvents change) :
    event.eventType = "factionStateChanged" := by
  unfold enqueueFactionConflictChangedEvents at member
  extract_lets old new oldLifecycle newLifecycle signatureChanged ended begun at member
  clear_value old new oldLifecycle newLifecycle signatureChanged
  rcases List.mem_append.mp member with inEnded | inBegun
  · simp only [ended] at inEnded
    split at inEnded
    · cases inEnded
    · split at inEnded
      · rw [List.mem_singleton.mp inEnded]
        rfl
      · cases inEnded
  · simp only [begun] at inBegun
    split at inBegun
    · split at inBegun
      · rw [List.mem_singleton.mp inBegun]
        rfl
      · cases inBegun
    · cases inBegun

/-- The upsert leaves the controlling faction of every system; a new system has none. -/
theorem controllingFactionOf_upsertSystem {data : SystemData K} {system : SystemRow K}
    (done : upsertSystem env data db = .ok (db', system)) (systemId : Uuid) :
    db'.controllingFactionOf systemId = db.controllingFactionOf systemId := by
  obtain ⟨validated, -, found, present, upserted, -⟩ := of_upsertSystem done
  obtain ⟨-, -, left, others⟩ := upsertRows_always (fun _ _ => rfl)
    (fun wanted member row _ => by rw [List.mem_singleton.mp member]; rfl) upserted
  have frame := frames_upsertRows upserted
  by_cases here : system.id = systemId
  · subst here
    rw [Db.controllingFactionOf_of_mem present]
    cases stored : db.systems.rows.find? fun row =>
        row.systemAddress = (validated.row env).systemAddress with
    | some row =>
        have member := List.mem_of_find?_eq_some stored
        have row_ : system = validated.set (env.newDate .upsertSystem) row := by
          rw [found, SystemInsert.upserted, rowFor, stored]
        have sameId : system.id = row.id := by rw [row_]; rfl
        rw [sameId, Db.controllingFactionOf_of_mem member, row_]
        rfl
    | none =>
        have row_ : system = validated.row env := by
          rw [found, SystemInsert.upserted, rowFor, stored]
        have absent : db.systems.rows.find? (fun row => row.id = system.id) = none := by
          refine List.find?_eq_none.mpr fun row member sameId => ?_
          -- A row with the fresh id would still be there, next to the new one.
          have apart : row.systemAddress ≠ (validated.row env).systemAddress := by
            simpa using List.find?_eq_none.mp stored row member
          have kept := others row.systemAddress (by simpa using apart)
          rw [find?_key (distinctAddresses db) member] at kept
          have same : row = system := Table.eq_of_clash
            (fun _ _ clash => clash.imp Eq.symm Eq.symm) (List.mem_of_find?_eq_some kept) present
            (.inl (by simpa using sameId))
          exact apart (by rw [same, row_])
        rw [Db.controllingFactionOf, absent, row_]
        rfl
  · have untouched : Untouched (fun row : SystemRow K => decide (row.id = systemId))
        [validated.change env db.systems.rows] := by
      intro change member row mentioned
      rw [List.mem_singleton.mp member] at mentioned
      rw [decide_eq_false_iff_not]
      intro same
      refine here (Eq.trans ?_ same)
      rw [found, SystemInsert.upserted, rowFor]
      rw [SystemInsert.change, changeFor] at mentioned
      split at mentioned
      · rcases List.mem_cons.mp mentioned with rfl | new
        · rfl
        · rw [List.mem_singleton.mp new]
      · rw [List.mem_singleton.mp mentioned]
    have same := frame _ untouched
    rw [Db.controllingFactionOf, Db.controllingFactionOf, ← List.head?_filter, same,
      List.head?_filter]

theorem silent_upsertSystem {data : SystemData K} {system : SystemRow K}
    (done : upsertSystem env data db = .ok (db', system)) : Silent db db' := by
  obtain ⟨validated, -, -, -, -, triggers⟩ := of_upsertSystem done
  have nobody : visitedBySystems [validated.change env db.systems.rows] = [] := by
    rw [SystemInsert.change, changeFor]
    split
    · simp only [visitedBySystems, List.flatMap_cons, List.flatMap_nil, List.append_nil,
        SystemInsert.set, ne_eq, not_true_eq_false, if_false]
    · rfl
  have refreshed := Db.refreshed_afterSystems env.now [validated.change env db.systems.rows]
    { db with systems := db'.systems }
  rw [← triggers, nobody] at refreshed
  refine ⟨fun systemId => ?_, ?_, controllingFactionOf_upsertSystem done, refreshed.inserted⟩
  · rw [refreshed.row]
    rfl
  · rw [refreshed.frame]

theorem silent_processPowerplayData {message : SystemMessage K} {systemId : Uuid}
    (done : processPowerplayData env message systemId db = .ok db') : Silent db db' := by
  have frame := frame_processPowerplayData done
  apply Silent.of_frame <;> rw [frame]

theorem silent_upsertFactions {statement : Statement} {messageFactions : List MessageFaction}
    {factions : List FactionRow}
    (done : upsertFactions env statement messageFactions db = .ok (db', factions)) :
    Silent db db' := by
  have frame := frame_upsertFactions done
  apply Silent.of_frame <;> rw [frame]

theorem silent_writeSystemFactions {now : Timestamp}
    {outcome : List SystemFactionRow × List (Change SystemFactionRow)}
    (written : db.writeSystemFactions now outcome = some db') : Silent db db' := by
  obtain ⟨-, triggers⟩ := Db.of_writeSystemFactions written
  have tables : Silent db { db with systemFactions := db'.systemFactions } :=
    Silent.of_frame rfl rfl rfl rfl
  have events : Silent { db with systemFactions := db'.systemFactions } db' := by
    rw [triggers]
    refine Silent.enqueue (fun event member => ?_) _
    obtain ⟨change, -, emitted⟩ := List.mem_flatMap.mp member
    rw [eventType_of_mem_factionPresenceChanged emitted]
    decide
  exact tables.trans events

theorem silent_upsertSystemFactions {systemId : Uuid} {factionIds : List Uuid}
    (done : upsertSystemFactions env systemId factionIds db = .ok db') : Silent db db' := by
  obtain ⟨middle, inserted, deleted⟩ := bind_eq_ok.mp done
  exact (silent_writeSystemFactions (orFail_eq_ok.mp inserted)).trans
    (silent_writeSystemFactions (orFail_eq_ok.mp deleted))

theorem silent_writeFactionConflicts {now : Timestamp}
    {outcome : List (FactionConflictRow K) × List (Change (FactionConflictRow K))}
    (written : db.writeFactionConflicts now outcome = some db') : Silent db db' := by
  obtain ⟨-, triggers⟩ := Db.of_writeFactionConflicts written
  have tables : Silent db { db with factionConflicts := db'.factionConflicts } :=
    Silent.of_frame rfl rfl rfl rfl
  have events : Silent { db with factionConflicts := db'.factionConflicts } db' := by
    rw [triggers]
    refine Silent.enqueue (fun event member => ?_) _
    obtain ⟨change, -, emitted⟩ := List.mem_flatMap.mp member
    rw [eventType_of_mem_factionConflictChanged emitted]
    decide
  exact tables.trans events

theorem silent_upsertFactionConflicts {systemId : Uuid} {conflicts : List (Conflict K)}
    (done : upsertFactionConflicts env systemId conflicts db = .ok db') : Silent db db' := by
  unfold upsertFactionConflicts at done
  simp only at done
  split at done
  · exact silent_writeFactionConflicts (orFail_eq_ok.mp done)
  · simp only [bind_eq_ok, orFail_eq_ok] at done
    obtain ⟨proposed, -, outcome, -, middle, inserted, deleted⟩ := done
    exact (silent_writeFactionConflicts inserted).trans (silent_writeFactionConflicts deleted)

theorem OnlyStationAndFaction.silent (only : OnlyStationAndFaction db db') : Silent db db' := by
  have frame := only.frame
  apply Silent.of_frame <;> rw [frame]

/-! ## The phases of a message -/

theorem phase_cleanupFactionStates {systemId : Uuid} {factionIds : List Uuid}
    (current : db.ThreatsCurrent)
    (done : cleanupFactionStates env systemId factionIds db = .ok db') :
    Phase systemId db db' := by
  have step := Db.maintains_of_writeFactionStates (frames_deleteRows _ _) (orFail_eq_ok.mp done)
  refine Phase.of_maintains current step fun id visited => ?_
  obtain ⟨change, member, row, mentioned, rfl⟩ := exists_of_mem_visitedByStates visited
  obtain ⟨deleted, matched, rfl⟩ := List.mem_map.mp member
  obtain rfl := List.mem_singleton.mp mentioned
  have here := (List.mem_filter.mp matched).2
  simp only [decide_eq_true_eq] at here
  exact here.1

theorem SystemRow.id_setControl (factionId : Uuid) (updatedAt : Timestamp) (row : SystemRow K) :
    (row.setControl factionId updatedAt).id = row.id := rfl

theorem phase_syncSystemControllingFaction {systemId : Uuid} {factionId : JsLookup Uuid}
    (current : db.ThreatsCurrent)
    (done : syncSystemControllingFaction env systemId factionId db = .ok db') :
    Phase systemId db db' := by
  cases factionId with
  | value id =>
      have step := Db.maintains_of_writeSystems (fun other away => controller_updateRows
        (SystemRow.id_setControl id (env.newDate .syncSystemControllingFaction)) db.systems.rows
        away) (orFail_eq_ok.mp done)
      refine Phase.of_maintains current step fun other visited => ?_
      obtain ⟨change, member, changed⟩ := List.mem_flatMap.mp visited
      obtain ⟨row, matched, rfl⟩ := List.mem_map.mp member
      have here := (List.mem_filter.mp matched).2
      simp only [decide_eq_true_eq] at here
      dsimp only at changed
      split at changed
      · exact (List.mem_singleton.mp changed).trans here
      · cases changed
  | inherited => exact absurd done throw_ne_ok
  | null =>
      obtain rfl := pure_eq_ok.mp done
      exact Phase.of_maintains current ((Silent.refl db).maintains 0) (by simp)
  | undefined =>
      obtain rfl := pure_eq_ok.mp done
      exact Phase.of_maintains current ((Silent.refl db).maintains 0) (by simp)

theorem phase_upsertFactionStates {systemId : Uuid} {factions : List (FactionElement K)}
    {factionIdMap : OrderedMap String Uuid} (current : db.ThreatsCurrent)
    (done : upsertFactionStates env systemId factions factionIdMap db = .ok db') :
    Phase systemId db db' := by
  simp only [upsertFactionStates, bind_eq_ok, orFail_eq_ok] at done
  obtain ⟨proposed, parsed, outcome, upserted, written⟩ := done
  have step := Db.maintains_of_writeFactionStates (frames_upsertRows upserted) written
  refine Phase.of_maintains current step fun id visited => ?_
  obtain ⟨change, member, row, mentioned, rfl⟩ := exists_of_mem_visitedByStates visited
  have key := key_of_upsertRows (FactionStateRow.key_setExcluded _) upserted change member row
    mentioned
  obtain ⟨wanted, inProposed, sameKey⟩ := List.mem_map.mp key
  obtain ⟨faction, -, index, found⟩ := (proposedStates_iff parsed).1 wanted inProposed
  exact (congrArg Prod.snd sameKey).symm.trans (key_parseFactionStateInsert found).2.1

end EliteHubVault
