import EliteHubVault.ControlThreat.Specification

/-!
# The threat table is maintained statement by statement

`Refreshed` says what a series of refreshes does: the systems it visits get the row
computed from the current tables and the events of that change, every other system keeps
its row and gets no event. Visiting a system twice is the same as visiting it once.

`Maintains` says it of a whole statement with its triggers: a system that the triggers do
not visit has the controlling faction and the states that it had before. What holds of the
threat table and of the threat events over a run is derived from `Maintains` alone.
-/

set_option autoImplicit false

namespace EliteHubVault

open Library

variable {K : Type}

/-! ## The threat events of a system -/

/-- The event reports a change of the threat in this system. -/
def OutboxInsert.isThreatEventOf (systemId : Uuid) (event : OutboxInsert K) : Bool :=
  event.eventType = "factionControlThreatChanged" ∧
    (event.payload.field? "systemId").bind Json.asString? = some systemId.toText

section

variable [Field K]

theorem isThreatEventOf_controlThreatEvent (systemId other : Uuid) (factionId : Option Uuid)
    (status : String) (challenger : Option Uuid) (gap : Option K) :
    (controlThreatEvent systemId factionId status challenger gap).isThreatEventOf other =
      decide (systemId = other) := by
  simp [OutboxInsert.isThreatEventOf, controlThreatEvent, Json.field?, Json.ofUuid,
    Json.asString?, List.lookup, Uuid.toText_injective.eq_iff]

/-- The events of a refresh are about the system it refreshes. -/
theorem isThreatEventOf_of_mem_controlThreatEvents {systemId : Uuid}
    {previous : Option (ControlThreatRow K)} {row : ControlThreatRow K} {event : OutboxInsert K}
    (member : event ∈ controlThreatEvents systemId previous row) (other : Uuid) :
    event.isThreatEventOf other = decide (other = systemId) := by
  unfold controlThreatEvents at member
  cases previous <;> simp only at member <;> split_ifs at member <;>
    first
      | (simp only [List.mem_singleton] at member
         rw [member, isThreatEventOf_controlThreatEvent]
         simp [eq_comm])
      | cases member

theorem filter_controlThreatEvents (systemId other : Uuid)
    (previous : Option (ControlThreatRow K)) (row : ControlThreatRow K) :
    (controlThreatEvents systemId previous row).filter (OutboxInsert.isThreatEventOf other) =
      if other = systemId then controlThreatEvents systemId previous row else [] := by
  split
  · rename_i same
    exact List.filter_eq_self.mpr fun event member =>
      (isThreatEventOf_of_mem_controlThreatEvents member other).trans (decide_eq_true same)
  · rename_i different
    exact List.filter_eq_nil_iff.mpr fun event member => by
      simp [isThreatEventOf_of_mem_controlThreatEvents member other, different]

/-- A refresh that finds the row it computes emits nothing. -/
@[simp] theorem controlThreatEvents_self (systemId : Uuid) (row : ControlThreatRow K) :
    controlThreatEvents systemId (some row) row = [] := by
  simp [controlThreatEvents]

end

theorem eventType_of_mem_factionStateChanged {change : Change (FactionStateRow K)}
    {event : OutboxInsert K} (member : event ∈ enqueueFactionStateChangedEvents change) :
    event.eventType = "factionStateChanged" := by
  cases change <;>
    simp only [enqueueFactionStateChangedEvents, emitFactionStateLifecycleEvents,
      List.mem_append, List.mem_map] at member <;>
    rcases member with (⟨_, -, rfl⟩ | ⟨_, -, rfl⟩) | ⟨_, -, rfl⟩ <;> rfl

theorem eventType_of_mem_systemPowerplayUpdated [DecidableEq K] {old new : SystemRow K}
    {event : OutboxInsert K} (member : event ∈ enqueueSystemPowerplayUpdatedEvent old new) :
    event.eventType = "systemPowerplayUpdated" := by
  unfold enqueueSystemPowerplayUpdatedEvent at member
  extract_lets changedFields at member
  by_cases unchanged : changedFields = []
  · rw [if_pos unchanged] at member
    cases member
  · rw [if_neg unchanged, List.mem_singleton] at member
    rw [member]

/-! ## The systems that the triggers visit -/

/-- The systems that the triggers on `factionStates` visit. -/
def visitedByStates (changes : List (Change (FactionStateRow K))) : List Uuid :=
  updatedSystemIds changes ++ insertedSystemIds changes ++ deletedSystemIds changes

/-- The systems that the triggers on `systems` visit: their controlling faction changed. -/
def visitedBySystems (changes : List (Change (SystemRow K))) : List Uuid :=
  changes.flatMap fun change => match change with
    | .update old new =>
        if new.controllingFactionId ≠ old.controllingFactionId then [new.id] else []
    | _ => []

/-- Every version that a change of `factionStates` mentions is of a visited system. -/
theorem mem_visitedByStates {changes : List (Change (FactionStateRow K))}
    {change : Change (FactionStateRow K)} (member : change ∈ changes) {row : FactionStateRow K}
    (mentioned : row ∈ change.versions) : row.systemId ∈ visitedByStates changes := by
  simp only [visitedByStates, updatedSystemIds, insertedSystemIds, deletedSystemIds,
    List.mem_append, mem_sqlUnion, mem_distinct, List.mem_map, List.mem_filterMap]
  cases change with
  | insert new =>
      obtain rfl := List.mem_singleton.mp mentioned
      exact .inl (.inr ⟨row, ⟨_, member, rfl⟩, rfl⟩)
  | update old new =>
      rcases List.mem_cons.mp mentioned with rfl | later
      · exact .inl (.inl (.inr ⟨(row, new), ⟨_, member, rfl⟩, rfl⟩))
      · obtain rfl := List.mem_singleton.mp later
        exact .inl (.inl (.inl ⟨(old, row), ⟨_, member, rfl⟩, rfl⟩))
  | delete old =>
      obtain rfl := List.mem_singleton.mp mentioned
      exact .inr ⟨row, ⟨_, member, rfl⟩, rfl⟩

/-- The systems that the triggers on `factionStates` visit are mentioned by the changes. -/
theorem exists_of_mem_visitedByStates {changes : List (Change (FactionStateRow K))}
    {systemId : Uuid} (visited : systemId ∈ visitedByStates changes) :
    ∃ change ∈ changes, ∃ row ∈ change.versions, row.systemId = systemId := by
  have mentioned : ∀ {α : Type} (read : Change (FactionStateRow K) → Option α)
      (version : α → FactionStateRow K),
      (∀ change a, read change = some a → version a ∈ change.versions) →
      systemId ∈ (changes.filterMap read).map (fun a => (version a).systemId) →
      ∃ change ∈ changes, ∃ row ∈ change.versions, row.systemId = systemId := by
    intro α read version shown member
    obtain ⟨a, inReads, same⟩ := List.mem_map.mp member
    obtain ⟨change, listed, found⟩ := List.mem_filterMap.mp inReads
    exact ⟨change, listed, version a, shown change a found, same⟩
  simp only [visitedByStates, updatedSystemIds, insertedSystemIds, deletedSystemIds,
    List.mem_append, mem_sqlUnion, mem_distinct] at visited
  rcases visited with ((newer | older) | inserted) | deleted
  · refine mentioned Change.updated? Prod.snd (fun change versions found => ?_) newer
    cases change <;> cases found
    exact List.mem_cons_of_mem _ List.mem_cons_self
  · refine mentioned Change.updated? Prod.fst (fun change versions found => ?_) older
    cases change <;> cases found
    exact List.mem_cons_self
  · refine mentioned Change.inserted? id (fun change row found => ?_) inserted
    cases change <;> cases found
    exact List.mem_cons_self
  · refine mentioned Change.deleted? id (fun change row found => ?_) deleted
    cases change <;> cases found
    exact List.mem_cons_self

/-- An update of `systems` that keeps the ids visits every system whose controlling faction
it changes. -/
theorem controller_updateRows {where_ : SystemRow K → Bool} {set : SystemRow K → SystemRow K}
    (idKept : ∀ row, (set row).id = row.id) (rows : List (SystemRow K)) {systemId : Uuid}
    (away : systemId ∉ visitedBySystems (updateRows where_ set rows).2) :
    (((updateRows where_ set rows).1.find? fun row => row.id = systemId).bind
        fun row => row.controllingFactionId) =
      (rows.find? fun row => row.id = systemId).bind fun row => row.controllingFactionId := by
  have sameId : ∀ row, (if where_ row then set row else row).id = row.id := by
    intro row
    split
    · exact idKept row
    · rfl
  have lookup : ((updateRows where_ set rows).1.find? fun row => row.id = systemId) =
      (rows.find? fun row => row.id = systemId).map fun row =>
        if where_ row then set row else row := by
    simp only [updateRows, List.find?_map, Function.comp_def, sameId]
  rw [lookup]
  cases found : rows.find? fun row => row.id = systemId with
  | none => rfl
  | some row =>
      have member := List.mem_of_find?_eq_some found
      obtain rfl : row.id = systemId := by simpa using List.find?_some found
      simp only [Option.map_some, Option.bind_some]
      by_cases matched : where_ row = true
      · rw [if_pos matched]
        by_contra changed
        refine away (List.mem_flatMap.mpr ⟨.update row (set row), ?_, ?_⟩)
        · exact List.mem_map_of_mem (List.mem_filter.mpr ⟨member, matched⟩)
        · simp [changed, idKept]
      · rw [if_neg matched]

/-- The events that were inserted. -/
def insertedEvents {P : Platform K} (before after : Db P) : List (OutboxRow K) :=
  after.eventOutbox.drop before.eventOutbox.length

namespace Db

variable {P : Platform K}

/-! ## A series of refreshes -/

/-- The events about the threat in a system, in insertion order. -/
def threatEventsOf (db : Db P) (systemId : Uuid) : List (OutboxInsert K) :=
  (db.eventOutbox.map OutboxRow.toOutboxInsert).filter (OutboxInsert.isThreatEventOf systemId)

theorem threatEventsOf_enqueue (now : Timestamp) (inserts : List (OutboxInsert K)) (db : Db P)
    (systemId : Uuid) : (db.enqueue now inserts).threatEventsOf systemId =
      db.threatEventsOf systemId ++ inserts.filter (OutboxInsert.isThreatEventOf systemId) := by
  simp [threatEventsOf, Function.comp_def]

/-- Events of another type are not about a threat. -/
theorem threatEventsOf_enqueue_of_other {now : Timestamp} {inserts : List (OutboxInsert K)}
    (other : ∀ event ∈ inserts, event.eventType ≠ "factionControlThreatChanged") (db : Db P)
    (systemId : Uuid) :
    (db.enqueue now inserts).threatEventsOf systemId = db.threatEventsOf systemId := by
  rw [threatEventsOf_enqueue, List.filter_eq_nil_iff.mpr, List.append_nil]
  intro event member
  simp [OutboxInsert.isThreatEventOf, other event member]

/-- Events were inserted, and those about a threat are about one of these systems. -/
def InsertsThreatsOf (ids : List Uuid) (before after : Db P) : Prop :=
  ∃ inserted : List (OutboxRow K), after.eventOutbox = before.eventOutbox ++ inserted ∧
    ∀ row ∈ inserted, row.eventType = "factionControlThreatChanged" →
      ∃ systemId ∈ ids, row.isThreatEventOf systemId = true

theorem InsertsThreatsOf.trans {ids later : List Uuid} {before middle after : Db P}
    (first : InsertsThreatsOf ids before middle) (second : InsertsThreatsOf later middle after) :
    InsertsThreatsOf (ids ++ later) before after := by
  obtain ⟨inserted, grown, about⟩ := first
  obtain ⟨inserted', grown', about'⟩ := second
  refine ⟨inserted ++ inserted', by rw [grown', grown, List.append_assoc], fun row member type => ?_⟩
  rcases List.mem_append.mp member with early | late
  · obtain ⟨systemId, listed, event⟩ := about row early type
    exact ⟨systemId, List.mem_append_left _ listed, event⟩
  · obtain ⟨systemId, listed, event⟩ := about' row late type
    exact ⟨systemId, List.mem_append_right _ listed, event⟩

variable [Field K] [LinearOrder K]

theorem threatEventsOf_refresh (now : Timestamp) (db : Db P) (systemId other : Uuid) :
    (db.refreshSystemFactionControlThreat now systemId).threatEventsOf other =
      db.threatEventsOf other ++ if other = systemId then
        controlThreatEvents systemId (db.systemFactionControlThreats.get systemId)
          (db.currentControlThreat now systemId) else [] := by
  rw [← filter_controlThreatEvents]
  exact threatEventsOf_enqueue now _ db other

/-- What a series of refreshes of the systems `ids` does, apart from events of other types. -/
structure Refreshed (now : Timestamp) (ids : List Uuid) (before after : Db P) : Prop where
  frame : after = { before with
    systemFactionControlThreats := after.systemFactionControlThreats
    eventOutbox := after.eventOutbox }
  row : ∀ systemId, after.systemFactionControlThreats.get systemId =
    if systemId ∈ ids then some (before.currentControlThreat now systemId)
    else before.systemFactionControlThreats.get systemId
  events : ∀ systemId, after.threatEventsOf systemId = before.threatEventsOf systemId ++
    if systemId ∈ ids then
      controlThreatEvents systemId (before.systemFactionControlThreats.get systemId)
        (before.currentControlThreat now systemId)
    else []
  inserted : InsertsThreatsOf ids before after

namespace Refreshed

variable {now : Timestamp} {ids later : List Uuid} {before middle after : Db P}

theorem systems (done : Refreshed now ids before after) : after.systems = before.systems := by
  rw [done.frame]

theorem factionStates (done : Refreshed now ids before after) :
    after.factionStates = before.factionStates := by
  rw [done.frame]

/-- What a refresh would compute is not changed by refreshes. -/
theorem current (done : Refreshed now ids before after) (at_ : Timestamp) (systemId : Uuid) :
    after.currentControlThreat at_ systemId = before.currentControlThreat at_ systemId :=
  currentControlThreat_congr done.systems done.factionStates at_ systemId

theorem enqueue {inserts : List (OutboxInsert K)}
    (other : ∀ event ∈ inserts, event.eventType ≠ "factionControlThreatChanged") (db : Db P) :
    Refreshed now [] db (db.enqueue now inserts) where
  frame := rfl
  row systemId := by simp
  events systemId := by simp [threatEventsOf_enqueue_of_other other]
  inserted := by
    refine ⟨_, rfl, fun row member type => ?_⟩
    obtain ⟨event, inInserts, rfl⟩ := List.mem_map.mp member
    exact absurd type (other event inInserts)

theorem refresh (systemId : Uuid) (db : Db P) :
    Refreshed now [systemId] db (db.refreshSystemFactionControlThreat now systemId) where
  frame := rfl
  row other := by simp [OrderedMap.get_set]; split <;> simp_all
  events other := by
    rw [threatEventsOf_refresh]
    by_cases same : other = systemId <;> simp [same]
  inserted := by
    refine ⟨_, eventOutbox_refresh now db systemId, fun row member _ => ?_⟩
    obtain ⟨event, inInserts, rfl⟩ := List.mem_map.mp member
    exact ⟨systemId, List.mem_cons_self, by
      simp [isThreatEventOf_of_mem_controlThreatEvents inInserts]⟩

theorem refl (db : Db P) : Refreshed now [] db db where
  frame := rfl
  row systemId := by simp
  events systemId := by simp
  inserted := ⟨[], by simp, by simp⟩

/-- Two series in a row; a system that both visit has its row after the first one. -/
theorem trans (first : Refreshed now ids before middle) (second : Refreshed now later middle after) :
    Refreshed now (ids ++ later) before after where
  frame := by rw [second.frame, first.frame]
  row systemId := by
    rw [second.row, first.row, first.current]
    by_cases early : systemId ∈ ids <;> by_cases late : systemId ∈ later <;> simp [early, late]
  events systemId := by
    rw [second.events, first.events, first.row, first.current]
    by_cases early : systemId ∈ ids <;> by_cases late : systemId ∈ later <;> simp [early, late]
  inserted := first.inserted.trans second.inserted

theorem foldl (ids : List Uuid) (db : Db P) :
    Refreshed now ids db (ids.foldl (refreshSystemFactionControlThreat now) db) := by
  induction ids generalizing db with
  | nil => exact refl db
  | cons systemId rest ih => exact (refresh systemId db).trans (ih _)

end Refreshed

theorem refreshed_afterFactionStates (now : Timestamp)
    (changes : List (Change (FactionStateRow K))) (db : Db P) :
    Refreshed now (visitedByStates changes) db (db.afterFactionStates now changes) := by
  have lifecycle : Refreshed now [] db
      (db.enqueue now (changes.flatMap enqueueFactionStateChangedEvents)) := by
    refine Refreshed.enqueue (fun event member => ?_) db
    obtain ⟨change, -, emitted⟩ := List.mem_flatMap.mp member
    rw [eventType_of_mem_factionStateChanged emitted]
    decide
  exact ((lifecycle.trans (Refreshed.foldl _ _)).trans (Refreshed.foldl _ _)).trans
    (Refreshed.foldl _ _)

theorem refreshed_afterSystems (now : Timestamp) (changes : List (Change (SystemRow K)))
    (db : Db P) : Refreshed now (visitedBySystems changes) db (db.afterSystems now changes) := by
  induction changes generalizing db with
  | nil => exact Refreshed.refl db
  | cons change rest ih =>
      have one : Refreshed now (visitedBySystems [change]) db (db.afterSystemChange now change) := by
        cases change with
        | insert new => exact Refreshed.refl db
        | delete old => exact Refreshed.refl db
        | update old new =>
            have powerplay : ∀ db : Db P, Refreshed now [] db
                (db.enqueue now (enqueueSystemPowerplayUpdatedEvent old new)) :=
              Refreshed.enqueue fun event member => by
                rw [eventType_of_mem_systemPowerplayUpdated member]
                decide
            by_cases changed : new.controllingFactionId ≠ old.controllingFactionId
            · simpa [visitedBySystems, afterSystemChange, changed] using
                (Refreshed.refresh new.id db).trans (powerplay _)
            · have same : new.controllingFactionId = old.controllingFactionId := by
                simpa using changed
              simpa [visitedBySystems, afterSystemChange, same] using powerplay db
      have both := one.trans (ih (db.afterSystemChange now change))
      rwa [show visitedBySystems (change :: rest) =
        visitedBySystems [change] ++ visitedBySystems rest by simp [visitedBySystems]]

/-! ## A statement with its triggers -/

/-- What a statement and its triggers do to the threat table and to the threat events. -/
structure Maintains (now : Timestamp) (ids : List Uuid) (before after : Db P) : Prop where
  row : ∀ systemId, after.systemFactionControlThreats.get systemId =
    if systemId ∈ ids then some (after.currentControlThreat now systemId)
    else before.systemFactionControlThreats.get systemId
  events : ∀ systemId, after.threatEventsOf systemId = before.threatEventsOf systemId ++
    if systemId ∈ ids then
      controlThreatEvents systemId (before.systemFactionControlThreats.get systemId)
        (after.currentControlThreat now systemId)
    else []
  controller : ∀ systemId, systemId ∉ ids →
    after.controllingFactionOf systemId = before.controllingFactionOf systemId
  states : ∀ systemId, systemId ∉ ids → after.statesOf systemId = before.statesOf systemId
  inserted : InsertsThreatsOf ids before after

/-- **A statement on `factionStates` maintains the threats**, whatever rows it touches. -/
theorem maintains_of_writeFactionStates {now : Timestamp}
    {outcome : List (FactionStateRow K) × List (Change (FactionStateRow K))} {db db' : Db P}
    (frames : Frames db.factionStates.rows outcome)
    (written : db.writeFactionStates now outcome = some db') :
    Maintains now (visitedByStates outcome.2) db db' := by
  obtain ⟨⟨table, changes⟩, write, rfl⟩ := Option.map_eq_some_iff.mp written
  obtain rfl := Table.write_eq_some write
  have done := refreshed_afterFactionStates now changes { db with factionStates := table }
  refine ⟨fun systemId => ?_, fun systemId => ?_, fun systemId _ => ?_, fun systemId away => ?_,
    done.inserted⟩
  · rw [done.row, done.current]
  · rw [done.events, done.current]
    rfl
  · simp only [controllingFactionOf, done.systems]
  · simp only [statesOf, done.factionStates]
    refine frames _ fun change member row mentioned => ?_
    rw [decide_eq_false_iff_not]
    rintro rfl
    exact away (mem_visitedByStates member mentioned)

/-- A statement on `systems` maintains the threats when the controlling faction of a system
that no trigger visits stays. -/
theorem maintains_of_writeSystems {now : Timestamp}
    {outcome : List (SystemRow K) × List (Change (SystemRow K))} {db db' : Db P}
    (kept : ∀ systemId, systemId ∉ visitedBySystems outcome.2 →
      (outcome.1.find? fun row => row.id = systemId).bind (fun row => row.controllingFactionId) =
        db.controllingFactionOf systemId)
    (written : db.writeSystems now outcome = some db') :
    Maintains now (visitedBySystems outcome.2) db db' := by
  obtain ⟨⟨table, changes⟩, write, rfl⟩ := Option.map_eq_some_iff.mp written
  obtain rfl := Table.write_eq_some write
  have done := refreshed_afterSystems now changes { db with systems := table }
  refine ⟨fun systemId => ?_, fun systemId => ?_, fun systemId away => ?_, fun systemId _ => ?_,
    done.inserted⟩
  · rw [done.row, done.current]
  · rw [done.events, done.current]
    rfl
  · rw [← kept systemId away]
    simp only [controllingFactionOf, done.systems]
  · simp only [statesOf, done.factionStates]

end Db

end EliteHubVault
