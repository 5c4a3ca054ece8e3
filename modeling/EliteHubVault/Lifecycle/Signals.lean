import EliteHubVault.ControlThreat.Maintenance
import EliteHubVault.Library.ChangeLog

/-!
# What a reader of the outbox sees

A reader picks its signals from the events, in insertion order (`Db.signals`). One that
ignores control threats and powerplay sees of a statement on `factionStates` the lifecycle
events of its changes, and of a statement on `systems` nothing.
-/

set_option autoImplicit false

namespace EliteHubVault

open Library

variable {K ν : Type}

/-- The reader picks nothing from events of this type. -/
def Ignores (read : OutboxInsert K → Option ν) (eventType : String) : Prop :=
  ∀ event : OutboxInsert K, event.eventType = eventType → read event = none

theorem Ignores.filterMap_eq_nil {read : OutboxInsert K → Option ν} {eventType : String}
    (ignores : Ignores read eventType) {events : List (OutboxInsert K)}
    (typed : ∀ event ∈ events, event.eventType = eventType) : events.filterMap read = [] :=
  List.filterMap_eq_nil_iff.mpr fun event member => ignores event (typed event member)

theorem eventType_of_mem_controlThreatEvents [Field K] {systemId : Uuid}
    {previous : Option (ControlThreatRow K)} {row : ControlThreatRow K} {event : OutboxInsert K}
    (member : event ∈ controlThreatEvents systemId previous row) :
    event.eventType = "factionControlThreatChanged" := by
  have threat := isThreatEventOf_of_mem_controlThreatEvents member systemId
  rw [decide_eq_true rfl, OutboxInsert.isThreatEventOf, decide_eq_true_iff] at threat
  exact threat.1

namespace Db

variable {P : Platform K} {read : OutboxInsert K → Option ν}

/-- The signals that a reader picks from the events. -/
def signals (read : OutboxInsert K → Option ν) (db : Db P) : List ν :=
  (db.eventOutbox.map OutboxRow.toOutboxInsert).filterMap read

theorem signals_congr {db db' : Db P} (same : db.eventOutbox = db'.eventOutbox) :
    db.signals read = db'.signals read := by
  rw [signals, signals, same]

@[simp] theorem signals_enqueue (now : Timestamp) (inserts : List (OutboxInsert K)) (db : Db P) :
    (db.enqueue now inserts).signals read = db.signals read ++ inserts.filterMap read := by
  simp [signals, Function.comp_def]

/-- A statement on `factionConflicts` shows the lifecycle events of its changes. -/
theorem signals_writeFactionConflicts {now : Timestamp} {db db' : Db P}
    {outcome : List (FactionConflictRow K) × List (Change (FactionConflictRow K))}
    (written : db.writeFactionConflicts now outcome = some db') :
    db'.signals read = db.signals read ++
      (outcome.2.flatMap enqueueFactionConflictChangedEvents).filterMap read := by
  obtain ⟨⟨table, changes⟩, write, rfl⟩ := Option.map_eq_some_iff.mp written
  obtain rfl := Table.write_eq_some write
  exact signals_enqueue now _ { db with factionConflicts := table }

/-- A statement on `systemFactions` shows the presence events of its changes. -/
theorem signals_writeSystemFactions {now : Timestamp} {db db' : Db P}
    {outcome : List SystemFactionRow × List (Change SystemFactionRow)}
    (written : db.writeSystemFactions now outcome = some db') :
    db'.signals read = db.signals read ++
      (outcome.2.flatMap enqueueFactionPresenceChangedEvent).filterMap read := by
  obtain ⟨⟨table, changes⟩, write, rfl⟩ := Option.map_eq_some_iff.mp written
  obtain rfl := Table.write_eq_some write
  exact signals_enqueue now _ { db with systemFactions := table }

variable [Field K] [LinearOrder K] (threats : Ignores read "factionControlThreatChanged")

include threats

theorem signals_refresh (now : Timestamp) (db : Db P) (systemId : Uuid) :
    (db.refreshSystemFactionControlThreat now systemId).signals read = db.signals read := by
  have shown : (db.refreshSystemFactionControlThreat now systemId).signals read =
      db.signals read ++ (controlThreatEvents systemId (db.systemFactionControlThreats.get systemId)
        (db.currentControlThreat now systemId)).filterMap read := signals_enqueue now _ db
  rw [shown, threats.filterMap_eq_nil fun _ member => eventType_of_mem_controlThreatEvents member,
    List.append_nil]

theorem signals_foldl_refresh (now : Timestamp) (ids : List Uuid) (db : Db P) :
    (ids.foldl (refreshSystemFactionControlThreat now) db).signals read = db.signals read := by
  induction ids generalizing db with
  | nil => rfl
  | cons systemId rest ih => rw [List.foldl_cons, ih, signals_refresh threats]

/-- A statement on `factionStates` shows the lifecycle events of its changes. -/
theorem signals_writeFactionStates {now : Timestamp} {db db' : Db P}
    {outcome : List (FactionStateRow K) × List (Change (FactionStateRow K))}
    (written : db.writeFactionStates now outcome = some db') :
    db'.signals read = db.signals read ++
      (outcome.2.flatMap enqueueFactionStateChangedEvents).filterMap read := by
  obtain ⟨⟨table, changes⟩, write, rfl⟩ := Option.map_eq_some_iff.mp written
  obtain rfl := Table.write_eq_some write
  simp only [afterFactionStates, signals_foldl_refresh threats]
  exact signals_enqueue now _ { db with factionStates := table }

variable (powerplay : Ignores read "systemPowerplayUpdated")

include powerplay

/-- A statement on `systems` shows nothing. -/
theorem signals_writeSystems {now : Timestamp} {db db' : Db P}
    {outcome : List (SystemRow K) × List (Change (SystemRow K))}
    (written : db.writeSystems now outcome = some db') : db'.signals read = db.signals read := by
  obtain ⟨⟨table, changes⟩, write, rfl⟩ := Option.map_eq_some_iff.mp written
  have unseen : ∀ (db : Db P) (change : Change (SystemRow K)),
      (db.afterSystemChange now change).signals read = db.signals read := by
    intro db change
    cases change with
    | insert new => rfl
    | delete old => rfl
    | update old new =>
        simp only [afterSystemChange, signals_enqueue, powerplay.filterMap_eq_nil
          fun _ member => eventType_of_mem_systemPowerplayUpdated member, List.append_nil]
        split
        · exact signals_refresh threats now db new.id
        · rfl
  have all : ∀ (changes : List (Change (SystemRow K))) (db : Db P),
      (db.afterSystems now changes).signals read = db.signals read := by
    intro changes
    induction changes with
    | nil => exact fun db => rfl
    | cons change rest ih => exact fun db => (ih _).trans (unseen db change)
  exact all changes { db with systems := table }

end Db

end EliteHubVault
