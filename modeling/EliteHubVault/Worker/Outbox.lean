import EliteHubVault.Worker.Frames

/-!
# What a transaction appends to the outbox

Rows of the outbox are written by triggers only. A transaction of the worker is a series of
statements (`statements_processMessage`), so what every statement with its triggers keeps, every
run of the worker keeps. In particular a transaction appends rows, all with its start time as
`createdAt`, and leaves the ones it found.
-/

set_option autoImplicit false
set_option linter.unusedSectionVars false

namespace EliteHubVault

open Library

variable {K : Type} {P : Platform K}

/-! ## Statements -/

namespace Db

/-- Rows were appended to the outbox at this time. -/
def Appends (now : Timestamp) (before after : Db P) : Prop :=
  ∃ inserted : List (OutboxRow K), after.eventOutbox = before.eventOutbox ++ inserted ∧
    ∀ row ∈ inserted, row.createdAt = now

namespace Appends

variable {now : Timestamp} {before middle after : Db P}

/-- A step that leaves the outbox. -/
theorem of_eq (same : after.eventOutbox = before.eventOutbox) : Appends now before after :=
  ⟨[], by rw [same, List.append_nil], fun _ member => nomatch member⟩

theorem trans (first : Appends now before middle) (second : Appends now middle after) :
    Appends now before after := by
  obtain ⟨early, grown, times⟩ := first
  obtain ⟨late, grown', times'⟩ := second
  refine ⟨early ++ late, by rw [grown', grown, List.append_assoc], ?_⟩
  intro row member
  rcases List.mem_append.mp member with inEarly | inLate
  · exact times row inEarly
  · exact times' row inLate

theorem enqueue (inserts : List (OutboxInsert K)) (db : Db P) :
    Appends now db (db.enqueue now inserts) := by
  refine ⟨_, rfl, fun row member => ?_⟩
  obtain ⟨insert, -, rfl⟩ := List.mem_map.mp member
  rfl

/-- A series of steps that append. -/
theorem foldl {α : Type} {step : Db P → α → Db P} (one : ∀ db a, Appends now db (step db a))
    (items : List α) (db : Db P) : Appends now db (items.foldl step db) := by
  induction items generalizing db with
  | nil => exact of_eq rfl
  | cons item rest ih => exact (one db item).trans (ih (step db item))

end Appends

theorem appends_writeSystemFactions {now : Timestamp} {db db' : Db P}
    {outcome : List SystemFactionRow × List (Change SystemFactionRow)}
    (written : db.writeSystemFactions now outcome = some db') : Appends now db db' := by
  obtain ⟨⟨table, changes⟩, -, rfl⟩ := Option.map_eq_some_iff.mp written
  exact Appends.enqueue _ { db with systemFactions := table }

theorem appends_writeFactionConflicts {now : Timestamp} {db db' : Db P}
    {outcome : List (FactionConflictRow K) × List (Change (FactionConflictRow K))}
    (written : db.writeFactionConflicts now outcome = some db') : Appends now db db' := by
  obtain ⟨⟨table, changes⟩, -, rfl⟩ := Option.map_eq_some_iff.mp written
  exact Appends.enqueue _ { db with factionConflicts := table }

variable [Field K] [LinearOrder K]

theorem appends_refresh (now : Timestamp) (db : Db P) (systemId : Uuid) :
    Appends now db (db.refreshSystemFactionControlThreat now systemId) :=
  Appends.enqueue _ db

theorem appends_writeFactionStates {now : Timestamp} {db db' : Db P}
    {outcome : List (FactionStateRow K) × List (Change (FactionStateRow K))}
    (written : db.writeFactionStates now outcome = some db') : Appends now db db' := by
  obtain ⟨⟨table, changes⟩, -, rfl⟩ := Option.map_eq_some_iff.mp written
  have refreshes : ∀ (ids : List Uuid) (db : Db P),
      Appends now db (ids.foldl (refreshSystemFactionControlThreat now) db) :=
    Appends.foldl (appends_refresh now)
  exact (((Appends.enqueue _ { db with factionStates := table }).trans (refreshes _ _)).trans
    (refreshes _ _)).trans (refreshes _ _)

theorem appends_writeSystems {now : Timestamp} {db db' : Db P}
    {outcome : List (SystemRow K) × List (Change (SystemRow K))}
    (written : db.writeSystems now outcome = some db') : Appends now db db' := by
  obtain ⟨⟨table, changes⟩, -, rfl⟩ := Option.map_eq_some_iff.mp written
  refine Appends.foldl (fun db change => ?_) changes { db with systems := table }
  cases change with
  | insert new => exact Appends.of_eq rfl
  | delete old => exact Appends.of_eq rfl
  | update old new =>
      by_cases changed : new.controllingFactionId ≠ old.controllingFactionId
      · simp only [afterSystemChange, if_pos changed]
        exact (appends_refresh now db new.id).trans (Appends.enqueue _ _)
      · simp only [afterSystemChange, if_neg changed]
        exact Appends.enqueue _ db

/-! ## Series of statements -/

/-- A statement with its triggers, or a write to tables that have no trigger or whose trigger
emits nothing. -/
inductive StatementStep (now : Timestamp) (db db' : Db P) : Prop where
  | factionStates {outcome : List (FactionStateRow K) × List (Change (FactionStateRow K))}
      (written : db.writeFactionStates now outcome = some db')
  | systems {outcome : List (SystemRow K) × List (Change (SystemRow K))}
      (written : db.writeSystems now outcome = some db')
  | systemFactions {outcome : List SystemFactionRow × List (Change SystemFactionRow)}
      (written : db.writeSystemFactions now outcome = some db')
  | factionConflicts {outcome : List (FactionConflictRow K) × List (Change (FactionConflictRow K))}
      (written : db.writeFactionConflicts now outcome = some db')
  | silent (systems : db'.systems = db.systems) (systemFactions : db'.systemFactions = db.systemFactions)
      (factionStates : db'.factionStates = db.factionStates)
      (threats : db'.systemFactionControlThreats = db.systemFactionControlThreats)
      (eventOutbox : db'.eventOutbox = db.eventOutbox)

/-- The statements of a transaction that began at the given time. -/
abbrev Statements (now : Timestamp) : Db P → Db P → Prop :=
  Relation.ReflTransGen (StatementStep now)

/-- What every statement keeps holds after a series of them. -/
theorem Statements.invariant {now : Timestamp} {inv : Db P → Prop} {db db' : Db P}
    (statements : Statements now db db') (base : inv db)
    (kept : ∀ db db', inv db → StatementStep now db db' → inv db') : inv db' := by
  induction statements with
  | refl => exact base
  | tail _ step ih => exact kept _ _ ih step

theorem Statements.appends {now : Timestamp} {db db' : Db P}
    (statements : Statements now db db') : Appends now db db' := by
  refine statements.invariant (Appends.of_eq rfl) fun middle after grown step => grown.trans ?_
  cases step with
  | factionStates written => exact appends_writeFactionStates written
  | systems written => exact appends_writeSystems written
  | systemFactions written => exact appends_writeSystemFactions written
  | factionConflicts written => exact appends_writeFactionConflicts written
  | silent _ _ _ _ eventOutbox => exact Appends.of_eq eventOutbox

end Db

/-! ## The worker -/

section Worker

open Db (StatementStep Statements)

variable [Field K] [LinearOrder K] {env : TxEnv} {db db' : Db P}

theorem statements_upsertSystem {data : SystemData K} {system : SystemRow K}
    (done : upsertSystem env data db = .ok (db', system)) : Statements env.now db db' := by
  simp only [upsertSystem, bind_eq_ok, orFail_eq_ok, pure_eq_ok] at done
  obtain ⟨validated, -, outcome, -, after, written, returned, -, same⟩ := done
  cases same
  exact .single (.systems written)

theorem statements_upsertSystemFactions {systemId : Uuid} {factionIds : List Uuid}
    (done : upsertSystemFactions env systemId factionIds db = .ok db') :
    Statements env.now db db' := by
  obtain ⟨middle, inserted, deleted⟩ := bind_eq_ok.mp done
  exact .tail (.single (.systemFactions (orFail_eq_ok.mp inserted)))
    (.systemFactions (orFail_eq_ok.mp deleted))

theorem statements_syncSystemControllingFaction {systemId : Uuid} {factionId : JsLookup Uuid}
    (done : syncSystemControllingFaction env systemId factionId db = .ok db') :
    Statements env.now db db' := by
  cases factionId with
  | value id => exact .single (.systems (orFail_eq_ok.mp done))
  | inherited => exact absurd done throw_ne_ok
  | null =>
      obtain rfl := pure_eq_ok.mp done
      exact .refl
  | undefined =>
      obtain rfl := pure_eq_ok.mp done
      exact .refl

theorem statements_upsertFactionStates {systemId : Uuid} {factions : List (FactionElement K)}
    {factionIdMap : OrderedMap String Uuid}
    (done : upsertFactionStates env systemId factions factionIdMap db = .ok db') :
    Statements env.now db db' := by
  simp only [upsertFactionStates, bind_eq_ok, orFail_eq_ok] at done
  obtain ⟨proposed, -, outcome, -, written⟩ := done
  exact .single (.factionStates written)

theorem statements_upsertFactionConflicts {systemId : Uuid} {conflicts : List (Conflict K)}
    (done : upsertFactionConflicts env systemId conflicts db = .ok db') :
    Statements env.now db db' := by
  unfold upsertFactionConflicts at done
  simp only at done
  split at done
  · exact .single (.factionConflicts (orFail_eq_ok.mp done))
  · simp only [bind_eq_ok, orFail_eq_ok] at done
    obtain ⟨proposed, -, outcome, -, middle, inserted, deleted⟩ := done
    exact .tail (.single (.factionConflicts inserted)) (.factionConflicts deleted)

theorem statements_processFactionsData {message : SystemMessage K} {systemId : Uuid}
    (done : processFactionsData env message systemId db = .ok db') :
    Statements env.now db db' := by
  obtain ⟨-, rfl⟩ | ⟨-, stored, factions, present, cleaned, synced, states, upserted, presence,
    cleanup, sync, state, conflicts⟩ := of_processFactionsData done
  · exact .refl
  · have frame := frame_upsertFactions upserted
    have first : Statements env.now db stored := .single (.silent (by rw [frame]) (by rw [frame])
      (by rw [frame]) (by rw [frame]) (by rw [frame]))
    have second : Statements env.now present cleaned :=
      .single (.factionStates (orFail_eq_ok.mp cleanup))
    exact ((((first.trans (statements_upsertSystemFactions presence)).trans second).trans
      (statements_syncSystemControllingFaction sync)).trans
      (statements_upsertFactionStates state)).trans (statements_upsertFactionConflicts conflicts)

theorem OnlyStationAndFaction.statements (only : OnlyStationAndFaction db db') (now : Timestamp) :
    Statements now db db' :=
  .single (.silent (by rw [only.frame]) (by rw [only.frame]) (by rw [only.frame])
    (by rw [only.frame]) (by rw [only.frame]))

/-- **A transaction of the worker is a series of statements.** -/
theorem statements_processMessage {message : JournalMessage K}
    (done : processMessage env message db = .ok db') : Statements env.now db db' := by
  cases processed_of_processMessage done with
  | full message done =>
      obtain ⟨-, rfl⟩ | ⟨-, afterSystem, system, afterPowers, afterFactions, upserted, powers,
        factions, station⟩ := of_processMessage done
      · exact .refl
      · have frame := frame_processPowerplayData powers
        have second : Statements env.now afterSystem afterPowers :=
          .single (.silent (by rw [frame]) (by rw [frame]) (by rw [frame]) (by rw [frame])
            (by rw [frame]))
        exact (((statements_upsertSystem upserted).trans second).trans
          (statements_processFactionsData factions)).trans
          ((onlyStationAndFaction_upsertStationOf station).statements env.now)
  | docked message afterSystem system upserted station =>
      exact (statements_upsertSystem upserted).trans
        ((onlyStationAndFaction_upsertStationFromDocked station).statements env.now)
  | unused message dropped same =>
      obtain rfl := same
      exact .refl

/-- **A transaction of the worker appends to the outbox, at its start time.** -/
theorem appends_processMessage {message : JournalMessage K}
    (done : processMessage env message db = .ok db') : Db.Appends env.now db db' :=
  (statements_processMessage done).appends

/-- What every statement keeps holds of the databases that worker transactions can leave. -/
theorem WorkerReachable.invariant {inv : Db P → Prop} {db : Db P} (reachable : WorkerReachable db)
    (base : inv Db.empty)
    (kept : ∀ now db db', inv db → StatementStep now db db' → inv db') : inv db :=
  reachable.of_processed base fun env _ _ _ holds processed =>
    (statements_processMessage processed).invariant holds (kept env.now)

end Worker

end EliteHubVault
