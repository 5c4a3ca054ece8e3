import EliteHubVault.ControlThreat.Recomputation
import EliteHubVault.Lifecycle.Subscriber

/-!
# The events of states rebuild the rows

A run executes statements on `factionStates` that leave the faction and the system of a row
as they are. A subscriber of a state keeps the last lifecycle it was told. That lifecycle is
`ended`, or there is none, exactly when the row lists the state neither as pending nor as
active (`EndsRightly`). When no version of the row lists a state twice, as pending and as
active, the last lifecycle says which of the two lists has it and every event changes it
(`FollowsLists`).
-/

set_option autoImplicit false

namespace EliteHubVault

open Library

variable {K : Type}

/-! ## What the last lifecycle says of a row -/

/-- The pending states of the row of a faction in a system; without a row there are none. -/
def pendingOf (row : Option (FactionStateRow K)) : List FactionState :=
  row.elim [] FactionStateRow.pendingStates

/-- The active states of the row. -/
def activeOf (row : Option (FactionStateRow K)) : List FactionState :=
  row.elim [] FactionStateRow.activeStates

/-- The state was told to have ended, or was never told, exactly when the row does not list it. -/
def EndsRightly (state : FactionState) (told : List FactionStateLifecycle)
    (row : Option (FactionStateRow K)) : Prop :=
  (told.getLast? = none ∨ told.getLast? = some .ended) ↔
    state ∉ pendingOf row ∧ state ∉ activeOf row

/-- The last lifecycle says in which list the state is, and each differs from the one before. -/
structure FollowsLists (state : FactionState) (told : List FactionStateLifecycle)
    (row : Option (FactionStateRow K)) : Prop where
  pending : told.getLast? = some .pending ↔ state ∈ pendingOf row
  active : told.getLast? = some .active ↔ state ∈ activeOf row
  changes : told.IsChain (· ≠ ·)

/-- No state is pending and active. -/
def DisjointLists (row : FactionStateRow K) : Prop :=
  ∀ state ∈ row.pendingStates, state ∉ row.activeStates

/-! ## One change of the row -/

theorem enqueueFactionStateChangedEvents_eq {systemId factionId : Uuid}
    {change : Change (FactionStateRow K)}
    (about : ∀ row ∈ change.versions, row.key = (factionId, systemId)) :
    enqueueFactionStateChangedEvents change =
      emitFactionStateLifecycleEvents systemId factionId (pendingOf change.old?)
        (activeOf change.old?) (pendingOf change.new?) (activeOf change.new?) := by
  cases change with
  | insert new =>
      obtain ⟨rfl, rfl⟩ : new.factionId = factionId ∧ new.systemId = systemId :=
        Prod.mk.inj (about new (by simp [Change.versions]))
      rfl
  | update old new =>
      obtain ⟨rfl, rfl⟩ : new.factionId = factionId ∧ new.systemId = systemId :=
        Prod.mk.inj (about new (by simp [Change.versions]))
      rfl
  | delete old =>
      obtain ⟨rfl, rfl⟩ : old.factionId = factionId ∧ old.systemId = systemId :=
        Prod.mk.inj (about old (by simp [Change.versions]))
      rfl

/-- What a subscriber is told of the states that one query yields. -/
theorem watchState_map (systemId factionId : Uuid) (state : FactionState)
    (lifecycle : FactionStateLifecycle) (values excluded : List FactionState) :
    ((sqlExcept values excluded).map
        (factionStateEvent (K := K) systemId factionId lifecycle.label)).filterMap
        (watchState systemId factionId state) =
      if state ∈ values ∧ state ∉ excluded then [lifecycle] else [] := by
  rw [List.filterMap_map]
  simp only [Function.comp_def, watchState_factionStateEvent, true_and]
  rw [sqlExcept, filterMap_of_nodup (nodup_distinct _)]
  simp

/-- **What a subscriber is told of one change of the row.** -/
theorem watchState_change {systemId factionId : Uuid} {change : Change (FactionStateRow K)}
    (about : ∀ row ∈ change.versions, row.key = (factionId, systemId)) (state : FactionState) :
    (enqueueFactionStateChangedEvents change).filterMap (watchState systemId factionId state) =
      (if state ∈ pendingOf change.new? ∧ state ∉ pendingOf change.old? then [.pending] else []) ++
      (if state ∈ activeOf change.new? ∧ state ∉ activeOf change.old? then [.active] else []) ++
      (if (state ∈ pendingOf change.old? ∨ state ∈ activeOf change.old?) ∧
          ¬ (state ∈ pendingOf change.new? ∨ state ∈ activeOf change.new?) then [.ended]
        else []) := by
  rw [enqueueFactionStateChangedEvents_eq about, emitFactionStateLifecycleEvents,
    List.filterMap_append, List.filterMap_append]
  have pending := watchState_map (K := K) systemId factionId state .pending
    (pendingOf change.new?) (pendingOf change.old?)
  have active := watchState_map (K := K) systemId factionId state .active
    (activeOf change.new?) (activeOf change.old?)
  have ended := watchState_map (K := K) systemId factionId state .ended
    (sqlUnion (pendingOf change.old?) (activeOf change.old?))
    (sqlUnion (pendingOf change.new?) (activeOf change.new?))
  simp only [mem_sqlUnion] at ended
  exact congrArg₂ _ (congrArg₂ _ pending active) ended

theorem of_mem_emitFactionStateLifecycleEvents {systemId factionId : Uuid}
    {oldPending oldActive newPending newActive : List FactionState} {event : OutboxInsert K}
    (member : event ∈ emitFactionStateLifecycleEvents systemId factionId oldPending oldActive
      newPending newActive) :
    ∃ (lifecycle : FactionStateLifecycle) (state : FactionState),
      event = factionStateEvent systemId factionId lifecycle.label state := by
  simp only [emitFactionStateLifecycleEvents, List.mem_append, List.mem_map] at member
  rcases member with (⟨state, -, rfl⟩ | ⟨state, -, rfl⟩) | ⟨state, -, rfl⟩
  · exact ⟨.pending, state, rfl⟩
  · exact ⟨.active, state, rfl⟩
  · exact ⟨.ended, state, rfl⟩

theorem watchState_elsewhere {systemId factionId : Uuid} {change : Change (FactionStateRow K)}
    (other : ∀ row ∈ change.versions, row.key ≠ (factionId, systemId)) (state : FactionState) :
    (enqueueFactionStateChangedEvents change).filterMap (watchState systemId factionId state) =
      [] := by
  refine List.filterMap_eq_nil_iff.mpr fun event member => ?_
  obtain ⟨row, mentioned, lifecycle, value, rfl⟩ : ∃ row ∈ change.versions,
      ∃ (lifecycle : FactionStateLifecycle) (value : FactionState),
        event = factionStateEvent row.systemId row.factionId lifecycle.label value := by
    cases change with
    | insert new =>
        exact ⟨new, by simp [Change.versions], of_mem_emitFactionStateLifecycleEvents member⟩
    | update old new =>
        exact ⟨new, by simp [Change.versions], of_mem_emitFactionStateLifecycleEvents member⟩
    | delete old =>
        exact ⟨old, by simp [Change.versions], of_mem_emitFactionStateLifecycleEvents member⟩
  rw [watchState_factionStateEvent, if_neg]
  rintro ⟨system, faction, -⟩
  exact other row mentioned (Prod.ext faction system)

/-! ## Every change -/

theorem announces_endsRightly (systemId factionId : Uuid) (state : FactionState) :
    Announces (FactionStateRow.key (K := K)) (factionId, systemId) enqueueFactionStateChangedEvents
      (watchState systemId factionId state) (fun _ => True) (EndsRightly state) where
  elsewhere change other := watchState_elsewhere other state
  step change told about known := by
    rw [watchState_change fun row mentioned => (about row mentioned).1]
    simp only [EndsRightly] at known ⊢
    by_cases wasPending : state ∈ pendingOf change.old? <;>
      by_cases wasActive : state ∈ activeOf change.old? <;>
      by_cases isPending : state ∈ pendingOf change.new? <;>
      by_cases isActive : state ∈ activeOf change.new? <;>
      simp_all [List.getLast?_append]

theorem announces_followsLists (systemId factionId : Uuid) (state : FactionState) :
    Announces (FactionStateRow.key (K := K)) (factionId, systemId) enqueueFactionStateChangedEvents
      (watchState systemId factionId state) DisjointLists (FollowsLists state) where
  elsewhere change other := watchState_elsewhere other state
  step change told about known := by
    rw [watchState_change fun row mentioned => (about row mentioned).1]
    have disjoint : ∀ row : Option (FactionStateRow K), (∀ version, row = some version →
        version ∈ change.versions) → state ∈ pendingOf row → state ∉ activeOf row := by
      intro row mentioned listed
      cases row with
      | none => simp [pendingOf] at listed
      | some version => exact (about version (mentioned version rfl)).2 state listed
    have before := disjoint change.old? fun version here => Change.mem_versions.mpr (.inl here)
    have after := disjoint change.new? fun version here => Change.mem_versions.mpr (.inr here)
    obtain ⟨pending, active, changes⟩ := known
    -- At most one of the three events is sent, and the last lifecycle is another one.
    by_cases wasPending : state ∈ pendingOf change.old? <;>
      by_cases wasActive : state ∈ activeOf change.old? <;>
      by_cases isPending : state ∈ pendingOf change.new? <;>
      by_cases isActive : state ∈ activeOf change.new? <;>
      constructor <;> simp_all [List.getLast?_append, List.isChain_append]
    · rintro lifecycle last rfl
      exact pending last
    · rintro lifecycle last rfl
      exact active last

/-! ## Every run -/

namespace Db

variable {P : Platform K}

/-- The row of a faction in a system. -/
def stateRow (factionId systemId : Uuid) (db : Db P) : Option (FactionStateRow K) :=
  rowAt FactionStateRow.key db.factionStates.rows (factionId, systemId)

theorem stateRow_eq_some {db : Db P} {factionId systemId : Uuid} {row : FactionStateRow K} :
    db.stateRow factionId systemId = some row ↔
      row ∈ db.factionStates.rows ∧ row.key = (factionId, systemId) :=
  rowAt_eq_some (distinctFactionStates db)

/-- The statement leaves the faction and the system of the rows it updates. -/
def KeepsKeys (db : Db P) : ThreatStatement K → Prop
  | .updateStates where_ set =>
      ∀ row ∈ db.factionStates.rows, where_ row = true → (set row).key = row.key
  | .upsertStates _ proposed set _ =>
      ∀ wanted ∈ proposed, ∀ row ∈ db.factionStates.rows, (set row wanted).key = row.key
  | _ => True

variable [Field K] [LinearOrder K]

/-- The statement leaves no row of this faction in this system that lists a state as pending
and as active. -/
def KeepsDisjoint (factionId systemId : Uuid) (db : Db P)
    (statement : Timestamp × ThreatStatement K) : Prop :=
  ∀ db' ∈ db.runStatement statement, ∀ row ∈ db'.factionStates.rows,
    row.key = (factionId, systemId) → DisjointLists row

/-- A statement that keeps keys changes the row of a faction in a system at most once. -/
theorem editsAt_of_runStatement {db db' : Db P} {now : Timestamp} {statement : ThreatStatement K}
    (keeps : db.KeepsKeys statement) (ran : db.runStatement (now, statement) = some db')
    (k : Uuid × Uuid) :
    (∃ outcome, db.writeFactionStates now outcome = some db' ∧
      db'.factionStates.rows = outcome.1 ∧
      EditsAt FactionStateRow.key db.factionStates.rows outcome k) ∨
    ∃ outcome, db.writeSystems now outcome = some db' := by
  have left : ∀ {outcome}, db.writeFactionStates now outcome = some db' →
      db'.factionStates.rows = outcome.1 := by
    intro outcome written
    obtain ⟨⟨table, changes⟩, write, rfl⟩ := Option.map_eq_some_iff.mp written
    obtain rfl := Table.write_eq_some write
    rw [(refreshed_afterFactionStates now changes { db with factionStates := table }).factionStates]
  have distinct : ∀ {outcome}, db.writeFactionStates now outcome = some db' →
      (outcome.1.map FactionStateRow.key).Nodup := by
    intro outcome written
    rw [← left written]
    exact distinctFactionStates db'
  cases statement with
  | insertStates proposed => exact .inl ⟨_, ran, left ran, editsAt_insertRows (distinct ran) k⟩
  | updateStates where_ set =>
      exact .inl ⟨_, ran, left ran, editsAt_updateRows (distinctFactionStates db) keeps k⟩
  | deleteStates where_ =>
      exact .inl ⟨_, ran, left ran, editsAt_deleteRows (distinctFactionStates db) k⟩
  | upsertStates target proposed set setWhere =>
      obtain ⟨outcome, done, written⟩ := Option.bind_eq_some_iff.mp ran
      exact .inl ⟨outcome, written, left written,
        editsAt_upsertRows keeps (distinct written) done k⟩
  | updateControllers where_ controller => exact .inr ⟨_, ran⟩

/-- What every change keeps, every statement keeps. -/
theorem tells_of_runStatement {db db' : Db P} {now : Timestamp} {statement : ThreatStatement K}
    {systemId factionId : Uuid} {state : FactionState} {valid : FactionStateRow K → Prop}
    {tells : List FactionStateLifecycle → Option (FactionStateRow K) → Prop}
    (announces : Announces FactionStateRow.key (factionId, systemId)
      enqueueFactionStateChangedEvents (watchState systemId factionId state) valid tells)
    (keeps : db.KeepsKeys statement) (ran : db.runStatement (now, statement) = some db')
    (before : ∀ row, db.stateRow factionId systemId = some row → valid row)
    (after : ∀ row, db'.stateRow factionId systemId = some row → valid row)
    (told : tells (db.signals (watchState systemId factionId state))
      (db.stateRow factionId systemId)) :
    tells (db'.signals (watchState systemId factionId state)) (db'.stateRow factionId systemId) := by
  have threats : Ignores (K := K) (watchState systemId factionId state)
      "factionControlThreatChanged" := ignores_watchState (by decide) systemId factionId state
  have powerplay : Ignores (K := K) (watchState systemId factionId state)
      "systemPowerplayUpdated" := ignores_watchState (by decide) systemId factionId state
  obtain ⟨outcome, written, rows, edits⟩ | ⟨outcome, written⟩ :=
    editsAt_of_runStatement keeps ran (factionId, systemId)
  · rw [signals_writeFactionStates threats written]
    unfold stateRow at before after told ⊢
    rw [rows] at after ⊢
    exact announces.statement edits before after told
  · obtain ⟨⟨table, changes⟩, -, rfl⟩ := Option.map_eq_some_iff.mp written
    rw [signals_writeSystems threats powerplay written]
    have same := (refreshed_afterSystems now changes { db with systems := table }).factionStates
    rw [stateRow, same]
    exact told

/-- **The events of states rebuild the rows.** After every statement of a run a state was told
to have ended, or was never told, exactly when the row does not list it. When no version of the
row lists a state twice, the last lifecycle says in which list the state is, and every event
changes it. -/
theorem state_events_rebuild_rows {start : Db P} (states : start.factionStates = .empty)
    (events : start.eventOutbox = []) (systemId factionId : Uuid) (state : FactionState) :
    (∀ db, Reaches runStatement (fun db step => db.KeepsKeys step.2) start db →
      EndsRightly state (db.signals (watchState systemId factionId state))
        (db.stateRow factionId systemId)) ∧
    ∀ db, Reaches runStatement
        (fun db step => db.KeepsKeys step.2 ∧ db.KeepsDisjoint factionId systemId step) start db →
      FollowsLists state (db.signals (watchState systemId factionId state))
        (db.stateRow factionId systemId) := by
  have silent : start.signals (watchState systemId factionId state) = [] := by
    rw [signals, events]
    rfl
  have absent : start.stateRow factionId systemId = none := by
    rw [stateRow, states]
    rfl
  constructor
  · intro db run
    induction run with
    | start =>
        rw [silent, absent]
        simp [EndsRightly, pendingOf, activeOf]
    | step _ keeps ran ih =>
        exact tells_of_runStatement (announces_endsRightly systemId factionId state) keeps ran
          (fun _ _ => trivial) (fun _ _ => trivial) ih
  · intro db run
    have both : (∀ row, db.stateRow factionId systemId = some row → DisjointLists row) ∧
        FollowsLists state (db.signals (watchState systemId factionId state))
          (db.stateRow factionId systemId) := by
      induction run with
      | start =>
          rw [silent, absent]
          exact ⟨by simp, ⟨by simp [pendingOf], by simp [activeOf], .nil⟩⟩
      | @step _ db' _ _ keeps ran ih =>
          have after : ∀ row, db'.stateRow factionId systemId = some row →
              DisjointLists row := by
            intro row found
            obtain ⟨member, here⟩ := stateRow_eq_some.mp found
            exact keeps.2 db' ran row member here
          exact ⟨after, tells_of_runStatement (announces_followsLists systemId factionId state)
            keeps.1 ran ih.1 after ih.2⟩
    exact both.2

end Db

/-! ## A run -/

instance : DecidablePred (DisjointLists (K := K)) := fun row =>
  inferInstanceAs (Decidable (∀ state ∈ row.pendingStates, state ∉ row.activeStates))

instance {P : Platform K} (db : Db P) : DecidablePred db.KeepsKeys
  | .insertStates _ => inferInstanceAs (Decidable True)
  | .updateStates _ _ => inferInstanceAs (Decidable (∀ row ∈ _, _))
  | .deleteStates _ => inferInstanceAs (Decidable True)
  | .upsertStates _ _ _ _ => inferInstanceAs (Decidable (∀ wanted ∈ _, ∀ row ∈ _, _))
  | .updateControllers _ _ => inferInstanceAs (Decidable True)

instance [Field K] [LinearOrder K] {P : Platform K} (factionId systemId : Uuid) (db : Db P)
    (statement : Timestamp × ThreatStatement K) :
    Decidable (db.KeepsDisjoint factionId systemId statement) :=
  inferInstanceAs (Decidable (∀ db' ∈ db.runStatement statement, ∀ row ∈ db'.factionStates.rows,
    row.key = (factionId, systemId) → DisjointLists row))

/-- A war is pending twice, becomes active, ends with its row and comes back. -/
def sampleLifecycle : List (Timestamp × ThreatStatement ℚ) :=
  [(1, .insertStates [{ sampleState 20 10 1 (1 / 2) with pendingStates := [.war, .boom, .war] }]),
    (2, .updateStates (fun _ => true) fun row =>
      { row with pendingStates := [.boom], activeStates := [.war] }),
    (3, .deleteStates fun _ => true),
    (4, .upsertStates .factionAndSystem
      [{ sampleState 21 10 1 (1 / 2) with activeStates := [.war] }]
      (fun row _ => row) fun _ _ => true)]

theorem state_events_rebuild_rows_sample : ∃ db : Db asciiPlatform,
    db.signals (watchState (.ofNat 1) (.ofNat 10) .war) = [.pending, .active, .ended, .active] ∧
      FollowsLists .war (db.signals (watchState (.ofNat 1) (.ofNat 10) .war))
        (db.stateRow (.ofNat 10) (.ofNat 1)) := by
  obtain ⟨db, run, told⟩ := exists_reachable_of_execute
    (admitted Db.runStatement fun db step =>
      db.KeepsKeys step.2 ∧ db.KeepsDisjoint (.ofNat 10) (.ofNat 1) step)
    sampleDb sampleLifecycle
    (fun db => db.signals (watchState (.ofNat 1) (.ofNat 10) .war) =
      [.pending, .active, .ended, .active]) (by decide +kernel)
  exact ⟨db, by simpa using told,
    (Db.state_events_rebuild_rows rfl rfl (.ofNat 1) (.ofNat 10) .war).2 db run.of_admitted⟩

/-- An update that moves a row to another system is announced for the new system only, and
there nothing has changed: the war stays pending in the system that the row has left. -/
theorem moved_state_stays_pending : ∃ start db : Db asciiPlatform,
    start.factionStates = .empty ∧ start.eventOutbox = [] ∧
      Reachable Db.runStatement start db ∧
      ¬ EndsRightly .war (db.signals (watchState (.ofNat 1) (.ofNat 10) .war))
        (db.stateRow (.ofNat 10) (.ofNat 1)) := by
  obtain ⟨db, run, left⟩ := exists_reachable_of_execute Db.runStatement sampleDb
    [(1, .insertStates [{ sampleState 20 10 1 (1 / 2) with pendingStates := [.war] }]),
      (2, .updateStates (fun _ => true) fun row => { row with systemId := .ofNat 2 })]
    (fun db => db.signals (watchState (.ofNat 1) (.ofNat 10) .war) = [.pending] ∧
      (db.stateRow (.ofNat 10) (.ofNat 1)).isNone) (by decide +kernel)
  obtain ⟨told, gone⟩ := of_decide_eq_true left
  refine ⟨sampleDb, db, rfl, rfl, run, fun ends => ?_⟩
  rw [told, Option.isNone_iff_eq_none.mp gone] at ends
  obtain impossible | impossible := ends.mpr ⟨List.not_mem_nil, List.not_mem_nil⟩
  · cases impossible
  · cases impossible

end EliteHubVault
