import EliteHubVault.Platform.Ascii
import EliteHubVault.Lifecycle.Subscriber

/-!
# The events of conflicts rebuild the rows

A run executes statements on `factionConflicts` that leave the system, the faction and the
opponent of a row as they are. The constraint of the table admits two rows with a null
opponent; a run that respects uniqueness has none. The last lifecycle of a type of conflict is
`pending` or `active` exactly when the row has that type and that status, whatever rows were
concluded, deleted and inserted again before (`FollowsConflict`).
-/

set_option autoImplicit false

namespace EliteHubVault

open Library

variable {K : Type}

/-! ## What the last lifecycle says of a row -/

/-- The row has this type and this status. -/
def IsConflict (type : FactionConflictType) (status : FactionConflictStatus)
    (row : Option (FactionConflictRow K)) : Prop :=
  ∃ conflict, row = some conflict ∧ conflict.type = type ∧ conflict.status = status

/-- The last lifecycle is the one of the row, if the row has this type. -/
@[mk_iff]
structure FollowsConflict (type : FactionConflictType) (told : List FactionStateLifecycle)
    (row : Option (FactionConflictRow K)) : Prop where
  pending : told.getLast? = some .pending ↔ IsConflict type .pending row
  active : told.getLast? = some .active ↔ IsConflict type .active row
  ended : (told.getLast? = none ∨ told.getLast? = some .ended) ↔
    ¬ IsConflict type .pending row ∧ ¬ IsConflict type .active row

@[simp] theorem isConflict_none (type : FactionConflictType) (status : FactionConflictStatus) :
    ¬ IsConflict type status (none : Option (FactionConflictRow K)) := by
  simp [IsConflict]

@[simp] theorem isConflict_some (type : FactionConflictType) (status : FactionConflictStatus)
    (row : FactionConflictRow K) :
    IsConflict type status (some row) ↔ row.type = type ∧ row.status = status := by
  simp [IsConflict]

/-! ## One change of the row -/

/-- The lifecycle that a status is told as. -/
def FactionConflictStatus.told : FactionConflictStatus → Option FactionStateLifecycle
  | .pending => some .pending
  | .active => some .active
  | .concluded => none

/-- The lifecycle of the row, if it has this type. -/
def lifecycleAs (type : FactionConflictType) (row : Option (FactionConflictRow K)) :
    Option FactionStateLifecycle :=
  row.bind fun conflict => if conflict.type = type then conflict.status.told else none

@[simp] theorem lifecycleAs_none (type : FactionConflictType) :
    lifecycleAs type (none : Option (FactionConflictRow K)) = none := rfl

@[simp] theorem lifecycleAs_some (type : FactionConflictType) (row : FactionConflictRow K) :
    lifecycleAs type (some row) = if row.type = type then row.status.told else none := rfl

/-- What a subscriber of a type of conflict is told when the row changes. -/
def conflictSignals (old new : Option FactionStateLifecycle) : List FactionStateLifecycle :=
  if old = new then [] else (if old.isSome then [.ended] else []) ++ new.toList

theorem watchConflict_change {systemId factionId : Uuid} {opponentFactionId : Option Uuid}
    {change : Change (FactionConflictRow K)}
    (about : ∀ row ∈ change.versions, row.key = (systemId, factionId, opponentFactionId))
    (type : FactionConflictType) :
    (enqueueFactionConflictChangedEvents change).filterMap
        (watchConflict systemId factionId opponentFactionId type) =
      conflictSignals (lifecycleAs type change.old?) (lifecycleAs type change.new?) := by
  have ended : ∀ row : FactionConflictRow K, _ := fun row =>
    watchConflict_conflictEvent systemId factionId opponentFactionId type row .ended
  have pending : ∀ row : FactionConflictRow K, _ := fun row =>
    watchConflict_conflictEvent systemId factionId opponentFactionId type row .pending
  have active : ∀ row : FactionConflictRow K, _ := fun row =>
    watchConflict_conflictEvent systemId factionId opponentFactionId type row .active
  simp only [FactionStateLifecycle.label] at ended pending active
  cases change with
  | insert new =>
      have here := about new (by simp [Change.versions])
      by_cases same : new.type = type <;> cases status : new.status <;>
        simp [enqueueFactionConflictChangedEvents, conflictSignals, Change.old?, Change.new?, here,
          same, status, FactionConflictStatus.lifecycle, FactionConflictStatus.told, pending, active]
  | delete old =>
      have here := about old (by simp [Change.versions])
      by_cases same : old.type = type <;> cases status : old.status <;>
        simp [enqueueFactionConflictChangedEvents, conflictSignals, Change.old?, Change.new?, here,
          same, status, FactionConflictStatus.lifecycle, FactionConflictStatus.told, ended]
  | update old new =>
      have was := about old (by simp [Change.versions])
      have here := about new (by simp [Change.versions])
      have opponent : old.opponentFactionId = new.opponentFactionId :=
        congrArg (·.2.2) (was.trans here.symm)
      by_cases before : old.type = type <;> by_cases after : new.type = type <;>
        cases status : old.status <;> cases status' : new.status <;>
        simp [enqueueFactionConflictChangedEvents, conflictSignals, Change.old?, Change.new?, was,
          here, before, after, status, status', opponent, FactionConflictStatus.lifecycle,
          FactionConflictStatus.told, ended, pending, active, @eq_comm _ type new.type]

theorem watchConflict_elsewhere {systemId factionId : Uuid} {opponentFactionId : Option Uuid}
    {change : Change (FactionConflictRow K)}
    (other : ∀ row ∈ change.versions, row.key ≠ (systemId, factionId, opponentFactionId))
    (type : FactionConflictType) :
    (enqueueFactionConflictChangedEvents change).filterMap
      (watchConflict systemId factionId opponentFactionId type) = [] := by
  refine List.filterMap_eq_nil_iff.mpr fun event member => ?_
  obtain ⟨row, mentioned, lifecycle, rfl⟩ := of_mem_enqueueFactionConflictChangedEvents member
  rw [watchConflict_conflictEvent, if_neg fun here => other row mentioned here.1]

/-! ## Every change -/

/-- The last lifecycle after the signals of a change. -/
theorem getLast?_conflictSignals (told : List FactionStateLifecycle)
    (old new : Option FactionStateLifecycle) :
    (told ++ conflictSignals old new).getLast? =
      if old = new then told.getLast? else if new.isSome then new else some .ended := by
  unfold conflictSignals
  by_cases same : old = new
  · simp [same]
  · rcases old with - | old <;> rcases new with - | new <;> simp_all [List.getLast?_append]

/-- The last lifecycle is the one of the row, or it is over. -/
theorem followsConflict_iff_lifecycleAs {type : FactionConflictType}
    {told : List FactionStateLifecycle} {row : Option (FactionConflictRow K)} :
    FollowsConflict type told row ↔
      told.getLast? = lifecycleAs type row ∨
        lifecycleAs type row = none ∧ told.getLast? = some .ended := by
  rw [followsConflict_iff]
  cases row with
  | none => rcases told.getLast? with - | - | - | - <;> simp
  | some row =>
      by_cases same : row.type = type <;> cases status : row.status <;>
        rcases told.getLast? with - | - | - | - <;>
        simp [same, status, FactionConflictStatus.told]

theorem announces_followsConflict (systemId factionId : Uuid) (opponentFactionId : Option Uuid)
    (type : FactionConflictType) :
    Announces (FactionConflictRow.key (K := K)) (systemId, factionId, opponentFactionId)
      enqueueFactionConflictChangedEvents
      (watchConflict systemId factionId opponentFactionId type) (fun _ => True)
      (FollowsConflict type) where
  elsewhere change other := watchConflict_elsewhere other type
  step change told about known := by
    rw [watchConflict_change fun row mentioned => (about row mentioned).1]
    rw [followsConflict_iff_lifecycleAs] at known ⊢
    rw [getLast?_conflictSignals]
    split
    · rename_i same
      rwa [← same]
    · cases now : lifecycleAs type change.new? with
      | none => exact .inr ⟨rfl, rfl⟩
      | some lifecycle => exact .inl rfl

/-! ## Every run -/

/-- A statement on `factionConflicts`. The proposed rows of an upsert have opponents: the
conflict target never matches a null. -/
inductive ConflictStatement (K : Type) where
  | insertConflicts (proposed : List (FactionConflictRow K))
  | updateConflicts (where_ : FactionConflictRow K → Bool)
      (set : FactionConflictRow K → FactionConflictRow K)
  | deleteConflicts (where_ : FactionConflictRow K → Bool)
  | upsertConflicts (proposed : List (FactionConflictRow K))
      (opposed : ∀ row ∈ proposed, row.opponentFactionId.isSome)
      (set : FactionConflictRow K → FactionConflictRow K → FactionConflictRow K)
      (setWhere : FactionConflictRow K → FactionConflictRow K → Bool)

namespace Db

variable {P : Platform K}

/-- Execute a statement of a transaction that began at the given time. -/
def runConflictStatement (db : Db P) : Timestamp × ConflictStatement K → Option (Db P)
  | (now, .insertConflicts proposed) =>
      db.writeFactionConflicts now (insertRows proposed db.factionConflicts.rows)
  | (now, .updateConflicts where_ set) =>
      db.writeFactionConflicts now (updateRows where_ set db.factionConflicts.rows)
  | (now, .deleteConflicts where_) =>
      db.writeFactionConflicts now (deleteRows where_ db.factionConflicts.rows)
  | (now, .upsertConflicts proposed _ set setWhere) =>
      (upsertRows FactionConflictRow.key set setWhere proposed db.factionConflicts.rows).bind
        fun outcome => db.writeFactionConflicts now outcome

/-- The statement leaves the system, the faction and the opponent of the rows it updates. -/
def KeepsConflictKeys (db : Db P) : ConflictStatement K → Prop
  | .updateConflicts where_ set =>
      ∀ row ∈ db.factionConflicts.rows, where_ row = true → (set row).key = row.key
  | .upsertConflicts proposed _ set _ =>
      ∀ wanted ∈ proposed, ∀ row ∈ db.factionConflicts.rows, (set row wanted).key = row.key
  | _ => True

/-- No two rows are of one system, one faction and one opponent, be it null. -/
def UniqueConflicts (db : Db P) : Prop :=
  (db.factionConflicts.rows.map FactionConflictRow.key).Nodup

/-- The statement respects uniqueness. -/
def KeepsUnique (db : Db P) (statement : Timestamp × ConflictStatement K) : Prop :=
  ∀ db' ∈ db.runConflictStatement statement, db'.UniqueConflicts

/-- The row of a faction and an opponent in a system. -/
def conflictRow (systemId factionId : Uuid) (opponentFactionId : Option Uuid) (db : Db P) :
    Option (FactionConflictRow K) :=
  rowAt FactionConflictRow.key db.factionConflicts.rows (systemId, factionId, opponentFactionId)

theorem editsAt_of_runConflictStatement {db db' : Db P} {now : Timestamp}
    {statement : ConflictStatement K} (unique : db.UniqueConflicts)
    (unique' : db'.UniqueConflicts) (keeps : db.KeepsConflictKeys statement)
    (ran : db.runConflictStatement (now, statement) = some db') (k : Uuid × Uuid × Option Uuid) :
    ∃ outcome, db.writeFactionConflicts now outcome = some db' ∧
      db'.factionConflicts.rows = outcome.1 ∧
      EditsAt FactionConflictRow.key db.factionConflicts.rows outcome k := by
  have left : ∀ {outcome}, db.writeFactionConflicts now outcome = some db' →
      db'.factionConflicts.rows = outcome.1 := by
    intro outcome written
    obtain ⟨⟨table, changes⟩, write, rfl⟩ := Option.map_eq_some_iff.mp written
    obtain rfl := Table.write_eq_some write
    rfl
  have distinct : ∀ {outcome}, db.writeFactionConflicts now outcome = some db' →
      (outcome.1.map FactionConflictRow.key).Nodup := by
    intro outcome written
    rw [← left written]
    exact unique'
  cases statement with
  | insertConflicts proposed => exact ⟨_, ran, left ran, editsAt_insertRows (distinct ran) k⟩
  | updateConflicts where_ set => exact ⟨_, ran, left ran, editsAt_updateRows unique keeps k⟩
  | deleteConflicts where_ => exact ⟨_, ran, left ran, editsAt_deleteRows unique k⟩
  | upsertConflicts proposed opposed set setWhere =>
      obtain ⟨outcome, done, written⟩ := Option.bind_eq_some_iff.mp ran
      exact ⟨outcome, written, left written, editsAt_upsertRows keeps (distinct written) done k⟩

/-- **The events of conflicts rebuild the rows.** After every statement of a run that respects
uniqueness the last lifecycle of each type of conflict is the one of the row, and an update
that changes neither type nor status emits nothing. -/
theorem conflict_events_rebuild_rows {start db : Db P}
    (conflicts : start.factionConflicts = .empty) (events : start.eventOutbox = [])
    (run : Reaches runConflictStatement
      (fun db step => db.KeepsConflictKeys step.2 ∧ db.KeepsUnique step) start db) :
    (∀ systemId factionId opponentFactionId type, FollowsConflict type
      (db.signals (watchConflict systemId factionId opponentFactionId type))
      (db.conflictRow systemId factionId opponentFactionId)) ∧
    ∀ old new : FactionConflictRow K, new.key = old.key → new.type = old.type →
      new.status = old.status → enqueueFactionConflictChangedEvents (.update old new) = [] := by
  refine ⟨fun systemId factionId opponentFactionId type => ?_, fun old new key type status =>
    enqueueFactionConflictChangedEvents_of_same type.symm (congrArg (·.2.2) key).symm
      status.symm⟩
  have both : db.UniqueConflicts ∧ FollowsConflict type
      (db.signals (watchConflict systemId factionId opponentFactionId type))
      (db.conflictRow systemId factionId opponentFactionId) := by
    induction run with
    | start =>
        rw [UniqueConflicts, conflictRow, conflicts, signals, events]
        exact ⟨List.nodup_nil, followsConflict_iff_lifecycleAs.mpr (.inl rfl)⟩
    | @step db db' step _ keeps ran ih =>
        have unique' := keeps.2 db' ran
        obtain ⟨outcome, written, rows, edits⟩ := editsAt_of_runConflictStatement ih.1 unique'
          keeps.1 ran (systemId, factionId, opponentFactionId)
        refine ⟨unique', ?_⟩
        have told := ih.2
        rw [signals_writeFactionConflicts written]
        unfold conflictRow at told ⊢
        rw [rows]
        exact (announces_followsConflict systemId factionId opponentFactionId type).statement edits
          (fun _ _ => trivial) (fun _ _ => trivial) told
  exact both.2

end Db

/-! ## A run -/

instance {P : Platform K} (db : Db P) : DecidablePred db.KeepsConflictKeys
  | .insertConflicts _ => inferInstanceAs (Decidable True)
  | .updateConflicts _ _ => inferInstanceAs (Decidable (∀ row ∈ _, _))
  | .deleteConflicts _ => inferInstanceAs (Decidable True)
  | .upsertConflicts _ _ _ _ => inferInstanceAs (Decidable (∀ wanted ∈ _, ∀ row ∈ _, _))

instance {P : Platform K} (db : Db P) : DecidablePred db.KeepsUnique := fun statement =>
  inferInstanceAs (Decidable (∀ db' ∈ db.runConflictStatement statement,
    (db'.factionConflicts.rows.map FactionConflictRow.key).Nodup))

/-- A conflict of faction 10 with faction 11 in system 1. -/
def sampleConflict (id : ℕ) (type : FactionConflictType) (status : FactionConflictStatus) :
    FactionConflictRow ℚ where
  id := .ofNat id
  systemId := .ofNat 1
  factionId := .ofNat 10
  opponentFactionId := some (.ofNat 11)
  type := type
  status := status
  factionWonDays := 0
  opponentWonDays := 0
  factionStake := none
  factionStakeStationId := none
  opponentStake := none
  opponentStakeStationId := none
  createdAt := 0
  updatedAt := 0

/-- A war begins, turns into an election that is concluded, and is fought again. -/
def sampleConflictRun : List (Timestamp × ConflictStatement ℚ) :=
  [(1, .insertConflicts [sampleConflict 30 .war .pending]),
    (2, .updateConflicts (fun _ => true) fun row => { row with status := .active }),
    (3, .updateConflicts (fun _ => true) fun row => { row with type := .election }),
    (4, .updateConflicts (fun _ => true) fun row => { row with status := .concluded }),
    (5, .deleteConflicts fun _ => true),
    (6, .upsertConflicts [sampleConflict 31 .war .active] (by simp [sampleConflict])
      (fun row _ => row) fun _ _ => true)]

theorem conflict_events_rebuild_rows_sample : ∃ db : Db asciiPlatform,
    db.signals (watchConflict (.ofNat 1) (.ofNat 10) (some (.ofNat 11)) .war) =
        [.pending, .ended, .active, .ended, .active] ∧
      FollowsConflict .war
        (db.signals (watchConflict (.ofNat 1) (.ofNat 10) (some (.ofNat 11)) .war))
        (db.conflictRow (.ofNat 1) (.ofNat 10) (some (.ofNat 11))) := by
  obtain ⟨db, run, told⟩ := exists_reachable_of_execute
    (admitted Db.runConflictStatement fun db step =>
      db.KeepsConflictKeys step.2 ∧ db.KeepsUnique step)
    (Db.empty : Db asciiPlatform) sampleConflictRun
    (fun db => db.signals (watchConflict (.ofNat 1) (.ofNat 10) (some (.ofNat 11)) .war) =
      [.pending, .ended, .active, .ended, .active]) (by decide +kernel)
  exact ⟨db, by simpa using told,
    (Db.conflict_events_rebuild_rows rfl rfl run.of_admitted).1 _ _ _ _⟩

end EliteHubVault
