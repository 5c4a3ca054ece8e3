import EliteHubVault.Platform.Ascii
import EliteHubVault.ControlThreat.Maintenance

/-!
# The threat table equals recomputation

A run executes any statements on `factionStates`, each touching any rows of any systems,
and updates of `systems.controllingFactionId`, every one with its triggers. A constraint is
checked on the rows a statement leaves; Postgres checks it row by row and so admits fewer
runs.

`ThreatsCurrent` says that each row of the threat table assesses the current controlling
faction and states of its system, and that a system without a row is not threatened. It
holds after the backfill of the migration, of empty tables, and after every statement.
-/

set_option autoImplicit false

namespace EliteHubVault

open Library

variable {K : Type}

/-! ## Statements -/

/-- The unique index that an upsert on `factionStates` names as its conflict target. -/
inductive ConflictTarget where
  | primaryKey
  | factionAndSystem

def ConflictTarget.key : ConflictTarget → FactionStateRow K → Uuid ⊕ Uuid × Uuid
  | .primaryKey, row => .inl row.id
  | .factionAndSystem, row => .inr row.key

/-- A statement on `factionStates`, or an update of `systems.controllingFactionId`. -/
inductive ThreatStatement (K : Type) where
  | insertStates (proposed : List (FactionStateRow K))
  | updateStates (where_ : FactionStateRow K → Bool) (set : FactionStateRow K → FactionStateRow K)
  | deleteStates (where_ : FactionStateRow K → Bool)
  | upsertStates (target : ConflictTarget) (proposed : List (FactionStateRow K))
      (set : FactionStateRow K → FactionStateRow K → FactionStateRow K)
      (setWhere : FactionStateRow K → FactionStateRow K → Bool)
  | updateControllers (where_ : SystemRow K → Bool) (controller : SystemRow K → Option Uuid)

/-- `SET "controllingFactionId" = controller`. -/
def SystemRow.setController (controller : SystemRow K → Option Uuid) (row : SystemRow K) :
    SystemRow K :=
  { row with controllingFactionId := controller row }

theorem SystemRow.id_setController (controller : SystemRow K → Option Uuid) (row : SystemRow K) :
    (row.setController controller).id = row.id := rfl

namespace Db

variable {P : Platform K}

/-- A system has one row for each faction. -/
theorem distinctFactions (db : Db P) (systemId : Uuid) :
    ((db.statesOf systemId).map fun row => row.factionId).Nodup := by
  refine List.pairwise_map.mpr ?_
  refine (db.factionStates.unique.filter fun row => row.systemId = systemId).imp_of_mem ?_
  intro row row' member member' apart same
  simp only [List.mem_filter, decide_eq_true_eq] at member member'
  exact apart (.inr (Prod.ext same (member.2.trans member'.2.symm)))

/-- A system id occurs once. -/
theorem distinctSystems (db : Db P) : (db.systems.rows.map fun row => row.id).Nodup :=
  List.pairwise_map.mpr (db.systems.unique.imp fun apart same => apart (.inl same))

theorem controllingFactionOf_of_mem {db : Db P} {system : SystemRow K}
    (member : system ∈ db.systems.rows) :
    db.controllingFactionOf system.id = system.controllingFactionId := by
  have found := find?_key db.distinctSystems member
  rw [controllingFactionOf, found, Option.bind_some]

variable [Field K] [LinearOrder K]

/-- Execute a statement of a transaction that began at the given time. -/
def runStatement (db : Db P) : Timestamp × ThreatStatement K → Option (Db P)
  | (now, .insertStates proposed) =>
      db.writeFactionStates now (insertRows proposed db.factionStates.rows)
  | (now, .updateStates where_ set) =>
      db.writeFactionStates now (updateRows where_ set db.factionStates.rows)
  | (now, .deleteStates where_) =>
      db.writeFactionStates now (deleteRows where_ db.factionStates.rows)
  | (now, .upsertStates target proposed set setWhere) =>
      (upsertRows target.key set setWhere proposed db.factionStates.rows).bind fun outcome =>
        db.writeFactionStates now outcome
  | (now, .updateControllers where_ controller) =>
      db.writeSystems now (updateRows where_ (SystemRow.setController controller) db.systems.rows)

theorem maintains_of_runStatement {db db' : Db P} {now : Timestamp}
    {statement : ThreatStatement K} (ran : db.runStatement (now, statement) = some db') :
    ∃ ids, Maintains now ids db db' := by
  cases statement with
  | insertStates proposed => exact ⟨_, maintains_of_writeFactionStates (frames_insertRows _ _) ran⟩
  | updateStates where_ set =>
      exact ⟨_, maintains_of_writeFactionStates (frames_updateRows _ _ _) ran⟩
  | deleteStates where_ => exact ⟨_, maintains_of_writeFactionStates (frames_deleteRows _ _) ran⟩
  | upsertStates target proposed set setWhere =>
      obtain ⟨outcome, done, written⟩ := Option.bind_eq_some_iff.mp ran
      exact ⟨_, maintains_of_writeFactionStates (frames_upsertRows done) written⟩
  | updateControllers where_ controller =>
      refine ⟨_, maintains_of_writeSystems (fun systemId away => ?_) ran⟩
      exact controller_updateRows (SystemRow.id_setController controller) db.systems.rows away

/-! ## The invariant -/

/-- Every row of the threat table is what recomputing it gives, and a system without a row
is not threatened. -/
def ThreatsCurrent (db : Db P) : Prop :=
  ∀ systemId, match db.systemFactionControlThreats.get systemId with
    | some row => Assesses (db.controllingFactionOf systemId) (db.statesOf systemId) row
    | none => ¬ Threatened (db.controllingFactionOf systemId) (db.statesOf systemId)

theorem assesses_current (now : Timestamp) (db : Db P) (systemId : Uuid) :
    Assesses (db.controllingFactionOf systemId) (db.statesOf systemId)
      (db.currentControlThreat now systemId) :=
  assesses_controlThreatOf (db.distinctFactions systemId) now _

/-- The step of the induction over a run. -/
theorem Maintains.threatsCurrent {now : Timestamp} {ids : List Uuid} {db db' : Db P}
    (step : Maintains now ids db db') (current : db.ThreatsCurrent) : db'.ThreatsCurrent := by
  intro systemId
  rw [step.row]
  by_cases visited : systemId ∈ ids
  · rw [if_pos visited]
    exact db'.assesses_current now systemId
  · rw [if_neg visited, step.controller systemId visited, step.states systemId visited]
    exact current systemId

/-! ## Where a run starts -/

/-- One row of `ranked_threats` in the migration. -/
def rankedThreat (now : Timestamp) (db : Db P) (system : SystemRow K) :
    Option (Uuid × ControlThreatRow K) :=
  system.controllingFactionId.bind fun controller =>
    ((db.statesOf system.id).find? fun row => row.factionId = controller).map fun holder =>
      let challenger := (((db.statesOf system.id).filter fun row =>
        row.factionId ≠ controller).insertionSort RankedBefore).head?
      let gap := challenger.map fun row => holder.influence - row.influence
      (system.id,
        { factionId := some controller
          challengerFactionId := challenger.map fun row => row.factionId
          gap := gap
          isThreatened := (gap.map fun gap => decide (gap ≤ 1 / 10)).getD false
          updatedAt := now })

/-- The backfill of `systemFactionControlThreats`. -/
def backfillControlThreats (now : Timestamp) (db : Db P) : Db P :=
  { db with
    systemFactionControlThreats := (db.systems.rows.filterMap (rankedThreat now db)).foldl
      (fun threats entry => threats.set entry.1 entry.2) db.systemFactionControlThreats }

/-- A run starts after the backfill of the new threat table, or without states and threats. -/
def Started (db : Db P) : Prop :=
  (∃ (now : Timestamp) (old : Db P), old.systemFactionControlThreats = .empty ∧
    db = old.backfillControlThreats now) ∨
  (db.factionStates = .empty ∧ db.systemFactionControlThreats = .empty)

/-- A row of the backfill is the row that a refresh computes. -/
theorem rankedThreat_eq {now : Timestamp} {db : Db P} {system : SystemRow K}
    {entry : Uuid × ControlThreatRow K} (ranked : rankedThreat now db system = some entry) :
    entry = (system.id,
      controlThreatOf now system.controllingFactionId (db.statesOf system.id)) := by
  obtain ⟨controller, controls, joined⟩ := Option.bind_eq_some_iff.mp ranked
  obtain ⟨holder, found, rfl⟩ := Option.map_eq_some_iff.mp joined
  simp only [controlThreatOf, controls, Option.bind_some, found, Option.map_some]
  generalize (((db.statesOf system.id).filter fun row =>
    decide (row.factionId ≠ controller)).insertionSort RankedBefore).head? = challenger
  cases challenger <;> simp [controlThreatThreshold]

/-- A system that the backfill leaves out is not threatened. -/
theorem not_threatened_of_rankedThreat_eq_none {now : Timestamp} {db : Db P}
    {system : SystemRow K} (unranked : rankedThreat now db system = none) :
    ¬ Threatened system.controllingFactionId (db.statesOf system.id) := by
  rintro ⟨challenger, gap, ⟨holder, member, controls, -⟩, -⟩
  simp only [rankedThreat, controls, Option.bind_some, Option.map_eq_none_iff,
    List.find?_eq_none, decide_eq_true_eq] at unranked
  exact unranked holder member rfl

/-- The rows that the backfill sets, one after the other. -/
theorem get_foldl_set_rankedThreat (now : Timestamp) (db : Db P) (systems : List (SystemRow K))
    (distinctIds : (systems.map fun row => row.id).Nodup)
    (threats : OrderedMap Uuid (ControlThreatRow K)) (systemId : Uuid) :
    (((systems.filterMap (rankedThreat now db)).foldl
        (fun threats entry => threats.set entry.1 entry.2) threats).get systemId) =
      ((systems.find? fun row => row.id = systemId).bind fun row =>
        (rankedThreat now db row).map Prod.snd).or (threats.get systemId) := by
  induction systems generalizing threats with
  | nil => simp
  | cons system rest ih =>
      simp only [List.map_cons, List.nodup_cons] at distinctIds
      obtain ⟨fresh, distinctIds⟩ := distinctIds
      have absent : system.id = systemId → rest.find? (fun row => row.id = systemId) = none := by
        rintro rfl
        refine List.find?_eq_none.mpr fun row member => ?_
        rw [decide_eq_true_eq]
        exact fun same => fresh (same ▸ List.mem_map_of_mem member)
      cases ranked : rankedThreat now db system with
      | none =>
          rw [List.filterMap_cons_none ranked, ih distinctIds]
          by_cases here : system.id = systemId
          · simp [here, ranked, absent here]
          · simp [here]
      | some entry =>
          rw [List.filterMap_cons_some ranked, List.foldl_cons, ih distinctIds]
          have named : entry.1 = system.id := by rw [rankedThreat_eq ranked]
          by_cases here : system.id = systemId
          · simp [here, ranked, absent here, named]
          · simp [here, OrderedMap.get_set_of_ne, named, Ne.symm here]

theorem threatsCurrent_backfill (now : Timestamp) (db : Db P)
    (blank : db.systemFactionControlThreats = .empty) :
    (db.backfillControlThreats now).ThreatsCurrent := by
  intro systemId
  have lookup := get_foldl_set_rankedThreat now db db.systems.rows
    db.distinctSystems db.systemFactionControlThreats systemId
  rw [blank, OrderedMap.get_empty, Option.or_none] at lookup
  have backfilled : (db.backfillControlThreats now).systemFactionControlThreats.get systemId =
      (db.systems.rows.find? fun row => row.id = systemId).bind fun row =>
        (rankedThreat now db row).map Prod.snd := by
    rw [← lookup, backfillControlThreats, blank]
  rw [backfilled]
  have controller : (db.backfillControlThreats now).controllingFactionOf systemId =
      (db.systems.rows.find? fun row => row.id = systemId).bind fun row =>
        row.controllingFactionId := rfl
  rw [controller]
  cases found : db.systems.rows.find? fun row => row.id = systemId with
  | none =>
      rintro ⟨_, _, ⟨_, _, controls, _⟩, _⟩
      cases controls
  | some system =>
      obtain rfl : system.id = systemId := by simpa using List.find?_some found
      simp only [Option.bind_some]
      cases ranked : rankedThreat now db system with
      | none => exact not_threatened_of_rankedThreat_eq_none ranked
      | some entry =>
          simp only [Option.map_some, rankedThreat_eq ranked]
          exact assesses_controlThreatOf (db.distinctFactions _) now _

theorem threatsCurrent_of_started {db : Db P} (started : db.Started) : db.ThreatsCurrent := by
  rcases started with ⟨now, old, blank, rfl⟩ | ⟨states, threats⟩
  · exact threatsCurrent_backfill now old blank
  · intro systemId
    rw [threats]
    rintro ⟨_, _, ⟨holder, member, _⟩, _⟩
    simp [statesOf, states] at member

/-! ## Every run -/

/-- **After every statement of every run the threat table equals recomputation.** -/
theorem threats_equal_recomputation {start db : Db P} (started : start.Started)
    (run : Reachable runStatement start db) : db.ThreatsCurrent :=
  run.invariant (threatsCurrent_of_started started) fun _ _ _ current _ ran =>
    (maintains_of_runStatement ran).elim fun _ step => step.threatsCurrent current

end Db

/-! ## A run -/

/-- A system with a name and a controlling faction. -/
def sampleSystem (id : ℕ) (controllingFactionId : Option Uuid) : SystemRow ℚ where
  id := .ofNat id
  name := "Sol"
  systemAddress := 10477373803
  x := 0
  y := 0
  z := 0
  population := 0
  government := none
  allegiance := none
  economy := none
  secondEconomy := none
  security := none
  controllingFactionId := controllingFactionId
  powerplayState := none
  powerplayStateControlProgress := none
  powerplayStateReinforcement := none
  powerplayStateUndermining := none
  createdAt := 0
  updatedAt := 0

/-- A faction state with an influence. -/
def sampleState (id factionId systemId : ℕ) (influence : ℚ) : FactionStateRow ℚ where
  id := .ofNat id
  factionId := .ofNat factionId
  systemId := .ofNat systemId
  happiness := none
  influence := influence
  activeStates := []
  recoveringStates := []
  pendingStates := []
  activeStatesRaw := []
  recoveringStatesRaw := []
  pendingStatesRaw := []
  createdAt := 0
  updatedAt := 0

/-- One system, controlled by faction 10; no states, threats or events. -/
def sampleDb : Db asciiPlatform :=
  { Db.empty with systems := ⟨[sampleSystem 1 (some (.ofNat 10))], List.pairwise_singleton _ _⟩ }

/-- Faction 11 comes within the threshold of faction 10 by an upsert of both rows. -/
def sampleStatements : List (Timestamp × ThreatStatement ℚ) :=
  [(1, .insertStates [sampleState 20 10 1 (1 / 2), sampleState 21 11 1 (1 / 4)]),
    (2, .upsertStates .factionAndSystem
      [sampleState 22 10 1 (2 / 5), sampleState 23 11 1 (7 / 20)]
      (fun row proposed => { row with influence := proposed.influence }) fun _ _ => true)]

theorem threats_equal_recomputation_sample : ∃ db : Db asciiPlatform,
    ((db.systemFactionControlThreats.get (.ofNat 1)).any fun row => row.isThreatened) = true ∧
      db.ThreatsCurrent := by
  obtain ⟨db, run, threatened⟩ := exists_reachable_of_execute Db.runStatement sampleDb
    sampleStatements
    (fun db => (db.systemFactionControlThreats.get (.ofNat 1)).any fun row => row.isThreatened)
    (by decide +kernel)
  exact ⟨db, threatened, Db.threats_equal_recomputation (.inr ⟨rfl, rfl⟩) run⟩

end EliteHubVault
