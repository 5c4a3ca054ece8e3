import EliteHubVault.Lifecycle.ConflictEvents
import EliteHubVault.Worker.Mirror
import EliteHubVault.Worker.NetThreat
import EliteHubVault.Worker.Outbox

/-!
# The two sides of a conflict

A conflict is stored under the order in which the message lists its factions, and its events
are those of the faction that is listed first. So the second faction is not told, and a conflict
that is listed the other way round ends for the one and begins for the other. `BothSidesMove`
says on the inputs when both sides are told nevertheless.
-/

set_option autoImplicit false
set_option linter.unusedSectionVars false

namespace EliteHubVault

open Library

variable {K : Type}

/-! ## Live conflicts -/

/-- The type and the lifecycle of a conflict that is not over. -/
def liveConflict (row : Option (FactionConflictRow K)) :
    Option (FactionConflictType × FactionStateLifecycle) :=
  row.bind fun conflict => conflict.status.told.map fun lifecycle => (conflict.type, lifecycle)

section Sides

variable {α : Type}

/-- Two sides have the same contents before and after, be it on the other side. -/
def SamePair (first second first' second' : Option α) : Prop :=
  ∀ a, first = some a ∨ second = some a ↔ first' = some a ∨ second' = some a

/-- What both sides have before and after: a pair that stays the same stays on each side that
had it; one that is over was on both sides; another is on both sides and new to each. -/
structure BothSidesMove {τ lifecycle : Type} (first second first' second' : Option (τ × lifecycle)) :
    Prop where
  unchanged : SamePair first second first' second' →
    (first.isSome → first' = first) ∧ (second.isSome → second' = second)
  gone : ¬ SamePair first second first' second' → first' = none → second' = none →
    first.isSome ∧ second.isSome
  begun : ¬ SamePair first second first' second' → first'.isSome ∨ second'.isSome →
    first' ≠ first ∧ second' ≠ second ∧
      ∃ told, first'.map Prod.snd = some told ∧ second'.map Prod.snd = some told

end Sides

/-! ## What is told -/

section Told

variable {ν : Type} {P : Platform K} {db db' : Db P}

namespace Db

/-- The signals of the events that were inserted. -/
def newSignals (read : OutboxInsert K → Option ν) (before after : Db P) : List ν :=
  ((insertedEvents before after).map OutboxRow.toOutboxInsert).filterMap read

/-- The live conflict that is stored for a faction with an opponent. -/
def live (systemId factionId opponentFactionId : Uuid) (db : Db P) :
    Option (FactionConflictType × FactionStateLifecycle) :=
  liveConflict (db.conflictRow systemId factionId (some opponentFactionId))

end Db

/-- A subscriber of the faction is told this lifecycle of a conflict with the opponent. -/
def ToldSide (systemId factionId opponentFactionId : Uuid) (lifecycle : FactionStateLifecycle)
    (before after : Db P) : Prop :=
  ∃ type, lifecycle ∈
    Db.newSignals (watchConflict systemId factionId (some opponentFactionId) type) before after

/-- The lifecycle of the conflict of two factions, in whatever order it is stored. -/
def NewLifecycle (systemId factionId opponentFactionId : Uuid) (after : Db P)
    (lifecycle : FactionStateLifecycle) : Prop :=
  (after.live systemId factionId opponentFactionId = none ∧
    after.live systemId opponentFactionId factionId = none ∧ lifecycle = .ended) ∨
  ∃ type, after.live systemId factionId opponentFactionId = some (type, lifecycle) ∨
    after.live systemId opponentFactionId factionId = some (type, lifecycle)

/-- The conflicts of two factions are the same before and after. -/
def SameConflict (systemId factionId opponentFactionId : Uuid) (before after : Db P) : Prop :=
  SamePair (before.live systemId factionId opponentFactionId)
    (before.live systemId opponentFactionId factionId)
    (after.live systemId factionId opponentFactionId)
    (after.live systemId opponentFactionId factionId)

/-- Both sides of a conflict are told of a change, and neither is told an end without one. -/
structure TellsBothSides (systemId factionId opponentFactionId : Uuid) (before after : Db P) :
    Prop where
  changed : ¬ SameConflict systemId factionId opponentFactionId before after →
    ∃ lifecycle, NewLifecycle systemId factionId opponentFactionId after lifecycle ∧
      ToldSide systemId factionId opponentFactionId lifecycle before after ∧
      ToldSide systemId opponentFactionId factionId lifecycle before after
  unchanged : SameConflict systemId factionId opponentFactionId before after →
    ¬ ToldSide systemId factionId opponentFactionId .ended before after ∧
      ¬ ToldSide systemId opponentFactionId factionId .ended before after

end Told

/-! ## What the message lists -/

section Listed

variable [Field K] [LinearOrder K] {P : Platform K}

/-- The id of a faction once the factions of the message are stored. -/
def resolvedId (env : TxEnv) (message : SystemMessage K) (db : Db P) (name : String) :
    Option Uuid :=
  (db.findFactionId name).or (((message.factions.getD []).findIdx? fun faction =>
    P.citext faction.name = P.citext name).map (env.randomUuid .upsertFactions))

/-- The live conflict that the message lists for a faction with an opponent. -/
def listedLive (env : TxEnv) (message : SystemMessage K) (db : Db P)
    (factionId opponentFactionId : Uuid) : Option (FactionConflictType × FactionStateLifecycle) := do
  let conflict ← (message.conflicts.getD []).find? fun conflict =>
    resolvedId env message db conflict.faction1.name = some factionId ∧
      resolvedId env message db conflict.faction2.name = some opponentFactionId
  let type ← (mapFactionConflictType P (some conflict.warType)).required
  let status ← (mapFactionConflictStatus P (some conflict.status)).required
  status.told.map fun lifecycle => (type, lifecycle)

/-- What a message says about a whole system, if it does. -/
def JournalMessage.system? : JournalMessage K → Option (SystemMessage K)
  | .fsdJump message => some message
  | .location message => some message.toSystemMessage
  | .docked _ => none

/-- The live conflict once the message is processed: that of the message, if it lists factions
of the system, and else the stored one. -/
def liveAfter (env : TxEnv) (message : JournalMessage K) (db : Db P)
    (systemId factionId opponentFactionId : Uuid) :
    Option (FactionConflictType × FactionStateLifecycle) :=
  match message.system? with
  | some system =>
      if system.factions.getD [] ≠ [] ∧ systemIdOf env system db = systemId then
        listedLive env system db factionId opponentFactionId
      else db.live systemId factionId opponentFactionId
  | none => db.live systemId factionId opponentFactionId

end Listed

/-! ## Signals and live conflicts -/

/-- The lifecycle of a live conflict, if it has this type. -/
def asType (type : FactionConflictType)
    (live : Option (FactionConflictType × FactionStateLifecycle)) : Option FactionStateLifecycle :=
  live.bind fun conflict => if conflict.1 = type then some conflict.2 else none

theorem lifecycleAs_eq_asType (type : FactionConflictType) (row : Option (FactionConflictRow K)) :
    lifecycleAs type row = asType type (liveConflict row) := by
  cases row with
  | none => rfl
  | some row =>
      cases status : row.status.told <;> by_cases same : row.type = type <;>
        simp [asType, liveConflict, status, same]

theorem snd_liveConflict_ne_ended (row : Option (FactionConflictRow K)) :
    (liveConflict row).map Prod.snd ≠ some .ended := by
  cases row with
  | none => simp [liveConflict]
  | some row => cases status : row.status <;> simp [liveConflict, status, FactionConflictStatus.told]

theorem asType_eq_some {type : FactionConflictType} {lifecycle : FactionStateLifecycle}
    {live : Option (FactionConflictType × FactionStateLifecycle)} :
    asType type live = some lifecycle ↔ live = some (type, lifecycle) := by
  rcases live with - | ⟨other, found⟩
  · simp [asType]
  · by_cases same : other = type <;> simp [asType, same]

theorem mem_conflictSignals {old new : Option FactionStateLifecycle}
    {lifecycle : FactionStateLifecycle} : lifecycle ∈ conflictSignals old new ↔
      new ≠ old ∧ (lifecycle = .ended ∧ old.isSome ∨ new = some lifecycle) := by
  unfold conflictSignals
  by_cases same : old = new
  · simp [same]
  · cases old <;> simp [same, Ne.symm same]

/-- A side that has this before and after is told this lifecycle. -/
def ToldMove (lifecycle : FactionStateLifecycle)
    (before after : Option (FactionConflictType × FactionStateLifecycle)) : Prop :=
  after ≠ before ∧ (lifecycle = .ended ∧ before.isSome ∨ after.map Prod.snd = some lifecycle)

theorem toldMove_none {lifecycle : FactionStateLifecycle}
    {before : Option (FactionConflictType × FactionStateLifecycle)} :
    ToldMove lifecycle before none ↔ lifecycle = .ended ∧ before.isSome := by
  cases before <;> simp [ToldMove]

theorem toldMove_of_ne_ended {lifecycle : FactionStateLifecycle}
    {before after : Option (FactionConflictType × FactionStateLifecycle)}
    (going : lifecycle ≠ .ended) :
    ToldMove lifecycle before after ↔ after ≠ before ∧ after.map Prod.snd = some lifecycle := by
  simp [ToldMove, going]

/-- No end is told to a side that had nothing or keeps what it had. -/
theorem not_toldMove_ended {before after : Option (FactionConflictType × FactionStateLifecycle)}
    (live : after.map Prod.snd ≠ some .ended) :
    ¬ ToldMove .ended before after ↔ (before.isSome → after = before) := by
  rw [ToldMove, not_and']
  simp [live]

/-- A side is told of its own change: the end of what it had and the start of what it has. -/
theorem exists_mem_conflictSignals
    {before after : Option (FactionConflictType × FactionStateLifecycle)}
    {lifecycle : FactionStateLifecycle} :
    (∃ type, lifecycle ∈ conflictSignals (asType type before) (asType type after)) ↔
      ToldMove lifecycle before after := by
  simp only [mem_conflictSignals, ToldMove]
  constructor
  · rintro ⟨type, changed, ⟨rfl, had⟩ | has⟩
    · refine ⟨fun same => changed (by rw [same]), .inl ⟨rfl, ?_⟩⟩
      obtain ⟨old, was⟩ := Option.isSome_iff_exists.mp had
      rw [asType_eq_some.mp was, Option.isSome_some]
    · refine ⟨fun same => changed (by rw [same]), .inr ?_⟩
      rw [asType_eq_some.mp has, Option.map_some]
  · rintro ⟨changed, ⟨rfl, had⟩ | has⟩
    · obtain ⟨⟨type, old⟩, rfl⟩ := Option.isSome_iff_exists.mp had
      have was : asType type (some (type, old)) = some old := asType_eq_some.mpr rfl
      refine ⟨type, fun same => changed ?_, .inl ⟨rfl, by rw [was, Option.isSome_some]⟩⟩
      exact asType_eq_some.mp (same.trans was)
    · obtain ⟨⟨type, new⟩, rfl, rfl⟩ := Option.map_eq_some_iff.mp has
      have now : asType type (some (type, new)) = some new := asType_eq_some.mpr rfl
      refine ⟨type, fun same => changed ?_, .inr now⟩
      exact (asType_eq_some.mp (same.symm.trans now)).symm

section Transaction

variable [Field K] [LinearOrder K] {P : Platform K} {env : TxEnv} {db db' : Db P}

/-! ## Opponents -/

/-- Every conflict has an opponent. -/
def Db.Opposed (db : Db P) : Prop :=
  ∀ row ∈ db.factionConflicts.rows, row.opponentFactionId.isSome

/-- Conflicts with opponents are distinct. -/
theorem Db.Opposed.unique (opposed : db.Opposed) : db.UniqueConflicts :=
  List.pairwise_map.mpr (db.factionConflicts.unique.imp_of_mem fun {row _} member _ apart same =>
    apart (.inr ⟨opposed row member, same⟩))

theorem opposed_congr (same : db'.factionConflicts.rows.map FactionConflictRow.core =
    db.factionConflicts.rows.map FactionConflictRow.core) (opposed : db.Opposed) : db'.Opposed := by
  intro row member
  obtain ⟨old, inOld, core⟩ : ∃ old ∈ db.factionConflicts.rows, old.core = row.core :=
    List.mem_map.mp (same ▸ List.mem_map_of_mem member)
  have opponent : old.opponentFactionId = row.opponentFactionId :=
    congrArg (·.2.2) (FactionConflictRow.core_eq_iff.mp core).2.1
  exact opponent ▸ opposed old inOld

theorem opposed_upsertRows {systemId : Uuid} {conflicts : List (Conflict K)}
    {proposed rows : List (FactionConflictRow K)} {changes : List (Change (FactionConflictRow K))}
    {updatedAt : Timestamp}
    (parsed : conflictsData env systemId db conflicts = proposed.map some)
    (upserted : upsertRows FactionConflictRow.key (FactionConflictRow.setExcluded updatedAt)
      (fun _ _ => true) proposed db.factionConflicts.rows = some (rows, changes))
    (opposed : db.Opposed) : ∀ row ∈ rows, row.opponentFactionId.isSome := by
  intro row member
  rcases key_mem_upsertRows (FactionConflictRow.key_setExcluded updatedAt) upserted row member with
    new | old
  · obtain ⟨wanted, inProposed, same⟩ := List.mem_map.mp new
    have opponent : wanted.opponentFactionId = row.opponentFactionId := congrArg (·.2.2) same
    exact opponent ▸ (key_conflictsData (parsed ▸ List.mem_map_of_mem inProposed)).2
  · obtain ⟨before, inRows, same⟩ := List.mem_map.mp old
    have opponent : before.opponentFactionId = row.opponentFactionId := congrArg (·.2.2) same
    exact opponent ▸ opposed before inRows

theorem opposed_upsertFactionConflicts {systemId : Uuid} {conflicts : List (Conflict K)}
    (opposed : db.Opposed)
    (done : upsertFactionConflicts env systemId conflicts db = .ok db') : db'.Opposed := by
  by_cases nothing : conflictsData env systemId db conflicts = []
  · unfold upsertFactionConflicts at done
    simp only [if_pos nothing] at done
    obtain ⟨rows, -⟩ := Db.of_writeFactionConflicts (orFail_eq_ok.mp done)
    intro row member
    rw [rows] at member
    exact opposed row (List.mem_filter.mp member).1
  · obtain ⟨proposed, changes, middle, parsed, upserted, -, deleted⟩ :=
      of_upsertFactionConflicts nothing done
    obtain ⟨rows, -⟩ := Db.of_writeFactionConflicts deleted
    intro row member
    rw [rows] at member
    exact opposed_upsertRows parsed upserted opposed row (List.mem_filter.mp member).1

/-- The powers of a message leave the conflicts, their stakes aside. -/
theorem core_processPowerplayData {message : SystemMessage K} {systemId : Uuid}
    (done : processPowerplayData env message systemId db = .ok db') :
    db'.factionConflicts.rows.map FactionConflictRow.core =
      db.factionConflicts.rows.map FactionConflictRow.core := by
  obtain ⟨deleted, clears⟩ := clearsStakes_processPowerplayData done
  rw [clears.conflicts, List.map_map]
  rfl

theorem opposed_processFactionsData {message : SystemMessage K} {systemId : Uuid}
    (opposed : db.Opposed) (done : processFactionsData env message systemId db = .ok db') :
    db'.Opposed := by
  obtain ⟨-, rfl⟩ | ⟨-, stored, factions, present, cleaned, synced, states, upserted, presence,
    cleanup, sync, state, conflicts⟩ := of_processFactionsData done
  · exact opposed
  · refine opposed_upsertFactionConflicts (opposed_congr ?_ opposed) conflicts
    rw [frame_upsertFactionStates state, frame_syncSystemControllingFaction sync,
      frame_cleanupFactionStates cleanup, frame_upsertSystemFactions presence,
      frame_upsertFactions upserted]

/-- A transaction keeps that conflicts have opponents. -/
theorem opposed_processMessage {message : JournalMessage K} (opposed : db.Opposed)
    (done : processMessage env message db = .ok db') : db'.Opposed := by
  cases processed_of_processMessage done with
  | full message done =>
      obtain ⟨-, rfl⟩ | ⟨-, afterSystem, system, afterPowers, afterFactions, upserted, powers,
        factions, station⟩ := of_processMessage done
      · exact opposed
      · have sameConflicts : afterSystem.factionConflicts = db.factionConflicts := by
          rw [frame_upsertSystem upserted]
        have afterSystemOpposed : afterSystem.Opposed :=
          opposed_congr (by rw [sameConflicts]) opposed
        exact opposed_congr (onlyStationAndFaction_upsertStationOf station).conflicts
          (opposed_processFactionsData (opposed_congr (core_processPowerplayData powers)
            afterSystemOpposed) factions)
  | docked message afterSystem system upserted station =>
      have only := onlyStationAndFaction_upsertStationFromDocked station
      have sameConflicts : afterSystem.factionConflicts = db.factionConflicts := by
        rw [frame_upsertSystem upserted]
      exact opposed_congr (by rw [only.conflicts, sameConflicts]) opposed
  | unused message dropped same => rwa [same]

theorem opposed_of_workerReachable (reachable : WorkerReachable db) : db.Opposed :=
  reachable.of_processed (fun _ member => nomatch member)
    fun _ _ _ _ opposed processed => opposed_processMessage opposed processed

/-! ## The events of one transaction -/

/-- The signals about one conflict that a statement gives. -/
theorem filterMap_watchConflict_of_edits {systemId factionId : Uuid}
    {opponentFactionId : Option Uuid} {rows : List (FactionConflictRow K)}
    {outcome : List (FactionConflictRow K) × List (Change (FactionConflictRow K))}
    (edits : EditsAt FactionConflictRow.key rows outcome (systemId, factionId, opponentFactionId))
    (type : FactionConflictType) :
    (outcome.2.flatMap enqueueFactionConflictChangedEvents).filterMap
        (watchConflict systemId factionId opponentFactionId type) =
      conflictSignals
        (lifecycleAs type (rowAt FactionConflictRow.key rows (systemId, factionId, opponentFactionId)))
        (lifecycleAs type
          (rowAt FactionConflictRow.key outcome.1 (systemId, factionId, opponentFactionId))) := by
  rw [(announces_followsConflict systemId factionId opponentFactionId type).signals_eq]
  cases edits with
  | kept silent same => simp [silent, same, conflictSignals]
  | changed change single old new =>
      rw [single, List.flatMap_singleton, ← new, ← old]
      refine watchConflict_change (fun row mentioned => ?_) type
      rcases Change.mem_versions.mp mentioned with here | here
      · exact key_of_rowAt (old ▸ here)
      · exact key_of_rowAt (new ▸ here)

/-- A conflict that the upsert leaves alone is found as it was, and one that it writes is not
deleted. -/
theorem conflictRow_twice {systemId : Uuid} {middle : Db P}
    {proposed : List (FactionConflictRow K)} {changes : List (Change (FactionConflictRow K))}
    {updatedAt : Timestamp}
    (upserted : upsertRows FactionConflictRow.key (FactionConflictRow.setExcluded updatedAt)
      (fun _ _ => true) proposed db.factionConflicts.rows =
        some (middle.factionConflicts.rows, changes))
    (rows : db'.factionConflicts.rows = (deleteRows (fun row => row.systemId = systemId ∧
      row.id ∉ (changes.filterMap Change.new?).map fun row => row.id)
        middle.factionConflicts.rows).1)
    (opposed' : db'.Opposed) (system factionId : Uuid)
    (opponentFactionId : Option Uuid) :
    middle.conflictRow system factionId opponentFactionId =
        db.conflictRow system factionId opponentFactionId ∨
      db'.conflictRow system factionId opponentFactionId =
        middle.conflictRow system factionId opponentFactionId := by
  obtain ⟨changed, -, left, others⟩ := upsertRows_always (fun _ _ => rfl)
    (fun wanted _ row => row.key_setExcluded updatedAt wanted) upserted
  by_cases written : (system, factionId, opponentFactionId) ∈ proposed.map FactionConflictRow.key
  · obtain ⟨wanted, inProposed, sameKey⟩ := List.mem_map.mp written
    have found := left wanted inProposed
    have here : middle.conflictRow system factionId opponentFactionId =
        some (upsertedConflict updatedAt db.factionConflicts.rows wanted) := by
      rw [Db.conflictRow, rowAt, ← sameKey]
      exact found
    right
    rw [here, Db.conflictRow, rowAt_eq_some opposed'.unique, rows]
    refine ⟨List.mem_filter.mpr ⟨mem_of_rowAt here, ?_⟩, key_of_rowAt here⟩
    have kept : (upsertedConflict updatedAt db.factionConflicts.rows wanted).id ∈
        (changes.filterMap Change.new?).map fun row => row.id := by
      rw [changed, filterMap_new?_changeFor]
      exact List.mem_map_of_mem (List.mem_map_of_mem inProposed)
    simp [kept]
  · exact .inl (others _ written)

/-- The statements of an upsert of conflicts change a conflict once. -/
theorem signals_watchConflict_upsertFactionConflicts {systemId : Uuid}
    {conflicts : List (Conflict K)} (opposed : db.Opposed)
    (done : upsertFactionConflicts env systemId conflicts db = .ok db')
    (system factionId : Uuid) (opponentFactionId : Option Uuid) (type : FactionConflictType) :
    db'.signals (watchConflict system factionId opponentFactionId type) =
      db.signals (watchConflict system factionId opponentFactionId type) ++
        conflictSignals (lifecycleAs type (db.conflictRow system factionId opponentFactionId))
          (lifecycleAs type (db'.conflictRow system factionId opponentFactionId)) := by
  have opposed' := opposed_upsertFactionConflicts opposed done
  by_cases nothing : conflictsData env systemId db conflicts = []
  · unfold upsertFactionConflicts at done
    simp only [if_pos nothing] at done
    have written := orFail_eq_ok.mp done
    obtain ⟨rows, -⟩ := Db.of_writeFactionConflicts written
    rw [Db.signals_writeFactionConflicts written,
      filterMap_watchConflict_of_edits (editsAt_deleteRows opposed.unique _), ← rows]
    rfl
  · obtain ⟨proposed, changes, middle, parsed, upserted, triggers, deleted⟩ :=
      of_upsertFactionConflicts nothing done
    have opposedMiddle : middle.Opposed := opposed_upsertRows parsed upserted opposed
    obtain ⟨rows, -⟩ := Db.of_writeFactionConflicts deleted
    have edits : EditsAt FactionConflictRow.key db.factionConflicts.rows
        (middle.factionConflicts.rows, changes) (system, factionId, opponentFactionId) := by
      refine editsAt_upsertRows (fun _ _ _ _ => ?_) ?_ upserted _
      · rfl
      · exact opposedMiddle.unique
    have first := filterMap_watchConflict_of_edits edits type
    have told : middle.signals (watchConflict system factionId opponentFactionId type) =
        db.signals (watchConflict system factionId opponentFactionId type) ++
          (changes.flatMap enqueueFactionConflictChangedEvents).filterMap
            (watchConflict system factionId opponentFactionId type) := by
      rw [triggers, Db.signals_enqueue]
      rfl
    rw [Db.signals_writeFactionConflicts deleted, told, first, filterMap_watchConflict_of_edits
      (editsAt_deleteRows opposedMiddle.unique _), ← rows, List.append_assoc]
    refine congrArg _ ?_
    rcases conflictRow_twice upserted rows opposed' system factionId
      opponentFactionId with same | same
    · simp only [Db.conflictRow] at same ⊢
      rw [same, conflictSignals, if_pos rfl, List.nil_append]
    · simp only [Db.conflictRow] at same ⊢
      rw [same, conflictSignals, conflictSignals, if_pos rfl, List.append_nil]

/-- What is live does not depend on the stakes. -/
theorem live_congr (same : db'.factionConflicts.rows.map FactionConflictRow.core =
    db.factionConflicts.rows.map FactionConflictRow.core) (systemId factionId : Uuid)
    (opponentFactionId : Option Uuid) :
    liveConflict (db'.conflictRow systemId factionId opponentFactionId) =
      liveConflict (db.conflictRow systemId factionId opponentFactionId) := by
  have byCore : ∀ row : Option (FactionConflictRow K),
      liveConflict row = liveConflict (row.map FactionConflictRow.core) := by
    intro row
    cases row <;> rfl
  have found : ∀ db : Db P, (db.conflictRow systemId factionId opponentFactionId).map
      FactionConflictRow.core = rowAt FactionConflictRow.key
        (db.factionConflicts.rows.map FactionConflictRow.core)
        (systemId, factionId, opponentFactionId) := by
    intro db
    rw [Db.conflictRow, rowAt, rowAt, List.find?_map]
    rfl
  rw [byCore, found, same, ← found, ← byCore]

section Reader

variable {system factionId : Uuid} {opponentFactionId : Option Uuid} {type : FactionConflictType}

theorem filterMap_watchConflict_states (change : Change (FactionStateRow K)) :
    (enqueueFactionStateChangedEvents change).filterMap
      (watchConflict system factionId opponentFactionId type) = [] := by
  refine List.filterMap_eq_nil_iff.mpr fun event member => ?_
  obtain ⟨systemId, owner, lifecycle, state, rfl⟩ :=
    of_mem_enqueueFactionStateChangedEvents member
  exact watchConflict_factionStateEvent system factionId systemId owner opponentFactionId type
    lifecycle state

/-- The conflict was told from what it was to what it is. -/
def Follows (system factionId : Uuid) (opponentFactionId : Option Uuid)
    (type : FactionConflictType) (before after : Db P) : Prop :=
  after.signals (watchConflict system factionId opponentFactionId type) =
    before.signals (watchConflict system factionId opponentFactionId type) ++
      conflictSignals
        (asType type (liveConflict (before.conflictRow system factionId opponentFactionId)))
        (asType type (liveConflict (after.conflictRow system factionId opponentFactionId)))

theorem Follows.refl (db : Db P) : Follows system factionId opponentFactionId type db db := by
  rw [Follows, conflictSignals, if_pos rfl, List.append_nil]

/-- What neither tells nor changes conflicts may come before and after. -/
theorem Follows.congr {before after : Db P}
    (told : before.signals (watchConflict system factionId opponentFactionId type) =
      db.signals (watchConflict system factionId opponentFactionId type))
    (same : before.factionConflicts.rows.map FactionConflictRow.core =
      db.factionConflicts.rows.map FactionConflictRow.core)
    (told' : after.signals (watchConflict system factionId opponentFactionId type) =
      db'.signals (watchConflict system factionId opponentFactionId type))
    (same' : after.factionConflicts.rows.map FactionConflictRow.core =
      db'.factionConflicts.rows.map FactionConflictRow.core)
    (follows : Follows system factionId opponentFactionId type db db') :
    Follows system factionId opponentFactionId type before after := by
  rw [Follows, told, told', live_congr same, live_congr same']
  exact follows

theorem follows_processFactionsData {message : SystemMessage K} {systemId : Uuid}
    (opposed : db.Opposed) (done : processFactionsData env message systemId db = .ok db') :
    Follows system factionId opponentFactionId type db db' := by
  obtain ⟨-, rfl⟩ | ⟨-, stored, factions, present, cleaned, synced, states, upserted, presence,
    cleanup, sync, state, conflicts⟩ := of_processFactionsData done
  · exact .refl _
  have ignores : ∀ {eventType : String}, eventType ≠ "factionStateChanged" → Ignores (K := K)
      (watchConflict system factionId opponentFactionId type) eventType :=
    fun other => ignores_watchConflict other system factionId opponentFactionId type
  have threats := ignores (by decide : "factionControlThreatChanged" ≠ _)
  have powerplay := ignores (by decide : "systemPowerplayUpdated" ≠ _)
  have presenceUnseen := ignores (by decide : "factionPresenceChanged" ≠ _)
  have untold : states.signals (watchConflict system factionId opponentFactionId type) =
      db.signals (watchConflict system factionId opponentFactionId type) :=
    (signals_upsertFactionStates threats filterMap_watchConflict_states state).trans
      ((signals_syncSystemControllingFaction threats powerplay sync).trans
        ((signals_cleanupFactionStates threats filterMap_watchConflict_states cleanup).trans
          ((signals_upsertSystemFactions presenceUnseen presence).trans
            (Db.signals_congr (by rw [frame_upsertFactions upserted])))))
  have kept : states.factionConflicts = db.factionConflicts := by
    rw [frame_upsertFactionStates state, frame_syncSystemControllingFaction sync,
      frame_cleanupFactionStates cleanup, frame_upsertSystemFactions presence,
      frame_upsertFactions upserted]
  refine Follows.congr untold.symm (by rw [kept]) rfl rfl ?_
  rw [Follows, ← lifecycleAs_eq_asType, ← lifecycleAs_eq_asType]
  exact signals_watchConflict_upsertFactionConflicts (opposed_congr (by rw [kept]) opposed)
    conflicts system factionId opponentFactionId type

/-- **A transaction tells each conflict once**, under the order in which it is stored. -/
theorem follows_processMessage {message : JournalMessage K} (opposed : db.Opposed)
    (done : processMessage env message db = .ok db') :
    Follows system factionId opponentFactionId type db db' := by
  have untold : ∀ {data : SystemData K} {row : SystemRow K} {after : Db P},
      upsertSystem env data db = .ok (after, row) →
      after.signals (watchConflict system factionId opponentFactionId type) =
        db.signals (watchConflict system factionId opponentFactionId type) :=
    signals_upsertSystem (ignores_watchConflict (by decide) _ _ _ _)
      (ignores_watchConflict (by decide) _ _ _ _)
  cases processed_of_processMessage done with
  | full message done =>
      obtain ⟨-, rfl⟩ | ⟨-, afterSystem, row, afterPowers, afterFactions, upserted, powers,
        factions, station⟩ := of_processMessage done
      · exact .refl _
      · have kept : afterPowers.factionConflicts.rows.map FactionConflictRow.core =
            db.factionConflicts.rows.map FactionConflictRow.core := by
          rw [core_processPowerplayData powers, frame_upsertSystem upserted]
        have only := onlyStationAndFaction_upsertStationOf station
        have told : afterPowers.signals (watchConflict system factionId opponentFactionId type) =
            db.signals (watchConflict system factionId opponentFactionId type) :=
          (Db.signals_congr (by rw [frame_processPowerplayData powers])).trans (untold upserted)
        exact (follows_processFactionsData (opposed_congr kept opposed) factions).congr told.symm
          kept.symm (Db.signals_congr (by rw [only.frame])) only.conflicts
  | docked message afterSystem row upserted station =>
      have only := onlyStationAndFaction_upsertStationFromDocked station
      refine (Follows.refl db).congr rfl rfl
        ((Db.signals_congr (by rw [only.frame])).trans (untold upserted)) ?_
      rw [only.conflicts, frame_upsertSystem upserted]
  | unused message dropped same =>
      obtain rfl := same
      exact .refl _

end Reader

/-! ## What is live after the message -/

/-- After the upsert a name finds the faction that was stored, or the new one that is listed. -/
theorem findFactionId_upsertFactions {message : SystemMessage K} {factions : List FactionRow}
    (done : upsertFactions env .upsertFactions
      ((message.factions.getD []).map FactionElement.messageFaction) db = .ok (db', factions))
    (name : String) : db'.findFactionId name = resolvedId env message db name := by
  obtain ⟨returned, known, others⟩ := of_upsertFactions done
  have listed := listed_upsertFactions done
  rw [resolvedId, findFactionId_eq, findFactionId_eq]
  cases before : storedAs P db.factions.rows name with
  | some identity => rw [known name identity before, Option.map_some, Option.some_or]
  | none =>
      rw [Option.map_none, Option.none_or]
      cases search : (message.factions.getD []).findIdx? fun faction =>
          P.citext faction.name = P.citext name with
      | none =>
          have absent := List.findIdx?_eq_none_iff.mp search
          rw [others name fun faction member same => ?_, before]
          · rfl
          · obtain ⟨element, inFactions, rfl⟩ := List.mem_map.mp member
            exact of_decide_eq_false (absent element inFactions) same
      | some index =>
          obtain ⟨inRange, matched, -⟩ := List.findIdx?_eq_some_iff_getElem.mp search
          have sameName : P.citext (message.factions.getD [])[index].name = P.citext name :=
            of_decide_eq_true matched
          have mapped := congrArg (List.map some) listed
          rw [List.map_map] at mapped
          have position := congrArg (fun list => list[index]?) (mapped.symm.trans returned)
          simp only [listedFactions, List.getElem?_map, List.getElem?_mapIdx,
            List.getElem?_eq_getElem inRange, Option.map_some, Option.some.injEq, listedAs,
            FactionElement.messageFaction, storedAs_congr sameName, before, Option.getD_none]
            at position
          rw [← position]
          rfl

/-- A row has the key that the names of its conflict give. -/
theorem FactionConflictRow.Mirrors.key_eq_iff {row : FactionConflictRow K} {conflict : Conflict K}
    (mirrors : row.Mirrors db conflict) {systemId factionId opponentFactionId : Uuid}
    (here : row.systemId = systemId) :
    row.key = (systemId, factionId, some opponentFactionId) ↔
      db.findFactionId conflict.faction1.name = some factionId ∧
        db.findFactionId conflict.faction2.name = some opponentFactionId := by
  obtain ⟨opponent, sameOpponent, found⟩ := mirrors.opponentFactionId
  rw [mirrors.factionId, found, FactionConflictRow.key, sameOpponent, here]
  simp

/-- The conflicts of a system that an upsert leaves are those that the message lists. -/
theorem live_upsertFactionConflicts {message : SystemMessage K} {states : Db P} {systemId : Uuid}
    (opposed : states.Opposed)
    (finds : ∀ name, states.findFactionId name = resolvedId env message db name)
    (done : upsertFactionConflicts env systemId (message.conflicts.getD []) states = .ok db')
    (factionId opponentFactionId : Uuid) : db'.live systemId factionId opponentFactionId =
      listedLive env message db factionId opponentFactionId := by
  have unique := (opposed_upsertFactionConflicts opposed done).unique
  obtain ⟨ordered, perm, all⟩ := oneForEach_upsertFactionConflicts done
  obtain ⟨rowMirrors, mirrored⟩ := exists_of_forall₂ all
  simp only [listedLive, Db.live, ← finds]
  cases search : (message.conflicts.getD []).find? fun conflict =>
      states.findFactionId conflict.faction1.name = some factionId ∧
        states.findFactionId conflict.faction2.name = some opponentFactionId with
  | none =>
      have absent : db'.conflictRow systemId factionId (some opponentFactionId) = none := by
        refine Option.eq_none_iff_forall_not_mem.mpr fun row found => ?_
        obtain ⟨member, key⟩ := (rowAt_eq_some unique).mp found
        have here : row.systemId = systemId := congrArg Prod.fst key
        obtain ⟨conflict, listed, mirrors⟩ := rowMirrors row
          (perm.mem_iff.mpr (List.mem_filter.mpr ⟨member, decide_eq_true here⟩))
        have other := List.find?_eq_none.mp search conflict (List.mem_filter.mp listed).1
        exact other (decide_eq_true ((mirrors.key_eq_iff here).mp key))
      rw [absent]
      rfl
  | some conflict =>
      have matched := List.find?_some search
      have named := of_decide_eq_true matched
      have resolves : states.resolves conflict = true := by
        rw [Db.resolves, named.1, named.2]
        rfl
      obtain ⟨row, inOrdered, mirrors⟩ := mirrored conflict
        (List.mem_filter.mpr ⟨List.mem_of_find?_eq_some search, resolves⟩)
      obtain ⟨inRows, here⟩ := List.mem_filter.mp (perm.mem_iff.mp inOrdered)
      have found : db'.conflictRow systemId factionId (some opponentFactionId) = some row :=
        (rowAt_eq_some unique).mpr
          ⟨inRows, (mirrors.key_eq_iff (of_decide_eq_true here)).mpr named⟩
      rw [found]
      simp only [liveConflict, Option.bind_some, Option.bind_eq_bind, mirrors.type, mirrors.status]

/-- The conflicts of other systems are found as before. -/
theorem live_of_filter {systemId system : Uuid} (opposed : db.Opposed) (opposed' : db'.Opposed)
    (kept : (db'.factionConflicts.rows.filter fun row => row.systemId ≠ systemId) =
      db.factionConflicts.rows.filter fun row => row.systemId ≠ systemId)
    (elsewhere : system ≠ systemId) (factionId opponentFactionId : Uuid) :
    db'.live system factionId opponentFactionId = db.live system factionId opponentFactionId := by
  refine congrArg liveConflict (Option.ext fun row => ?_)
  have stays : ∀ (rows : List (FactionConflictRow K)),
      (row ∈ rows ∧ row.key = (system, factionId, some opponentFactionId)) ↔
        (row ∈ rows.filter fun row => row.systemId ≠ systemId) ∧
          row.key = (system, factionId, some opponentFactionId) := by
    intro rows
    refine and_congr_left fun key => ?_
    have here : row.systemId = system := congrArg Prod.fst key
    simp [here, elsewhere]
  rw [Db.conflictRow, Db.conflictRow, rowAt_eq_some opposed.unique,
    rowAt_eq_some opposed'.unique, stays, kept, ← stays]

/-- The conflicts after the factions of a message. -/
theorem live_processFactionsData {message : SystemMessage K} {systemId : Uuid}
    (opposed : db.Opposed) (done : processFactionsData env message systemId db = .ok db')
    (system factionId opponentFactionId : Uuid) : db'.live system factionId opponentFactionId =
      if message.factions.getD [] ≠ [] ∧ systemId = system then
        listedLive env message db factionId opponentFactionId
      else db.live system factionId opponentFactionId := by
  have opposed' := opposed_processFactionsData opposed done
  by_cases somebody : message.factions.getD [] ≠ []
  · by_cases here : systemId = system
    · rw [if_pos ⟨somebody, here⟩, ← here]
      obtain ⟨nobody, -⟩ | ⟨-, stored, factions, present, cleaned, synced, states, upserted,
        presence, cleanup, sync, state, conflicts⟩ := of_processFactionsData done
      · exact absurd nobody somebody
      · refine live_upsertFactionConflicts ?_ (fun name => ?_) conflicts factionId opponentFactionId
        · refine opposed_congr ?_ opposed
          rw [frame_upsertFactionStates state, frame_syncSystemControllingFaction sync,
            frame_cleanupFactionStates cleanup, frame_upsertSystemFactions presence,
            frame_upsertFactions upserted]
        · rw [← findFactionId_upsertFactions upserted name, frame_upsertFactionStates state,
            frame_syncSystemControllingFaction sync, frame_cleanupFactionStates cleanup,
            frame_upsertSystemFactions presence]
          rfl
    · rw [if_neg fun both => here both.2]
      exact live_of_filter opposed opposed'
        (mirrors_processFactionsData somebody done).2.2.2.2 (Ne.symm here) _ _
  · obtain ⟨-, rfl⟩ | ⟨somebody', -⟩ := of_processFactionsData done
    · rw [if_neg fun both => somebody both.1]
    · exact absurd somebody' somebody

/-- **What is live after a transaction** is what the message lists, or what was stored. -/
theorem live_processMessage {message : JournalMessage K} (opposed : db.Opposed)
    (done : processMessage env message db = .ok db') (systemId factionId opponentFactionId : Uuid) :
    db'.live systemId factionId opponentFactionId =
      liveAfter env message db systemId factionId opponentFactionId := by
  have full : ∀ message : FullSystemMessage K, processMessage env message.toJournal db = .ok db' →
      db'.live systemId factionId opponentFactionId =
        if message.system.factions.getD [] ≠ [] ∧ systemIdOf env message.system db = systemId then
          listedLive env message.system db factionId opponentFactionId
        else db.live systemId factionId opponentFactionId := by
    intro message done
    obtain ⟨dropped, rfl⟩ | ⟨-, afterSystem, system, afterPowers, afterFactions, upserted, powers,
      factions, station⟩ := of_processMessage done
    · rw [if_neg]
      simp only [shouldUpsertSystem, Bool.or_eq_false_iff] at dropped
      simp only [not_and, ne_eq]
      exact fun somebody => absurd (by simpa using dropped.1.2) somebody
    · have kept : afterPowers.factionConflicts.rows.map FactionConflictRow.core =
          db.factionConflicts.rows.map FactionConflictRow.core := by
        rw [core_processPowerplayData powers, frame_upsertSystem upserted]
      have sameFactions : afterPowers.factions = db.factions := by
        rw [frame_processPowerplayData powers, frame_upsertSystem upserted]
      have sameListed : listedLive env message.system afterPowers factionId opponentFactionId =
          listedLive env message.system db factionId opponentFactionId := by
        have resolved : ∀ name, resolvedId env message.system afterPowers name =
            resolvedId env message.system db name := fun name => by
          rw [resolvedId, resolvedId, Db.findFactionId, sameFactions]
          rfl
        simp only [listedLive, resolved]
      have before : afterPowers.live systemId factionId opponentFactionId =
          db.live systemId factionId opponentFactionId := live_congr kept _ _ _
      have after : db'.live systemId factionId opponentFactionId =
          afterFactions.live systemId factionId opponentFactionId :=
        live_congr (onlyStationAndFaction_upsertStationOf station).conflicts _ _ _
      rw [after, live_processFactionsData (opposed_congr kept opposed) factions,
        systemId_upsertSystem upserted, sameListed, before]
  cases processed_of_processMessage done with
  | full message done => cases message with | fsdJump | location => exact full _ done
  | docked message afterSystem row upserted station =>
      refine live_congr ?_ _ _ _
      rw [(onlyStationAndFaction_upsertStationFromDocked station).conflicts,
        frame_upsertSystem upserted]
  | unused message dropped same =>
      obtain rfl := same
      rfl

/-! ## Both sides -/

/-- A side is told of the change of what is live for it, and of nothing else. -/
theorem toldSide_iff {message : JournalMessage K} (opposed : db.Opposed)
    (done : processMessage env message db = .ok db') (systemId factionId opponentFactionId : Uuid)
    (lifecycle : FactionStateLifecycle) :
    ToldSide systemId factionId opponentFactionId lifecycle db db' ↔
      ToldMove lifecycle (db.live systemId factionId opponentFactionId)
        (db'.live systemId factionId opponentFactionId) := by
  rw [← exists_mem_conflictSignals]
  refine exists_congr fun type => ?_
  obtain ⟨inserted, grown, -⟩ := appends_processMessage done
  have follows : Follows systemId factionId (some opponentFactionId) type db db' :=
    follows_processMessage opposed done
  rw [Follows, Db.signals, Db.signals, grown, List.map_append, List.filterMap_append,
    List.append_cancel_left_eq] at follows
  rw [Db.newSignals, insertedEvents, grown, List.drop_left, follows]
  rfl

/-- **Both sides of a conflict are told exactly when both sides move.** -/
theorem both_sides_told_iff {message : JournalMessage K} (reachable : WorkerReachable db)
    (done : processMessage env message db = .ok db') (systemId factionId opponentFactionId : Uuid) :
    TellsBothSides systemId factionId opponentFactionId db db' ↔
      BothSidesMove (db.live systemId factionId opponentFactionId)
        (db.live systemId opponentFactionId factionId)
        (liveAfter env message db systemId factionId opponentFactionId)
        (liveAfter env message db systemId opponentFactionId factionId) := by
  have opposed := opposed_of_workerReachable reachable
  have told := toldSide_iff opposed done systemId
  have going : ∀ factionId opponentFactionId,
      (db'.live systemId factionId opponentFactionId).map Prod.snd ≠ some .ended :=
    fun _ _ => snd_liveConflict_ne_ended _
  rw [← live_processMessage opposed done, ← live_processMessage opposed done]
  constructor
  · intro tells
    refine ⟨fun same => ?_, fun other gone gone' => ?_, fun other goes => ?_⟩
    · obtain ⟨first, second⟩ := tells.unchanged same
      rw [told, not_toldMove_ended (going _ _)] at first second
      exact ⟨first, second⟩
    · obtain ⟨lifecycle, -, first, second⟩ := tells.changed other
      rw [told, gone, toldMove_none] at first
      rw [told, gone', toldMove_none] at second
      exact ⟨first.2, second.2⟩
    · obtain ⟨lifecycle, new, first, second⟩ := tells.changed other
      have live : lifecycle ≠ .ended := by
        rintro rfl
        obtain ⟨gone, gone', -⟩ | ⟨type, here | here⟩ := new
        · simp [gone, gone'] at goes
        · exact going _ _ (by rw [here, Option.map_some])
        · exact going _ _ (by rw [here, Option.map_some])
      rw [told, toldMove_of_ne_ended live] at first second
      exact ⟨first.1, second.1, lifecycle, first.2, second.2⟩
  · intro moves
    refine ⟨fun other => ?_, fun same => ?_⟩
    · by_cases goes : (db'.live systemId factionId opponentFactionId).isSome ∨
          (db'.live systemId opponentFactionId factionId).isSome
      · obtain ⟨apart, apart', lifecycle, first, second⟩ := moves.begun other goes
        have live : lifecycle ≠ .ended := by
          rintro rfl
          exact going _ _ first
        refine ⟨lifecycle, .inr ?_, (told _ _ _).mpr ((toldMove_of_ne_ended live).mpr ⟨apart, first⟩),
          (told _ _ _).mpr ((toldMove_of_ne_ended live).mpr ⟨apart', second⟩)⟩
        obtain ⟨⟨type, _⟩, here, rfl⟩ := Option.map_eq_some_iff.mp first
        exact ⟨type, .inl here⟩
      · simp only [not_or, Bool.not_eq_true, Option.isSome_eq_false_iff, Option.isNone_iff_eq_none]
          at goes
        obtain ⟨gone, gone'⟩ := goes
        obtain ⟨had, had'⟩ := moves.gone other gone gone'
        refine ⟨.ended, .inl ⟨gone, gone', rfl⟩, ?_, ?_⟩
        · rw [told, gone, toldMove_none]
          exact ⟨rfl, had⟩
        · rw [told, gone', toldMove_none]
          exact ⟨rfl, had'⟩
    · rw [told, told, not_toldMove_ended (going _ _), not_toldMove_ended (going _ _)]
      exact moves.unchanged same

end Transaction

/-! ## Sample runs -/

theorem both_sides_told_iff_sample : ∃ db' : Db asciiPlatform,
    processMessage (sampleEnv 1) (.fsdJump (sampleWar 1 "")) Db.empty = .ok db' ∧
      (TellsBothSides (.ofNat 1000) (.ofNat 1100) (.ofNat 1101) Db.empty db' ↔
        BothSidesMove none none
          (liveAfter (sampleEnv 1) (.fsdJump (sampleWar 1 "")) (Db.empty : Db asciiPlatform)
            (.ofNat 1000) (.ofNat 1100) (.ofNat 1101))
          (liveAfter (sampleEnv 1) (.fsdJump (sampleWar 1 "")) (Db.empty : Db asciiPlatform)
            (.ofNat 1000) (.ofNat 1101) (.ofNat 1100))) := by
  have observed : (processMessage (P := asciiPlatform) (sampleEnv 1)
      (.fsdJump (sampleWar 1 "")) Db.empty).toOption.map
        (fun db' => db'.factionConflicts.rows.length) = some 1 := by decide +kernel
  obtain ⟨db', done, -⟩ := exists_ok_of_toOption_map observed
  exact ⟨db', done, both_sides_told_iff .start done (.ofNat 1000) (.ofNat 1100) (.ofNat 1101)⟩

/-- A war of A with B begins, and a subscriber of B is told nothing of it. -/
theorem sampleWar_is_not_told_to_opponent : ∃ db' : Db asciiPlatform,
    WorkerReachable (Db.empty : Db asciiPlatform) ∧
      processMessage (sampleEnv 1) (.fsdJump (sampleWar 1 "")) Db.empty = .ok db' ∧
      ¬ SameConflict (.ofNat 1000) (.ofNat 1100) (.ofNat 1101) Db.empty db' ∧
      (∀ lifecycle, ¬ ToldSide (.ofNat 1000) (.ofNat 1101) (.ofNat 1100) lifecycle Db.empty db') ∧
      ¬ TellsBothSides (.ofNat 1000) (.ofNat 1100) (.ofNat 1101) Db.empty db' := by
  have observed : (processMessage (P := asciiPlatform) (sampleEnv 1)
      (.fsdJump (sampleWar 1 "")) Db.empty).toOption.map (fun db' =>
        (db'.live (.ofNat 1000) (.ofNat 1100) (.ofNat 1101),
          [.war, .civilWar, .election].all fun type => Db.newSignals
            (watchConflict (.ofNat 1000) (.ofNat 1101) (some (.ofNat 1100)) type) Db.empty db' = []))
      = some (some (.war, .active), true) := by decide +kernel
  obtain ⟨db', done, both⟩ := exists_ok_of_toOption_map observed
  obtain ⟨live, silent⟩ := Prod.mk.inj both
  have changed : ¬ SameConflict (.ofNat 1000) (.ofNat 1100) (.ofNat 1101) Db.empty db' := by
    intro same
    obtain had | had := (same (.war, .active)).mpr (.inl live)
    · cases had
    · cases had
  have untold : ∀ lifecycle,
      ¬ ToldSide (.ofNat 1000) (.ofNat 1101) (.ofNat 1100) lifecycle Db.empty db' := by
    rintro lifecycle ⟨type, told⟩
    have nothing := List.all_eq_true.mp silent type (by cases type <;> simp)
    rw [of_decide_eq_true nothing] at told
    cases told
  refine ⟨db', .start, done, changed, untold, fun tells => ?_⟩
  obtain ⟨lifecycle, -, -, told⟩ := tells.changed changed
  exact untold lifecycle told

end EliteHubVault
