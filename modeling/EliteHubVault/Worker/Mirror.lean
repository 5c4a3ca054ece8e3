import EliteHubVault.Library.Correspondence
import EliteHubVault.Library.Runs
import EliteHubVault.Lifecycle.Subscriber
import EliteHubVault.Lifecycle.WorkerSignals
import EliteHubVault.Worker.Replay

/-!
# The faction tables mirror the message

After a message that lists factions, its system has one row of presence and one row of states
for each of them, and one conflict for each conflict of the message between known factions.
Other systems keep their rows, with one exception: when the message makes a station disappear,
the conflicts of whatever system lose their references to it (`withoutStations`).
-/

set_option autoImplicit false
set_option linter.unusedSectionVars false

namespace EliteHubVault

open Library

variable {K : Type} [Field K] [LinearOrder K] {P : Platform K} {env : TxEnv} {db db' : Db P}

/-! ## Rows and what they mirror -/

/-- The row says that this faction is present. -/
def SystemFactionRow.Mirrors (db : Db P) (row : SystemFactionRow) (faction : FactionElement K) :
    Prop :=
  db.findFactionId faction.name = some row.factionId

/-- The row has what the message says about this faction. -/
structure FactionStateRow.Mirrors (db : Db P) (row : FactionStateRow K)
    (faction : FactionElement K) : Prop where
  factionId : db.findFactionId faction.name = some row.factionId
  influence : row.influence = faction.influence
  happiness : (mapHappiness P (some faction.happiness)).nullable = some row.happiness
  activeStates : mapFactionStates P faction.activeStates = some row.activeStates
  recoveringStates : mapFactionStates P faction.recoveringStates = some row.recoveringStates
  pendingStates : mapFactionStates P faction.pendingStates = some row.pendingStates
  activeStatesRaw : row.activeStatesRaw = faction.activeStates.getD []
  recoveringStatesRaw : row.recoveringStatesRaw = faction.recoveringStates.getD []
  pendingStatesRaw : row.pendingStatesRaw = faction.pendingStates.getD []

/-- The row has what the message says about this conflict. -/
structure FactionConflictRow.Mirrors (db : Db P) (row : FactionConflictRow K)
    (conflict : Conflict K) : Prop where
  factionId : db.findFactionId conflict.faction1.name = some row.factionId
  opponentFactionId : ∃ opponentFactionId, row.opponentFactionId = some opponentFactionId ∧
    db.findFactionId conflict.faction2.name = some opponentFactionId
  type : (mapFactionConflictType P (some conflict.warType)).required = some row.type
  status : (mapFactionConflictStatus P (some conflict.status)).required = some row.status
  factionWonDays : row.factionWonDays = conflict.faction1.wonDays
  opponentWonDays : row.opponentWonDays = conflict.faction2.wonDays
  factionStake : row.factionStake = some conflict.faction1.stake
  opponentStake : row.opponentStake = some conflict.faction2.stake

/-- The faction is stored, or the message lists it. -/
def Db.knows (message : SystemMessage K) (name : String) (db : Db P) : Bool :=
  (db.findFactionId name).isSome ||
    (message.factions.getD []).any fun faction => P.citext faction.name = P.citext name

/-- The conflicts of the message between known factions. -/
def Db.knownConflicts (message : SystemMessage K) (db : Db P) : List (Conflict K) :=
  (message.conflicts.getD []).filter fun conflict =>
    db.knows message conflict.faction1.name && db.knows message conflict.faction2.name

/-- The tables of the system have one row for each element of the message. -/
structure MirrorsFactions (message : SystemMessage K) (systemId : Uuid) (before after : Db P) :
    Prop where
  systemFactions : OneForEach (SystemFactionRow.Mirrors after)
    (after.systemFactions.rows.filter fun row => row.systemId = systemId)
    (message.factions.getD [])
  factionStates : OneForEach (FactionStateRow.Mirrors after)
    (after.factionStates.rows.filter fun row => row.systemId = systemId)
    (message.factions.getD [])
  factionConflicts : OneForEach (FactionConflictRow.Mirrors after)
    (after.factionConflicts.rows.filter fun row => row.systemId = systemId)
    (before.knownConflicts message)

/-- The conflict without its references to these stations. -/
def FactionConflictRow.withoutStations (deleted : List Uuid) (row : FactionConflictRow K) :
    FactionConflictRow K :=
  { row with
    factionStakeStationId := row.factionStakeStationId.filter fun id => id ∉ deleted
    opponentStakeStationId := row.opponentStakeStationId.filter fun id => id ∉ deleted }

/-- Other systems keep their rows, apart from references to deleted stations. A station that
has the id of a deleted one drew it anew. -/
structure OthersKept (env : TxEnv) (systemId : Uuid) (before after : Db P) : Prop where
  systemFactions : (after.systemFactions.rows.filter fun row => row.systemId ≠ systemId) =
    before.systemFactions.rows.filter fun row => row.systemId ≠ systemId
  factionStates : (after.factionStates.rows.filter fun row => row.systemId ≠ systemId) =
    before.factionStates.rows.filter fun row => row.systemId ≠ systemId
  factionConflicts : ∃ deleted : List Uuid,
    (∀ station ∈ after.stations.rows, station.id ∈ deleted →
      station.id = env.randomUuid .upsertStation 0) ∧
    (after.factionConflicts.rows.filter fun row => row.systemId ≠ systemId) =
      (before.factionConflicts.rows.filter fun row => row.systemId ≠ systemId).map
        (FactionConflictRow.withoutStations deleted)

/-- The factions that are present in a system. -/
def Db.membership (systemId : Uuid) (db : Db P) : List Uuid :=
  (db.systemFactions.rows.filter fun row => row.systemId = systemId).map SystemFactionRow.factionId

/-- An event of the presence of a faction. -/
def presenceEvent (systemId : Uuid) (change : String) (factionId : Uuid) : OutboxInsert K where
  eventType := "factionPresenceChanged"
  aggregateId := some systemId
  payload := .object [("factionId", .ofUuid factionId), ("systemId", .ofUuid systemId),
    ("change", .string change)]

/-- The event, if it is one of presence. -/
def presenceChanged? (event : OutboxInsert K) : Option (OutboxInsert K) :=
  if event.eventType = "factionPresenceChanged" then some event else none

/-- The events of presence: each faction that entered, then each that left. -/
def PresenceTold (systemId : Uuid) (before after : Db P) : Prop :=
  after.signals presenceChanged? = before.signals presenceChanged? ++
    ((after.membership systemId).filter fun factionId => factionId ∉ before.membership systemId).map
      (presenceEvent systemId "entered") ++
    ((before.membership systemId).filter fun factionId => factionId ∉ after.membership systemId).map
      (presenceEvent systemId "left")

/-! ## The presence of factions -/

theorem mem_membership {systemId factionId : Uuid} :
    factionId ∈ db.membership systemId ↔
      (systemId, factionId) ∈ db.systemFactions.rows.map SystemFactionRow.key := by
  simp only [Db.membership, SystemFactionRow.key, List.mem_map, List.mem_filter,
    decide_eq_true_eq, Prod.mk.injEq]
  exact exists_congr fun row => by tauto

/-- A faction is in a system once. -/
theorem nodup_membership (systemId : Uuid) : (db.membership systemId).Nodup := by
  refine List.pairwise_map.mpr ((db.systemFactions.unique.filter _).imp_of_mem ?_)
  intro row row' member member' apart same
  have here : row.systemId = systemId := by simpa using (List.mem_filter.mp member).2
  have here' : row'.systemId = systemId := by simpa using (List.mem_filter.mp member').2
  exact apart (Prod.ext (here.trans here'.symm) same)

theorem ignores_presenceChanged? {eventType : String} (other : eventType ≠ "factionPresenceChanged") :
    Ignores (K := K) presenceChanged? eventType := by
  rintro event rfl
  exact if_neg other

/-- The row that the upsert proposes for a faction. -/
def presentFaction (env : TxEnv) (systemId factionId : Uuid) : SystemFactionRow :=
  { systemId, factionId, createdAt := env.now, updatedAt := env.now }

theorem filterMap_presenceChanged? (systemId : Uuid) (change : String) (factionIds : List Uuid) :
    (factionIds.map (presenceEvent (K := K) systemId change)).filterMap presenceChanged? =
      factionIds.map (presenceEvent systemId change) := by
  rw [List.filterMap_map, ← List.filterMap_eq_map]
  refine List.filterMap_congr fun factionId _ => ?_
  simp [presenceChanged?, presenceEvent]

/-- The first statement: rows for the factions that are new. -/
theorem insertOrSkip_presentFactions {systemId : Uuid} {factionIds : List Uuid}
    (distinct : factionIds.Nodup) :
    insertOrSkip SystemFactionRow.key (factionIds.map (presentFaction env systemId))
        db.systemFactions.rows =
      (db.systemFactions.rows ++
        (factionIds.filter fun factionId => factionId ∉ db.membership systemId).map
          (presentFaction env systemId),
        ((factionIds.filter fun factionId => factionId ∉ db.membership systemId).map
          (presentFaction env systemId)).map .insert) := by
  have keys : ((factionIds.map (presentFaction env systemId)).map SystemFactionRow.key).Nodup := by
    rw [List.map_map]
    exact distinct.map fun factionId factionId' same => congrArg Prod.snd same
  have taken : ∀ factionId, (presentFaction env systemId factionId).key ∈
      db.systemFactions.rows.map SystemFactionRow.key ↔ factionId ∈ db.membership systemId :=
    fun factionId => mem_membership.symm
  simp only [insertOrSkip_of_distinct _ _ _ keys, List.filter_map, Function.comp_def, taken]

theorem entered_presentFactions (systemId : Uuid) (factionIds : List Uuid) :
    ((factionIds.map (presentFaction env systemId)).map Change.insert).flatMap
        (enqueueFactionPresenceChangedEvent (K := K)) =
      factionIds.map (presenceEvent systemId "entered") := by
  rw [List.map_map, List.flatMap_map, List.map_eq_flatMap]
  rfl

theorem left_deletedRows {systemId : Uuid} {rows : List SystemFactionRow}
    (here : ∀ row ∈ rows, row.systemId = systemId) :
    (rows.map Change.delete).flatMap (enqueueFactionPresenceChangedEvent (K := K)) =
      (rows.map SystemFactionRow.factionId).map (presenceEvent systemId "left") := by
  rw [List.flatMap_map, List.map_map, List.map_eq_flatMap]
  refine List.flatMap_congr fun row member => ?_
  rw [← here row member]
  rfl

/-- **What the upsert of the presence does**: it adds the factions that are new, takes away
those that are not listed, and tells both. -/
theorem of_upsertSystemFactions {systemId : Uuid} {factionIds : List Uuid}
    (distinct : factionIds.Nodup)
    (done : upsertSystemFactions env systemId factionIds db = .ok db') :
    (db'.systemFactions.rows.filter fun row => row.systemId ≠ systemId) =
        (db.systemFactions.rows.filter fun row => row.systemId ≠ systemId) ∧
      db'.membership systemId =
        (db.membership systemId).filter (fun factionId => factionId ∈ factionIds) ++
          factionIds.filter (fun factionId => factionId ∉ db.membership systemId) ∧
      db'.signals presenceChanged? = db.signals presenceChanged? ++
        (factionIds.filter fun factionId => factionId ∉ db.membership systemId).map
          (presenceEvent systemId "entered") ++
        ((db.membership systemId).filter fun factionId => factionId ∉ factionIds).map
          (presenceEvent systemId "left") := by
  obtain ⟨middle, inserted, deleted⟩ := bind_eq_ok.mp done
  have proposed : (factionIds.map fun factionId =>
      ({ systemId, factionId, createdAt := env.now, updatedAt := env.now } : SystemFactionRow)) =
      factionIds.map (presentFaction env systemId) := rfl
  simp only [proposed, insertOrSkip_presentFactions distinct] at inserted
  have rows := (Db.of_writeSystemFactions (orFail_eq_ok.mp inserted)).1
  have rows' := (Db.of_writeSystemFactions (orFail_eq_ok.mp deleted)).1
  have told := @Db.signals_writeSystemFactions _ _ _ presenceChanged? _ _ _ _
    (orFail_eq_ok.mp inserted)
  have told' := @Db.signals_writeSystemFactions _ _ _ presenceChanged? _ _ _ _
    (orFail_eq_ok.mp deleted)
  have listed : ∀ factionId ∈ factionIds.filter fun factionId => factionId ∉ db.membership systemId,
      factionId ∈ factionIds := fun factionId member => (List.mem_filter.mp member).1
  generalize factionIds.filter (fun factionId => factionId ∉ db.membership systemId) = fresh at *
  rw [rows] at rows' told'
  simp only [deleteRows, List.filter_append, List.map_append, List.flatMap_append,
    List.filterMap_append] at rows' told'
  have noneElsewhere : ((fresh.map (presentFaction env systemId)).filter
      fun row => row.systemId ≠ systemId) = [] := by
    simp [List.filter_map, Function.comp_def, presentFaction]
  have noneLeaves : ((fresh.map (presentFaction env systemId)).filter
      fun row => row.systemId = systemId ∧ row.factionId ∉ factionIds) = [] := by
    refine List.filter_eq_nil_iff.mpr fun row member => ?_
    obtain ⟨factionId, inFresh, rfl⟩ := List.mem_map.mp member
    simp [presentFaction, listed factionId inFresh]
  have allHere : ((fresh.map (presentFaction env systemId)).filter
      fun row => !decide (row.systemId = systemId ∧ row.factionId ∉ factionIds)) =
        fresh.map (presentFaction env systemId) := by
    refine List.filter_eq_self.mpr fun row member => ?_
    obtain ⟨factionId, inFresh, rfl⟩ := List.mem_map.mp member
    simp [presentFaction, listed factionId inFresh]
  rw [allHere] at rows'
  refine ⟨?_, ?_, ?_⟩
  · rw [rows', List.filter_append, noneElsewhere, List.append_nil, List.filter_filter]
    refine List.filter_congr fun row _ => ?_
    by_cases here : row.systemId = systemId <;> simp [here]
  · have inserted : (((fresh.map (presentFaction env systemId)).filter
        fun row => row.systemId = systemId).map SystemFactionRow.factionId) = fresh := by
      simp [List.filter_map, Function.comp_def, presentFaction]
    rw [Db.membership, rows', List.filter_append, List.map_append, inserted, Db.membership,
      List.filter_map, List.filter_filter, List.filter_filter]
    refine congrArg (fun kept => List.map SystemFactionRow.factionId kept ++ fresh)
      (List.filter_congr fun row _ => ?_)
    by_cases here : row.systemId = systemId <;> simp [here]
  · rw [told', told, entered_presentFactions, filterMap_presenceChanged?, noneLeaves, List.map_nil,
      List.flatMap_nil, List.filterMap_nil, List.append_nil, left_deletedRows fun row member => by
        have gone := (List.mem_filter.mp member).2
        simp only [decide_eq_true_eq] at gone
        exact gone.1, filterMap_presenceChanged?, Db.membership, List.filter_map, List.filter_filter]
    refine congrArg (fun gone => _ ++ List.map _ (List.map SystemFactionRow.factionId gone))
      (List.filter_congr fun row _ => ?_)
    by_cases here : row.systemId = systemId <;> simp [here]

/-- The presence that is told is the difference of the memberships. -/
theorem presenceTold_upsertSystemFactions {systemId : Uuid} {factionIds : List Uuid}
    (distinct : factionIds.Nodup)
    (done : upsertSystemFactions env systemId factionIds db = .ok db') :
    (∀ factionId, factionId ∈ db'.membership systemId ↔ factionId ∈ factionIds) ∧
      PresenceTold systemId db db' := by
  obtain ⟨-, membership, told⟩ := of_upsertSystemFactions distinct done
  have members : ∀ factionId, factionId ∈ db'.membership systemId ↔ factionId ∈ factionIds := by
    intro factionId
    rw [membership, List.mem_append, List.mem_filter, List.mem_filter]
    simp only [decide_eq_true_eq]
    tauto
  have entered : ((db'.membership systemId).filter
      fun factionId => factionId ∉ db.membership systemId) =
        factionIds.filter fun factionId => factionId ∉ db.membership systemId := by
    rw [membership, List.filter_append, List.filter_filter, List.filter_filter,
      List.filter_eq_nil_iff.mpr, List.nil_append]
    · exact List.filter_congr fun factionId _ => Bool.and_self _
    · intro factionId member
      simp [member]
  have left : ((db.membership systemId).filter
      fun factionId => factionId ∉ db'.membership systemId) =
        (db.membership systemId).filter fun factionId => factionId ∉ factionIds :=
    List.filter_congr fun factionId _ => by simp only [members]
  refine ⟨members, ?_⟩
  rw [PresenceTold, told, entered, left]

/-! ## The references to stations -/

/-- Stations with these ids were deleted, and the conflicts lost their references to them. -/
structure ClearsStakes (env : TxEnv) (deleted : List Uuid) (db db' : Db P) : Prop where
  conflicts : db'.factionConflicts.rows =
    db.factionConflicts.rows.map (FactionConflictRow.withoutStations deleted)
  gone : ∀ station ∈ db'.stations.rows, station.id ∈ deleted →
    station.id = env.randomUuid .upsertStation 0
  ids : ∀ station ∈ db'.stations.rows, station.id ∈ db.stations.rows.map StationRow.id ∨
    station.id = env.randomUuid .upsertStation 0

theorem FactionConflictRow.withoutStations_nil (row : FactionConflictRow K) :
    row.withoutStations [] = row := by
  have all : ∀ reference : Option Uuid, (reference.filter fun id => id ∉ ([] : List Uuid)) =
      reference := by
    intro reference
    cases reference <;> rfl
  rw [withoutStations, all, all]

theorem FactionConflictRow.withoutStations_append (deleted deleted' : List Uuid)
    (row : FactionConflictRow K) : row.withoutStations (deleted ++ deleted') =
      (row.withoutStations deleted).withoutStations deleted' := by
  simp [withoutStations, Option.filter_filter]

theorem filter_notMem (deleted : List Uuid) (reference : Option Uuid) :
    (reference.filter fun id => id ∉ deleted) =
      if reference.any fun id => id ∈ deleted then none else reference := by
  cases reference with
  | none => rfl
  | some id => by_cases gone : id ∈ deleted <;> simp [Option.filter_some, gone]

/-- The two statements of the foreign keys. -/
theorem FactionConflictRow.clear_references (deleted : List Uuid) (row : FactionConflictRow K) :
    (let first := if row.factionStakeStationId.any fun id => id ∈ deleted then
        { row with factionStakeStationId := none } else row
      if first.opponentStakeStationId.any fun id => id ∈ deleted then
        { first with opponentStakeStationId := none } else first) =
      row.withoutStations deleted := by
  simp only [withoutStations, filter_notMem]
  by_cases faction : row.factionStakeStationId.any fun id => id ∈ deleted <;>
    by_cases opponent : row.opponentStakeStationId.any fun id => id ∈ deleted <;>
    simp only [faction, opponent, if_true, if_false, Bool.false_eq_true]

theorem ClearsStakes.of_eq (conflicts : db'.factionConflicts = db.factionConflicts)
    (ids : ∀ station ∈ db'.stations.rows, station.id ∈ db.stations.rows.map StationRow.id ∨
      station.id = env.randomUuid .upsertStation 0) : ClearsStakes env [] db db' where
  conflicts := by
    rw [conflicts]
    exact (List.map_id'' (fun row => row.withoutStations_nil) _).symm
  gone station _ member := nomatch member
  ids := ids

theorem ClearsStakes.trans {middle : Db P} {deleted deleted' : List Uuid}
    (first : ClearsStakes env deleted db middle) (second : ClearsStakes env deleted' middle db') :
    ClearsStakes env (deleted ++ deleted') db db' where
  conflicts := by
    rw [second.conflicts, first.conflicts, List.map_map]
    exact List.map_congr_left fun row _ => (row.withoutStations_append deleted deleted').symm
  gone station member here := by
    rcases List.mem_append.mp here with early | late
    · rcases second.ids station member with old | drawn
      · obtain ⟨before, inMiddle, same⟩ := List.mem_map.mp old
        rw [← same] at early ⊢
        exact first.gone before inMiddle early
      · exact drawn
    · exact second.gone station member late
  ids station member := by
    rcases second.ids station member with old | drawn
    · obtain ⟨before, inMiddle, same⟩ := List.mem_map.mp old
      rw [← same]
      exact first.ids before inMiddle
    · exact .inr drawn

/-- Deleting stations sets the references to them to null. -/
theorem clearsStakes_deleteStations {where_ : StationRow K → Bool}
    (done : db.deleteStations env.now where_ = some db') :
    ClearsStakes env ((db.stations.rows.filter where_).map StationRow.id) db db' := by
  obtain ⟨middle, first, second⟩ := Option.bind_eq_some_iff.mp done
  obtain ⟨rows, frame⟩ := Db.of_writeFactionConflicts first
  obtain ⟨rows', frame'⟩ := Db.of_writeFactionConflicts second
  have stations : db'.stations.rows = db.stations.rows.filter fun row => !where_ row := by
    rw [frame', frame]
    rfl
  refine ⟨?_, fun station member here => ?_, fun station member => .inl ?_⟩
  · rw [rows', rows, updateRows, updateRows, List.map_map]
    refine List.map_congr_left fun row _ => ?_
    exact row.clear_references _
  · rw [stations] at member
    obtain ⟨kept, stays⟩ := List.mem_filter.mp member
    obtain ⟨other, removed, same⟩ := List.mem_map.mp here
    obtain ⟨inRows, matched⟩ := List.mem_filter.mp removed
    have distinct : (db.stations.rows.map StationRow.id).Nodup :=
      List.pairwise_map.mpr (db.stations.unique.imp fun apart same => apart (.inl same))
    obtain rfl := List.inj_on_of_nodup_map distinct inRows kept same
    simp [matched] at stays
  · rw [stations] at member
    exact List.mem_map_of_mem (List.mem_filter.mp member).1

theorem StationSteps.clearsStakes (steps : StationSteps env db db') :
    ∃ deleted, ClearsStakes env deleted db db' := by
  induction steps with
  | refl => exact ⟨[], .of_eq rfl fun station member => .inl (List.mem_map_of_mem member)⟩
  | tail _ step ih =>
      obtain ⟨deleted, clears⟩ := ih
      cases step with
      | deleted done => exact ⟨_, clears.trans (clearsStakes_deleteStations done)⟩
      | written table ids => exact ⟨_, clears.trans (.of_eq rfl ids)⟩

/-! ## The names of the message -/

theorem citext_of_storedAs {rows : List FactionRow} {name stored : String} {id : Uuid}
    (found : storedAs P rows name = some (id, stored)) : P.citext stored = P.citext name := by
  obtain ⟨row, first, same⟩ := Option.map_eq_some_iff.mp found
  have matched := List.find?_some first
  rw [decide_eq_true_eq] at matched
  rw [← matched]
  exact congrArg (fun identity => P.citext identity.2) same.symm

/-- Two names of one faction differ in case at most. -/
theorem citext_of_findFactionId {name name' : String} {id : Uuid}
    (found : db.findFactionId name = some id) (found' : db.findFactionId name' = some id) :
    P.citext name = P.citext name' := by
  obtain ⟨row, first, same⟩ := Option.map_eq_some_iff.mp found
  obtain ⟨row', first', same'⟩ := Option.map_eq_some_iff.mp found'
  have distinct : (db.factions.rows.map FactionRow.id).Nodup :=
    List.pairwise_map.mpr (db.factions.unique.imp fun apart same => apart (.inl same))
  obtain rfl := List.inj_on_of_nodup_map distinct (List.mem_of_find?_eq_some first)
    (List.mem_of_find?_eq_some first') (same.trans same'.symm)
  have matched := List.find?_some first
  have matched' := List.find?_some first'
  rw [decide_eq_true_eq] at matched matched'
  exact matched.symm.trans matched'

/-- The returned factions are those that the names find, one by one. -/
theorem forall₂_of_stored {rows : List FactionRow} {factions : List FactionRow}
    {elements : List (FactionElement K)}
    (stored : (factions.map fun row => some row.identity) =
      (elements.map FactionElement.messageFaction).map fun faction => storedAs P rows faction.name) :
    List.Forall₂ (fun row faction => storedAs P rows faction.name = some row.identity)
      factions elements := by
  rw [List.map_map, ← List.forall₂_eq_eq_eq] at stored
  exact (List.forall₂_map_right_iff.mp (List.forall₂_map_left_iff.mp stored)).imp
    fun row faction same => same.symm

/-- A name under which the map has an id is the name of the faction with this id. -/
theorem findFactionId_of_lookup {stored : Db P} {factions : List FactionRow}
    {elements : List (FactionElement K)} {name : String} {id : Uuid}
    (all : List.Forall₂ (fun row faction =>
      storedAs P stored.factions.rows faction.name = some row.identity) factions elements)
    (found : lookupFactionId (createFactionIdMap factions) name = .value id) :
    stored.findFactionId name = some id := by
  obtain ⟨row, member, identity⟩ := List.mem_map.mp (mem_of_lookupFactionId found)
  obtain ⟨faction, -, known⟩ := (exists_of_forall₂ all).1 row member
  rw [identity] at known
  rw [findFactionId_eq, storedAs_congr (citext_of_storedAs known), known]
  rfl

/-- Rows keyed by the factions of a message. -/
theorem oneForEach_factions {ρ : Type} (db : Db P) (factionId : ρ → Uuid)
    {relates : ρ → FactionElement K → Prop} {rows : List ρ} {factions : List (FactionElement K)}
    (distinctNames : (factions.map fun faction => P.citext faction.name).Nodup)
    (distinctIds : (rows.map factionId).Nodup)
    (named : ∀ row faction, relates row faction →
      db.findFactionId faction.name = some (factionId row))
    (present : ∀ faction ∈ factions, ∃ row ∈ rows, relates row faction)
    (only : ∀ row ∈ rows, ∃ faction ∈ factions,
      db.findFactionId faction.name = some (factionId row)) : OneForEach relates rows factions := by
  have unique : ∀ row ∈ rows, ∀ row' ∈ rows, ∀ faction : FactionElement K,
      db.findFactionId faction.name = some (factionId row) → relates row' faction → row = row' := by
    intro row member row' member' faction found related
    have same := found.symm.trans (named row' faction related)
    exact List.inj_on_of_nodup_map distinctIds member member' (Option.some.inj same)
  refine oneForEach_of distinctIds.of_map ?_ present (fun row member => ?_)
    fun row member row' member' faction _ related related' =>
      unique row member row' member' faction (named row faction related) related'
  · refine (List.pairwise_map.mp distinctNames).imp fun apart row related related' => apart ?_
    exact citext_of_findFactionId (named row _ related) (named row _ related')
  · obtain ⟨faction, listed, found⟩ := only row member
    obtain ⟨row', member', related⟩ := present faction listed
    rw [unique row member row' member' faction found related]
    exact ⟨faction, listed, related⟩

/-! ## States -/

/-- A row with the key of a proposed one that differs from it in nothing mirrors the faction. -/
theorem mirrors_of_parse {systemId : Uuid} {factionIdMap : OrderedMap String Uuid} {index : ℕ}
    {faction : FactionElement K} {row proposed : FactionStateRow K}
    (parsed : parseFactionStateInsert P env systemId factionIdMap index faction = some proposed)
    (named : db.findFactionId faction.name = some proposed.factionId)
    (sameKey : row.key = proposed.key) (settled : row.differs proposed = false) :
    row.Mirrors db faction := by
  simp only [parseFactionStateInsert, Option.bind_eq_bind, Option.bind_eq_some_iff,
    Option.pure_def, Option.some.injEq] at parsed
  obtain ⟨factionId, -, happiness, happy, -, -, active, activeStates, recovering, recoveringStates,
    pending, pendingStates, rfl⟩ := parsed
  simp only [FactionStateRow.differs, ne_eq, decide_eq_false_iff_not, not_or, not_not] at settled
  obtain ⟨rowHappiness, rowInfluence, rowActive, rowRecovering, rowPending, rowActiveRaw,
    rowRecoveringRaw, rowPendingRaw⟩ := settled
  have rowId : row.factionId = factionId := congrArg Prod.fst sameKey
  exact ⟨by rw [named, rowId], rowInfluence, by rw [happy, rowHappiness],
    by rw [activeStates, rowActive], by rw [recoveringStates, rowRecovering],
    by rw [pendingStates, rowPending], rowActiveRaw, rowRecoveringRaw, rowPendingRaw⟩

/-- The states of other systems are left alone by a statement on those of one system. -/
theorem filter_upsertFactionStates {systemId : Uuid} {factions : List (FactionElement K)}
    {factionIdMap : OrderedMap String Uuid}
    (done : upsertFactionStates env systemId factions factionIdMap db = .ok db') :
    (db'.factionStates.rows.filter fun row => row.systemId ≠ systemId) =
      db.factionStates.rows.filter fun row => row.systemId ≠ systemId := by
  simp only [upsertFactionStates, bind_eq_ok, orFail_eq_ok] at done
  obtain ⟨proposed, parsed, ⟨rows, changes⟩, upserted, written⟩ := done
  obtain ⟨rowsEq, -⟩ := Db.of_writeFactionStates written
  rw [rowsEq]
  refine filter_upsertRows upserted fun change member row mentioned => ?_
  have key := key_of_upsertRows (FactionStateRow.key_setExcluded (K := K)
    (env.newDate .upsertFactionStates)) upserted change member row mentioned
  obtain ⟨wanted, inProposed, same⟩ := List.mem_map.mp key
  obtain ⟨faction, -, index, found⟩ := (proposedStates_iff parsed).1 wanted inProposed
  have here : row.systemId = systemId :=
    (congrArg Prod.snd same).symm.trans (key_parseFactionStateInsert found).2.1
  simp [here]

theorem filter_cleanupFactionStates {systemId : Uuid} {factionIds : List Uuid}
    (done : cleanupFactionStates env systemId factionIds db = .ok db') :
    (db'.factionStates.rows.filter fun row => row.systemId ≠ systemId) =
      db.factionStates.rows.filter fun row => row.systemId ≠ systemId := by
  obtain ⟨rows, -⟩ := Db.of_writeFactionStates (orFail_eq_ok.mp done)
  rw [rows, deleteRows, List.filter_filter]
  refine List.filter_congr fun row _ => ?_
  by_cases here : row.systemId = systemId <;> simp [here]

/-- The states of the system are those of the message's factions. -/
theorem oneForEach_upsertFactionStates {systemId : Uuid} {factions : List (FactionElement K)}
    {rows : List FactionRow}
    (distinctNames : (factions.map fun faction => P.citext faction.name).Nodup)
    (distinctIds : (rows.map FactionRow.id).Nodup)
    (stored : List.Forall₂ (fun row faction =>
      storedAs P db.factions.rows faction.name = some row.identity) rows factions)
    (only : ∀ row ∈ db.factionStates.rows, row.systemId = systemId →
      row.factionId ∈ rows.map FactionRow.id)
    (done : upsertFactionStates env systemId factions (createFactionIdMap rows) db = .ok db') :
    OneForEach (FactionStateRow.Mirrors db)
      (db'.factionStates.rows.filter fun row => row.systemId = systemId) factions := by
  have settled := statesSettled_upsert distinctNames distinctIds only done
  simp only [upsertFactionStates, bind_eq_ok, orFail_eq_ok] at done
  obtain ⟨proposed, parsed, -⟩ := done
  have distinct : ((db'.factionStates.rows.filter fun row => row.systemId = systemId).map
      FactionStateRow.factionId).Nodup := by
    have keys := List.pairwise_map.mp (distinctFactionStates db')
    refine List.pairwise_map.mpr ((keys.filter _).imp_of_mem ?_)
    intro row row' member member' apart same
    have here : row.systemId = systemId := by simpa using (List.mem_filter.mp member).2
    have here' : row'.systemId = systemId := by simpa using (List.mem_filter.mp member').2
    exact apart (Prod.ext same (here.trans here'.symm))
  refine oneForEach_factions db FactionStateRow.factionId distinctNames distinct (fun row
    faction related => related.factionId) (fun faction listed => ?_) fun row member => ?_
  · obtain ⟨wanted, inProposed, index, found⟩ := (proposedStates_iff parsed).2 faction listed
    obtain ⟨row, inRows, sameKey, same⟩ := settled.listed env index faction wanted listed found
    have named := findFactionId_of_lookup stored (key_parseFactionStateInsert found).1
    have here : row.systemId = systemId :=
      (congrArg Prod.snd sameKey).trans (key_parseFactionStateInsert found).2.1
    exact ⟨row, List.mem_filter.mpr ⟨inRows, by simpa using here⟩,
      mirrors_of_parse found named sameKey same⟩
  · obtain ⟨inRows, here⟩ := List.mem_filter.mp member
    obtain ⟨factionRow, listed, same⟩ :=
      List.mem_map.mp (settled.only row inRows (by simpa using here))
    obtain ⟨faction, inFactions, known⟩ := (exists_of_forall₂ stored).1 factionRow listed
    refine ⟨faction, inFactions, ?_⟩
    rw [findFactionId_eq, known, ← same]
    rfl

/-! ## Conflicts -/

/-- The factions of the conflict are stored. -/
def Db.resolves (db : Db P) (conflict : Conflict K) : Bool :=
  (db.findFactionId conflict.faction1.name).isSome &&
    (db.findFactionId conflict.faction2.name).isSome

/-- The resolved conflicts are those whose factions are stored, one by one. -/
theorem forall₂_resolveConflict (conflicts : List (Conflict K)) :
    List.Forall₂ (fun resolved conflict => resolveConflict db conflict = some resolved)
      (conflicts.filterMap (resolveConflict db)) (conflicts.filter db.resolves) := by
  induction conflicts with
  | nil => exact .nil
  | cons conflict rest ih =>
      cases known : resolveConflict db conflict with
      | some resolved =>
          have resolves : db.resolves conflict = true := by
            simp only [resolveConflict, Option.bind_eq_bind, Option.bind_eq_some_iff] at known
            obtain ⟨id1, found1, id2, found2, -⟩ := known
            simp [Db.resolves, found1, found2]
          rw [List.filterMap_cons_some known, List.filter_cons_of_pos resolves]
          exact .cons known ih
      | none =>
          have unresolved : ¬ db.resolves conflict = true := by
            intro resolves
            simp only [Db.resolves, Bool.and_eq_true, Option.isSome_iff_exists] at resolves
            obtain ⟨⟨id1, found1⟩, id2, found2⟩ := resolves
            simp [resolveConflict, found1, found2] at known
          rw [List.filterMap_cons_none known, List.filter_cons_of_neg unresolved]
          exact ih

/-- A validated conflict mirrors the one of the message. -/
theorem mirrors_of_parseFactionConflictInsert {systemId : Uuid} {index : ℕ}
    {resolved : Conflict K × Uuid × Uuid} {conflict : Conflict K} {row : FactionConflictRow K}
    (known : resolveConflict db conflict = some resolved)
    (parsed : parseFactionConflictInsert env systemId db index resolved = some row) :
    row.Mirrors db conflict := by
  simp only [resolveConflict, Option.bind_eq_bind, Option.bind_eq_some_iff, Option.pure_def,
    Option.some.injEq] at known
  obtain ⟨id1, found1, id2, found2, rfl⟩ := known
  simp only [parseFactionConflictInsert, Option.bind_eq_bind, Option.bind_eq_some_iff,
    Option.pure_def, Option.some.injEq] at parsed
  obtain ⟨type, typed, status, stated, -, -, -, -, rfl⟩ := parsed
  exact ⟨found1, ⟨id2, rfl, found2⟩, typed, stated, rfl, rfl, rfl, rfl⟩

/-- The row that is left for a conflict mirrors what its proposed row does. -/
theorem FactionConflictRow.Mirrors.upserted {updatedAt : Timestamp}
    {rows : List (FactionConflictRow K)} {proposed : FactionConflictRow K} {conflict : Conflict K}
    (mirrors : proposed.Mirrors db conflict) :
    (upsertedConflict updatedAt rows proposed).Mirrors db conflict := by
  unfold upsertedConflict rowFor
  split
  · rename_i row found
    have sameKey : row.key = proposed.key := by simpa using List.find?_some found
    have faction : row.factionId = proposed.factionId := congrArg (·.2.1) sameKey
    have opponent : row.opponentFactionId = proposed.opponentFactionId := congrArg (·.2.2) sameKey
    exact ⟨by rw [mirrors.factionId, ← faction]; rfl, opponent ▸ mirrors.opponentFactionId,
      mirrors.type, mirrors.status, mirrors.factionWonDays, mirrors.opponentWonDays,
      mirrors.factionStake, mirrors.opponentStake⟩
  · exact mirrors

/-- **The conflicts of the system are those of the message between stored factions.** -/
theorem oneForEach_upsertFactionConflicts {systemId : Uuid} {conflicts : List (Conflict K)}
    (done : upsertFactionConflicts env systemId conflicts db = .ok db') :
    OneForEach (FactionConflictRow.Mirrors db)
      (db'.factionConflicts.rows.filter fun row => row.systemId = systemId)
      (conflicts.filter db.resolves) := by
  have resolved : List.Forall₂ _ _ (conflicts.filter db.resolves) :=
    forall₂_resolveConflict conflicts
  by_cases nothing : conflictsData env systemId db conflicts = []
  · unfold upsertFactionConflicts at done
    simp only [if_pos nothing] at done
    obtain ⟨rows, -⟩ := Db.of_writeFactionConflicts (orFail_eq_ok.mp done)
    rw [List.mapIdx_eq_nil_iff.mp nothing, List.forall₂_nil_left_iff] at resolved
    rw [resolved, rows, deleteRows, List.filter_filter, List.filter_eq_nil_iff.mpr]
    · exact .nil
    · intro row _
      simp
  · obtain ⟨proposed, middle, parsed, present, members⟩ := mem_upsertFactionConflicts nothing done
    obtain ⟨proposed', changes, middle', parsed', upserted, -⟩ :=
      of_upsertFactionConflicts nothing done
    obtain rfl : proposed' = proposed :=
      List.map_injective_iff.mpr (Option.some_injective _) (parsed'.symm.trans parsed)
    have keyKept := fun (wanted : FactionConflictRow K) (_ : wanted ∈ proposed') row =>
      FactionConflictRow.key_setExcluded (env.newDate .upsertFactionConflicts) row wanted
    have keys := (upsertRows_always (fun _ _ => rfl) keyKept upserted).2.1
    have mirrored : List.Forall₂ (FactionConflictRow.Mirrors db) proposed'
        (conflicts.filter db.resolves) :=
      forall₂_comp (fun row _ conflict found known => by
        obtain ⟨index, found⟩ := found
        exact mirrors_of_parseFactionConflictInsert known found)
        (forall₂_of_mapIdx parsed) resolved
    have here : ∀ wanted ∈ proposed', wanted.systemId = systemId := fun wanted member =>
      (key_conflictsData (parsed ▸ List.mem_map_of_mem member)).1
    have upsertedKey : ∀ wanted ∈ proposed', (upsertedConflict
        (env.newDate .upsertFactionConflicts) db.factionConflicts.rows wanted).key = wanted.key :=
      fun wanted member => key_rowFor (keyKept wanted member) _
    refine ⟨proposed'.map (upsertedConflict (env.newDate .upsertFactionConflicts)
      db.factionConflicts.rows), ?_, List.forall₂_map_left_iff.mpr
        (mirrored.imp fun row conflict mirrors => mirrors.upserted)⟩
    refine (List.perm_ext_iff_of_nodup ?_ ?_).mpr fun row => ⟨fun member => ?_, fun member => ?_⟩
    · refine List.Nodup.of_map FactionConflictRow.key ?_
      rw [List.map_map]
      exact (List.map_congr_left upsertedKey) ▸ keys
    · exact (db'.factionConflicts.unique.imp fun apart same =>
        apart (.inl (congrArg FactionConflictRow.id same))).filter _
    · obtain ⟨wanted, inProposed, rfl⟩ := List.mem_map.mp member
      refine List.mem_filter.mpr ⟨(members _).mpr ⟨present wanted inProposed, fun _ =>
        ⟨wanted, inProposed, rfl⟩⟩, ?_⟩
      exact decide_eq_true ((congrArg Prod.fst (upsertedKey wanted inProposed)).trans
        (here wanted inProposed))
    · obtain ⟨inRows, inSystem⟩ := List.mem_filter.mp member
      obtain ⟨wanted, inProposed, rfl⟩ := ((members row).mp inRows).2 (by simpa using inSystem)
      exact List.mem_map_of_mem inProposed

/-- The conflicts of other systems are left alone. -/
theorem filter_upsertFactionConflicts {systemId : Uuid} {conflicts : List (Conflict K)}
    (done : upsertFactionConflicts env systemId conflicts db = .ok db') :
    (db'.factionConflicts.rows.filter fun row => row.systemId ≠ systemId) =
      db.factionConflicts.rows.filter fun row => row.systemId ≠ systemId := by
  by_cases nothing : conflictsData env systemId db conflicts = []
  · unfold upsertFactionConflicts at done
    simp only [if_pos nothing] at done
    obtain ⟨rows, -⟩ := Db.of_writeFactionConflicts (orFail_eq_ok.mp done)
    rw [rows, deleteRows, List.filter_filter]
    refine List.filter_congr fun row _ => ?_
    by_cases here : row.systemId = systemId <;> simp [here]
  · obtain ⟨proposed, changes, middle, parsed, upserted, -, deleted⟩ :=
      of_upsertFactionConflicts nothing done
    obtain ⟨rows, -⟩ := Db.of_writeFactionConflicts deleted
    have kept : (db'.factionConflicts.rows.filter fun row => row.systemId ≠ systemId) =
        middle.factionConflicts.rows.filter fun row => row.systemId ≠ systemId := by
      rw [rows, deleteRows, List.filter_filter]
      refine List.filter_congr fun row _ => ?_
      by_cases here : row.systemId = systemId <;> simp [here]
    rw [kept]
    refine filter_upsertRows upserted fun change member row mentioned => ?_
    have key := key_of_upsertRows (FactionConflictRow.key_setExcluded (K := K)
      (env.newDate .upsertFactionConflicts)) upserted change member row mentioned
    obtain ⟨wanted, inProposed, same⟩ := List.mem_map.mp key
    have here : row.systemId = systemId := (congrArg Prod.fst same).symm.trans
      (key_conflictsData (parsed ▸ List.mem_map_of_mem inProposed)).1
    simp [here]

/-! ## The presence is told by one helper -/

theorem filterMap_presenceChanged?_states (change : Change (FactionStateRow K)) :
    (enqueueFactionStateChangedEvents change).filterMap presenceChanged? = [] := by
  refine (ignores_presenceChanged? (by decide : "factionStateChanged" ≠ _)).filterMap_eq_nil
    fun event member => ?_
  obtain ⟨systemId, factionId, lifecycle, state, rfl⟩ :=
    of_mem_enqueueFactionStateChangedEvents member
  rfl

theorem filterMap_presenceChanged?_conflicts (change : Change (FactionConflictRow K)) :
    (enqueueFactionConflictChangedEvents change).filterMap presenceChanged? = [] := by
  refine (ignores_presenceChanged? (by decide : "factionStateChanged" ≠ _)).filterMap_eq_nil
    fun event member => ?_
  obtain ⟨row, -, lifecycle, rfl⟩ := of_mem_enqueueFactionConflictChangedEvents member
  rfl

/-! ## The factions of a message -/

/-- The names of stored factions find the same ids. -/
def KeepsIds (db db' : Db P) : Prop :=
  ∀ name id, db.findFactionId name = some id → db'.findFactionId name = some id

theorem KeepsIds.of_eq (same : db'.factions = db.factions) : KeepsIds db db' := by
  intro name id found
  rw [Db.findFactionId, same]
  exact found

theorem KeepsIds.of_names {added : List String}
    (names : NamesKept P added db.factions.rows db'.factions.rows) : KeepsIds db db' := by
  intro name id found
  rw [findFactionId_eq] at found ⊢
  obtain ⟨identity, known, same⟩ := Option.map_eq_some_iff.mp found
  rw [names.known name identity known, Option.map_some, same]

theorem SystemFactionRow.Mirrors.later {row : SystemFactionRow} {faction : FactionElement K}
    (kept : KeepsIds db db') (mirrors : row.Mirrors db faction) : row.Mirrors db' faction :=
  kept _ _ mirrors

theorem FactionStateRow.Mirrors.later {row : FactionStateRow K} {faction : FactionElement K}
    (kept : KeepsIds db db') (mirrors : row.Mirrors db faction) : row.Mirrors db' faction :=
  { mirrors with factionId := kept _ _ mirrors.factionId }

theorem FactionConflictRow.Mirrors.later {row : FactionConflictRow K} {conflict : Conflict K}
    (kept : KeepsIds db db') (mirrors : row.Mirrors db conflict) : row.Mirrors db' conflict :=
  { mirrors with
    factionId := kept _ _ mirrors.factionId
    opponentFactionId := by
      obtain ⟨opponentFactionId, same, found⟩ := mirrors.opponentFactionId
      exact ⟨opponentFactionId, same, kept _ _ found⟩ }

/-- A faction is stored after the upsert if it was, or if the message lists it. -/
theorem isSome_findFactionId_of_upsertFactions {statement : Statement}
    {message : SystemMessage K} {factions : List FactionRow}
    (done : upsertFactions env statement
      ((message.factions.getD []).map FactionElement.messageFaction) db = .ok (db', factions))
    (name : String) : (db'.findFactionId name).isSome = db.knows message name := by
  obtain ⟨returned, known, others⟩ := of_upsertFactions done
  have all := forall₂_of_stored returned
  rw [findFactionId_eq, Db.knows, findFactionId_eq, Option.isSome_map, Option.isSome_map]
  by_cases listed : ∃ faction ∈ message.factions.getD [], P.citext faction.name = P.citext name
  · obtain ⟨faction, member, same⟩ := listed
    obtain ⟨row, -, stored⟩ := (exists_of_forall₂ all).2 faction member
    have here : ((message.factions.getD []).any fun faction =>
        P.citext faction.name = P.citext name) = true :=
      List.any_eq_true.mpr ⟨faction, member, by simpa using same⟩
    rw [← storedAs_congr same, stored, here, Bool.or_true]
    rfl
  · have absent : ((message.factions.getD []).any fun faction =>
        P.citext faction.name = P.citext name) = false := by
      refine List.any_eq_false.mpr fun faction member => ?_
      simpa using fun same => listed ⟨faction, member, same⟩
    rw [absent, Bool.or_false, others name fun faction member same => ?_]
    obtain ⟨element, inFactions, rfl⟩ := List.mem_map.mp member
    exact listed ⟨element, inFactions, same⟩

/-- The tables of the system after the factions of a message, and the other rows. -/
theorem mirrors_processFactionsData {message : SystemMessage K} {systemId : Uuid}
    (somebody : message.factions.getD [] ≠ [])
    (done : processFactionsData env message systemId db = .ok db') :
    MirrorsFactions message systemId db db' ∧ PresenceTold systemId db db' ∧
      ((db'.systemFactions.rows.filter fun row => row.systemId ≠ systemId) =
        db.systemFactions.rows.filter fun row => row.systemId ≠ systemId) ∧
      ((db'.factionStates.rows.filter fun row => row.systemId ≠ systemId) =
        db.factionStates.rows.filter fun row => row.systemId ≠ systemId) ∧
      (db'.factionConflicts.rows.filter fun row => row.systemId ≠ systemId) =
        db.factionConflicts.rows.filter fun row => row.systemId ≠ systemId := by
  obtain ⟨nobody, -⟩ | ⟨-, stored, factions, present, cleaned, synced, states, upserted, presence,
    cleanup, sync, state, conflicts⟩ := of_processFactionsData done
  · exact absurd nobody somebody
  have storedFrame := frame_upsertFactions upserted
  have presentFrame := frame_upsertSystemFactions presence
  have cleanedFrame := frame_cleanupFactionStates cleanup
  have syncedFrame := frame_syncSystemControllingFaction sync
  have statesFrame := frame_upsertFactionStates state
  have conflictsFrame := frame_upsertFactionConflicts conflicts
  obtain ⟨distinctNames, distinctIds⟩ := distinct_of_upsertFactions upserted
  rw [List.map_map] at distinctNames
  have all := forall₂_of_stored (of_upsertFactions upserted).1
  obtain ⟨ids, told⟩ := presenceTold_upsertSystemFactions distinctIds presence
  have storedSynced : synced.factions = stored.factions := by
    rw [syncedFrame, cleanedFrame, presentFrame]
  have presentRows : OneForEach (SystemFactionRow.Mirrors stored)
      (present.systemFactions.rows.filter fun row => row.systemId = systemId)
      (message.factions.getD []) := by
    refine oneForEach_factions stored SystemFactionRow.factionId distinctNames
      (nodup_membership systemId) (fun row faction mirrors => mirrors) (fun faction listed => ?_)
      fun row member => ?_
    · obtain ⟨row, inFactions, known⟩ := (exists_of_forall₂ all).2 faction listed
      obtain ⟨systemFaction, inRows, same⟩ :=
        List.mem_map.mp ((ids row.id).mpr (List.mem_map_of_mem inFactions))
      refine ⟨systemFaction, inRows, ?_⟩
      rw [SystemFactionRow.Mirrors, findFactionId_eq, known, same]
      rfl
    · obtain ⟨factionRow, listed, same⟩ :=
        List.mem_map.mp ((ids row.factionId).mp (List.mem_map_of_mem member))
      obtain ⟨faction, inFactions, known⟩ := (exists_of_forall₂ all).1 factionRow listed
      refine ⟨faction, inFactions, ?_⟩
      rw [findFactionId_eq, known, ← same]
      rfl
  have left := states_cleanup cleanup
  have sameStates : synced.factionStates = cleaned.factionStates := by rw [syncedFrame]
  rw [← sameStates] at left
  rw [← storedSynced] at all
  have stateRows := oneForEach_upsertFactionStates distinctNames distinctIds all left state
  have conflictRows := oneForEach_upsertFactionConflicts conflicts
  have resolves : (message.conflicts.getD []).filter states.resolves = db.knownConflicts message := by
    refine List.filter_congr fun conflict _ => ?_
    have statesFactions : states.factions = stored.factions := by
      rw [statesFrame, storedSynced]
    have knows : ∀ name, (states.findFactionId name).isSome = db.knows message name := fun name => by
      rw [← isSome_findFactionId_of_upsertFactions upserted name, Db.findFactionId, statesFactions]
      rfl
    rw [Db.resolves, knows, knows]
  rw [resolves] at conflictRows
  have sameFactions : db'.factions = stored.factions := by
    rw [conflictsFrame, statesFrame, storedSynced]
  have samePresence : db'.systemFactions = present.systemFactions := by
    rw [conflictsFrame, statesFrame, syncedFrame, cleanedFrame]
  have sameMembership : db'.membership systemId = present.membership systemId := by
    rw [Db.membership, Db.membership, samePresence]
  have storedMembership : stored.membership systemId = db.membership systemId := by
    rw [Db.membership, Db.membership, storedFrame]
  have threats : Ignores (K := K) presenceChanged? "factionControlThreatChanged" :=
    ignores_presenceChanged? (by decide)
  have powerplay : Ignores (K := K) presenceChanged? "systemPowerplayUpdated" :=
    ignores_presenceChanged? (by decide)
  have signals : db'.signals presenceChanged? = present.signals presenceChanged? :=
    (signals_upsertFactionConflicts filterMap_presenceChanged?_conflicts conflicts).trans
      ((signals_upsertFactionStates threats filterMap_presenceChanged?_states state).trans
        ((signals_syncSystemControllingFaction threats powerplay sync).trans
          (signals_cleanupFactionStates threats filterMap_presenceChanged?_states cleanup)))
  have storedSignals : stored.signals presenceChanged? = db.signals presenceChanged? :=
    Db.signals_congr (by rw [storedFrame])
  refine ⟨⟨?_, ?_, ?_⟩, ?_, ?_, ?_, ?_⟩
  · rw [samePresence]
    exact presentRows.imp fun row faction mirrors => mirrors.later (.of_eq sameFactions)
  · rw [show db'.factionStates = states.factionStates by rw [conflictsFrame]]
    exact stateRows.imp fun row faction mirrors =>
      mirrors.later (.of_eq (sameFactions.trans storedSynced.symm))
  · exact conflictRows.imp fun row conflict mirrors => mirrors.later (.of_eq (by
      rw [conflictsFrame]))
  · unfold PresenceTold at told ⊢
    rw [signals, told, sameMembership, storedMembership, storedSignals]
  · rw [samePresence, (of_upsertSystemFactions distinctIds presence).1, storedFrame]
  · rw [conflictsFrame, filter_upsertFactionStates state, syncedFrame,
      filter_cleanupFactionStates cleanup, presentFrame, storedFrame]
  · rw [filter_upsertFactionConflicts conflicts, statesFrame, syncedFrame, cleanedFrame,
      presentFrame, storedFrame]

/-! ## The whole message -/

theorem FactionConflictRow.Mirrors.withoutStations {row : FactionConflictRow K}
    {conflict : Conflict K} (deleted : List Uuid) (mirrors : row.Mirrors db conflict) :
    (row.withoutStations deleted).Mirrors db conflict :=
  ⟨mirrors.factionId, mirrors.opponentFactionId, mirrors.type, mirrors.status,
    mirrors.factionWonDays, mirrors.opponentWonDays, mirrors.factionStake, mirrors.opponentStake⟩

/-- A step that clears references keeps which rows are of a class of systems. -/
theorem ClearsStakes.filter {deleted : List Uuid} (clears : ClearsStakes env deleted db db')
    (inClass : Uuid → Bool) : (db'.factionConflicts.rows.filter fun row => inClass row.systemId) =
      (db.factionConflicts.rows.filter fun row => inClass row.systemId).map
        (FactionConflictRow.withoutStations deleted) := by
  rw [clears.conflicts, List.filter_map]
  rfl

theorem knownConflicts_congr {message : SystemMessage K} (same : db'.factions = db.factions) :
    db'.knownConflicts message = db.knownConflicts message := by
  have knows : ∀ name, db'.knows message name = db.knows message name := fun name => by
    rw [Db.knows, Db.knows, Db.findFactionId, same]
    rfl
  refine List.filter_congr fun conflict _ => ?_
  rw [knows, knows]

/-- The statements on powers and stations before the factions of a message. -/
theorem clearsStakes_processPowerplayData {message : SystemMessage K} {systemId : Uuid}
    (done : processPowerplayData env message systemId db = .ok db') :
    ∃ deleted, ClearsStakes env deleted db db' := by
  obtain ⟨⟨first, powers⟩, upserted, done⟩ := bind_eq_ok.mp done
  obtain ⟨second, associated, done⟩ := bind_eq_ok.mp done
  obtain ⟨third, conflicts, done⟩ := bind_eq_ok.mp done
  obtain ⟨deleted, clears⟩ := (stationSteps_deleteStrongholdCarriers done).clearsStakes
  have before : ClearsStakes env [] db third := by
    refine .of_eq ?_ fun station member => .inl ?_
    · rw [frame_upsertPowerplayConflicts conflicts, frame_upsertSystemPowerplayPowers associated,
        frame_upsertPowerplayPowers upserted]
    · rw [frame_upsertPowerplayConflicts conflicts, frame_upsertSystemPowerplayPowers associated,
        frame_upsertPowerplayPowers upserted] at member
      exact List.mem_map_of_mem member
  exact ⟨_, before.trans clears⟩

/-- **The faction tables mirror the message.** -/
theorem faction_tables_mirror_message {message : FullSystemMessage K}
    (somebody : message.system.factions.getD [] ≠ [])
    (done : processMessage env message.toJournal db = .ok db') :
    ∃ system ∈ db'.systems.rows, system.systemAddress = message.system.systemAddress ∧
      MirrorsFactions message.system system.id db db' ∧ OthersKept env system.id db db' ∧
      PresenceTold system.id db db' := by
  obtain ⟨dropped, -⟩ | ⟨-, afterSystem, system, afterPowers, afterFactions, upserted, powers,
    factions, station⟩ := of_processMessage done
  · refine absurd ?_ somebody
    simp only [shouldUpsertSystem, Bool.or_eq_false_iff] at dropped
    simpa using dropped.1.2
  have systemFrame := frame_upsertSystem upserted
  have powersFrame := frame_processPowerplayData powers
  have stationFrame := (onlyStationAndFaction_upsertStationOf station).frame
  obtain ⟨validated, parsed, settled⟩ := systemSettled_upsertSystem upserted
  have settledPowers : SystemSettled validated system.id afterPowers.systems.rows := by
    rw [powersFrame]
    exact settled
  obtain ⟨row, member, address, sameId, -⟩ := systemSettled_processFactionsData settledPowers factions
  have sameSystems : db'.systems = afterFactions.systems := by rw [stationFrame]
  rw [← sameSystems] at member
  have samePresence : db'.systemFactions = afterFactions.systemFactions := by rw [stationFrame]
  have sameStates : db'.factionStates = afterFactions.factionStates := by rw [stationFrame]
  have beforeFactions : afterPowers.factions = db.factions := by rw [powersFrame, systemFrame]
  obtain ⟨mirrors, told, presenceKept, statesKept, conflictsKept⟩ :=
    mirrors_processFactionsData somebody factions
  have ids := KeepsIds.of_names (namesKept_upsertStationOf station)
  -- The references to stations are cleared before and after the factions.
  obtain ⟨early, clearsEarly⟩ := clearsStakes_processPowerplayData powers
  obtain ⟨middle, middleFrame, steps⟩ := stationSteps_upsertStationOf station
  obtain ⟨late, clearsLate⟩ := steps.clearsStakes
  have afterConflicts : middle.factionConflicts = afterFactions.factionConflicts := by
    rw [middleFrame]
  refine ⟨row, member, address.trans (of_parseSystemInsert parsed).1, ?_, ?_, ?_⟩
  · rw [sameId]
    refine ⟨?_, ?_, ?_⟩
    · rw [samePresence]
      exact mirrors.systemFactions.imp fun row faction mirrors => mirrors.later ids
    · rw [sameStates]
      exact mirrors.factionStates.imp fun row faction mirrors => mirrors.later ids
    · rw [clearsLate.filter fun id => id = system.id, afterConflicts,
        ← knownConflicts_congr beforeFactions]
      exact mirrors.factionConflicts.map fun row conflict mirrors =>
        (mirrors.later ids).withoutStations late
  · rw [sameId]
    refine ⟨?_, ?_, early ++ late, fun station member deleted => ?_, ?_⟩
    · rw [samePresence, presenceKept, powersFrame, systemFrame]
    · rw [sameStates, statesKept, powersFrame, systemFrame]
    · have sameStations : middle.stations = afterPowers.stations := by
        rw [middleFrame, frame_processFactionsData factions]
      rcases List.mem_append.mp deleted with before | after
      · rcases clearsLate.ids station member with old | drawn
        · obtain ⟨kept, inMiddle, same⟩ := List.mem_map.mp old
          rw [sameStations] at inMiddle
          rw [← same] at before ⊢
          exact clearsEarly.gone kept inMiddle before
        · exact drawn
      · exact clearsLate.gone station member after
    · rw [clearsLate.filter fun id => id ≠ system.id, afterConflicts, conflictsKept,
        clearsEarly.filter fun id => id ≠ system.id, systemFrame, List.map_map]
      exact List.map_congr_left fun row _ => (row.withoutStations_append early late).symm
  · rw [sameId]
    have afterMembership : db'.membership system.id = afterFactions.membership system.id := by
      rw [Db.membership, Db.membership, samePresence]
    have beforeMembership : afterPowers.membership system.id = db.membership system.id := by
      rw [Db.membership, Db.membership, powersFrame, systemFrame]
    have afterSignals : db'.signals presenceChanged? = afterFactions.signals presenceChanged? :=
      Db.signals_congr (by rw [stationFrame])
    have beforeSignals : afterPowers.signals presenceChanged? = db.signals presenceChanged? :=
      (Db.signals_congr (by rw [powersFrame])).trans (signals_upsertSystem
        (ignores_presenceChanged? (by decide)) (ignores_presenceChanged? (by decide)) upserted)
    unfold PresenceTold at told ⊢
    rw [afterMembership, afterSignals, told, beforeMembership, beforeSignals]

/-! ## Sample runs -/

/-- Two factions of a system and a war between them over a station. -/
def sampleWar (systemAddress : ℚ) (stake : String) : SystemMessage ℚ :=
  { sampleMessage (some "A") [sampleFaction "A" (1 / 2), sampleFaction "B" (1 / 4)] with
    systemAddress := systemAddress
    conflicts := some [{
      faction1 := { name := "A", stake := stake, wonDays := 1 }
      faction2 := { name := "B", stake := "", wonDays := 0 }
      status := "active"
      warType := "war" }] }

theorem faction_tables_mirror_message_sample : ∃ db' : Db asciiPlatform,
    processMessage (sampleEnv 1) (FullSystemMessage.fsdJump (sampleWar 1 "")).toJournal Db.empty =
        .ok db' ∧
      ∃ system ∈ db'.systems.rows, system.systemAddress = 1 ∧
        MirrorsFactions (sampleWar 1 "") system.id Db.empty db' ∧
        OthersKept (sampleEnv 1) system.id Db.empty db' ∧ PresenceTold system.id Db.empty db' := by
  have observed : (processMessage (P := asciiPlatform) (sampleEnv 1)
      (FullSystemMessage.fsdJump (sampleWar 1 "")).toJournal Db.empty).toOption.map
        (fun db' => db'.factionConflicts.rows.length) = some 1 := by decide +kernel
  obtain ⟨db', done, -⟩ := exists_ok_of_toOption_map observed
  exact ⟨db', done, faction_tables_mirror_message (by simp [FullSystemMessage.system, sampleWar,
    sampleMessage]) done⟩

/-- The player is docked at a station of a system. -/
def sampleDocked (systemAddress : ℚ) (stationName : String) (marketId : ℚ) : DockedMessage ℚ where
  starSystem := "Sol"
  systemAddress := systemAddress
  starPos := [0, 0, 0]
  distFromStarLS := 500
  marketId := marketId
  landingPads := { small := 4, medium := 4, large := 2 }
  stationName := stationName
  stationType := "Coriolis"
  stationFaction := "C"
  stationGovernment := "$government_Democracy;"
  stationAllegiance := none
  stationEconomy := "$economy_Refinery;"
  stationEconomies := []
  stationServices := []

/-- A war over the station X of one system, and a station Galileo of another. -/
def sampleStakes : List (TxEnv × JournalMessage ℚ) :=
  [(sampleEnv 1, .docked (sampleDocked 1 "X" 128016640)),
    (sampleEnv 2, .fsdJump (sampleWar 1 "X")),
    (sampleEnv 3, .docked (sampleDocked 10477373803 "Galileo" 2))]

/-- `sampleLocation` finds Galileo under the market id of X. X is deleted, and the war in its
system loses its stake. -/
theorem sampleLocation_clears_stake_of_other_system : ∃ before after : Db asciiPlatform,
    WorkerReachable before ∧
      processMessage (sampleEnv 4) (FullSystemMessage.location sampleLocation).toJournal before =
        .ok after ∧
      sampleLocation.factions.getD [] ≠ [] ∧
      ((sampleLocation.factions.getD []).map fun faction =>
        asciiPlatform.citext faction.name).Nodup ∧
      ((sampleLocation.factions.getD []).all fun faction =>
        (storedAs asciiPlatform before.factions.rows faction.name).any fun identity =>
          identity.2 = faction.name) = true ∧
      ((sampleLocation.conflicts.getD []).map fun conflict =>
        (conflict.faction1.name, conflict.faction2.name)).Nodup ∧
      ∃ system ∈ after.systems.rows, system.systemAddress = sampleLocation.systemAddress ∧
        (after.factionConflicts.rows.filter fun row => row.systemId ≠ system.id) ≠
          before.factionConflicts.rows.filter fun row => row.systemId ≠ system.id := by
  obtain ⟨before, run, observed⟩ := exists_reachable_of_execute workerStep
    (Db.empty : Db asciiPlatform) sampleStakes
    (fun before => ((sampleLocation.factions.getD []).all fun faction =>
        (storedAs asciiPlatform before.factions.rows faction.name).any fun identity =>
          identity.2 = faction.name) &&
      (processMessage (sampleEnv 4) (FullSystemMessage.location sampleLocation).toJournal
        before).toOption.any fun after => after.systems.rows.any fun system =>
          system.systemAddress = sampleLocation.systemAddress ∧
            ((after.factionConflicts.rows.filter fun row => row.systemId ≠ system.id).map
              FactionConflictRow.factionStakeStationId) ≠
              (before.factionConflicts.rows.filter fun row => row.systemId ≠ system.id).map
                FactionConflictRow.factionStakeStationId) (by decide +kernel)
  obtain ⟨spelled, observed⟩ := Bool.and_eq_true_iff.mp observed
  obtain ⟨after, done, observed⟩ := (Option.any_eq_true _ _).mp observed
  obtain ⟨system, member, observed⟩ := List.any_eq_true.mp observed
  obtain ⟨address, changed⟩ := of_decide_eq_true observed
  refine ⟨before, after, run, toOption_eq_some.mp done, by simp [sampleLocation, sampleMessage],
    by decide +kernel, spelled, by simp [sampleLocation], system, member, address, fun same => ?_⟩
  exact changed (congrArg (List.map FactionConflictRow.factionStakeStationId) same)

end EliteHubVault
