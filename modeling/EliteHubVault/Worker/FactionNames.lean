import EliteHubVault.Library.Upserts
import EliteHubVault.Worker.LastMessage

/-!
# Names of factions and letter case

The database finds a faction whatever the case of its name and returns the spelling that it
has stored. The worker looks up the ids of a message's factions by exact spelling. So the
factions of a message are resolved exactly when it spells them as they are stored
(`factions_resolved_iff`); a faction that it spells in another way aborts its transaction.
-/

set_option autoImplicit false
set_option linter.unusedSectionVars false

namespace EliteHubVault

open Library

section FactionNames

variable {K : Type} [Field K] [LinearOrder K] {P : Platform K} {env : TxEnv} {db db' : Db P}

/-! ## The stored spelling -/

/-- The spelling under which a faction is stored once it has been upserted. -/
def Db.storedName (name : String) (db : Db P) : String :=
  ((storedAs P db.factions.rows name).map Prod.snd).getD name

theorem Db.citext_storedName (db : Db P) (name : String) :
    P.citext (db.storedName name) = P.citext name := by
  unfold Db.storedName
  cases found : storedAs P db.factions.rows name with
  | none => rfl
  | some identity => exact citext_of_storedAs found

/-- A faction of the message is stored in the spelling from before, or in the message's. -/
theorem storedAs_upsertFactions {statement : Statement} {messageFactions : List MessageFaction}
    {factions : List FactionRow}
    (done : upsertFactions env statement messageFactions db = .ok (db', factions))
    {faction : MessageFaction} (listed : faction ∈ messageFactions) :
    (storedAs P db'.factions.rows faction.name).map Prod.snd = some (db.storedName faction.name) := by
  unfold upsertFactions at done
  split at done
  · rename_i nobody
    rw [nobody] at listed
    cases listed
  · simp only [bind_eq_ok, orFail_eq_ok, pure_eq_ok] at done
    obtain ⟨proposed, parsed, ⟨rows, changes⟩, upserted, ⟨table, changes'⟩, write, same⟩ := done
    cases same
    obtain rfl : rows = table.rows := congrArg Prod.fst (Table.write_eq_some write)
    obtain ⟨-, -, left, -⟩ := upsertRows_always (fun _ _ => rfl)
      (fun wanted _ row (same : P.citext row.name = P.citext wanted.name) => same) upserted
    obtain ⟨row, inProposed, name⟩ : ∃ row ∈ proposed, row.name = faction.name := by
      have image : faction.name ∈ proposed.map FactionRow.name := by
        rw [map_name_proposedFactions parsed]
        exact List.mem_map_of_mem listed
      exact List.mem_map.mp image
    have found : storedAs P table.rows row.name =
        some (upsertedFaction P (env.newDate statement) db.factions.rows row).identity :=
      congrArg (Option.map FactionRow.identity) (left row inProposed)
    rw [← name, found, Option.map_some, identity_upsertedFaction, Db.storedName]
    cases storedAs P db.factions.rows row.name <;> rfl

/-! ## The map from names to ids -/

theorem get_foldl_set_of_not_mem {factions : List FactionRow} {acc : OrderedMap String Uuid}
    {name : String} (absent : name ∉ factions.map FactionRow.name) :
    (factions.foldl (fun acc faction =>
      if faction.name = "__proto__" then acc else acc.set faction.name faction.id) acc).get name =
        acc.get name := by
  induction factions generalizing acc with
  | nil => rfl
  | cons faction rest ih =>
      obtain ⟨other, later⟩ := not_or.mp (List.mem_cons.not.mp absent)
      rw [List.foldl_cons, ih later]
      split
      · rfl
      · exact acc.get_set_of_ne _ other

/-- A faction is found under its name, unless every object has a property of this name. -/
theorem get_createFactionIdMap {factions : List FactionRow} {faction : FactionRow}
    (distinct : (factions.map FactionRow.name).Nodup) (member : faction ∈ factions)
    (ordinary : faction.name ≠ "__proto__") :
    (createFactionIdMap factions).get faction.name = some faction.id := by
  obtain ⟨earlier, later, rfl⟩ := List.append_of_mem member
  rw [List.map_append, List.map_cons] at distinct
  have absent : faction.name ∉ later.map FactionRow.name :=
    (List.nodup_cons.mp (List.Nodup.of_append_right distinct)).1
  rw [createFactionIdMap, List.foldl_append, List.foldl_cons, get_foldl_set_of_not_mem absent,
    if_neg ordinary, OrderedMap.get_set_self]

theorem get_createFactionIdMap_proto (factions : List FactionRow) :
    (createFactionIdMap factions).get "__proto__" = none := by
  have kept : ∀ acc : OrderedMap String Uuid, acc.get "__proto__" = none →
      (factions.foldl (fun acc faction =>
        if faction.name = "__proto__" then acc else acc.set faction.name faction.id) acc).get
          "__proto__" = none := by
    induction factions with
    | nil => exact fun acc unknown => unknown
    | cons faction rest ih =>
        intro acc unknown
        refine ih _ ?_
        dsimp only
        split
        · exact unknown
        · rename_i ordinary
          rw [acc.get_set_of_ne _ (Ne.symm ordinary)]
          exact unknown
  exact kept _ rfl

/-- **What the map resolves**: the stored spellings. -/
theorem lookupFactionId_eq_value_iff {factions : List FactionRow}
    (distinct : (factions.map FactionRow.name).Nodup) {name : String} {id : Uuid} :
    lookupFactionId (createFactionIdMap factions) name = .value id ↔
      (id, name) ∈ factions.map FactionRow.identity ∧ name ≠ "__proto__" := by
  constructor
  · intro found
    refine ⟨mem_of_lookupFactionId found, ?_⟩
    rintro rfl
    rw [lookupFactionId, get_createFactionIdMap_proto] at found
    cases found
  · rintro ⟨member, ordinary⟩
    obtain ⟨faction, listed, same⟩ := List.mem_map.mp member
    obtain ⟨rfl, rfl⟩ := Prod.mk.inj same
    rw [lookupFactionId, get_createFactionIdMap distinct listed ordinary]

/-! ## Statements that succeed -/

/-- Rows that are read from all elements of a message, and a column that each draws by its
index. -/
theorem map_of_mapIdx {α ρ β : Type} {elements : List α} {read : ℕ → α → Option ρ} {rows : List ρ}
    {column : ρ → β} {drawn : ℕ → β}
    (own : ∀ index element row, read index element = some row → column row = drawn index)
    (all : (elements.mapIdx read).mapM id = some rows) :
    rows.map column = (List.range elements.length).map drawn := by
  have same := mapM_id_eq_some.mp all
  have lengths := congrArg List.length same
  rw [List.length_mapIdx, List.length_map] at lengths
  refine List.ext_getElem (by simp [lengths]) fun index small small' => ?_
  rw [List.length_map] at small
  have here := congrArg (fun list => list[index]?) same
  simp only [List.getElem?_mapIdx, List.getElem?_map, List.getElem?_eq_getElem small,
    List.getElem?_eq_getElem (lengths ▸ small), Option.map_some, Option.some.injEq] at here
  rw [List.getElem_map, own _ _ _ here, List.getElem_map, List.getElem_range]

/-- Elements that can all be read. -/
theorem exists_mapM_mapIdx {α ρ : Type} {elements : List α} {read : ℕ → α → Option ρ}
    (readable : ∀ index, ∀ element ∈ elements, (read index element).isSome) :
    ∃ rows, (elements.mapIdx read).mapM id = some rows := by
  induction elements generalizing read with
  | nil => exact ⟨[], rfl⟩
  | cons element rest ih =>
      obtain ⟨row, first⟩ := Option.isSome_iff_exists.mp (readable 0 element List.mem_cons_self)
      obtain ⟨rows, later⟩ := ih fun index other member =>
        readable (index + 1) other (List.mem_cons_of_mem _ member)
      refine ⟨row :: rows, mapM_id_eq_some.mpr ?_⟩
      rw [List.mapIdx_cons, first, List.map_cons]
      exact congrArg _ (mapM_id_eq_some.mp later)

theorem FactionRow.clash_symm (row row' : FactionRow) (clash : row.Clash P row') :
    row'.Clash P row := clash.imp Eq.symm Eq.symm

theorem FactionStateRow.clash_symm (row row' : FactionStateRow K) (clash : row.Clash row') :
    row'.Clash row := clash.imp Eq.symm Eq.symm

/-- The factions of the message are distinct up to case and pass the schemas. -/
structure ValidFactions (P : Platform K) (message : SystemMessage K) : Prop where
  distinct : ((message.factions.getD []).map fun faction => P.citext faction.name).Nodup
  government : ∀ faction ∈ message.factions.getD [],
    (mapGovernment P (some faction.government)).required.isSome
  allegiance : ∀ faction ∈ message.factions.getD [],
    (mapAllegiance P (some faction.allegiance)).required.isSome
  happiness : ∀ faction ∈ message.factions.getD [],
    (mapHappiness P (some faction.happiness)).nullable.isSome
  influence : ∀ faction ∈ message.factions.getD [], P.isDouble faction.influence
  activeStates : ∀ faction ∈ message.factions.getD [],
    (mapFactionStates P faction.activeStates).isSome
  recoveringStates : ∀ faction ∈ message.factions.getD [],
    (mapFactionStates P faction.recoveringStates).isSome
  pendingStates : ∀ faction ∈ message.factions.getD [],
    (mapFactionStates P faction.pendingStates).isSome

/-- The ids that a statement draws for its rows. -/
def TxEnv.draws (env : TxEnv) (statement : Statement) (count : ℕ) : List Uuid :=
  (List.range count).map (env.randomUuid statement)

/-- The database draws distinct ids, and none that a faction or a row of states has. -/
structure DrawsFreshIds (env : TxEnv) (message : SystemMessage K) (db : Db P) : Prop where
  distinctFactions : (env.draws .upsertFactions (message.factions.getD []).length).Nodup
  factions : ∀ id ∈ env.draws .upsertFactions (message.factions.getD []).length,
    id ∉ db.factions.rows.map FactionRow.id
  distinctStates : (env.draws .upsertFactionStates (message.factions.getD []).length).Nodup
  factionStates : ∀ id ∈ env.draws .upsertFactionStates (message.factions.getD []).length,
    id ∉ db.factionStates.rows.map FactionStateRow.id

theorem exists_upsertFactions {message : SystemMessage K} (valid : ValidFactions P message)
    (fresh : DrawsFreshIds env message db) : ∃ result, upsertFactions env .upsertFactions
      ((message.factions.getD []).map FactionElement.messageFaction) db = .ok result := by
  unfold upsertFactions
  split
  · exact ⟨_, rfl⟩
  · obtain ⟨proposed, parsed⟩ : ∃ proposed, proposedFactions P env .upsertFactions
        ((message.factions.getD []).map FactionElement.messageFaction) = some proposed := by
      refine exists_mapM_mapIdx fun index faction member => ?_
      obtain ⟨element, listed, rfl⟩ := List.mem_map.mp member
      obtain ⟨government, governed⟩ := Option.isSome_iff_exists.mp (valid.government element listed)
      obtain ⟨allegiance, allied⟩ := Option.isSome_iff_exists.mp (valid.allegiance element listed)
      simp [parseFactionInsert, FactionElement.messageFaction, governed, allied]
    have names := congrArg (List.map P.citext) (map_name_proposedFactions parsed)
    rw [List.map_map, List.map_map, List.map_map] at names
    have drawn : ∀ index faction row, parseFactionInsert P env.now
        (env.randomUuid .upsertFactions index) faction = some row →
          row.id = env.randomUuid .upsertFactions index := by
      intro index faction row read
      simp only [parseFactionInsert, Option.bind_eq_bind, Option.bind_eq_some_iff, Option.pure_def,
        Option.some.injEq] at read
      obtain ⟨-, -, -, -, rfl⟩ := read
      rfl
    have distinctNames : (proposed.map fun row => P.citext row.name).Nodup := names ▸ valid.distinct
    have ids : proposed.map FactionRow.id =
        env.draws .upsertFactions (message.factions.getD []).length := by
      rw [map_of_mapIdx drawn parsed, List.length_map]
      rfl
    have distinctIds : (proposed.map FactionRow.id).Nodup := ids ▸ fresh.distinctFactions
    have own : ∀ wanted ∈ proposed, ∀ row ∈ db.factions.rows, row.Clash P wanted →
        P.citext row.name = P.citext wanted.name := by
      intro wanted listed row member clash
      obtain sameId | sameName := clash
      · have image : wanted.id ∈ proposed.map FactionRow.id := List.mem_map_of_mem listed
        exact absurd (List.mem_map.mpr ⟨row, member, sameId⟩) (fresh.factions _ (ids ▸ image))
      · exact sameName
    have apart : proposed.Pairwise fun wanted wanted' => ¬ wanted.Clash P wanted' :=
      List.Pairwise.imp₂ (fun _ _ otherId otherName clash => clash.elim otherId otherName)
        (List.pairwise_map.mp distinctIds) (List.pairwise_map.mp distinctNames)
    obtain ⟨outcome, upserted, unique⟩ := exists_upsertRows (fun row : FactionRow => P.citext row.name)
      (FactionRow.setExcluded (env.newDate .upsertFactions)) (fun _ _ => true)
      FactionRow.clash_symm (fun _ _ _ _ clash => clash) (fun _ _ same => same) distinctNames
      db.factions.unique own apart
    exact ⟨_, bind_eq_ok.mpr ⟨proposed, orFail_eq_ok.mpr parsed, bind_eq_ok.mpr
      ⟨outcome, orFail_eq_ok.mpr upserted, bind_eq_ok.mpr
        ⟨_, orFail_eq_ok.mpr (Table.write_of_pairwise unique), rfl⟩⟩⟩⟩

namespace Db

theorem exists_writeSystemFactions (db : Db P) (now : Timestamp)
    {outcome : List SystemFactionRow × List (Change SystemFactionRow)}
    (distinct : (outcome.1.map SystemFactionRow.key).Nodup) :
    ∃ db', db.writeSystemFactions now outcome = some db' := by
  have unique : outcome.1.Pairwise fun row row' => ¬ row.Clash row' := List.pairwise_map.mp distinct
  exact ⟨_, by rw [writeSystemFactions, Table.write_of_pairwise unique, Option.map_some]⟩

theorem exists_writeFactionStates (db : Db P) (now : Timestamp)
    {outcome : List (FactionStateRow K) × List (Change (FactionStateRow K))}
    (unique : outcome.1.Pairwise fun row row' => ¬ row.Clash row') :
    ∃ db', db.writeFactionStates now outcome = some db' :=
  ⟨_, by rw [writeFactionStates, Table.write_of_pairwise unique, Option.map_some]⟩

theorem exists_writeSystems (db : Db P) (now : Timestamp)
    {outcome : List (SystemRow K) × List (Change (SystemRow K))}
    (unique : outcome.1.Pairwise fun row row' => ¬ row.Clash row') :
    ∃ db', db.writeSystems now outcome = some db' :=
  ⟨_, by rw [writeSystems, Table.write_of_pairwise unique, Option.map_some]⟩

end Db

theorem exists_upsertSystemFactions (env : TxEnv) (systemId : Uuid) (factionIds : List Uuid)
    (db : Db P) :
    ∃ db', upsertSystemFactions env systemId factionIds db = .ok db' := by
  have keys : ∀ middle : Db P, (middle.systemFactions.rows.map SystemFactionRow.key).Nodup :=
    fun middle => List.pairwise_map.mpr middle.systemFactions.unique
  obtain ⟨middle, inserted⟩ := db.exists_writeSystemFactions env.now
    (nodup_insertOrSkip (factionIds.map (presentFaction env systemId)) (keys db))
  have left : ((deleteRows (fun row => decide (row.systemId = systemId ∧ row.factionId ∉ factionIds))
      middle.systemFactions.rows).1.map SystemFactionRow.key).Nodup :=
    (keys middle).sublist (List.filter_sublist.map _)
  obtain ⟨after, deleted⟩ := middle.exists_writeSystemFactions env.now left
  exact ⟨after, bind_eq_ok.mpr ⟨middle, orFail_eq_ok.mpr inserted, orFail_eq_ok.mpr deleted⟩⟩

theorem exists_cleanupFactionStates (env : TxEnv) (systemId : Uuid) (factionIds : List Uuid)
    (db : Db P) :
    ∃ db', cleanupFactionStates env systemId factionIds db = .ok db' := by
  have unique : (deleteRows (fun row => decide (row.systemId = systemId ∧
      row.factionId ∉ factionIds)) db.factionStates.rows).1.Pairwise fun row row' => ¬ row.Clash row' :=
    db.factionStates.unique.filter _
  obtain ⟨after, deleted⟩ := db.exists_writeFactionStates env.now unique
  exact ⟨after, orFail_eq_ok.mpr deleted⟩

/-- Who controls the system can be written, unless the name is one that every object has. -/
theorem exists_syncSystemControllingFaction {factionId : JsLookup Uuid} (env : TxEnv)
    (systemId : Uuid) (db : Db P) (own : factionId ≠ .inherited) :
    ∃ db', syncSystemControllingFaction env systemId factionId db = .ok db' := by
  cases factionId with
  | inherited => exact absurd rfl own
  | undefined => exact ⟨db, rfl⟩
  | null => exact ⟨db, rfl⟩
  | value id =>
      have unique : (updateRows (fun row => row.id = systemId)
          (SystemRow.setControl id (env.newDate .syncSystemControllingFaction))
            db.systems.rows).1.Pairwise fun row row' => ¬ row.Clash row' := by
        refine List.pairwise_map.mpr (db.systems.unique.imp fun {row row'} apart => ?_)
        have kept : ∀ row : SystemRow K, (if decide (row.id = systemId) = true then row.setControl id
            (env.newDate .syncSystemControllingFaction) else row).id = row.id ∧
            (if decide (row.id = systemId) = true then row.setControl id
              (env.newDate .syncSystemControllingFaction) else row).systemAddress =
                row.systemAddress := fun row => by
          split <;> exact ⟨rfl, rfl⟩
        rw [SystemRow.Clash, (kept row).1, (kept row).2, (kept row').1, (kept row').2]
        exact apart
      obtain ⟨after, written⟩ := db.exists_writeSystems env.now unique
      exact ⟨after, orFail_eq_ok.mpr written⟩

theorem exists_upsertFactionStates {message : SystemMessage K} {rows : List FactionRow}
    (systemId : Uuid) (valid : ValidFactions P message)
    (distinctIds : (rows.map FactionRow.id).Nodup)
    (distinct : (env.draws .upsertFactionStates (message.factions.getD []).length).Nodup)
    (fresh : ∀ id ∈ env.draws .upsertFactionStates (message.factions.getD []).length,
      id ∉ db.factionStates.rows.map FactionStateRow.id)
    (resolved : ∀ faction ∈ message.factions.getD [],
      ∃ id, lookupFactionId (createFactionIdMap rows) faction.name = .value id) :
    ∃ db', upsertFactionStates env systemId (message.factions.getD []) (createFactionIdMap rows) db =
      .ok db' := by
  obtain ⟨proposed, parsed⟩ : ∃ proposed, ((message.factions.getD []).mapIdx
      (parseFactionStateInsert P env systemId (createFactionIdMap rows))).mapM id =
        some proposed := by
    refine exists_mapM_mapIdx fun index faction listed => ?_
    obtain ⟨factionId, found⟩ := resolved faction listed
    obtain ⟨happiness, happy⟩ := Option.isSome_iff_exists.mp (valid.happiness faction listed)
    obtain ⟨active, activeStates⟩ := Option.isSome_iff_exists.mp (valid.activeStates faction listed)
    obtain ⟨recovering, recoveringStates⟩ :=
      Option.isSome_iff_exists.mp (valid.recoveringStates faction listed)
    obtain ⟨pending, pendingStates⟩ :=
      Option.isSome_iff_exists.mp (valid.pendingStates faction listed)
    simp [parseFactionStateInsert, found, JsLookup.required, happy, valid.influence faction listed,
      activeStates, recoveringStates, pendingStates]
  have drawn : ∀ index faction row, parseFactionStateInsert P env systemId (createFactionIdMap rows)
      index faction = some row → row.id = env.randomUuid .upsertFactionStates index := by
    intro index faction row read
    simp only [parseFactionStateInsert, Option.bind_eq_bind, Option.bind_eq_some_iff,
      Option.pure_def, Option.some.injEq] at read
    obtain ⟨-, -, -, -, -, -, -, -, -, -, -, -, rfl⟩ := read
    rfl
  have keys := distinct_proposedStates parsed valid.distinct distinctIds
  have ids : proposed.map FactionStateRow.id =
      env.draws .upsertFactionStates (message.factions.getD []).length := map_of_mapIdx drawn parsed
  have distinctDrawn : (proposed.map FactionStateRow.id).Nodup := ids ▸ distinct
  have own : ∀ wanted ∈ proposed, ∀ row ∈ db.factionStates.rows, row.Clash wanted →
      row.key = wanted.key := by
    intro wanted listed row member clash
    obtain sameId | sameKey := clash
    · have image : wanted.id ∈ proposed.map FactionStateRow.id := List.mem_map_of_mem listed
      exact absurd (List.mem_map.mpr ⟨row, member, sameId⟩) (fresh _ (ids ▸ image))
    · exact sameKey
  have apart : proposed.Pairwise fun wanted wanted' => ¬ wanted.Clash wanted' :=
    List.Pairwise.imp₂ (fun _ _ otherId otherKey clash => clash.elim otherId otherKey)
      (List.pairwise_map.mp distinctDrawn) (List.pairwise_map.mp keys)
  obtain ⟨outcome, upserted, unique⟩ := exists_upsertRows FactionStateRow.key
    (FactionStateRow.setExcluded (env.newDate .upsertFactionStates)) FactionStateRow.differs
    FactionStateRow.clash_symm (fun _ _ _ _ clash => clash) (fun _ _ same => same) keys
    db.factionStates.unique own apart
  obtain ⟨after, written⟩ := db.exists_writeFactionStates env.now unique
  exact ⟨after, bind_eq_ok.mpr ⟨proposed, orFail_eq_ok.mpr parsed, bind_eq_ok.mpr
    ⟨outcome, orFail_eq_ok.mpr upserted, orFail_eq_ok.mpr written⟩⟩⟩

/-! ## Whether the factions of a message are resolved -/

/-- What `processFactionsData` does before it comes to the conflicts. -/
def processFactionStates (env : TxEnv) (message : SystemMessage K) (systemId : Uuid) (db : Db P) :
    Except TxError (Db P) := do
  let messageFactions := message.factions.getD []
  let (db, factions) ← upsertFactions env .upsertFactions
    (messageFactions.map FactionElement.messageFaction) db
  let factionIdMap := createFactionIdMap factions
  let db ← upsertSystemFactions env systemId (factions.map FactionRow.id) db
  let db ← cleanupFactionStates env systemId (factions.map FactionRow.id) db
  let db ← syncSystemControllingFaction env systemId (controllingFactionIdOf message factionIdMap) db
  upsertFactionStates env systemId messageFactions factionIdMap db

theorem processFactionsData_eq {message : SystemMessage K} (systemId : Uuid) (db : Db P)
    (somebody : message.factions.getD [] ≠ []) :
    processFactionsData env message systemId db =
      processFactionStates env message systemId db >>=
        upsertFactionConflicts env systemId (message.conflicts.getD []) := by
  simp only [processFactionsData, if_neg somebody, processFactionStates, bind_assoc]

/-- The map has, for each faction of the message, the id of its row. -/
structure ResolvesNames (P : Platform K) (message : SystemMessage K) (factions : List FactionRow) :
    Prop where
  listed : ∀ faction ∈ message.factions.getD [], ∃ row ∈ factions,
    P.citext row.name = P.citext faction.name ∧
      lookupFactionId (createFactionIdMap factions) faction.name = .value row.id
  systemFaction : ∀ name, message.systemFaction = some name →
    ∀ faction ∈ message.factions.getD [], P.citext faction.name = P.citext name →
      ∃ row ∈ factions, P.citext row.name = P.citext name ∧
        controllingFactionIdOf message (createFactionIdMap factions) = .value row.id

/-- The states of the factions are written, and who controls the system. -/
structure WritesFactions (message : SystemMessage K) (systemId : Uuid) (states : Db P) : Prop where
  factionStates : OneForEach (FactionStateRow.Mirrors states)
    (states.factionStates.rows.filter fun row => row.systemId = systemId) (message.factions.getD [])
  controlled : ∀ name, message.systemFaction = some name →
    ∀ faction ∈ message.factions.getD [], P.citext faction.name = P.citext name →
      ∃ factionId, states.findFactionId name = some factionId ∧
        ∀ system ∈ states.systems.rows, system.id = systemId →
          system.controllingFactionId = some factionId

/-- The factions of a message are resolved to the rows that the upsert returns, and their
states and the control of the system are written. -/
structure ResolvesFactions (env : TxEnv) (message : SystemMessage K) (systemId : Uuid) (db : Db P) :
    Prop where
  resolved : ∃ stored factions, upsertFactions env .upsertFactions
      ((message.factions.getD []).map FactionElement.messageFaction) db = .ok (stored, factions) ∧
    ResolvesNames P message factions
  written : message.factions.getD [] ≠ [] → ∃ states,
    processFactionStates env message systemId db = .ok states ∧
      WritesFactions message systemId states

/-- The message spells the names as they are stored, and none as a property of every object. -/
structure SpelledAsStored (message : SystemMessage K) (db : Db P) : Prop where
  factions : ∀ faction ∈ message.factions.getD [],
    db.storedName faction.name = faction.name ∧ faction.name ≠ "__proto__"
  systemFaction : ∀ name, message.systemFaction = some name →
    ∀ faction ∈ message.factions.getD [], P.citext faction.name = P.citext name →
      name = faction.name ∧ name ≠ ""
  ordinary : message.factions.getD [] ≠ [] → ∀ name, message.systemFaction = some name →
    name ∈ objectPrototypeKeys → ∃ faction ∈ message.factions.getD [], faction.name = name

/-- The rows that an upsert of a message's factions returns. -/
structure Returns (message : SystemMessage K) (db stored : Db P) (factions : List FactionRow) :
    Prop where
  rows : List.Forall₂ (fun row faction =>
    storedAs P stored.factions.rows faction.name = some row.identity) factions
      (message.factions.getD [])
  names : List.Forall₂ (fun row faction => row.name = db.storedName faction.name) factions
    (message.factions.getD [])
  distinct : (factions.map FactionRow.name).Nodup
  distinctIds : (factions.map FactionRow.id).Nodup

theorem returns_upsertFactions {message : SystemMessage K} {stored : Db P}
    {factions : List FactionRow}
    (upserted : upsertFactions env .upsertFactions
      ((message.factions.getD []).map FactionElement.messageFaction) db = .ok (stored, factions)) :
    Returns message db stored factions := by
  obtain ⟨distinctNames, distinctIds⟩ := distinct_of_upsertFactions upserted
  rw [List.map_map] at distinctNames
  have rows := forall₂_of_stored (of_upsertFactions upserted).1
  have names : List.Forall₂ (fun row faction => row.name = db.storedName faction.name) factions
      (message.factions.getD []) := by
    refine (List.forall₂_iff_get.mpr ?_)
    obtain ⟨lengths, each⟩ := List.forall₂_iff_get.mp rows
    refine ⟨lengths, fun index small small' => ?_⟩
    have known := each index small small'
    have spelling := storedAs_upsertFactions upserted
      (List.mem_map_of_mem (List.get_mem (message.factions.getD []) ⟨index, small'⟩))
    rw [FactionElement.messageFaction, known] at spelling
    exact Option.some.inj spelling
  refine ⟨rows, names, ?_, distinctIds⟩
  have spelled : factions.map (fun row => P.citext row.name) =
      (message.factions.getD []).map fun faction => P.citext faction.name := by
    rw [← List.forall₂_eq_eq_eq]
    refine List.forall₂_map_left_iff.mpr (List.forall₂_map_right_iff.mpr (names.imp ?_))
    intro row faction same
    rw [same, db.citext_storedName]
  have distinctSpellings : (factions.map fun row => P.citext row.name).Nodup :=
    spelled ▸ distinctNames
  exact (List.pairwise_map.mp distinctSpellings).map _ fun row row' apart same =>
    apart (congrArg P.citext same)

/-- A name is resolved when it is the stored spelling of a faction of the message. -/
theorem Returns.lookup_iff {message : SystemMessage K} {stored : Db P} {factions : List FactionRow}
    (returns : Returns message db stored factions) {name : String} :
    (∃ row ∈ factions, P.citext row.name = P.citext name ∧
        lookupFactionId (createFactionIdMap factions) name = .value row.id) ↔
      (∃ faction ∈ message.factions.getD [], db.storedName faction.name = name) ∧
        name ≠ "__proto__" := by
  obtain ⟨described, present⟩ := exists_of_forall₂ returns.names
  constructor
  · rintro ⟨row, -, -, found⟩
    obtain ⟨member, ordinary⟩ := (lookupFactionId_eq_value_iff returns.distinct).mp found
    obtain ⟨row', listed, same⟩ := List.mem_map.mp member
    obtain ⟨faction, inMessage, spelled⟩ := described row' listed
    refine ⟨⟨faction, inMessage, ?_⟩, ordinary⟩
    rw [← spelled]
    exact congrArg Prod.snd same
  · rintro ⟨⟨faction, inMessage, rfl⟩, ordinary⟩
    obtain ⟨row, listed, spelled⟩ := present faction inMessage
    refine ⟨row, listed, congrArg P.citext spelled,
      (lookupFactionId_eq_value_iff returns.distinct).mpr ⟨?_, ordinary⟩⟩
    exact List.mem_map.mpr ⟨row, listed, Prod.ext rfl spelled⟩

theorem exists_row_of_lookup {factions : List FactionRow} {name : String} {id : Uuid}
    (found : lookupFactionId (createFactionIdMap factions) name = .value id) :
    ∃ row ∈ factions, P.citext row.name = P.citext name ∧
      lookupFactionId (createFactionIdMap factions) name = .value row.id := by
  obtain ⟨row, listed, same⟩ := List.mem_map.mp (mem_of_lookupFactionId found)
  obtain ⟨rfl, rfl⟩ := Prod.mk.inj same
  exact ⟨row, listed, rfl, found⟩

/-- **A faction that is not spelled as it is stored aborts the transaction.** -/
theorem spelled_of_processFactionsData {message : SystemMessage K} {systemId : Uuid}
    (done : processFactionsData env message systemId db = .ok db')
    {faction : FactionElement K} (listed : faction ∈ message.factions.getD []) :
    db.storedName faction.name = faction.name ∧ faction.name ≠ "__proto__" := by
  rw [processFactionsData_eq systemId db (List.ne_nil_of_mem listed)] at done
  obtain ⟨states, written, -⟩ := bind_eq_ok.mp done
  obtain ⟨⟨stored, factions⟩, upserted, written⟩ := bind_eq_ok.mp written
  obtain ⟨present, -, written⟩ := bind_eq_ok.mp written
  obtain ⟨cleaned, -, written⟩ := bind_eq_ok.mp written
  obtain ⟨synced, -, state⟩ := bind_eq_ok.mp written
  have returns := returns_upsertFactions upserted
  obtain ⟨proposed, parsed, -⟩ := bind_eq_ok.mp state
  obtain ⟨row, -, index, read⟩ := (proposedStates_iff (orFail_eq_ok.mp parsed)).2 faction listed
  obtain ⟨member, ordinary⟩ := (lookupFactionId_eq_value_iff returns.distinct).mp
    (key_parseFactionStateInsert read).1
  obtain ⟨row', inFactions, same⟩ := List.mem_map.mp member
  obtain ⟨faction', listed', spelled⟩ := (exists_of_forall₂ returns.names).1 row' inFactions
  have name : db.storedName faction'.name = faction.name :=
    spelled.symm.trans (congrArg Prod.snd same)
  have citext := db.citext_storedName faction'.name
  rw [name] at citext
  have distinct := (distinct_of_upsertFactions upserted).1
  rw [List.map_map] at distinct
  obtain rfl := List.inj_on_of_nodup_map distinct listed listed' citext
  exact ⟨name, ordinary⟩

/-- Two factions of a valid message whose names differ in case at most are one. -/
theorem ValidFactions.eq_of_citext {message : SystemMessage K} (valid : ValidFactions P message)
    {faction faction' : FactionElement K} (listed : faction ∈ message.factions.getD [])
    (listed' : faction' ∈ message.factions.getD [])
    (same : P.citext faction.name = P.citext faction'.name) : faction = faction' :=
  List.inj_on_of_nodup_map valid.distinct listed listed' same

/-- The controlling faction is looked up by the name that the message gives. -/
theorem controllingFactionIdOf_eq {message : SystemMessage K} {name : String}
    (given : message.systemFaction = some name) (named : name ≠ "")
    (factionIdMap : OrderedMap String Uuid) :
    controllingFactionIdOf message factionIdMap = lookupFactionId factionIdMap name := by
  rw [controllingFactionIdOf, given]
  exact if_neg named

theorem lookup_of_controllingFactionIdOf {message : SystemMessage K} {name : String} {id : Uuid}
    {factionIdMap : OrderedMap String Uuid} (given : message.systemFaction = some name)
    (found : controllingFactionIdOf message factionIdMap = .value id) :
    name ≠ "" ∧ lookupFactionId factionIdMap name = .value id := by
  by_cases empty : name = ""
  · simp only [controllingFactionIdOf, given, if_pos empty] at found
    cases found
  · exact ⟨empty, (controllingFactionIdOf_eq given empty factionIdMap).symm.trans found⟩

/-- A controlling faction that is no property of every object, or is listed, can be written. -/
theorem inherited_iff {message : SystemMessage K} {factionIdMap : OrderedMap String Uuid} :
    controllingFactionIdOf message factionIdMap = .inherited ↔
      ∃ name, message.systemFaction = some name ∧ name ∈ objectPrototypeKeys ∧
        factionIdMap.get name = none := by
  constructor
  · intro inherited
    unfold controllingFactionIdOf at inherited
    split at inherited
    · cases inherited
    · rename_i name given
      split at inherited
      · cases inherited
      · unfold lookupFactionId at inherited
        split at inherited
        · cases inherited
        · rename_i unknown
          split at inherited
          · exact ⟨name, given, ‹_›, unknown⟩
          · cases inherited
  · rintro ⟨name, given, property, unknown⟩
    have named : name ≠ "" := by
      rintro rfl
      exact absurd property (by decide)
    rw [controllingFactionIdOf_eq given named, lookupFactionId, unknown]
    exact if_pos property

/-- A message that resolves its factions spells them as they are stored. -/
theorem spelledAsStored_of_resolves {message : SystemMessage K} {systemId : Uuid}
    (valid : ValidFactions P message) (resolves : ResolvesFactions env message systemId db) :
    SpelledAsStored message db := by
  obtain ⟨⟨stored, factions, upserted, names⟩, written⟩ := resolves
  have returns := returns_upsertFactions upserted
  have spelled : ∀ faction ∈ message.factions.getD [],
      db.storedName faction.name = faction.name ∧ faction.name ≠ "__proto__" := by
    intro faction listed
    obtain ⟨⟨faction', listed', same⟩, ordinary⟩ := returns.lookup_iff.mp (names.listed faction listed)
    have citext := db.citext_storedName faction'.name
    rw [same] at citext
    obtain rfl := valid.eq_of_citext listed listed' citext
    exact ⟨same, ordinary⟩
  refine ⟨spelled, fun name given faction listed citext => ?_, fun somebody name given property => ?_⟩
  · obtain ⟨row, inFactions, sameName, found⟩ := names.systemFaction name given faction listed citext
    obtain ⟨named, looked⟩ := lookup_of_controllingFactionIdOf given found
    obtain ⟨⟨faction', listed', same⟩, -⟩ :=
      returns.lookup_iff.mp ⟨row, inFactions, sameName, looked⟩
    have citext' := db.citext_storedName faction'.name
    rw [same] at citext'
    obtain rfl := valid.eq_of_citext listed listed' (citext.trans citext')
    exact ⟨same.symm.trans (spelled faction listed).1, named⟩
  · obtain ⟨states, done, -⟩ := written somebody
    obtain ⟨⟨stored', factions'⟩, upserted', done⟩ := bind_eq_ok.mp done
    obtain ⟨present, -, done⟩ := bind_eq_ok.mp done
    obtain ⟨cleaned, -, done⟩ := bind_eq_ok.mp done
    obtain ⟨synced, sync, -⟩ := bind_eq_ok.mp done
    obtain ⟨rfl, rfl⟩ := Prod.mk.inj (Except.ok.inj (upserted'.symm.trans upserted))
    cases known : (createFactionIdMap factions').get name with
    | none =>
        rw [inherited_iff.mpr ⟨name, given, property, known⟩] at sync
        exact absurd sync throw_ne_ok
    | some id =>
        have found : lookupFactionId (createFactionIdMap factions') name = .value id := by
          rw [lookupFactionId, known]
        have member := ((lookupFactionId_eq_value_iff returns.distinct).mp found).1
        obtain ⟨row, inFactions, same⟩ := List.mem_map.mp member
        obtain ⟨faction, listed, name'⟩ := (exists_of_forall₂ returns.names).1 row inFactions
        refine ⟨faction, listed, ?_⟩
        rw [← (spelled faction listed).1, ← name']
        exact congrArg Prod.snd same

/-- Factions that are spelled as they are stored are resolved. -/
theorem resolves_of_spelledAsStored {message : SystemMessage K} (systemId : Uuid)
    (valid : ValidFactions P message) (fresh : DrawsFreshIds env message db)
    (spelled : SpelledAsStored message db) : ResolvesFactions env message systemId db := by
  obtain ⟨⟨stored, factions⟩, upserted⟩ := exists_upsertFactions valid fresh
  have returns := returns_upsertFactions upserted
  have listed : ∀ faction ∈ message.factions.getD [], ∃ row ∈ factions,
      P.citext row.name = P.citext faction.name ∧
        lookupFactionId (createFactionIdMap factions) faction.name = .value row.id :=
    fun faction member => returns.lookup_iff.mpr
      ⟨⟨faction, member, (spelled.factions faction member).1⟩, (spelled.factions faction member).2⟩
  have controls : ∀ name, message.systemFaction = some name →
      ∀ faction ∈ message.factions.getD [], P.citext faction.name = P.citext name →
        ∃ row ∈ factions, P.citext row.name = P.citext name ∧
          controllingFactionIdOf message (createFactionIdMap factions) = .value row.id := by
    intro name given faction member citext
    obtain ⟨rfl, named⟩ := spelled.systemFaction name given faction member citext
    rw [controllingFactionIdOf_eq given named]
    exact listed faction member
  refine ⟨⟨stored, factions, upserted, listed, controls⟩, fun somebody => ?_⟩
  have ordinary : controllingFactionIdOf message (createFactionIdMap factions) ≠ .inherited := by
    intro inherited
    obtain ⟨name, given, property, unknown⟩ := inherited_iff.mp inherited
    obtain ⟨faction, member, rfl⟩ := spelled.ordinary somebody name given property
    obtain ⟨row, -, -, found⟩ := listed faction member
    simp only [lookupFactionId, unknown] at found
    split at found <;> cases found
  obtain ⟨present, presence⟩ :=
    exists_upsertSystemFactions env systemId (factions.map FactionRow.id) stored
  obtain ⟨cleaned, cleanup⟩ :=
    exists_cleanupFactionStates env systemId (factions.map FactionRow.id) present
  obtain ⟨synced, sync⟩ := exists_syncSystemControllingFaction env systemId cleaned ordinary
  have left := states_cleanup cleanup
  have storedFrame := frame_upsertFactions upserted
  have presentFrame := frame_upsertSystemFactions presence
  have cleanedFrame := frame_cleanupFactionStates cleanup
  have syncedFrame := frame_syncSystemControllingFaction sync
  have sameStates : synced.factionStates = cleaned.factionStates := by rw [syncedFrame]
  have presentStates : present.factionStates = db.factionStates := by
    rw [presentFrame, storedFrame]
  have freshStates : ∀ id ∈ env.draws .upsertFactionStates (message.factions.getD []).length,
      id ∉ synced.factionStates.rows.map FactionStateRow.id := by
    intro id drawn taken
    rw [sameStates, (Db.of_writeFactionStates (orFail_eq_ok.mp cleanup)).1, presentStates] at taken
    exact fresh.factionStates id drawn ((List.filter_sublist.map _).subset taken)
  have resolved : ∀ faction ∈ message.factions.getD [],
      ∃ id, lookupFactionId (createFactionIdMap factions) faction.name = .value id := by
    intro faction member
    obtain ⟨row, -, -, found⟩ := listed faction member
    exact ⟨row.id, found⟩
  obtain ⟨states, state⟩ := exists_upsertFactionStates systemId valid
    returns.distinctIds fresh.distinctStates freshStates resolved
  have statesFrame := frame_upsertFactionStates state
  have syncedFactions : synced.factions = stored.factions := by
    rw [syncedFrame, cleanedFrame, presentFrame]
  have statesFactions : states.factions = synced.factions := by rw [statesFrame]
  refine ⟨states, bind_eq_ok.mpr ⟨_, upserted, bind_eq_ok.mpr ⟨present, presence, bind_eq_ok.mpr
    ⟨cleaned, cleanup, bind_eq_ok.mpr ⟨synced, sync, state⟩⟩⟩⟩, ?_, ?_⟩
  · rw [← sameStates] at left
    have rows := returns.rows
    rw [← syncedFactions] at rows
    exact (oneForEach_upsertFactionStates valid.distinct returns.distinctIds rows left state).imp
      fun row faction mirrors => mirrors.later (.of_eq statesFactions)
  · intro name given faction member citext
    obtain ⟨row, -, -, found⟩ := controls name given faction member citext
    obtain ⟨-, looked⟩ := lookup_of_controllingFactionIdOf given found
    refine ⟨row.id, KeepsIds.of_eq (statesFactions.trans syncedFactions) _ _
      (findFactionId_of_lookup returns.rows looked), fun system inSystems here => ?_⟩
    rw [statesFrame] at inSystems
    exact controlSettled_sync sync row.id found system inSystems here

/-- **The factions of a message are resolved exactly when it spells them as they are stored.** -/
theorem factions_resolved_iff {message : SystemMessage K} (systemId : Uuid)
    (valid : ValidFactions P message) (fresh : DrawsFreshIds env message db) :
    ResolvesFactions env message systemId db ↔ SpelledAsStored message db :=
  ⟨spelledAsStored_of_resolves valid, resolves_of_spelledAsStored systemId valid fresh⟩

theorem factions_resolved_iff_sample : ResolvesFactions (sampleEnv 1)
    (sampleMessage (some "A") [sampleFaction "A" (1 / 2), sampleFaction "B" (1 / 4)]) (.ofNat 7)
    (Db.empty : Db asciiPlatform) := by
  refine (factions_resolved_iff (.ofNat 7) ?_ ?_).mpr ?_
  · exact ⟨by decide +kernel, by decide +kernel, by decide +kernel, by decide +kernel,
      by decide +kernel, by decide +kernel, by decide +kernel, by decide +kernel⟩
  · exact ⟨by decide +kernel, fun id _ => List.not_mem_nil, by decide +kernel,
      fun id _ => List.not_mem_nil⟩
  · refine ⟨by decide +kernel, fun name given faction listed citext => ?_, fun _ name given => ?_⟩
    · obtain rfl := Option.some.inj given
      revert faction
      decide +kernel
    · obtain rfl := Option.some.inj given
      decide +kernel

/-- A faction that was stored in another case is not resolved. -/
theorem sampleMessage_in_lower_case_is_not_resolved : ∃ db : Db asciiPlatform,
    WorkerReachable db ∧ ValidFactions asciiPlatform
        (sampleMessage (some "a") [sampleFaction "a" (1 / 2)]) ∧
      DrawsFreshIds (sampleEnv 2) (sampleMessage (some "a") [sampleFaction "a" (1 / 2)]) db ∧
      ¬ ResolvesFactions (sampleEnv 2) (sampleMessage (some "a") [sampleFaction "a" (1 / 2)])
        (.ofNat 1000) db := by
  obtain ⟨db, run, observed⟩ := exists_reachable_of_execute workerStep
    (Db.empty : Db asciiPlatform)
    [(sampleEnv 1, .fsdJump (sampleMessage (some "A") [sampleFaction "A" (1 / 2)]))]
    (fun db => decide ((∀ id ∈ (sampleEnv 2).draws .upsertFactions 1,
        id ∉ db.factions.rows.map FactionRow.id) ∧
      (∀ id ∈ (sampleEnv 2).draws .upsertFactionStates 1,
        id ∉ db.factionStates.rows.map FactionStateRow.id) ∧ db.storedName "a" = "A"))
    (by decide +kernel)
  obtain ⟨freshFactions, freshStates, stored⟩ := of_decide_eq_true observed
  have valid : ValidFactions asciiPlatform
      (sampleMessage (some "a") [sampleFaction "a" (1 / 2)]) :=
    ⟨by decide +kernel, by decide +kernel, by decide +kernel, by decide +kernel,
      by decide +kernel, by decide +kernel, by decide +kernel, by decide +kernel⟩
  have fresh : DrawsFreshIds (sampleEnv 2) (sampleMessage (some "a") [sampleFaction "a" (1 / 2)]) db :=
    ⟨by decide +kernel, freshFactions, by decide +kernel, freshStates⟩
  refine ⟨db, run, valid, fresh, fun resolves => ?_⟩
  have spelled := (spelledAsStored_of_resolves valid resolves).factions _ List.mem_cons_self
  exact absurd (stored.symm.trans spelled.1) (by decide +kernel)

end FactionNames

end EliteHubVault
