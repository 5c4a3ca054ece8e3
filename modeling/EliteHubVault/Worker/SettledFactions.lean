import EliteHubVault.Worker.Settled

/-!
# The factions of a system, a second time

`storedAs` is the id and the name under which a faction is stored. An upsert keeps it for
every faction that is known, so the ids that the second run finds are those of the first.
From then on the two runs write the same presence, states, control and conflicts.
-/

set_option autoImplicit false
set_option linter.unusedSectionVars false

namespace EliteHubVault

open Library

variable {K : Type} [Field K] [LinearOrder K] {P : Platform K} {env : TxEnv} {db db' : Db P}

/-! ## Factions -/

/-- The id and the stored name of a faction. -/
def FactionRow.identity (row : FactionRow) : Uuid × String := (row.id, row.name)

/-- How a faction of this name is stored. -/
def storedAs (P : Platform K) (rows : List FactionRow) (name : String) : Option (Uuid × String) :=
  (rows.find? fun row => P.citext row.name = P.citext name).map FactionRow.identity

theorem findFactionId_eq (name : String) :
    db.findFactionId name = (storedAs P db.factions.rows name).map Prod.fst := by
  rw [Db.findFactionId, storedAs, Option.map_map]
  rfl

/-- The proposed rows have fresh ids and the names of the message. -/
theorem map_identity_proposedFactions {statement : Statement}
    {messageFactions : List MessageFaction} {proposed : List FactionRow}
    (parsed : proposedFactions P env statement messageFactions = some proposed) :
    proposed.map FactionRow.identity = messageFactions.mapIdx fun index faction =>
      (env.randomUuid statement index, faction.name) := by
  have rows := mapM_id_eq_some.mp parsed
  refine List.ext_getElem ?_ fun index small small' => ?_
  · have lengths := congrArg List.length rows
    simpa using lengths.symm
  · simp only [List.length_map, List.length_mapIdx] at small small'
    have here := congrArg (fun list => list[index]?) rows
    simp only [List.getElem?_mapIdx, List.getElem?_map, List.getElem?_eq_getElem small,
      List.getElem?_eq_getElem small', Option.map_some, Option.some.injEq] at here
    simp only [parseFactionInsert, Option.bind_eq_bind, Option.bind_eq_some_iff, Option.pure_def,
      Option.some.injEq] at here
    obtain ⟨government, -, allegiance, -, row⟩ := here
    simp only [List.getElem_map, List.getElem_mapIdx, ← row, FactionRow.identity]

theorem map_name_proposedFactions {statement : Statement} {messageFactions : List MessageFaction}
    {proposed : List FactionRow}
    (parsed : proposedFactions P env statement messageFactions = some proposed) :
    proposed.map FactionRow.name = messageFactions.map MessageFaction.name := by
  have names := congrArg (List.map Prod.snd) (map_identity_proposedFactions parsed)
  rw [List.map_map] at names
  refine names.trans (List.ext_getElem (by simp) fun index small small' => ?_)
  simp only [List.getElem_mapIdx, List.getElem_map]

/-- The row that an upsert leaves for a proposed faction. -/
def upsertedFaction (P : Platform K) (updatedAt : Timestamp) (rows : List FactionRow)
    (proposed : FactionRow) : FactionRow :=
  rowFor (fun row => P.citext row.name) (FactionRow.setExcluded updatedAt) rows proposed

/-- A faction that is stored keeps its id and name; another gets the proposed ones. -/
theorem identity_upsertedFaction (updatedAt : Timestamp) (rows : List FactionRow)
    (proposed : FactionRow) : (upsertedFaction P updatedAt rows proposed).identity =
      (storedAs P rows proposed.name).getD proposed.identity := by
  unfold upsertedFaction rowFor storedAs
  cases rows.find? fun row => P.citext row.name = P.citext proposed.name <;> rfl

/-- **What an upsert of factions does to the names**: the returned rows are the stored ones,
known factions stay as they are, and no other faction appears. -/
theorem of_upsertFactions {statement : Statement} {messageFactions : List MessageFaction}
    {factions : List FactionRow}
    (done : upsertFactions env statement messageFactions db = .ok (db', factions)) :
    (factions.map fun row => some row.identity) =
        messageFactions.map (fun faction => storedAs P db'.factions.rows faction.name) ∧
      (∀ name identity, storedAs P db.factions.rows name = some identity →
        storedAs P db'.factions.rows name = some identity) ∧
      ∀ name, (∀ faction ∈ messageFactions, P.citext faction.name ≠ P.citext name) →
        storedAs P db'.factions.rows name = storedAs P db.factions.rows name := by
  unfold upsertFactions at done
  split at done
  · rename_i nobody
    cases pure_eq_ok.mp done
    exact ⟨by simp [nobody], fun _ _ known => known, fun _ _ => rfl⟩
  · simp only [bind_eq_ok, orFail_eq_ok, pure_eq_ok] at done
    obtain ⟨proposed, parsed, ⟨rows, changes⟩, upserted, ⟨table, changes'⟩, write, same⟩ := done
    cases same
    have rowsEq : rows = table.rows := congrArg Prod.fst (Table.write_eq_some write)
    subst rowsEq
    obtain ⟨changed, -, left, others⟩ := upsertRows_always (fun _ _ => rfl)
      (fun wanted _ row (same : P.citext row.name = P.citext wanted.name) => same) upserted
    have names := map_name_proposedFactions parsed
    have found : ∀ row ∈ proposed, storedAs P table.rows row.name =
        some (upsertedFaction P (env.newDate statement) db.factions.rows row).identity :=
      fun row member => congrArg (Option.map FactionRow.identity) (left row member)
    refine ⟨?_, fun name identity known => ?_, fun name unlisted => ?_⟩
    · have stored : messageFactions.map (fun faction => storedAs P table.rows faction.name) =
          proposed.map fun row => storedAs P table.rows row.name := by
        have mapped := congrArg (List.map (storedAs P table.rows)) names
        rw [List.map_map, List.map_map] at mapped
        exact mapped.symm
      rw [stored, changed, filterMap_new?_changeFor, List.map_map]
      exact List.map_congr_left fun row member => (found row member).symm
    · by_cases listed : ∃ row ∈ proposed, P.citext row.name = P.citext name
      · obtain ⟨row, member, sameName⟩ := listed
        have here := found row member
        rw [identity_upsertedFaction] at here
        simp only [storedAs, sameName] at here known ⊢
        rw [here, known, Option.getD_some]
      · have absent : P.citext name ∉ proposed.map fun row => P.citext row.name := by
          simpa using listed
        simp only [storedAs] at known ⊢
        rw [others _ absent, known]
    · have absent : P.citext name ∉ proposed.map fun row => P.citext row.name := by
        have keys := congrArg (List.map P.citext) names
        rw [List.map_map, List.map_map] at keys
        rw [show (fun row : FactionRow => P.citext row.name) = P.citext ∘ FactionRow.name from rfl,
          keys, List.mem_map]
        rintro ⟨faction, member, same⟩
        exact unlisted faction member same
      simp only [storedAs]
      rw [others _ absent]

/-- A message that names a faction twice fails, and the returned factions are distinct. -/
theorem distinct_of_upsertFactions {statement : Statement}
    {messageFactions : List MessageFaction} {factions : List FactionRow}
    (done : upsertFactions env statement messageFactions db = .ok (db', factions)) :
    (messageFactions.map fun faction => P.citext faction.name).Nodup ∧
      (factions.map FactionRow.id).Nodup := by
  unfold upsertFactions at done
  split at done
  · rename_i nobody
    cases pure_eq_ok.mp done
    simp [nobody]
  · simp only [bind_eq_ok, orFail_eq_ok, pure_eq_ok] at done
    obtain ⟨proposed, parsed, ⟨rows, changes⟩, upserted, ⟨table, changes'⟩, write, same⟩ := done
    cases same
    have rowsEq : rows = table.rows := congrArg Prod.fst (Table.write_eq_some write)
    subst rowsEq
    have keyKept : ∀ wanted ∈ proposed, ∀ row : FactionRow, P.citext row.name = P.citext wanted.name →
        P.citext (row.setExcluded (env.newDate statement) wanted).name = P.citext wanted.name :=
      fun _ _ _ same => same
    obtain ⟨changed, distinct, left, -⟩ := upsertRows_always (fun _ _ => rfl) keyKept upserted
    have names := congrArg (List.map P.citext) (map_name_proposedFactions parsed)
    rw [List.map_map, List.map_map] at names
    refine ⟨names ▸ distinct, ?_⟩
    rw [changed, filterMap_new?_changeFor, List.map_map, List.Nodup, List.pairwise_map]
    -- Two factions with one id would be one row of the table, so they have one name.
    refine (List.pairwise_map.mp distinct).imp_of_mem fun {first second} inFirst inSecond apart => ?_
    intro sameId
    have here := List.mem_of_find?_eq_some (left first inFirst)
    have there := List.mem_of_find?_eq_some (left second inSecond)
    have sameRow := List.inj_on_of_nodup_map (f := FactionRow.id)
      (List.pairwise_map.mpr (table.unique.imp fun clash same => clash (.inl same))) here there sameId
    refine apart ?_
    rw [← key_rowFor (keyKept first inFirst), ← key_rowFor (keyKept second inSecond)]
    exact congrArg (fun row : FactionRow => P.citext row.name) sameRow

/-- Factions that are all stored are returned under the ids and names they have. -/
theorem upsertFactions_of_stored {statement : Statement} {messageFactions : List MessageFaction}
    {factions factions' : List FactionRow}
    (stored : (factions.map fun row => some row.identity) =
      messageFactions.map fun faction => storedAs P db.factions.rows faction.name)
    (done : upsertFactions env statement messageFactions db = .ok (db', factions')) :
    factions'.map FactionRow.identity = factions.map FactionRow.identity := by
  obtain ⟨returned, kept, -⟩ := of_upsertFactions done
  have same : messageFactions.map (fun faction => storedAs P db'.factions.rows faction.name) =
      messageFactions.map fun faction => storedAs P db.factions.rows faction.name := by
    refine List.map_congr_left fun faction member => ?_
    have inStored : storedAs P db.factions.rows faction.name ∈
        factions.map fun row => some row.identity := stored ▸ List.mem_map_of_mem member
    obtain ⟨row, -, known⟩ := List.mem_map.mp inStored
    rw [kept _ _ known.symm, known]
  have identities := (returned.trans same).trans stored.symm
  refine List.map_injective_iff.mpr (Option.some_injective _) ?_
  rw [List.map_map, List.map_map]
  exact identities

/-- The map from names to ids depends on ids and names only. -/
theorem createFactionIdMap_congr {factions factions' : List FactionRow}
    (same : factions'.map FactionRow.identity = factions.map FactionRow.identity) :
    createFactionIdMap factions' = createFactionIdMap factions := by
  have byIdentity : ∀ (list : List FactionRow) (acc : OrderedMap String Uuid),
      list.foldl (fun acc faction =>
        if faction.name = "__proto__" then acc else acc.set faction.name faction.id) acc =
      (list.map FactionRow.identity).foldl (fun acc identity =>
        if identity.2 = "__proto__" then acc else acc.set identity.2 identity.1) acc := by
    intro list acc
    rw [List.foldl_map]
    rfl
  rw [createFactionIdMap, createFactionIdMap, byIdentity, byIdentity, same]

theorem mem_of_get_foldl_set {factions : List FactionRow} {acc : OrderedMap String Uuid}
    {name : String} {id : Uuid}
    (known : (factions.foldl (fun acc faction =>
      if faction.name = "__proto__" then acc else acc.set faction.name faction.id) acc).get name =
        some id) : (id, name) ∈ factions.map FactionRow.identity ∨ acc.get name = some id := by
  induction factions generalizing acc with
  | nil => exact .inr known
  | cons faction rest ih =>
      rcases ih known with later | before
      · exact .inl (List.mem_cons_of_mem _ later)
      · dsimp only at before
        split at before
        · exact .inr before
        · rw [OrderedMap.get_set] at before
          split at before
          · rename_i same
            cases before
            exact .inl (List.mem_cons.mpr (.inl (Prod.ext rfl same)))
          · exact .inr before

/-- The map holds the ids of the factions under their stored names. -/
theorem mem_of_lookupFactionId {factions : List FactionRow} {name : String} {id : Uuid}
    (found : lookupFactionId (createFactionIdMap factions) name = .value id) :
    (id, name) ∈ factions.map FactionRow.identity := by
  unfold lookupFactionId at found
  split at found
  · rename_i known
    cases found
    rcases mem_of_get_foldl_set known with member | impossible
    · exact member
    · cases impossible
  · split at found <;> cases found

/-! ## Presence -/

/-- The factions that are present in the system are these. -/
structure PresenceSettled (systemId : Uuid) (factionIds : List Uuid)
    (rows : List SystemFactionRow) : Prop where
  listed : ∀ factionId ∈ factionIds, (systemId, factionId) ∈ rows.map SystemFactionRow.key
  only : ∀ row ∈ rows, row.systemId = systemId → row.factionId ∈ factionIds

theorem presenceSettled_upsertSystemFactions {systemId : Uuid} {factionIds : List Uuid}
    (done : upsertSystemFactions env systemId factionIds db = .ok db') :
    PresenceSettled systemId factionIds db'.systemFactions.rows := by
  obtain ⟨middle, inserted, deleted⟩ := bind_eq_ok.mp done
  obtain ⟨rows, -⟩ := Db.of_writeSystemFactions (orFail_eq_ok.mp inserted)
  obtain ⟨rows', -⟩ := Db.of_writeSystemFactions (orFail_eq_ok.mp deleted)
  have members : ∀ row, row ∈ db'.systemFactions.rows ↔ row ∈ middle.systemFactions.rows ∧
      ¬ (row.systemId = systemId ∧ row.factionId ∉ factionIds) := by
    intro row
    simp only [rows', deleteRows, List.mem_filter, Bool.not_eq_true', decide_eq_false_iff_not]
  constructor
  · intro factionId member
    have proposed : (systemId, factionId) ∈ (factionIds.map fun factionId =>
        (⟨systemId, factionId, env.now, env.now⟩ : SystemFactionRow)).map SystemFactionRow.key := by
      rw [List.map_map]
      exact List.mem_map.mpr ⟨factionId, member, rfl⟩
    have present :=
      (insertOrSkip_settles SystemFactionRow.key _ db.systemFactions.rows _).mpr (.inr proposed)
    rw [← rows] at present
    obtain ⟨row, inMiddle, key⟩ := List.mem_map.mp present
    refine List.mem_map.mpr ⟨row, (members row).mpr ⟨inMiddle, fun away => away.2 ?_⟩, key⟩
    have faction : row.factionId = factionId := congrArg Prod.snd key
    exact faction ▸ member
  · intro row member here
    have kept := ((members row).mp member).2
    by_contra absent
    exact kept ⟨here, absent⟩

theorem upsertSystemFactions_of_settled {systemId : Uuid} {factionIds : List Uuid}
    (settled : PresenceSettled systemId factionIds db.systemFactions.rows)
    (done : upsertSystemFactions env systemId factionIds db = .ok db') : db' = db := by
  obtain ⟨middle, inserted, deleted⟩ := bind_eq_ok.mp done
  have skipped := insertOrSkip_of_settled SystemFactionRow.key
    (factionIds.map fun factionId =>
      (⟨systemId, factionId, env.now, env.now⟩ : SystemFactionRow))
    db.systemFactions.rows (by
      intro row member
      obtain ⟨factionId, wanted, rfl⟩ := List.mem_map.mp member
      exact settled.listed factionId wanted)
  obtain ⟨rows, first⟩ := Db.of_writeSystemFactions (orFail_eq_ok.mp inserted)
  rw [skipped] at rows first
  obtain rfl : middle = db := by
    have same : middle.systemFactions = db.systemFactions := Table.ext rows
    rw [first, same]
    exact Db.enqueue_nil _ _
  have unmatched := deleteRows_of_none
    (fun row => row.systemId = systemId ∧ row.factionId ∉ factionIds) middle.systemFactions.rows
    fun row member => decide_eq_false fun away => away.2 (settled.only row member away.1)
  obtain ⟨rows', second⟩ := Db.of_writeSystemFactions (orFail_eq_ok.mp deleted)
  rw [unmatched] at rows' second
  have same : db'.systemFactions = middle.systemFactions := Table.ext rows'
  rw [second, same]
  exact Db.enqueue_nil _ _

/-! ## Control -/

/-- The system is controlled by this faction, when the message names one. -/
def ControlSettled (systemId : Uuid) (factionId : JsLookup Uuid) (rows : List (SystemRow K)) :
    Prop :=
  ∀ id, factionId = .value id → ∀ row ∈ rows, row.id = systemId →
    row.controllingFactionId = some id

theorem controlSettled_congr {systemId : Uuid} {factionId : JsLookup Uuid}
    {rows rows' : List (SystemRow K)}
    (same : rows'.map SystemRow.withoutUpdatedAt = rows.map SystemRow.withoutUpdatedAt)
    (settled : ControlSettled systemId factionId rows) : ControlSettled systemId factionId rows' := by
  intro id known row member here
  obtain ⟨old, inOld, equal⟩ : ∃ old ∈ rows, old.withoutUpdatedAt = row.withoutUpdatedAt :=
    List.mem_map.mp (same ▸ List.mem_map_of_mem member)
  obtain ⟨sameId, -, controller, -⟩ := SystemRow.withoutUpdatedAt_congr equal
  rw [← controller]
  exact settled id known old inOld (sameId.trans here)

theorem controlSettled_sync {systemId : Uuid} {factionId : JsLookup Uuid}
    (done : syncSystemControllingFaction env systemId factionId db = .ok db') :
    ControlSettled systemId factionId db'.systems.rows := by
  rintro id rfl row member here
  obtain ⟨rows, -⟩ := Db.of_writeSystems (orFail_eq_ok.mp done)
  rw [rows] at member
  obtain ⟨old, -, rfl⟩ := List.mem_map.mp member
  split at here
  · rename_i matched
    rw [if_pos matched]
    rfl
  · rename_i other
    exact absurd here (by simpa using other)

theorem sync_of_settled {systemId : Uuid} {factionId : JsLookup Uuid}
    (settled : ControlSettled systemId factionId db.systems.rows)
    (done : syncSystemControllingFaction env systemId factionId db = .ok db') :
    db' = { db with systems := db'.systems } ∧
      db'.systems.rows.map SystemRow.withoutUpdatedAt =
        db.systems.rows.map SystemRow.withoutUpdatedAt := by
  cases factionId with
  | value id =>
      obtain ⟨rows, triggers⟩ := Db.of_writeSystems (orFail_eq_ok.mp done)
      have unseen : ∀ row ∈ db.systems.rows, row.id = systemId →
          (row.setControl id (env.newDate .syncSystemControllingFaction)).withoutUpdatedAt =
            row.withoutUpdatedAt := by
        intro row member here
        have controls := settled id rfl row member here
        cases row
        simp only at controls
        simp [SystemRow.setControl, SystemRow.withoutUpdatedAt, controls]
      constructor
      · rw [afterSystems_of_unseen] at triggers
        · exact triggers
        · intro change member
          obtain ⟨row, matched, rfl⟩ := List.mem_map.mp member
          obtain ⟨inRows, here⟩ := List.mem_filter.mp matched
          exact ⟨_, _, rfl, unseen row inRows (by simpa using here)⟩
      · rw [rows, updateRows, List.map_map]
        refine List.map_congr_left fun row member => ?_
        simp only [Function.comp_apply, decide_eq_true_eq]
        split
        · rename_i here
          exact unseen row member here
        · rfl
  | inherited => exact absurd done throw_ne_ok
  | null =>
      obtain rfl := pure_eq_ok.mp done
      exact ⟨rfl, rfl⟩
  | undefined =>
      obtain rfl := pure_eq_ok.mp done
      exact ⟨rfl, rfl⟩

/-- Control of a system is no column of the data that a message gives. -/
theorem systemSettled_sync {validated : SystemInsert K} {systemId other : Uuid}
    {factionId : JsLookup Uuid} (settled : SystemSettled validated systemId db.systems.rows)
    (done : syncSystemControllingFaction env other factionId db = .ok db') :
    SystemSettled validated systemId db'.systems.rows := by
  cases factionId with
  | value id =>
      obtain ⟨rows, -⟩ := Db.of_writeSystems (orFail_eq_ok.mp done)
      obtain ⟨row, member, address, rfl, same⟩ := settled
      have image := List.mem_map_of_mem (f := fun row => if decide (row.id = other) then
        row.setControl id (env.newDate .syncSystemControllingFaction) else row) member
      by_cases here : row.id = other
      · rw [if_pos (decide_eq_true here)] at image
        refine ⟨row.setControl id (env.newDate .syncSystemControllingFaction), rows ▸ image, address,
          rfl, fun updatedAt => ?_⟩
        have lifted := congrArg (SystemRow.setControl id 0) (same updatedAt)
        exact lifted
      · rw [if_neg (by simpa using here)] at image
        exact ⟨row, rows ▸ image, address, rfl, same⟩
  | inherited => exact absurd done throw_ne_ok
  | null =>
      obtain rfl := pure_eq_ok.mp done
      exact settled
  | undefined =>
      obtain rfl := pure_eq_ok.mp done
      exact settled

/-! ## States -/

/-- A faction state without what the environment supplies. -/
def FactionStateRow.content (row : FactionStateRow K) : FactionStateRow K :=
  { row with id := .ofNat 0, createdAt := 0, updatedAt := 0 }

theorem FactionStateRow.content_congr {row row' : FactionStateRow K}
    (same : row.content = row'.content) : row.key = row'.key ∧
      ∀ other : FactionStateRow K, other.differs row = other.differs row' := by
  cases row
  cases row'
  simp only [content, FactionStateRow.mk.injEq] at same
  simp [key, differs, same]

/-- What a faction's state says does not depend on the environment. -/
theorem content_parseFactionStateInsert (env env' : TxEnv) (systemId : Uuid)
    (factionIdMap : OrderedMap String Uuid) (index index' : ℕ) (faction : FactionElement K) :
    (parseFactionStateInsert P env systemId factionIdMap index faction).map
        FactionStateRow.content =
      (parseFactionStateInsert P env' systemId factionIdMap index' faction).map
        FactionStateRow.content := by
  simp only [parseFactionStateInsert, Option.bind_eq_bind, Option.map_bind, Function.comp_def,
    Option.pure_def, Option.map_some]
  rfl

/-- The states of a system are those that the message gives for its factions. -/
structure StatesSettled (P : Platform K) (systemId : Uuid) (factionIds : List Uuid)
    (factions : List (FactionElement K)) (factionIdMap : OrderedMap String Uuid)
    (rows : List (FactionStateRow K)) : Prop where
  listed : ∀ env index faction proposed, faction ∈ factions →
    parseFactionStateInsert P env systemId factionIdMap index faction = some proposed →
    ∃ row ∈ rows, row.key = proposed.key ∧ row.differs proposed = false
  only : ∀ row ∈ rows, row.systemId = systemId → row.factionId ∈ factionIds

/-- The validated rows are those of the factions, one by one. -/
theorem proposedStates_iff {systemId : Uuid} {factionIdMap : OrderedMap String Uuid}
    {factions : List (FactionElement K)} {proposed : List (FactionStateRow K)}
    (parsed : (factions.mapIdx (parseFactionStateInsert P env systemId factionIdMap)).mapM id =
      some proposed) :
    (∀ row ∈ proposed, ∃ faction ∈ factions, ∃ index,
        parseFactionStateInsert P env systemId factionIdMap index faction = some row) ∧
      (∀ faction ∈ factions, ∃ row ∈ proposed, ∃ index,
        parseFactionStateInsert P env systemId factionIdMap index faction = some row) := by
  have rows := mapM_id_eq_some.mp parsed
  constructor
  · intro row member
    have image : some row ∈ proposed.map some := List.mem_map_of_mem member
    rw [← rows] at image
    obtain ⟨index, small, found⟩ := List.mem_mapIdx.mp image
    exact ⟨factions[index], List.getElem_mem small, index, found⟩
  · intro faction member
    obtain ⟨index, small, rfl⟩ := List.mem_iff_getElem.mp member
    have image : parseFactionStateInsert P env systemId factionIdMap index factions[index] ∈
        factions.mapIdx (parseFactionStateInsert P env systemId factionIdMap) :=
      List.mem_mapIdx.mpr ⟨index, small, rfl⟩
    rw [rows] at image
    obtain ⟨row, inProposed, found⟩ := List.mem_map.mp image
    exact ⟨row, inProposed, index, found.symm⟩

/-- A validated row is of the system and of the faction with that name. -/
theorem key_parseFactionStateInsert {systemId : Uuid} {factionIdMap : OrderedMap String Uuid}
    {index : ℕ} {faction : FactionElement K} {row : FactionStateRow K}
    (parsed : parseFactionStateInsert P env systemId factionIdMap index faction = some row) :
    lookupFactionId factionIdMap faction.name = .value row.factionId ∧ row.systemId = systemId ∧
      row.influence = faction.influence := by
  simp only [parseFactionStateInsert, Option.bind_eq_bind, Option.bind_eq_some_iff,
    Option.pure_def, Option.some.injEq] at parsed
  obtain ⟨factionId, found, happiness, -, -, -, active, -, recovering, -, pending, -, rfl⟩ := parsed
  refine ⟨?_, rfl, rfl⟩
  cases lookup : lookupFactionId factionIdMap faction.name <;> rw [lookup] at found <;>
    simp_all [JsLookup.required]

/-- Factions with different names have different ids. -/
theorem distinct_proposedStates {systemId : Uuid} {rows : List FactionRow}
    {factions : List (FactionElement K)} {proposed : List (FactionStateRow K)}
    (parsed : (factions.mapIdx (parseFactionStateInsert P env systemId
      (createFactionIdMap rows))).mapM id = some proposed)
    (distinctNames : (factions.map fun faction => P.citext faction.name).Nodup)
    (distinctIds : (rows.map FactionRow.id).Nodup) :
    (proposed.map FactionStateRow.key).Nodup := by
  have ids : factions.map (fun faction =>
      (lookupFactionId (createFactionIdMap rows) faction.name).required) =
        proposed.map fun row => some row.factionId := by
    refine List.ext_getElem ?_ fun index small small' => ?_
    · simpa using congrArg List.length (mapM_id_eq_some.mp parsed)
    · simp only [List.length_map] at small small'
      have here := congrArg (fun list => list[index]?) (mapM_id_eq_some.mp parsed)
      simp only [List.getElem?_mapIdx, List.getElem?_map, List.getElem?_eq_getElem small,
        List.getElem?_eq_getElem small', Option.map_some, Option.some.injEq] at here
      simp only [List.getElem_map, (key_parseFactionStateInsert here).1, JsLookup.required]
  have sameName : ∀ faction ∈ factions, ∀ other ∈ factions,
      (lookupFactionId (createFactionIdMap rows) faction.name).required =
        (lookupFactionId (createFactionIdMap rows) other.name).required → faction = other := by
    intro faction member other member' same
    obtain ⟨row, inProposed, index, found⟩ := (proposedStates_iff parsed).2 faction member
    obtain ⟨row', inProposed', index', found'⟩ := (proposedStates_iff parsed).2 other member'
    have lookup := (key_parseFactionStateInsert found).1
    have lookup' := (key_parseFactionStateInsert found').1
    rw [lookup, lookup'] at same
    have sameId : row.factionId = row'.factionId := Option.some.inj same
    obtain ⟨stored, inRows, identity⟩ := List.mem_map.mp (mem_of_lookupFactionId lookup)
    obtain ⟨stored', inRows', identity'⟩ := List.mem_map.mp (mem_of_lookupFactionId lookup')
    obtain rfl : stored = stored' := List.inj_on_of_nodup_map distinctIds inRows inRows'
      (((congrArg Prod.fst identity).trans sameId).trans (congrArg Prod.fst identity').symm)
    have names : faction.name = other.name :=
      (congrArg Prod.snd identity).symm.trans (congrArg Prod.snd identity')
    exact List.inj_on_of_nodup_map distinctNames member member' (congrArg P.citext names)
  have nodup := (distinctNames.of_map _).map_on sameName
  rw [ids] at nodup
  have keys : (proposed.map fun row => some row.factionId) =
      (proposed.map FactionStateRow.key).map fun key => some key.1 := by
    rw [List.map_map]
    rfl
  rw [keys] at nodup
  exact nodup.of_map _

theorem afterFactionStates_nil (now : Timestamp) (db : Db P) :
    db.afterFactionStates now [] = db := Db.enqueue_nil now db

theorem FactionStateRow.key_setExcluded (updatedAt : Timestamp) (row excluded : FactionStateRow K)
    (same : row.key = excluded.key) : (row.setExcluded updatedAt excluded).key = excluded.key := same

theorem FactionStateRow.differs_self (row : FactionStateRow K) : row.differs row = false := by
  simp [differs]

theorem FactionStateRow.differs_setExcluded (updatedAt : Timestamp)
    (row excluded : FactionStateRow K) :
    (row.setExcluded updatedAt excluded).differs excluded = false := by
  simp [differs, setExcluded]

/-- After the cleanup only states of the message's factions are left. -/
theorem states_cleanup {systemId : Uuid} {factionIds : List Uuid}
    (done : cleanupFactionStates env systemId factionIds db = .ok db') :
    ∀ row ∈ db'.factionStates.rows, row.systemId = systemId → row.factionId ∈ factionIds := by
  intro row member here
  obtain ⟨rows, -⟩ := Db.of_writeFactionStates (orFail_eq_ok.mp done)
  rw [rows] at member
  simp only [deleteRows, List.mem_filter, Bool.not_eq_true', decide_eq_false_iff_not, not_and,
    not_not] at member
  exact member.2 here

theorem cleanup_of_settled {systemId : Uuid} {factionIds : List Uuid}
    (only : ∀ row ∈ db.factionStates.rows, row.systemId = systemId → row.factionId ∈ factionIds)
    (done : cleanupFactionStates env systemId factionIds db = .ok db') : db' = db := by
  have unmatched := deleteRows_of_none
    (fun row => row.systemId = systemId ∧ row.factionId ∉ factionIds) db.factionStates.rows
    fun row member => decide_eq_false fun away => away.2 (only row member away.1)
  obtain ⟨rows, triggers⟩ := Db.of_writeFactionStates (orFail_eq_ok.mp done)
  rw [unmatched] at rows triggers
  have same : db'.factionStates = db.factionStates := Table.ext rows
  rw [triggers, same, afterFactionStates_nil]

theorem statesSettled_upsert {systemId : Uuid} {factions : List (FactionElement K)}
    {rows : List FactionRow}
    (distinctNames : (factions.map fun faction => P.citext faction.name).Nodup)
    (distinctIds : (rows.map FactionRow.id).Nodup)
    (only : ∀ row ∈ db.factionStates.rows, row.systemId = systemId →
      row.factionId ∈ rows.map FactionRow.id)
    (done : upsertFactionStates env systemId factions (createFactionIdMap rows) db = .ok db') :
    StatesSettled P systemId (rows.map FactionRow.id) factions (createFactionIdMap rows)
      db'.factionStates.rows := by
  simp only [upsertFactionStates, bind_eq_ok, orFail_eq_ok] at done
  obtain ⟨proposed, parsed, ⟨rows', changes⟩, upserted, written⟩ := done
  obtain ⟨rowsEq, -⟩ := Db.of_writeFactionStates written
  subst rowsEq
  have keyKept := FactionStateRow.key_setExcluded (K := K) (env.newDate .upsertFactionStates)
  have distinct := distinct_proposedStates parsed distinctNames distinctIds
  constructor
  · intro env' index faction again member parsed'
    obtain ⟨first, inProposed, index', found⟩ := (proposedStates_iff parsed).2 faction member
    have contents := content_parseFactionStateInsert env env' systemId (createFactionIdMap rows)
      index' index faction (P := P)
    rw [found, parsed', Option.map_some, Option.map_some, Option.some.injEq] at contents
    obtain ⟨sameKey, sameDiffers⟩ := FactionStateRow.content_congr contents
    obtain ⟨row, inRows, rowKey, settled⟩ := upsertRows_settles keyKept
      (fun row proposed => row.differs proposed = false)
      FactionStateRow.differs_self (fun row proposed _ => row.differs_setExcluded _ proposed)
      (fun _ _ _ skipped => skipped) distinct upserted first inProposed
    exact ⟨row, inRows, rowKey.trans sameKey, (sameDiffers row) ▸ settled⟩
  · intro row member here
    rcases key_mem_upsertRows keyKept upserted row member with proposedKey | oldKey
    · obtain ⟨proposedRow, inProposed, sameKey⟩ := List.mem_map.mp proposedKey
      obtain ⟨faction, -, index, found⟩ := (proposedStates_iff parsed).1 proposedRow inProposed
      obtain ⟨stored, inStored, identity⟩ := List.mem_map.mp
        (mem_of_lookupFactionId (key_parseFactionStateInsert found).1)
      refine List.mem_map.mpr ⟨stored, inStored, ?_⟩
      exact (congrArg Prod.fst identity).trans (congrArg Prod.fst sameKey)
    · obtain ⟨old, inOld, sameKey⟩ := List.mem_map.mp oldKey
      have faction : old.factionId = row.factionId := congrArg Prod.fst sameKey
      exact faction ▸ only old inOld ((congrArg Prod.snd sameKey).trans here)

theorem upsertFactionStates_of_settled {systemId : Uuid} {factions : List (FactionElement K)}
    {factionIds : List Uuid} {factionIdMap : OrderedMap String Uuid}
    (settled : StatesSettled P systemId factionIds factions factionIdMap db.factionStates.rows)
    (done : upsertFactionStates env systemId factions factionIdMap db = .ok db') : db' = db := by
  simp only [upsertFactionStates, bind_eq_ok, orFail_eq_ok] at done
  obtain ⟨proposed, parsed, ⟨rows', changes⟩, upserted, written⟩ := done
  have skipped : ∀ wanted ∈ proposed, ∀ row ∈ db.factionStates.rows, row.key = wanted.key →
      row.differs wanted = false := by
    intro wanted inProposed row member sameKey
    obtain ⟨faction, listed, index, found⟩ := (proposedStates_iff parsed).1 wanted inProposed
    obtain ⟨kept, inRows, keptKey, same⟩ := settled.listed env index faction wanted listed found
    rwa [List.inj_on_of_nodup_map (distinctFactionStates db) member inRows
      (sameKey.trans keptKey.symm)]
  obtain ⟨views, updates⟩ := upsertRows_of_settled id
    (fun row row' equal => congrArg FactionStateRow.key equal)
    (by
      intro wanted inProposed
      obtain ⟨faction, listed, index, found⟩ := (proposedStates_iff parsed).1 wanted inProposed
      obtain ⟨kept, inRows, keptKey, -⟩ := settled.listed env index faction wanted listed found
      exact ⟨kept, inRows, keptKey⟩)
    (by
      intro wanted inProposed row member sameKey differs
      rw [skipped wanted inProposed row member sameKey] at differs
      cases differs) upserted
  have noChanges : changes = [] := by
    refine List.eq_nil_iff_forall_not_mem.mpr fun change member => ?_
    obtain ⟨wanted, inProposed, row, inRows, sameKey, differs, -⟩ := updates change member
    rw [skipped wanted inProposed row inRows sameKey] at differs
    cases differs
  obtain ⟨rowsEq, triggers⟩ := Db.of_writeFactionStates written
  simp only [List.map_id] at views
  have same : db'.factionStates = db.factionStates := Table.ext (rowsEq.trans views)
  rw [triggers, noChanges, same, afterFactionStates_nil]

/-! ## Conflicts -/

/-- A conflict without what the environment supplies and without its stations. -/
def FactionConflictRow.content (row : FactionConflictRow K) : FactionConflictRow K :=
  { row.core with id := .ofNat 0, createdAt := 0 }

theorem FactionConflictRow.content_eq_iff {row row' : FactionConflictRow K} :
    row.content = row'.content ↔ row.key = row'.key ∧ row.type = row'.type ∧
      row.status = row'.status ∧ row.factionWonDays = row'.factionWonDays ∧
      row.opponentWonDays = row'.opponentWonDays := by
  cases row
  cases row'
  simp only [content, core, key, FactionConflictRow.mk.injEq, Prod.mk.injEq, true_and, and_true]
  tauto

/-- What the conflicts say depends on the ids of the factions they name only. -/
theorem content_conflictsData {env' : TxEnv} {systemId : Uuid} {later : Db P}
    {conflicts : List (Conflict K)}
    (sameIds : ∀ conflict ∈ conflicts,
      later.findFactionId conflict.faction1.name = db.findFactionId conflict.faction1.name ∧
      later.findFactionId conflict.faction2.name = db.findFactionId conflict.faction2.name) :
    (conflictsData env' systemId later conflicts).map (Option.map FactionConflictRow.content) =
      (conflictsData env systemId db conflicts).map (Option.map FactionConflictRow.content) := by
  have resolved : conflicts.filterMap (resolveConflict later) =
      conflicts.filterMap (resolveConflict db) :=
    List.filterMap_congr fun conflict member => by
      simp only [resolveConflict, (sameIds conflict member).1, (sameIds conflict member).2]
  unfold conflictsData
  rw [resolved]
  refine List.ext_getElem (by simp) fun index small small' => ?_
  simp only [List.getElem_map, List.getElem_mapIdx, parseFactionConflictInsert, Option.bind_eq_bind,
    Option.map_bind, Function.comp_def, Option.pure_def, Option.map_some]
  rfl

/-- The conflicts of a system are those of a message, given by their contents. -/
structure ConflictsSettled (systemId : Uuid) (contents : List (Option (FactionConflictRow K)))
    (rows : List (FactionConflictRow K)) : Prop where
  listed : ∀ content, some content ∈ contents → ∃ row ∈ rows, row.content = content
  only : ∀ row ∈ rows, row.systemId = systemId → ∃ content, some content ∈ contents ∧
    row.key = content.key

theorem FactionConflictRow.content_of_core {row row' : FactionConflictRow K}
    (same : row.core = row'.core) : row.content = row'.content := by
  unfold content
  rw [same]

theorem conflictsSettled_congr {systemId : Uuid}
    {contents : List (Option (FactionConflictRow K))} {rows rows' : List (FactionConflictRow K)}
    (same : rows'.map FactionConflictRow.core = rows.map FactionConflictRow.core)
    (settled : ConflictsSettled systemId contents rows) :
    ConflictsSettled systemId contents rows' := by
  constructor
  · intro content member
    obtain ⟨row, inRows, equal⟩ := settled.listed content member
    obtain ⟨row', inRows', core⟩ : ∃ row' ∈ rows', row'.core = row.core :=
      List.mem_map.mp (same ▸ List.mem_map_of_mem inRows)
    exact ⟨row', inRows', (FactionConflictRow.content_of_core core).trans equal⟩
  · intro row' member here
    obtain ⟨row, inRows, core⟩ : ∃ row ∈ rows, row.core = row'.core :=
      List.mem_map.mp (same ▸ List.mem_map_of_mem member)
    have key := (FactionConflictRow.core_eq_iff.mp core).2.1
    obtain ⟨content, listed, sameKey⟩ := settled.only row inRows
      ((congrArg Prod.fst key).trans here)
    exact ⟨content, listed, key.symm.trans sameKey⟩

/-- A validated conflict is of the system and has an opponent. -/
theorem key_conflictsData {systemId : Uuid} {conflicts : List (Conflict K)}
    {row : FactionConflictRow K} (member : some row ∈ conflictsData env systemId db conflicts) :
    row.systemId = systemId ∧ row.opponentFactionId.isSome := by
  obtain ⟨index, small, parsed⟩ := List.mem_mapIdx.mp member
  simp only [parseFactionConflictInsert, Option.bind_eq_bind, Option.bind_eq_some_iff,
    Option.pure_def, Option.some.injEq] at parsed
  obtain ⟨type, -, status, -, -, -, -, -, rfl⟩ := parsed
  exact ⟨rfl, rfl⟩

theorem FactionConflictRow.key_setExcluded (updatedAt : Timestamp)
    (row excluded : FactionConflictRow K) (same : row.key = excluded.key) :
    (row.setExcluded updatedAt excluded).key = excluded.key := same

/-- An update to a conflict gives it the content of the message. -/
theorem FactionConflictRow.content_setExcluded {updatedAt : Timestamp}
    {row excluded : FactionConflictRow K} (same : row.key = excluded.key) :
    (row.setExcluded updatedAt excluded).content = excluded.content :=
  content_eq_iff.mpr ⟨same, rfl, rfl, rfl, rfl⟩

theorem FactionConflictRow.clash_symm (row row' : FactionConflictRow K) (clash : row.Clash row') :
    row'.Clash row := by
  rcases clash with sameId | ⟨opponent, sameKey⟩
  · exact .inl sameId.symm
  · have sameOpponent : row.opponentFactionId = row'.opponentFactionId :=
      congrArg (fun key => key.2.2) sameKey
    exact .inr ⟨sameOpponent ▸ opponent, sameKey.symm⟩

/-- What the two statements of the upsert of conflicts do. -/
theorem of_upsertFactionConflicts {systemId : Uuid} {conflicts : List (Conflict K)}
    (some_ : conflictsData env systemId db conflicts ≠ [])
    (done : upsertFactionConflicts env systemId conflicts db = .ok db') :
    ∃ (proposed : List (FactionConflictRow K)) (changes : List (Change (FactionConflictRow K)))
      (middle : Db P), conflictsData env systemId db conflicts = proposed.map some ∧
      upsertRows FactionConflictRow.key
        (FactionConflictRow.setExcluded (env.newDate .upsertFactionConflicts)) (fun _ _ => true)
        proposed db.factionConflicts.rows = some (middle.factionConflicts.rows, changes) ∧
      middle = { db with factionConflicts := middle.factionConflicts }.enqueue env.now
        (changes.flatMap enqueueFactionConflictChangedEvents) ∧
      middle.writeFactionConflicts env.now (deleteRows
        (fun row => row.systemId = systemId ∧
          row.id ∉ (changes.filterMap Change.new?).map fun row => row.id)
        middle.factionConflicts.rows) = some db' := by
  unfold upsertFactionConflicts at done
  simp only [if_neg some_, bind_eq_ok, orFail_eq_ok] at done
  obtain ⟨proposed, parsed, ⟨rows, changes⟩, upserted, middle, inserted, deleted⟩ := done
  obtain ⟨rowsEq, triggers⟩ := Db.of_writeFactionConflicts inserted
  subst rowsEq
  exact ⟨proposed, changes, middle, mapM_id_eq_some.mp parsed, upserted, triggers, deleted⟩

/-- The row that the upsert leaves for a conflict of the message. -/
def upsertedConflict (updatedAt : Timestamp) (rows : List (FactionConflictRow K))
    (proposed : FactionConflictRow K) : FactionConflictRow K :=
  rowFor FactionConflictRow.key (FactionConflictRow.setExcluded updatedAt) rows proposed

theorem content_upsertedConflict (updatedAt : Timestamp) (rows : List (FactionConflictRow K))
    (proposed : FactionConflictRow K) :
    (upsertedConflict updatedAt rows proposed).content = proposed.content := by
  unfold upsertedConflict rowFor
  split
  · rename_i row found
    exact FactionConflictRow.content_setExcluded (by simpa using List.find?_some found)
  · rfl

/-- The conflicts that are left: those of other systems and those of the message. -/
theorem mem_upsertFactionConflicts {systemId : Uuid} {conflicts : List (Conflict K)}
    (some_ : conflictsData env systemId db conflicts ≠ [])
    (done : upsertFactionConflicts env systemId conflicts db = .ok db') :
    ∃ (proposed : List (FactionConflictRow K)) (middle : Db P),
      conflictsData env systemId db conflicts = proposed.map some ∧
      (∀ wanted ∈ proposed, upsertedConflict (env.newDate .upsertFactionConflicts)
        db.factionConflicts.rows wanted ∈ middle.factionConflicts.rows) ∧
      ∀ row, row ∈ db'.factionConflicts.rows ↔ row ∈ middle.factionConflicts.rows ∧
        (row.systemId = systemId → ∃ wanted ∈ proposed,
          row = upsertedConflict (env.newDate .upsertFactionConflicts)
            db.factionConflicts.rows wanted) := by
  obtain ⟨proposed, changes, middle, parsed, upserted, -, deleted⟩ :=
    of_upsertFactionConflicts some_ done
  obtain ⟨changed, -, left, -⟩ := upsertRows_always (fun _ _ => rfl)
    (fun wanted _ row => row.key_setExcluded (env.newDate .upsertFactionConflicts) wanted) upserted
  have present : ∀ wanted ∈ proposed, upsertedConflict (env.newDate .upsertFactionConflicts)
      db.factionConflicts.rows wanted ∈ middle.factionConflicts.rows :=
    fun wanted member => List.mem_of_find?_eq_some (left wanted member)
  refine ⟨proposed, middle, parsed, present, fun row => ?_⟩
  obtain ⟨rows, -⟩ := Db.of_writeFactionConflicts deleted
  rw [rows, changed, filterMap_new?_changeFor]
  simp only [deleteRows, List.mem_filter, Bool.not_eq_true', decide_eq_false_iff_not, not_and,
    not_not, List.map_map, List.mem_map, Function.comp_apply]
  refine and_congr_right fun member => imp_congr_right fun _ => exists_congr fun wanted =>
    and_congr_right fun inProposed => ⟨fun sameId => ?_, fun same => by rw [same]; rfl⟩
  exact Table.eq_of_clash FactionConflictRow.clash_symm member (present wanted inProposed)
    (.inl sameId.symm)

theorem conflictsSettled_upsert {systemId : Uuid} {conflicts : List (Conflict K)}
    (done : upsertFactionConflicts env systemId conflicts db = .ok db') :
    ConflictsSettled systemId
      ((conflictsData env systemId db conflicts).map (Option.map FactionConflictRow.content))
      db'.factionConflicts.rows := by
  by_cases nothing : conflictsData env systemId db conflicts = []
  · unfold upsertFactionConflicts at done
    simp only [if_pos nothing] at done
    obtain ⟨rows, -⟩ := Db.of_writeFactionConflicts (orFail_eq_ok.mp done)
    rw [nothing, rows]
    refine ⟨by simp, fun row member here => ?_⟩
    simp only [deleteRows, List.mem_filter, Bool.not_eq_true', decide_eq_false_iff_not] at member
    exact absurd here member.2
  · obtain ⟨proposed, middle, parsed, present, members⟩ := mem_upsertFactionConflicts nothing done
    rw [parsed]
    constructor
    · intro content listed
      simp only [List.map_map, List.mem_map, Function.comp_apply, Option.map_some,
        Option.some.injEq] at listed
      obtain ⟨wanted, inProposed, rfl⟩ := listed
      exact ⟨_, (members _).mpr ⟨present wanted inProposed, fun _ => ⟨wanted, inProposed, rfl⟩⟩,
        content_upsertedConflict _ _ wanted⟩
    · intro row member here
      obtain ⟨wanted, inProposed, rfl⟩ := ((members row).mp member).2 here
      refine ⟨wanted.content, ?_, ?_⟩
      · rw [List.map_map]
        exact List.mem_map.mpr ⟨wanted, inProposed, rfl⟩
      · exact (FactionConflictRow.content_eq_iff.mp (content_upsertedConflict _ _ wanted)).1

/-- A statement on conflicts that leaves every core and emits nothing. -/
theorem conflicts_of_silent {now : Timestamp}
    {outcome : List (FactionConflictRow K) × List (Change (FactionConflictRow K))}
    (written : db.writeFactionConflicts now outcome = some db')
    (silent : ∀ change ∈ outcome.2, enqueueFactionConflictChangedEvents change = []) :
    db'.factionConflicts.rows = outcome.1 ∧
      db' = { db with factionConflicts := db'.factionConflicts } := by
  obtain ⟨rows, triggers⟩ := Db.of_writeFactionConflicts written
  rw [List.flatMap_eq_nil_iff.mpr silent, Db.enqueue_nil] at triggers
  exact ⟨rows, triggers⟩

/-- Settled conflicts are upserted again without an event. -/
theorem upsertFactionConflicts_of_settled {systemId : Uuid} {conflicts : List (Conflict K)}
    (settled : ConflictsSettled systemId
      ((conflictsData env systemId db conflicts).map (Option.map FactionConflictRow.content))
      db.factionConflicts.rows)
    (done : upsertFactionConflicts env systemId conflicts db = .ok db') :
    db' = { db with factionConflicts := db'.factionConflicts } ∧
      db'.factionConflicts.rows.map FactionConflictRow.core =
        db.factionConflicts.rows.map FactionConflictRow.core := by
  by_cases nothing : conflictsData env systemId db conflicts = []
  · unfold upsertFactionConflicts at done
    simp only [if_pos nothing] at done
    have unmatched := deleteRows_of_none
      (fun row => row.systemId = systemId) db.factionConflicts.rows
      fun row member => decide_eq_false fun here => by
        obtain ⟨content, listed, -⟩ := settled.only row member here
        rw [nothing] at listed
        cases listed
    rw [unmatched] at done
    obtain ⟨rows, frame⟩ := conflicts_of_silent (orFail_eq_ok.mp done) (by simp)
    exact ⟨frame, by rw [rows]⟩
  · obtain ⟨proposed, changes, middle, parsed, upserted, triggers, deleted⟩ :=
      of_upsertFactionConflicts nothing done
    rw [parsed] at settled
    have opponents : ∀ wanted ∈ proposed, wanted.opponentFactionId.isSome := fun wanted member =>
      (key_conflictsData (parsed ▸ List.mem_map_of_mem member)).2
    have stored : ∀ wanted ∈ proposed, ∃ row ∈ db.factionConflicts.rows,
        row.content = wanted.content := fun wanted member =>
      settled.listed wanted.content (by
        rw [List.map_map]
        exact List.mem_map.mpr ⟨wanted, member, rfl⟩)
    have matching : ∀ wanted ∈ proposed, ∀ row ∈ db.factionConflicts.rows, row.key = wanted.key →
        (row.setExcluded (env.newDate .upsertFactionConflicts) wanted).core = row.core := by
      intro wanted inProposed row member sameKey
      obtain ⟨row', member', sameContent⟩ := stored wanted inProposed
      obtain ⟨key, type, status, won, lost⟩ := FactionConflictRow.content_eq_iff.mp sameContent
      have opponent : row.opponentFactionId = wanted.opponentFactionId :=
        congrArg (fun key => key.2.2) sameKey
      obtain rfl : row = row' := Table.eq_of_clash FactionConflictRow.clash_symm member member'
        (.inr ⟨opponent ▸ opponents wanted inProposed, sameKey.trans key.symm⟩)
      exact FactionConflictRow.core_eq_iff.mpr
        ⟨rfl, rfl, type.symm, status.symm, won.symm, lost.symm, rfl⟩
    obtain ⟨views, updates⟩ := upsertRows_of_settled FactionConflictRow.core
      (fun row row' equal => (FactionConflictRow.core_eq_iff.mp equal).2.1)
      (fun wanted inProposed => by
        obtain ⟨row, member, sameContent⟩ := stored wanted inProposed
        exact ⟨row, member, (FactionConflictRow.content_eq_iff.mp sameContent).1⟩)
      (fun wanted inProposed row member sameKey _ => matching wanted inProposed row member sameKey)
      upserted
    have silent : changes.flatMap enqueueFactionConflictChangedEvents = [] := by
      refine List.flatMap_eq_nil_iff.mpr fun change member => ?_
      obtain ⟨wanted, inProposed, row, inRows, sameKey, -, rfl⟩ := updates change member
      exact enqueueFactionConflictChangedEvents_of_core (matching wanted inProposed row inRows sameKey)
    rw [silent, Db.enqueue_nil] at triggers
    obtain ⟨changed, -, left, -⟩ := upsertRows_always (fun _ _ => rfl)
      (fun wanted _ row => row.key_setExcluded (env.newDate .upsertFactionConflicts) wanted) upserted
    have unmatched := deleteRows_of_none
      (fun row => row.systemId = systemId ∧
        row.id ∉ (changes.filterMap Change.new?).map fun row => row.id)
      middle.factionConflicts.rows fun row member => decide_eq_false fun away => by
        obtain ⟨old, inOld, core⟩ : ∃ old ∈ db.factionConflicts.rows, old.core = row.core :=
          List.mem_map.mp (views ▸ List.mem_map_of_mem member)
        have key := (FactionConflictRow.core_eq_iff.mp core).2.1
        obtain ⟨content, listed, sameKey⟩ := settled.only old inOld
          ((congrArg Prod.fst key).trans away.1)
        simp only [List.map_map, List.mem_map, Function.comp_apply, Option.map_some,
          Option.some.injEq] at listed
        obtain ⟨wanted, inProposed, rfl⟩ := listed
        have opponent : row.opponentFactionId = wanted.opponentFactionId :=
          congrArg (fun key => key.2.2) (key.symm.trans sameKey)
        have sameRow := Table.eq_of_clash FactionConflictRow.clash_symm member
          (List.mem_of_find?_eq_some (left wanted inProposed))
          (.inr ⟨opponent ▸ opponents wanted inProposed, (key.symm.trans sameKey).trans
            (FactionConflictRow.content_eq_iff.mp (content_upsertedConflict _ _ wanted)).1.symm⟩)
        refine away.2 ?_
        rw [changed, filterMap_new?_changeFor, sameRow]
        exact List.mem_map_of_mem (List.mem_map_of_mem inProposed)
    rw [unmatched] at deleted
    obtain ⟨rows, frame⟩ := conflicts_of_silent deleted (by simp)
    refine ⟨by rw [frame, triggers], ?_⟩
    rw [rows, views]

end EliteHubVault
