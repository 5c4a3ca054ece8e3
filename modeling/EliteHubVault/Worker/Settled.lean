import EliteHubVault.ControlThreat.Recomputation
import EliteHubVault.Worker.Frames

/-!
# A system and its powers, a second time

For each helper: what it leaves settled, and that on tables where this is settled it
changes nothing that can be seen. `SystemSettled` says that the row of a system has every
column that the validated data gives.
-/

set_option autoImplicit false
set_option linter.unusedSectionVars false

namespace EliteHubVault

open Library

variable {K : Type} [Field K] [LinearOrder K] {P : Platform K} {env : TxEnv} {db db' : Db P}

/-! ## Triggers that see nothing -/

theorem SystemRow.withoutUpdatedAt_congr {row row' : SystemRow K}
    (same : row.withoutUpdatedAt = row'.withoutUpdatedAt) :
    row.id = row'.id ∧ row.systemAddress = row'.systemAddress ∧
      row.controllingFactionId = row'.controllingFactionId ∧
      enqueueSystemPowerplayUpdatedEvent row' row = [] := by
  cases row
  cases row'
  simp only [withoutUpdatedAt, SystemRow.mk.injEq] at same
  simp [enqueueSystemPowerplayUpdatedEvent, same]

/-- Updates of `systems` that change at most `updatedAt` fire triggers that do nothing. -/
theorem afterSystems_of_unseen {now : Timestamp} {changes : List (Change (SystemRow K))}
    (unseen : ∀ change ∈ changes, ∃ old new, change = .update old new ∧
      new.withoutUpdatedAt = old.withoutUpdatedAt) : db.afterSystems now changes = db := by
  induction changes with
  | nil => rfl
  | cons change rest ih =>
      obtain ⟨old, new, rfl, same⟩ := unseen change List.mem_cons_self
      obtain ⟨-, -, controller, powerplay⟩ := SystemRow.withoutUpdatedAt_congr same
      have one : db.afterSystemChange now (.update old new) = db := by
        simp [Db.afterSystemChange, controller, powerplay]
      rw [Db.afterSystems, List.foldl_cons, one]
      exact ih fun change member => unseen change (List.mem_cons_of_mem _ member)

/-! ## The system -/

/-- The system has this address and every column that the validated data gives. -/
def SystemSettled (validated : SystemInsert K) (systemId : Uuid) (rows : List (SystemRow K)) :
    Prop :=
  ∃ row ∈ rows, row.systemAddress = validated.systemAddress ∧ row.id = systemId ∧
    ∀ updatedAt, (validated.set updatedAt row).withoutUpdatedAt = row.withoutUpdatedAt

/-- The columns of the validated data that are found again. -/
theorem of_parseSystemInsert {data : SystemData K} {validated : SystemInsert K}
    (parsed : parseSystemInsert P data = some validated) :
    validated.systemAddress = data.systemAddress ∧
      data.powerplayState.nullish = some validated.powerplayState ∧
      validated.powerplayStateControlProgress = data.powerplayStateControlProgress ∧
      validated.powerplayStateReinforcement = data.powerplayStateReinforcement ∧
      validated.powerplayStateUndermining = data.powerplayStateUndermining := by
  simp only [parseSystemInsert, Option.bind_eq_bind, Option.bind_eq_some_iff, Option.pure_def,
    Option.some.injEq] at parsed
  obtain ⟨_, -, _, -, _, -, _, -, _, -, _, -, _, -, _, -, _, -, _, -, state, stated, _, -, _, -, _, -,
    rfl⟩ := parsed
  exact ⟨rfl, stated, rfl, rfl, rfl⟩

theorem getD_getD {α : Type} (value : Option α) (a : α) :
    value.getD (value.getD a) = value.getD a := by
  cases value <;> rfl

theorem orElse_orElse {α : Type} (value other : Option α) :
    (value <|> (value <|> other)) = (value <|> other) := by
  cases value <;> rfl

theorem orElse_self {α : Type} (value : Option α) : (value <|> value) = value := by
  cases value <;> rfl

/-- Setting the data a second time changes at most `updatedAt`. -/
theorem SystemInsert.set_set (validated : SystemInsert K) (at_ at' : Timestamp)
    (row : SystemRow K) : (validated.set at' (validated.set at_ row)).withoutUpdatedAt =
      (validated.set at_ row).withoutUpdatedAt := by
  simp only [set, SystemRow.withoutUpdatedAt, getD_getD, orElse_orElse]

/-- The inserted row has the data. -/
theorem SystemInsert.set_row (validated : SystemInsert K) (at_ : Timestamp) :
    (validated.set at_ (validated.row env)).withoutUpdatedAt =
      (validated.row env).withoutUpdatedAt := by
  simp only [set, row, SystemRow.withoutUpdatedAt, getD_getD, orElse_self]

theorem distinctAddresses (db : Db P) :
    (db.systems.rows.map fun row => row.systemAddress).Nodup :=
  List.pairwise_map.mpr (db.systems.unique.imp fun apart same => apart (.inr same))

/-- The row that upserting the validated data leaves. -/
def SystemInsert.upserted (validated : SystemInsert K) (env : TxEnv) (rows : List (SystemRow K)) :
    SystemRow K :=
  rowFor (fun row => row.systemAddress) (fun row _ => validated.set (env.newDate .upsertSystem) row)
    rows (validated.row env)

/-- The one change of the upsert. -/
def SystemInsert.change (validated : SystemInsert K) (env : TxEnv) (rows : List (SystemRow K)) :
    Change (SystemRow K) :=
  changeFor (fun row => row.systemAddress)
    (fun row _ => validated.set (env.newDate .upsertSystem) row) rows (validated.row env)

theorem SystemInsert.systemAddress_upserted (validated : SystemInsert K)
    (rows : List (SystemRow K)) :
    (validated.upserted env rows).systemAddress = validated.systemAddress :=
  @key_rowFor _ _ _ (fun row : SystemRow K => row.systemAddress)
    (fun row _ => validated.set (env.newDate .upsertSystem) row) (validated.row env)
    (fun _ _ => rfl) rows

/-- What an upsert of a system does. -/
theorem of_upsertSystem {data : SystemData K} {system : SystemRow K}
    (done : upsertSystem env data db = .ok (db', system)) :
    ∃ validated : SystemInsert K, parseSystemInsert P data = some validated ∧
      system = validated.upserted env db.systems.rows ∧ system ∈ db'.systems.rows ∧
      upsertRows (fun row => row.systemAddress)
        (fun row _ => validated.set (env.newDate .upsertSystem) row) (fun _ _ => true)
        [validated.row env] db.systems.rows =
          some (db'.systems.rows, [validated.change env db.systems.rows]) ∧
      db' = { db with systems := db'.systems }.afterSystems env.now
        [validated.change env db.systems.rows] := by
  simp only [upsertSystem, bind_eq_ok, orFail_eq_ok, pure_eq_ok] at done
  obtain ⟨validated, parsed, ⟨rows, changes⟩, upserted, after, written, returned, head, same⟩ := done
  cases same
  obtain ⟨rows_eq, triggers⟩ := Db.of_writeSystems written
  obtain ⟨changed, -, left, -⟩ := upsertRows_always (fun _ _ => rfl)
    (fun wanted member row _ => by rw [List.mem_singleton.mp member]; rfl) upserted
  obtain rfl : changes = [validated.change env db.systems.rows] := changed
  obtain rfl : validated.upserted env db.systems.rows = system := by
    simpa [SystemInsert.change, SystemInsert.upserted, new?_changeFor] using head
  exact ⟨validated, parsed, rfl, rows_eq ▸ List.mem_of_find?_eq_some (left _ List.mem_cons_self),
    rows_eq ▸ upserted, triggers⟩

theorem systemSettled_upsertSystem {data : SystemData K} {system : SystemRow K}
    (done : upsertSystem env data db = .ok (db', system)) :
    ∃ validated, parseSystemInsert P data = some validated ∧
      SystemSettled validated system.id db'.systems.rows := by
  obtain ⟨validated, parsed, found, present, -, -⟩ := of_upsertSystem done
  refine ⟨validated, parsed, system, present, ?_, rfl, fun updatedAt => ?_⟩
  · rw [found]
    exact validated.systemAddress_upserted _
  · rw [found]
    unfold SystemInsert.upserted rowFor
    split
    · exact validated.set_set _ _ _
    · exact validated.set_row _

/-- A settled system is upserted without a trace. -/
theorem upsertSystem_of_settled {data : SystemData K} {system : SystemRow K}
    {validated : SystemInsert K} {systemId : Uuid} (parsed : parseSystemInsert P data = some validated)
    (settled : SystemSettled validated systemId db.systems.rows)
    (done : upsertSystem env data db = .ok (db', system)) :
    system.id = systemId ∧ db' = { db with systems := db'.systems } ∧
      db'.systems.rows.map SystemRow.withoutUpdatedAt =
        db.systems.rows.map SystemRow.withoutUpdatedAt := by
  obtain ⟨validated', parsed', found, -, upserted, triggers⟩ := of_upsertSystem done
  obtain rfl : validated = validated' := Option.some.inj (parsed.symm.trans parsed')
  obtain ⟨row, member, address, rfl, same⟩ := settled
  have lookup : db.systems.rows.find? (fun other =>
      other.systemAddress = (validated.row env).systemAddress) = some row := by
    have byKey := find?_key (distinctAddresses db) member
    rwa [address] at byKey
  have unique : ∀ other ∈ db.systems.rows, other.systemAddress = (validated.row env).systemAddress →
      other = row := fun other inRows sameAddress =>
    List.inj_on_of_nodup_map (distinctAddresses db) inRows member (sameAddress.trans address.symm)
  obtain ⟨views, updates⟩ := upsertRows_of_settled SystemRow.withoutUpdatedAt
    (fun row row' equal => (SystemRow.withoutUpdatedAt_congr equal).2.1)
    (by simpa using ⟨row, member, address⟩)
    (by
      intro wanted inProposed other inRows sameAddress _
      rw [List.mem_singleton.mp inProposed] at sameAddress
      rw [unique other inRows sameAddress]
      exact same _) upserted
  refine ⟨?_, ?_, views⟩
  · rw [found, SystemInsert.upserted, rowFor, lookup]
    rfl
  · rw [afterSystems_of_unseen] at triggers
    · exact triggers
    · intro change changed
      obtain ⟨wanted, inProposed, other, inRows, sameAddress, -, made⟩ := updates change changed
      rw [List.mem_singleton.mp inProposed] at sameAddress
      rw [unique other inRows sameAddress] at made
      exact ⟨_, _, made, same _⟩

/-! ## The powers -/

/-- An upsert of powers that finds the table of an earlier one changes nothing. -/
theorem upsertPowerplayPowers_of_settled {env' : TxEnv} {message : SystemMessage K}
    {powers powers' : List PowerplayPowerRow} {later later' : Db P}
    (first : upsertPowerplayPowers env message db = .ok (db', powers))
    (settled : later.powerplayPowers = db'.powerplayPowers)
    (second : upsertPowerplayPowers env' message later = .ok (later', powers')) :
    later' = later ∧ powers' = powers := by
  unfold upsertPowerplayPowers at first second
  simp only at first second
  split at first
  · rename_i nobody
    rw [if_pos nobody] at second
    cases pure_eq_ok.mp first
    cases pure_eq_ok.mp second
    exact ⟨rfl, rfl⟩
  · rename_i somebody
    rw [if_neg somebody] at second
    split at first
    · cases first
    · rename_i valid
      rw [if_neg valid] at second
      simp only [bind_eq_ok, orFail_eq_ok, pure_eq_ok] at first second
      obtain ⟨names, named, ⟨table, changes⟩, write, same⟩ := first
      obtain ⟨names', named', ⟨table', changes'⟩, write', same'⟩ := second
      cases same
      cases same'
      obtain rfl : names = names' := Option.some.inj (named.symm.trans named')
      have rows := Table.write_eq_some write
      have rows' := Table.write_eq_some write'
      -- Every name that is proposed again is in the table since the first time.
      have skipped := insertOrSkip_of_settled (fun row : PowerplayPowerRow => P.citext row.name)
        (names.mapIdx fun index name =>
          { id := env'.randomUuid .upsertPowerplayPowers index, name })
        later.powerplayPowers.rows (by
          intro row member
          obtain ⟨index, small, rfl⟩ := List.mem_mapIdx.mp member
          rw [settled]
          refine (congrArg (fun rows => _ ∈ List.map _ rows) (congrArg Prod.fst rows)).mp
            ((insertOrSkip_settles _ _ _ _).mpr (.inr ?_))
          exact List.mem_map.mpr ⟨_, List.mem_mapIdx.mpr ⟨index, small, rfl⟩, rfl⟩)
      rw [skipped] at rows'
      have sameTable : table' = later.powerplayPowers :=
        Table.ext (congrArg Prod.fst rows').symm
      refine ⟨by rw [sameTable], ?_⟩
      rw [sameTable, settled]

/-- The associations of a system with exactly these powers. -/
theorem upsertSystemPowerplayPowers_of_settled {systemId : Uuid} {powers : List PowerplayPowerRow}
    {later later' : Db P} (first : upsertSystemPowerplayPowers systemId powers db = .ok db')
    (settled : later.systemPowerplayPowers = db'.systemPowerplayPowers)
    (second : upsertSystemPowerplayPowers systemId powers later = .ok later') : later' = later := by
  unfold upsertSystemPowerplayPowers at first second
  split at first
  · rename_i nobody
    rw [if_pos nobody] at second
    cases pure_eq_ok.mp first
    cases pure_eq_ok.mp second
    have unmatched : ∀ row ∈ later.systemPowerplayPowers.rows,
        decide (row.systemId = systemId) = false := by
      rw [settled]
      intro row member
      simpa [deleteRows] using (List.mem_filter.mp member).2
    have same : (later.systemPowerplayPowers.delete fun row => row.systemId = systemId).1 =
        later.systemPowerplayPowers :=
      Table.ext (congrArg Prod.fst (deleteRows_of_none _ _ unmatched))
    rw [same]
  · rename_i somebody
    rw [if_neg somebody] at second
    simp only [bind_eq_ok, orFail_eq_ok, pure_eq_ok] at first second
    obtain ⟨⟨table, changes⟩, write, rfl⟩ := first
    obtain ⟨⟨table', changes'⟩, write', rfl⟩ := second
    have rows := Table.write_eq_some write
    have rows' := Table.write_eq_some write'
    have kept : ∀ row, row ∈ later.systemPowerplayPowers.rows ↔ row ∈ table.rows ∧
        ¬ (row.systemId = systemId ∧ row.powerId ∉ powers.map fun power => power.id) := by
      intro row
      rw [settled]
      simp only [Table.rows_delete, deleteRows, List.mem_filter, Bool.not_eq_true',
        decide_eq_false_iff_not]
    have skipped := insertOrSkip_of_settled id
      ((powers.map fun power => power.id).map fun powerId =>
        (⟨systemId, powerId⟩ : SystemPowerplayPowerRow))
      later.systemPowerplayPowers.rows (by
        intro row member
        obtain ⟨powerId, wanted, rfl⟩ := List.mem_map.mp member
        rw [List.map_id, id, kept]
        refine ⟨?_, fun away => away.2 wanted⟩
        have inserted := (insertOrSkip_settles id _ db.systemPowerplayPowers.rows
          (id (⟨systemId, powerId⟩ : SystemPowerplayPowerRow))).mpr
            (.inr (List.mem_map_of_mem member))
        rw [rows, List.map_id] at inserted
        exact inserted)
    rw [skipped] at rows'
    have sameTable : table' = later.systemPowerplayPowers :=
      Table.ext (congrArg Prod.fst rows').symm
    have same : (later.systemPowerplayPowers.delete fun row =>
        row.systemId = systemId ∧ row.powerId ∉ powers.map fun power => power.id).1 =
          later.systemPowerplayPowers := by
      refine Table.ext (congrArg Prod.fst (deleteRows_of_none _ _ fun row member => ?_))
      exact decide_eq_false ((kept row).mp member).2
    rw [sameTable, same]

/-! ## The conflicts of powers -/

theorem PowerplayConflictRow.withoutUpdatedAt_congr {row row' : PowerplayConflictRow K}
    (same : row.withoutUpdatedAt = row'.withoutUpdatedAt) : row.key = row'.key := by
  cases row
  cases row'
  simp only [withoutUpdatedAt, PowerplayConflictRow.mk.injEq] at same
  simp [key, same]

theorem distinctPowerplayConflicts (db : Db P) :
    (db.powerplayConflicts.rows.map PowerplayConflictRow.key).Nodup :=
  List.pairwise_map.mpr (db.powerplayConflicts.unique.imp fun apart same => apart (.inr same))

/-- The conflicts of a system that a message leaves: those of `data` and no others. -/
structure PowerplayConflictsSettled (systemId : Uuid) (data : List (Uuid × K))
    (rows : List (PowerplayConflictRow K)) : Prop where
  listed : ∀ conflict ∈ data, ∃ row ∈ rows, row.key = (systemId, conflict.1) ∧
    row.conflictProgress = conflict.2
  only : ∀ row ∈ rows, row.systemId = systemId → row.powerId ∈ data.map Prod.fst

/-- The rows that the upsert of powerplay conflicts proposes. -/
def proposedPowerplayConflicts (env : TxEnv) (systemId : Uuid) (data : List (Uuid × K)) :
    List (PowerplayConflictRow K) :=
  data.mapIdx fun index conflict =>
    { id := env.randomUuid .upsertPowerplayConflicts index
      systemId
      powerId := conflict.1
      conflictProgress := conflict.2
      createdAt := env.now
      updatedAt := env.now }

/-- `ON CONFLICT ("systemId", "powerId") DO UPDATE SET`. -/
def PowerplayConflictRow.setExcluded (updatedAt : Timestamp)
    (row excluded : PowerplayConflictRow K) : PowerplayConflictRow K :=
  { row with conflictProgress := excluded.conflictProgress, updatedAt }

theorem PowerplayConflictRow.key_setExcluded (updatedAt : Timestamp)
    (row excluded : PowerplayConflictRow K) (same : row.key = excluded.key) :
    (row.setExcluded updatedAt excluded).key = excluded.key := same

theorem mem_proposedPowerplayConflicts {systemId : Uuid} {data : List (Uuid × K)}
    {row : PowerplayConflictRow K} (member : row ∈ proposedPowerplayConflicts env systemId data) :
    ∃ conflict ∈ data, row.key = (systemId, conflict.1) ∧ row.conflictProgress = conflict.2 := by
  obtain ⟨index, small, rfl⟩ := List.mem_mapIdx.mp member
  exact ⟨data[index], List.getElem_mem small, rfl, rfl⟩

theorem exists_proposedPowerplayConflict (env : TxEnv) (systemId : Uuid)
    {data : List (Uuid × K)} {conflict : Uuid × K} (member : conflict ∈ data) :
    ∃ row ∈ proposedPowerplayConflicts env systemId data, row.key = (systemId, conflict.1) ∧
      row.conflictProgress = conflict.2 := by
  obtain ⟨index, small, rfl⟩ := List.mem_iff_getElem.mp member
  exact ⟨_, List.mem_mapIdx.mpr ⟨index, small, rfl⟩, rfl, rfl⟩

/-- The two statements of the upsert, when the message gives some conflict. -/
theorem of_upsertPowerplayConflicts {systemId : Uuid} {message : SystemMessage K}
    {powers : List PowerplayPowerRow}
    (some_ : (powerplayConflictsByPowerId message powers).entries ≠ [])
    (done : upsertPowerplayConflicts env systemId message powers db = .ok db') :
    ∃ table changes, upsertRows PowerplayConflictRow.key
        (PowerplayConflictRow.setExcluded (env.newDate .upsertPowerplayConflicts))
        (fun _ _ => true)
        (proposedPowerplayConflicts env systemId
          (powerplayConflictsByPowerId message powers).entries)
        db.powerplayConflicts.rows = some (Table.rows table, changes) ∧
      db' = { db with powerplayConflicts := (Table.delete (fun row => row.systemId = systemId ∧
        row.powerId ∉ (powerplayConflictsByPowerId message powers).entries.map Prod.fst)
          table).1 } := by
  unfold upsertPowerplayConflicts at done
  simp only [if_neg some_, bind_eq_ok, orFail_eq_ok, pure_eq_ok] at done
  obtain ⟨validated, valid, outcome, upserted, ⟨table, changes⟩, write, rfl⟩ := done
  obtain rfl := Table.write_eq_some write
  split at valid
  · cases valid
    exact ⟨table, changes, upserted, rfl⟩
  · cases valid

theorem powerplayConflictsSettled_upsert {systemId : Uuid} {message : SystemMessage K}
    {powers : List PowerplayPowerRow}
    (done : upsertPowerplayConflicts env systemId message powers db = .ok db') :
    PowerplayConflictsSettled systemId (powerplayConflictsByPowerId message powers).entries
      db'.powerplayConflicts.rows := by
  by_cases nothing : (powerplayConflictsByPowerId message powers).entries = []
  · unfold upsertPowerplayConflicts at done
    simp only [if_pos nothing, pure_eq_ok] at done
    subst done
    rw [nothing]
    refine ⟨by simp, fun row member here => ?_⟩
    simp only [Table.rows_delete, deleteRows, List.mem_filter, Bool.not_eq_true',
      decide_eq_false_iff_not] at member
    exact absurd here member.2
  · obtain ⟨table, changes, upserted, rfl⟩ := of_upsertPowerplayConflicts nothing done
    have keyKept := PowerplayConflictRow.key_setExcluded (K := K)
      (env.newDate .upsertPowerplayConflicts)
    have distinct := (upsertRows_always (fun _ _ => rfl) (fun wanted _ row => keyKept row wanted)
      upserted).2.1
    constructor
    · intro conflict member
      obtain ⟨proposed, inProposed, key, progress⟩ :=
        exists_proposedPowerplayConflict env systemId member
      obtain ⟨row, inTable, sameKey, sameProgress⟩ := upsertRows_settles keyKept
        (fun row proposed => row.conflictProgress = proposed.conflictProgress)
        (fun _ => rfl) (fun _ _ _ => rfl) (by simp) distinct upserted proposed inProposed
      refine ⟨row, List.mem_filter.mpr ⟨inTable, ?_⟩, sameKey.trans key, sameProgress.trans progress⟩
      have listed : row.powerId ∈
          (powerplayConflictsByPowerId message powers).entries.map Prod.fst := by
        have power : row.powerId = conflict.1 := congrArg Prod.snd (sameKey.trans key)
        rw [power]
        exact List.mem_map_of_mem member
      simp [listed]
    · intro row member here
      simp only [Table.rows_delete, deleteRows, List.mem_filter, Bool.not_eq_true',
        decide_eq_false_iff_not, not_and, not_not] at member
      exact member.2 here

/-- Settled powerplay conflicts are upserted again without a trace but `updatedAt`. -/
theorem upsertPowerplayConflicts_of_settled {systemId : Uuid} {message : SystemMessage K}
    {powers : List PowerplayPowerRow}
    (settled : PowerplayConflictsSettled systemId
      (powerplayConflictsByPowerId message powers).entries db.powerplayConflicts.rows)
    (done : upsertPowerplayConflicts env systemId message powers db = .ok db') :
    db'.powerplayConflicts.rows.map PowerplayConflictRow.withoutUpdatedAt =
      db.powerplayConflicts.rows.map PowerplayConflictRow.withoutUpdatedAt := by
  by_cases nothing : (powerplayConflictsByPowerId message powers).entries = []
  · unfold upsertPowerplayConflicts at done
    simp only [if_pos nothing, pure_eq_ok] at done
    subst done
    rw [Table.rows_delete, deleteRows_of_none]
    intro row member
    rw [decide_eq_false_iff_not]
    intro here
    have listed := settled.only row member here
    rw [nothing] at listed
    cases listed
  · obtain ⟨table, changes, upserted, rfl⟩ := of_upsertPowerplayConflicts nothing done
    have unique : ∀ row ∈ db.powerplayConflicts.rows, ∀ row' ∈ db.powerplayConflicts.rows,
        row.key = row'.key → row = row' := fun row member row' member' =>
      List.inj_on_of_nodup_map (distinctPowerplayConflicts db) member member'
    obtain ⟨views, -⟩ := upsertRows_of_settled PowerplayConflictRow.withoutUpdatedAt
      (fun _ _ => PowerplayConflictRow.withoutUpdatedAt_congr)
      (by
        intro wanted inProposed
        obtain ⟨conflict, listed, key, -⟩ := mem_proposedPowerplayConflicts inProposed
        obtain ⟨row, member, rowKey, -⟩ := settled.listed conflict listed
        exact ⟨row, member, rowKey.trans key.symm⟩)
      (by
        intro wanted inProposed row member sameKey _
        obtain ⟨conflict, listed, key, progress⟩ := mem_proposedPowerplayConflicts inProposed
        obtain ⟨row', member', rowKey, rowProgress⟩ := settled.listed conflict listed
        obtain rfl := unique row member row' member' ((sameKey.trans key).trans rowKey.symm)
        simp only [PowerplayConflictRow.withoutUpdatedAt, PowerplayConflictRow.setExcluded,
          progress, rowProgress])
      upserted
    rw [Table.rows_delete, deleteRows_of_none, views]
    intro row member
    obtain ⟨old, inOld, same⟩ : ∃ old ∈ db.powerplayConflicts.rows,
        old.withoutUpdatedAt = row.withoutUpdatedAt :=
      List.mem_map.mp (views ▸ List.mem_map_of_mem member)
    have key := PowerplayConflictRow.withoutUpdatedAt_congr same
    rw [decide_eq_false_iff_not]
    rintro ⟨here, absent⟩
    have power : old.powerId = row.powerId := congrArg Prod.snd key
    exact absent (power ▸ settled.only old inOld ((congrArg Prod.fst key).trans here))

/-- **The powerplay data of a message, a second time**: on the tables that the first time
left, only `updatedAt` and stations change. -/
theorem processPowerplayData_of_settled {env' : TxEnv} {message : SystemMessage K}
    {systemId : Uuid} {later later' : Db P}
    (first : processPowerplayData env message systemId db = .ok db')
    (samePowers : later.powerplayPowers = db'.powerplayPowers)
    (sameAssociations : later.systemPowerplayPowers = db'.systemPowerplayPowers)
    (sameConflicts : later.powerplayConflicts = db'.powerplayConflicts)
    (second : processPowerplayData env' message systemId later = .ok later') :
    later' = { later with
        powerplayConflicts := later'.powerplayConflicts
        stations := later'.stations
        factionConflicts := later'.factionConflicts } ∧
      later'.powerplayConflicts.rows.map PowerplayConflictRow.withoutUpdatedAt =
        later.powerplayConflicts.rows.map PowerplayConflictRow.withoutUpdatedAt ∧
      later'.factionConflicts.rows.map FactionConflictRow.core =
        later.factionConflicts.rows.map FactionConflictRow.core := by
  obtain ⟨⟨powersDb, powers⟩, upserted, first⟩ := bind_eq_ok.mp first
  obtain ⟨associationsDb, associated, first⟩ := bind_eq_ok.mp first
  obtain ⟨conflictsDb, conflicts, carriers⟩ := bind_eq_ok.mp first
  obtain ⟨⟨powersDb', powers'⟩, upserted', second⟩ := bind_eq_ok.mp second
  obtain ⟨associationsDb', associated', second⟩ := bind_eq_ok.mp second
  obtain ⟨conflictsDb', conflicts', carriers'⟩ := bind_eq_ok.mp second
  have carriersFrame := (stationSteps_deleteStrongholdCarriers carriers).onlyStations.frame
  have conflictsFrame := frame_upsertPowerplayConflicts conflicts
  have associationsFrame := frame_upsertSystemPowerplayPowers associated
  rw [carriersFrame, conflictsFrame, associationsFrame] at samePowers
  rw [carriersFrame, conflictsFrame] at sameAssociations
  rw [carriersFrame] at sameConflicts
  obtain ⟨rfl, rfl⟩ := upsertPowerplayPowers_of_settled upserted samePowers upserted'
  obtain rfl := upsertSystemPowerplayPowers_of_settled associated sameAssociations associated'
  have settled := powerplayConflictsSettled_upsert conflicts
  rw [← sameConflicts] at settled
  have progress := upsertPowerplayConflicts_of_settled settled conflicts'
  have stations := (stationSteps_deleteStrongholdCarriers carriers').onlyStations
  refine ⟨?_, ?_, ?_⟩
  · rw [stations.frame, frame_upsertPowerplayConflicts conflicts']
  · rw [stations.frame]
    exact progress
  · rw [stations.conflicts, frame_upsertPowerplayConflicts conflicts']

end EliteHubVault
