import EliteHubVault.Worker.Mirror

/-!
# What a message leaves of powerplay

The powers of a message are lowered, mapped to their canonical names and read back. The
entries of `PowerplayConflictProgress` are compared with the canonical names as they are
spelled. So the associations of a system are the powers of the message
(`of_upsertPowerplayPowers`), and its conflicts are those of the entries that are spelled canonically.
-/

set_option autoImplicit false
set_option linter.unusedSectionVars false

namespace EliteHubVault

open Library

variable {K : Type}

/-! ## The names of powers -/

/-- The platform treats the letters of the powers' names as ASCII. -/
structure Platform.ReadsPowers (P : Platform K) : Prop where
  lowered : ∀ entry ∈ powerplayPowersFromLowercaseMap, P.toLowerCase entry.1 = entry.1
  lowers : ∀ entry ∈ powerplayPowersFromLowercaseMap, P.toLowerCase entry.2 = entry.1
  citext : ∀ entry ∈ powerplayPowersFromLowercaseMap, P.citext entry.2 = entry.1

theorem readsPowers_asciiPlatform : asciiPlatform.ReadsPowers := by
  constructor <;> decide +kernel

/-- The canonical names of the powers. -/
def canonicalPowers : List String := powerplayPowersFromLowercaseMap.map Prod.snd

/-- The powers of a message, in their canonical spelling. -/
def messagePowers (P : Platform K) (message : SystemMessage K) : List String :=
  (incomingPowersLowercased P message).filterMap fun power =>
    powerplayPowersFromLowercaseMap.lookup power

/-- The progress of the last entry that has exactly this name. -/
def lastProgress (message : SystemMessage K) (name : String) : Option K :=
  ((message.powerplayConflictProgress.getD []).filter fun conflict =>
    conflict.power = name).getLast?.map PowerplayConflictProgress.conflictProgress

theorem canonical_of_mem_messagePowers {P : Platform K} {message : SystemMessage K} {name : String}
    (member : name ∈ messagePowers P message) : name ∈ canonicalPowers := by
  obtain ⟨power, -, found⟩ := List.mem_filterMap.mp member
  obtain ⟨before, after, entries, -⟩ := List.lookup_eq_some_iff.mp found
  exact List.mem_map.mpr ⟨(power, name), entries ▸ List.mem_append_right _ List.mem_cons_self, rfl⟩

/-- Canonical names that the database does not tell apart are the same. -/
theorem eq_of_citext {P : Platform K} (reads : P.ReadsPowers) {name name' : String}
    (canonical : name ∈ canonicalPowers) (canonical' : name' ∈ canonicalPowers)
    (same : P.citext name = P.citext name') : name = name' := by
  obtain ⟨entry, member, rfl⟩ := List.mem_map.mp canonical
  obtain ⟨entry', member', rfl⟩ := List.mem_map.mp canonical'
  rw [reads.citext entry member, reads.citext entry' member'] at same
  have distinct : (powerplayPowersFromLowercaseMap.map Prod.fst).Nodup := by decide +kernel
  rw [List.inj_on_of_nodup_map distinct member member' same]

/-! ## The stored powers -/

section Powers

variable [Field K] [LinearOrder K] {P : Platform K} {env : TxEnv} {db db' : Db P}

/-- The stored powers have canonical names. -/
def Db.PowersSpelled (db : Db P) : Prop :=
  ∀ power ∈ db.powerplayPowers.rows, power.name ∈ canonicalPowers

/-- **What an upsert of powers returns**: the stored powers that the message names. -/
theorem of_upsertPowerplayPowers (reads : P.ReadsPowers) (spelled : db.PowersSpelled)
    {message : SystemMessage K} {powers : List PowerplayPowerRow}
    (done : upsertPowerplayPowers env message db = .ok (db', powers)) :
    db'.PowersSpelled ∧ (∀ name, name ∈ powers.map PowerplayPowerRow.name ↔
        name ∈ messagePowers P message) ∧
      (∀ power ∈ powers, power ∈ db'.powerplayPowers.rows) ∧
      ∀ power ∈ db'.powerplayPowers.rows, power.name ∈ messagePowers P message → power ∈ powers := by
  unfold upsertPowerplayPowers at done
  simp only at done
  split at done
  · rename_i nobody
    cases pure_eq_ok.mp done
    have none : messagePowers P message = [] := by rw [messagePowers, nobody]; rfl
    simp [none, spelled]
  · split at done
    · cases done
    · rename_i valid
      simp only [bind_eq_ok, orFail_eq_ok, pure_eq_ok] at done
      obtain ⟨names, named, ⟨table, changes⟩, write, same⟩ := done
      cases same
      have lengths := Decidable.not_not.mp valid
      rw [List.filter_eq_self.mpr (List.length_filter_eq_length_iff.mp lengths.symm)] at named
      have listed : messagePowers P message = names := filterMap_of_mapM named
      have rows := congrArg Prod.fst (Table.write_eq_some write)
      simp only at rows
      obtain ⟨kept, only⟩ := mem_insertOrSkip (fun row : PowerplayPowerRow => P.citext row.name)
        (names.mapIdx fun index name =>
          { id := env.randomUuid .upsertPowerplayPowers index, name }) db.powerplayPowers.rows
      rw [rows] at kept only
      have canonical : ∀ name ∈ names, name ∈ canonicalPowers := fun name member => by
        rw [← listed] at member
        exact canonical_of_mem_messagePowers member
      have spelled' : ∀ power ∈ table.rows, power.name ∈ canonicalPowers := by
        intro power member
        rcases only power member with old | new
        · exact spelled power old
        · obtain ⟨index, small, rfl⟩ := List.mem_mapIdx.mp new
          exact canonical _ (List.getElem_mem _)
      rw [listed]
      refine ⟨spelled', fun name => ⟨fun member => ?_, fun member => ?_⟩, fun power member => ?_,
        fun power member inNames => ?_⟩
      · obtain ⟨power, inPowers, rfl⟩ := List.mem_map.mp member
        obtain ⟨inTable, matched⟩ := List.mem_filter.mp inPowers
        obtain ⟨name, inNames, same⟩ := List.mem_map.mp (of_decide_eq_true matched)
        rwa [← eq_of_citext reads (canonical name inNames) (spelled' power inTable) same]
      · have settled := (insertOrSkip_settles (fun row : PowerplayPowerRow => P.citext row.name)
          (names.mapIdx fun index name =>
            { id := env.randomUuid .upsertPowerplayPowers index, name }) db.powerplayPowers.rows
          (P.citext name)).mpr (.inr ?_)
        · rw [rows] at settled
          obtain ⟨power, inTable, same⟩ := List.mem_map.mp settled
          have sameName := eq_of_citext reads (spelled' power inTable) (canonical name member) same
          refine List.mem_map.mpr ⟨power, List.mem_filter.mpr ⟨inTable, decide_eq_true ?_⟩, sameName⟩
          exact sameName ▸ List.mem_map_of_mem member
        · obtain ⟨index, small, rfl⟩ := List.mem_iff_getElem.mp member
          exact List.mem_map.mpr ⟨_, List.mem_mapIdx.mpr ⟨index, small, rfl⟩, rfl⟩
      · exact (List.mem_filter.mp member).1
      · exact List.mem_filter.mpr ⟨member, decide_eq_true (List.mem_map_of_mem inNames)⟩

/-- The powers of a system, exactly those of the list; other systems keep theirs. -/
theorem of_upsertSystemPowerplayPowers {systemId : Uuid} {powers : List PowerplayPowerRow}
    (done : upsertSystemPowerplayPowers systemId powers db = .ok db') :
    (∀ powerId, ⟨systemId, powerId⟩ ∈ db'.systemPowerplayPowers.rows ↔
        powerId ∈ powers.map PowerplayPowerRow.id) ∧
      ∀ row : SystemPowerplayPowerRow, row.systemId ≠ systemId →
        (row ∈ db'.systemPowerplayPowers.rows ↔ row ∈ db.systemPowerplayPowers.rows) := by
  unfold upsertSystemPowerplayPowers at done
  split at done
  · rename_i nobody
    cases pure_eq_ok.mp done
    simp only [Table.rows_delete, deleteRows, List.mem_filter, nobody]
    exact ⟨fun powerId => by simp, fun row other => by simp [other]⟩
  · simp only [bind_eq_ok, orFail_eq_ok, pure_eq_ok] at done
    obtain ⟨⟨table, changes⟩, write, rfl⟩ := done
    have rows := congrArg Prod.fst (Table.write_eq_some write)
    simp only at rows
    obtain ⟨kept, only⟩ := mem_insertOrSkip id ((powers.map fun power => power.id).map
      fun powerId => (⟨systemId, powerId⟩ : SystemPowerplayPowerRow)) db.systemPowerplayPowers.rows
    rw [rows] at kept only
    have mem_iff : ∀ row : SystemPowerplayPowerRow, row ∈ table.rows ↔
        row ∈ db.systemPowerplayPowers.rows ∨
          row.systemId = systemId ∧ row.powerId ∈ powers.map PowerplayPowerRow.id := by
      intro row
      constructor
      · intro member
        refine (only row member).imp_right fun new => ?_
        obtain ⟨powerId, wanted, rfl⟩ := List.mem_map.mp new
        exact ⟨rfl, wanted⟩
      · rintro (old | ⟨here, wanted⟩)
        · exact kept row old
        · have settled := (insertOrSkip_settles id ((powers.map fun power => power.id).map
            fun powerId => (⟨systemId, powerId⟩ : SystemPowerplayPowerRow))
            db.systemPowerplayPowers.rows row).mpr
              (.inr (by rw [List.map_id]; exact List.mem_map.mpr ⟨_, wanted, by rw [← here]⟩))
          rwa [rows, List.map_id] at settled
    simp only [Table.rows_delete, deleteRows, List.mem_filter, mem_iff]
    refine ⟨fun powerId => ?_, fun row other => ?_⟩
    · by_cases wanted : powerId ∈ powers.map PowerplayPowerRow.id
      · have wanted' : ∃ power ∈ powers, power.id = powerId := List.mem_map.mp wanted
        simp [wanted']
      · have unwanted : ¬ ∃ power ∈ powers, power.id = powerId :=
          fun found => wanted (List.mem_map.mpr found)
        simp [unwanted]
    · simp [other]

/-! ## The progress of conflicts -/

/-- Powers that are told apart by their ids and by their names. -/
structure DistinctPowers (powers : List PowerplayPowerRow) : Prop where
  ids : ∀ power ∈ powers, ∀ power' ∈ powers, power.id = power'.id → power = power'
  names : ∀ power ∈ powers, ∀ power' ∈ powers, power.name = power'.name → power = power'

/-- **The recorded progress of a power** is that of the last entry with its exact name. -/
theorem get_powerplayConflictsByPowerId {message : SystemMessage K}
    {powers : List PowerplayPowerRow} (distinct : DistinctPowers powers) :
    (∀ power ∈ powers, (powerplayConflictsByPowerId message powers).get power.id =
      lastProgress message power.name) ∧
    ∀ powerId ∉ powers.map PowerplayPowerRow.id,
      (powerplayConflictsByPowerId message powers).get powerId = none := by
  unfold powerplayConflictsByPowerId lastProgress
  induction message.powerplayConflictProgress.getD [] using List.reverseRecOn with
  | nil => exact ⟨fun _ _ => rfl, fun _ _ => rfl⟩
  | append_singleton entries conflict ih =>
      obtain ⟨known, unknown⟩ := ih
      simp only [List.foldl_append, List.foldl_cons, List.foldl_nil, List.filter_append]
      cases search : powers.find? fun power => power.name = conflict.power with
      | none =>
          have absent := List.find?_eq_none.mp search
          refine ⟨fun power member => ?_, unknown⟩
          have other : ¬ conflict.power = power.name := fun same =>
            absent power member (decide_eq_true same.symm)
          have skipped : ([conflict].filter fun conflict => conflict.power = power.name) = [] := by
            simp [other]
          rw [skipped, List.append_nil]
          exact known power member
      | some found =>
          have member := List.mem_of_find?_eq_some search
          have named : found.name = conflict.power := by simpa using List.find?_some search
          refine ⟨fun power inPowers => ?_, fun powerId absent => ?_⟩
          · simp only [OrderedMap.get_set]
            by_cases same : conflict.power = power.name
            · obtain rfl := distinct.names power inPowers found member (same.symm.trans named.symm)
              simp [same]
            · have apart : ¬ power.id = found.id := fun sameId => by
                obtain rfl := distinct.ids power inPowers found member sameId
                exact same named.symm
              have skipped : ([conflict].filter fun conflict => conflict.power = power.name) =
                  [] := by
                simp [same]
              rw [if_neg apart, skipped, List.append_nil]
              exact known power inPowers
          · have apart : ¬ powerId = found.id := fun same =>
              absent (same ▸ List.mem_map_of_mem member)
            simp only [OrderedMap.get_set]
            rw [if_neg apart]
            exact unknown powerId absent

theorem mem_powerplayConflictsByPowerId {message : SystemMessage K}
    {powers : List PowerplayPowerRow} (distinct : DistinctPowers powers) {powerId : Uuid}
    {progress : K} : (powerId, progress) ∈ (powerplayConflictsByPowerId message powers).entries ↔
      ∃ power ∈ powers, power.id = powerId ∧ lastProgress message power.name = some progress := by
  obtain ⟨known, unknown⟩ := @get_powerplayConflictsByPowerId K _ _ message powers distinct
  rw [← OrderedMap.get_eq_some_iff]
  constructor
  · intro found
    by_cases listed : powerId ∈ powers.map PowerplayPowerRow.id
    · obtain ⟨power, member, rfl⟩ := List.mem_map.mp listed
      exact ⟨power, member, rfl, (known power member).symm.trans found⟩
    · rw [unknown powerId listed] at found
      cases found
  · rintro ⟨power, member, rfl, last⟩
    exact (known power member).trans last

/-- The conflicts of powers of a system: those of the entries that name a power exactly. -/
theorem mem_upsertPowerplayConflicts {systemId : Uuid} {message : SystemMessage K}
    {powers : List PowerplayPowerRow} (distinct : DistinctPowers powers)
    (done : upsertPowerplayConflicts env systemId message powers db = .ok db') (powerId : Uuid)
    (progress : K) : (∃ row ∈ db'.powerplayConflicts.rows, row.key = (systemId, powerId) ∧
        row.conflictProgress = progress) ↔
      ∃ power ∈ powers, power.id = powerId ∧ lastProgress message power.name = some progress := by
  have settled := powerplayConflictsSettled_upsert done
  rw [← mem_powerplayConflictsByPowerId distinct]
  constructor
  · rintro ⟨row, member, key, rfl⟩
    have listed := settled.only row member (congrArg Prod.fst key)
    obtain ⟨⟨powerId', progress'⟩, inEntries, same⟩ := List.mem_map.mp listed
    obtain ⟨row', member', key', sameProgress⟩ := settled.listed _ inEntries
    have sameId : row.powerId = powerId := congrArg Prod.snd key
    obtain rfl : powerId' = powerId := same.trans sameId
    obtain rfl := List.inj_on_of_nodup_map (distinctPowerplayConflicts db') member member'
      (key.trans key'.symm)
    exact sameProgress ▸ inEntries
  · intro inEntries
    obtain ⟨row, member, key, same⟩ := settled.listed _ inEntries
    exact ⟨row, member, key, same⟩

/-- The conflicts of other systems are left alone. -/
theorem filter_upsertPowerplayConflicts {systemId : Uuid} {message : SystemMessage K}
    {powers : List PowerplayPowerRow}
    (done : upsertPowerplayConflicts env systemId message powers db = .ok db') :
    (db'.powerplayConflicts.rows.filter fun row => row.systemId ≠ systemId) =
      db.powerplayConflicts.rows.filter fun row => row.systemId ≠ systemId := by
  by_cases nothing : (powerplayConflictsByPowerId message powers).entries = []
  · unfold upsertPowerplayConflicts at done
    simp only [if_pos nothing, pure_eq_ok] at done
    subst done
    rw [Table.rows_delete, deleteRows, List.filter_filter]
    refine List.filter_congr fun row _ => ?_
    by_cases here : row.systemId = systemId <;> simp [here]
  · obtain ⟨table, changes, upserted, rfl⟩ := of_upsertPowerplayConflicts nothing done
    have kept : (table.rows.filter fun row => row.systemId ≠ systemId) =
        db.powerplayConflicts.rows.filter fun row => row.systemId ≠ systemId := by
      refine filter_upsertRows upserted fun change member row mentioned => ?_
      have key := key_of_upsertRows (PowerplayConflictRow.key_setExcluded (K := K)
        (env.newDate .upsertPowerplayConflicts)) upserted change member row mentioned
      obtain ⟨wanted, inProposed, same⟩ := List.mem_map.mp key
      obtain ⟨conflict, -, wantedKey, -⟩ := mem_proposedPowerplayConflicts inProposed
      have here : row.systemId = systemId := congrArg Prod.fst (same.symm.trans wantedKey)
      simp [here]
    rw [Table.rows_delete, deleteRows, List.filter_filter, ← kept]
    refine List.filter_congr fun row _ => ?_
    by_cases here : row.systemId = systemId <;> simp [here]

/-! ## A system's powers after a message -/

/-- The row is about a stored power of this name. -/
def Db.IsNamed (db : Db P) (powerId : Uuid) (name : String) : Prop :=
  ∃ power ∈ db.powerplayPowers.rows, power.id = powerId ∧ power.name = name

/-- A system has a power of this name. -/
def Db.HasPower (db : Db P) (systemId : Uuid) (name : String) : Prop :=
  ∃ row ∈ db.systemPowerplayPowers.rows, row.systemId = systemId ∧ db.IsNamed row.powerId name

/-- A system has a conflict of the power of this name with this progress. -/
def Db.HasPowerConflict (db : Db P) (systemId : Uuid) (name : String) (progress : K) : Prop :=
  ∃ row ∈ db.powerplayConflicts.rows, row.systemId = systemId ∧ row.conflictProgress = progress ∧
    db.IsNamed row.powerId name

/-- What a message leaves of the powers of its system. -/
structure PowersSettled (message : SystemMessage K) (systemId : Uuid) (before after : Db P) :
    Prop where
  spelled : after.PowersSpelled
  stored : ∀ name ∈ messagePowers P message, ∃ power ∈ after.powerplayPowers.rows, power.name = name
  powers : ∀ name, after.HasPower systemId name ↔ name ∈ messagePowers P message
  conflicts : ∀ name progress, after.HasPowerConflict systemId name progress ↔
    name ∈ messagePowers P message ∧ lastProgress message name = some progress
  listed : ∀ row ∈ after.powerplayConflicts.rows, row.systemId = systemId →
    ∃ name, after.IsNamed row.powerId name
  others : (after.powerplayConflicts.rows.filter fun row => row.systemId ≠ systemId) =
    before.powerplayConflicts.rows.filter fun row => row.systemId ≠ systemId

theorem distinctPowers_of_subset {powers : List PowerplayPowerRow}
    (stored : ∀ power ∈ powers, power ∈ db.powerplayPowers.rows) : DistinctPowers powers := by
  have unique : ∀ power ∈ powers, ∀ power' ∈ powers, power.Clash P power' → power = power' :=
    fun power member power' member' clash =>
      db.powerplayPowers.eq_of_clash (fun _ _ => Or.imp Eq.symm Eq.symm) (stored power member)
        (stored power' member') clash
  exact ⟨fun power member power' member' same => unique power member power' member' (.inl same),
    fun power member power' member' same =>
      unique power member power' member' (.inr (congrArg P.citext same))⟩

/-- **What processing the powerplay of a message leaves.** -/
theorem powersSettled_processPowerplayData (reads : P.ReadsPowers) (spelled : db.PowersSpelled)
    {message : SystemMessage K} {systemId : Uuid}
    (done : processPowerplayData env message systemId db = .ok db') :
    PowersSettled message systemId db db' := by
  obtain ⟨⟨first, powers⟩, upserted, done⟩ := bind_eq_ok.mp done
  obtain ⟨second, associated, done⟩ := bind_eq_ok.mp done
  obtain ⟨third, conflicts, done⟩ := bind_eq_ok.mp done
  obtain ⟨spelled', names, stored, found⟩ := of_upsertPowerplayPowers reads spelled upserted
  obtain ⟨associations, -⟩ := of_upsertSystemPowerplayPowers associated
  have distinct : DistinctPowers powers := distinctPowers_of_subset stored
  have progresses := mem_upsertPowerplayConflicts distinct conflicts
  have samePowers : db'.powerplayPowers = first.powerplayPowers := by
    rw [(stationSteps_deleteStrongholdCarriers done).onlyStations.frame,
      frame_upsertPowerplayConflicts conflicts, frame_upsertSystemPowerplayPowers associated]
  have sameAssociations : db'.systemPowerplayPowers = second.systemPowerplayPowers := by
    rw [(stationSteps_deleteStrongholdCarriers done).onlyStations.frame,
      frame_upsertPowerplayConflicts conflicts]
  have sameConflicts : db'.powerplayConflicts = third.powerplayConflicts := by
    rw [(stationSteps_deleteStrongholdCarriers done).onlyStations.frame]
  have named_iff : ∀ powerId name,
      db'.IsNamed powerId name ∧ powerId ∈ powers.map PowerplayPowerRow.id ↔
        ∃ power ∈ powers, power.id = powerId ∧ power.name = name := by
    intro powerId name
    constructor
    · rintro ⟨⟨power, member, rfl, rfl⟩, listed⟩
      obtain ⟨other, inPowers, sameId⟩ := List.mem_map.mp listed
      rw [samePowers] at member
      obtain rfl : other = power := first.powerplayPowers.eq_of_clash
        (fun _ _ => Or.imp Eq.symm Eq.symm) (stored other inPowers) member (.inl sameId)
      exact ⟨other, inPowers, rfl, rfl⟩
    · rintro ⟨power, inPowers, rfl, rfl⟩
      exact ⟨⟨power, samePowers ▸ stored power inPowers, rfl, rfl⟩, List.mem_map_of_mem inPowers⟩
  refine ⟨fun power member => spelled' power (samePowers ▸ member), fun name member => ?_,
    fun name => ?_, fun name progress => ?_, fun row member here => ?_, ?_⟩
  · obtain ⟨power, inPowers, same⟩ := List.mem_map.mp ((names name).mpr member)
    exact ⟨power, samePowers ▸ stored power inPowers, same⟩
  · rw [← names]
    constructor
    · rintro ⟨row, member, rfl, named⟩
      rw [sameAssociations] at member
      obtain ⟨power, inPowers, -, rfl⟩ :=
        (named_iff row.powerId name).mp ⟨named, (associations row.powerId).mp member⟩
      exact List.mem_map_of_mem inPowers
    · intro member
      obtain ⟨power, inPowers, rfl⟩ := List.mem_map.mp member
      have associatedRow := (associations power.id).mpr (List.mem_map_of_mem inPowers)
      exact ⟨_, sameAssociations ▸ associatedRow, rfl,
        ((named_iff power.id power.name).mpr ⟨power, inPowers, rfl, rfl⟩).1⟩
  · rw [← names]
    constructor
    · rintro ⟨row, member, rfl, rfl, named⟩
      rw [sameConflicts] at member
      obtain ⟨power, inPowers, sameId, last⟩ :=
        (progresses row.powerId row.conflictProgress).mp ⟨row, member, rfl, rfl⟩
      obtain ⟨power', inPowers', sameId', rfl⟩ := (named_iff row.powerId name).mp
        ⟨named, List.mem_map.mpr ⟨power, inPowers, sameId⟩⟩
      obtain rfl := distinct.ids power inPowers power' inPowers' (sameId.trans sameId'.symm)
      exact ⟨List.mem_map_of_mem inPowers, last⟩
    · rintro ⟨member, last⟩
      obtain ⟨power, inPowers, rfl⟩ := List.mem_map.mp member
      obtain ⟨row, inRows, key, same⟩ :=
        (progresses power.id progress).mpr ⟨power, inPowers, rfl, last⟩
      have samePower : row.powerId = power.id := congrArg Prod.snd key
      exact ⟨row, sameConflicts ▸ inRows, congrArg Prod.fst key, same, samePower ▸
        ((named_iff power.id power.name).mpr ⟨power, inPowers, rfl, rfl⟩).1⟩
  · rw [sameConflicts] at member
    obtain ⟨power, inPowers, sameId, -⟩ := (progresses row.powerId row.conflictProgress).mp
      ⟨row, member, by rw [PowerplayConflictRow.key, here], rfl⟩
    exact ⟨power.name, sameId ▸ ((named_iff power.id power.name).mpr ⟨power, inPowers, rfl, rfl⟩).1⟩
  · rw [sameConflicts, filter_upsertPowerplayConflicts conflicts,
      frame_upsertSystemPowerplayPowers associated, frame_upsertPowerplayPowers upserted]

/-- Every stored power has a canonical name. -/
theorem powersSpelled_of_workerReachable (reads : P.ReadsPowers) (reachable : WorkerReachable db) :
    db.PowersSpelled := by
  refine reachable.of_stages (fun power member => nomatch member)
    fun env before after spelled stage => ?_
  have of_same : after.powerplayPowers = before.powerplayPowers → after.PowersSpelled :=
    fun same power member => spelled power (same ▸ member)
  cases stage with
  | system done => exact of_same (by rw [frame_upsertSystem done])
  | powerplay done => exact (powersSettled_processPowerplayData reads spelled done).spelled
  | factions done => exact of_same (by rw [frame_processFactionsData done])
  | stationFaction done => exact of_same (by rw [frame_upsertFactions done])
  | station done => exact of_same (by rw [(stationSteps_upsertStation done).onlyStations.frame])

end Powers

end EliteHubVault
