import EliteHubVault.Worker.PowerplayPicture

/-!
# What depends on the last message only

The powers of a system and their conflicts are replaced by each message, so they depend on
the last one only. The four columns of the system are kept where the message gives no value
(`same_powerplay_iff`). The conflicts are those that the message describes when the case of
the names in `PowerplayConflictProgress` does not matter (`power_conflicts_mirrored_iff`).
-/

set_option autoImplicit false
set_option linter.unusedSectionVars false

namespace EliteHubVault

open Library

section LastMessage

variable {K : Type} [Field K] [LinearOrder K] {P : Platform K} {env : TxEnv} {db db' : Db P}

/-! ## The columns of the system -/

namespace Db

/-- The system with this address. -/
def systemAt (address : K) (db : Db P) : Option (SystemRow K) :=
  db.systems.rows.find? fun row => row.systemAddress = address

/-- A column of the system with this address. -/
def columnAt {α : Type} (address : K) (column : SystemRow K → Option α) (db : Db P) : Option α :=
  (db.systemAt address).bind column

end Db

theorem systemAt_upsertSystem {data : SystemData K} {system : SystemRow K}
    (done : upsertSystem env data db = .ok (db', system)) :
    db'.systemAt data.systemAddress = some system := by
  obtain ⟨validated, parsed, found, present, -, -⟩ := of_upsertSystem done
  have address : system.systemAddress = data.systemAddress := by
    rw [found, validated.systemAddress_upserted, (of_parseSystemInsert parsed).1]
  have byKey := find?_key (distinctAddresses db') present
  rwa [address] at byKey

/-- The id of the system of a message: a new system draws one. -/
def systemIdAt (env : TxEnv) (address : K) (db : Db P) : Uuid :=
  ((db.systemAt address).map SystemRow.id).getD (env.randomUuid .upsertSystem 0)

theorem mem_systems_iff {row : SystemRow K} :
    row ∈ db.systems.rows ↔ db.systemAt row.systemAddress = some row :=
  ⟨fun member => find?_key (distinctAddresses db) member, fun found =>
    List.mem_of_find?_eq_some found⟩

/-- An upsert leaves its system, and the systems with other addresses. -/
theorem mem_upsertSystem {data : SystemData K} {system : SystemRow K}
    (done : upsertSystem env data db = .ok (db', system)) (row : SystemRow K) :
    row ∈ db'.systems.rows ↔
      row = system ∨ row ∈ db.systems.rows ∧ row.systemAddress ≠ data.systemAddress := by
  have here := systemAt_upsertSystem done
  obtain ⟨validated, parsed, found, -, upserted, -⟩ := of_upsertSystem done
  have address : validated.systemAddress = data.systemAddress := (of_parseSystemInsert parsed).1
  have own : system.systemAddress = data.systemAddress := by
    simpa using List.find?_some here
  obtain ⟨-, -, -, others⟩ := upsertRows_always (fun _ _ => rfl)
    (fun wanted member row _ => by rw [List.mem_singleton.mp member]; rfl) upserted
  have elsewhere : ∀ k, k ≠ data.systemAddress → db'.systemAt k = db.systemAt k :=
    fun k away => others k (by simpa [SystemInsert.row, address] using away)
  by_cases same : row.systemAddress = data.systemAddress
  · rw [mem_systems_iff, same, here]
    constructor
    · exact fun equal => .inl (Option.some.inj equal).symm
    · rintro (rfl | ⟨-, away⟩)
      · rfl
      · exact absurd rfl away
  · rw [mem_systems_iff, elsewhere _ same, ← mem_systems_iff]
    constructor
    · exact fun member => .inr ⟨member, same⟩
    · rintro (rfl | ⟨member, -⟩)
      · exact absurd own same
      · exact member

theorem id_upsertSystem {data : SystemData K} {system : SystemRow K}
    (done : upsertSystem env data db = .ok (db', system)) :
    system.id = systemIdAt env data.systemAddress db := by
  obtain ⟨validated, parsed, found, -, -, -⟩ := of_upsertSystem done
  have address : validated.systemAddress = data.systemAddress := (of_parseSystemInsert parsed).1
  rw [found, SystemInsert.upserted, rowFor, systemIdAt, Db.systemAt, ← address]
  have search : (validated.row env).systemAddress = validated.systemAddress := rfl
  rw [search]
  cases db.systems.rows.find? fun row => row.systemAddress = validated.systemAddress <;> rfl

theorem eq_of_systemId {row row' : SystemRow K} (member : row ∈ db.systems.rows)
    (member' : row' ∈ db.systems.rows) (same : row.id = row'.id) : row = row' :=
  db.systems.eq_of_clash (fun _ _ => Or.imp Eq.symm Eq.symm) member member' (.inl same)

/-- What an upsert leaves of the powerplay columns: the message's values, and where it gives
none the ones from before. -/
structure PowerplayWritten (data : SystemData K) (before after : Db P) : Prop where
  state : ∃ given, data.powerplayState.nullish = some given ∧
    after.columnAt data.systemAddress SystemRow.powerplayState =
      given.getD (before.columnAt data.systemAddress SystemRow.powerplayState)
  controlProgress : after.columnAt data.systemAddress SystemRow.powerplayStateControlProgress =
    (data.powerplayStateControlProgress <|>
      before.columnAt data.systemAddress SystemRow.powerplayStateControlProgress)
  reinforcement : after.columnAt data.systemAddress SystemRow.powerplayStateReinforcement =
    (data.powerplayStateReinforcement <|>
      before.columnAt data.systemAddress SystemRow.powerplayStateReinforcement)
  undermining : after.columnAt data.systemAddress SystemRow.powerplayStateUndermining =
    (data.powerplayStateUndermining <|>
      before.columnAt data.systemAddress SystemRow.powerplayStateUndermining)

theorem powerplayWritten_upsertSystem {data : SystemData K} {system : SystemRow K}
    (done : upsertSystem env data db = .ok (db', system)) : PowerplayWritten data db db' := by
  have here := systemAt_upsertSystem done
  obtain ⟨validated, parsed, found, -, -, -⟩ := of_upsertSystem done
  obtain ⟨address, state, controlProgress, reinforcement, undermining⟩ := of_parseSystemInsert parsed
  rw [SystemInsert.upserted, rowFor] at found
  cases before : db.systemAt data.systemAddress with
  | none =>
      have lookup : db.systems.rows.find? (fun row =>
          row.systemAddress = (validated.row env).systemAddress) = none := by
        rw [← before, ← address]
        rfl
      rw [lookup] at found
      subst found
      refine ⟨⟨_, state, ?_⟩, ?_, ?_, ?_⟩ <;>
        simp [Db.columnAt, here, before, SystemInsert.row, controlProgress, reinforcement,
          undermining]
  | some row =>
      have lookup : db.systems.rows.find? (fun row =>
          row.systemAddress = (validated.row env).systemAddress) = some row := by
        rw [← before, ← address]
        rfl
      rw [lookup] at found
      subst found
      refine ⟨⟨_, state, ?_⟩, ?_, ?_, ?_⟩ <;>
        simp [Db.columnAt, here, before, SystemInsert.set, controlProgress, reinforcement,
          undermining]

/-- The factions of a message change at most who controls systems. -/
theorem systems_processFactionsData {message : SystemMessage K} {systemId : Uuid}
    (done : processFactionsData env message systemId db = .ok db') :
    ∃ (controlled : SystemRow K → Bool) (factionId : Uuid) (updatedAt : Timestamp),
      db'.systems.rows = db.systems.rows.map fun row =>
        if controlled row then row.setControl factionId updatedAt else row := by
  have unchanged : db'.systems = db.systems → ∃ (controlled : SystemRow K → Bool)
      (factionId : Uuid) (updatedAt : Timestamp), db'.systems.rows = db.systems.rows.map fun row =>
        if controlled row then row.setControl factionId updatedAt else row := fun same =>
    ⟨fun _ => false, systemId, env.now, by simp [same]⟩
  obtain ⟨-, rfl⟩ | ⟨-, stored, factions, present, cleaned, synced, states, upserted, presence,
    cleanup, sync, state, conflicts⟩ := of_processFactionsData done
  · exact unchanged rfl
  · have early : cleaned.systems = db.systems := by
      rw [frame_cleanupFactionStates cleanup, frame_upsertSystemFactions presence,
        frame_upsertFactions upserted]
    have late : db'.systems = synced.systems := by
      rw [frame_upsertFactionConflicts conflicts, frame_upsertFactionStates state]
    cases controller : controllingFactionIdOf message (createFactionIdMap factions) with
    | value factionId =>
        rw [controller] at sync
        refine ⟨fun row => row.id = systemId, factionId,
          env.newDate .syncSystemControllingFaction, ?_⟩
        rw [late, (Db.of_writeSystems (orFail_eq_ok.mp sync)).1, early]
        rfl
    | inherited =>
        rw [controller] at sync
        exact absurd sync throw_ne_ok
    | null =>
        rw [controller] at sync
        exact unchanged (by rw [late, ← pure_eq_ok.mp sync, early])
    | undefined =>
        rw [controller] at sync
        exact unchanged (by rw [late, ← pure_eq_ok.mp sync, early])

/-- A column that control does not touch is the same after the factions. -/
theorem columnAt_processFactionsData {α : Type} {column : SystemRow K → Option α}
    (untouched : ∀ factionId updatedAt row, column (SystemRow.setControl factionId updatedAt row) =
      column row) {message : SystemMessage K} {systemId : Uuid}
    (done : processFactionsData env message systemId db = .ok db') (address : K) :
    db'.columnAt address column = db.columnAt address column := by
  obtain ⟨controlled, factionId, updatedAt, rows⟩ := systems_processFactionsData done
  have kept : ∀ row : SystemRow K, (if controlled row = true then
      row.setControl factionId updatedAt else row).systemAddress = row.systemAddress := fun row => by
    split <;> rfl
  have seen : ∀ row : SystemRow K, column (if controlled row = true then
      row.setControl factionId updatedAt else row) = column row := fun row => by
    split
    · exact untouched _ _ _
    · rfl
  rw [Db.columnAt, Db.columnAt, Db.systemAt, Db.systemAt, rows, List.find?_map]
  simp only [Function.comp_def, kept, Option.bind_map, seen]

/-! ## What depends on the last message only -/

/-- The system with this address has a power of this name. -/
def Db.HasPowerAt (db : Db P) (address : K) (name : String) : Prop :=
  ∃ system, db.systemAt address = some system ∧ db.HasPower system.id name

/-- The system with this address has a conflict of a power with this progress. -/
def Db.HasPowerConflictAt (db : Db P) (address : K) (name : String) (progress : K) : Prop :=
  ∃ system, db.systemAt address = some system ∧ db.HasPowerConflict system.id name progress

/-- Two databases have the same powerplay picture of the system with this address. -/
structure SamePowerplay (address : K) (db₁ db₂ : Db P) : Prop where
  state : db₁.columnAt address SystemRow.powerplayState =
    db₂.columnAt address SystemRow.powerplayState
  controlProgress : db₁.columnAt address SystemRow.powerplayStateControlProgress =
    db₂.columnAt address SystemRow.powerplayStateControlProgress
  reinforcement : db₁.columnAt address SystemRow.powerplayStateReinforcement =
    db₂.columnAt address SystemRow.powerplayStateReinforcement
  undermining : db₁.columnAt address SystemRow.powerplayStateUndermining =
    db₂.columnAt address SystemRow.powerplayStateUndermining
  powers : ∀ name, db₁.HasPowerAt address name ↔ db₂.HasPowerAt address name
  conflicts : ∀ name progress, db₁.HasPowerConflictAt address name progress ↔
    db₂.HasPowerConflictAt address name progress

/-- The databases agree on each powerplay column for which the message gives no value. -/
structure SameUngiven (message : SystemMessage K) (db₁ db₂ : Db P) : Prop where
  state : mapPowerplayState P message.powerplayState = .undefined →
    db₁.columnAt message.systemAddress SystemRow.powerplayState =
      db₂.columnAt message.systemAddress SystemRow.powerplayState
  controlProgress : message.powerplayStateControlProgress = none →
    db₁.columnAt message.systemAddress SystemRow.powerplayStateControlProgress =
      db₂.columnAt message.systemAddress SystemRow.powerplayStateControlProgress
  reinforcement : message.powerplayStateReinforcement = none →
    db₁.columnAt message.systemAddress SystemRow.powerplayStateReinforcement =
      db₂.columnAt message.systemAddress SystemRow.powerplayStateReinforcement
  undermining : message.powerplayStateUndermining = none →
    db₁.columnAt message.systemAddress SystemRow.powerplayStateUndermining =
      db₂.columnAt message.systemAddress SystemRow.powerplayStateUndermining

/-- What is settled depends on the tables of the powers only. -/
theorem PowersSettled.congr {message : SystemMessage K} {systemId : Uuid}
    {before before' after after' : Db P} (settled : PowersSettled message systemId before after)
    (conflictsBefore : before.powerplayConflicts = before'.powerplayConflicts)
    (powers : after'.powerplayPowers = after.powerplayPowers)
    (associations : after'.systemPowerplayPowers = after.systemPowerplayPowers)
    (conflicts : after'.powerplayConflicts = after.powerplayConflicts) :
    PowersSettled message systemId before' after' := by
  have named : ∀ powerId name, after'.IsNamed powerId name ↔ after.IsNamed powerId name :=
    fun powerId name => by rw [Db.IsNamed, powers]; rfl
  have hasPower : ∀ name, after'.HasPower systemId name ↔ after.HasPower systemId name :=
    fun name => by simp only [Db.HasPower, associations, named]
  have hasConflict : ∀ name progress, after'.HasPowerConflict systemId name progress ↔
      after.HasPowerConflict systemId name progress :=
    fun name progress => by simp only [Db.HasPowerConflict, conflicts, named]
  refine ⟨fun power member => settled.spelled power (powers ▸ member),
    fun name member => powers ▸ settled.stored name member,
    fun name => (hasPower name).trans (settled.powers name),
    fun name progress => (hasConflict name progress).trans (settled.conflicts name progress),
    fun row member here => ?_, ?_⟩
  · simp only [named]
    exact settled.listed row (conflicts ▸ member) here
  · rw [conflicts, settled.others, conflictsBefore]

/-- The powers of the system are those of the message when the message has been processed. -/
theorem powersSettled_processMessage (reads : P.ReadsPowers) (reachable : WorkerReachable db)
    {message : FullSystemMessage K}
    (kept : shouldUpsertSystem P message (buildFullSystemData P message.system) = true)
    (done : processMessage env message.toJournal db = .ok db') :
    PowerplayWritten (buildFullSystemData P message.system) db db' ∧
      ∃ system, db'.systemAt message.system.systemAddress = some system ∧
        PowersSettled message.system system.id db db' := by
  obtain ⟨dropped, -⟩ | ⟨-, afterSystem, system, afterPowers, afterFactions, upserted, powers,
    factions, station⟩ := of_processMessage done
  · exact absurd kept (Bool.eq_false_iff.mp dropped)
  have spelled : afterSystem.PowersSpelled := fun power member =>
    powersSpelled_of_workerReachable reads reachable power
      (by rwa [frame_upsertSystem upserted] at member)
  have settled := powersSettled_processPowerplayData reads spelled powers
  have only := onlyStationAndFaction_upsertStationOf station
  have column : ∀ {α : Type} {column : SystemRow K → Option α}, (∀ factionId updatedAt row,
      column (SystemRow.setControl factionId updatedAt row) = column row) →
      db'.columnAt message.system.systemAddress column =
        afterSystem.columnAt message.system.systemAddress column := by
    intro α column untouched
    have first := columnAt_processFactionsData untouched factions message.system.systemAddress
    rw [show db'.columnAt message.system.systemAddress column =
        afterFactions.columnAt message.system.systemAddress column by rw [only.frame]; rfl, first,
      frame_processPowerplayData powers]
    rfl
  obtain ⟨⟨given, read, state⟩, controlProgress, reinforcement, undermining⟩ :=
    powerplayWritten_upsertSystem upserted
  refine ⟨⟨?_, ?_, ?_, ?_⟩, ?_⟩
  · exact ⟨given, read, (column fun _ _ _ => rfl).trans state⟩
  · exact (column fun _ _ _ => rfl).trans controlProgress
  · exact (column fun _ _ _ => rfl).trans reinforcement
  · exact (column fun _ _ _ => rfl).trans undermining
  · have here : db'.columnAt message.system.systemAddress (fun row => some row.id) =
        some system.id := by
      rw [column fun _ _ _ => rfl, Db.columnAt]
      rw [show afterSystem.systemAt message.system.systemAddress = some system from
        systemAt_upsertSystem upserted]
      rfl
    obtain ⟨row, found, same⟩ := Option.bind_eq_some_iff.mp here
    have sameId : row.id = system.id := Option.some.inj same
    refine ⟨row, found, ?_⟩
    rw [sameId]
    refine settled.congr ?_ ?_ ?_ ?_
    · rw [frame_upsertSystem upserted]
    · rw [only.frame, frame_processFactionsData factions]
    · rw [only.frame, frame_processFactionsData factions]
    · rw [only.frame, frame_processFactionsData factions]

/-- A message that is not kept changes nothing. -/
theorem skipped_of_processMessage {message : FullSystemMessage K}
    (dropped : ¬ shouldUpsertSystem P message (buildFullSystemData P message.system) = true)
    (done : processMessage env message.toJournal db = .ok db') : db' = db := by
  obtain ⟨-, same⟩ | ⟨kept, -⟩ := of_processMessage done
  · exact same
  · exact absurd kept dropped

theorem hasPowerAt_iff {address : K} {name : String} {system : SystemRow K}
    (found : db.systemAt address = some system) :
    db.HasPowerAt address name ↔ db.HasPower system.id name := by
  simp [Db.HasPowerAt, found]

theorem hasPowerConflictAt_iff {address : K} {name : String} {progress : K} {system : SystemRow K}
    (found : db.systemAt address = some system) :
    db.HasPowerConflictAt address name progress ↔ db.HasPowerConflict system.id name progress := by
  simp [Db.HasPowerConflictAt, found]

theorem nullish_eq_some_none {α : Type} {value : JsLookup α} {given : Option (Option α)}
    (read : value.nullish = some given) : given = none ↔ value = .undefined := by
  cases value <;> simp only [JsLookup.nullish, Option.some.injEq, reduceCtorEq] at read <;>
    simp [← read]

theorem getD_eq_getD_iff {α : Type} (given : Option α) (a b : α) :
    given.getD a = given.getD b ↔ (given = none → a = b) := by
  cases given <;> simp

theorem orElse_eq_orElse_iff {α : Type} (given a b : Option α) :
    (given <|> a) = (given <|> b) ↔ (given = none → a = b) := by
  cases given <;> simp

/-- **The powerplay picture depends on the last message only, apart from the columns that it
does not give.** -/
theorem same_powerplay_iff (reads : P.ReadsPowers) {env₁ env₂ : TxEnv} {db₁ db₂ db₁' db₂' : Db P}
    {message : FullSystemMessage K} (reachable₁ : WorkerReachable db₁)
    (reachable₂ : WorkerReachable db₂)
    (done₁ : processMessage env₁ message.toJournal db₁ = .ok db₁')
    (done₂ : processMessage env₂ message.toJournal db₂ = .ok db₂') :
    SamePowerplay message.system.systemAddress db₁' db₂' ↔
      if shouldUpsertSystem P message (buildFullSystemData P message.system) then
        SameUngiven message.system db₁ db₂
      else SamePowerplay message.system.systemAddress db₁ db₂ := by
  by_cases kept : shouldUpsertSystem P message (buildFullSystemData P message.system) = true
  · rw [if_pos kept]
    obtain ⟨written₁, system₁, found₁, settled₁⟩ :=
      powersSettled_processMessage reads reachable₁ kept done₁
    obtain ⟨written₂, system₂, found₂, settled₂⟩ :=
      powersSettled_processMessage reads reachable₂ kept done₂
    obtain ⟨⟨given, read, state₁⟩, controlProgress₁, reinforcement₁, undermining₁⟩ := written₁
    obtain ⟨⟨given', read', state₂⟩, controlProgress₂, reinforcement₂, undermining₂⟩ := written₂
    obtain rfl : given = given' := Option.some.inj (read.symm.trans read')
    have ungiven : given = none ↔ mapPowerplayState P message.system.powerplayState = .undefined :=
      nullish_eq_some_none read
    have powers : ∀ name, db₁'.HasPowerAt message.system.systemAddress name ↔
        db₂'.HasPowerAt message.system.systemAddress name := fun name => by
      rw [hasPowerAt_iff found₁, hasPowerAt_iff found₂, settled₁.powers, settled₂.powers]
    have conflicts : ∀ name progress,
        db₁'.HasPowerConflictAt message.system.systemAddress name progress ↔
          db₂'.HasPowerConflictAt message.system.systemAddress name progress := fun name progress => by
      rw [hasPowerConflictAt_iff found₁, hasPowerConflictAt_iff found₂, settled₁.conflicts,
        settled₂.conflicts]
    simp only [buildFullSystemData] at state₁ controlProgress₁ reinforcement₁ undermining₁
    simp only [buildFullSystemData] at state₂ controlProgress₂ reinforcement₂ undermining₂
    have states := getD_eq_getD_iff given
      (db₁.columnAt message.system.systemAddress SystemRow.powerplayState)
      (db₂.columnAt message.system.systemAddress SystemRow.powerplayState)
    rw [← state₁, ← state₂, ungiven] at states
    constructor
    · intro same
      refine ⟨states.mp same.state, ?_, ?_, ?_⟩
      · rw [← orElse_eq_orElse_iff, ← controlProgress₁, ← controlProgress₂]
        exact same.controlProgress
      · rw [← orElse_eq_orElse_iff, ← reinforcement₁, ← reinforcement₂]
        exact same.reinforcement
      · rw [← orElse_eq_orElse_iff, ← undermining₁, ← undermining₂]
        exact same.undermining
    · intro same
      refine ⟨states.mpr same.state, ?_, ?_, ?_, powers, conflicts⟩
      · rw [controlProgress₁, controlProgress₂, orElse_eq_orElse_iff]
        exact same.controlProgress
      · rw [reinforcement₁, reinforcement₂, orElse_eq_orElse_iff]
        exact same.reinforcement
      · rw [undermining₁, undermining₂, orElse_eq_orElse_iff]
        exact same.undermining
  · rw [if_neg kept]
    rw [skipped_of_processMessage kept done₁, skipped_of_processMessage kept done₂]

/-- A jump into a system of Aisling Duval. -/
def samplePowerplay (powerplayState : Option String) (progress : Option ℚ) :
    FullSystemMessage ℚ :=
  .fsdJump { sampleMessage none [] with
    powers := some ["Aisling Duval"]
    powerplayState
    powerplayStateControlProgress := progress
    powerplayStateReinforcement := progress
    powerplayStateUndermining := progress }

/-- A message that gives every column leaves the same picture of a new system and of one that
was exploited. -/
theorem same_powerplay_iff_sample : ∃ db db₁' db₂' : Db asciiPlatform,
    db.columnAt 10477373803 SystemRow.powerplayState = some .exploited ∧
      processMessage (sampleEnv 2) (samplePowerplay (some "Fortified") (some 0)).toJournal
        Db.empty = .ok db₁' ∧
      processMessage (sampleEnv 2) (samplePowerplay (some "Fortified") (some 0)).toJournal
        db = .ok db₂' ∧
      SamePowerplay 10477373803 db₁' db₂' := by
  obtain ⟨db, reachable, observed⟩ := exists_reachable_of_execute workerStep
    (Db.empty : Db asciiPlatform)
    [(sampleEnv 1, (samplePowerplay (some "Exploited") none).toJournal)]
    (fun db => decide (db.columnAt 10477373803 SystemRow.powerplayState = some .exploited) &&
      (processMessage (sampleEnv 2) (samplePowerplay (some "Fortified") (some 0)).toJournal
        (Db.empty : Db asciiPlatform)).toOption.isSome &&
      (processMessage (sampleEnv 2) (samplePowerplay (some "Fortified") (some 0)).toJournal
        db).toOption.isSome) (by decide +kernel)
  obtain ⟨observed, second⟩ := Bool.and_eq_true_iff.mp observed
  obtain ⟨exploited, first⟩ := Bool.and_eq_true_iff.mp observed
  obtain ⟨db₁', processed₁⟩ := Option.isSome_iff_exists.mp first
  obtain ⟨db₂', processed₂⟩ := Option.isSome_iff_exists.mp second
  rw [toOption_eq_some] at processed₁ processed₂
  refine ⟨db, db₁', db₂', of_decide_eq_true exploited, processed₁, processed₂,
    (same_powerplay_iff readsPowers_asciiPlatform .start reachable processed₁ processed₂).mpr ?_⟩
  rw [if_pos (by decide +kernel)]
  exact ⟨fun undefined => absurd undefined (by decide +kernel), (nomatch ·), (nomatch ·),
    (nomatch ·)⟩

/-- A message without a state leaves a new system without one, and an exploited one exploited. -/
theorem samplePowerplay_keeps_earlier_state : ∃ db db₁' db₂' : Db asciiPlatform,
    WorkerReachable (Db.empty (P := asciiPlatform)) ∧ WorkerReachable db ∧
      processMessage (sampleEnv 2) (samplePowerplay none none).toJournal Db.empty = .ok db₁' ∧
      processMessage (sampleEnv 2) (samplePowerplay none none).toJournal db = .ok db₂' ∧
      ¬ SamePowerplay 10477373803 db₁' db₂' := by
  obtain ⟨db, reachable, observed⟩ := exists_reachable_of_execute workerStep
    (Db.empty : Db asciiPlatform)
    [(sampleEnv 1, (samplePowerplay (some "Exploited") none).toJournal)]
    (fun db => (processMessage (sampleEnv 2) (samplePowerplay none none).toJournal
        (Db.empty : Db asciiPlatform)).toOption.any (fun db₁' : Db asciiPlatform =>
          decide (db₁'.columnAt 10477373803 SystemRow.powerplayState = none)) &&
      (processMessage (sampleEnv 2) (samplePowerplay none none).toJournal db).toOption.any
        (fun db₂' : Db asciiPlatform =>
          decide (db₂'.columnAt 10477373803 SystemRow.powerplayState = some .exploited)))
    (by decide +kernel)
  obtain ⟨first, second⟩ := Bool.and_eq_true_iff.mp observed
  obtain ⟨db₁', processed₁, unknown⟩ := (Option.any_eq_true _ _).mp first
  obtain ⟨db₂', processed₂, exploited⟩ := (Option.any_eq_true _ _).mp second
  refine ⟨db, db₁', db₂', .start, reachable, toOption_eq_some.mp processed₁,
    toOption_eq_some.mp processed₂, fun same => ?_⟩
  have states := same.state
  rw [of_decide_eq_true unknown, of_decide_eq_true exploited] at states
  cases states

/-! ## Whether the conflicts are matched like the powers -/

/-- The progress of the last entry that has this name up to case. -/
def lastProgressIgnoringCase (P : Platform K) (message : SystemMessage K) (name : String) :
    Option K :=
  ((message.powerplayConflictProgress.getD []).filter fun conflict =>
    P.toLowerCase conflict.power = P.toLowerCase name).getLast?.map
      PowerplayConflictProgress.conflictProgress

/-- The conflicts that a message describes: one for each of its powers that has an entry. -/
def messagePowerConflicts (P : Platform K) (message : SystemMessage K) : List (String × K) :=
  (messagePowers P message).dedup.filterMap fun name =>
    (lastProgressIgnoringCase P message name).map fun progress => (name, progress)

/-- The conflicts of a system are those of the message, and other systems keep theirs. -/
structure MirrorsPowerConflicts (message : SystemMessage K) (systemId : Uuid)
    (before after : Db P) : Prop where
  conflicts : OneForEach (fun row described => after.IsNamed row.powerId described.1 ∧
      row.conflictProgress = described.2)
    (after.powerplayConflicts.rows.filter fun row => row.systemId = systemId)
    (messagePowerConflicts P message)
  others : (after.powerplayConflicts.rows.filter fun row => row.systemId ≠ systemId) =
    before.powerplayConflicts.rows.filter fun row => row.systemId ≠ systemId

theorem mem_messagePowerConflicts {message : SystemMessage K} {name : String} {progress : K} :
    (name, progress) ∈ messagePowerConflicts P message ↔ name ∈ messagePowers P message ∧
      lastProgressIgnoringCase P message name = some progress := by
  simp only [messagePowerConflicts, List.mem_filterMap, List.mem_dedup, Option.map_eq_some_iff,
    Prod.mk.injEq]
  constructor
  · rintro ⟨_, member, _, last, rfl, rfl⟩
    exact ⟨member, last⟩
  · rintro ⟨member, last⟩
    exact ⟨name, member, progress, last, rfl, rfl⟩

/-- A power has one name. -/
theorem Db.IsNamed.name_eq {powerId : Uuid} {name name' : String} (named : db.IsNamed powerId name)
    (named' : db.IsNamed powerId name') : name = name' := by
  obtain ⟨power, member, rfl, rfl⟩ := named
  obtain ⟨power', member', same, rfl⟩ := named'
  rw [db.powerplayPowers.eq_of_clash (fun _ _ => Or.imp Eq.symm Eq.symm) member member'
    (.inl same.symm)]

/-- A name belongs to one power. -/
theorem Db.IsNamed.id_eq {powerId powerId' : Uuid} {name : String}
    (named : db.IsNamed powerId name) (named' : db.IsNamed powerId' name) : powerId = powerId' := by
  obtain ⟨power, member, rfl, rfl⟩ := named
  obtain ⟨power', member', rfl, same⟩ := named'
  rw [db.powerplayPowers.eq_of_clash (fun _ _ => Or.imp Eq.symm Eq.symm) member member'
    (.inr (congrArg P.citext same.symm))]

theorem described_of_mirrors {message : SystemMessage K} {systemId : Uuid}
    (mirrors : MirrorsPowerConflicts message systemId db db') (name : String) (progress : K) :
    (name, progress) ∈ messagePowerConflicts P message ↔
      db'.HasPowerConflict systemId name progress := by
  obtain ⟨ordered, perm, all⟩ := mirrors.conflicts
  obtain ⟨described, present⟩ := exists_of_forall₂ all
  constructor
  · intro listed
    obtain ⟨row, inOrdered, named, same⟩ := present _ listed
    obtain ⟨member, here⟩ := List.mem_filter.mp (perm.mem_iff.mp inOrdered)
    exact ⟨row, member, of_decide_eq_true here, same, named⟩
  · rintro ⟨row, member, here, rfl, named⟩
    obtain ⟨⟨name', progress'⟩, listed, named', same⟩ := described row
      (perm.mem_iff.mpr (List.mem_filter.mpr ⟨member, decide_eq_true here⟩))
    rw [named.name_eq named', same]
    exact listed

theorem mirrors_of_described {message : SystemMessage K} {systemId : Uuid}
    (settled : PowersSettled message systemId db db')
    (described : ∀ name progress, (name, progress) ∈ messagePowerConflicts P message ↔
      db'.HasPowerConflict systemId name progress) :
    MirrorsPowerConflicts message systemId db db' := by
  refine ⟨oneForEach_of ?_ ?_ ?_ ?_ ?_, settled.others⟩
  · exact (List.Nodup.of_map _ (distinctPowerplayConflicts db')).filter _
  · have distinct : (messagePowerConflicts P message).Pairwise
        fun entry entry' => entry.1 ≠ entry'.1 := by
      refine List.Pairwise.filterMap _ (fun name name' apart entry given entry' given' => ?_)
        (List.nodup_dedup (messagePowers P message))
      obtain ⟨progress, -, rfl⟩ := Option.map_eq_some_iff.mp given
      obtain ⟨progress', -, rfl⟩ := Option.map_eq_some_iff.mp given'
      exact apart
    exact distinct.imp fun apart row named named' => apart (named.1.name_eq named'.1)
  · intro entry listed
    obtain ⟨row, member, here, same, named⟩ := (described entry.1 entry.2).mp listed
    exact ⟨row, List.mem_filter.mpr ⟨member, decide_eq_true here⟩, named, same⟩
  · intro row inFilter
    obtain ⟨member, here⟩ := List.mem_filter.mp inFilter
    obtain ⟨name, named⟩ := settled.listed row member (of_decide_eq_true here)
    exact ⟨(name, row.conflictProgress), (described name row.conflictProgress).mpr
      ⟨row, member, of_decide_eq_true here, rfl, named⟩, named, rfl⟩
  · intro row inFilter row' inFilter' entry _ related related'
    obtain ⟨member, here⟩ := List.mem_filter.mp inFilter
    obtain ⟨member', here'⟩ := List.mem_filter.mp inFilter'
    refine List.inj_on_of_nodup_map (distinctPowerplayConflicts db') member member' ?_
    rw [PowerplayConflictRow.key, PowerplayConflictRow.key, of_decide_eq_true here,
      of_decide_eq_true here', related.1.id_eq related'.1]

/-- The conflicts mirror the message exactly when the spelling of the entries does not matter. -/
theorem mirrorsPowerConflicts_iff {message : SystemMessage K} {systemId : Uuid}
    (settled : PowersSettled message systemId db db') :
    MirrorsPowerConflicts message systemId db db' ↔ ∀ name ∈ messagePowers P message,
      lastProgress message name = lastProgressIgnoringCase P message name := by
  constructor
  · intro mirrors name member
    refine Option.ext fun progress => ?_
    have described := described_of_mirrors mirrors name progress
    rwa [mem_messagePowerConflicts, settled.conflicts, and_iff_right member, and_iff_right member,
      iff_comm] at described
  · intro spelling
    refine mirrors_of_described settled fun name progress => ?_
    rw [mem_messagePowerConflicts, settled.conflicts]
    exact and_congr_right fun member => by rw [spelling name member]

/-- **The conflicts of powers after a message** are those that it describes exactly when the
last entry of each of its powers is spelled canonically; a message that is not kept leaves
what it finds. -/
theorem power_conflicts_mirrored_iff (reads : P.ReadsPowers) (reachable : WorkerReachable db)
    {message : FullSystemMessage K}
    (done : processMessage env message.toJournal db = .ok db') :
    (∀ system, db'.systemAt message.system.systemAddress = some system →
        MirrorsPowerConflicts message.system system.id db db') ↔
      if shouldUpsertSystem P message (buildFullSystemData P message.system) then
        ∀ name ∈ messagePowers P message.system,
          lastProgress message.system name = lastProgressIgnoringCase P message.system name
      else ∀ system, db.systemAt message.system.systemAddress = some system →
        MirrorsPowerConflicts message.system system.id db db := by
  by_cases kept : shouldUpsertSystem P message (buildFullSystemData P message.system) = true
  · obtain ⟨-, system, found, settled⟩ := powersSettled_processMessage reads reachable kept done
    rw [if_pos kept, ← mirrorsPowerConflicts_iff settled]
    constructor
    · exact fun mirrors => mirrors system found
    · intro mirrors other found'
      rwa [Option.some.inj (found'.symm.trans found)]
  · rw [if_neg kept, skipped_of_processMessage kept done]

/-- A jump into a system for which Aisling Duval competes, as the entry spells the name. -/
def samplePowerConflict (power : String) : FullSystemMessage ℚ :=
  .fsdJump { sampleMessage none [] with
    powers := some ["Aisling Duval"]
    powerplayConflictProgress := some [{ power, conflictProgress := 1 / 2 }] }

theorem power_conflicts_mirrored_iff_sample : ∃ db' : Db asciiPlatform,
    processMessage (sampleEnv 1) (samplePowerConflict "Aisling Duval").toJournal Db.empty =
        .ok db' ∧ db'.powerplayConflicts.rows.length = 1 ∧
      ∀ system, db'.systemAt 10477373803 = some system →
        MirrorsPowerConflicts (samplePowerConflict "Aisling Duval").system system.id Db.empty db' := by
  have observed : (processMessage (P := asciiPlatform) (sampleEnv 1)
      (samplePowerConflict "Aisling Duval").toJournal Db.empty).toOption.map
        (fun db' => db'.powerplayConflicts.rows.length) = some 1 := by decide +kernel
  obtain ⟨db', processed, one⟩ := exists_ok_of_toOption_map observed
  refine ⟨db', processed, one,
    (power_conflicts_mirrored_iff readsPowers_asciiPlatform .start processed).mpr ?_⟩
  rw [if_pos (by decide +kernel)]
  decide +kernel

/-- An entry in another case than the canonical one is dropped. -/
theorem samplePowerConflict_drops_entry_in_lower_case : ∃ (db' : Db asciiPlatform)
    (system : SystemRow ℚ), WorkerReachable (Db.empty (P := asciiPlatform)) ∧
      processMessage (sampleEnv 1) (samplePowerConflict "aisling duval").toJournal Db.empty =
        .ok db' ∧ db'.systemAt 10477373803 = some system ∧
      ¬ MirrorsPowerConflicts (samplePowerConflict "aisling duval").system system.id Db.empty db' := by
  have observed : (processMessage (P := asciiPlatform) (sampleEnv 1)
      (samplePowerConflict "aisling duval").toJournal Db.empty).toOption.map
        (fun db' => ((db'.systemAt 10477373803).isSome, db'.powerplayConflicts.rows.isEmpty)) =
          some (true, true) := by decide +kernel
  obtain ⟨db', processed, seen⟩ := exists_ok_of_toOption_map observed
  obtain ⟨system, found⟩ := Option.isSome_iff_exists.mp (congrArg Prod.fst seen)
  refine ⟨db', system, .start, processed, found, fun mirrors => ?_⟩
  have described : ("Aisling Duval", (1 / 2 : ℚ)) ∈ messagePowerConflicts asciiPlatform
      (samplePowerConflict "aisling duval").system := by decide +kernel
  obtain ⟨row, member, -⟩ := (described_of_mirrors mirrors _ _).mp described
  rw [List.isEmpty_iff.mp (congrArg Prod.snd seen)] at member
  cases member

end LastMessage

end EliteHubVault
