import EliteHubVault.Database.Triggers

/-!
# Foreign keys

No statement of the model checks a foreign key. `Db.ForeignKeys` says that every reference
of the schema names a stored row, and `Db.EventsResolve` that the ids in the events of the
outbox do. A step that leaves only old rows and rows whose references are stored keeps both
(`Db.Sound.of_rows`).
-/

set_option autoImplicit false

namespace EliteHubVault

open Library

variable {K : Type}

/-! ## References -/

section References

variable {P : Platform K}

namespace Db

def StoresSystem (db : Db P) (id : Uuid) : Prop := ∃ row ∈ db.systems.rows, row.id = id

def StoresFaction (db : Db P) (id : Uuid) : Prop := ∃ row ∈ db.factions.rows, row.id = id

def StoresStation (db : Db P) (id : Uuid) : Prop := ∃ row ∈ db.stations.rows, row.id = id

def StoresPower (db : Db P) (id : Uuid) : Prop := ∃ row ∈ db.powerplayPowers.rows, row.id = id

/-- Systems, factions and powers are never removed. -/
structure Grows (db db' : Db P) : Prop where
  systems : ∀ id, db.StoresSystem id → db'.StoresSystem id
  factions : ∀ id, db.StoresFaction id → db'.StoresFaction id
  powers : ∀ id, db.StoresPower id → db'.StoresPower id

/-- No row that can be referred to is removed. -/
structure KeepsReferenced (db db' : Db P) : Prop where
  systems : ∀ id, db.StoresSystem id → db'.StoresSystem id := by exact fun _ has => has
  factions : ∀ id, db.StoresFaction id → db'.StoresFaction id := by exact fun _ has => has
  stations : ∀ id, db.StoresStation id → db'.StoresStation id := by exact fun _ has => has
  powers : ∀ id, db.StoresPower id → db'.StoresPower id := by exact fun _ has => has

theorem Grows.refl (db : Db P) : db.Grows db := ⟨fun _ has => has, fun _ has => has, fun _ has => has⟩

theorem Grows.trans {db middle db' : Db P} (first : db.Grows middle) (second : middle.Grows db') :
    db.Grows db' :=
  ⟨fun id has => second.systems id (first.systems id has),
    fun id has => second.factions id (first.factions id has),
    fun id has => second.powers id (first.powers id has)⟩

theorem KeepsReferenced.grows {db db' : Db P} (kept : db.KeepsReferenced db') : db.Grows db' :=
  ⟨kept.systems, kept.factions, kept.powers⟩

end Db

/-- A nullable column refers to rows that are there. -/
def RefersTo (has : Uuid → Prop) (reference : Option Uuid) : Prop :=
  ∀ id, reference = some id → has id

theorem RefersTo.mono {has has' : Uuid → Prop} {reference : Option Uuid}
    (refers : RefersTo has reference) (kept : ∀ id, has id → has' id) : RefersTo has' reference :=
  fun id given => kept id (refers id given)

theorem refersTo_none (has : Uuid → Prop) : RefersTo has none := fun _ given => by cases given

/-- The foreign key of `systems`. -/
def SystemRow.Refers (db : Db P) (row : SystemRow K) : Prop :=
  RefersTo db.StoresFaction row.controllingFactionId

/-- The foreign keys of `systemFactions`. -/
structure SystemFactionRow.Refers (db : Db P) (row : SystemFactionRow) : Prop where
  systemId : db.StoresSystem row.systemId
  factionId : db.StoresFaction row.factionId

/-- The foreign keys of `factionStates`. -/
structure FactionStateRow.Refers (db : Db P) (row : FactionStateRow K) : Prop where
  factionId : db.StoresFaction row.factionId
  systemId : db.StoresSystem row.systemId

/-- The foreign keys of `factionConflicts`. -/
structure FactionConflictRow.Refers (db : Db P) (row : FactionConflictRow K) : Prop where
  systemId : db.StoresSystem row.systemId
  factionId : db.StoresFaction row.factionId
  opponentFactionId : RefersTo db.StoresFaction row.opponentFactionId
  factionStakeStationId : RefersTo db.StoresStation row.factionStakeStationId
  opponentStakeStationId : RefersTo db.StoresStation row.opponentStakeStationId

/-- The foreign keys of `stations`. -/
structure StationRow.Refers (db : Db P) (row : StationRow K) : Prop where
  systemId : db.StoresSystem row.systemId
  controllingFactionId : db.StoresFaction row.controllingFactionId

/-- The foreign keys of `systemPowerplayPowers`. -/
structure SystemPowerplayPowerRow.Refers (db : Db P) (row : SystemPowerplayPowerRow) : Prop where
  systemId : db.StoresSystem row.systemId
  powerId : db.StoresPower row.powerId

/-- The foreign keys of `powerplayConflicts`. -/
structure PowerplayConflictRow.Refers (db : Db P) (row : PowerplayConflictRow K) : Prop where
  systemId : db.StoresSystem row.systemId
  powerId : db.StoresPower row.powerId

/-- The foreign keys of `systemFactionControlThreats`, but for the key of the row. -/
structure ControlThreatRow.Refers (db : Db P) (row : ControlThreatRow K) : Prop where
  factionId : RefersTo db.StoresFaction row.factionId
  challengerFactionId : RefersTo db.StoresFaction row.challengerFactionId

/-- **Every foreign key of the schema names a stored row.** -/
structure Db.ForeignKeys (db : Db P) : Prop where
  systems : ∀ row ∈ db.systems.rows, row.Refers db
  systemFactions : ∀ row ∈ db.systemFactions.rows, row.Refers db
  factionStates : ∀ row ∈ db.factionStates.rows, row.Refers db
  factionConflicts : ∀ row ∈ db.factionConflicts.rows, row.Refers db
  stations : ∀ row ∈ db.stations.rows, row.Refers db
  systemPowerplayPowers : ∀ row ∈ db.systemPowerplayPowers.rows, row.Refers db
  powerplayConflicts : ∀ row ∈ db.powerplayConflicts.rows, row.Refers db
  systemFactionControlThreats : ∀ systemId row,
    db.systemFactionControlThreats.get systemId = some row → db.StoresSystem systemId ∧ row.Refers db

variable {db db' : Db P}

section Mono

variable (kept : db.Grows db')

include kept

theorem SystemRow.Refers.mono {row : SystemRow K} (refers : row.Refers db) : row.Refers db' :=
  RefersTo.mono refers kept.factions

theorem SystemFactionRow.Refers.mono {row : SystemFactionRow} (refers : row.Refers db) :
    row.Refers db' :=
  ⟨kept.systems _ refers.systemId, kept.factions _ refers.factionId⟩

theorem FactionStateRow.Refers.mono {row : FactionStateRow K} (refers : row.Refers db) :
    row.Refers db' :=
  ⟨kept.factions _ refers.factionId, kept.systems _ refers.systemId⟩

theorem StationRow.Refers.mono {row : StationRow K} (refers : row.Refers db) : row.Refers db' :=
  ⟨kept.systems _ refers.systemId, kept.factions _ refers.controllingFactionId⟩

theorem SystemPowerplayPowerRow.Refers.mono {row : SystemPowerplayPowerRow}
    (refers : row.Refers db) : row.Refers db' :=
  ⟨kept.systems _ refers.systemId, kept.powers _ refers.powerId⟩

theorem PowerplayConflictRow.Refers.mono {row : PowerplayConflictRow K}
    (refers : row.Refers db) : row.Refers db' :=
  ⟨kept.systems _ refers.systemId, kept.powers _ refers.powerId⟩

theorem ControlThreatRow.Refers.mono {row : ControlThreatRow K} (refers : row.Refers db) :
    row.Refers db' :=
  ⟨refers.factionId.mono kept.factions, refers.challengerFactionId.mono kept.factions⟩

end Mono

theorem FactionConflictRow.Refers.mono (kept : db.KeepsReferenced db')
    {row : FactionConflictRow K} (refers : row.Refers db) : row.Refers db' :=
  ⟨kept.systems _ refers.systemId, kept.factions _ refers.factionId,
    refers.opponentFactionId.mono kept.factions, refers.factionStakeStationId.mono kept.stations,
    refers.opponentStakeStationId.mono kept.stations⟩

/-- Every row that is left was there before, or its references are stored. -/
structure RowsRefer (db db' : Db P) : Prop where
  systems : ∀ row ∈ db'.systems.rows, row ∈ db.systems.rows ∨ row.Refers db' := by
    exact fun _ member => .inl member
  systemFactions : ∀ row ∈ db'.systemFactions.rows,
    row ∈ db.systemFactions.rows ∨ row.Refers db' := by exact fun _ member => .inl member
  factionStates : ∀ row ∈ db'.factionStates.rows,
    row ∈ db.factionStates.rows ∨ row.Refers db' := by exact fun _ member => .inl member
  factionConflicts : ∀ row ∈ db'.factionConflicts.rows,
    row ∈ db.factionConflicts.rows ∨ row.Refers db' := by exact fun _ member => .inl member
  stations : ∀ row ∈ db'.stations.rows, row ∈ db.stations.rows ∨ row.Refers db' := by
    exact fun _ member => .inl member
  systemPowerplayPowers : ∀ row ∈ db'.systemPowerplayPowers.rows,
    row ∈ db.systemPowerplayPowers.rows ∨ row.Refers db' := by exact fun _ member => .inl member
  powerplayConflicts : ∀ row ∈ db'.powerplayConflicts.rows,
    row ∈ db.powerplayConflicts.rows ∨ row.Refers db' := by exact fun _ member => .inl member
  threats : ∀ systemId row, db'.systemFactionControlThreats.get systemId = some row →
    db.systemFactionControlThreats.get systemId = some row ∨
      db'.StoresSystem systemId ∧ row.Refers db' := by exact fun _ _ found => .inl found

theorem Db.ForeignKeys.of_rows (keys : db.ForeignKeys) (kept : db.KeepsReferenced db')
    (rows : RowsRefer db db') : db'.ForeignKeys where
  systems row member := (rows.systems row member).elim
    (fun old => (keys.systems row old).mono kept.grows) id
  systemFactions row member := (rows.systemFactions row member).elim
    (fun old => (keys.systemFactions row old).mono kept.grows) id
  factionStates row member := (rows.factionStates row member).elim
    (fun old => (keys.factionStates row old).mono kept.grows) id
  factionConflicts row member := (rows.factionConflicts row member).elim
    (fun old => (keys.factionConflicts row old).mono kept) id
  stations row member := (rows.stations row member).elim
    (fun old => (keys.stations row old).mono kept.grows) id
  systemPowerplayPowers row member := (rows.systemPowerplayPowers row member).elim
    (fun old => (keys.systemPowerplayPowers row old).mono kept.grows) id
  powerplayConflicts row member := (rows.powerplayConflicts row member).elim
    (fun old => (keys.powerplayConflicts row old).mono kept.grows) id
  systemFactionControlThreats systemId row found := (rows.threats systemId row found).elim
    (fun old => (keys.systemFactionControlThreats systemId row old).imp (kept.systems _)
      (ControlThreatRow.Refers.mono kept.grows)) id

theorem Db.foreignKeys_empty : (Db.empty : Db P).ForeignKeys where
  systems _ member := by cases member
  systemFactions _ member := by cases member
  factionStates _ member := by cases member
  factionConflicts _ member := by cases member
  stations _ member := by cases member
  systemPowerplayPowers _ member := by cases member
  powerplayConflicts _ member := by cases member
  systemFactionControlThreats _ _ found := by cases found

/-! ## Events -/

/-- The properties of a payload that hold the id of a faction. -/
def factionProperties : List String := ["factionId", "opponentFactionId", "challengerFactionId"]

/-- A property that is absent, null or the id of a stored faction. -/
def NamesFaction (db : Db P) (property : Option (Json K)) : Prop :=
  ∀ value, property = some value →
    value = .null ∨ ∃ factionId, db.StoresFaction factionId ∧ value = .ofUuid factionId

/-- The payload names a stored system, and no faction that is not stored. -/
structure OutboxInsert.Resolves (db : Db P) (event : OutboxInsert K) : Prop where
  system : ∃ systemId, db.StoresSystem systemId ∧ event.aggregateId = some systemId ∧
    event.payload.field? "systemId" = some (.ofUuid systemId)
  factions : ∀ name ∈ factionProperties, NamesFaction db (event.payload.field? name)

/-- **Every id in an event of the outbox names a stored row.** -/
def Db.EventsResolve (db : Db P) : Prop := ∀ row ∈ db.eventOutbox, row.toOutboxInsert.Resolves db

theorem namesFaction_none : NamesFaction db (none : Option (Json K)) := fun _ given => by cases given

theorem namesFaction_ofNullable {reference : Option Uuid} (refers : RefersTo db.StoresFaction reference) :
    NamesFaction db (some (Json.ofNullable (K := K) .ofUuid reference)) := by
  intro value given
  obtain rfl := Option.some.inj given
  cases reference with
  | none => exact .inl rfl
  | some id => exact .inr ⟨id, refers id rfl, rfl⟩

theorem namesFaction_ofUuid {factionId : Uuid} (stored : db.StoresFaction factionId) :
    NamesFaction db (some (Json.ofUuid (K := K) factionId)) :=
  fun _ given => .inr ⟨factionId, stored, (Option.some.inj given).symm⟩

theorem OutboxInsert.Resolves.mono (kept : db.Grows db') {event : OutboxInsert K}
    (resolves : event.Resolves db) : event.Resolves db' := by
  obtain ⟨systemId, stored, aggregate, named⟩ := resolves.system
  refine ⟨⟨systemId, kept.systems _ stored, aggregate, named⟩, fun name listed value given => ?_⟩
  exact (resolves.factions name listed value given).imp_right
    fun ⟨factionId, known, same⟩ => ⟨factionId, kept.factions _ known, same⟩

/-- All foreign keys hold and all events resolve. -/
structure Db.Sound (db : Db P) : Prop where
  keys : db.ForeignKeys
  events : db.EventsResolve

theorem Db.sound_empty : (Db.empty : Db P).Sound :=
  ⟨Db.foreignKeys_empty, fun _ member => by cases member⟩

/-- A step that inserts no event. -/
theorem Db.Sound.of_rows (sound : db.Sound) (kept : db.KeepsReferenced db')
    (rows : RowsRefer db db') (outbox : db'.eventOutbox = db.eventOutbox) : db'.Sound :=
  ⟨sound.keys.of_rows kept rows, fun row member =>
    (sound.events row (outbox ▸ member)).mono kept.grows⟩

theorem Db.grows_enqueue (now : Timestamp) (inserts : List (OutboxInsert K)) (db : Db P) :
    db.Grows (db.enqueue now inserts) :=
  ⟨fun _ has => has, fun _ has => has, fun _ has => has⟩

theorem Db.Sound.enqueue (sound : db.Sound) (now : Timestamp) {inserts : List (OutboxInsert K)}
    (resolve : ∀ insert ∈ inserts, insert.Resolves db) : (db.enqueue now inserts).Sound := by
  refine ⟨sound.keys.of_rows {} {}, fun row member => ?_⟩
  rcases List.mem_append.mp member with old | new
  · exact (sound.events row old).mono (Db.grows_enqueue now inserts db)
  · obtain ⟨insert, listed, rfl⟩ := List.mem_map.mp new
    exact (resolve insert listed).mono (Db.grows_enqueue now inserts db)

end References

end EliteHubVault
