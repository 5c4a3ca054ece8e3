import EliteHubVault.Worker.Mirror

/-!
# The identity of a station

A station is told apart by its market id and by its name within its system. An incoming
station is merged onto the row that has its name in its system, and otherwise onto the row
that has its market id. `upsertRegularStation` clears the other row away first, so no
statement breaks a constraint (`upsertRegularStation_stores`). `upsertStrongholdCarrier`
looks for the row by all the columns of a carrier, and fails when the name of the carrier is
taken by a row that is no carrier (`carrier_stored_iff`).
-/

set_option autoImplicit false
set_option linter.unusedSectionVars false

namespace EliteHubVault

open Library

variable {K : Type}

/-! ## Rows that stand in the way -/

section Statements

variable [Field K] [LinearOrder K] {P : Platform K} {env : TxEnv} {db db' : Db P}

theorem StationRow.clash_symm (row row' : StationRow K) (clash : row.Clash P row') :
    row'.Clash P row := by
  obtain sameId | ⟨present, market⟩ | ⟨system, name⟩ := clash
  · exact .inl sameId.symm
  · exact .inr (.inl ⟨market ▸ present, market.symm⟩)
  · exact .inr (.inr ⟨system.symm, name.symm⟩)

/-- The row has the market id or the place of an incoming station. -/
def StationRow.Meets (P : Platform K) (data : StationInsert K) (row : StationRow K) : Prop :=
  row.marketId = some data.marketId ∨
    row.systemId = data.systemId ∧ P.citext row.name = P.citext data.name

/-- The station stands in the table under the incoming identity, alone, and all other rows are
as they were. -/
structure Stored (P : Platform K) (data : StationInsert K) (station : StationRow K)
    (before after : List (StationRow K)) : Prop where
  member : station ∈ after
  name : station.name = data.name
  systemId : station.systemId = data.systemId
  marketId : station.marketId = some data.marketId
  only : ∀ row ∈ after, row.Meets P data → row = station
  others : (after.filter fun row => row.id ≠ station.id) =
    before.filter fun row => row.id ≠ station.id

/-! ## Single statements -/

/-- An update that keeps the core of every conflict breaks no constraint. -/
theorem exists_writeFactionConflicts (now : Timestamp) (where_ : FactionConflictRow K → Bool)
    (set : FactionConflictRow K → FactionConflictRow K)
    (coreKept : ∀ row, (set row).core = row.core) (db : Db P) :
    ∃ db', db.writeFactionConflicts now (updateRows where_ set db.factionConflicts.rows) =
      some db' := by
  have apart : (updateRows where_ set db.factionConflicts.rows).1.Pairwise
      fun row row' => ¬ row.Clash row' := by
    refine List.pairwise_map.mpr (db.factionConflicts.unique.imp fun {row row'} distinct => ?_)
    have same : ∀ row : FactionConflictRow K,
        (if where_ row = true then set row else row).core = row.core := fun row => by
      split
      · exact coreKept row
      · rfl
    obtain ⟨id, key, -⟩ := FactionConflictRow.core_eq_iff.mp (same row)
    obtain ⟨id', key', -⟩ := FactionConflictRow.core_eq_iff.mp (same row')
    have opponent := congrArg (·.2.2) key
    simp only [FactionConflictRow.key] at opponent
    rw [FactionConflictRow.Clash, id, id', key, key', opponent]
    exact distinct
  rw [Db.writeFactionConflicts, Table.write_of_pairwise apart]
  exact ⟨_, rfl⟩

theorem stations_deleteStations {now : Timestamp} {where_ : StationRow K → Bool}
    (done : db.deleteStations now where_ = some db') :
    db'.stations.rows = db.stations.rows.filter fun row => !where_ row := by
  obtain ⟨middle, first, second⟩ := Option.bind_eq_some_iff.mp done
  rw [(Db.of_writeFactionConflicts second).2, (Db.of_writeFactionConflicts first).2]
  rfl

/-- A deletion of stations breaks no constraint. -/
theorem exists_deleteStations (now : Timestamp) (where_ : StationRow K → Bool) (db : Db P) :
    ∃ db', db.deleteStations now where_ = some db' := by
  obtain ⟨middle, first⟩ := exists_writeFactionConflicts now
    (fun row => row.factionStakeStationId.any fun id =>
      id ∈ (db.stations.rows.filter where_).map fun row => row.id)
    (fun row => { row with factionStakeStationId := none }) (fun _ => rfl)
    { db with stations := (db.stations.delete where_).1 }
  obtain ⟨after, second⟩ := exists_writeFactionConflicts now
    (fun row => row.opponentStakeStationId.any fun id =>
      id ∈ (db.stations.rows.filter where_).map fun row => row.id)
    (fun row => { row with opponentStakeStationId := none }) (fun _ => rfl) middle
  exact ⟨after, Option.bind_eq_some_iff.mpr ⟨middle, first, second⟩⟩

theorem exists_deleteStationById (now : Timestamp) (stationId : Uuid) (db : Db P) :
    ∃ db', db.deleteStationById now stationId = .ok db' ∧ OnlyStations db db' ∧
      db'.stations.rows = db.stations.rows.filter fun row => row.id ≠ stationId := by
  obtain ⟨after, done⟩ := exists_deleteStations now (fun row => row.id = stationId) db
  refine ⟨after, orFail_eq_ok.mpr done, onlyStations_deleteStations done, ?_⟩
  rw [stations_deleteStations done]
  exact List.filter_congr fun row _ => (decide_not ..).symm

/-- An update stores the station when no other row has its identity. -/
theorem updateStationById_stores {data : StationInsert K} {survivor : StationRow K}
    (updatedAt : Timestamp) (member : survivor ∈ db.stations.rows)
    (free : ∀ row ∈ db.stations.rows, row.Meets P data → row.id = survivor.id) :
    ∃ db', db.updateStationById survivor.id data updatedAt = .ok db' ∧ OnlyStations db db' ∧
      Stored P data (data.set updatedAt survivor) db.stations.rows db'.stations.rows := by
  have apart : (updateRows (fun row => row.id = survivor.id) (data.set updatedAt)
      db.stations.rows).1.Pairwise fun row row' => ¬ row.Clash P row' := by
    refine Table.pairwise_updateRows StationRow.clash_symm db.stations.unique
      (fun row _ row' _ here here' _ => ?_) fun row _ row' member' here away clash => ?_
    · exact .inl ((of_decide_eq_true here).trans (of_decide_eq_true here').symm)
    · refine of_decide_eq_false away ?_
      obtain sameId | ⟨-, market⟩ | ⟨system, name⟩ := clash
      · exact sameId.symm.trans (of_decide_eq_true here)
      · exact free row' member' (.inl market.symm)
      · exact free row' member' (.inr ⟨system.symm, name.symm⟩)
  refine ⟨{ db with stations := ⟨_, apart⟩ }, ?_, .stations _ db, ?_, rfl, rfl, rfl, ?_, ?_⟩
  · rw [Db.updateStationById, Table.write_of_pairwise apart]
    rfl
  · exact List.mem_map.mpr ⟨survivor, member, if_pos (decide_eq_true rfl)⟩
  · intro row inRows meets
    obtain ⟨before, inBefore, rfl⟩ := List.mem_map.mp inRows
    by_cases here : before.id = survivor.id
    · have same : before = survivor :=
        db.stations.eq_of_clash StationRow.clash_symm inBefore member (.inl here)
      simp [same]
    · simp only [here, decide_false, Bool.false_eq_true, if_false] at meets
      exact absurd (free before inBefore meets) here
  · have kept : ∀ row : StationRow K, (if decide (row.id = survivor.id) = true then
        data.set updatedAt row else row).id = row.id := fun row => by
      split <;> rfl
    simp only [updateRows, List.filter_map, Function.comp_def, kept]
    refine (List.map_congr_left fun row inFilter => ?_).trans (List.map_id _)
    have away : row.id ≠ survivor.id := of_decide_eq_true (List.mem_filter.mp inFilter).2
    rw [if_neg (by simpa using away), id]

/-- The same for a station that takes the services of the row it is merged onto. -/
theorem updateStationById_onto_stores {data : StationInsert K} {survivor : StationRow K}
    (updatedAt : Timestamp) (member : survivor ∈ db.stations.rows)
    (free : ∀ row ∈ db.stations.rows, row.Meets P data → row.id = survivor.id) :
    ∃ db', db.updateStationById survivor.id (data.onto P survivor) updatedAt = .ok db' ∧
      OnlyStations db db' ∧ Stored P data ((data.onto P survivor).set updatedAt survivor)
        db.stations.rows db'.stations.rows := by
  have freeOnto : ∀ row ∈ db.stations.rows, row.Meets P (data.onto P survivor) →
      row.id = survivor.id := free
  obtain ⟨db', done, only, stored⟩ := updateStationById_stores updatedAt member freeOnto
  exact ⟨db', done, only, stored.member, stored.name, stored.systemId, stored.marketId,
    stored.only, stored.others⟩

/-- An insertion stores the station when no row has its identity. -/
theorem insertStation_stores {data : StationInsert K}
    (fresh : env.randomUuid .upsertStation 0 ∉ db.stations.rows.map StationRow.id)
    (free : ∀ row ∈ db.stations.rows, ¬ row.Meets P data) :
    ∃ db', db.insertStation env data = .ok db' ∧ OnlyStations db db' ∧
      Stored P data (data.row env) db.stations.rows db'.stations.rows := by
  have away : ∀ row ∈ db.stations.rows, row.id ≠ env.randomUuid .upsertStation 0 :=
    fun row member same => fresh (List.mem_map.mpr ⟨row, member, same⟩)
  have apart : (insertRows [data.row env] db.stations.rows).1.Pairwise
      fun row row' => ¬ row.Clash P row' := by
    refine Table.pairwise_insertRows db.stations.unique fun row member clash => ?_
    obtain sameId | ⟨-, market⟩ | place := clash
    · exact away row member sameId
    · exact free row member (.inl market)
    · exact free row member (.inr place)
  refine ⟨{ db with stations := ⟨_, apart⟩ }, ?_, .stations _ db, ?_, rfl, rfl, rfl, ?_, ?_⟩
  · rw [Db.insertStation, Table.write_of_pairwise apart]
    rfl
  · exact List.mem_append_right _ (List.mem_singleton_self _)
  · intro row inRows meets
    obtain old | new := List.mem_append.mp inRows
    · exact absurd meets (free row old)
    · exact List.mem_singleton.mp new
  · have own : (data.row env).id = env.randomUuid .upsertStation 0 := rfl
    simp [insertRows, List.filter_append, own]

/-! ## Regular stations -/

/-- The row that a regular station is merged onto. -/
def Db.mergedOnto (data : StationInsert K) (db : Db P) : Option (StationRow K) :=
  (db.findStationBySystemAndName data.systemId data.name).or
    (db.findStationByMarketId data.marketId)

/-- The row that the upsert of a regular station leaves. -/
def StationInsert.merged (P : Platform K) (data : StationInsert K) (env : TxEnv)
    (updatedAt : Timestamp) : Option (StationRow K) → StationRow K
  | none => data.row env
  | some found => (data.onto P found).set updatedAt found

/-- What the upsert of a regular station leaves: the station stands alone under the incoming
identity, the row that had the market id besides is gone, and all other rows are as they
were. -/
structure MergesIdentity (P : Platform K) (data : StationInsert K) (station : StationRow K)
    (before after : List (StationRow K)) : Prop where
  member : station ∈ after
  name : station.name = data.name
  systemId : station.systemId = data.systemId
  marketId : station.marketId = some data.marketId
  only : ∀ row ∈ after, row.Meets P data → row = station
  others : (after.filter fun row => row.id ≠ station.id) =
    before.filter fun row => row.id ≠ station.id ∧ row.marketId ≠ some data.marketId
  displaced : ∀ row ∈ before, row.id ≠ station.id → row.marketId = some data.marketId →
    (∃ holder ∈ before, holder.id = station.id ∧ holder.systemId = data.systemId ∧
      P.citext holder.name = P.citext data.name) ∧
    ∀ row' ∈ before, row'.marketId = some data.marketId → row' = row

/-- Two stations with one market id are one. -/
theorem eq_of_marketId {row row' : StationRow K} {marketId : K} (member : row ∈ db.stations.rows)
    (member' : row' ∈ db.stations.rows) (market : row.marketId = some marketId)
    (market' : row'.marketId = some marketId) : row = row' :=
  db.stations.eq_of_clash StationRow.clash_symm member member'
    (.inr (.inl ⟨market ▸ rfl, market.trans market'.symm⟩))

/-- Two stations of one name in one system are one. -/
theorem eq_of_place {row row' : StationRow K} {data : StationInsert K}
    (member : row ∈ db.stations.rows) (member' : row' ∈ db.stations.rows)
    (place : row.systemId = data.systemId ∧ P.citext row.name = P.citext data.name)
    (place' : row'.systemId = data.systemId ∧ P.citext row'.name = P.citext data.name) :
    row = row' :=
  db.stations.eq_of_clash StationRow.clash_symm member member'
    (.inr (.inr ⟨place.1.trans place'.1.symm, place.2.trans place'.2.symm⟩))

theorem of_findStationByMarketId {marketId : K} {found : StationRow K}
    (byMarket : db.findStationByMarketId marketId = some found) :
    found ∈ db.stations.rows ∧ found.marketId = some marketId :=
  ⟨List.mem_of_find?_eq_some byMarket, by simpa using List.find?_some byMarket⟩

theorem of_findStationBySystemAndName {systemId : Uuid} {name : String} {found : StationRow K}
    (byName : db.findStationBySystemAndName systemId name = some found) :
    found ∈ db.stations.rows ∧ found.systemId = systemId ∧ P.citext found.name = P.citext name :=
  ⟨List.mem_of_find?_eq_some byName, by simpa using List.find?_some byName⟩

/-- A station stored where no other row has its market id merges its identity. -/
theorem Stored.merges {data : StationInsert K} {station : StationRow K}
    {before after : List (StationRow K)} (stored : Stored P data station before after)
    (free : ∀ row ∈ before, row.marketId = some data.marketId → row.id = station.id) :
    MergesIdentity P data station before after := by
  refine { stored with
    others := stored.others.trans (List.filter_congr fun row member => ?_)
    displaced := fun row member away market => absurd (free row member market) away }
  refine decide_eq_decide.mpr ⟨fun away => ⟨away, fun market => ?_⟩, And.left⟩
  exact away (free row member market)

/-- Deleting the row that has the market id before the row that has the name is updated. -/
theorem displacing_stores {data : StationInsert K} {holder found : StationRow K}
    (updatedAt : Timestamp) (member : holder ∈ db.stations.rows)
    (market : holder.marketId = some data.marketId) (member' : found ∈ db.stations.rows)
    (place : found.systemId = data.systemId ∧ P.citext found.name = P.citext data.name)
    (apart : holder.id ≠ found.id) :
    ∃ db', (do
        let db ← db.deleteStationById env.now holder.id
        db.updateStationById found.id (data.onto P found) updatedAt) = .ok db' ∧
      OnlyStations db db' ∧ MergesIdentity P data ((data.onto P found).set updatedAt found)
        db.stations.rows db'.stations.rows := by
  obtain ⟨middle, deleted, frame, rows⟩ := exists_deleteStationById env.now holder.id db
  have inMiddle : ∀ row, row ∈ middle.stations.rows ↔
      row ∈ db.stations.rows ∧ row.id ≠ holder.id := fun row => by
    rw [rows, List.mem_filter, decide_eq_true_iff]
  have free : ∀ row ∈ middle.stations.rows, row.Meets P data → row.id = found.id := by
    intro row inRows meets
    obtain ⟨before, away⟩ := (inMiddle row).mp inRows
    obtain market' | place' := meets
    · exact absurd (congrArg StationRow.id (eq_of_marketId before member market' market)) away
    · exact congrArg StationRow.id (eq_of_place before member' place' place)
  obtain ⟨db', done, only, stored⟩ := updateStationById_onto_stores updatedAt
    ((inMiddle found).mpr ⟨member', Ne.symm apart⟩) free
  refine ⟨db', bind_eq_ok.mpr ⟨middle, deleted, done⟩, frame.trans only, stored.member,
    stored.name, stored.systemId, stored.marketId, stored.only, ?_, fun row inRows away market' => ?_⟩
  · refine stored.others.trans ?_
    rw [rows, List.filter_filter]
    refine List.filter_congr fun row inRows => ?_
    have holds : row.id = holder.id ↔ row.marketId = some data.marketId := by
      constructor
      · intro same
        rw [db.stations.eq_of_clash StationRow.clash_symm inRows member (.inl same)]
        exact market
      · exact fun market' => congrArg StationRow.id (eq_of_marketId inRows member market' market)
    simp [holds]
  · exact ⟨⟨found, member', rfl, place⟩, fun row' inRows' market'' =>
      eq_of_marketId inRows' inRows market'' market'⟩

/-- **The upsert of a regular station breaks no constraint and merges the identities.** The
drawn id is only needed when neither identity is known. -/
theorem upsertRegularStation_stores {data : StationInsert K} (updatedAt : Timestamp)
    (fresh : db.mergedOnto data = none →
      env.randomUuid .upsertStation 0 ∉ db.stations.rows.map StationRow.id) :
    ∃ db', upsertRegularStation env data updatedAt db = .ok db' ∧ OnlyStations db db' ∧
      MergesIdentity P data (data.merged P env updatedAt (db.mergedOnto data))
        db.stations.rows db'.stations.rows := by
  unfold Db.mergedOnto at fresh ⊢
  unfold upsertRegularStation
  cases byMarket : db.findStationByMarketId data.marketId with
  | none =>
      have noMarket : ∀ row ∈ db.stations.rows, row.marketId ≠ some data.marketId :=
        fun row member => by simpa using List.find?_eq_none.mp byMarket row member
      cases byName : db.findStationBySystemAndName data.systemId data.name with
      | none =>
          have noName : ∀ row ∈ db.stations.rows,
              ¬ (row.systemId = data.systemId ∧ P.citext row.name = P.citext data.name) :=
            fun row member => by simpa using List.find?_eq_none.mp byName row member
          obtain ⟨db', done, only, stored⟩ := insertStation_stores
            (fresh (by rw [byMarket, byName]; rfl))
            fun row member meets => meets.elim (noMarket row member) (noName row member)
          exact ⟨db', done, only,
            stored.merges fun row member market => absurd market (noMarket row member)⟩
      | some found =>
          obtain ⟨member, place⟩ := of_findStationBySystemAndName byName
          obtain ⟨db', done, only, stored⟩ := updateStationById_onto_stores updatedAt member
            fun row inRows meets => meets.elim (fun market => absurd market (noMarket row inRows))
              fun place' => congrArg StationRow.id (eq_of_place inRows member place' place)
          exact ⟨db', done, only,
            stored.merges fun row member market => absurd market (noMarket row member)⟩
  | some holder =>
      obtain ⟨member, market⟩ := of_findStationByMarketId byMarket
      cases byName : db.findStationBySystemAndName data.systemId data.name with
      | none =>
          have noName : ∀ row ∈ db.stations.rows,
              ¬ (row.systemId = data.systemId ∧ P.citext row.name = P.citext data.name) :=
            fun row member => by simpa using List.find?_eq_none.mp byName row member
          have free : ∀ row ∈ db.stations.rows, row.marketId = some data.marketId →
              row.id = holder.id := fun row inRows market' =>
            congrArg StationRow.id (eq_of_marketId inRows member market' market)
          obtain ⟨db', done, only, stored⟩ := updateStationById_onto_stores updatedAt member
            fun row inRows meets => meets.elim (free row inRows)
              fun place => absurd place (noName row inRows)
          exact ⟨db', done, only, stored.merges free⟩
      | some found =>
          obtain ⟨member', place⟩ := of_findStationBySystemAndName byName
          by_cases same : holder.id = found.id
          · obtain rfl : holder = found :=
              db.stations.eq_of_clash StationRow.clash_symm member member' (.inl same)
            have free : ∀ row ∈ db.stations.rows, row.marketId = some data.marketId →
                row.id = holder.id := fun row inRows market' =>
              congrArg StationRow.id (eq_of_marketId inRows member market' market)
            obtain ⟨db', done, only, stored⟩ := updateStationById_onto_stores updatedAt member
              fun row inRows meets => meets.elim (free row inRows)
                fun place' => congrArg StationRow.id (eq_of_place inRows member' place' place)
            refine ⟨db', ?_, only, stored.merges free⟩
            simp only [ne_eq, not_true_eq_false, if_false, done]
          · simp only [ne_eq, same, not_false_eq_true, if_true]
            exact displacing_stores updatedAt member market member' place same

/-- **A regular station is merged without breaking a constraint**, whatever the table, when the
drawn id is new. -/
theorem regular_station_merges_identities {data : StationInsert K} (updatedAt : Timestamp)
    (fresh : env.randomUuid .upsertStation 0 ∉ db.stations.rows.map StationRow.id) :
    ∃ db', upsertRegularStation env data updatedAt db = .ok db' ∧
      (db'.stations.rows.Pairwise fun row row' => ¬ row.Clash P row') ∧
      ∃ station, MergesIdentity P data station db.stations.rows db'.stations.rows := by
  obtain ⟨db', done, -, merges⟩ := upsertRegularStation_stores updatedAt fun _ => fresh
  exact ⟨db', done, db'.stations.unique, _, merges⟩

/-- A station in the shape of a stronghold carrier. -/
def sampleStation (systemId : Uuid) (name : String) (marketId : ℚ) : StationInsert ℚ where
  name := name
  marketId := marketId
  stationType := some (some .planetaryOutpost)
  systemId := systemId
  controllingFactionId := .ofNat 0
  distanceFromStar := 500
  allegiance := none
  government := none
  economy := some (some .highTech)
  economies := none
  services := none
  servicesV2 := none
  landingPadsSmall := some 4
  landingPadsMedium := some 4
  landingPadsLarge := some 2

/-- The station X of one system takes the market id of the station Y of another. -/
theorem regular_station_merges_identities_sample : ∃ db db' : Db asciiPlatform,
    WorkerReachable db ∧ db.stations.rows.length = 2 ∧
      upsertRegularStation (sampleEnv 3) (sampleStation (.ofNat 1000) "X" 2) 3 db = .ok db' ∧
      ∃ station, MergesIdentity asciiPlatform (sampleStation (.ofNat 1000) "X" 2) station
        db.stations.rows db'.stations.rows := by
  obtain ⟨db, run, observed⟩ := exists_reachable_of_execute workerStep
    (Db.empty : Db asciiPlatform)
    [(sampleEnv 1, .docked (sampleDocked 1 "X" 1)), (sampleEnv 2, .docked (sampleDocked 2 "Y" 2))]
    (fun db => db.stations.rows.length = 2 ∧
      (sampleEnv 3).randomUuid .upsertStation 0 ∉ db.stations.rows.map StationRow.id)
    (by decide +kernel)
  obtain ⟨two, fresh⟩ := of_decide_eq_true observed
  obtain ⟨db', done, -, merges⟩ := regular_station_merges_identities 3 fresh
  exact ⟨db, db', run, two, done, merges⟩

/-! ## Stronghold carriers -/

theorem StationRow.place_of_carrier {systemId : Uuid} {row : StationRow K}
    (carrier : strongholdCarrierPredicate P systemId row = true) : row.systemId = systemId ∧
      P.citext row.name = P.citext strongholdCarrierName := by
  obtain ⟨system, name, -⟩ := of_decide_eq_true carrier
  exact ⟨system, name⟩

/-- A system has at most one stronghold carrier. -/
theorem findStrongholdCarriersInSystem_eq (systemId : Uuid) (db : Db P) :
    (db.findStrongholdCarriersInSystem systemId = [] ∧
        ∀ row ∈ db.stations.rows, ¬ strongholdCarrierPredicate P systemId row = true) ∨
      ∃ survivor ∈ db.stations.rows, strongholdCarrierPredicate P systemId survivor = true ∧
        db.findStrongholdCarriersInSystem systemId = [survivor] := by
  unfold Db.findStrongholdCarriersInSystem
  cases carriers : db.stations.rows.filter (strongholdCarrierPredicate P systemId) with
  | nil =>
      exact .inl ⟨rfl, fun row member carrier => by
        have listed := List.mem_filter.mpr ⟨member, carrier⟩
        rw [carriers] at listed
        cases listed⟩
  | cons survivor others =>
      have listed : ∀ row ∈ survivor :: others,
          row ∈ db.stations.rows ∧ strongholdCarrierPredicate P systemId row = true :=
        fun row member => List.mem_filter.mp (carriers ▸ member)
      obtain ⟨member, carrier⟩ := listed survivor List.mem_cons_self
      cases others with
      | nil => exact .inr ⟨survivor, member, carrier, rfl⟩
      | cons other rest =>
          have distinct := db.stations.unique.filter (strongholdCarrierPredicate P systemId)
          rw [carriers] at distinct
          have apart := (List.pairwise_cons.mp distinct).1 other List.mem_cons_self
          obtain ⟨system, name⟩ := StationRow.place_of_carrier carrier
          obtain ⟨system', name'⟩ := StationRow.place_of_carrier
            (listed other (List.mem_cons_of_mem _ List.mem_cons_self)).2
          exact absurd (.inr (.inr ⟨system.trans system'.symm, name.trans name'.symm⟩)) apart

/-- The one row of the carrier's name in its system has the incoming market id. -/
structure OneCarrier (data : StationInsert K) (db : Db P) (station : StationRow K) : Prop where
  member : station ∈ db.stations.rows
  systemId : station.systemId = data.systemId
  name : station.name = strongholdCarrierName
  marketId : station.marketId = some data.marketId
  only : ∀ row ∈ db.stations.rows, row.systemId = data.systemId →
    P.citext row.name = P.citext strongholdCarrierName → row = station

/-- Deleting the row whose market id was reused, unless it survives. -/
theorem exists_deleteReusedMarketId (env : TxEnv) (marketId : K)
    (survivor : Option (StationRow K)) (db : Db P) :
    ∃ db', deleteReusedMarketId env (db.findStationByMarketId marketId) survivor db = .ok db' ∧
      OnlyStations db db' ∧ ∀ row, row ∈ db'.stations.rows ↔ row ∈ db.stations.rows ∧
        (row.marketId = some marketId → some row.id = survivor.map StationRow.id) := by
  unfold deleteReusedMarketId
  cases byMarket : db.findStationByMarketId marketId with
  | none =>
      have noMarket : ∀ row ∈ db.stations.rows, row.marketId ≠ some marketId :=
        fun row member => by simpa using List.find?_eq_none.mp byMarket row member
      exact ⟨db, rfl, .refl db, fun row => (and_iff_left_of_imp fun member market =>
        absurd market (noMarket row member)).symm⟩
  | some holder =>
      obtain ⟨member, market⟩ := of_findStationByMarketId byMarket
      have onlyHolder : ∀ row ∈ db.stations.rows, row.marketId = some marketId → row = holder :=
        fun row inRows market' => eq_of_marketId inRows member market' market
      by_cases survives : some holder.id = survivor.map StationRow.id
      · refine ⟨db, if_neg (not_not_intro survives), .refl db, fun row => ?_⟩
        refine (and_iff_left_of_imp fun inRows market' => ?_).symm
        rwa [onlyHolder row inRows market']
      · obtain ⟨db', deleted, frame, rows⟩ := exists_deleteStationById env.now holder.id db
        refine ⟨db', (if_pos survives).trans deleted, frame, fun row => ?_⟩
        rw [rows, List.mem_filter, decide_eq_true_iff]
        refine and_congr_right fun inRows => ⟨fun away market' => ?_, fun kept same => ?_⟩
        · exact absurd (congrArg StationRow.id (onlyHolder row inRows market')) away
        · have sameRow := db.stations.eq_of_clash StationRow.clash_symm inRows member (.inl same)
          rw [sameRow] at kept
          exact survives (kept market)

/-- Storing a carrier where it is the only row of its identity. -/
theorem Stored.oneCarrier {data : StationInsert K} {station : StationRow K}
    {before : List (StationRow K)} (name : data.name = strongholdCarrierName)
    (stored : Stored P data station before db.stations.rows) : OneCarrier data db station :=
  ⟨stored.member, stored.systemId, stored.name.trans name, stored.marketId,
    fun row member system sameName =>
      stored.only row member (.inr ⟨system, sameName.trans (congrArg P.citext name.symm)⟩)⟩

/-- **A carrier is stored exactly when its name is free for it**: the rows of that name in its
system are carriers, or have the market id. -/
theorem carrier_stored_iff {data : StationInsert K} (updatedAt : Timestamp)
    (fresh : env.randomUuid .upsertStation 0 ∉ db.stations.rows.map StationRow.id)
    (carrier : isStrongholdCarrier data = true)
    (stronghold : db.isSystemCurrentlyStronghold data.systemId = true) :
    (∃ db' station, upsertStrongholdCarrier env data updatedAt db = .ok db' ∧
        OneCarrier data db' station) ↔
      ∀ row ∈ db.stations.rows, row.systemId = data.systemId →
        P.citext row.name = P.citext strongholdCarrierName →
        strongholdCarrierPredicate P data.systemId row = true ∨ row.marketId = some data.marketId := by
  have name : data.name = strongholdCarrierName := (of_decide_eq_true carrier).1
  unfold upsertStrongholdCarrier
  rw [if_pos stronghold]
  obtain ⟨none, noCarrier⟩ | ⟨survivor, member, isCarrier, one⟩ :=
    findStrongholdCarriersInSystem_eq data.systemId db
  · obtain ⟨middle, deleted, frame, rows⟩ :=
      exists_deleteReusedMarketId env data.marketId Option.none db
    simp only [none, List.tail_nil, List.foldlM_nil, List.head?_nil, pure_bind, deleted]
    constructor
    · rintro ⟨db', station, done, -⟩ row member system sameName
      obtain ⟨_, same, inserted⟩ := bind_eq_ok.mp done
      cases same
      simp only [Db.insertStation, bind_eq_ok, orFail_eq_ok, pure_eq_ok] at inserted
      obtain ⟨⟨table, changes⟩, write, -⟩ := inserted
      have left : middle.stations.rows ++ [data.row env] = table.rows :=
        congrArg Prod.fst (Table.write_eq_some write)
      have distinct := table.unique
      rw [← left] at distinct
      refine .inr (by_contra fun away => ?_)
      exact (List.pairwise_append.mp distinct).2.2 row
        ((rows row).mpr ⟨member, fun market => absurd market away⟩) _ (List.mem_singleton_self _)
        (.inr (.inr ⟨system, sameName.trans (congrArg P.citext name.symm)⟩))
    · intro free
      have freshId : env.randomUuid .upsertStation 0 ∉ middle.stations.rows.map StationRow.id := by
        intro drawn
        obtain ⟨row, inMiddle, same⟩ := List.mem_map.mp drawn
        exact fresh (List.mem_map.mpr ⟨row, ((rows row).mp inMiddle).1, same⟩)
      have away : ∀ row ∈ middle.stations.rows, ¬ row.Meets P data := by
        intro row inMiddle meets
        obtain ⟨member, gone⟩ := (rows row).mp inMiddle
        obtain market | ⟨system, sameName⟩ := meets
        · cases gone market
        · obtain isCarrier | market := free row member system (sameName.trans (congrArg P.citext name))
          · exact noCarrier row member isCarrier
          · cases gone market
      obtain ⟨db', done, -, stored⟩ := insertStation_stores freshId away
      exact ⟨db', _, done, stored.oneCarrier name⟩
  · obtain ⟨system, carrierName⟩ := StationRow.place_of_carrier isCarrier
    obtain ⟨middle, deleted, frame, rows⟩ :=
      exists_deleteReusedMarketId env data.marketId (some survivor) db
    simp only [one, List.tail_cons, List.foldlM_nil, List.head?_cons, pure_bind, deleted]
    have free : ∀ row ∈ db.stations.rows, row.systemId = data.systemId →
        P.citext row.name = P.citext strongholdCarrierName → row = survivor :=
      fun row inRows system' sameName => db.stations.eq_of_clash StationRow.clash_symm inRows member
        (.inr (.inr ⟨system'.trans system.symm, sameName.trans carrierName.symm⟩))
    refine ⟨fun _ row inRows system' sameName => .inl (free row inRows system' sameName ▸ isCarrier),
      fun _ => ?_⟩
    have alone : ∀ row ∈ middle.stations.rows, row.Meets P data → row.id = survivor.id := by
      intro row inMiddle meets
      obtain ⟨inRows, kept⟩ := (rows row).mp inMiddle
      obtain market | ⟨system', sameName⟩ := meets
      · exact Option.some.inj (kept market)
      · exact congrArg StationRow.id
          (free row inRows system' (sameName.trans (congrArg P.citext name)))
    obtain ⟨db', done, -, stored⟩ := updateStationById_onto_stores updatedAt
      ((rows survivor).mpr ⟨member, fun _ => rfl⟩) alone
    exact ⟨db', _, done, stored.oneCarrier name⟩

/-- A jump into a stronghold. -/
def sampleStronghold : SystemMessage ℚ :=
  { sampleMessage none [] with powerplayState := some "Stronghold" }

/-- The player is docked at a station in the shape of a stronghold carrier. -/
def sampleDockedCarrier (systemAddress : ℚ) (stationName : String) (marketId : ℚ) :
    DockedMessage ℚ :=
  { sampleDocked systemAddress stationName marketId with
    stationType := "SurfaceStation"
    stationEconomy := "$economy_HighTech;" }

/-- The player is located at the carrier of a stronghold; the message has no landing pads. -/
def sampleLocatedCarrier (marketId : ℚ) : LocationMessage ℚ :=
  { sampleStronghold with
    docked := true
    distFromStarLS := some 500
    marketId := some marketId
    stationName := some strongholdCarrierName
    stationType := some "SurfaceStation"
    stationFaction := some "C"
    stationGovernment := some "$government_Democracy;"
    stationAllegiance := none
    stationEconomy := some "$economy_HighTech;"
    stationEconomies := none
    stationServices := none }

/-- A carrier gets a new market id. -/
theorem carrier_stored_iff_sample : ∃ (db db' : Db asciiPlatform) (station : StationRow ℚ),
    WorkerReachable db ∧ db.stations.rows.length = 1 ∧
      upsertStrongholdCarrier (sampleEnv 3) (sampleStation (.ofNat 1000) strongholdCarrierName 2) 3
        db = .ok db' ∧
      OneCarrier (sampleStation (.ofNat 1000) strongholdCarrierName 2) db' station := by
  obtain ⟨db, run, observed⟩ := exists_reachable_of_execute workerStep
    (Db.empty : Db asciiPlatform)
    [(sampleEnv 1, .fsdJump sampleStronghold),
      (sampleEnv 2, .docked (sampleDockedCarrier 10477373803 strongholdCarrierName 1))]
    (fun db => db.stations.rows.length = 1 ∧
      (sampleEnv 3).randomUuid .upsertStation 0 ∉ db.stations.rows.map StationRow.id ∧
      db.isSystemCurrentlyStronghold (.ofNat 1000) = true ∧
      ∀ row ∈ db.stations.rows,
        strongholdCarrierPredicate asciiPlatform (.ofNat 1000) row = true) (by decide +kernel)
  obtain ⟨one, fresh, stronghold, carriers⟩ := of_decide_eq_true observed
  have isCarrier : isStrongholdCarrier (sampleStation (.ofNat 1000) strongholdCarrierName 2) =
      true := by decide +kernel
  obtain ⟨db', station, done, carrier⟩ := (carrier_stored_iff 3 fresh isCarrier stronghold).mpr
    fun row member _ _ => .inl (carriers row member)
  exact ⟨db, db', station, run, one, done, carrier⟩

/-- A `Location` message stores the carrier without landing pads. A carrier with another market
id cannot be stored any more. -/
theorem sampleLocatedCarrier_wedges_carrier : ∃ db : Db asciiPlatform, WorkerReachable db ∧
    db.isSystemCurrentlyStronghold (.ofNat 1000) = true ∧
    isStrongholdCarrier (sampleStation (.ofNat 1000) strongholdCarrierName 2) = true ∧
    (sampleEnv 3).randomUuid .upsertStation 0 ∉ db.stations.rows.map StationRow.id ∧
    ¬ ∃ db' station, upsertStrongholdCarrier (sampleEnv 3)
      (sampleStation (.ofNat 1000) strongholdCarrierName 2) 3 db = .ok db' ∧
      OneCarrier (sampleStation (.ofNat 1000) strongholdCarrierName 2) db' station := by
  obtain ⟨db, run, observed⟩ := exists_reachable_of_execute workerStep
    (Db.empty : Db asciiPlatform) [(sampleEnv 1, .location (sampleLocatedCarrier 1))]
    (fun db => db.isSystemCurrentlyStronghold (.ofNat 1000) = true ∧
      (sampleEnv 3).randomUuid .upsertStation 0 ∉ db.stations.rows.map StationRow.id ∧
      (upsertStrongholdCarrier (sampleEnv 3)
        (sampleStation (.ofNat 1000) strongholdCarrierName 2) 3 db).toOption.isNone = true)
    (by decide +kernel)
  obtain ⟨stronghold, fresh, fails⟩ := of_decide_eq_true observed
  refine ⟨db, run, stronghold, by decide +kernel, fresh, ?_⟩
  rintro ⟨db', station, done, -⟩
  rw [done] at fails
  cases fails

end Statements

end EliteHubVault
