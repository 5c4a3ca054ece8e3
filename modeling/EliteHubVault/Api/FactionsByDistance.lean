import EliteHubVault.Database.Schema
import EliteHubVault.Platform.Ascii
import EliteHubVault.Library.Nearest

/-!
# Factions by distance

The query ranks the systems by their distance from a reference system, keeps the nearest
5000, joins them to their factions, and keeps the nearest row of each faction. The limit
drops systems that are no nearer than any it keeps. So a faction with a system among those
kept has its least distance there, and a faction without one is no nearer than any faction
that is returned: the result continues to a ranking of all factions
(`factionsByDistance_exact`).

`distance` stands for the operator `<->` on cubes.
-/

set_option autoImplicit false

namespace EliteHubVault

open Library

variable {K : Type} {P : Platform K} {D : Type} [LinearOrder D]

/-! ## The query -/

/-- The generated column `position`. -/
def SystemRow.position (row : SystemRow K) : K × K × K := (row.x, row.y, row.z)

def rankedSystemLimit : ℕ := 5000

structure RankedSystem (D : Type) where
  id : Uuid
  distance : D

/-- A row of `factions_by_distance`. -/
structure RankedFaction (D : Type) where
  faction : FactionRow
  distance : D
  nearbySystemId : Uuid

/-- `ORDER BY __distance, id`. -/
abbrev RankedSystem.key : RankedSystem D → D ×ₗ Fin (2 ^ 128) :=
  groupThen RankedSystem.distance fun system => system.id.bits

/-- `ORDER BY faction.id, __distance, id`. -/
abbrev RankedFaction.key : RankedFaction D → Fin (2 ^ 128) ×ₗ D ×ₗ Fin (2 ^ 128) :=
  groupThen (fun row => row.faction.id.bits)
    (groupThen RankedFaction.distance fun row => row.nearbySystemId.bits)

namespace Db

/-- The systems by `(__distance, id)`, without a limit; none when there is no such reference. -/
def systemsByDistance (distance : K × K × K → K × K × K → D) (referenceSystemId : Uuid)
    (db : Db P) : List (RankedSystem D) :=
  match db.systems.rows.find? fun system => system.id = referenceSystemId with
  | none => []
  | some reference =>
      orderBy RankedSystem.key
        (db.systems.rows.map fun nearby => ⟨nearby.id, distance nearby.position reference.position⟩)

def joinFactions (db : Db P) (ranked : List (RankedSystem D)) : List (RankedFaction D) :=
  ranked.flatMap fun system =>
    (db.systemFactions.rows.filter fun row => row.systemId = system.id).flatMap fun row =>
      (db.factions.rows.filter fun faction => faction.id = row.factionId).map fun faction =>
        ⟨faction, system.distance, system.id⟩

/-- One row per faction, by `(__distance, id)` of its systems. -/
def nearestOfFactions (db : Db P) (ranked : List (RankedSystem D)) : List (RankedFaction D) :=
  distinctOn (fun row => row.faction.id.bits)
    (orderBy RankedFaction.key (db.joinFactions ranked))

/-- The rows that the query selects, before they are ordered by `__distance`. -/
def rankedFactions (distance : K × K × K → K × K × K → D) (referenceSystemId : Uuid)
    (db : Db P) : List (RankedFaction D) :=
  db.nearestOfFactions ((db.systemsByDistance distance referenceSystemId).take rankedSystemLimit)

/-- The rows in an order that the query may return them in. -/
def FactionsByDistance (distance : K × K × K → K × K × K → D) (referenceSystemId : Uuid)
    (db : Db P) (result : List (RankedFaction D)) : Prop :=
  OrderedBy RankedFaction.distance (db.rankedFactions distance referenceSystemId) result

/-! ## What a ranking of factions is -/

/-- The faction is present in the system. -/
def Present (db : Db P) (faction : FactionRow) (system : SystemRow K) : Prop :=
  ∃ row ∈ db.systemFactions.rows, row.systemId = system.id ∧ row.factionId = faction.id

/-- The distances of all systems of a faction. -/
def distancesOf (distance : K × K × K → K × K × K → D) (reference : SystemRow K) (db : Db P)
    (faction : FactionRow) : Set D :=
  {value | ∃ system ∈ db.systems.rows, db.Present faction system ∧
    distance system.position reference.position = value}

/-- All factions that have a system, once each, by the least distance of their systems. -/
structure RanksFactions (distance : K × K × K → K × K × K → D) (reference : SystemRow K)
    (db : Db P) (ranking : List (RankedFaction D)) : Prop where
  once : (ranking.map fun row => row.faction.id).Nodup
  least : ∀ row ∈ ranking, row.faction ∈ db.factions.rows ∧
    IsLeast (db.distancesOf distance reference row.faction) row.distance
  complete : ∀ faction ∈ db.factions.rows, (db.distancesOf distance reference faction).Nonempty →
    ∃ row ∈ ranking, row.faction.id = faction.id
  sorted : ranking.Pairwise fun row row' => row.distance ≤ row'.distance

/-! ## The rows of the query -/

variable {db : Db P} {ranked : List (RankedSystem D)} {distance : K × K × K → K × K × K → D}

/-- The row joins the system to one of its factions. -/
structure Joins (db : Db P) (system : RankedSystem D) (row : RankedFaction D) : Prop where
  member : row.faction ∈ db.factions.rows
  link : ∃ link ∈ db.systemFactions.rows, link.systemId = system.id ∧
    link.factionId = row.faction.id
  distance : row.distance = system.distance
  nearbySystemId : row.nearbySystemId = system.id

omit [LinearOrder D] in
theorem mem_joinFactions {row : RankedFaction D} :
    row ∈ db.joinFactions ranked ↔ ∃ system ∈ ranked, db.Joins system row := by
  simp only [joinFactions, List.mem_flatMap, List.mem_map, List.mem_filter, decide_eq_true_eq]
  constructor
  · rintro ⟨system, inRanked, link, ⟨inLinks, here⟩, faction, ⟨member, same⟩, rfl⟩
    exact ⟨system, inRanked, member, ⟨link, inLinks, here, same.symm⟩, rfl, rfl⟩
  · rintro ⟨system, inRanked, member, ⟨link, inLinks, here, same⟩, near, nearby⟩
    refine ⟨system, inRanked, link, ⟨inLinks, here⟩, row.faction, ⟨member, same.symm⟩, ?_⟩
    rw [← near, ← nearby]

theorem mem_of_mem_nearestOfFactions {row : RankedFaction D}
    (member : row ∈ db.nearestOfFactions ranked) : row ∈ db.joinFactions ranked :=
  mem_orderBy.mp (mem_of_mem_distinctOn member)

/-- Each faction has one row. -/
theorem nodup_nearestOfFactions (db : Db P) (ranked : List (RankedSystem D)) :
    ((db.nearestOfFactions ranked).map fun row => row.faction.id).Nodup := by
  have bits := nodup_distinctOn
    (orderedBy_orderBy RankedFaction.key (db.joinFactions ranked)).sorted
  refine List.Nodup.of_map Uuid.bits ?_
  rw [List.map_map]
  exact bits

/-- Each faction that is joined has a row as near as any it joins. -/
theorem exists_mem_nearestOfFactions {row : RankedFaction D}
    (member : row ∈ db.joinFactions ranked) : ∃ first ∈ db.nearestOfFactions ranked,
      first.faction.id = row.faction.id ∧ first.distance ≤ row.distance := by
  obtain ⟨first, kept, same, nearer⟩ := exists_mem_distinctOn
    (orderedBy_orderBy RankedFaction.key (db.joinFactions ranked)).sorted (mem_orderBy.mpr member)
  exact ⟨first, kept, congrArg Uuid.mk same,
    (groupThen_le_iff.mp nearer).elim le_of_lt fun tie => tie.1.le⟩

theorem le_of_mem_nearestOfFactions {row joined : RankedFaction D}
    (member : row ∈ db.nearestOfFactions ranked) (inJoin : joined ∈ db.joinFactions ranked)
    (same : row.faction.id = joined.faction.id) : row.distance ≤ joined.distance := by
  obtain ⟨first, kept, same', nearer⟩ := exists_mem_nearestOfFactions inJoin
  have one : first = row := List.inj_on_of_nodup_map (nodup_nearestOfFactions db ranked) kept member
    (same'.trans same.symm)
  exact one ▸ nearer

/-! ## The limit -/

section Limit

variable {count : ℕ} (sorted : ranked.Pairwise fun system system' =>
  system.distance ≤ system'.distance)

include sorted

/-- **The nearest row of a faction within a limit is its nearest row.** -/
theorem le_of_limited {row joined : RankedFaction D}
    (member : row ∈ db.nearestOfFactions (ranked.take count))
    (inJoin : joined ∈ db.joinFactions ranked) (same : row.faction.id = joined.faction.id) :
    row.distance ≤ joined.distance := by
  obtain ⟨system', inRanked, joins'⟩ := mem_joinFactions.mp inJoin
  by_cases kept : system' ∈ ranked.take count
  · exact le_of_mem_nearestOfFactions member (mem_joinFactions.mpr ⟨system', kept, joins'⟩) same
  · obtain ⟨system, near, joins⟩ := mem_joinFactions.mp (mem_of_mem_nearestOfFactions member)
    rw [joins.distance, joins'.distance]
    exact le_of_not_mem_limit sorted near inRanked kept

/-- **A faction without a row within the limit is no nearer than those that have one.** -/
theorem le_of_unreturned {row joined : RankedFaction D}
    (member : row ∈ db.nearestOfFactions (ranked.take count))
    (inJoin : joined ∈ db.joinFactions ranked)
    (unreturned : ∀ first ∈ db.nearestOfFactions (ranked.take count),
      first.faction.id ≠ joined.faction.id) : row.distance ≤ joined.distance := by
  obtain ⟨system', inRanked, joins'⟩ := mem_joinFactions.mp inJoin
  obtain ⟨system, near, joins⟩ := mem_joinFactions.mp (mem_of_mem_nearestOfFactions member)
  rw [joins.distance, joins'.distance]
  refine le_of_not_mem_limit sorted near inRanked fun kept => ?_
  obtain ⟨first, returned, same, -⟩ :=
    exists_mem_nearestOfFactions (mem_joinFactions.mpr ⟨system', kept, joins'⟩)
  exact unreturned first returned same

end Limit

/-! ## The systems of the reference -/

section Reference

variable {reference : SystemRow K}

theorem systemsByDistance_eq (exists_ : reference ∈ db.systems.rows) :
    db.systemsByDistance distance reference.id =
      orderBy RankedSystem.key (db.systems.rows.map fun nearby =>
        ⟨nearby.id, distance nearby.position reference.position⟩) := by
  have symmetric : ∀ row row' : SystemRow K, row.Clash row' → row'.Clash row :=
    fun _ _ clash => clash.imp Eq.symm Eq.symm
  have found : db.systems.rows.find? (fun system => system.id = reference.id) = some reference := by
    cases first : db.systems.rows.find? fun system => system.id = reference.id with
    | none =>
        have away := List.find?_eq_none.mp first reference exists_
        simp at away
    | some system =>
        have same : system.id = reference.id := by simpa using List.find?_some first
        rw [db.systems.eq_of_clash symmetric (List.mem_of_find?_eq_some first) exists_
          (.inl same)]
  rw [systemsByDistance, found]

theorem sorted_systemsByDistance (exists_ : reference ∈ db.systems.rows) :
    (db.systemsByDistance distance reference.id).Pairwise fun system system' =>
      system.distance ≤ system'.distance := by
  rw [systemsByDistance_eq exists_]
  exact (orderedBy_orderBy RankedSystem.key _).sorted.imp fun before =>
    (groupThen_le_iff.mp before).elim le_of_lt fun tie => tie.1.le

/-- The rows of all systems carry the distances of the factions. -/
theorem mem_distancesOf_iff (exists_ : reference ∈ db.systems.rows) {faction : FactionRow}
    (member : faction ∈ db.factions.rows) {value : D} :
    value ∈ db.distancesOf distance reference faction ↔
      ∃ row ∈ db.joinFactions (db.systemsByDistance distance reference.id),
        row.faction = faction ∧ row.distance = value := by
  simp only [mem_joinFactions, systemsByDistance_eq exists_, mem_orderBy, List.mem_map]
  constructor
  · rintro ⟨system, inSystems, ⟨link, inLinks, here, same⟩, rfl⟩
    exact ⟨⟨faction, _, system.id⟩, ⟨_, ⟨system, inSystems, rfl⟩, member,
      ⟨link, inLinks, here, same⟩, rfl, rfl⟩, rfl, rfl⟩
  · rintro ⟨row, ⟨_, ⟨system, inSystems, rfl⟩, joins⟩, rfl, rfl⟩
    exact ⟨system, inSystems, joins.link, joins.distance.symm⟩

/-! ## The result -/

/-- The rows without a limit are a ranking of all factions. -/
theorem ranksFactions_unlimited (exists_ : reference ∈ db.systems.rows)
    {ranking : List (RankedFaction D)}
    (ordered : OrderedBy RankedFaction.distance
      (db.nearestOfFactions (db.systemsByDistance distance reference.id)) ranking) :
    db.RanksFactions distance reference ranking where
  once := (ordered.perm.map _).nodup_iff.mpr (nodup_nearestOfFactions db _)
  least := by
    intro row member
    have nearest := ordered.perm.mem_iff.mp member
    have inJoin := mem_of_mem_nearestOfFactions nearest
    obtain ⟨_, _, joins⟩ := mem_joinFactions.mp inJoin
    refine ⟨joins.member, (mem_distancesOf_iff exists_ joins.member).mpr ⟨row, inJoin, rfl, rfl⟩,
      fun value measured => ?_⟩
    obtain ⟨joined, inJoin', same, rfl⟩ := (mem_distancesOf_iff exists_ joins.member).mp measured
    exact le_of_mem_nearestOfFactions nearest inJoin' (congrArg FactionRow.id same).symm
  complete := by
    rintro faction member ⟨value, measured⟩
    obtain ⟨joined, inJoin, rfl, -⟩ := (mem_distancesOf_iff exists_ member).mp measured
    obtain ⟨first, nearest, same, -⟩ := exists_mem_nearestOfFactions inJoin
    exact ⟨first, ordered.perm.mem_iff.mpr nearest, same⟩
  sorted := ordered.sorted

variable {result : List (RankedFaction D)}

/-- Each faction is returned with the least distance of all its systems. -/
theorem least_of_factionsByDistance (exists_ : reference ∈ db.systems.rows)
    (returned : db.FactionsByDistance distance reference.id result) {row : RankedFaction D}
    (member : row ∈ result) : row.faction ∈ db.factions.rows ∧
      IsLeast (db.distancesOf distance reference row.faction) row.distance := by
  have nearest := returned.perm.mem_iff.mp member
  obtain ⟨system, near, joins⟩ := mem_joinFactions.mp (mem_of_mem_nearestOfFactions nearest)
  have inJoin : row ∈ db.joinFactions (db.systemsByDistance distance reference.id) :=
    mem_joinFactions.mpr ⟨system, List.mem_of_mem_take near, joins⟩
  refine ⟨joins.member, (mem_distancesOf_iff exists_ joins.member).mpr ⟨row, inJoin, rfl, rfl⟩,
    fun value measured => ?_⟩
  obtain ⟨joined, inJoin', same, rfl⟩ := (mem_distancesOf_iff exists_ joins.member).mp measured
  exact le_of_limited (sorted_systemsByDistance exists_) nearest inJoin'
    (congrArg FactionRow.id same).symm

/-- A faction that is not returned is no nearer than any that is. -/
theorem le_of_not_returned (exists_ : reference ∈ db.systems.rows)
    (returned : db.FactionsByDistance distance reference.id result) {row : RankedFaction D}
    (member : row ∈ result) {faction : FactionRow} (known : faction ∈ db.factions.rows)
    (absent : faction.id ∉ result.map fun row => row.faction.id) {value : D}
    (measured : value ∈ db.distancesOf distance reference faction) : row.distance ≤ value := by
  obtain ⟨joined, inJoin, rfl, rfl⟩ := (mem_distancesOf_iff exists_ known).mp measured
  refine le_of_unreturned (sorted_systemsByDistance exists_) (returned.perm.mem_iff.mp member)
    inJoin fun first nearest same => absent ?_
  exact List.mem_map.mpr ⟨first, returned.perm.mem_iff.mpr nearest, same⟩

/-- Every faction of a system within the limit is returned. -/
theorem mem_of_ranked (returned : db.FactionsByDistance distance reference.id result)
    {faction : FactionRow} (known : faction ∈ db.factions.rows) {system : RankedSystem D}
    (ranked : system ∈ (db.systemsByDistance distance reference.id).take rankedSystemLimit)
    (link : ∃ link ∈ db.systemFactions.rows, link.systemId = system.id ∧
      link.factionId = faction.id) : faction.id ∈ result.map fun row => row.faction.id := by
  have joins : db.Joins system ⟨faction, system.distance, system.id⟩ := ⟨known, link, rfl, rfl⟩
  obtain ⟨first, nearest, same, -⟩ :=
    exists_mem_nearestOfFactions (mem_joinFactions.mpr ⟨system, ranked, joins⟩)
  exact List.mem_map.mpr ⟨first, returned.perm.mem_iff.mpr nearest, same⟩

/-- The factions that are not returned continue the result to a ranking of all. -/
theorem exists_ranksFactions_append (exists_ : reference ∈ db.systems.rows)
    (returned : db.FactionsByDistance distance reference.id result) :
    ∃ rest, db.RanksFactions distance reference (result ++ rest) := by
  have all := ranksFactions_unlimited exists_ (orderedBy_orderBy RankedFaction.distance
    (db.nearestOfFactions (db.systemsByDistance distance reference.id)))
  revert all
  generalize orderBy RankedFaction.distance
    (db.nearestOfFactions (db.systemsByDistance distance reference.id)) = ranking
  intro all
  have once : (result.map fun row => row.faction.id).Nodup :=
    (returned.perm.map _).nodup_iff.mpr (nodup_nearestOfFactions db _)
  let later : RankedFaction D → Bool := fun row =>
    row.faction.id ∉ result.map fun row => row.faction.id
  have left : ∀ row ∈ ranking.filter later, row ∈ ranking ∧
      row.faction.id ∉ result.map fun row => row.faction.id := fun row member => by
    simpa [later] using List.mem_filter.mp member
  have kept : (ranking.filter later).Sublist ranking := List.filter_sublist
  refine ⟨ranking.filter later, ?_, fun row member => ?_, fun faction known nonempty => ?_, ?_⟩
  · rw [List.map_append]
    refine once.append (all.once.sublist (kept.map _)) fun id here there => ?_
    obtain ⟨row, member, rfl⟩ := List.mem_map.mp there
    exact (left row member).2 here
  · obtain member | member := List.mem_append.mp member
    · exact least_of_factionsByDistance exists_ returned member
    · exact all.least row (left row member).1
  · obtain ⟨row, member, same⟩ := all.complete faction known nonempty
    by_cases here : row.faction.id ∈ result.map fun row => row.faction.id
    · obtain ⟨row', member', same'⟩ := List.mem_map.mp here
      exact ⟨row', List.mem_append_left _ member', same'.trans same⟩
    · exact ⟨row, List.mem_append_right _ (List.mem_filter.mpr ⟨member, decide_eq_true here⟩), same⟩
  · refine List.pairwise_append.mpr ⟨returned.sorted, all.sorted.sublist kept, ?_⟩
    intro row member row' member'
    obtain ⟨ranked, absent⟩ := left row' member'
    obtain ⟨known, least⟩ := all.least row' ranked
    exact le_of_not_returned exists_ returned member known absent least.1

/-- **The limit to the nearest systems does not distort the result.** Each faction is returned
at most once, with the least distance of all its systems; every faction of a system within the
limit is returned; a faction that is not returned is no nearer than any that is; and the result
continues to a ranking of all factions. -/
theorem factionsByDistance_exact (exists_ : reference ∈ db.systems.rows)
    (returned : db.FactionsByDistance distance reference.id result) :
    (result.map fun row => row.faction.id).Nodup ∧
      (∀ row ∈ result, row.faction ∈ db.factions.rows ∧
        IsLeast (db.distancesOf distance reference row.faction) row.distance) ∧
      (∀ faction ∈ db.factions.rows,
        ∀ system ∈ (db.systemsByDistance distance reference.id).take rankedSystemLimit,
          (∃ link ∈ db.systemFactions.rows, link.systemId = system.id ∧
            link.factionId = faction.id) → faction.id ∈ result.map fun row => row.faction.id) ∧
      (∀ faction ∈ db.factions.rows, (faction.id ∉ result.map fun row => row.faction.id) →
        ∀ row ∈ result, ∀ value ∈ db.distancesOf distance reference faction,
          row.distance ≤ value) ∧
      ∃ rest, db.RanksFactions distance reference (result ++ rest) := by
  refine ⟨(returned.perm.map _).nodup_iff.mpr (nodup_nearestOfFactions db _),
    fun row member => least_of_factionsByDistance exists_ returned member,
    fun faction known system ranked link => mem_of_ranked returned known ranked link,
    fun faction known absent row member value measured => ?_,
    exists_ranksFactions_append exists_ returned⟩
  exact le_of_not_returned exists_ returned member known absent measured

end Reference

end Db

/-- A system on a line. -/
def samplePlace (number : ℕ) : SystemRow ℚ where
  id := .ofNat number
  name := "Sol"
  systemAddress := number
  x := number
  y := 0
  z := 0
  population := 0
  government := none
  allegiance := none
  economy := none
  secondEconomy := none
  security := none
  controllingFactionId := none
  powerplayState := none
  powerplayStateControlProgress := none
  powerplayStateReinforcement := none
  powerplayStateUndermining := none
  createdAt := 0
  updatedAt := 0

/-- Three systems on a line, with a faction in the second and the third. -/
def sampleGalaxy : Db asciiPlatform :=
  { Db.empty with
    systems := ⟨[samplePlace 7, samplePlace 3, samplePlace 1], by decide +kernel⟩
    factions := ⟨[⟨.ofNat 9, "A", .democracy, .independent, 0, 0⟩], List.pairwise_singleton _ _⟩
    systemFactions :=
      ⟨[⟨.ofNat 7, .ofNat 9, 0, 0⟩, ⟨.ofNat 3, .ofNat 9, 0, 0⟩], by decide +kernel⟩ }

/-- The faction is returned with the distance of the nearer of its systems. -/
theorem factionsByDistance_exact_sample :
    ∃ result : List (RankedFaction ℚ), (result.map fun row => row.distance) = [2] ∧
      ∃ rest, sampleGalaxy.RanksFactions (fun here there => |here.1 - there.1|) (samplePlace 1)
        (result ++ rest) := by
  have known : samplePlace 1 ∈ sampleGalaxy.systems.rows := List.mem_of_getLast? rfl
  have returned := orderedBy_orderBy RankedFaction.distance (sampleGalaxy.rankedFactions
    (fun here there : ℚ × ℚ × ℚ => |here.1 - there.1|) (samplePlace 1).id)
  exact ⟨_, by decide +kernel, (Db.factionsByDistance_exact known returned).2.2.2.2⟩

end EliteHubVault
