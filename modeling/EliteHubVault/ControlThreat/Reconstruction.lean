import EliteHubVault.Library.Alternation
import EliteHubVault.ControlThreat.Recomputation

/-!
# What a subscriber of one faction learns about threats

A subscriber that follows a faction sees the statuses of the threat events that name it.
They reconstruct the truth when they alternate, starting with `entered`, and end in
`entered` exactly while the faction controls a threatened system.

A refresh compares only the flag of the system. When control passes from one faction to
another and the system is threatened under both, neither is told: the first keeps its last
`entered`, the second never gets one. This threatened handover is the only way in which
the events go wrong.
-/

set_option autoImplicit false

namespace EliteHubVault

open Library

variable {K : Type}

/-! ## The statuses that name a faction -/

/-- The status of a threat event that names this faction. -/
def OutboxInsert.threatStatus? (factionId : Uuid) (event : OutboxInsert K) : Option String :=
  if (event.payload.field? "factionId").bind Json.asString? = some factionId.toText then
    (event.payload.field? "status").bind Json.asString?
  else none

theorem threatStatus?_controlThreatEvent [Field K] (systemId faction : Uuid)
    (factionId : Option Uuid) (status : String) (challenger : Option Uuid) (gap : Option K) :
    (controlThreatEvent systemId factionId status challenger gap).threatStatus? faction =
      if factionId = some faction then some status else none := by
  cases factionId <;>
    simp [OutboxInsert.threatStatus?, controlThreatEvent, Json.field?, Json.ofUuid, Json.ofNullable,
      Json.asString?, List.lookup, Uuid.toText_injective.eq_iff]

/-- The row reports that this faction controls the system and is threatened. -/
def ControlThreatRow.Reports (row : Option (ControlThreatRow K)) (factionId : Uuid) : Prop :=
  ∃ known, row = some known ∧ known.isThreatened = true ∧ known.factionId = some factionId

theorem ControlThreatRow.reports_some {row : ControlThreatRow K} {factionId : Uuid} :
    ControlThreatRow.Reports (some row) factionId ↔
      row.isThreatened = true ∧ row.factionId = some factionId := by
  simp [ControlThreatRow.Reports]

/-- The statuses that reach a subscriber of a faction agree with a fact about it. -/
structure Reconstructs (statuses : List String) (holds : Prop) : Prop where
  alternate : Alternates "entered" "cleared" statuses
  last : statuses.getLast? = some "entered" ↔ holds

/-- An event is due when the fact begins or ceases to hold. -/
theorem Reconstructs.append {statuses : List String} {before after : Prop}
    (known : Reconstructs statuses before) {status : String}
    (turn : (before ∧ ¬ after ∧ status = "cleared") ∨ (¬ before ∧ after ∧ status = "entered")) :
    Reconstructs (statuses ++ [status]) after := by
  refine ⟨known.alternate.append (by decide) ?_, ?_⟩
  · rcases turn with ⟨was, -, named⟩ | ⟨was, -, named⟩
    · exact .inl ⟨known.last.mpr was, named⟩
    · exact .inr ⟨fun last => was (known.last.mp last), named⟩
  · rw [List.getLast?_append, List.getLast?_singleton]
    rcases turn with ⟨-, now, rfl⟩ | ⟨-, now, rfl⟩ <;> simp [now]

/-- No event leaves the statuses right exactly when the fact stays. -/
theorem Reconstructs.iff_of_same {statuses : List String} {before after : Prop}
    (known : Reconstructs statuses before) : Reconstructs statuses after ↔ (before ↔ after) :=
  ⟨fun later => known.last.symm.trans later.last,
    fun same => ⟨known.alternate, known.last.trans same⟩⟩

/-! ## One refresh -/

section Refresh

variable [Field K] {systemId faction : Uuid} {row : ControlThreatRow K} {statuses : List String}

/-- The statuses a refresh adds for a faction. -/
def refreshStatuses (systemId faction : Uuid) (previous : Option (ControlThreatRow K))
    (row : ControlThreatRow K) : List String :=
  (controlThreatEvents systemId previous row).filterMap (OutboxInsert.threatStatus? faction)

/-- The flag did not change: nothing is emitted. -/
theorem refreshStatuses_of_same {previous : Option (ControlThreatRow K)}
    (same : (previous.any fun known => known.isThreatened) = row.isThreatened) :
    refreshStatuses systemId faction previous row = [] := by
  cases previous with
  | none =>
      have calm : row.isThreatened = false := by simpa using same.symm
      simp [refreshStatuses, controlThreatEvents, calm]
  | some known =>
      have kept : known.isThreatened = row.isThreatened := by simpa using same
      simp [refreshStatuses, controlThreatEvents, kept]

/-- The threat begins: the new controlling faction is told. -/
theorem refreshStatuses_of_entered {previous : Option (ControlThreatRow K)}
    (calm : (previous.any fun known => known.isThreatened) = false)
    (threatened : row.isThreatened = true) :
    refreshStatuses systemId faction previous row =
      if row.factionId = some faction then ["entered"] else [] := by
  cases previous with
  | none =>
      simp only [refreshStatuses, controlThreatEvents, threatened, if_true, List.filterMap_cons,
        threatStatus?_controlThreatEvent, List.filterMap_nil]
      split <;> simp_all
  | some known =>
      have was : known.isThreatened = false := by simpa using calm
      simp only [refreshStatuses, controlThreatEvents, was, threatened, ne_eq, Bool.false_eq_true,
        not_false_eq_true, if_true, List.filterMap_cons, threatStatus?_controlThreatEvent,
        List.filterMap_nil]
      split <;> simp_all

/-- The threat ends: the faction that was threatened is told. -/
theorem refreshStatuses_of_cleared {known : ControlThreatRow K} {holder : Uuid}
    (was : known.isThreatened = true) (held : known.factionId = some holder)
    (calm : row.isThreatened = false) :
    refreshStatuses systemId faction (some known) row =
      if holder = faction then ["cleared"] else [] := by
  simp only [refreshStatuses, controlThreatEvents, was, calm, held, ne_eq, Bool.true_eq_false,
    not_false_eq_true, if_true, Bool.false_eq_true, if_false, List.filterMap_cons,
    threatStatus?_controlThreatEvent, List.filterMap_nil]
  by_cases told : holder = faction <;> simp [told]

/-- **What a refresh does to the statuses of all factions**: they stay right unless the
system was and is threatened under different controlling factions. -/
theorem reconstructs_refresh_iff (systemId : Uuid) (row : ControlThreatRow K)
    {previous : Option (ControlThreatRow K)}
    {statuses : Uuid → List String}
    (held : ∀ known, previous = some known → known.isThreatened = true → known.factionId.isSome)
    (right : ∀ faction, Reconstructs (statuses faction) (ControlThreatRow.Reports previous faction)) :
    (∀ faction, Reconstructs (statuses faction ++ refreshStatuses systemId faction previous row)
        (ControlThreatRow.Reports (some row) faction)) ↔
      ¬ ∃ known, previous = some known ∧ known.isThreatened = true ∧ row.isThreatened = true ∧
        known.factionId ≠ row.factionId := by
  cases was : previous.any fun known => known.isThreatened with
  | false =>
      have calm : ∀ faction, ¬ ControlThreatRow.Reports previous faction := by
        rintro faction ⟨known, rfl, threatened, -⟩
        simp [threatened] at was
      have noHandover : ¬ ∃ known, previous = some known ∧ known.isThreatened = true ∧
          row.isThreatened = true ∧ known.factionId ≠ row.factionId := by
        rintro ⟨known, rfl, threatened, -⟩
        simp [threatened] at was
      refine iff_of_true (fun faction => ?_) noHandover
      cases now : row.isThreatened with
      | false =>
          rw [refreshStatuses_of_same (by rw [was, now]), List.append_nil,
            (right faction).iff_of_same]
          exact iff_of_false (calm faction) (by simp [ControlThreatRow.reports_some, now])
      | true =>
          rw [refreshStatuses_of_entered was now]
          by_cases told : row.factionId = some faction
          · rw [if_pos told]
            exact (right faction).append
              (.inr ⟨calm faction, ControlThreatRow.reports_some.mpr ⟨now, told⟩, rfl⟩)
          · rw [if_neg told, List.append_nil, (right faction).iff_of_same]
            exact iff_of_false (calm faction) (by simp [ControlThreatRow.reports_some, told])
  | true =>
      obtain ⟨known, rfl, threatened⟩ : ∃ known, previous = some known ∧
          known.isThreatened = true := by
        cases previous with
        | none => cases was
        | some known => exact ⟨known, rfl, was⟩
      obtain ⟨holder, holds⟩ := Option.isSome_iff_exists.mp (held known rfl threatened)
      simp only [Option.some.injEq, exists_eq_left', threatened, true_and]
      cases now : row.isThreatened with
      | false =>
          refine iff_of_true (fun faction => ?_) (by simp)
          have ended : ¬ ControlThreatRow.Reports (some row) faction := by
            simp [ControlThreatRow.reports_some, now]
          rw [refreshStatuses_of_cleared threatened holds now]
          by_cases told : holder = faction
          · rw [if_pos told]
            exact (right faction).append
              (.inl ⟨ControlThreatRow.reports_some.mpr ⟨threatened, by rw [holds, told]⟩, ended, rfl⟩)
          · rw [if_neg told, List.append_nil, (right faction).iff_of_same]
            exact iff_of_false (by simp [ControlThreatRow.reports_some, holds, told]) ended
      | true =>
          have silent : ∀ faction, refreshStatuses systemId faction (some known) row = [] :=
            fun faction => refreshStatuses_of_same (by rw [was, now])
          have stays : ∀ faction, Reconstructs (statuses faction ++ [])
              (ControlThreatRow.Reports (some row) faction) ↔
                (known.factionId = some faction ↔ row.factionId = some faction) := fun faction => by
            rw [List.append_nil, (right faction).iff_of_same]
            simp only [ControlThreatRow.reports_some, threatened, now, true_and]
          simp only [silent, stays, true_and, ne_eq, not_not]
          constructor
          · intro same
            exact holds.trans ((same holder).mp holds).symm
          · intro kept faction
            rw [kept]

end Refresh

/-! ## A statement -/

namespace Db

variable {P : Platform K} [Field K] [LinearOrder K]

/-- The statuses that reach a subscriber of a faction from one system, in insertion order. -/
def threatStatuses (db : Db P) (systemId faction : Uuid) : List String :=
  (db.threatEventsOf systemId).filterMap (OutboxInsert.threatStatus? faction)

/-- The faction controls the system, which is threatened. -/
def ThreatenedUnder (db : Db P) (systemId faction : Uuid) : Prop :=
  db.controllingFactionOf systemId = some faction ∧
    Threatened (db.controllingFactionOf systemId) (db.statesOf systemId)

/-- For every system and faction the events alternate and their last one tells the truth. -/
def EventsReconstruct (db : Db P) : Prop :=
  ∀ systemId faction,
    Reconstructs (db.threatStatuses systemId faction) (db.ThreatenedUnder systemId faction)

/-- The system is threatened before and after, under different controlling factions. -/
def HandedOver (before after : Db P) (systemId : Uuid) : Prop :=
  Threatened (before.controllingFactionOf systemId) (before.statesOf systemId) ∧
    Threatened (after.controllingFactionOf systemId) (after.statesOf systemId) ∧
    before.controllingFactionOf systemId ≠ after.controllingFactionOf systemId

/-- The threat table reports the truth. -/
theorem ThreatsCurrent.reports_iff {db : Db P} (current : db.ThreatsCurrent)
    (systemId faction : Uuid) :
    ControlThreatRow.Reports (db.systemFactionControlThreats.get systemId) faction ↔
      db.ThreatenedUnder systemId faction := by
  have truth := current systemId
  cases known : db.systemFactionControlThreats.get systemId with
  | none =>
      rw [known] at truth
      exact iff_of_false (by rintro ⟨_, impossible, -⟩; cases impossible) fun under => truth under.2
  | some row =>
      simp only [known] at truth
      rw [ControlThreatRow.reports_some, truth.isThreatened, truth.factionId, and_comm]
      rfl

theorem Maintains.threatStatuses {now : Timestamp} {ids : List Uuid} {db db' : Db P}
    (step : Maintains now ids db db') (systemId faction : Uuid) :
    db'.threatStatuses systemId faction = db.threatStatuses systemId faction ++
      if systemId ∈ ids then
        refreshStatuses systemId faction (db.systemFactionControlThreats.get systemId)
          (db'.currentControlThreat now systemId)
      else [] := by
  unfold Db.threatStatuses
  rw [step.events, List.filterMap_append]
  split <;> rfl

/-- The statement keeps the events right for a system unless it hands it over. -/
theorem Maintains.reconstructs_iff {now : Timestamp} {ids : List Uuid} {db db' : Db P}
    (step : Maintains now ids db db') (current : db.ThreatsCurrent)
    (right : db.EventsReconstruct) (systemId : Uuid) :
    (∀ faction, Reconstructs (db'.threatStatuses systemId faction)
        (db'.ThreatenedUnder systemId faction)) ↔ ¬ HandedOver db db' systemId := by
  have truth := current systemId
  by_cases visited : systemId ∈ ids
  · have row : db'.systemFactionControlThreats.get systemId =
        some (db'.currentControlThreat now systemId) := by rw [step.row, if_pos visited]
    have truth' := db'.assesses_current now systemId
    have known : ∀ faction, Reconstructs (db.threatStatuses systemId faction)
        (ControlThreatRow.Reports (db.systemFactionControlThreats.get systemId) faction) :=
      fun faction => by
        rw [current.reports_iff]
        exact right systemId faction
    have held : ∀ row, db.systemFactionControlThreats.get systemId = some row →
        row.isThreatened = true → row.factionId.isSome := by
      intro row found threatened
      rw [found] at truth
      obtain ⟨holder, controls⟩ := (truth.isThreatened.mp threatened).controlled
      rw [truth.factionId, controls, Option.isSome_some]
    have refreshed := reconstructs_refresh_iff systemId (db'.currentControlThreat now systemId)
      held known
    simp only [step.threatStatuses, if_pos visited,
      ← (step.threatsCurrent current).reports_iff systemId, row, refreshed]
    refine not_congr ⟨?_, ?_⟩
    · rintro ⟨previous, found, was, is, different⟩
      rw [found] at truth
      exact ⟨truth.isThreatened.mp was, truth'.isThreatened.mp is,
        fun same => different (truth.factionId.trans (same.trans truth'.factionId.symm))⟩
    · rintro ⟨was, is, different⟩
      cases found : db.systemFactionControlThreats.get systemId with
      | none =>
          rw [found] at truth
          exact absurd was truth
      | some previous =>
          rw [found] at truth
          exact ⟨previous, rfl, truth.isThreatened.mpr was, truth'.isThreatened.mpr is,
            fun same => different (truth.factionId.symm.trans (same.trans truth'.factionId))⟩
  · have stays : ∀ faction, db'.ThreatenedUnder systemId faction ↔
        db.ThreatenedUnder systemId faction := fun faction => by
      simp only [ThreatenedUnder, step.controller systemId visited, step.states systemId visited]
    simp only [step.threatStatuses, if_neg visited, List.append_nil, stays]
    exact iff_of_true (right systemId) fun handed =>
      handed.2.2 (step.controller systemId visited).symm

/-! ## Threatened handovers -/

/-- The statement passes control of a system that is threatened under the old and under the
new controlling faction. -/
def ThreatenedHandover (db : Db P) : ThreatStatement K → Prop
  | .updateControllers where_ controller => ∃ system ∈ db.systems.rows, where_ system = true ∧
      system.controllingFactionId ≠ controller system ∧
      Threatened system.controllingFactionId (db.statesOf system.id) ∧
      Threatened (controller system) (db.statesOf system.id)
  | _ => False

theorem systems_of_writeFactionStates {db db' : Db P} {now : Timestamp}
    {outcome : List (FactionStateRow K) × List (Change (FactionStateRow K))}
    (written : db.writeFactionStates now outcome = some db') : db'.systems = db.systems := by
  obtain ⟨⟨table, changes⟩, -, rfl⟩ := Option.map_eq_some_iff.mp written
  exact (refreshed_afterFactionStates now changes { db with factionStates := table }).systems

theorem statesOf_of_writeSystems {db db' : Db P} {now : Timestamp}
    {outcome : List (SystemRow K) × List (Change (SystemRow K))}
    (written : db.writeSystems now outcome = some db') (systemId : Uuid) :
    db'.statesOf systemId = db.statesOf systemId := by
  obtain ⟨⟨table, changes⟩, -, rfl⟩ := Option.map_eq_some_iff.mp written
  have same := (refreshed_afterSystems now changes { db with systems := table }).factionStates
  simp only [statesOf, same]

/-- The controlling faction of a system after an update of the column. -/
theorem controllingFactionOf_updateControllers {db db' : Db P} {now : Timestamp}
    {where_ : SystemRow K → Bool} {controller : SystemRow K → Option Uuid}
    (ran : db.runStatement (now, .updateControllers where_ controller) = some db')
    (systemId : Uuid) : db'.controllingFactionOf systemId =
      (db.systems.rows.find? fun row => row.id = systemId).bind fun row =>
        if where_ row then controller row else row.controllingFactionId := by
  obtain ⟨⟨table, changes⟩, write, rfl⟩ := Option.map_eq_some_iff.mp ran
  have rows : table.rows = (updateRows where_ (SystemRow.setController controller)
      db.systems.rows).1 := (congrArg Prod.fst (Table.write_eq_some write)).symm
  have same := (refreshed_afterSystems now changes { db with systems := table }).systems
  simp only [controllingFactionOf, same, rows, updateRows, List.find?_map, Function.comp_def,
    apply_ite SystemRow.id, SystemRow.id_setController, ite_self, Option.bind_map]
  congr 1
  funext row
  split <;> rfl

/-- A statement hands a system over exactly when it is a threatened handover. -/
theorem handedOver_iff {db db' : Db P} {now : Timestamp} {statement : ThreatStatement K}
    (ran : db.runStatement (now, statement) = some db') :
    (∃ systemId, HandedOver db db' systemId) ↔ db.ThreatenedHandover statement := by
  have ofStates : ∀ {outcome}, db.writeFactionStates now outcome = some db' →
      ¬ ∃ systemId, HandedOver db db' systemId := by
    rintro outcome written ⟨systemId, -, -, different⟩
    exact different (by simp only [controllingFactionOf, systems_of_writeFactionStates written])
  cases statement with
  | insertStates proposed => exact iff_of_false (ofStates ran) id
  | updateStates where_ set => exact iff_of_false (ofStates ran) id
  | deleteStates where_ => exact iff_of_false (ofStates ran) id
  | upsertStates target proposed set setWhere =>
      obtain ⟨outcome, -, written⟩ := Option.bind_eq_some_iff.mp ran
      exact iff_of_false (ofStates written) id
  | updateControllers where_ controller =>
      have states := statesOf_of_writeSystems ran
      have controllers := controllingFactionOf_updateControllers ran
      constructor
      · rintro ⟨systemId, was, is, different⟩
        rw [states] at is
        rw [controllers] at is different
        cases found : db.systems.rows.find? fun row => row.id = systemId with
        | none => simp [controllingFactionOf, found] at different
        | some system =>
            have member := List.mem_of_find?_eq_some found
            obtain rfl : system.id = systemId := by simpa using List.find?_some found
            rw [controllingFactionOf_of_mem member] at was different
            rw [found, Option.bind_some] at is different
            by_cases matched : where_ system = true
            · rw [if_pos matched] at is different
              exact ⟨system, member, matched, different, was, is⟩
            · rw [if_neg matched] at different
              exact absurd rfl different
      · rintro ⟨system, member, matched, different, was, is⟩
        refine ⟨system.id, ?_, ?_, ?_⟩
        · rwa [controllingFactionOf_of_mem member]
        all_goals rw [controllers, find?_key db.distinctSystems member, Option.bind_some, if_pos matched]
        · rwa [states]
        · rwa [controllingFactionOf_of_mem member]

/-- **The events go wrong at a threatened handover and nowhere else.** In a run without one
they reconstruct the truth after every statement, and the first statement of a run that is one
breaks them. -/
theorem events_reconstruct_iff_no_handover {start db : Db P} (states : start.factionStates = .empty)
    (threats : start.systemFactionControlThreats = .empty) (events : start.eventOutbox = [])
    (run : Reaches runStatement (fun db step => ¬ db.ThreatenedHandover step.2) start db) :
    db.EventsReconstruct ∧ ∀ now statement db', db.runStatement (now, statement) = some db' →
      (db'.EventsReconstruct ↔ ¬ db.ThreatenedHandover statement) := by
  have exact_ : ∀ {db db' : Db P} {now : Timestamp} {statement : ThreatStatement K},
      db.ThreatsCurrent → db.EventsReconstruct → db.runStatement (now, statement) = some db' →
      (db'.EventsReconstruct ↔ ¬ db.ThreatenedHandover statement) := by
    intro db db' now statement current right ran
    obtain ⟨ids, step⟩ := maintains_of_runStatement ran
    rw [← handedOver_iff ran, not_exists]
    exact forall_congr' fun systemId => step.reconstructs_iff current right systemId
  have blank : start.EventsReconstruct := by
    intro systemId faction
    have none_yet : start.threatStatuses systemId faction = [] := by
      simp [threatStatuses, threatEventsOf, events]
    rw [none_yet]
    refine ⟨trivial, iff_of_false (by simp) ?_⟩
    rintro ⟨-, _, _, ⟨holder, member, _⟩, _⟩
    simp [statesOf, states] at member
  have both : db.ThreatsCurrent ∧ db.EventsReconstruct := by
    induction run with
    | start => exact ⟨threatsCurrent_of_started (.inr ⟨states, threats⟩), blank⟩
    | step _ calm ran ih =>
        obtain ⟨ids, step⟩ := maintains_of_runStatement ran
        exact ⟨step.threatsCurrent ih.1, (exact_ ih.1 ih.2 ran).mpr calm⟩
  exact ⟨both.2, fun now statement db' ran => exact_ both.1 both.2 ran⟩

end Db

/-- Without a handover the faction that controls the sample system learns of the threat. -/
theorem events_reconstruct_sample : ∃ db : Db asciiPlatform,
    db.threatStatuses (.ofNat 1) (.ofNat 10) = ["entered"] ∧ db.EventsReconstruct := by
  obtain ⟨db, run, told⟩ := exists_reaches_of_execute Db.runStatement
    (fun db step => ¬ db.ThreatenedHandover step.2) sampleDb sampleStatements
    (fun db => db.threatStatuses (.ofNat 1) (.ofNat 10) = ["entered"])
    (by simp [sampleStatements, Db.ThreatenedHandover]) (by decide +kernel)
  exact ⟨db, by simpa using told,
    (Db.events_reconstruct_iff_no_handover rfl rfl rfl run).1⟩

/-- Control passes from faction 10 to faction 11 while both would be threatened: faction 10 is
never told that its threat is over. -/
theorem threatened_handover_breaks_events : ∃ db : Db asciiPlatform,
    Reachable Db.runStatement sampleDb db ∧ ¬ db.EventsReconstruct := by
  obtain ⟨db, run, stale⟩ := exists_reachable_of_execute Db.runStatement sampleDb
    (sampleStatements ++ [(3, .updateControllers (fun _ => true) fun _ => some (.ofNat 11))])
    (fun db => (db.threatStatuses (.ofNat 1) (.ofNat 10)).getLast? = some "entered" ∧
      db.controllingFactionOf (.ofNat 1) = some (.ofNat 11))
    (by decide +kernel)
  obtain ⟨last, controls⟩ : _ ∧ _ := by simpa using stale
  refine ⟨db, run, fun right => ?_⟩
  have under := ((right (.ofNat 1) (.ofNat 10)).last.mp last).1
  rw [controls] at under
  exact absurd under (by decide)

end EliteHubVault
