import EliteHubVault.ControlThreat.Recomputation

/-!
# What a threat event says of the influences

A threat event names the controlling faction and its challenger and carries the gap between
them, with the threshold, so that its status can be recomputed from the payload. An `entered`
event takes them from the computed row and always agrees with the states it was computed from.

A `cleared` event takes each of the three from the previous row, and only where that has none
from the computed one. The gap of the previous row is at most the threshold: as long as both
factions have a state, the event carries a gap that is not theirs and that contradicts its
status (`cleared_event_carries_old_gap`). `Db.payloads_agree_iff` says when the events agree.
-/

set_option autoImplicit false

namespace EliteHubVault

open Library

variable {K : Type}

/-! ## Columns of a payload -/

theorem ofNullable_ofUuid_inj {factionId : Option Uuid} {faction : Uuid} :
    (Json.ofNullable .ofUuid factionId : Json K) = .ofUuid faction ↔ factionId = some faction := by
  cases factionId <;> simp [Json.ofNullable, Json.ofUuid, Uuid.toText_injective.eq_iff]

theorem ofNullable_number_inj {gap : Option K} {value : K} :
    Json.ofNullable .number gap = .number value ↔ gap = some value := by
  cases gap <;> simp [Json.ofNullable]

/-- `COALESCE` of two columns. -/
theorem orElse_eq_some_iff {α : Type} {before after : Option α} {value : α} :
    (before <|> after) = some value ↔ before = some value ∨ before = none ∧ after = some value := by
  cases before <;> simp

/-! ## The events of a refresh -/

/-- The events of a refresh: one that enters the threat when the computed row begins it, one
that clears it when the computed row ends the threat of a previous row. -/
theorem forall_mem_controlThreatEvents [Field K] {holds : OutboxInsert K → Prop} {systemId : Uuid}
    {previous : Option (ControlThreatRow K)} {row : ControlThreatRow K} :
    (∀ event ∈ controlThreatEvents systemId previous row, holds event) ↔
      (row.isThreatened = true → (∀ known, previous = some known → known.isThreatened = false) →
        holds (controlThreatEvent systemId row.factionId "entered" row.challengerFactionId
          row.gap)) ∧
      ∀ known, previous = some known → known.isThreatened = true → row.isThreatened = false →
        holds (controlThreatEvent systemId (known.factionId <|> row.factionId) "cleared"
          (known.challengerFactionId <|> row.challengerFactionId)
          (known.gap <|> row.gap <|> some controlThreatThreshold)) := by
  cases previous with
  | none => cases now : row.isThreatened <;> simp [controlThreatEvents, now]
  | some known =>
      cases was : known.isThreatened <;> cases now : row.isThreatened <;>
        simp [controlThreatEvents, was, now]

variable [Field K] [LinearOrder K]

/-! ## Events that agree with the states -/

/-- When both factions that the event names have a state, the gap is the difference of their
influences, and the status is `entered` when it is at most the threshold of the event. -/
def OutboxInsert.AgreesWith (event : OutboxInsert K) (states : List (FactionStateRow K)) : Prop :=
  ∀ holder ∈ states, ∀ rival ∈ states,
    event.payload.field? "factionId" = some (.ofUuid holder.factionId) →
    event.payload.field? "challengerFactionId" = some (.ofUuid rival.factionId) →
    event.payload.field? "gap" = some (.number (holder.influence - rival.influence)) ∧
      ∃ threshold, event.payload.field? "threshold" = some (.number threshold) ∧
        (event.payload.field? "status" = some (.string "entered") ↔
          holder.influence - rival.influence ≤ threshold)

/-- The payload as the arguments of the event. -/
theorem agreesWith_controlThreatEvent {systemId : Uuid} {factionId challenger : Option Uuid}
    {status : String} {gap : Option K} {states : List (FactionStateRow K)} :
    (controlThreatEvent systemId factionId status challenger gap).AgreesWith states ↔
      ∀ holder ∈ states, ∀ rival ∈ states, factionId = some holder.factionId →
        challenger = some rival.factionId → gap = some (holder.influence - rival.influence) ∧
          (status = "entered" ↔ holder.influence - rival.influence ≤ 1 / 10) := by
  simp [OutboxInsert.AgreesWith, controlThreatEvent, Json.field?, List.lookup,
    ofNullable_ofUuid_inj, ofNullable_number_inj, controlThreatThreshold]

/-! ## The lead of two given factions -/

/-- The gap of a lead is the difference of the influences of the two factions. -/
theorem LeadsBy.gap_eq {states : List (FactionStateRow K)}
    (distinctFactions : (states.map fun row => row.factionId).Nodup)
    {holder rival : FactionStateRow K} (member : holder ∈ states) (member' : rival ∈ states)
    {gap : K} (leads : LeadsBy (some holder.factionId) states rival.factionId gap) :
    gap = holder.influence - rival.influence := by
  obtain ⟨holder', inside, controls, rival', first, names, rfl⟩ := leads
  obtain rfl : holder = holder' :=
    List.inj_on_of_nodup_map distinctFactions member inside (Option.some.inj controls)
  obtain rfl : rival = rival' :=
    List.inj_on_of_nodup_map distinctFactions member' (List.mem_of_mem_filter first.mem) names
  rfl

/-- A faction that controls the system has one lead at most. -/
theorem LeadsBy.unique {controllingFactionId : Option Uuid} {states : List (FactionStateRow K)}
    (distinctFactions : (states.map fun row => row.factionId).Nodup)
    {challenger challenger' : Uuid} {gap gap' : K}
    (leads : LeadsBy controllingFactionId states challenger gap)
    (leads' : LeadsBy controllingFactionId states challenger' gap') : gap = gap' := by
  obtain ⟨holder, member, rfl, rival, first, rfl, rfl⟩ := leads
  exact ((leadsBy_iff distinctFactions member first).mp leads').2.symm

/-- The events of a threat that begins agree with the states. -/
theorem Assesses.entered_agrees {controllingFactionId : Option Uuid}
    {states : List (FactionStateRow K)} {row : ControlThreatRow K}
    (distinctFactions : (states.map fun row => row.factionId).Nodup)
    (assesses : Assesses controllingFactionId states row) (threatened : row.isThreatened = true)
    (systemId : Uuid) : (controlThreatEvent systemId row.factionId "entered"
      row.challengerFactionId row.gap).AgreesWith states := by
  rw [agreesWith_controlThreatEvent]
  intro holder member rival member' named named'
  obtain ⟨gap, leads⟩ := (assesses.challenger rival.factionId).mp named'
  obtain ⟨challenger, lead, leads', small⟩ := assesses.isThreatened.mp threatened
  have computed : row.gap = some gap := (assesses.gap gap).mpr ⟨rival.factionId, leads⟩
  have same : gap = lead := leads.unique distinctFactions leads'
  have controls : controllingFactionId = some holder.factionId := assesses.factionId ▸ named
  rw [controls] at leads
  have difference := leads.gap_eq distinctFactions member member'
  rw [← difference]
  exact ⟨computed, iff_of_true rfl (same ▸ small)⟩

/-! ## Events of a threat that ends -/

/-- Whenever both factions of the cleared event have a state, one leads the other by more than
the threshold, and the gap that the event takes from the previous row, or from the current lead
where that has none, is this lead. -/
def ControlThreatRow.StatesLead (previous : ControlThreatRow K)
    (controllingFactionId : Option Uuid) (states : List (FactionStateRow K)) : Prop :=
  ∀ holder ∈ states, ∀ rival ∈ states,
    (previous.factionId <|> controllingFactionId) = some holder.factionId →
    (previous.challengerFactionId = some rival.factionId ∨ previous.challengerFactionId = none ∧
      ∃ gap, LeadsBy controllingFactionId states rival.factionId gap) →
    1 / 10 < holder.influence - rival.influence ∧
      (previous.gap = some (holder.influence - rival.influence) ∨ previous.gap = none ∧
        ∃ challenger, LeadsBy controllingFactionId states challenger
          (holder.influence - rival.influence))

theorem Assesses.cleared_agrees_iff {controllingFactionId : Option Uuid}
    {states : List (FactionStateRow K)} {row : ControlThreatRow K}
    (assesses : Assesses controllingFactionId states row) (previous : ControlThreatRow K)
    (systemId : Uuid) :
    (controlThreatEvent systemId (previous.factionId <|> row.factionId) "cleared"
      (previous.challengerFactionId <|> row.challengerFactionId)
      (previous.gap <|> row.gap <|> some controlThreatThreshold)).AgreesWith states ↔
        previous.StatesLead controllingFactionId states := by
  rw [agreesWith_controlThreatEvent, ControlThreatRow.StatesLead, assesses.factionId]
  refine forall₄_congr fun holder _ rival _ => imp_congr_right fun _ => ?_
  rw [orElse_eq_some_iff, assesses.challenger rival.factionId]
  refine imp_congr_right fun _ => ?_
  generalize holder.influence - rival.influence = lead
  have status : ("cleared" = "entered" ↔ lead ≤ 1 / 10) ↔ 1 / 10 < lead := by
    simp [show "cleared" ≠ "entered" by decide]
  rw [status, and_comm]
  refine and_congr_right fun more => ?_
  have other : (row.gap <|> some controlThreatThreshold) = some lead ↔ row.gap = some lead := by
    rw [orElse_eq_some_iff]
    refine or_iff_left ?_
    rintro ⟨-, threshold⟩
    exact more.ne (Option.some.inj threshold)
  rw [orElse_eq_some_iff, other, assesses.gap lead]

/-- The events of a refresh agree with the states, unless it clears a threat and the previous
row does not state the lead that the system has now. -/
theorem Assesses.events_agree_iff {controllingFactionId : Option Uuid}
    {states : List (FactionStateRow K)} {row : ControlThreatRow K}
    (distinctFactions : (states.map fun row => row.factionId).Nodup)
    (assesses : Assesses controllingFactionId states row)
    (previous : Option (ControlThreatRow K)) (systemId : Uuid) :
    (∀ event ∈ controlThreatEvents systemId previous row, event.AgreesWith states) ↔
      ∀ known, previous = some known → known.isThreatened = true →
        ¬ Threatened controllingFactionId states →
          known.StatesLead controllingFactionId states := by
  rw [forall_mem_controlThreatEvents, ← assesses.isThreatened]
  simp only [assesses.cleared_agrees_iff, Bool.not_eq_true]
  exact and_iff_right fun threatened _ =>
    assesses.entered_agrees distinctFactions threatened systemId

/-! ## Rows that a refresh wrote -/

/-- A threatened row names two factions and a gap of at most the threshold. -/
def ControlThreatRow.Coherent (row : ControlThreatRow K) : Prop :=
  row.isThreatened = true → (∃ factionId, row.factionId = some factionId) ∧
    (∃ challenger, row.challengerFactionId = some challenger) ∧
      ∃ gap, row.gap = some gap ∧ gap ≤ 1 / 10

/-- Whatever a row assesses, it is coherent. -/
theorem Assesses.coherent {controllingFactionId : Option Uuid} {states : List (FactionStateRow K)}
    {row : ControlThreatRow K} (assesses : Assesses controllingFactionId states row) :
    row.Coherent := by
  intro threatened
  have controlled := (assesses.isThreatened.mp threatened).controlled
  obtain ⟨challenger, gap, leads, small⟩ := assesses.isThreatened.mp threatened
  refine ⟨?_, ⟨challenger, (assesses.challenger challenger).mpr ⟨gap, leads⟩⟩, gap,
    (assesses.gap gap).mpr ⟨challenger, leads⟩, small⟩
  rw [assesses.factionId]
  exact controlled

/-- A coherent row of a threat states no lead above the threshold: one of the two factions that
it names has no state any more. -/
theorem ControlThreatRow.Coherent.statesLead_iff {previous : ControlThreatRow K}
    (coherent : previous.Coherent) (threatened : previous.isThreatened = true)
    {controllingFactionId : Option Uuid} {states : List (FactionStateRow K)} :
    previous.StatesLead controllingFactionId states ↔
      ¬ ((∃ holder ∈ states, previous.factionId = some holder.factionId) ∧
        ∃ rival ∈ states, previous.challengerFactionId = some rival.factionId) := by
  obtain ⟨⟨factionId, named⟩, ⟨challenger, named'⟩, gap, stated, small⟩ := coherent threatened
  constructor
  · rintro leads ⟨⟨holder, member, own⟩, rival, member', own'⟩
    have first : (previous.factionId <|> controllingFactionId) = some holder.factionId :=
      orElse_eq_some_iff.mpr (.inl own)
    obtain ⟨more, stale | ⟨absent, -⟩⟩ := leads holder member rival member' first (.inl own')
    · rw [Option.some.inj (stated.symm.trans stale)] at small
      exact absurd small more.not_ge
    · rw [stated] at absent
      cases absent
  · intro gone holder member rival member' first second
    refine absurd ⟨⟨holder, member, ?_⟩, rival, member', ?_⟩ gone
    · obtain own | ⟨absent, -⟩ := orElse_eq_some_iff.mp first
      · exact own
      · rw [named] at absent
        cases absent
    · obtain own | ⟨absent, -⟩ := second
      · exact own
      · rw [named'] at absent
        cases absent

namespace Db

variable {P : Platform K}

/-- The events that a refresh inserts. -/
theorem insertedEvents_refresh (now : Timestamp) (systemId : Uuid) (db : Db P) :
    insertedEvents db (db.refreshSystemFactionControlThreat now systemId) =
      (controlThreatEvents systemId (db.systemFactionControlThreats.get systemId)
        (db.currentControlThreat now systemId)).map fun insert => ⟨insert, now⟩ := by
  rw [insertedEvents, eventOutbox_refresh, List.drop_left]

/-- **When threat events agree with the states they were made from.** Whatever the previous row
is, the events of a refresh agree unless the refresh clears a threat and the previous row does
not state the lead that the system has now. If the previous row is coherent, the exception is
this: the refresh clears a threat while both factions of the previous row still have a state.
The row that a refresh leaves is coherent. -/
theorem payloads_agree_iff (now : Timestamp) (systemId : Uuid) (db : Db P) :
    ((∀ event ∈ insertedEvents db (db.refreshSystemFactionControlThreat now systemId),
        event.AgreesWith (db.statesOf systemId)) ↔
      ∀ previous, db.systemFactionControlThreats.get systemId = some previous →
        previous.isThreatened = true →
          ¬ Threatened (db.controllingFactionOf systemId) (db.statesOf systemId) →
            previous.StatesLead (db.controllingFactionOf systemId) (db.statesOf systemId)) ∧
    (∀ previous, db.systemFactionControlThreats.get systemId = some previous → previous.Coherent →
      ((∀ event ∈ insertedEvents db (db.refreshSystemFactionControlThreat now systemId),
          event.AgreesWith (db.statesOf systemId)) ↔
        ¬ (previous.isThreatened = true ∧
          ¬ Threatened (db.controllingFactionOf systemId) (db.statesOf systemId) ∧
          (∃ holder ∈ db.statesOf systemId, previous.factionId = some holder.factionId) ∧
          (∃ rival ∈ db.statesOf systemId,
            previous.challengerFactionId = some rival.factionId)))) ∧
    ∀ row, (db.refreshSystemFactionControlThreat now systemId).systemFactionControlThreats.get
      systemId = some row → row.Coherent := by
  have exact_ := (db.assesses_current now systemId).events_agree_iff
    (db.distinctFactions systemId) (db.systemFactionControlThreats.get systemId) systemId
  rw [insertedEvents_refresh, List.forall_mem_map]
  refine ⟨exact_, fun previous stored coherent => exact_.trans ?_, fun row left => ?_⟩
  · rw [stored]
    simp only [Option.some.injEq, forall_eq']
    by_cases was : previous.isThreatened = true
    · rw [coherent.statesLead_iff was]
      simp only [was, true_and, forall_true_left, not_and]
    · exact iff_of_true (fun threat => absurd threat was) fun cleared => was cleared.1
  · rw [threats_refresh, OrderedMap.get_set_self] at left
    exact Option.some.inj left ▸ (db.assesses_current now systemId).coherent

end Db

/-! ## A threat that ends -/

/-- Two states of the sample system clash in nothing. -/
theorem sampleStates_distinct (influence influence' : ℚ) :
    ¬ (sampleState 20 10 1 influence).Clash (sampleState 21 11 1 influence') := by
  rintro (sameId | sameKey)
  · have same : Uuid.ofNat 20 = .ofNat 21 := sameId
    exact absurd same (by decide)
  · have same : Uuid.ofNat 10 = .ofNat 11 := congrArg Prod.fst sameKey
    exact absurd same (by decide)

/-- The sample system, where faction 10 has an influence of 2/5 and faction 11 this one. -/
def rivalDb (influence : ℚ) : Db asciiPlatform :=
  { sampleDb with
    factionStates := ⟨[sampleState 20 10 1 (2 / 5), sampleState 21 11 1 influence],
      List.pairwise_pair.mpr (sampleStates_distinct _ _)⟩ }

/-- The row of the threat by a gap of 1/20. -/
def closeThreat : ControlThreatRow ℚ := (rivalDb (7 / 20)).currentControlThreat 1 (.ofNat 1)

/-- A refresh has stored this row; then faction 11 falls back to 1/10. -/
def fallenDb : Db asciiPlatform :=
  { (rivalDb (7 / 20)).refreshSystemFactionControlThreat 1 (.ofNat 1) with
    factionStates := (rivalDb (1 / 10)).factionStates }

/-- **The event that clears the threat carries the gap of 1/20**, where the gap is 3/10. -/
theorem cleared_event_carries_old_gap : ¬ ∀ (now : Timestamp) (systemId : Uuid)
    (db : Db asciiPlatform),
    ∀ event ∈ insertedEvents db (db.refreshSystemFactionControlThreat now systemId),
      event.AgreesWith (db.statesOf systemId) := by
  intro agree
  have agrees := agree 2 (.ofNat 1) fallenDb
  have states : fallenDb.statesOf (.ofNat 1) =
      [sampleState 20 10 1 (2 / 5), sampleState 21 11 1 (1 / 10)] := rfl
  have stored : fallenDb.systemFactionControlThreats.get (.ofNat 1) = some closeThreat :=
    OrderedMap.get_set_self _ _ _
  obtain ⟨named, named', old, was⟩ : closeThreat.factionId = some (.ofNat 10) ∧
      closeThreat.challengerFactionId = some (.ofNat 11) ∧ closeThreat.gap = some (1 / 20) ∧
        closeThreat.isThreatened = true := by decide +kernel
  have calm : (fallenDb.currentControlThreat 2 (.ofNat 1)).isThreatened = false := by
    decide +kernel
  have events : controlThreatEvents (.ofNat 1) (some closeThreat)
      (fallenDb.currentControlThreat 2 (.ofNat 1)) =
        [controlThreatEvent (.ofNat 1) (some (.ofNat 10)) "cleared" (some (.ofNat 11))
          (some (1 / 20))] := by
    simp [controlThreatEvents, named, named', old, was, calm]
  rw [Db.insertedEvents_refresh, List.forall_mem_map, stored, events,
    List.forall_mem_singleton, states] at agrees
  have gap := (agreesWith_controlThreatEvent.mp agrees (sampleState 20 10 1 (2 / 5))
    List.mem_cons_self (sampleState 21 11 1 (1 / 10)) (.tail _ List.mem_cons_self) rfl rfl).1
  exact absurd gap (by decide +kernel)

end EliteHubVault
