import EliteHubVault.Relay.Latest
import EliteHubVault.Worker.Mirror

/-!
# Who is told to be present

A reader follows the presence of one faction in one system and keeps the last change. In every
database that the worker can leave, the faction is in the system exactly when the last change
is that it entered (`WorkerReachable.mem_membership_iff`). The relay publishes each change to
one channel, and the payload says what the row says (`relayed_presence`).
-/

set_option autoImplicit false
set_option linter.unusedSectionVars false

namespace EliteHubVault

open Library

variable {K : Type}

/-! ## Reading an event and a payload -/

/-- The payload of a `factionPresenceChanged` event. -/
def OutboxInsert.factionPresenceChanged? (event : OutboxInsert K) :
    Option FactionPresenceChangedOutboxPayload :=
  if event.eventType = factionPresenceChangedEvent then
    parseFactionPresenceChangedOutboxPayload event.payload
  else none

/-- The change that an event reports of a faction in a system. -/
def watchPresence (systemId factionId : Uuid) (event : OutboxInsert K) :
    Option FactionPresenceChange :=
  (event.factionPresenceChanged?.filter fun payload =>
    payload.systemId = systemId.toText ∧ payload.factionId = factionId.toText).map
    FactionPresenceChangedOutboxPayload.change

/-- The change that a published payload reports of a faction in a system. -/
def hearPresence (systemId factionId : Uuid) : RealtimePayload K → Option FactionPresenceChange
  | .factionPresenceChanged payload =>
      if payload.systemId = systemId.toText ∧ payload.factionId = factionId.toText then
        some payload.change
      else none
  | _ => none

theorem watchPresence_presenceEvent (systemId factionId system faction : Uuid)
    (change : FactionPresenceChange) :
    watchPresence (K := K) systemId factionId (presenceEvent system change.label faction) =
      if faction = factionId then (if system = systemId then some change else none) else none := by
  have parsed : (presenceEvent (K := K) system change.label faction).factionPresenceChanged? =
      some ⟨faction.toText, system.toText, change⟩ := by
    cases change <;>
      simp [OutboxInsert.factionPresenceChanged?, presenceEvent, factionPresenceChangedEvent,
        parseFactionPresenceChangedOutboxPayload, Json.required, Json.requiredEnum,
        Json.field?_cons, Json.ofUuid, Json.asString?, factionPresenceChangeSchema, zodEnum,
        FactionPresenceChange.label]
  rw [watchPresence, parsed, Option.filter_some, apply_ite (Option.map _)]
  simp only [Uuid.toText_injective.eq_iff, decide_eq_true_eq, Option.map_some, Option.map_none]
  rw [← ite_and]
  exact if_congr And.comm rfl rfl

/-- Only events of presence are read. -/
theorem signals_watchPresence [Field K] [LinearOrder K] {P : Platform K} (systemId factionId : Uuid)
    (db : Db P) : db.signals (watchPresence systemId factionId) =
      (db.signals presenceChanged?).filterMap (watchPresence systemId factionId) := by
  rw [Db.signals, Db.signals, List.filterMap_filterMap]
  refine List.filterMap_congr fun event _ => ?_
  by_cases type : event.eventType = "factionPresenceChanged"
  · rw [presenceChanged?, if_pos type]
    rfl
  · have other : event.eventType ≠ factionPresenceChangedEvent := type
    rw [presenceChanged?, if_neg type, watchPresence, OutboxInsert.factionPresenceChanged?,
      if_neg other]
    rfl

/-! ## Publications -/

/-- The relay publishes the change that a row reports. -/
theorem relayed_presence (systemId factionId : Uuid) :
    Relayed (K := K) (watchPresence systemId factionId) (hearPresence systemId factionId) := by
  refine relayed_of_built .factionPresenceChanged (by decide)
    (fun event other => ?_) (fun payload other => ?_) fun row built type made => ?_
  · have type : event.eventType ≠ factionPresenceChangedEvent := other
    rw [watchPresence, OutboxInsert.factionPresenceChanged?, if_neg type]
    rfl
  · cases payload with
    | factionPresenceChanged payload => exact absurd rfl other
    | systemPowerplayUpdated | factionStateChanged | factionControlThreatChanged => rfl
  · have type' : row.eventType = factionPresenceChangedEvent := type
    obtain ⟨target, one, listed⟩ := bind_eq_ok.mp made
    cases listed
    have read : watchPresence systemId factionId row.toOutboxInsert =
        ((parseFactionPresenceChangedOutboxPayload row.payload).filter fun payload =>
          payload.systemId = systemId.toText ∧ payload.factionId = factionId.toText).map
          FactionPresenceChangedOutboxPayload.change := by
      rw [watchPresence, OutboxInsert.factionPresenceChanged?, if_pos type']
    unfold buildFactionPresenceChangedPublishTarget at one
    cases parsed : parseFactionPresenceChangedOutboxPayload row.payload with
    | none =>
        rw [parsed] at one read
        cases one
        simp [read]
    | some payload =>
        rw [parsed] at one read
        obtain ⟨timestamp, -, made⟩ := bind_eq_ok.mp one
        cases made
        rw [read]
        refine ⟨fun _ => List.cons_ne_nil _ _, fun target member => ?_⟩
        obtain rfl := List.mem_singleton.mp member
        simp only [hearPresence, Option.filter_some, decide_eq_true_eq]
        split <;> rfl

/-! ## The last change -/

section Presence

variable [Field K] [LinearOrder K] {P : Platform K} {db db' : Db P} {env : TxEnv}

theorem watchPresence_presenceEvents (systemId factionId system : Uuid)
    (change : FactionPresenceChange) {factionIds : List Uuid} (distinct : factionIds.Nodup) :
    (factionIds.map (presenceEvent (K := K) system change.label)).filterMap
        (watchPresence systemId factionId) =
      if system = systemId ∧ factionId ∈ factionIds then [change] else [] := by
  rw [List.filterMap_map]
  simp only [Function.comp_def, watchPresence_presenceEvent]
  by_cases here : system = systemId
  · simp only [here, if_true, true_and]
    exact filterMap_of_nodup distinct factionId change
  · simp [here]

/-- What a reader of one faction in one system is told. -/
theorem PresenceTold.signals {system : Uuid} (told : PresenceTold system db db')
    (systemId factionId : Uuid) :
    db'.signals (watchPresence systemId factionId) =
      db.signals (watchPresence systemId factionId) ++
        (if system = systemId ∧ factionId ∈ db'.membership system ∧
          factionId ∉ db.membership system then [.entered] else []) ++
        (if system = systemId ∧ factionId ∈ db.membership system ∧
          factionId ∉ db'.membership system then [.left] else []) := by
  have before : (db.membership system).Nodup := nodup_membership system
  have after : (db'.membership system).Nodup := nodup_membership system
  have entered := watchPresence_presenceEvents (K := K) systemId factionId system .entered
    (after.filter fun factionId => factionId ∉ db.membership system)
  have left := watchPresence_presenceEvents (K := K) systemId factionId system .left
    (before.filter fun factionId => factionId ∉ db'.membership system)
  simp only [FactionPresenceChange.label, List.mem_filter, decide_eq_true_eq] at entered left
  rw [signals_watchPresence, told, List.filterMap_append, List.filterMap_append, entered, left,
    ← signals_watchPresence]

/-- A faction is in a system exactly when the last change is that it entered. -/
def Db.TellsPresence (db : Db P) : Prop :=
  ∀ systemId factionId, factionId ∈ db.membership systemId ↔
    (db.signals (watchPresence systemId factionId)).getLast? = some .entered

/-- When the presence of one system changes as it is told, the last change is right again. -/
theorem Db.TellsPresence.told (tells : db.TellsPresence) {system : Uuid}
    (told : PresenceTold system db db')
    (others : (db'.systemFactions.rows.filter fun row => row.systemId ≠ system) =
      db.systemFactions.rows.filter fun row => row.systemId ≠ system) : db'.TellsPresence := by
  intro systemId factionId
  rw [told.signals]
  by_cases here : system = systemId
  · subst here
    have before := tells system factionId
    by_cases was : factionId ∈ db.membership system <;>
      by_cases is : factionId ∈ db'.membership system <;> simp [was, is] <;> simpa [was] using before
  · have elsewhere : ∀ db : Db P, db.membership systemId =
        ((db.systemFactions.rows.filter fun row => row.systemId ≠ system).filter
          fun row => row.systemId = systemId).map SystemFactionRow.factionId := by
      intro db
      rw [Db.membership, List.filter_filter]
      refine congrArg _ (List.filter_congr fun row _ => ?_)
      by_cases same : row.systemId = systemId
      · simp [same, Ne.symm here]
      · simp [same]
    have same : db'.membership systemId = db.membership systemId := by
      rw [elsewhere, elsewhere, others]
    rw [same, tells systemId factionId]
    simp [here]

/-- A helper that does not touch the presence and shows nothing of it. -/
theorem Db.TellsPresence.congr (tells : db.TellsPresence)
    (rows : db'.systemFactions = db.systemFactions)
    (signals : db'.signals presenceChanged? = db.signals presenceChanged?) :
    db'.TellsPresence := by
  intro systemId factionId
  have same : db'.membership systemId = db.membership systemId := by
    rw [Db.membership, Db.membership, rows]
  rw [same, signals_watchPresence, signals, ← signals_watchPresence]
  exact tells systemId factionId

/-- **The log tells who is present**, in every database that the worker can leave. -/
theorem WorkerReachable.tellsPresence (reachable : WorkerReachable db) : db.TellsPresence := by
  have threats : Ignores (K := K) presenceChanged? "factionControlThreatChanged" :=
    ignores_presenceChanged? (by decide)
  have powerplay : Ignores (K := K) presenceChanged? "systemPowerplayUpdated" :=
    ignores_presenceChanged? (by decide)
  refine reachable.of_stages (fun systemId factionId => ?_) fun env before after tells stage => ?_
  · simp [Db.empty, Db.membership, Db.signals, Table.empty]
  · cases stage with
    | system done =>
        exact tells.congr (by rw [frame_upsertSystem done])
          (signals_upsertSystem threats powerplay done)
    | powerplay done =>
        exact tells.congr (by rw [frame_processPowerplayData done])
          (Db.signals_congr (by rw [frame_processPowerplayData done]))
    | @factions message systemId done =>
        by_cases nobody : message.factions.getD [] = []
        · obtain ⟨-, rfl⟩ | ⟨somebody, -⟩ := of_processFactionsData done
          · exact tells
          · exact absurd nobody somebody
        · obtain ⟨-, told, others, -⟩ := mirrors_processFactionsData nobody done
          exact tells.told told others
    | stationFaction done =>
        exact tells.congr (by rw [frame_upsertFactions done])
          (Db.signals_congr (by rw [frame_upsertFactions done]))
    | station done =>
        exact tells.congr (by rw [(stationSteps_upsertStation done).onlyStations.frame])
          (Db.signals_congr (by rw [(stationSteps_upsertStation done).onlyStations.frame]))

end Presence

end EliteHubVault
