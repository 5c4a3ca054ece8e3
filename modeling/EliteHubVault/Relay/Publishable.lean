import EliteHubVault.Lifecycle.ConflictEvents
import EliteHubVault.Lifecycle.StateEvents
import EliteHubVault.Relay.Rows
import EliteHubVault.Worker.NetThreat
import EliteHubVault.Worker.Outbox

/-!
# Every row that a trigger writes is publishable

The payloads of the triggers are built in SQL, with columns that can be null, and read by
schemas with required properties. `Accepted` says that the schema of its event type reads the
payload of an event; such a row is published to some target (`Accepted.targets`).

A `cleared` event takes the faction, the challenger and the gap from the previous row of the
threat table. They are not null because a row that is threatened has all three
(`ControlThreatRow.Complete`), in every database that the worker can reach.
-/

set_option autoImplicit false

namespace EliteHubVault

open Library

variable {K : Type}

/-! ## Events that the schemas read -/

/-- The schema of its type reads the payload of the event. -/
inductive OutboxInsert.Accepted (event : OutboxInsert K) : Prop where
  | systemPowerplayUpdated (type : event.eventType = systemPowerplayUpdatedEvent)
      (parsed : (parseSystemPowerplayUpdatedOutboxPayload event.payload).isSome)
  | factionPresenceChanged (type : event.eventType = factionPresenceChangedEvent)
      (parsed : (parseFactionPresenceChangedOutboxPayload event.payload).isSome)
  | factionStateChanged (type : event.eventType = factionStateChangedEvent)
      (parsed : (parseFactionStateChangedOutboxPayload event.payload).isSome)
  | factionControlThreatChanged (type : event.eventType = factionControlThreatChangedEvent)
      (parsed : (parseFactionControlThreatChangedOutboxPayload event.payload).isSome)

/-- The target of a powerplay update for one power. -/
def powerTarget (payload : SystemPowerplayUpdatedOutboxPayload K) (timestamp powerId : String) :
    PublishTarget K where
  channel := getSystemPowerplayUpdatedPowerChannel powerId
  payload := .systemPowerplayUpdated
    { systemId := payload.systemId, powerId
      changedFields := filterSystemPowerplayChangedFields payload.changedFields
      timestamp, metadata := payload.metadata.getD [] }

/-- A powerplay update has one target for each power. -/
theorem pushSystemPowerplayPublishTargets_eq {outboxPayload : Json K} {createdAt : Timestamp}
    {payload : SystemPowerplayUpdatedOutboxPayload K} {timestamp : String}
    (parsed : parseSystemPowerplayUpdatedOutboxPayload outboxPayload = some payload)
    (valid : timestampFromCreatedAt createdAt = .ok timestamp) (powerIds : List String)
    (targets : List (PublishTarget K)) :
    pushSystemPowerplayPublishTargets outboxPayload createdAt targets powerIds =
      .ok (targets ++ powerIds.map (powerTarget payload timestamp)) := by
  induction powerIds generalizing targets with
  | nil => simp [pushSystemPowerplayPublishTargets, pure, Except.pure]
  | cons powerId rest ih =>
      have built : buildSystemPowerplayUpdatedPowerScopedPayload outboxPayload createdAt powerId =
          .ok (some
            { systemId := payload.systemId, powerId
              changedFields := filterSystemPowerplayChangedFields payload.changedFields
              timestamp, metadata := payload.metadata.getD [] }) := by
        simp only [buildSystemPowerplayUpdatedPowerScopedPayload, parsed, valid]
        rfl
      rw [pushSystemPowerplayPublishTargets, built]
      refine (ih _).trans ?_
      rw [List.append_assoc, List.map_cons]
      rfl

/-- **A row that the schema reads has a target.** -/
theorem OutboxInsert.Accepted.targets {event : OutboxInsert K} (accepted : event.Accepted)
    {createdAt : Timestamp} (valid : ValidCreatedAt createdAt) {powerIds : Option (List String)}
    (powers : event.eventType = systemPowerplayUpdatedEvent → powerIds.getD [] ≠ []) :
    ∃ targets, buildPublishTargetsForOutboxRow event.eventType event.payload createdAt powerIds =
      .ok (some targets) ∧ targets ≠ [] := by
  obtain ⟨timestamp, time⟩ := exists_timestampFromCreatedAt valid
  cases accepted with
  | systemPowerplayUpdated type parsed =>
      obtain ⟨payload, parsed⟩ := Option.isSome_iff_exists.mp parsed
      refine ⟨(powerIds.getD []).map (powerTarget payload timestamp), ?_, by simpa using powers type⟩
      rw [buildPublishTargetsForOutboxRow, if_pos type, buildSystemPowerplayPublishTargets,
        pushSystemPowerplayPublishTargets_eq parsed time]
      rfl
  | factionPresenceChanged type parsed =>
      obtain ⟨payload, parsed⟩ := Option.isSome_iff_exists.mp parsed
      simp only [type, buildPublishTargetsForOutboxRow, if_neg (by decide : ¬
        factionPresenceChangedEvent = systemPowerplayUpdatedEvent), if_true,
        buildFactionPresenceChangedPublishTarget, parsed, time]
      exact ⟨_, rfl, List.cons_ne_nil _ _⟩
  | factionStateChanged type parsed =>
      obtain ⟨payload, parsed⟩ := Option.isSome_iff_exists.mp parsed
      simp only [type, buildPublishTargetsForOutboxRow, if_neg (by decide : ¬
        factionStateChangedEvent = systemPowerplayUpdatedEvent), if_neg (by decide : ¬
        factionStateChangedEvent = factionPresenceChangedEvent), if_true,
        buildFactionStateChangedPublishTarget, parsed, time]
      exact ⟨_, rfl, List.cons_ne_nil _ _⟩
  | factionControlThreatChanged type parsed =>
      obtain ⟨payload, parsed⟩ := Option.isSome_iff_exists.mp parsed
      simp only [type, buildPublishTargetsForOutboxRow, if_neg (by decide : ¬
        factionControlThreatChangedEvent = systemPowerplayUpdatedEvent), if_neg (by decide : ¬
        factionControlThreatChangedEvent = factionPresenceChangedEvent), if_neg (by decide : ¬
        factionControlThreatChangedEvent = factionStateChangedEvent), if_true,
        buildFactionControlThreatChangedPublishTarget, parsed, time]
      exact ⟨_, rfl, List.cons_ne_nil _ _⟩

/-- The relay discards a row that the schema reads only for want of powers. -/
theorem OutboxInsert.Accepted.discarded {row : OutboxRow K} (accepted : row.Accepted)
    (valid : ValidCreatedAt row.createdAt) {powers : List SystemPowerplayPowerRow}
    {result : DiscardRowResult}
    (prepared : prepareRowForPublishing powers row = .ok (.discard result)) :
    result.reason = "[EventOutboxRelay] Skipping powerplay outbox row with no mapped powers" := by
  obtain ⟨powerIdsResult, resolved, prepared⟩ := bind_eq_ok.mp prepared
  -- With these powers, or none for another type, some target is built.
  have published : ∀ powerIds, powerIdsResult = .ok powerIds →
      (row.eventType = systemPowerplayUpdatedEvent → powerIds.getD [] ≠ []) → False := by
    rintro powerIds rfl nonempty
    obtain ⟨targets, built, some_⟩ := accepted.targets valid nonempty
    obtain ⟨found, same, prepared⟩ := bind_eq_ok.mp prepared
    cases built.symm.trans same
    cases targets with
    | nil => exact some_ rfl
    | cons first rest => cases prepared
  unfold resolvePowerIds at resolved
  split at resolved
  · rename_i other
    cases resolved
    exact absurd (fun type => absurd type other) (published none rfl)
  · rename_i powerplay
    cases accepted with
    | systemPowerplayUpdated type parsed =>
        obtain ⟨payload, parsed⟩ := Option.isSome_iff_exists.mp parsed
        rw [parsed] at resolved
        obtain ⟨systemId, -, resolved⟩ := bind_eq_ok.mp resolved
        simp only at resolved
        split at resolved
        · cases resolved
          cases prepared
          rfl
        · rename_i mapped
          cases resolved
          refine absurd (fun _ => ?_) (published _ rfl)
          simpa using mapped
    | factionPresenceChanged type parsed => exact absurd (by rw [type]; decide) powerplay
    | factionStateChanged type parsed => exact absurd (by rw [type]; decide) powerplay
    | factionControlThreatChanged type parsed => exact absurd (by rw [type]; decide) powerplay

/-! ## What the triggers write -/

theorem accepted_factionPresenceChanged {change : Change SystemFactionRow} {event : OutboxInsert K}
    (member : event ∈ enqueueFactionPresenceChangedEvent change) : event.Accepted := by
  cases change with
  | update old new => cases member
  | insert new | delete old =>
      obtain rfl := List.mem_singleton.mp member
      refine .factionPresenceChanged rfl ?_
      simp [parseFactionPresenceChangedOutboxPayload, Json.required, Json.requiredEnum,
        Json.field?_cons, Json.ofUuid, Json.asString?, factionPresenceChangeSchema, zodEnum,
        FactionPresenceChange.label]

/-- An event whose payload a subscriber of states and conflicts can read. -/
theorem accepted_of_factionStateChanged? {event : OutboxInsert K}
    {payload : FactionStateChangedOutboxPayload}
    (read : event.factionStateChanged? = some payload) : event.Accepted := by
  obtain ⟨type, parsed⟩ := Option.ite_none_right_eq_some.mp read
  exact .factionStateChanged type (Option.isSome_iff_exists.mpr ⟨payload, parsed⟩)

theorem accepted_factionStateChanged {change : Change (FactionStateRow K)} {event : OutboxInsert K}
    (member : event ∈ enqueueFactionStateChangedEvents change) : event.Accepted := by
  obtain ⟨systemId, factionId, lifecycle, state, rfl⟩ : ∃ (systemId factionId : Uuid)
      (lifecycle : FactionStateLifecycle) (state : FactionState),
        event = factionStateEvent systemId factionId lifecycle.label state := by
    cases change <;> exact ⟨_, _, of_mem_emitFactionStateLifecycleEvents member⟩
  exact accepted_of_factionStateChanged?
    (factionStateChanged?_factionStateEvent systemId factionId lifecycle state)

theorem accepted_factionConflictChanged {change : Change (FactionConflictRow K)}
    {event : OutboxInsert K} (member : event ∈ enqueueFactionConflictChangedEvents change) :
    event.Accepted := by
  obtain ⟨row, -, lifecycle, rfl⟩ := of_mem_enqueueFactionConflictChangedEvents member
  exact accepted_of_factionStateChanged? (factionStateChanged?_conflictEvent row lifecycle)

theorem asStrings?_map_string (texts : List String) :
    (Json.array (texts.map .string) : Json K).asStrings? = some texts := by
  rw [Json.asStrings?]
  induction texts with
  | nil => rfl
  | cons text rest ih =>
      rw [List.map_cons, List.mapM_cons, ih]
      rfl

theorem accepted_systemPowerplayUpdated [DecidableEq K] {old new : SystemRow K}
    {event : OutboxInsert K} (member : event ∈ enqueueSystemPowerplayUpdatedEvent old new) :
    event.Accepted := by
  unfold enqueueSystemPowerplayUpdatedEvent at member
  extract_lets changedFields at member
  by_cases unchanged : changedFields = []
  · rw [if_pos unchanged] at member
    cases member
  · rw [if_neg unchanged, List.mem_singleton] at member
    subst member
    refine .systemPowerplayUpdated rfl ?_
    simp [parseSystemPowerplayUpdatedOutboxPayload, Json.required, Json.optional, Json.field?_cons,
      Json.ofUuid, Json.asString?, Json.asRecord?, asStrings?_map_string]

/-! ## The threat table -/

/-- A threatened row knows the faction, the challenger and the gap. -/
def ControlThreatRow.Complete (row : ControlThreatRow K) : Prop :=
  row.isThreatened = true → ∃ faction challenger gap, row.factionId = some faction ∧
    row.challengerFactionId = some challenger ∧ row.gap = some gap

section Threats

variable [Field K]

theorem accepted_controlThreatEvent (systemId faction challenger : Uuid) (gap : K)
    (status : FactionControlThreatStatus) :
    (controlThreatEvent systemId (some faction) status.label (some challenger) (some gap)).Accepted := by
  refine .factionControlThreatChanged rfl ?_
  cases status <;>
    simp [controlThreatEvent, parseFactionControlThreatChangedOutboxPayload, Json.required,
      Json.requiredEnum, Json.field?_cons, Json.ofNullable, Json.ofUuid, Json.asString?,
      Json.asNumber?, factionControlThreatStatusSchema, zodEnum, FactionControlThreatStatus.label]

/-- Rows that are complete give events with all properties. -/
theorem accepted_controlThreatEvents {systemId : Uuid} {previous : Option (ControlThreatRow K)}
    {row : ControlThreatRow K} (known : ∀ before, previous = some before → before.Complete)
    (complete : row.Complete) {event : OutboxInsert K}
    (member : event ∈ controlThreatEvents systemId previous row) : event.Accepted := by
  have entered : row.isThreatened = true → (controlThreatEvent systemId row.factionId "entered"
      row.challengerFactionId row.gap).Accepted := by
    intro threatened
    obtain ⟨faction, challenger, gap, sameFaction, sameChallenger, sameGap⟩ := complete threatened
    rw [sameFaction, sameChallenger, sameGap]
    exact accepted_controlThreatEvent systemId faction challenger gap .entered
  unfold controlThreatEvents at member
  cases previous with
  | none =>
      simp only at member
      split at member
      · rename_i threatened
        exact List.mem_singleton.mp member ▸ entered threatened
      · cases member
  | some before =>
      simp only at member
      split at member
      · rename_i changed
        split at member
        · rename_i threatened
          exact List.mem_singleton.mp member ▸ entered threatened
        · rename_i calm
          -- The flag was set before, so `COALESCE` finds the columns of the previous row.
          have was : before.isThreatened = true := by
            cases flag : before.isThreatened with
            | true => rfl
            | false => exact absurd (by rw [flag, Bool.eq_false_iff.mpr calm]) changed
          obtain ⟨faction, challenger, gap, sameFaction, sameChallenger, sameGap⟩ :=
            known before rfl was
          obtain rfl := List.mem_singleton.mp member
          rw [sameFaction, sameChallenger, sameGap]
          exact accepted_controlThreatEvent systemId faction challenger gap .cleared
      · cases member

variable [LinearOrder K]

/-- The row that a refresh computes is complete: without a lead it is not threatened. -/
theorem complete_controlThreatOf (now : Timestamp) (controllingFactionId : Option Uuid)
    (states : List (FactionStateRow K)) :
    (controlThreatOf now controllingFactionId states).Complete := by
  intro threatened
  cases controllingFactionId with
  | none => simp [controlThreatOf] at threatened
  | some controller =>
      cases found : states.find? fun row => row.factionId = controller with
      | none => simp [controlThreatOf, found] at threatened
      | some holder =>
          simp only [controlThreatOf, Option.bind_some, found, Option.map_some] at threatened ⊢
          cases head : ((states.filter fun row => row.factionId ≠ controller).insertionSort
              RankedBefore).head? with
          | none =>
              rw [head] at threatened
              cases threatened
          | some rival => exact ⟨controller, rival.factionId, _, rfl, rfl, rfl⟩

end Threats

/-! ## Every run of the worker -/

namespace Db

variable {P : Platform K}

/-- The schemas read every event, and the threat table is complete. -/
structure Publishable (db : Db P) : Prop where
  events : ∀ row ∈ db.eventOutbox, row.Accepted
  threats : ∀ systemId row, db.systemFactionControlThreats.get systemId = some row → row.Complete

namespace Publishable

variable {db : Db P}

theorem congr {db' : Db P} (publishable : db.Publishable)
    (threats : db'.systemFactionControlThreats = db.systemFactionControlThreats)
    (eventOutbox : db'.eventOutbox = db.eventOutbox) : db'.Publishable :=
  ⟨eventOutbox ▸ publishable.events, threats ▸ publishable.threats⟩

theorem enqueue (publishable : db.Publishable) (now : Timestamp) {inserts : List (OutboxInsert K)}
    (accepted : ∀ event ∈ inserts, event.Accepted) : (db.enqueue now inserts).Publishable := by
  refine ⟨fun row member => ?_, publishable.threats⟩
  rcases List.mem_append.mp member with old | new
  · exact publishable.events row old
  · obtain ⟨event, inInserts, rfl⟩ := List.mem_map.mp new
    exact accepted event inInserts

variable [Field K] [LinearOrder K]

theorem refresh (publishable : db.Publishable) (now : Timestamp) (systemId : Uuid) :
    (db.refreshSystemFactionControlThreat now systemId).Publishable := by
  have complete : (db.currentControlThreat now systemId).Complete :=
    complete_controlThreatOf now _ _
  have grown : (db.enqueue now (controlThreatEvents systemId
      (db.systemFactionControlThreats.get systemId)
      (db.currentControlThreat now systemId))).Publishable :=
    publishable.enqueue now fun event member => accepted_controlThreatEvents
      (fun before known => publishable.threats systemId before known) complete member
  refine ⟨grown.events, fun other row known => ?_⟩
  rw [threats_refresh, OrderedMap.get_set] at known
  split at known
  · exact Option.some.inj known ▸ complete
  · exact publishable.threats other row known

theorem foldl_refresh (now : Timestamp) (ids : List Uuid) {db : Db P}
    (publishable : db.Publishable) :
    (ids.foldl (refreshSystemFactionControlThreat now) db).Publishable := by
  induction ids generalizing db with
  | nil => exact publishable
  | cons systemId rest ih => exact ih (publishable.refresh now systemId)

theorem afterSystems (now : Timestamp) (changes : List (Change (SystemRow K))) {db : Db P}
    (publishable : db.Publishable) : (db.afterSystems now changes).Publishable := by
  induction changes generalizing db with
  | nil => exact publishable
  | cons change rest ih =>
      refine ih ?_
      cases change with
      | insert new => exact publishable
      | delete old => exact publishable
      | update old new =>
          refine Publishable.enqueue ?_ now fun event member => accepted_systemPowerplayUpdated member
          split
          · exact publishable.refresh now new.id
          · exact publishable

/-- Every statement with its triggers keeps the outbox publishable. -/
theorem statement {now : Timestamp} {db' : Db P} (publishable : db.Publishable)
    (step : StatementStep now db db') : db'.Publishable := by
  cases step with
  | factionStates written =>
      obtain ⟨⟨table, changes⟩, -, rfl⟩ := Option.map_eq_some_iff.mp written
      refine foldl_refresh now _ (foldl_refresh now _ (foldl_refresh now _ ?_))
      have same : ({ db with factionStates := table } : Db P).Publishable := publishable.congr rfl rfl
      refine same.enqueue now fun event member => ?_
      obtain ⟨change, -, emitted⟩ := List.mem_flatMap.mp member
      exact accepted_factionStateChanged emitted
  | systems written =>
      obtain ⟨⟨table, changes⟩, -, rfl⟩ := Option.map_eq_some_iff.mp written
      exact Publishable.afterSystems now changes (publishable.congr rfl rfl)
  | systemFactions written =>
      obtain ⟨⟨table, changes⟩, -, rfl⟩ := Option.map_eq_some_iff.mp written
      have same : ({ db with systemFactions := table } : Db P).Publishable :=
        publishable.congr rfl rfl
      refine same.enqueue now fun event member => ?_
      obtain ⟨change, -, emitted⟩ := List.mem_flatMap.mp member
      exact accepted_factionPresenceChanged emitted
  | factionConflicts written =>
      obtain ⟨⟨table, changes⟩, -, rfl⟩ := Option.map_eq_some_iff.mp written
      have same : ({ db with factionConflicts := table } : Db P).Publishable :=
        publishable.congr rfl rfl
      refine same.enqueue now fun event member => ?_
      obtain ⟨change, -, emitted⟩ := List.mem_flatMap.mp member
      exact accepted_factionConflictChanged emitted
  | silent _ _ _ threats eventOutbox => exact publishable.congr threats eventOutbox

end Publishable

end Db

section Worker

variable [Field K] [LinearOrder K] {P : Platform K} {db : Db P}

/-- **Every row that the triggers write in a run of the worker is publishable**: it has a
target, and the relay discards it only when no power is mapped to the system. -/
theorem every_row_is_publishable (reachable : WorkerReachable db) {row : OutboxRow K}
    (member : row ∈ db.eventOutbox) (valid : ValidCreatedAt row.createdAt) :
    (∀ powerIds : Option (List String),
      (row.eventType = systemPowerplayUpdatedEvent → powerIds.getD [] ≠ []) →
      ∃ targets, buildPublishTargetsForOutboxRow row.eventType row.payload row.createdAt powerIds =
        .ok (some targets) ∧ targets ≠ []) ∧
    ∀ powers result, prepareRowForPublishing powers row = .ok (.discard result) →
      result.reason = "[EventOutboxRelay] Skipping powerplay outbox row with no mapped powers" := by
  have publishable : db.Publishable := reachable.invariant
    ⟨fun _ member => (nomatch member), fun _ _ known => (nomatch known)⟩
    fun _ _ _ publishable step => publishable.statement step
  have accepted := publishable.events row member
  exact ⟨fun _ powers => accepted.targets valid powers,
    fun _ _ prepared => accepted.discarded valid prepared⟩

end Worker

/-- The row that says that the threat of faction B is over has a target. -/
theorem every_row_is_publishable_sample : ∃ db : Db asciiPlatform, WorkerReachable db ∧
    ∃ row ∈ db.eventOutbox, (row.payload.field? "status").bind Json.asString? = some "cleared" ∧
      ∃ targets, buildPublishTargetsForOutboxRow row.eventType row.payload row.createdAt none =
        .ok (some targets) ∧ targets ≠ [] := by
  obtain ⟨db, reachable, seen⟩ := exists_reachable_of_execute workerStep
    (Db.empty : Db asciiPlatform)
    [(sampleEnv 1, threatenedSample.toJournal), (sampleEnv 2, replacedSample.toJournal)]
    (fun db => db.eventOutbox.any fun row => row.eventType ≠ systemPowerplayUpdatedEvent ∧
      (row.payload.field? "status").bind Json.asString? = some "cleared" ∧
      (toISOString (row.createdAt / 1000)).isSome)
    (by decide +kernel)
  obtain ⟨row, member, found⟩ := List.any_eq_true.mp seen
  obtain ⟨other, cleared, valid⟩ := of_decide_eq_true found
  exact ⟨db, reachable, row, member, cleared,
    (every_row_is_publishable reachable member valid).1 none fun type => absurd type other⟩

end EliteHubVault
