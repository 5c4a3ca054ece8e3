import EliteHubVault.Lifecycle.Signals
import EliteHubVault.Relay.Realtime

/-!
# What a subscriber learns about states and conflicts

A subscriber reads the payload of an event with the schema of the contracts. It follows one
state of a faction in a system (`watchState`) or one type of conflict of a faction with an
opponent in a system (`watchConflict`) and keeps the last lifecycle.
-/

set_option autoImplicit false

namespace EliteHubVault

open Library

variable {K : Type}

/-! ## Reading an event -/

/-- The payload of a `factionStateChanged` event. -/
def OutboxInsert.factionStateChanged? (event : OutboxInsert K) :
    Option FactionStateChangedOutboxPayload :=
  if event.eventType = factionStateChangedEvent then
    parseFactionStateChangedOutboxPayload event.payload
  else none

/-- The lifecycle that an event reports of a state. -/
def watchState (systemId factionId : Uuid) (state : FactionState) (event : OutboxInsert K) :
    Option FactionStateLifecycle :=
  (event.factionStateChanged?.filter fun payload =>
    payload.stateKind = .state ∧ payload.systemId = systemId.toText ∧
      payload.factionId = factionId.toText ∧ payload.state = state.label).map
    FactionStateChangedOutboxPayload.lifecycle

/-- The lifecycle that an event reports of a type of conflict with an opponent. -/
def watchConflict (systemId factionId : Uuid) (opponentFactionId : Option Uuid)
    (type : FactionConflictType) (event : OutboxInsert K) : Option FactionStateLifecycle :=
  (event.factionStateChanged?.filter fun payload =>
    payload.stateKind = .conflict ∧ payload.systemId = systemId.toText ∧
      payload.factionId = factionId.toText ∧
      payload.opponentFactionId = opponentFactionId.map Uuid.toText ∧
      payload.state = type.label).map
    FactionStateChangedOutboxPayload.lifecycle

theorem factionStateChanged?_of_other {event : OutboxInsert K}
    (other : event.eventType ≠ "factionStateChanged") : event.factionStateChanged? = none :=
  if_neg other

theorem ignores_watchState {eventType : String} (other : eventType ≠ "factionStateChanged")
    (systemId factionId : Uuid) (state : FactionState) :
    Ignores (K := K) (watchState systemId factionId state) eventType := by
  rintro event rfl
  rw [watchState, factionStateChanged?_of_other other]
  rfl

theorem ignores_watchConflict {eventType : String} (other : eventType ≠ "factionStateChanged")
    (systemId factionId : Uuid) (opponentFactionId : Option Uuid) (type : FactionConflictType) :
    Ignores (K := K) (watchConflict systemId factionId opponentFactionId type) eventType := by
  rintro event rfl
  rw [watchConflict, factionStateChanged?_of_other other]
  rfl

/-! ## The events of states -/

theorem FactionState.label_injective : Function.Injective FactionState.label := by
  intro state state' same
  cases state <;> cases state' <;> first | rfl | simp [FactionState.label] at same

/-- Every event of a change is one of a state, with a lifecycle. -/
theorem of_mem_enqueueFactionStateChangedEvents {change : Change (FactionStateRow K)}
    {event : OutboxInsert K} (member : event ∈ enqueueFactionStateChangedEvents change) :
    ∃ (systemId factionId : Uuid) (lifecycle : FactionStateLifecycle) (state : FactionState),
      event = factionStateEvent systemId factionId lifecycle.label state := by
  have emitted : ∀ systemId factionId oldPending oldActive newPending newActive,
      event ∈ emitFactionStateLifecycleEvents systemId factionId oldPending oldActive newPending
        newActive → ∃ (lifecycle : FactionStateLifecycle) (state : FactionState),
          event = factionStateEvent systemId factionId lifecycle.label state := by
    intro systemId factionId oldPending oldActive newPending newActive member
    simp only [emitFactionStateLifecycleEvents, List.mem_append, List.mem_map] at member
    obtain (⟨state, -, rfl⟩ | ⟨state, -, rfl⟩) | ⟨state, -, rfl⟩ := member
    · exact ⟨.pending, state, rfl⟩
    · exact ⟨.active, state, rfl⟩
    · exact ⟨.ended, state, rfl⟩
  cases change with
  | insert new => exact ⟨_, _, emitted _ _ _ _ _ _ member⟩
  | update old new => exact ⟨_, _, emitted _ _ _ _ _ _ member⟩
  | delete old => exact ⟨_, _, emitted _ _ _ _ _ _ member⟩

theorem factionStateChanged?_factionStateEvent (systemId factionId : Uuid)
    (lifecycle : FactionStateLifecycle) (state : FactionState) :
    (factionStateEvent (K := K) systemId factionId lifecycle.label state).factionStateChanged? =
      some ⟨factionId.toText, systemId.toText, .state, state.label, lifecycle, none⟩ := by
  cases lifecycle <;>
    simp [OutboxInsert.factionStateChanged?, factionStateEvent, factionStateChangedEvent,
      parseFactionStateChangedOutboxPayload, Json.required, Json.requiredEnum, Json.optional,
      Json.field?_cons, Json.ofUuid, Json.asString?, factionStateKindSchema,
      factionStateLifecycleSchema, zodEnum, FactionStateKind.label, FactionStateLifecycle.label]

theorem watchState_factionStateEvent (systemId factionId system faction : Uuid)
    (state other : FactionState) (lifecycle : FactionStateLifecycle) :
    watchState (K := K) systemId factionId state
        (factionStateEvent system faction lifecycle.label other) =
      if system = systemId ∧ faction = factionId ∧ other = state then some lifecycle else none := by
  rw [watchState, factionStateChanged?_factionStateEvent, Option.filter_some, apply_ite (Option.map _)]
  simp [Uuid.toText_injective.eq_iff, FactionState.label_injective.eq_iff]

/-! ## The events of conflicts -/

theorem FactionConflictType.label_injective : Function.Injective FactionConflictType.label := by
  intro type type' same
  cases type <;> cases type' <;> first | rfl | simp [FactionConflictType.label] at same

/-- Every event of a change is one of a version of the row, with a lifecycle. -/
theorem of_mem_enqueueFactionConflictChangedEvents {change : Change (FactionConflictRow K)}
    {event : OutboxInsert K} (member : event ∈ enqueueFactionConflictChangedEvents change) :
    ∃ row ∈ change.versions, ∃ lifecycle : FactionStateLifecycle,
      event = emitFactionConflictLifecycleEvent row lifecycle.label := by
  have begun : ∀ (status : FactionConflictStatus) (lifecycle : String),
      status.lifecycle = some lifecycle → ∃ told : FactionStateLifecycle, lifecycle = told.label := by
    intro status lifecycle known
    cases status <;> cases known
    · exact ⟨.pending, rfl⟩
    · exact ⟨.active, rfl⟩
  cases change with
  | insert new =>
      cases known : new.status.lifecycle with
      | none => simp [enqueueFactionConflictChangedEvents, Change.new?, known] at member
      | some lifecycle =>
          obtain ⟨told, rfl⟩ := begun new.status lifecycle known
          have same : event = emitFactionConflictLifecycleEvent new told.label := by
            simpa [enqueueFactionConflictChangedEvents, Change.new?, known] using member
          exact ⟨new, by simp [Change.versions], told, same⟩
  | delete old =>
      cases known : old.status.lifecycle with
      | none => simp [enqueueFactionConflictChangedEvents, Change.new?, known] at member
      | some lifecycle =>
          have same : event = emitFactionConflictLifecycleEvent old "ended" := by
            simpa [enqueueFactionConflictChangedEvents, Change.new?, known] using member
          exact ⟨old, by simp [Change.versions], .ended, same⟩
  | update old new =>
      rcases List.mem_append.mp member with early | late
      · simp only at early
        split at early
        · exact ⟨old, by simp [Change.versions], .ended, List.mem_singleton.mp early⟩
        · cases early
      · cases known : new.status.lifecycle with
        | none => simp [Change.new?, known] at late
        | some lifecycle =>
            obtain ⟨told, rfl⟩ := begun new.status lifecycle known
            simp only [Change.new?, Option.bind_some, known] at late
            split at late
            · exact ⟨new, by simp [Change.versions], told, List.mem_singleton.mp late⟩
            · cases late

theorem factionStateChanged?_conflictEvent (row : FactionConflictRow K)
    (lifecycle : FactionStateLifecycle) :
    (emitFactionConflictLifecycleEvent row lifecycle.label).factionStateChanged? =
      some ⟨row.factionId.toText, row.systemId.toText, .conflict, row.type.label, lifecycle,
        row.opponentFactionId.map Uuid.toText⟩ := by
  cases opponent : row.opponentFactionId <;> cases lifecycle <;>
    simp [OutboxInsert.factionStateChanged?, emitFactionConflictLifecycleEvent,
      factionStateChangedEvent, jsonbStripNulls, Json.ofNullable, opponent,
      parseFactionStateChangedOutboxPayload, Json.required, Json.requiredEnum, Json.optional,
      Json.field?_cons, Json.ofUuid, Json.asString?, factionStateKindSchema,
      factionStateLifecycleSchema, zodEnum, FactionStateKind.label, FactionStateLifecycle.label]

theorem watchConflict_conflictEvent (systemId factionId : Uuid) (opponentFactionId : Option Uuid)
    (type : FactionConflictType) (row : FactionConflictRow K) (lifecycle : FactionStateLifecycle) :
    watchConflict systemId factionId opponentFactionId type
        (emitFactionConflictLifecycleEvent row lifecycle.label) =
      if row.key = (systemId, factionId, opponentFactionId) ∧ row.type = type then some lifecycle
      else none := by
  rw [watchConflict, factionStateChanged?_conflictEvent, Option.filter_some,
    apply_ite (Option.map _)]
  simp [FactionConflictRow.key, Uuid.toText_injective.eq_iff,
    (Option.map_injective Uuid.toText_injective).eq_iff,
    FactionConflictType.label_injective.eq_iff, and_assoc]

/-- A subscriber of a state does not see conflicts. -/
theorem watchState_conflictEvent (systemId factionId : Uuid) (state : FactionState)
    (row : FactionConflictRow K) (lifecycle : FactionStateLifecycle) :
    watchState systemId factionId state
      (emitFactionConflictLifecycleEvent row lifecycle.label) = none := by
  simp [watchState, factionStateChanged?_conflictEvent]

/-- A subscriber of a conflict does not see states. -/
theorem watchConflict_factionStateEvent (systemId factionId system faction : Uuid)
    (opponentFactionId : Option Uuid) (type : FactionConflictType)
    (lifecycle : FactionStateLifecycle) (state : FactionState) :
    watchConflict (K := K) systemId factionId opponentFactionId type
      (factionStateEvent system faction lifecycle.label state) = none := by
  simp [watchConflict, factionStateChanged?_factionStateEvent]

end EliteHubVault
