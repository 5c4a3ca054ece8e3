import EliteHubVault.Lifecycle.StateEvents
import EliteHubVault.Worker.PresenceLog

/-!
# Who is told to be in a state

The helpers of the worker execute two statements on `factionStates`, a deletion and an upsert
that keeps the keys, so the last lifecycle of a state tells whether the row lists it, in every
database that the worker can leave (`WorkerReachable.endsStates`). The relay publishes each
lifecycle to one channel (`relayed_state`).
-/

set_option autoImplicit false
set_option linter.unusedSectionVars false

namespace EliteHubVault

open Library

variable {K : Type}

/-! ## Publications -/

/-- The lifecycle that a published payload reports of a state. -/
def hearState (systemId factionId : Uuid) (state : FactionState) :
    RealtimePayload K → Option FactionStateLifecycle
  | .factionStateChanged payload =>
      if payload.stateKind = .state ∧ payload.systemId = systemId.toText ∧
          payload.factionId = factionId.toText ∧ payload.state = state.label then
        some payload.lifecycle
      else none
  | _ => none

/-- The relay publishes the lifecycle that a row reports. -/
theorem relayed_state (systemId factionId : Uuid) (state : FactionState) :
    Relayed (K := K) (watchState systemId factionId state)
      (hearState systemId factionId state) := by
  refine relayed_of_built .factionStateChanged (by decide)
    (fun event other => ignores_watchState other systemId factionId state event rfl)
    (fun payload other => ?_) fun row built type made => ?_
  · cases payload with
    | factionStateChanged payload => exact absurd rfl other
    | systemPowerplayUpdated | factionPresenceChanged | factionControlThreatChanged => rfl
  · have type' : row.eventType = factionStateChangedEvent := type
    obtain ⟨target, one, listed⟩ := bind_eq_ok.mp made
    cases listed
    have read : watchState systemId factionId state row.toOutboxInsert =
        ((parseFactionStateChangedOutboxPayload row.payload).filter fun payload =>
          payload.stateKind = .state ∧ payload.systemId = systemId.toText ∧
            payload.factionId = factionId.toText ∧ payload.state = state.label).map
          FactionStateChangedOutboxPayload.lifecycle := by
      rw [watchState, OutboxInsert.factionStateChanged?, if_pos type']
    unfold buildFactionStateChangedPublishTarget at one
    cases parsed : parseFactionStateChangedOutboxPayload row.payload with
    | none =>
        rw [parsed] at one read
        cases one
        simp [read]
    | some payload =>
        rw [parsed] at one read
        obtain ⟨timestamp, -, made⟩ := bind_eq_ok.mp one
        cases made
        rw [read]
        refine ⟨fun _ => List.cons_ne_nil _ _, fun target member => ?_⟩
        obtain rfl := List.mem_singleton.mp member
        simp only [hearState, Option.filter_some, decide_eq_true_eq]
        split <;> rfl

/-! ## The last lifecycle -/

section States

variable [Field K] [LinearOrder K] {P : Platform K} {db db' : Db P} {env : TxEnv}

/-- The row of a faction in a system lists the state, as pending or as active. -/
def Db.Lists (factionId systemId : Uuid) (state : FactionState) (db : Db P) : Prop :=
  state ∈ pendingOf (db.stateRow factionId systemId) ∨
    state ∈ activeOf (db.stateRow factionId systemId)

/-- A state was told to have ended, or was never told, exactly when the row does not list it. -/
def Db.EndsStates (db : Db P) : Prop :=
  ∀ systemId factionId state, EndsRightly state (db.signals (watchState systemId factionId state))
    (db.stateRow factionId systemId)

/-- A helper that does not touch the states and shows nothing of them. -/
theorem Db.EndsStates.congr (ends : db.EndsStates) (rows : db'.factionStates = db.factionStates)
    (signals : ∀ systemId factionId state, db'.signals (watchState systemId factionId state) =
      db.signals (watchState systemId factionId state)) : db'.EndsStates := by
  intro systemId factionId state
  rw [signals, Db.stateRow, rows]
  exact ends systemId factionId state

/-- A statement that changes the row of each key once. -/
theorem Db.EndsStates.write (ends : db.EndsStates) {now : Timestamp}
    {outcome : List (FactionStateRow K) × List (Change (FactionStateRow K))}
    (written : db.writeFactionStates now outcome = some db')
    (edits : ∀ k, EditsAt FactionStateRow.key db.factionStates.rows outcome k) :
    db'.EndsStates := by
  intro systemId factionId state
  rw [Db.signals_writeFactionStates (ignores_watchState (by decide) systemId factionId state) written,
    Db.stateRow, (Db.of_writeFactionStates written).1]
  exact (announces_endsRightly systemId factionId state).statement (edits (factionId, systemId))
    (fun _ _ => trivial) (fun _ _ => trivial) (ends systemId factionId state)

theorem Db.EndsStates.cleanup (ends : db.EndsStates) {systemId : Uuid} {factionIds : List Uuid}
    (done : cleanupFactionStates env systemId factionIds db = .ok db') : db'.EndsStates :=
  ends.write (orFail_eq_ok.mp done) fun k => editsAt_deleteRows (distinctFactionStates db) k

theorem Db.EndsStates.upsert (ends : db.EndsStates) {systemId : Uuid}
    {factions : List (FactionElement K)} {factionIdMap : OrderedMap String Uuid}
    (done : upsertFactionStates env systemId factions factionIdMap db = .ok db') :
    db'.EndsStates := by
  obtain ⟨proposed, -, done⟩ := bind_eq_ok.mp done
  obtain ⟨outcome, upserted, written⟩ := bind_eq_ok.mp done
  have written := orFail_eq_ok.mp written
  have distinct : (outcome.1.map FactionStateRow.key).Nodup := by
    rw [← (Db.of_writeFactionStates written).1]
    exact distinctFactionStates db'
  have kept : ∀ wanted ∈ proposed, ∀ row ∈ db.factionStates.rows,
      (FactionStateRow.setExcluded (env.newDate .upsertFactionStates) row wanted).key = row.key :=
    fun _ _ _ _ => rfl
  exact ends.write written fun k =>
    editsAt_upsertRows kept distinct (orFail_eq_ok.mp upserted) k

theorem unseen_watchState (systemId factionId : Uuid) (state : FactionState)
    (change : Change (FactionConflictRow K)) :
    (enqueueFactionConflictChangedEvents change).filterMap (watchState systemId factionId state) =
      [] := by
  refine List.filterMap_eq_nil_iff.mpr fun event member => ?_
  obtain ⟨row, -, lifecycle, rfl⟩ := of_mem_enqueueFactionConflictChangedEvents member
  exact watchState_conflictEvent systemId factionId state row lifecycle

/-- **The log tells which states are listed**, in every database that the worker can leave. -/
theorem WorkerReachable.endsStates (reachable : WorkerReachable db) : db.EndsStates := by
  have ignores : ∀ {eventType : String}, eventType ≠ "factionStateChanged" →
      ∀ systemId factionId state, Ignores (K := K) (watchState systemId factionId state) eventType :=
    fun other systemId factionId state => ignores_watchState other systemId factionId state
  refine reachable.of_stages (fun systemId factionId state => ?_)
    fun env before after ends stage => ?_
  · simp [EndsRightly, Db.empty, Db.signals, Db.stateRow, Table.empty, rowAt, pendingOf, activeOf]
  · cases stage with
    | system done =>
        exact ends.congr (by rw [frame_upsertSystem done]) fun systemId factionId state =>
          signals_upsertSystem (ignores (by decide) systemId factionId state)
            (ignores (by decide) systemId factionId state) done
    | powerplay done =>
        exact ends.congr (by rw [frame_processPowerplayData done]) fun _ _ _ =>
          Db.signals_congr (by rw [frame_processPowerplayData done])
    | factions done =>
        obtain ⟨-, rfl⟩ | ⟨-, stored, factions, present, cleaned, synced, states, upserted,
          presence, cleanup, sync, state, conflicts⟩ := of_processFactionsData done
        · exact ends
        · have first : stored.EndsStates := ends.congr (by rw [frame_upsertFactions upserted])
            fun _ _ _ => Db.signals_congr (by rw [frame_upsertFactions upserted])
          have second : present.EndsStates := first.congr
            (by rw [frame_upsertSystemFactions presence]) fun systemId factionId state =>
              signals_upsertSystemFactions (ignores (by decide) systemId factionId state) presence
          have third : synced.EndsStates := (second.cleanup cleanup).congr
            (by rw [frame_syncSystemControllingFaction sync]) fun systemId factionId state =>
              signals_syncSystemControllingFaction (ignores (by decide) systemId factionId state)
                (ignores (by decide) systemId factionId state) sync
          exact (third.upsert state).congr (by rw [frame_upsertFactionConflicts conflicts])
            fun systemId factionId state => signals_upsertFactionConflicts
              (unseen_watchState systemId factionId state) conflicts
    | stationFaction done =>
        exact ends.congr (by rw [frame_upsertFactions done]) fun _ _ _ =>
          Db.signals_congr (by rw [frame_upsertFactions done])
    | station done =>
        exact ends.congr (by rw [(stationSteps_upsertStation done).onlyStations.frame])
          fun _ _ _ => Db.signals_congr (by
            rw [(stationSteps_upsertStation done).onlyStations.frame])

/-- The row lists a state exactly when the last lifecycle is not that it ended. -/
theorem WorkerReachable.lists_iff (reachable : WorkerReachable db) {systemId factionId : Uuid}
    {state : FactionState} : db.Lists factionId systemId state ↔
      (db.signals (watchState systemId factionId state)).getLast?.elim False (· ≠ .ended) := by
  have ends := reachable.endsStates systemId factionId state
  rw [EndsRightly] at ends
  rw [Db.Lists, ← not_iff_not, not_or, ← ends]
  cases (db.signals (watchState systemId factionId state)).getLast? with
  | none => simp
  | some lifecycle => simp

end States

end EliteHubVault
