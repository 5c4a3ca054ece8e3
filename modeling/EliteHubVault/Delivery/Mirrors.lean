import EliteHubVault.Delivery.Completeness
import EliteHubVault.Worker.StateLog

/-!
# Clients that mirror the database

A client reads the database when its connection is settled, and applies the changes that it
accepts from then on. When everything that the worker has inserted is published and has arrived,
the client is right: the last change that it was told, or what it read at first, is what the
database says. That is so for the presence of a faction in a system
(`clients_mirror_presence`) and for the states that its row lists (`clients_mirror_states`). It
needs loops that take turns and rows with increasing times, since the relay sorts by time.
-/

set_option autoImplicit false
set_option linter.unusedSectionVars false

namespace EliteHubVault

open Library

/-! ## What the client asks for -/

namespace SseConnection

variable {K ν : Type} {connection : SseConnection}

/-- The client has asked for the events of a type about a faction in a system. -/
structure AsksAbout (eventType : RealtimeEventType) (systemId factionId : Uuid)
    (connection : SseConnection) : Prop where
  eventType : connection.eventType = eventType
  routingKeys : factionId.toText ∈ connection.routingKeys
  systemIdAllowlist : ∀ systemIds, connection.systemIdAllowlist = some systemIds →
    systemId.toText ∈ systemIds

theorem AsksAbout.wants {eventType : RealtimeEventType} {systemId factionId : Uuid}
    (asks : connection.AsksAbout eventType systemId factionId) {payload : RealtimePayload K}
    (type : payload.eventType = eventType) (system : payload.systemId = systemId.toText)
    (faction : payload.routingKey = factionId.toText) : connection.Wants payload := by
  refine ⟨asks.eventType.trans type.symm, ?_, ?_, ?_⟩
  · intro empty
    have read := Uuid.uuidIn_toText factionId
    rw [← faction, empty] at read
    cases read
  · rw [faction]
    exact asks.routingKeys
  · rw [system]
    exact asks.systemIdAllowlist

theorem AsksAbout.wants_presence {systemId factionId : Uuid}
    (asks : connection.AsksAbout .factionPresenceChanged systemId factionId)
    (payload : RealtimePayload K) (heard : (hearPresence systemId factionId payload).isSome) :
    connection.Wants payload := by
  cases payload with
  | factionPresenceChanged payload =>
      rw [hearPresence] at heard
      split at heard
      · rename_i about
        exact asks.wants rfl about.1 about.2
      · cases heard
  | systemPowerplayUpdated | factionStateChanged | factionControlThreatChanged => cases heard

theorem AsksAbout.wants_state {systemId factionId : Uuid} {state : FactionState}
    (asks : connection.AsksAbout .factionStateChanged systemId factionId)
    (payload : RealtimePayload K) (heard : (hearState systemId factionId state payload).isSome) :
    connection.Wants payload := by
  cases payload with
  | factionStateChanged payload =>
      rw [hearState] at heard
      split at heard
      · rename_i about
        exact asks.wants rfl about.2.1 about.2.2.1
      · cases heard
  | systemPowerplayUpdated | factionPresenceChanged | factionControlThreatChanged => cases heard

/-- A listener that picks only from wanted payloads loses nothing. -/
theorem filterMap_wanted {hear : RealtimePayload K → Option ν}
    (wants : ∀ payload, (hear payload).isSome → connection.Wants payload)
    (publications : List (Publication K)) : (connection.wanted publications).filterMap hear =
      publications.filterMap fun publication => hear publication.target.payload := by
  rw [wanted, List.filterMap_filter, List.filterMap_map]
  refine List.filterMap_congr fun publication _ => ?_
  rw [Function.comp_apply]
  split
  · rfl
  · rename_i unwanted
    rw [decide_eq_true_eq] at unwanted
    rw [eq_comm, ← Option.not_isSome_iff_eq_none]
    exact fun heard => unwanted (wants _ heard)

end SseConnection

variable {K ν : Type} [Field K] [LinearOrder K] {P : Platform K} {codec : JsonCodec K}

namespace Deployment

variable {settled deployment deployment' : Deployment P} {connectionId : ConnectionId}
  {asked connection : SseConnection} {systemId factionId : Uuid}

/-! ## Runs in which loops take turns -/

/-- A relay loop begins a batch when no other loop has one. -/
def TakesTurns (deployment : Deployment P) : DeploymentAction K → Prop
  | .site action => deployment.site.TakesTurns action
  | _ => True

/-- Loops take turns, and Redis keeps its connection. -/
def Steady (deployment : Deployment P) (action : DeploymentAction K) : Prop :=
  deployment.TakesTurns action ∧ deployment.StaysConnected action

instance (deployment : Deployment P) :
    (action : DeploymentAction K) → Decidable (deployment.TakesTurns action)
  | .site action => inferInstanceAs (Decidable (deployment.site.TakesTurns action))
  | .deliver => .isTrue trivial
  | .broker _ => .isTrue trivial

instance (deployment : Deployment P) (action : DeploymentAction K) :
    Decidable (deployment.Steady action) := inferInstanceAs (Decidable (_ ∧ _))

/-- A step leaves the site, or is one of its steps. -/
theorem site_of_next {action : DeploymentAction K}
    (taken : deployment.next codec action = some deployment') :
    deployment'.site = deployment.site ∨ ∃ siteAction, action = .site siteAction ∧
      deployment.site.next siteAction = some deployment'.site := by
  cases action with
  | site action =>
      obtain ⟨site, stepped, rfl⟩ := Option.map_eq_some_iff.mp taken
      exact .inr ⟨action, rfl, stepped⟩
  | deliver =>
      unfold next at taken
      dsimp only at taken
      split at taken
      · cases taken
      · cases taken
        exact .inl rfl
  | broker action =>
      obtain ⟨broker, -, -, rfl⟩ := exists_broker_of_next taken
      exact .inl rfl

section Readers

variable {read : OutboxInsert K → Option ν} {hear : RealtimePayload K → Option ν}

theorem orderly_next (relayed : Relayed read hear) {action : DeploymentAction K}
    (orderly : deployment.site.Orderly read) (turn : deployment.TakesTurns action)
    (taken : deployment.next codec action = some deployment') :
    deployment'.site.Orderly read ∧
      deployment.site.db.eventOutbox <+: deployment'.site.db.eventOutbox := by
  obtain same | ⟨siteAction, rfl, stepped⟩ := site_of_next taken
  · rw [same]
    exact ⟨orderly, List.prefix_rfl⟩
  · obtain ⟨-, inserted, grown⟩ := orderly.consistent.step stepped
    exact ⟨orderly.step relayed turn stepped, grown ▸ List.prefix_append _ _⟩

/-- The site is orderly after every run, and its outbox has grown. -/
theorem orderly_of_reaches {guard : Deployment P → DeploymentAction K → Prop}
    (turns : ∀ deployment action, guard deployment action → TakesTurns deployment action)
    (relayed : Relayed read hear) (orderly : settled.site.Orderly read)
    (run : Reaches (next codec) guard settled deployment) : deployment.site.Orderly read ∧
      settled.site.db.eventOutbox <+: deployment.site.db.eventOutbox := by
  induction run with
  | start => exact ⟨orderly, List.prefix_rfl⟩
  | step _ admitted taken ih =>
      obtain ⟨later, grown⟩ := orderly_next relayed ih.1 (turns _ _ admitted) taken
      exact ⟨later, ih.2.trans grown⟩

/-- **The last that a settled client was told is the last that the database says**, or what it
said in the settled state. -/
theorem getLast?_told {db : Db P} {clock : Timestamp} {isUp : Bool} (relayed : Relayed read hear)
    (reachable : WorkerReachable db)
    (earlier : Reaches (next codec) TakesTurns (.start db clock isUp) settled)
    (settles : settled.broker.SettledConnection connectionId asked)
    (wants : ∀ payload, (hear payload).isSome → asked.Wants payload)
    (run : Reaches (next codec) Steady settled deployment)
    (inTime : InTime read deployment.site.db.eventOutbox)
    (drained : ∀ row ∈ signalRows read deployment.site.db.eventOutbox,
      row ∈ deployment.site.relay.removedRows) :
    Complete codec settled connectionId asked deployment ∧
      WorkerReachable settled.site.db ∧ WorkerReachable deployment.site.db ∧
      (deployment.site.db.signals read).getLast? =
        ((asked.wanted (deployment.site.relay.published.drop
          settled.site.relay.published.length)).filterMap hear).getLast?.or
            (settled.site.db.signals read).getLast? := by
  have complete := complete_of_reaches (earlier.mono fun _ _ _ => trivial) settles
    (run.mono fun _ _ steady => steady.2)
  have before := (orderly_of_reaches (fun _ _ turn => turn) relayed
    (Site.orderly_start reachable clock) earlier).1
  obtain ⟨orderly, outbox⟩ := orderly_of_reaches (fun _ _ steady => steady.1) relayed before run
  refine ⟨complete, before.consistent.worker, orderly.consistent.worker, ?_⟩
  rw [SseConnection.filterMap_wanted wants]
  exact orderly.getLast?_signals relayed inTime drained before outbox complete.grown

end Readers

/-! ## Mirrors -/

/-- **Clients mirror the presence of factions.** In every run in which loops take turns and Redis
keeps its connection, a connection that was settled and is open has accepted all that it asked
for once nothing is under way; and if the rows about a faction in a system have increasing times
and are all removed, the faction is in the system exactly when the last change that was published
since says so or, without any, when it was there in the settled state. -/
theorem clients_mirror_presence {db : Db P} {clock : Timestamp} {isUp : Bool}
    (reachable : WorkerReachable db)
    (earlier : Reaches (next codec) TakesTurns (.start db clock isUp) settled)
    (settles : settled.broker.SettledConnection connectionId asked)
    (asks : asked.AsksAbout .factionPresenceChanged systemId factionId)
    (run : Reaches (next codec) Steady settled deployment)
    (known : deployment.broker.connections.get connectionId = some connection)
    (isOpen : connection.isClosed = false) (quiet : deployment.inFlight = [])
    (inTime : InTime (watchPresence systemId factionId) deployment.site.db.eventOutbox)
    (drained : ∀ row ∈ signalRows (watchPresence systemId factionId)
      deployment.site.db.eventOutbox, row ∈ deployment.site.relay.removedRows) :
    connection.Hears codec
        ((settled.heard ++ settled.inFlight).drop (settled.heardBefore connectionId) ++
          deployment.site.relay.published.drop settled.site.relay.published.length) ∧
      (factionId ∈ deployment.site.db.membership systemId ↔
        ((asked.wanted (deployment.site.relay.published.drop
            settled.site.relay.published.length)).filterMap
          (hearPresence systemId factionId)).getLast?.elim
            (factionId ∈ settled.site.db.membership systemId) (· = .entered)) := by
  obtain ⟨complete, before, after, last⟩ := getLast?_told (relayed_presence systemId factionId)
    reachable earlier settles asks.wants_presence run inTime drained
  refine ⟨complete.hears known isOpen quiet, ?_⟩
  rw [after.tellsPresence, before.tellsPresence, last]
  cases (List.filterMap _ (asked.wanted (deployment.site.relay.published.drop
    settled.site.relay.published.length))).getLast? with
  | none => rfl
  | some change => simp

/-- **Clients mirror the states of factions**, in the same runs: the row of a faction in a system
lists a state, as pending or as active, exactly when the last lifecycle that was published since
is not that it ended or, without any, when the row listed it in the settled state. -/
theorem clients_mirror_states {db : Db P} {clock : Timestamp} {isUp : Bool} {state : FactionState}
    (reachable : WorkerReachable db)
    (earlier : Reaches (next codec) TakesTurns (.start db clock isUp) settled)
    (settles : settled.broker.SettledConnection connectionId asked)
    (asks : asked.AsksAbout .factionStateChanged systemId factionId)
    (run : Reaches (next codec) Steady settled deployment)
    (known : deployment.broker.connections.get connectionId = some connection)
    (isOpen : connection.isClosed = false) (quiet : deployment.inFlight = [])
    (inTime : InTime (watchState systemId factionId state) deployment.site.db.eventOutbox)
    (drained : ∀ row ∈ signalRows (watchState systemId factionId state)
      deployment.site.db.eventOutbox, row ∈ deployment.site.relay.removedRows) :
    connection.Hears codec
        ((settled.heard ++ settled.inFlight).drop (settled.heardBefore connectionId) ++
          deployment.site.relay.published.drop settled.site.relay.published.length) ∧
      (deployment.site.db.Lists factionId systemId state ↔
        ((asked.wanted (deployment.site.relay.published.drop
            settled.site.relay.published.length)).filterMap
          (hearState systemId factionId state)).getLast?.elim
            (settled.site.db.Lists factionId systemId state) (· ≠ .ended)) := by
  obtain ⟨complete, before, after, last⟩ := getLast?_told (relayed_state systemId factionId state)
    reachable earlier settles asks.wants_state run inTime drained
  refine ⟨complete.hears known isOpen quiet, ?_⟩
  rw [after.lists_iff, before.lists_iff, last]
  cases (List.filterMap _ (asked.wanted (deployment.site.relay.published.drop
    settled.site.relay.published.length))).getLast? with
  | none => rfl
  | some lifecycle => simp

end Deployment

/-! ## Samples -/

/-- A client that asks for the faction of the sample messages. -/
def sampleMirror (eventType : RealtimeEventType) : RegisterConnectionInput :=
  { sampleClient with eventType }

/-- The client connects and settles. -/
def sampleSettling (eventType : RealtimeEventType) : List (DeploymentAction ℚ) :=
  let demandKey := getDemandKey eventType sampleFactionId.toText
  [.broker (.registerConnection 0 (sampleMirror eventType)),
    .broker (.redis (.runNext demandKey)), .broker (.redis (.resolve demandKey)),
    .broker (.resumeRegistration ⟨0, 1⟩ false)]

/-- The faction enters the system in a boom. -/
def sampleArrival : List (DeploymentAction ℚ) :=
  let boom : FactionElement ℚ :=
    { sampleFaction "A" (1 / 2) with activeStates := some [⟨"Boom", none⟩] }
  [.site (.begin 0 (.fsdJump (sampleMessage (some "A") [boom]))), .site (.commit 0 (sampleEnv 1)),
    .site (.relay (.fetchBatch 0 [0, 1]))] ++
  (List.replicate 2 (handleNextRow.map .site)).flatten ++ [.site (.relay (.commit 0)), .deliver]

/-- A client settles, and the faction arrives. -/
theorem exists_sampleMirror {ν : Type} (eventType : RealtimeEventType)
    (read : OutboxInsert ℚ → Option ν)
    (computed : (execute (Deployment.next rationalJsonCodec)
      (Deployment.start (Db.empty : Db asciiPlatform) 1 true) (sampleSettling eventType)).any
      (fun settled : Deployment asciiPlatform =>
        decide (settled.broker.redisSubscriptions.subscriber.isUp = true) &&
        (settled.broker.connections.get ⟨0, 1⟩).any fun asked : SseConnection =>
          decide (asked.isClosed = false ∧ asked.eventType = eventType ∧
            asked.systemIdAllowlist = none ∧ sampleFactionId.toText ∈ asked.routingKeys ∧
            ∀ routingKey ∈ asked.routingKeys,
              (settled.broker.redisSubscriptions.subscriptionOpByDemandKey.get
                (getDemandKey asked.eventType routingKey)).isNone ∧
              asked.eventType.getChannel routingKey ∉
                settled.broker.redisSubscriptions.subscriber.failedSubscribes) &&
          (execute (admitted (Deployment.next rationalJsonCodec) Deployment.Steady) settled
            sampleArrival).any fun deployment : Deployment asciiPlatform =>
              decide (deployment.inFlight.length = 0 ∧ deployment.heard.length = 1 ∧
                InTime read deployment.site.db.eventOutbox ∧
                ∀ row ∈ signalRows read deployment.site.db.eventOutbox,
                  row ∈ deployment.site.relay.removedRows) &&
              (deployment.broker.connections.get ⟨0, 1⟩).any fun connection : SseConnection =>
                connection.isClosed = false) = true) :
    ∃ (settled deployment : Deployment asciiPlatform) (asked connection : SseConnection),
      Reaches (Deployment.next rationalJsonCodec) Deployment.TakesTurns
        (Deployment.start Db.empty 1 true) settled ∧
      settled.broker.SettledConnection ⟨0, 1⟩ asked ∧
      asked.AsksAbout eventType (.ofNat 1000) sampleFactionId ∧
      Reaches (Deployment.next rationalJsonCodec) Deployment.Steady settled deployment ∧
      deployment.broker.connections.get ⟨0, 1⟩ = some connection ∧ connection.isClosed = false ∧
      deployment.inFlight = [] ∧ deployment.heard.length = 1 ∧
      InTime read deployment.site.db.eventOutbox ∧
      ∀ row ∈ signalRows read deployment.site.db.eventOutbox,
        row ∈ deployment.site.relay.removedRows := by
  obtain ⟨settled, ran, observed⟩ := (Option.any_eq_true _ _).mp computed
  obtain ⟨isUp, observed⟩ := Bool.and_eq_true_iff.mp observed
  obtain ⟨asked, stored, observed⟩ := (Option.any_eq_true _ _).mp observed
  obtain ⟨settles, observed⟩ := Bool.and_eq_true_iff.mp observed
  obtain ⟨wasOpen, asks, all, named, keys⟩ := of_decide_eq_true settles
  obtain ⟨deployment, later, observed⟩ := (Option.any_eq_true _ _).mp observed
  obtain ⟨ends, observed⟩ := Bool.and_eq_true_iff.mp observed
  obtain ⟨arrived, heard, inTime, drained⟩ := of_decide_eq_true ends
  obtain ⟨connection, known, isOpen⟩ := (Option.any_eq_true _ _).mp observed
  refine ⟨settled, deployment, asked, connection, .of_execute ?_ ran,
    ⟨stored, wasOpen, of_decide_eq_true isUp, fun routingKey member => ?_,
      fun routingKey member => (keys routingKey member).2⟩,
    ⟨asks, named, fun systemIds some_ => ?_⟩, ?_, known, of_decide_eq_true isOpen,
    List.length_eq_zero_iff.mp arrived, heard, inTime, drained⟩
  · simp [sampleSettling, Deployment.TakesTurns]
  · exact Option.isNone_iff_eq_none.mp (keys routingKey member).1
  · rw [all] at some_
    cases some_
  · exact .of_admitted (.of_execute (fun _ _ _ => trivial) later)

/-- The client is told that the faction entered. -/
theorem clients_mirror_presence_sample :
    ∃ (settled deployment : Deployment asciiPlatform) (asked : SseConnection),
      deployment.heard.length = 1 ∧
        (sampleFactionId ∈ deployment.site.db.membership (.ofNat 1000) ↔
          ((asked.wanted (deployment.site.relay.published.drop
              settled.site.relay.published.length)).filterMap
            (hearPresence (.ofNat 1000) sampleFactionId)).getLast?.elim
              (sampleFactionId ∈ settled.site.db.membership (.ofNat 1000)) (· = .entered)) := by
  obtain ⟨settled, deployment, asked, connection, earlier, settles, asks, run, known, isOpen, quiet,
    heard, inTime, drained⟩ := exists_sampleMirror .factionPresenceChanged
      (watchPresence (.ofNat 1000) sampleFactionId) (by decide +kernel)
  exact ⟨settled, deployment, asked, heard, (Deployment.clients_mirror_presence .start earlier
    settles asks run known isOpen quiet inTime drained).2⟩

/-- The client is told that the boom is active. -/
theorem clients_mirror_states_sample :
    ∃ (settled deployment : Deployment asciiPlatform) (asked : SseConnection),
      deployment.heard.length = 1 ∧
        (deployment.site.db.Lists sampleFactionId (.ofNat 1000) .boom ↔
          ((asked.wanted (deployment.site.relay.published.drop
              settled.site.relay.published.length)).filterMap
            (hearState (.ofNat 1000) sampleFactionId .boom)).getLast?.elim
              (settled.site.db.Lists sampleFactionId (.ofNat 1000) .boom) (· ≠ .ended)) := by
  obtain ⟨settled, deployment, asked, connection, earlier, settles, asks, run, known, isOpen, quiet,
    heard, inTime, drained⟩ := exists_sampleMirror .factionStateChanged
      (watchState (.ofNat 1000) sampleFactionId .boom) (by decide +kernel)
  exact ⟨settled, deployment, asked, heard, (Deployment.clients_mirror_states .start earlier
    settles asks run known isOpen quiet inTime drained).2⟩

end EliteHubVault
