import EliteHubVault.Delivery.Drain

/-!
# Events arrive

A message that Redis has sent arrives in every run in which Redis keeps its connection and the
arrival of the next message is not put off for ever. With the relay that drains the outbox this
gives the way of an event as a whole: a row that the worker inserts after a connection is settled
is handled, and the client accepts each event of the row that it asked for, as long as its
connection is open (`every_event_arrives`).
-/

set_option autoImplicit false
set_option linter.unusedSectionVars false

namespace EliteHubVault

open Library

variable {K : Type} [Field K] [LinearOrder K] {P : Platform K} {codec : JsonCodec K}

/-! ## Events that were accepted -/

namespace SseConnection

theorem exists_mem_numbered {payloads : List (RealtimePayload K)} {payload : RealtimePayload K}
    (member : payload ∈ payloads) :
    ∃ eventId, (eventId, payload.eventType, payload.toJson) ∈ numbered payloads := by
  obtain ⟨index, bound, rfl⟩ := List.getElem_of_mem member
  refine ⟨1 + index, List.mem_map.mpr ⟨(payloads[index], 1 + index), ?_, rfl⟩⟩
  exact List.mk_add_mem_zipIdx_iff_getElem?.mpr (List.getElem?_eq_getElem bound)

/-- An open connection that has heard a publication that it wants has accepted its event. -/
theorem Hears.exists_accepted {connection : SseConnection} {publications : List (Publication K)}
    (hears : connection.Hears codec publications) (isOpen : connection.isClosed = false)
    {payload : RealtimePayload K} (member : payload ∈ connection.wanted publications) :
    ∃ eventId, createSseEventFrame payload.eventType.text eventId
      (codec.stringify payload.toJson) ∈ connection.accepted := by
  obtain ⟨frames, accepted, -, told⟩ := hears
  obtain ⟨eventId, listed⟩ := exists_mem_numbered member
  rw [← (told isOpen).1] at listed
  obtain ⟨frame, inFrames, event⟩ := List.mem_filterMap.mp listed
  refine ⟨eventId, accepted ▸ List.mem_map.mpr ⟨frame, inFrames, ?_⟩⟩
  cases frame with
  | retry => cases event
  | connected => cases event
  | keepalive => cases event
  | event eventType eventId payload =>
      cases event
      rfl

end SseConnection

/-! ## Messages under way -/

namespace Deployment

variable {deployment deployment' : Deployment P}

/-- **No message is lost while Redis keeps its connection**, and the next one arrives. -/
theorem flight_next {action : DeploymentAction K} (stays : deployment.StaysConnected action)
    (taken : deployment.next codec action = some deployment') :
    deployment.heard ++ deployment.inFlight <+: deployment'.heard ++ deployment'.inFlight ∧
      deployment.heard.length ≤ deployment'.heard.length ∧
      (action = .deliver → deployment.heard.length < deployment'.heard.length) := by
  refine ⟨?_, (heard_next taken).length_le, ?_⟩
  · cases action with
    | site action =>
        obtain ⟨site, -, rfl⟩ := Option.map_eq_some_iff.mp taken
        dsimp only
        rw [← List.append_assoc]
        exact List.prefix_append _ _
    | deliver =>
        unfold next at taken
        dsimp only at taken
        split at taken
        · cases taken
        · rename_i publication rest arriving
          cases taken
          dsimp only
          rw [arriving, List.append_assoc, List.singleton_append]
    | broker action =>
        obtain ⟨broker, -, -, rfl⟩ := exists_broker_of_next taken
        have kept : keptInFlight deployment.inFlight action = deployment.inFlight := by
          unfold keptInFlight
          split
          · exact absurd rfl stays
          · rfl
        dsimp only
        rw [kept]
  · rintro rfl
    unfold next at taken
    dsimp only at taken
    split at taken
    · cases taken
    · cases taken
      simp

/-- What was published since a connection was settled, and it asked for, is among the messages
that have arrived since its registration or are under way. -/
theorem Complete.mem_wanted {settled : Deployment P} {connectionId : ConnectionId}
    {asked connection : SseConnection}
    (complete : Complete codec settled connectionId asked deployment)
    (known : deployment.broker.connections.get connectionId = some connection)
    (isOpen : connection.isClosed = false) {payload : RealtimePayload K}
    (member : payload ∈ asked.wanted
      (deployment.site.relay.published.drop settled.site.relay.published.length)) :
    payload ∈ asked.wanted ((deployment.heard ++ deployment.inFlight).drop
      (settled.heardBefore connectionId)) := by
  obtain ⟨connection', known', -, told⟩ := complete.known
  obtain rfl := Option.some_inj.mp (known'.symm.trans known)
  obtain ⟨-, equation⟩ := told isOpen
  obtain ⟨later, arrived⟩ := complete.arrived
  rw [← arrived, List.append_assoc, List.drop_append_of_le_length complete.before,
    SseConnection.wanted_append]
  rw [← arrived, List.append_assoc, SseConnection.wanted_append, SseConnection.wanted_append _
    settled.heard, List.append_assoc, List.append_cancel_left_eq] at equation
  rw [equation]
  exact List.mem_append_right _ (List.mem_append_right _ member)

end Deployment

/-! ## Arrival -/

/-- The connection to Redis is lost. -/
def ApiServerAction.ClosesRedis (action : ApiServerAction K) : Prop :=
  action = .deployment (.broker (.redis .close))

namespace ApiServer

variable {server server' : ApiServer P} {run : InfiniteRun (next (P := P) codec)} {m n : ℕ}

/-- A step of a server that stays connected is one of its deployment. -/
theorem connected_of_next {action : ApiServerAction K} (stays : ¬ action.ClosesRedis)
    (taken : server.next codec action = some server') :
    Reaches (Deployment.next codec) Deployment.StaysConnected server.deployment
      server'.deployment :=
  reaches_of_next (fun _ isDeployment closes =>
    stays (isDeployment.trans (congrArg _ closes))) taken

theorem connected_of_le (later : m ≤ n)
    (stays : ∀ k, m ≤ k → k < n → ¬ (run.action k).ClosesRedis) :
    Reaches (Deployment.next codec) Deployment.StaysConnected (run.state m).deployment
      (run.state n).deployment := by
  induction n, later using Nat.le_induction with
  | base => exact .start
  | succ n later ih =>
      exact (ih fun k after before => stays k after (before.trans (Nat.lt_succ_self n))).trans
        (connected_of_next (stays n later (Nat.lt_succ_self n)) (run.taken n))

/-- A message has not arrived, and none is lost. -/
structure UnderWay (sent : List (Publication K)) (server : ApiServer P) : Prop where
  kept : sent <+: server.deployment.heard ++ server.deployment.inFlight
  pending : ¬ sent <+: server.deployment.heard

namespace UnderWay

variable {sent : List (Publication K)}

theorem length_lt (underWay : UnderWay sent server) :
    server.deployment.heard.length < sent.length := by
  by_contra enough
  exact underWay.pending (List.prefix_of_prefix_length_le underWay.kept (List.prefix_append _ _)
    (Nat.le_of_not_lt enough))

/-- The next message can arrive. -/
theorem possible (underWay : UnderWay sent server) :
    (server.next codec (.deployment .deliver)).isSome := by
  cases flight : server.deployment.inFlight with
  | nil =>
      have kept := underWay.kept
      rw [flight, List.append_nil] at kept
      exact absurd kept underWay.pending
  | cons publication rest => simp [next, followed, Deployment.next, flight]

theorem step (underWay : UnderWay sent server) {action : ApiServerAction K}
    (stays : ¬ action.ClosesRedis) (taken : server.next codec action = some server') :
    sent <+: server'.deployment.heard ∨ (UnderWay sent server' ∧
      sent.length - server'.deployment.heard.length ≤
        sent.length - server.deployment.heard.length ∧
      (action = .deployment .deliver →
        sent.length - server'.deployment.heard.length <
          sent.length - server.deployment.heard.length)) := by
  by_cases arrived : sent <+: server'.deployment.heard
  · exact .inl arrived
  right
  have flight : server.deployment.heard ++ server.deployment.inFlight <+:
        server'.deployment.heard ++ server'.deployment.inFlight ∧
      server.deployment.heard.length ≤ server'.deployment.heard.length := by
    have reached := connected_of_next stays taken
    generalize server.deployment = deployment, server'.deployment = deployment' at reached
    induction reached with
    | start => exact ⟨List.prefix_rfl, le_rfl⟩
    | step _ admitted stepped ih =>
        obtain ⟨kept, longer, -⟩ := Deployment.flight_next admitted stepped
        exact ⟨ih.1.trans kept, ih.2.trans longer⟩
  refine ⟨⟨underWay.kept.trans flight.1, arrived⟩, Nat.sub_le_sub_left flight.2 _, ?_⟩
  rintro rfl
  have stepped := (deployment_cases taken).1
  have longer := (Deployment.flight_next (fun closes => by cases closes) stepped).2.2 rfl
  exact Nat.sub_lt_sub_left underWay.length_lt longer

end UnderWay

/-- **What Redis has sent arrives.** -/
theorem eventually_heard (arrives : run.WeaklyFair fun _ action => action = .deployment .deliver)
    (stays : ∀ k, m ≤ k → ¬ (run.action k).ClosesRedis) :
    ∃ k, m ≤ k ∧ (run.state m).deployment.heard ++ (run.state m).deployment.inFlight <+:
      (run.state k).deployment.heard := by
  by_cases arrived : (run.state m).deployment.heard ++ (run.state m).deployment.inFlight <+:
      (run.state m).deployment.heard
  · exact ⟨m, le_rfl, arrived⟩
  · exact arrives.eventually_of_rank (fun server => _ - server.deployment.heard.length)
      (UnderWay _) (fun server => _ <+: server.deployment.heard)
      (fun k _ underWay => ⟨_, rfl, underWay.possible⟩)
      (fun k later underWay => underWay.step (stays k later) (run.taken k))
      ⟨List.prefix_rfl, arrived⟩

/-- **Every event arrives.** In a run that relays a row, the row is inserted after a connection is
settled, Redis keeps its connection, the connection stays open and the arrival of messages is not
put off for ever: then the relay handles and removes the row, and the connection accepts an event
for each target that the relay found for the row and that the client asked for. -/
theorem every_event_arrives {db : Db P} {clock : Timestamp} {isUp : Bool} {row settles : ℕ}
    {connectionId : ConnectionId} {asked : SseConnection} (reachable : WorkerReachable db)
    (run : InfiniteRun (next (P := P) codec))
    (begins : Reachable (next codec) (.start db clock isUp) (run.state 0))
    (settled : (run.state settles).deployment.broker.SettledConnection connectionId asked)
    (isOpen : ∀ k, settles ≤ k → ∀ connection,
      (run.state k).deployment.broker.connections.get connectionId = some connection →
        connection.isClosed = false)
    (stays : ∀ k, settles ≤ k → ¬ (run.action k).ClosesRedis)
    (arrives : run.WeaklyFair fun _ action => action = .deployment .deliver)
    (relays : Relays row run) (fresh : (run.state settles).outbox.length ≤ row)
    (inserted : row < (run.state n).outbox.length)
    (passes : ∃ m, createdAtOf (run.state n).outbox row < (run.state m).deployment.site.clock) :
    ∃ m k, n ≤ m ∧ m ≤ k ∧ ∃ removal ∈ (run.state m).relay.removed, removal.row = row ∧
      removal.Answers (run.state m).outbox ∧
      ∀ target ∈ removal.result.targets, asked.Wants target.payload → ∃ connection eventId,
        (run.state k).deployment.broker.connections.get connectionId = some connection ∧
          createSseEventFrame target.payload.eventType.text eventId
            (codec.stringify target.payload.toJson) ∈ connection.accepted := by
  have running := running_of_begins reachable begins
  have afterSettling : settles ≤ n := by
    by_contra before
    have grown := (Running.grows_of_le running (Nat.le_of_not_le before)).1
    exact absurd (inserted.trans_le grown.length_le) fresh.not_gt
  obtain ⟨m, later, member⟩ := relays.removes running inserted passes
  obtain ⟨removal, listed, same, answers, published⟩ := (running m).removal_of_mem member
  have afterRemoval : settles ≤ m := afterSettling.trans later
  obtain ⟨k, after, heard⟩ :=
    eventually_heard arrives fun k after => stays k (afterRemoval.trans after)
  refine ⟨m, k, later, after, removal, listed, same, answers, fun target built wants => ?_⟩
  have earlier : Reachable (Deployment.next codec) (.start db clock isUp)
      (run.state settles).deployment :=
    (takesTurns_of_reaches (.start db clock isUp)
      (begins.trans (run.reaches (Nat.zero_le settles) fun _ _ _ => trivial))).reachable
  have completeAt : ∀ k, settles ≤ k → Deployment.Complete codec (run.state settles).deployment
      connectionId asked (run.state k).deployment := fun k after =>
    Deployment.complete_of_reaches earlier settled
      (connected_of_le after fun j before _ => stays j before)
  -- The publication was made after the connection was settled.
  have since : ⟨row, target⟩ ∈ (run.state m).deployment.site.relay.published.drop
      (run.state settles).deployment.site.relay.published.length := by
    obtain ⟨new, grown⟩ := (completeAt m afterRemoval).grown
    have inserted := same ▸ published target built
    rw [ApiServer.relay, ← grown] at inserted
    rw [← grown, List.drop_left]
    refine (List.mem_append.mp inserted).resolve_left fun old => ?_
    exact absurd ((running settles).consistent.relay.inserted _ old) fresh.not_gt
  have member : target.payload ∈ asked.wanted
      ((run.state m).deployment.site.relay.published.drop
        (run.state settles).deployment.site.relay.published.length) :=
    List.mem_filter.mpr ⟨List.mem_map.mpr ⟨_, since, rfl⟩, decide_eq_true wants⟩
  obtain ⟨connectionBefore, knownBefore, -, -⟩ := (completeAt m afterRemoval).known
  have wanted := (completeAt m afterRemoval).mem_wanted knownBefore
    (isOpen m afterRemoval _ knownBefore) member
  have afterAll : settles ≤ k := afterRemoval.trans after
  obtain ⟨connection, known, asks, -⟩ := (completeAt k afterAll).known
  have hears := (completeAt k afterAll).delivers.hears connectionId connection known
  rw [(completeAt k afterAll).registered] at hears
  have inHeard : target.payload ∈ connection.wanted ((run.state k).deployment.heard.drop
      ((run.state settles).deployment.heardBefore connectionId)) := by
    have before := (completeAt m afterRemoval).before.trans
      (completeAt m afterRemoval).arrived.length_le
    obtain ⟨rest, all⟩ := heard
    rw [SseConnection.wanted_congr asks.eventType asks.routingKeys asks.systemIdAllowlist, ← all,
      List.drop_append_of_le_length (by rw [List.length_append]; omega),
      SseConnection.wanted_append]
    exact List.mem_append_left _ wanted
  obtain ⟨eventId, accepted⟩ := hears.exists_accepted (isOpen k afterAll _ known) inHeard
  exact ⟨connection, eventId, known, accepted⟩

/-- A connection that is open later was open. -/
theorem isOpen_of_later {db : Db P} {clock : Timestamp} {isUp : Bool} {connectionId : ConnectionId}
    {connection later : SseConnection}
    (begins : Reachable (next codec) (.start db clock isUp) server)
    (reached : Reachable (next codec) server server')
    (known : server.deployment.broker.connections.get connectionId = some connection)
    (knownLater : server'.deployment.broker.connections.get connectionId = some later)
    (isOpen : later.isClosed = false) : connection.isClosed = false := by
  have asks : ∃ connection', server'.deployment.broker.connections.get connectionId =
      some connection' ∧ connection.StillAsks connection' := by
    have begun : Reachable (Deployment.next codec) (.start db clock isUp) server.deployment :=
      (takesTurns_of_reaches (.start db clock isUp) begins).reachable
    have run : Reachable (Deployment.next codec) server.deployment server'.deployment :=
      (takesTurns_of_reaches (sound_of_reaches (.start db clock isUp) begins) reached).reachable
    generalize server'.deployment = deployment at run
    induction run with
    | start => exact ⟨connection, known, .refl connection⟩
    | step before _ taken ih =>
        obtain ⟨middle, knownMiddle, asks⟩ := ih
        obtain ⟨-, connection', known', asks'⟩ := Deployment.known_next
          (Deployment.delivers_of_reaches (begun.trans before)) knownMiddle taken
        exact ⟨connection', known', asks.trans asks'⟩
  obtain ⟨connection', known', asks⟩ := asks
  obtain rfl := Option.some_inj.mp (known'.symm.trans knownLater)
  exact asks.isOpen isOpen

end ApiServer

/-! ## Samples -/

/-- A client settles, the relay starts and the worker inserts a row; then the row is relayed and
its message arrives. -/
def sampleArrivalOfEvent : List (ApiServerAction ℚ) :=
  sampleServing ++ sampleRelaying ++ [.deployment .deliver]

/-- The client accepts the event of the worker. -/
theorem every_event_arrives_sample :
    ∃ (run : InfiniteRun (ApiServer.next (P := asciiPlatform) rationalJsonCodec)) (k : ℕ)
      (asked connection : SseConnection) (target : PublishTarget ℚ) (eventId : ℕ),
      (run.state 0).outbox = [] ∧ asked.Wants target.payload ∧
        (run.state k).deployment.broker.connections.get ⟨0, 1⟩ = some connection ∧
          createSseEventFrame target.payload.eventType.text eventId
            (rationalJsonCodec.stringify target.payload.toJson) ∈ connection.accepted := by
  obtain ⟨settled, reached, observed⟩ := exists_reachable_of_execute
    (ApiServer.next rationalJsonCodec) (ApiServer.start (Db.empty : Db asciiPlatform) 1 true)
    ((sampleDelivery.take 4).map .deployment)
    (fun settled : ApiServer asciiPlatform =>
      decide (settled.deployment.broker.redisSubscriptions.subscriber.isUp = true ∧
        settled.outbox.length = 0) &&
      (settled.deployment.broker.connections.get ⟨0, 1⟩).any fun asked : SseConnection =>
        decide (asked.isClosed = false ∧ ∀ routingKey ∈ asked.routingKeys,
          (settled.deployment.broker.redisSubscriptions.subscriptionOpByDemandKey.get
            (getDemandKey asked.eventType routingKey)).isNone ∧
          asked.eventType.getChannel routingKey ∉
            settled.deployment.broker.redisSubscriptions.subscriber.failedSubscribes) &&
        (execute (ApiServer.next rationalJsonCodec) settled sampleArrivalOfEvent).any
          fun server : ApiServer asciiPlatform =>
            decide (server.isShuttingDown = false ∧ server.eventOutboxRelay.isRunning = true ∧
              server.outbox.length = 1 ∧ server.deployment.inFlight.length = 0 ∧
              (∀ outboxRow ∈ server.outbox, (toISOString (outboxRow.createdAt / 1000)).isSome) ∧
              createdAtOf server.outbox 0 < server.deployment.site.clock ∧
              0 ∈ server.relay.removedRows ∧
              ∀ removal ∈ server.relay.removed, removal.row = 0 →
                removal.result.targets.any fun target => asked.Wants target.payload) &&
            (server.deployment.broker.connections.get ⟨0, 1⟩).any
              fun connection : SseConnection => connection.isClosed = false)
    (by decide +kernel)
  obtain ⟨begins, observed⟩ := Bool.and_eq_true_iff.mp observed
  obtain ⟨isUp, none⟩ := of_decide_eq_true begins
  obtain ⟨asked, stored, observed⟩ := (Option.any_eq_true _ _).mp observed
  obtain ⟨settles, observed⟩ := Bool.and_eq_true_iff.mp observed
  obtain ⟨wasOpen, keys⟩ := of_decide_eq_true settles
  obtain ⟨server, ran, observed⟩ := (Option.any_eq_true _ _).mp observed
  obtain ⟨finished, observed⟩ := Bool.and_eq_true_iff.mp observed
  obtain ⟨goesOn, runs, length, arrived, valid, passed, removed, asks⟩ := of_decide_eq_true finished
  obtain ⟨connection, known, isOpen⟩ := (Option.any_eq_true _ _).mp observed
  obtain ⟨run, same, actions, ends⟩ :=
    InfiniteRun.exists_of_execute ran (ApiServer.next_tick rationalJsonCodec server)
  rw [← same] at reached stored isUp none keys
  have atEnd := ends _ le_rfl
  have running := ApiServer.running_of_begins .start reached
  have idle : ∀ m, sampleArrivalOfEvent.length ≤ m → ¬ (run.action m).Fails := by
    intro m later
    rw [actions, List.getD_eq_default _ _ later]
    exact id
  have connected : ∀ action ∈ sampleArrivalOfEvent, ¬ action.ClosesRedis := by
    simp [sampleArrivalOfEvent, sampleServing, sampleRelaying, handleNextRow,
      ApiServerAction.ClosesRedis]
  have stays : ∀ m, ¬ (run.action m).ClosesRedis := by
    intro m
    rw [actions]
    by_cases inside : m < sampleArrivalOfEvent.length
    · rw [List.getD_eq_getElem _ _ inside]
      exact connected _ (List.getElem_mem inside)
    · rw [List.getD_eq_default _ _ (Nat.le_of_not_lt inside)]
      simp [ApiServerAction.ClosesRedis]
  have reaches : ∀ m k, m ≤ k →
      Reachable (ApiServer.next rationalJsonCodec) (run.state m) (run.state k) :=
    fun m k later => run.reaches later fun _ _ _ => trivial
  obtain ⟨m, k, later, after, removal, listed, row, -, accepted⟩ := ApiServer.every_event_arrives
    (n := sampleArrivalOfEvent.length) .start run reached
    ⟨stored, wasOpen, isUp, fun routingKey member =>
      Option.isNone_iff_eq_none.mp (keys routingKey member).1,
      fun routingKey member => (keys routingKey member).2⟩
    (fun m _ connectionThen knownThen => by
      refine ApiServer.isOpen_of_later (reached.trans (reaches 0 m (Nat.zero_le m)))
        (reaches m (m + sampleArrivalOfEvent.length) (Nat.le_add_right _ _)) knownThen ?_
        (of_decide_eq_true isOpen)
      rw [ends _ (Nat.le_add_left _ _)]
      exact known)
    (fun m _ => stays m)
    (fun n possible => by
      obtain ⟨action, rfl, taken⟩ :=
        possible (n + sampleArrivalOfEvent.length) (Nat.le_add_right _ _)
      rw [ends _ (Nat.le_add_left _ _)] at taken
      simp [ApiServer.next, ApiServer.followed, Deployment.next,
        List.length_eq_zero_iff.mp arrived] at taken)
    (ApiServer.relays_of_ends running ends idle goesOn runs removed valid)
    (by rw [none]) (by rw [atEnd, length]; exact Nat.zero_lt_one)
    ⟨_, by rw [atEnd]; exact passed⟩
  rw [ends m later] at listed
  obtain ⟨target, built, wants⟩ := List.any_eq_true.mp (asks removal listed row)
  obtain ⟨connection, eventId, known, accepted⟩ := accepted target built (of_decide_eq_true wants)
  exact ⟨run, k, asked, connection, target, eventId, List.length_eq_zero_iff.mp none,
    of_decide_eq_true wants, known, accepted⟩

end EliteHubVault
